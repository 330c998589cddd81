import BuildMarkers.Program
import BuildMarkers.Proofs.Disk.Frame
import BuildMarkers.Proofs.Resolution.Report
import BuildMarkers.Proofs.Session.Stream
/-!
# All of a report or none of it

A session that writes its report onto a file replaces that file by the complete
report or leaves the disk as it was, whatever happens on the way. The temporary
file is the only change that is made before the end, and it is put where nothing
was (`create_file`). Every way out but one takes it away again, and the one that
is left moves it onto the target (`write_file`), after all of the log has become
markers (`delivery_complete`).
-/

namespace BuildMarkers

open Disk

namespace Destination

variable {d D : Disk} {s : Surroundings} {channel : Channel} {name : String}
  {destination : Destination} {x : Place} {path target : Path}

/-- A destination that is a file begins with an empty one where nothing was. -/
theorem create_file (h : create d s channel = .ok (.file x path target, D)) :
    x ≠ [] ∧ d.node? x = none ∧ D = d.put x (.file { content := [] }) := by
  delta create at h
  cases channel with
  | standard => cases h
  | file name =>
    dsimp only at h
    split at h
    · next created D' hcreate =>
      cases h
      exact createTemporary_eq_ok hcreate
    · cases h

/-- Its target is the file that is asked for. -/
theorem exists_eq_file (h : create d s (.file name) = .ok (destination, D)) :
    ∃ x path, destination = .file x path (.ofString name) := by
  delta create at h
  dsimp only at h
  split at h
  · cases h
    exact ⟨_, _, rfl⟩
  · cases h

/-- **Writing fails and takes the temporary file away, or nothing fails and the
complete report is moved onto the target.** -/
theorem write_file (d : Disk) (delivery : Delivery) (x : Place) (path target : Path) :
    let written := write d delivery (.file x path target)
    (written.error.isNone = false ∧ written.disk = d.remove x) ∨
      (written.error.isNone = true ∧ delivery.fault = none ∧
        refusal d path delivery.markers = none ∧
        (d.write x (Text.encode (String.ofList (Report.complete delivery.markers)))).moveFile x
          target = .ok written.disk) := by
  simp only [write, abandon]
  cases hfault : delivery.fault with
  | some fault => simp
  | none =>
    cases hrefusal : refusal d path delivery.markers with
    | some error => simp
    | none =>
      cases hmove : (d.write x
        (Text.encode (String.ofList (Report.complete delivery.markers)))).moveFile x target with
      | error fault => simp
      | ok after => simp

end Destination

namespace Session

variable {d during : Disk} {s : Surroundings} {o : Options} {settings : Settings}
  {session : Session} {standardInput data : FileData} {x : Place} {path target : Path}

/-- What a session is that has been set up. -/
theorem prepare_eq_ok (h : (prepare d s o settings).2 = .ok (session, during)) :
    inputOf d s o.input = .ok session.input ∧
      Destination.create d s o.output = .ok (session.destination, during) := by
  obtain ⟨tree, -, h⟩ := bind_eq_ok_iff.1 h
  obtain ⟨project, -, h⟩ := bind_eq_ok_iff.1 h
  obtain ⟨input, hinput, h⟩ := bind_eq_ok_iff.1 h
  obtain ⟨⟨destination, D⟩, hcreate, h⟩ := bind_eq_ok_iff.1 h
  cases h
  exact ⟨hinput, mapError_eq_ok_iff.1 hcreate⟩

/-- The temporary file of a session that is set up stands where nothing was. -/
theorem added_of_prepare (h : (prepare d s o settings).2 = .ok (session, during))
    (hfile : session.destination = .file x path target) :
    x ≠ [] ∧ d.node? x = none ∧ during = d.put x (.file { content := [] }) := by
  obtain ⟨-, hcreate⟩ := prepare_eq_ok h
  rw [hfile] at hcreate
  exact Destination.create_file hcreate

/-- A build log that is there when the session is set up is opened as it is, with
one more file on the disk or without it. -/
theorem openInput_of_adds (hinput : inputOf d s o.input = .ok session.input) (h : d.Adds during x) :
    session.openInput during standardInput = session.openInput d standardInput := by
  rw [openInput, openInput]
  cases hpath : session.input with
  | none => rfl
  | some path =>
    have hfile : d.isFile path = true := by
      rw [hpath] at hinput
      cases hchannel : o.input with
      | standard =>
        rw [hchannel] at hinput
        cases hinput
      | file name =>
        rw [hchannel] at hinput
        simp only [inputOf] at hinput
        split_ifs at hinput with hfile
        cases hinput
        exact hfile
    dsimp only
    rw [h.openFile hfile]

/-- **A delivery that the destination takes in full is that of the whole log**,
and the log was read to its end. -/
theorem delivery_complete (hfile : session.destination = .file x path target)
    (hfault : (session.delivery during data).fault = none)
    (hrefusal : Destination.refusal during path (session.delivery during data).markers = none) :
    data.readFault = none ∧ (session.delivery during data).markers =
      MarkerStream.markersOf (session.matching during) (.start session.directory)
        (BuildLog.linesOf data.content) := by
  obtain ⟨hmarkers, hend⟩ :=
    MarkerStream.drain_eq (session.matching during) (session.destination.room during)
    (MarkerStream.start (.ofFile data) session.directory)
  rw [← delivery] at hmarkers hend
  have hlog := BuildLog.fault_ofFile data
  have hall : (session.delivery during data).fault = data.readFault ∧
      (session.delivery during data).markers = MarkerStream.markersOf (session.matching during)
        (.start session.directory) (BuildLog.ofFile data).lines := by
    cases hwrite : during.writeFault with
    | none =>
      have hroom : session.destination.room during = none := by
        rw [hfile, Destination.room, hwrite, Option.map_none]
      rw [hroom] at hmarkers hend
      exact ⟨(hend (by simp)).trans hlog, hmarkers⟩
    | some refused =>
      obtain ⟨taken, fault⟩ := refused
      have hroom : session.destination.room during = some taken := by
        rw [hfile, Destination.room, hwrite, Option.map_some]
      rw [hroom] at hmarkers hend
      -- Had the disk taken fewer markers than there are, it would have refused the next one.
      have hshort : (session.delivery during data).markers.length < taken := by
        by_contra hlong
        simp [Destination.refusal, hwrite, Nat.le_of_not_lt hlong] at hrefusal
      simp only [hmarkers, Option.elim_some, List.length_take] at hshort
      refine ⟨(hend fun k hk => ?_).trans hlog, hmarkers.trans (List.take_of_length_le ?_)⟩
      · cases hk
        omega
      · omega
  rw [hall.1] at hfault
  refine ⟨hfault, ?_⟩
  rw [hall.2, BuildLog.ofFile, hfault]

/-- A session from its setting up to its end: whether it succeeds, and the disk
behind it. An obstacle keeps the report from being begun. -/
def conduct (d : Disk) (s : Surroundings) (o : Options) (settings : Settings)
    (standardInput : FileData) :
    Bool × Disk :=
  match (prepare d s o settings).2 with
  | .error _ => (false, d)
  | .ok (session, during) =>
    let ending := session.run during standardInput
    (ending.success, ending.disk)

/-- The bytes are those of an array, from its first bracket to its last, and one line
feed, and both the array and the whole are read as the markers. -/
def HoldsReport (content : List UInt8) (markers : List Marker) : Prop :=
  ∃ array, content = Text.encode (String.ofList (array ++ ['\n'])) ∧
    array.head? = some '[' ∧ array.getLast? = some ']' ∧
    Report.ReadsAs array markers ∧ Report.ReadsAs (array ++ ['\n']) markers

/-- A complete report holds its markers. -/
theorem holdsReport_complete (markers : List Marker) :
    HoldsReport (Text.encode (String.ofList (Report.complete markers))) markers := by
  have hreads := Report.readsAs_write markers (r := []) rfl
  rw [List.append_nil] at hreads
  refine ⟨_, rfl, ?_, ?_, hreads, Report.readsAs_write markers rfl⟩
  · rw [Json.write]
    rfl
  · rw [Json.write, Json.getLast?_block]

/-- What it is for a session with its report on a file to end in all or nothing:
the temporary file is put where nothing was and is not left there, no place
changes except that which the name of the file stands for, nothing changes at all
in a failure, and after a success that place holds the array of all markers of the
log, which could be read to its end, and a line feed. -/
structure AllOrNothing (d : Disk) (s : Surroundings) (o : Options) (settings : Settings)
    (standardInput : FileData) (name : String) (success : Bool) (after : Disk) : Prop where
  temporary : ∀ session during x path target, (prepare d s o settings).2 = .ok (session, during) →
    session.destination = .file x path target →
      d.node? x = none ∧ during = d.put x (.file { content := [] }) ∧
        (d.entryPlace (.ofString name) ≠ .ok x → after.node? x = none)
  elsewhere : ∀ p, d.entryPlace (.ofString name) ≠ .ok p → after.node? p = d.node? p
  failure : success = false → d.Unchanged after
  report : success = true → ∃ session during data out content,
    (prepare d s o settings).2 = .ok (session, during) ∧
    session.openInput d standardInput = .ok data ∧ data.readFault = none ∧
    d.entryPlace (.ofString name) = .ok out ∧ d.Replaced after out content ∧
    HoldsReport content (MarkerStream.markersOf (session.matching during)
      (.start session.directory) (BuildLog.linesOf data.content))

/-- A run fails and takes the temporary file away, or the report of its delivery
is moved onto the target. -/
theorem run_file (d : Disk) (standardInput : FileData)
    (hfile : session.destination = .file x path target) :
    let ending := session.run d standardInput
    (ending.success = false ∧ ending.disk = d.remove x) ∨
      (ending.success = true ∧ ∃ data, session.openInput d standardInput = .ok data ∧
        (session.delivery d data).fault = none ∧
        Destination.refusal d path (session.delivery d data).markers = none ∧
        (d.write x (Text.encode
          (String.ofList (Report.complete (session.delivery d data).markers)))).moveFile
          x target = .ok ending.disk) := by
  unfold run
  cases hopen : session.openInput d standardInput with
  | error fault =>
    left
    exact ⟨rfl, by rw [hfile]; rfl⟩
  | ok data =>
    dsimp only
    rw [hfile]
    rcases Destination.write_file d (session.delivery d data) x path target with
      ⟨herror, hdisk⟩ | ⟨herror, hfault, hrefusal, hmove⟩
    · exact .inl ⟨herror, hdisk⟩
    · exact .inr ⟨herror, data, rfl, hfault, hrefusal, hmove⟩

namespace AllOrNothing

variable {name : String} {after : Disk} {out : Place}

/-- It is all or nothing if nothing changes. -/
theorem of_unchanged (hsame : d.Unchanged after) :
    AllOrNothing d s o settings standardInput name false after := by
  refine ⟨fun session during x path target hprepare hfile => ?_, fun p _ => hsame p,
    fun _ => hsame, nofun⟩
  obtain ⟨-, hfree, hduring⟩ := added_of_prepare hprepare hfile
  exact ⟨hfree, hduring, fun _ => (hsame x).trans hfree⟩

/-- So it is if the report takes its place. -/
theorem of_replaced (hprepare : (prepare d s o settings).2 = .ok (session, during))
    (hopen : session.openInput d standardInput = .ok data) (hread : data.readFault = none)
    (hout : d.entryPlace (.ofString name) = .ok out)
    (hreplaced : d.Replaced after out
      (Text.encode (String.ofList (Report.complete (MarkerStream.markersOf
      (session.matching during) (.start session.directory) (BuildLog.linesOf data.content)))))) :
    AllOrNothing d s o settings standardInput name true after := by
  have helsewhere : ∀ p, d.entryPlace (.ofString name) ≠ .ok p → after.node? p = d.node? p := by
    intro p hp
    refine hreplaced.elsewhere p ?_
    rintro rfl
    exact hp hout
  refine ⟨fun session during x path target hprepare hfile => ?_, helsewhere, nofun, fun _ => ?_⟩
  · obtain ⟨-, hfree, hduring⟩ := added_of_prepare hprepare hfile
    exact ⟨hfree, hduring, fun hx => (helsewhere x hx).trans hfree⟩
  · exact ⟨session, during, data, out, _, hprepare, hopen, hread, hout, hreplaced,
      holdsReport_complete _⟩

end AllOrNothing

/-- **A report on a file is all or nothing**, whatever the disk, the settings and
the build log are. -/
theorem conduct_file (d : Disk) (s : Surroundings) (o : Options) (settings : Settings)
    (standardInput : FileData) (name : String) :
    let asked := { o with output := .file name }
    let ended := conduct d s asked settings standardInput
    AllOrNothing d s asked settings standardInput name ended.1 ended.2 := by
  intro asked ended
  simp only [ended, conduct]
  cases hprepare : (prepare d s asked settings).2 with
  | error e => exact .of_unchanged fun _ => rfl
  | ok prepared =>
    obtain ⟨session, during⟩ := prepared
    obtain ⟨hinput, hcreate⟩ := prepare_eq_ok hprepare
    obtain ⟨x, path, hfile⟩ := Destination.exists_eq_file hcreate
    obtain ⟨hx, hfree, hduring⟩ := added_of_prepare hprepare hfile
    -- whatever is written into the temporary file, it is one file more
    have hadds : ∀ content, d.Adds (during.write x content) x := by
      intro content
      rw [hduring, Disk.write, put_put]
      exact adds_put hx hfree
    have hbegun : d.Adds during x := hduring ▸ adds_put hx hfree
    dsimp only
    rcases run_file during standardInput hfile with
      ⟨hsuccess, hdisk⟩ | ⟨hsuccess, data, hopen, hfault, hrefusal, hmove⟩
    · rw [hsuccess, hdisk]
      exact .of_unchanged (hbegun.unchanged_remove hx)
    · obtain ⟨hread, hmarkers⟩ := delivery_complete hfile hfault hrefusal
      rw [hmarkers] at hmove
      obtain ⟨out, hout, hreplaced⟩ := (hadds _).replaced_moveFile hx
        (by rw [Disk.write, node?_put hx, if_pos rfl]) hmove
      rw [openInput_of_adds hinput hbegun] at hopen
      rw [hsuccess]
      exact .of_replaced hprepare hopen hread hout hreplaced

end Session

/-- A call of the program that gets as far as a session succeeds if the session
does, and leaves its disk behind. -/
theorem Program.run_eq_conduct {c : Program.Call} {o : Options} {settings : Settings}
    (hparse : CommandLine.parse c.arguments = .ok o)
    (hload : (Settings.load c.disk c.surroundings o.settings).2 = .ok settings) :
    let ended := Session.conduct c.disk c.surroundings o settings c.standardInput
    ((Program.run c).exitCode = 0 ↔ ended.1 = true) ∧ (Program.run c).disk = ended.2 := by
  intro ended
  simp only [ended, Program.run, hparse, Program.carryOut, hload, Session.conduct]
  cases (Session.prepare c.disk c.surroundings o settings).2 with
  | error e => simp
  | ok prepared =>
    obtain ⟨session, during⟩ := prepared
    simp

end BuildMarkers
