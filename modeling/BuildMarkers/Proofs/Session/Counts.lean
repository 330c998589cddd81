import BuildMarkers.Proofs.Session.Output
/-!
# The counts of a run

The counts of a run can be told from the lines that have been read and from
nothing else (`countsOf`): how many they are, how many of them change the
directory, and what became of the reference of each diagnostic among them. A
stream of which items are taken for a writer keeps these counts, with all lines
behind it that have been read so far (`HasRead`), and one more item leaves it so
(`HasRead.take`). Whatever is read, each diagnostic has one outcome and gives one
marker, and no line is both a diagnostic and a directory line, so the counts fit
together at every point of a run (`balances_countsOf`), and at its end they are
those of the log (`run_accounts`).
-/

namespace BuildMarkers

namespace Outcome

/-- Exactly one file is meant. -/
def isUnique : Outcome → Bool
  | .unique _ => true
  | _ => false

/-- No file is meant. -/
def isNoMatch : Outcome → Bool
  | .noMatch => true
  | _ => false

/-- Several files may be meant. -/
def isAmbiguous : Outcome → Bool
  | .ambiguous _ => true
  | _ => false

/-- Every outcome is of one of the three kinds. -/
theorem countP_add_countP_add_countP (outcomes : List Outcome) :
    outcomes.countP isUnique + outcomes.countP isNoMatch + outcomes.countP isAmbiguous =
      outcomes.length := by
  induction outcomes with
  | nil => rfl
  | cons outcome outcomes ih =>
    cases outcome <;> simp only [List.countP_cons, isUnique, isNoMatch, isAmbiguous,
      List.length_cons] <;>
      simp <;> omega

end Outcome

namespace MarkerStream

variable {m : Matching} {trail base : Trail} {line : List UInt8}
  {lines read more before after : List (List UInt8)} {s : MarkerStream} {statistics : Statistics}
  {fault : Option Fault}

/-! ## The counts of lines -/

/-- The line changes the directory. -/
def isChange (line : List UInt8) : Bool :=
  match lineOf line with
  | .directory _ => true
  | _ => false

/-- What becomes of the reference of a line that is reached on the trail, if it is
a diagnostic. -/
def outcomeOf? (m : Matching) (trail : Trail) (line : List UInt8) : Option Outcome :=
  match lineOf line with
  | .diagnostic diagnostic => some (m.marker trail diagnostic).2
  | _ => none

/-- What becomes of the references of the lines, each on the trail behind all lines
before it. -/
def outcomesOf (m : Matching) (trail : Trail) : List (List UInt8) → List Outcome
  | [] => []
  | line :: lines => (outcomeOf? m trail line).toList ++ outcomesOf m (trailBehind trail line) lines

theorem outcomesOf_append : outcomesOf m trail (before ++ after) =
    outcomesOf m trail before ++ outcomesOf m (before.foldl trailBehind trail) after := by
  induction before generalizing trail with
  | nil => rfl
  | cons line before ih =>
    rw [List.cons_append, outcomesOf, outcomesOf, ih, List.append_assoc, List.foldl_cons]

/-- There is one outcome for each marker. -/
theorem length_outcomesOf :
    (outcomesOf m trail lines).length = (markersOf m trail lines).length := by
  induction lines generalizing trail with
  | nil => rfl
  | cons line lines ih =>
    have hline : (outcomeOf? m trail line).toList.length =
        (markerOf? m trail line).toList.length := by
      unfold outcomeOf? markerOf?
      cases lineOf line <;> simp
    rw [outcomesOf, markersOf_cons, List.length_append, List.length_append, hline, ih]

theorem length_outcomesOf_singleton :
    (outcomesOf m trail [line]).length = (markerOf? m trail line).toList.length := by
  have hnil : markersOf m (trailBehind trail line) [] = [] := rfl
  rw [length_outcomesOf, markersOf_cons, hnil, List.append_nil]

/-- No line is a diagnostic and changes the directory. -/
theorem length_outcomesOf_add_countP_le (m : Matching) (trail : Trail) (lines : List (List UInt8)) :
    (outcomesOf m trail lines).length + lines.countP isChange ≤ lines.length := by
  induction lines generalizing trail with
  | nil => exact le_rfl
  | cons line lines ih =>
    have hline : (outcomeOf? m trail line).toList.length + [line].countP isChange ≤ 1 := by
      unfold outcomeOf?
      rw [List.countP_singleton, isChange]
      cases lineOf line <;> simp
    have := ih (trailBehind trail line)
    rw [outcomesOf, List.length_append, List.length_cons, ← List.singleton_append,
      List.countP_append]
    omega

/-- The counts of the lines, all their markers having been written. -/
def countsOf (m : Matching) (trail : Trail) (lines : List (List UInt8)) : Statistics where
  linesRead := .ofNat lines.length
  diagnosticsFound := .ofNat (outcomesOf m trail lines).length
  directoryChanges := .ofNat (lines.countP isChange)
  filesResolved := .ofNat ((outcomesOf m trail lines).countP Outcome.isUnique)
  filesMissing := .ofNat ((outcomesOf m trail lines).countP Outcome.isNoMatch)
  filesAmbiguous := .ofNat ((outcomesOf m trail lines).countP Outcome.isAmbiguous)
  markersWritten := .ofNat (outcomesOf m trail lines).length

/-- What has been counted behind a line that is reached on the trail, its marker
being written. -/
def countBehind (m : Matching) (trail : Trail) (counted : Statistics)
    (line : List UInt8) : Statistics :=
  match lineOf line with
  | .diagnostic diagnostic =>
    (counted.countLine.countDiagnostic.record (m.marker trail diagnostic).2).countMarker
  | .directory _ => counted.countLine.countDirectoryChange
  | .other => counted.countLine

/-- **One more line is counted** in the same way wherever it comes. -/
theorem countsOf_concat (m : Matching) (trail : Trail) (lines : List (List UInt8))
    (line : List UInt8) :
    countsOf m trail (lines ++ [line]) =
      countBehind m (lines.foldl trailBehind trail) (countsOf m trail lines) line := by
  have houtcomes : outcomesOf m trail (lines ++ [line]) =
      outcomesOf m trail lines ++ (outcomeOf? m (lines.foldl trailBehind trail) line).toList := by
    rw [outcomesOf_append, outcomesOf, outcomesOf, List.append_nil]
  unfold countsOf countBehind
  rw [houtcomes, List.countP_append, outcomeOf?]
  cases hline : lineOf line with
  | diagnostic diagnostic =>
    have hchange : [line].countP isChange = 0 := by simp [isChange, hline]
    cases houtcome : (m.marker (lines.foldl trailBehind trail) diagnostic).2 <;>
      simp [hchange, houtcome, Statistics.countLine, Statistics.countDiagnostic, Statistics.record,
        Statistics.countMarker, Outcome.isUnique, Outcome.isNoMatch, Outcome.isAmbiguous,
        UInt64.ofNat_add]
  | directory change =>
    have hchange : [line].countP isChange = 1 := by simp [isChange, hline]
    simp [hchange, Statistics.countLine, Statistics.countDirectoryChange, UInt64.ofNat_add]
  | other =>
    have hchange : [line].countP isChange = 0 := by simp [isChange, hline]
    simp [hchange, Statistics.countLine, UInt64.ofNat_add]

/-! ## The counts of a stream -/

/-- Taking reads a line, and goes on with the next one if it gives no marker. -/
theorem take_cons (m : Matching) (fault : Option Fault) (line : List UInt8)
    (lines : List (List UInt8)) (trail : Trail) (statistics : Statistics) :
    let behind : MarkerStream :=
      ⟨⟨lines, fault⟩, trailBehind trail line, countBehind m trail statistics line⟩
    take m ⟨⟨line :: lines, fault⟩, trail, statistics⟩ =
      (markerOf? m trail line).elim (behind.take m) fun marker => (some (.ok marker), behind) := by
  simp only [take, next, readLines, trailBehind, countBehind, markerOf?]
  cases lineOf line with
  | diagnostic diagnostic => simp only [Option.elim_some]
  | directory change => rfl
  | other => rfl

theorem take_nil (m : Matching) (fault : Option Fault) (trail : Trail) (statistics : Statistics) :
    take m ⟨⟨[], fault⟩, trail, statistics⟩ =
      (fault.map .error, ⟨⟨[], none⟩, trail, statistics⟩) := by
  cases fault <;> rfl

/-- The stream has read these lines of the log, and all markers of them have been
written. -/
structure HasRead (m : Matching) (lines : List (List UInt8)) (base : Trail)
    (read : List (List UInt8)) (s : MarkerStream) : Prop where
  lines_eq : read ++ s.log.lines = lines
  trail_eq : s.trail = read.foldl trailBehind base
  statistics_eq : s.statistics = countsOf m base read

/-- The item is a marker. -/
def isMarker : Option (Except Fault Marker) → Bool
  | some (.ok _) => true
  | _ => false

namespace HasRead

/-- A log is begun with nothing read. -/
theorem start (m : Matching) (log : BuildLog) (directory : Route) :
    HasRead m log.lines (.start directory) [] (.start log directory) := ⟨rfl, rfl, rfl⟩

theorem concat (h : HasRead m lines base read ⟨⟨line :: more, fault⟩, trail, statistics⟩) :
    HasRead m lines base (read ++ [line])
      ⟨⟨more, fault⟩, trailBehind trail line, countBehind m trail statistics line⟩ := by
  obtain ⟨hlines, rfl, rfl⟩ := h
  refine ⟨?_, ?_, (countsOf_concat m base read line).symm⟩
  · rw [List.append_assoc]
    exact hlines
  · rw [List.foldl_concat]

/-- **One item more** leaves a stream that has read so many lines more that there is
one more marker in them if the item is one, and none and all the lines otherwise.
The induction is on the lines that are left. -/
theorem take (h : HasRead m lines base read s) :
    ∃ behind, HasRead m lines base behind (s.take m).2 ∧
      (outcomesOf m base behind).length =
        (outcomesOf m base read).length + [(s.take m).1].countP isMarker ∧
      (isMarker (s.take m).1 = false → behind = lines) := by
  obtain ⟨⟨rest, fault⟩, trail, statistics⟩ := s
  induction rest generalizing read trail statistics with
  | nil =>
    have hall : read = lines := by simpa using h.lines_eq
    rw [take_nil]
    refine ⟨read, ⟨h.lines_eq, h.trail_eq, h.statistics_eq⟩, ?_, fun _ => hall⟩
    cases fault <;> rfl
  | cons line rest ih =>
    have hnext := h.concat
    have htrail : trail = read.foldl trailBehind base := h.trail_eq
    have hcount : (outcomesOf m base (read ++ [line])).length =
        (outcomesOf m base read).length + (markerOf? m trail line).toList.length := by
      rw [outcomesOf_append, List.length_append, ← htrail, length_outcomesOf_singleton]
    rw [take_cons]
    cases hmarker : markerOf? m trail line with
    | none =>
      obtain ⟨behind, hread, hlength, hall⟩ := ih _ _ hnext
      refine ⟨behind, hread, ?_, hall⟩
      rw [Option.elim_none, hlength, hcount, hmarker]
      rfl
    | some marker =>
      rw [hmarker] at hcount
      exact ⟨read ++ [line], hnext, hcount, nofun⟩

end HasRead

/-- The first items for a writer, and the stream behind them. -/
def takes (m : Matching) : ℕ → MarkerStream → List (Option (Except Fault Marker)) × MarkerStream
  | 0, s => ([], s)
  | n + 1, s => ((s.take m).1 :: (takes m n (s.take m).2).1, (takes m n (s.take m).2).2)

/-- **However many items are taken**, the stream has read so many lines that there
is one outcome in them for each marker among the items. -/
theorem HasRead.takes (h : HasRead m lines base read s) (n : ℕ) :
    ∃ behind, HasRead m lines base behind (s.takes m n).2 ∧
      (outcomesOf m base behind).length =
        (outcomesOf m base read).length + (s.takes m n).1.countP isMarker := by
  induction n generalizing read s with
  | zero => exact ⟨read, h, rfl⟩
  | succ n ih =>
    obtain ⟨next, hnext, hitem, -⟩ := h.take
    obtain ⟨behind, hbehind, hitems⟩ := ih hnext
    refine ⟨behind, hbehind, ?_⟩
    have hcons : ([(s.take m).1] ++ ((s.take m).2.takes m n).1).countP isMarker =
        [(s.take m).1].countP isMarker + ((s.take m).2.takes m n).1.countP isMarker :=
          List.countP_append
    change _ = _ + ([(s.take m).1] ++ ((s.take m).2.takes m n).1).countP isMarker
    omega

/-- **Draining counts what it takes**, which is all of the log, or as much as leads to
a marker that there is no room for. -/
theorem HasRead.drain (h : HasRead m lines base read s) (room : Option ℕ) :
    ∃ n behind, HasRead m lines base behind (s.takes m n).2 ∧
      (s.drain m room).statistics = (s.takes m n).2.statistics ∧
      ((behind = lines ∧ (outcomesOf m base lines).length =
          (outcomesOf m base read).length + (s.drain m room).markers.length) ∨
        (room = some (s.drain m room).markers.length ∧ (s.drain m room).fault = none)) := by
  induction hbound : s.remaining using Nat.strongRecOn generalizing read s room with
  | _ bound ih =>
    obtain ⟨next, hnext, hcount, hall⟩ := h.take
    have hended (hitem : isMarker (s.take m).1 = false) :
        next = lines ∧ (outcomesOf m base lines).length = (outcomesOf m base read).length + 0 := by
      rw [← hall hitem, hcount, List.countP_singleton, hitem]
      exact ⟨rfl, rfl⟩
    rw [MarkerStream.drain]
    split
    · next behind heq =>
      exact ⟨1, next, hnext, congrArg (·.2.statistics) heq.symm, .inl (hended (by rw [heq]; rfl))⟩
    · next fault behind heq =>
      exact ⟨1, next, hnext, congrArg (·.2.statistics) heq.symm, .inl (hended (by rw [heq]; rfl))⟩
    · next marker behind heq =>
      by_cases hroom : room = some 0
      · rw [if_pos hroom]
        exact ⟨1, next, hnext, congrArg (·.2.statistics) heq.symm, .inr ⟨hroom, rfl⟩⟩
      · rw [if_neg hroom]
        obtain rfl : (s.take m).2 = behind := by rw [heq]
        obtain ⟨n, last, hlast, hstatistics, hend⟩ :=
          ih _ (hbound ▸ remaining_lt_of_take heq) hnext (room.map (· - 1)) rfl
        have hmarker : [(s.take m).1].countP isMarker = 1 := by
          rw [heq]
          rfl
        refine ⟨n + 1, last, hlast, hstatistics, ?_⟩
        rcases hend with ⟨hlines, hlength⟩ | ⟨hlimit, hfault⟩
        · refine .inl ⟨hlines, ?_⟩
          rw [List.length_cons]
          omega
        · refine .inr ⟨?_, hfault⟩
          cases room with
          | none => cases hlimit
          | some k =>
            obtain ⟨k, rfl⟩ := Nat.exists_eq_succ_of_ne_zero fun hk : k = 0 =>
              hroom (congrArg some hk)
            simpa using hlimit

/-- Draining that takes all markers comes to the fault behind them. -/
theorem fault_drain (m : Matching) (room : Option ℕ) (s : MarkerStream)
    (h : (markersOf m s.trail s.log.lines).length = (s.drain m room).markers.length) :
    (s.drain m room).fault = s.log.fault := by
  obtain ⟨hmarkers, hfault⟩ := drain_eq m room s
  refine hfault ?_
  rintro k rfl
  rw [h, hmarkers]
  exact List.length_take_le k _

end MarkerStream

/-! ## Counts that fit together -/

/-- What it is for the counts of a run to fit together when so many markers have been
written. -/
structure Statistics.Balances (statistics : Statistics) (markers : ℕ) : Prop where
  diagnosticsFound : statistics.diagnosticsFound.toNat = markers
  markersWritten : statistics.markersWritten.toNat = markers
  references : statistics.filesResolved.toNat + statistics.filesMissing.toNat +
    statistics.filesAmbiguous.toNat = statistics.diagnosticsFound.toNat
  linesRead : statistics.diagnosticsFound.toNat + statistics.directoryChanges.toNat ≤
    statistics.linesRead.toNat

namespace MarkerStream

variable {m : Matching} {trail base : Trail} {lines read : List (List UInt8)} {s : MarkerStream}

/-- **The counts of fewer than 2⁶⁴ lines fit together**: no counter wraps, since none
of them is ahead of the lines. -/
theorem balances_countsOf (h : lines.length < 2 ^ 64) :
    (countsOf m trail lines).Balances (outcomesOf m trail lines).length := by
  have hle := length_outcomesOf_add_countP_le m trail lines
  have hkinds := Outcome.countP_add_countP_add_countP (outcomesOf m trail lines)
  have htoNat (n : ℕ) (hn : n ≤ lines.length) : (UInt64.ofNat n).toNat = n :=
    UInt64.toNat_ofNat_of_lt' (hn.trans_lt h)
  constructor <;> simp only [countsOf] <;> repeat rw [htoNat _ (by omega)]
  · exact hkinds
  · exact hle

namespace HasRead

theorem length_lt (h : HasRead m lines base read s) (hlines : lines.length < 2 ^ 64) :
    read.length < 2 ^ 64 := by
  rw [← h.lines_eq, List.length_append] at hlines
  omega

theorem balances (h : HasRead m lines base read s) (hlines : lines.length < 2 ^ 64) :
    s.statistics.Balances (outcomesOf m base read).length := by
  rw [h.statistics_eq]
  exact balances_countsOf (h.length_lt hlines)

theorem linesRead_eq (h : HasRead m lines base read s) (hlines : lines.length < 2 ^ 64) :
    s.statistics.linesRead.toNat = read.length := by
  rw [h.statistics_eq]
  exact UInt64.toNat_ofNat_of_lt' (h.length_lt hlines)

end HasRead

end MarkerStream

namespace Session

variable {d : Disk} {s : Session} {standardInput data : FileData}

/-- The text is what a run has written: it appears on the standard output, or it was
written into the temporary file before that was moved onto the target. -/
def HasWritten (d : Disk) (s : Session) (ending : Ending) (text : List Char) : Prop :=
  match s.destination with
  | .standard => ending.standardOutput = text
  | .file x _ target =>
    (d.write x (Text.encode (String.ofList text))).moveFile x target = .ok ending.disk

/-- A run that succeeds has met no fault and has found room for each marker, and what
it has written is the complete report of its delivery. -/
theorem hasWritten_of_success (hopen : s.openInput d standardInput = .ok data)
    (hsuccess : (s.run d standardInput).success = true) :
    (s.delivery d data).fault = none ∧
      s.destination.room d ≠ some (s.delivery d data).markers.length ∧
      s.HasWritten d (s.run d standardInput) (Report.complete (s.delivery d data).markers) := by
  unfold HasWritten
  cases hdestination : s.destination with
  | standard =>
    rw [run, hopen, hdestination] at hsuccess ⊢
    cases hfault : (s.delivery d data).fault with
    | some fault => simp [Destination.write, hfault] at hsuccess
    | none => simp [Destination.write, Destination.room, hfault]
  | file x path target =>
    rcases run_file d standardInput hdestination with
      ⟨hfailed, -⟩ | ⟨-, data', hopen', hfault, hrefusal, hmove⟩
    · rw [hfailed] at hsuccess
      cases hsuccess
    · obtain rfl : data = data' := Except.ok.inj (hopen.symm.trans hopen')
      refine ⟨hfault, ?_, hmove⟩
      rw [Destination.refusal] at hrefusal
      rw [Destination.room]
      cases hwrite : d.writeFault with
      | none => simp
      | some refused =>
        intro hroom
        rw [Option.map_some, Option.some_inj] at hroom
        simp [hwrite, hroom] at hrefusal

/-- What the counts of a run are: they fit together whenever an item has been taken,
and the run shows those of the last one. At the end of a run that succeeds they are
as many as there are lines in the log and values in the array, and at a log that
cannot be read to its end they are those of its complete lines. -/
structure Accounts (d : Disk) (s : Session) (data : FileData) (ending : Ending) : Prop where
  throughout : ∀ n,
    let taken := (MarkerStream.start (.ofFile data) s.directory).takes (s.matching d) n
    taken.2.statistics.Balances (taken.1.countP MarkerStream.isMarker)
  shown : ending.notices.head? = some (summary (s.delivery d data).statistics) ∧
    ∃ n, (s.delivery d data).statistics =
      ((MarkerStream.start (.ofFile data) s.directory).takes (s.matching d) n).2.statistics
  success : ending.success = true → ∃ values,
    s.HasWritten d ending (Json.write 0 (.array values) ++ ['\n']) ∧
    (s.delivery d data).statistics.markersWritten.toNat = values.length ∧
    (s.delivery d data).statistics.linesRead.toNat = (BuildLog.linesOf data.content).length
  unreadable : ∀ fault, data.readFault = some fault →
    (s.destination.room d = none → (s.delivery d data).fault = some fault) ∧
    ((s.delivery d data).fault = some fault →
      (s.delivery d data).statistics.linesRead.toNat =
        (BuildLog.completeLines data.content).length ∧
      (s.delivery d data).statistics =
        MarkerStream.countsOf (s.matching d) (.start s.directory)
          (BuildLog.completeLines data.content))

/-- **The counts of a run balance**, whatever the log says that it reads. -/
theorem run_accounts (hopen : s.openInput d standardInput = .ok data)
    (hlog : (BuildLog.ofFile data).lines.length < 2 ^ 64) :
    s.Accounts d data (s.run d standardInput) := by
  have hstart := MarkerStream.HasRead.start (s.matching d) (.ofFile data) s.directory
  obtain ⟨n, read, hread, hstatistics, hend⟩ := hstart.drain (s.destination.room d)
  rw [← delivery] at hstatistics hend
  -- behind all of the log there is nothing but its fault
  have hfault (hlength : (MarkerStream.outcomesOf (s.matching d) (.start s.directory)
      (BuildLog.ofFile data).lines).length = (s.delivery d data).markers.length) :
      (s.delivery d data).fault = data.readFault := by
    rw [MarkerStream.length_outcomesOf] at hlength
    exact (MarkerStream.fault_drain (s.matching d) (s.destination.room d)
      (.start (.ofFile data) s.directory) hlength).trans (BuildLog.fault_ofFile data)
  rw [MarkerStream.outcomesOf, List.length_nil, Nat.zero_add] at hend
  refine ⟨fun n => ?_, ⟨?_, n, hstatistics⟩, fun hsuccess => ?_,
    fun fault hunread => ⟨fun hroom => ?_, fun hdelivered => ?_⟩⟩
  · obtain ⟨behind, hbehind, hcount⟩ := hstart.takes n
    have := hbehind.balances hlog
    rwa [hcount, MarkerStream.outcomesOf, List.length_nil, Nat.zero_add] at this
  · rw [run, hopen]
    rfl
  · obtain ⟨hdelivered, hroom, hwritten⟩ := hasWritten_of_success hopen hsuccess
    obtain ⟨hall, hlength⟩ := hend.resolve_right fun h => hroom h.1
    subst hall
    have hbalances := hread.balances hlog
    rw [← hstatistics, hlength] at hbalances
    refine ⟨(s.delivery d data).markers.map Marker.json, hwritten, ?_, ?_⟩
    · rw [hbalances.markersWritten, List.length_map]
    · have hend : data.readFault = none := (hfault hlength).symm.trans hdelivered
      rw [hstatistics, hread.linesRead_eq hlog, BuildLog.ofFile_of_none hend]
  · obtain ⟨-, hlength⟩ := hend.resolve_right fun h => by simp [hroom] at h
    exact (hfault hlength).trans hunread
  · obtain ⟨hall, -⟩ := hend.resolve_right fun h => by simp [h.2] at hdelivered
    subst hall
    have hlines := congrArg BuildLog.lines (BuildLog.ofFile_of_some hunread)
    rw [hstatistics, hread.linesRead_eq hlog, hread.statistics_eq, hlines]
    exact ⟨rfl, rfl⟩

/-- A session on a project with two files of one name, which reads the standard
input. -/
def onTwins : Session where
  input := none
  destination := .standard
  resolver := ⟨.sensitive, ⟨none, []⟩⟩
  tree := Tree.empty.applyAll [
    .project "P" (.ofString "/ws"),
    .resource "P" ["lib", "a.c"] .file .none,
    .resource "P" ["app", "a.c"] .file .none]
  project := "P"
  directory := (Path.ofString "/ws").route

/-- A log that breaks off in its last line. -/
def brokenLog : FileData where
  content := Text.encode <|
    "make[1]: Entering directory 'lib'\na.c:2: error: in lib\ncc -c b.c\n" ++
    "/opt/b.c:3: warning: nowhere\na.c:4: err"
  readFault := some .device

/-- The two diagnostics of its complete lines are counted, and the one that it breaks
off in is not. -/
theorem run_accounts_brokenLog :
    onTwins.openInput .bare brokenLog = .ok brokenLog ∧
      (BuildLog.ofFile brokenLog).lines.length < 2 ^ 64 ∧
      onTwins.Accounts .bare brokenLog (onTwins.run .bare brokenLog) ∧
      (onTwins.delivery .bare brokenLog).statistics = ⟨4, 2, 1, 1, 1, 0, 2⟩ := by
  have hlog : (BuildLog.ofFile brokenLog).lines.length < 2 ^ 64 := by decide +kernel
  have haccounts : onTwins.Accounts .bare brokenLog
      (onTwins.run .bare brokenLog) := run_accounts rfl hlog
  refine ⟨rfl, hlog, haccounts, ?_⟩
  obtain ⟨hdelivered, hcounts⟩ := haccounts.unreadable .device rfl
  rw [(hcounts (hdelivered rfl)).2]
  decide +kernel

end Session

end BuildMarkers
