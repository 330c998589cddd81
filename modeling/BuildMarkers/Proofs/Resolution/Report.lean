import BuildMarkers.Proofs.Json.Written
import BuildMarkers.Session.Destination
/-!
# Reports can be read back

A report is for programs to read. What they read from it is told here by the
grammar of JSON and by the schema of a marker (`Marker.ofDatum?`), in which a
column or candidates may be left out. A complete report is a document of one
array, from which the markers are read back as they were and in order
(`Report.markers?_datum`), so reports of different markers differ. A report that
breaks off is no document at all, wherever it does.
-/

namespace BuildMarkers

open Json

/-! ## The schema of a marker -/

namespace Json.Datum

/-- The value of a field. Of fields with one key the first counts. -/
def field? (key : String) : Datum → Option Datum
  | .object fields => fields.lookup key
  | _ => none

/-- The text that the datum is. -/
def text? : Datum → Option String
  | .text s => some s
  | _ => none

/-- The number of 32 bits that the datum is: digits without a sign, a fraction or
an exponent. -/
def word? : Datum → Option UInt32
  | .number digits => if digits.all Char.isDigit then Diagnostic.number32? digits else none
  | _ => none

/-- The texts that the datum lists. -/
def texts? : Datum → Option (List String)
  | .array items => items.mapM text?
  | _ => none

end Json.Datum

/-- The severity with this word. -/
def Severity.ofLabel? (label : String) : Option Severity :=
  [Severity.error, .warning, .info].find? fun severity => severity.label = label

/-- The target that the datum tells, by its only key. -/
def MarkerTarget.ofDatum? : Datum → Option MarkerTarget
  | .object [("file", .text fullPath)] => some (.file fullPath)
  | .object [("project", .text name)] => some (.project name)
  | _ => none

namespace Marker

/-- **The schema of a marker.** A column that is missing is none, and candidates
that are missing are no candidates; everything else must be there. -/
def ofDatum? (d : Datum) : Option Marker := do
  let target ← d.field? "resource" >>= MarkerTarget.ofDatum?
  let line ← d.field? "line" >>= Datum.word?
  let column ← match d.field? "column" with
    | none => some none
    | some column => column.word?.map some
  let severity ← d.field? "severity" >>= Datum.text? >>= Severity.ofLabel?
  let description ← d.field? "description" >>= Datum.text?
  let candidates ← match d.field? "candidates" with
    | none => some []
    | some candidates => candidates.texts?
  return { target, line, column, severity, description, candidates }

end Marker

/-- The markers of a report. -/
def Report.markers? : Datum → Option (List Marker)
  | .array items => items.mapM Marker.ofDatum?
  | _ => none

/-! ## Reading back -/

variable {α β : Type} {markers : List Marker}

/-- What is read back one by one is read back in order. -/
theorem mapM_map_eq_some {f : β → Option α} {g : α → β} (h : ∀ a, f (g a) = some a) (l : List α) :
    (l.map g).mapM f = some l := by
  induction l with
  | nil => rfl
  | cons a l ih => simp [h a, ih]

theorem MarkerTarget.ofDatum?_json (target : MarkerTarget) :
    ofDatum? target.json.datum = some target := by
  cases target <;> rfl

theorem Severity.ofLabel?_label (severity : Severity) :
    ofLabel? severity.label = some severity := by
  cases severity <;> rfl

theorem Json.Datum.word?_number (n : UInt32) : (Value.number n.toNat).datum.word? = some n := by
  have hdigits : (Nat.toDigits 10 n.toNat).all Char.isDigit = true :=
    List.all_eq_true.2 fun c hc => Digits.isDigit_of_mem hc
  rw [Value.datum, word?, if_pos hdigits, Diagnostic.number32?_toDigits]

theorem Json.Datum.texts?_array (texts : List String) :
    (Value.array (texts.map .text)).datum.texts? = some texts := by
  rw [Value.datum, texts?, datumItems_eq_map, List.map_map]
  exact mapM_map_eq_some (f := Datum.text?) (fun _ => rfl) texts

/-- **A marker is read back from its object**, whichever of its fields are left out. -/
theorem Marker.ofDatum?_json (m : Marker) : ofDatum? m.json.datum = some m := by
  obtain ⟨target, line, column, severity, description, candidates⟩ := m
  generalize hd : (json ⟨target, line, column, severity, description, candidates⟩).datum = d
  -- What stands under each key, where the two optional fields may be missing.
  have hresource : d.field? "resource" = some target.json.datum := by
    subst hd
    rfl
  have hline : d.field? "line" = some (Value.number line.toNat).datum := by
    subst hd
    rfl
  have hcolumn : d.field? "column" = column.map fun c => (Value.number c.toNat).datum := by
    subst hd
    cases column <;> cases candidates <;> rfl
  have hseverity : d.field? "severity" = some (.text severity.label) := by
    subst hd
    cases column <;> rfl
  have hdescription : d.field? "description" = some (.text description) := by
    subst hd
    cases column <;> rfl
  have hcandidates : d.field? "candidates" =
      if candidates = [] then none else some (Value.array (candidates.map .text)).datum := by
    subst hd
    cases column <;> cases candidates <;> rfl
  have htexts := Json.Datum.texts?_array candidates
  rw [ofDatum?, hresource, hline, hcolumn, hseverity, hdescription, hcandidates]
  cases column <;> by_cases hnone : candidates = [] <;>
    simp [hnone, htexts, MarkerTarget.ofDatum?_json, Json.Datum.word?_number, Datum.text?,
      Severity.ofLabel?_label]

/-- **The markers of a report are read back, in order.** -/
theorem Report.markers?_datum (markers : List Marker) :
    markers? (Value.array (markers.map Marker.json)).datum = some markers := by
  rw [Value.datum, markers?, datumItems_eq_map, List.map_map]
  exact mapM_map_eq_some Marker.ofDatum?_json markers

/-- The text is a document of one array and of nothing else, and the markers are
read from it. -/
def Report.ReadsAs (text : List Char) (markers : List Marker) : Prop :=
  ∃ items, (∀ d, IsDocument text d ↔ d = .array items) ∧
    Report.markers? (.array items) = some markers

/-- The array of the markers is read as the markers, with white space behind it or
none. -/
theorem Report.readsAs_write (markers : List Marker) {r : List Char} (hr : skip r = []) :
    ReadsAs (write 0 (.array (markers.map Marker.json)) ++ r) markers :=
  ⟨_, fun d => isDocument_write_iff _ d hr, markers?_datum markers⟩

/-- A text is read as one list of markers at most. -/
theorem Report.ReadsAs.unique {text : List Char} {markers markers' : List Marker}
    (h : ReadsAs text markers) (h' : ReadsAs text markers') : markers = markers' := by
  obtain ⟨items, hdocument, hmarkers⟩ := h
  obtain ⟨items', hdocument', hmarkers'⟩ := h'
  have hitems : Datum.array items = .array items' := (hdocument' _).1 ((hdocument _).2 rfl)
  rw [← hitems, hmarkers] at hmarkers'
  exact Option.some.inj hmarkers'

/-- A report that breaks off is no document. -/
theorem Report.not_isDocument_brokenOff (markers : List Marker) (d : Datum) :
    ¬ IsDocument (brokenOff markers) d := by
  refine not_isDocument_unfinished (fun v hv => ?_) d
  obtain ⟨m, -, rfl⟩ := List.mem_map.1 hv
  exact ⟨_, rfl⟩

/-- **What is written of a delivery can be read back.** Without a fault it is the
array of the markers and a line feed, and both the array and the whole are read
as these markers. With a fault, it is no document, whatever markers came before.
The arrays of different markers differ. -/
theorem written_reads_back (d : Disk) (delivery : Delivery) :
    (match delivery.fault with
      | none => ∃ array, (Destination.standard.write d delivery).standardOutput = array ++ ['\n'] ∧
          Report.ReadsAs array delivery.markers ∧ Report.ReadsAs (array ++ ['\n']) delivery.markers
      | some _ =>
        ∀ datum, ¬ IsDocument (Destination.standard.write d delivery).standardOutput datum) ∧
    Function.Injective fun markers : List Marker => write 0 (.array (markers.map Marker.json)) := by
  constructor
  · cases hfault : delivery.fault with
    | none =>
      refine ⟨write 0 (.array (delivery.markers.map Marker.json)), ?_, ?_,
        Report.readsAs_write _ rfl⟩
      · simp only [Destination.write, hfault, Report.complete]
      · have hreads := Report.readsAs_write delivery.markers (r := []) rfl
        rwa [List.append_nil] at hreads
    | some fault =>
      intro datum
      simp only [Destination.write, hfault]
      exact Report.not_isDocument_brokenOff delivery.markers datum
  · intro markers markers' h
    have hreads := Report.readsAs_write markers (r := []) rfl
    have hreads' := Report.readsAs_write markers' (r := []) rfl
    have heq : write 0 (.array (markers.map Marker.json)) =
        write 0 (.array (markers'.map Marker.json)) := h
    rw [heq] at hreads
    exact hreads.unique hreads'

end BuildMarkers
