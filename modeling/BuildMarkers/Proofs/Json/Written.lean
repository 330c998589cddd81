import BuildMarkers.Json.Value
import BuildMarkers.Proofs.Json.Grammar
import BuildMarkers.Proofs.Text.Digits
import BuildMarkers.Proofs.Text.Runs
/-!
# What is written is JSON

The written form of a value follows the grammar, at any depth and for any
characters in its texts (`reads_write`).
-/

namespace BuildMarkers

namespace Json

variable {c : Char} {s r : List Char}

mutual

/-- What the written form of a value says. -/
def Value.datum : Value → Datum
  | .number n => .number (Nat.toDigits 10 n)
  | .text s => .text s
  | .array items => .array (datumItems items)
  | .object fields => .object (datumFields fields)

/-- What the written forms of items say. -/
def datumItems : List Value → List Datum
  | [] => []
  | v :: rest => v.datum :: datumItems rest

/-- What the written forms of fields say. -/
def datumFields : List (String × Value) → List (String × Datum)
  | [] => []
  | (key, v) :: rest => (key, v.datum) :: datumFields rest

end

theorem datumItems_eq_map (items : List Value) : datumItems items = items.map Value.datum := by
  induction items with
  | nil => rfl
  | cons v items ih => rw [datumItems, ih, List.map_cons]

/-! ## Texts -/

/-- The number of a control character is read back from its four digits. -/
theorem unit?_hexPadded {n : ℕ} (h : n < 0x20) : unit? (Text.hexPadded 4 n ++ r) = some (n, r) := by
  have hdigits : ∀ n < 0x20, Text.hexPadded 4 n =
      ['0', '0', (n / 16).digitChar, (n % 16).digitChar] := by
    decide
  have hvalue : ∀ k < 16, hexDigit? k.digitChar = some k := by decide
  have hzero : hexDigit? '0' = some 0 := rfl
  rw [hdigits n h]
  simp only [List.cons_append, List.nil_append, unit?, hzero, hvalue (n / 16) (by omega),
    hvalue (n % 16) (by omega), Option.bind_eq_bind, Option.bind_some, Option.pure_def,
    Option.some.injEq, Prod.mk.injEq, and_true]
  omega

/-- **The written form of a character is read as the character.** -/
theorem readsChar_escaped (c : Char) (r : List Char) : ReadsChar c (escaped c ++ r) r := by
  unfold escaped
  split_ifs with hquote hslash _ _ _ _ _ hcontrol
  iterate 7
    · subst_vars
      exact .short rfl
  · exact .unit (unit?_hexPadded hcontrol)
  · exact .plain hquote hslash (by omega)

/-- The written form of a text, behind its first quote, is read as the text. -/
theorem readsText_flatMap (cs r : List Char) : ReadsText cs (cs.flatMap escaped ++ '"' :: r) r := by
  induction cs with
  | nil => exact .done
  | cons c cs ih =>
    rw [List.flatMap_cons, List.append_assoc]
    exact .char (readsChar_escaped c _) ih

/-! ## Values -/

/-- No number goes on in the text. -/
def EndsNumber (r : List Char) : Prop := ∀ c ∈ r.head?, isNumberChar c = false

theorem endsNumber_cons (h : isNumberChar c = false) : EndsNumber (c :: r) := by
  intro d hd
  obtain rfl : c = d := by simpa using hd
  exact h

theorem endsNumber_margin (depth : ℕ) (r : List Char) : EndsNumber (margin depth ++ r) :=
  endsNumber_cons rfl

/-- The digits of a number make a JSON number. -/
theorem isNumber_toDigits (n : ℕ) : IsNumber (Nat.toDigits 10 n) := by
  refine ⟨[], Nat.toDigits 10 n, [], [], by simp, .inl rfl, ⟨⟨Nat.toDigits_ne_nil, ?_⟩, ?_⟩,
    .inl rfl, .inl rfl⟩
  · exact fun c hc => Digits.isDigit_of_mem hc
  · intro hzero
    rcases eq_or_ne n 0 with rfl | hn
    · rfl
    · exact absurd hzero (Digits.head?_ne_zero n hn)

/-- The written form of a number is read as its digits. -/
theorem reads_toDigits (n : ℕ) (hr : EndsNumber r) :
    Reads (.value (.number (Nat.toDigits 10 n))) (Nat.toDigits 10 n ++ r) r := by
  have hdigits : ∀ c ∈ Nat.toDigits 10 n, isNumberChar c = true := by
    intro c hc
    simp [isNumberChar, Digits.isDigit_of_mem hc]
  have htake : (Nat.toDigits 10 n ++ r).takeWhile isNumberChar = Nat.toDigits 10 n :=
    Text.takeWhile_run hdigits hr
  have hdrop : (Nat.toDigits 10 n ++ r).dropWhile isNumberChar = r := Text.dropWhile_run hdigits hr
  have hnumber : IsNumber ((Nat.toDigits 10 n ++ r).takeWhile isNumberChar) := by
    rw [htake]
    exact isNumber_toDigits n
  simpa only [htake, hdrop] using Reads.number hnumber

/-- The start of a line is white space. -/
theorem skip_margin (depth : ℕ) (s : List Char) : skip (margin depth ++ s) = skip s := by
  have hblank : ∀ c ∈ margin depth, isBlank c = true := by
    intro c hc
    rcases List.mem_cons.1 hc with rfl | hc
    · rfl
    · rw [List.eq_of_mem_replicate hc]
      rfl
  exact List.dropWhile_append_of_pos hblank

/-- The last of the lines starts with its member. -/
theorem skip_lines_singleton (depth : ℕ) (m s : List Char) :
    skip (lines depth [m] ++ s) = skip (m ++ s) := by
  rw [← skip_margin depth (m ++ s)]
  simp [lines]

/-- A line starts with its member, and a comma stands between it and the next. -/
theorem skip_lines_cons_cons (depth : ℕ) (m m' : List Char) (ms : List (List Char))
    (s : List Char) :
    skip (lines depth (m :: m' :: ms) ++ s) = skip (m ++ ',' :: (lines depth (m' :: ms) ++ s)) := by
  rw [← skip_margin depth (m ++ _)]
  simp [lines, List.intercalate_cons_cons]

theorem block_append {start stop : Char} {depth : ℕ} {members : List (List Char)}
    (hne : members ≠ []) :
    block start stop depth members ++ r =
      start :: (lines (depth + 1) members ++ (margin depth ++ stop :: r)) := by
  have hempty : members.isEmpty = false := by simpa using hne
  simp [block, hempty]

/-- A quoted text is read as the text. -/
theorem exists_readsText_quoted (s : String) (r : List Char) :
    ∃ s', quoted s ++ r = '"' :: s' ∧ ReadsText s.toList s' r := by
  refine ⟨s.toList.flatMap escaped ++ '"' :: r, ?_, readsText_flatMap s.toList r⟩
  simp [quoted]

theorem reads_quoted (s : String) (r : List Char) : Reads (.value (.text s)) (quoted s ++ r) r := by
  obtain ⟨s', hs', htext⟩ := exists_readsText_quoted s r
  have hreads := Reads.text htext
  rwa [String.ofList_toList, ← hs'] at hreads

/-- A key and what is read behind the colon make a field. -/
theorem reads_field {v : Datum} {written : List Char} (key : String)
    (h : Reads (.value v) (written ++ s) r) :
    Reads (.field (key, v)) (quoted key ++ [':', ' '] ++ written ++ s) r := by
  obtain ⟨s', hs', htext⟩ := exists_readsText_quoted key (':' :: ' ' :: (written ++ s))
  have hvalue : Reads (.value v) (skip (' ' :: (written ++ s))) r := by
    have hskip : skip (' ' :: (written ++ s)) = skip (written ++ s) := rfl
    rwa [hskip, h.skip_eq]
  have hreads := Reads.field htext rfl hvalue
  rw [String.ofList_toList, ← hs'] at hreads
  simpa using hreads

mutual

/-- **The written form of a value is read as the value**, whatever stands behind it
that a number does not go on in. -/
theorem reads_write (depth : ℕ) (v : Value) {r : List Char} (hr : EndsNumber r) :
    Reads (.value v.datum) (write depth v ++ r) r := by
  match v with
  | .number n => exact reads_toDigits n hr
  | .text s => exact reads_quoted s r
  | .array [] => exact .emptyArray rfl
  | .array (v :: vs) =>
    have hitems := reads_writeItems (depth + 1) depth (v :: vs) (List.cons_ne_nil v vs) r
    rw [write, block_append (by simp [writeItems])]
    exact .array hitems
  | .object [] => exact .emptyObject rfl
  | .object ((key, v) :: fs) =>
    have hfields := reads_writeFields (depth + 1) depth ((key, v) :: fs) (List.cons_ne_nil _ fs) r
    rw [write, block_append (by simp [writeFields])]
    exact .object hfields

/-- The lines of the items of an array are read as the items. -/
theorem reads_writeItems (depth stop : ℕ) (items : List Value) (hne : items ≠ []) (r : List Char) :
    Reads (.items (datumItems items))
      (skip (lines depth (writeItems depth items) ++ (margin stop ++ ']' :: r))) r := by
  match items, hne with
  | [v], _ =>
    have hv := reads_write depth v (endsNumber_margin stop (']' :: r))
    rw [writeItems, writeItems, skip_lines_singleton, hv.skip_eq]
    exact .lastOfItems hv (skip_margin stop _)
  | v :: w :: vs, _ =>
    have hrest := reads_writeItems depth stop (w :: vs) (List.cons_ne_nil w vs) r
    rw [writeItems] at hrest ⊢
    rw [writeItems, skip_lines_cons_cons]
    have hv : ∀ s, Reads (.value v.datum) (write depth v ++ ',' :: s) (',' :: s) :=
      fun s => reads_write depth v (endsNumber_cons rfl)
    rw [(hv _).skip_eq]
    exact .items (hv _) rfl hrest

/-- The lines of the fields of an object are read as the fields. -/
theorem reads_writeFields (depth stop : ℕ) (fields : List (String × Value)) (hne : fields ≠ [])
    (r : List Char) :
    Reads (.fields (datumFields fields))
      (skip (lines depth (writeFields depth fields) ++ (margin stop ++ '\x7d' :: r))) r := by
  match fields, hne with
  | [(key, v)], _ =>
    have hfield := reads_field key (reads_write depth v (endsNumber_margin stop ('\x7d' :: r)))
    rw [writeFields, writeFields, skip_lines_singleton]
    exact .lastOfFields hfield (skip_margin stop _)
  | (key, v) :: (key', w) :: fs, _ =>
    have hrest := reads_writeFields depth stop ((key', w) :: fs) (List.cons_ne_nil _ fs) r
    rw [writeFields] at hrest ⊢
    rw [writeFields, skip_lines_cons_cons]
    have hv : ∀ s, Reads (.value v.datum) (write depth v ++ ',' :: s) (',' :: s) :=
      fun s => reads_write depth v (endsNumber_cons rfl)
    exact .fields (reads_field key (hv _)) rfl hrest

end

/-- White space ends a number. -/
theorem endsNumber_of_skip (h : skip r = []) : EndsNumber r := by
  intro c hc
  have hblank : isBlank c = true := List.dropWhile_eq_nil_iff.1 h c (List.mem_of_mem_head? hc)
  exact isNumberChar_of_isBlank hblank

/-- **The written form of a value, with white space behind it or none, is a
document of what it says and of nothing else.** -/
theorem isDocument_write_iff (v : Value) (d : Datum) (hr : skip r = []) :
    IsDocument (write 0 v ++ r) d ↔ d = v.datum := by
  have hreads := reads_write 0 v (endsNumber_of_skip hr)
  have hdocument : IsDocument (write 0 v ++ r) v.datum := by
    refine ⟨r, ?_, hr⟩
    rw [hreads.skip_eq]
    exact hreads
  constructor
  · exact fun h => h.unique hdocument
  · rintro rfl
    exact hdocument

/-! ## Writing that breaks off -/

theorem writeItems_eq_map (depth : ℕ) (items : List Value) :
    writeItems depth items = items.map (write depth) := by
  induction items with
  | nil => rfl
  | cons v items ih => rw [writeItems, ih, List.map_cons]

/-- The lines end as their last member does. -/
theorem getLast?_lines (depth : ℕ) {members : List (List Char)} (hne : members ≠ [])
    (h : ∀ m ∈ members, m.getLast? = some c) : (lines depth members).getLast? = some c := by
  induction members with
  | nil => exact absurd rfl hne
  | cons m members ih =>
    have hm : m.getLast? = some c := h m List.mem_cons_self
    cases members with
    | nil => simp [lines, hm]
    | cons m' members =>
      have hlast := ih (by simp) fun m hm => h m (List.mem_cons_of_mem _ hm)
      have hsplit : lines depth (m :: m' :: members) =
          margin depth ++ m ++ ',' :: lines depth (m' :: members) := by
        simp [lines, List.intercalate_cons_cons]
      rw [hsplit, List.getLast?_append, List.getLast?_cons, hlast]
      rfl

/-- Brackets end with the bracket that closes them. -/
theorem getLast?_block (start stop : Char) (depth : ℕ) (members : List (List Char)) :
    (block start stop depth members).getLast? = some stop := by
  rw [block, List.getLast?_append]
  split <;> simp

/-- **An array of objects that breaks off behind one of them, or before the first,
is no document.** -/
theorem not_isDocument_unfinished {items : List Value}
    (h : ∀ v ∈ items, ∃ fields, v = .object fields)
    (d : Datum) : ¬ IsDocument (unfinished items) d := by
  have hlast : ∃ c, (unfinished items).getLast? = some c ∧ isBlank c = false ∧ c ≠ ']' := by
    cases items with
    | nil => exact ⟨'[', rfl, rfl, by decide⟩
    | cons v items =>
      have hmembers : ∀ m ∈ writeItems 1 (v :: items), m.getLast? = some '\x7d' := by
        intro m hm
        rw [writeItems_eq_map] at hm
        obtain ⟨v, hv, rfl⟩ := List.mem_map.1 hm
        obtain ⟨fields, rfl⟩ := h v hv
        exact getLast?_block _ _ _ _
      have hlines := getLast?_lines 1 (by simp [writeItems]) hmembers
      exact ⟨'\x7d', by rw [unfinished, List.getLast?_cons, hlines]; rfl, rfl, by decide⟩
  obtain ⟨c, hc, hblank, hne⟩ := hlast
  exact not_isDocument_of_getLast? rfl hc hblank hne

end Json

end BuildMarkers
