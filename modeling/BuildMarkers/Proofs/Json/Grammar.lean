import Mathlib.Data.List.Basic
import Mathlib.Data.List.TakeWhile
/-!
# The grammar of JSON texts

What a JSON text says does not depend on who wrote it: `Reads` is the grammar as
a relation between a part of a document, the characters it starts at and those
that are left behind it, with white space wherever a document may have it, every
form of an escape and every form of a number. A text is a document of a value
when it is the value with nothing but white space around it (`IsDocument`). The
grammar is unambiguous: characters say one thing at most
(`IsDocument.unique`), since the next one always tells which rule applies. What
is read is taken off the front (`Reads.suffix`), so a text that begins an array
and ends in the middle of it is no document (`not_isDocument_of_getLast?`).
-/

namespace BuildMarkers

namespace Json

/-! ## White space and numbers -/

/-- White space between the parts of a document. -/
def isBlank (c : Char) : Bool := c = ' ' || c = '\t' || c = '\n' || c = '\r'

/-- The text without the white space in front. -/
def skip (s : List Char) : List Char := s.dropWhile isBlank

/-- The character may stand in a number. -/
def isNumberChar (c : Char) : Bool :=
  c.isDigit || c = '-' || c = '+' || c = '.' || c = 'e' || c = 'E'

/-- One digit or more. -/
def IsDigits (s : List Char) : Prop := s ≠ [] ∧ ∀ c ∈ s, c.isDigit = true

/-- An integer: no zero stands in front of other digits. -/
def IsInteger (s : List Char) : Prop := IsDigits s ∧ (s.head? = some '0' → s = ['0'])

/-- A fraction, if there is one. -/
def IsFraction (s : List Char) : Prop := s = [] ∨ ∃ digits, s = '.' :: digits ∧ IsDigits digits

/-- An exponent, if there is one. -/
def IsExponent (s : List Char) : Prop :=
  s = [] ∨ ∃ e sign digits, s = e :: sign ++ digits ∧ (e = 'e' ∨ e = 'E') ∧
    (sign = [] ∨ sign = ['+'] ∨ sign = ['-']) ∧ IsDigits digits

/-- A number: a sign, an integer, a fraction and an exponent. -/
def IsNumber (s : List Char) : Prop :=
  ∃ sign integer fraction exponent, s = sign ++ integer ++ fraction ++ exponent ∧
    (sign = [] ∨ sign = ['-']) ∧ IsInteger integer ∧ IsFraction fraction ∧ IsExponent exponent

/-! ## Texts -/

/-- What the letter behind a backslash stands for. -/
def shortEscape? (letter : Char) : Option Char :=
  match letter with
  | '"' => some '"'
  | '\\' => some '\\'
  | '/' => some '/'
  | 'b' => some '\x08'
  | 'f' => some '\x0C'
  | 'n' => some '\n'
  | 'r' => some '\r'
  | 't' => some '\t'
  | _ => none

/-- The value of a hexadecimal digit, in either letter case. -/
def hexDigit? (c : Char) : Option ℕ :=
  if c.isDigit then some (c.toNat - '0'.toNat)
  else if 'a' ≤ c && c ≤ 'f' then some (c.toNat - 'a'.toNat + 10)
  else if 'A' ≤ c && c ≤ 'F' then some (c.toNat - 'A'.toNat + 10)
  else none

/-- The number of four hexadecimal digits, and the text behind them. -/
def unit? : List Char → Option (ℕ × List Char)
  | a :: b :: c :: d :: rest => do
    let a ← hexDigit? a
    let b ← hexDigit? b
    let c ← hexDigit? c
    let d ← hexDigit? d
    return (((a * 16 + b) * 16 + c) * 16 + d, rest)
  | _ => none

variable {c c' : Char} {cs cs' : List Char} {s r r' : List Char}

/-- `ReadsChar c s r`: a character of a text, as it stands at the start of `s`,
with `r` behind it. A character outside of the first plane may be written as two
escaped units. -/
inductive ReadsChar : Char → List Char → List Char → Prop where
  | plain {c : Char} {r : List Char} (hquote : c ≠ '"') (hslash : c ≠ '\\')
      (hcontrol : 0x20 ≤ c.toNat) :
      ReadsChar c (c :: r) r
  | short {c letter : Char} {r : List Char} (h : shortEscape? letter = some c) :
      ReadsChar c ('\\' :: letter :: r) r
  | unit {c : Char} {s r : List Char} (h : unit? s = some (c.toNat, r)) :
      ReadsChar c ('\\' :: 'u' :: s) r
  | pair {c : Char} {high low : ℕ} {s s' r : List Char}
      (h : unit? s = some (high, '\\' :: 'u' :: s'))
      (h' : unit? s' = some (low, r)) (hhigh : 0xD800 ≤ high ∧ high < 0xDC00)
      (hlow : 0xDC00 ≤ low ∧ low < 0xE000)
      (hc : c.toNat = 0x10000 + (high - 0xD800) * 0x400 + (low - 0xDC00)) :
      ReadsChar c ('\\' :: 'u' :: s) r

/-- `ReadsText cs s r`: the characters of a text and the quote that ends it, as
they stand at the start of `s`, with `r` behind them. -/
inductive ReadsText : List Char → List Char → List Char → Prop where
  | done {r : List Char} : ReadsText [] ('"' :: r) r
  | char {c : Char} {cs s s' r : List Char} (h : ReadsChar c s s') (rest : ReadsText cs s' r) :
      ReadsText (c :: cs) s r

/-! ## Values -/

/-- What a JSON text may say. A number is what is written for it. -/
inductive Datum where
  | null
  | bool (b : Bool)
  | number (digits : List Char)
  | text (s : String)
  | array (items : List Datum)
  /-- The fields in the order in which they are written. -/
  | object (fields : List (String × Datum))

/-- A part of a document. -/
inductive Phrase where
  | value (v : Datum)
  /-- Items up to the bracket that ends their array. -/
  | items (vs : List Datum)
  /-- A key and its value. -/
  | field (f : String × Datum)
  /-- Fields up to the bracket that ends their object. -/
  | fields (fs : List (String × Datum))

/-- `Reads p s r`: the part of a document that stands at the start of `s`, with
`r` behind it. A number goes as far as its characters do. -/
inductive Reads : Phrase → List Char → List Char → Prop where
  | null {r : List Char} : Reads (.value .null) ('n' :: 'u' :: 'l' :: 'l' :: r) r
  | true {r : List Char} : Reads (.value (.bool true)) ('t' :: 'r' :: 'u' :: 'e' :: r) r
  | false {r : List Char} : Reads (.value (.bool false)) ('f' :: 'a' :: 'l' :: 's' :: 'e' :: r) r
  | number {s : List Char} (h : IsNumber (s.takeWhile isNumberChar)) :
      Reads (.value (.number (s.takeWhile isNumberChar))) s (s.dropWhile isNumberChar)
  | text {cs s r : List Char} (h : ReadsText cs s r) :
      Reads (.value (.text (String.ofList cs))) ('"' :: s) r
  | emptyArray {s r : List Char} (stop : skip s = ']' :: r) :
      Reads (.value (.array [])) ('[' :: s) r
  | array {vs : List Datum} {s r : List Char} (h : Reads (.items vs) (skip s) r) :
      Reads (.value (.array vs)) ('[' :: s) r
  | lastOfItems {v : Datum} {s s' r : List Char} (h : Reads (.value v) s s')
      (stop : skip s' = ']' :: r) :
      Reads (.items [v]) s r
  | items {v : Datum} {vs : List Datum} {s s' s'' r : List Char} (h : Reads (.value v) s s')
      (comma : skip s' = ',' :: s'') (rest : Reads (.items vs) (skip s'') r) :
      Reads (.items (v :: vs)) s r
  | emptyObject {s r : List Char} (stop : skip s = '\x7d' :: r) :
      Reads (.value (.object [])) ('\x7b' :: s) r
  | object {fs : List (String × Datum)} {s r : List Char} (h : Reads (.fields fs) (skip s) r) :
      Reads (.value (.object fs)) ('\x7b' :: s) r
  | field {key : List Char} {v : Datum} {s s' s'' r : List Char} (name : ReadsText key s s')
      (colon : skip s' = ':' :: s'') (h : Reads (.value v) (skip s'') r) :
      Reads (.field (String.ofList key, v)) ('"' :: s) r
  | lastOfFields {f : String × Datum} {s s' r : List Char} (h : Reads (.field f) s s')
      (stop : skip s' = '\x7d' :: r) : Reads (.fields [f]) s r
  | fields {f : String × Datum} {fs : List (String × Datum)} {s s' s'' r : List Char}
      (h : Reads (.field f) s s') (comma : skip s' = ',' :: s'')
      (rest : Reads (.fields fs) (skip s'') r) :
      Reads (.fields (f :: fs)) s r

/-- The text is the value, with white space around it at most. -/
def IsDocument (s : List Char) (v : Datum) : Prop :=
  ∃ r, Reads (.value v) (skip s) r ∧ skip r = []

/-! ## The grammar is unambiguous -/

/-- A character is never half of a pair of units. -/
theorem toNat_not_surrogate (c : Char) : ¬ (0xD800 ≤ c.toNat ∧ c.toNat < 0xE000) := by
  have hvalid : c.toNat < 0xD800 ∨ 0xDFFF < c.toNat ∧ c.toNat < 0x110000 := c.valid
  omega

/-- A character stands in one way for what it is. -/
theorem ReadsChar.unique (h : ReadsChar c s r) (h' : ReadsChar c' s r') : c = c' ∧ r = r' := by
  cases h with
  | plain hquote hslash hcontrol =>
    cases h' with
    | plain => exact ⟨rfl, rfl⟩
    | short => exact absurd rfl hslash
    | unit => exact absurd rfl hslash
    | pair => exact absurd rfl hslash
  | short h =>
    cases h' with
    | plain hquote hslash hcontrol => exact absurd rfl hslash
    | short h' => exact ⟨Option.some.inj (h.symm.trans h'), rfl⟩
    | unit => simp [shortEscape?] at h
    | pair => simp [shortEscape?] at h
  | unit h =>
    cases h' with
    | plain hquote hslash hcontrol => exact absurd rfl hslash
    | short h' => simp [shortEscape?] at h'
    | unit h' =>
      obtain ⟨hc, hr⟩ := Prod.mk.inj (Option.some.inj (h.symm.trans h'))
      exact ⟨Char.toNat_inj.1 hc, hr⟩
    | pair h' _ hhigh _ _ =>
      obtain ⟨hc, -⟩ := Prod.mk.inj (Option.some.inj (h.symm.trans h'))
      exact absurd ⟨by omega, by omega⟩ (toNat_not_surrogate c)
  | pair h hnext hhigh hlow hc =>
    cases h' with
    | plain hquote hslash hcontrol => exact absurd rfl hslash
    | short h' => simp [shortEscape?] at h'
    | unit h' =>
      obtain ⟨hc', -⟩ := Prod.mk.inj (Option.some.inj (h.symm.trans h'))
      exact absurd ⟨by omega, by omega⟩ (toNat_not_surrogate c')
    | pair h' hnext' hhigh' hlow' hc' =>
      obtain ⟨hh, hs⟩ := Prod.mk.inj (Option.some.inj (h.symm.trans h'))
      obtain rfl : _ = _ := by simpa using hs
      obtain ⟨hl, hr⟩ := Prod.mk.inj (Option.some.inj (hnext.symm.trans hnext'))
      exact ⟨Char.toNat_inj.1 (by omega), hr⟩

/-- No character of a text starts with a quote. -/
theorem ReadsChar.head_ne_quote (h : ReadsChar c s r) : s.head? ≠ some '"' := by
  cases h with
  | plain hquote => simpa using hquote
  | short => simp
  | unit => simp
  | pair => simp

theorem ReadsText.unique (h : ReadsText cs s r) (h' : ReadsText cs' s r') : cs = cs' ∧ r = r' := by
  induction h generalizing cs' with
  | done =>
    cases h' with
    | done => exact ⟨rfl, rfl⟩
    | char h' _ => exact absurd rfl h'.head_ne_quote
  | char h rest ih =>
    cases h' with
    | done => exact absurd rfl h.head_ne_quote
    | char h' rest' =>
      obtain ⟨rfl, rfl⟩ := h.unique h'
      obtain ⟨rfl, rfl⟩ := ih rest'
      exact ⟨rfl, rfl⟩

/-- A number has an integer, and so a character. -/
theorem IsNumber.ne_nil (h : IsNumber s) : s ≠ [] := by
  obtain ⟨sign, integer, fraction, exponent, rfl, -, ⟨⟨hne, -⟩, -⟩, -, -⟩ := h
  simp [hne]

/-- A number does not start with a character of another kind of value. -/
theorem not_isNumber_cons (hc : isNumberChar c = false) :
    ¬ IsNumber ((c :: s).takeWhile isNumberChar) := by
  intro h
  rw [List.takeWhile_cons_of_neg (by simp [hc])] at h
  exact h.ne_nil rfl

/-- No number goes over white space. -/
theorem isNumberChar_of_isBlank (h : isBlank c = true) : isNumberChar c = false := by
  simp only [isBlank, Bool.or_eq_true, decide_eq_true_eq] at h
  rcases h with ((rfl | rfl) | rfl) | rfl <;> rfl

/-- A value has no white space in front. -/
theorem Reads.skip_eq {v : Datum} (h : Reads (.value v) s r) : skip s = s := by
  cases h with
  | number h =>
    cases s with
    | nil => rfl
    | cons c s =>
      refine List.dropWhile_cons_of_neg fun hblank => ?_
      exact not_isNumber_cons (isNumberChar_of_isBlank hblank) h
  | _ => rfl

/-- The part of a document is the only one of its sort that stands at the start
of `s`, and `r` is what it leaves behind it. -/
def Phrase.IsOnly (s r : List Char) : Phrase → Prop
  | .value v => ∀ v' r', Reads (.value v') s r' → v = v' ∧ r = r'
  | .items vs => ∀ vs' r', Reads (.items vs') s r' → vs = vs' ∧ r = r'
  | .field f => ∀ f' r', Reads (.field f') s r' → f = f' ∧ r = r'
  | .fields fs => ∀ fs' r', Reads (.fields fs') s r' → fs = fs' ∧ r = r'

/-- No item starts with the bracket that ends an array. -/
theorem not_reads_items_bracket {vs : List Datum} : ¬ Reads (.items vs) (']' :: s) r := by
  have hvalue : ∀ {v s'}, ¬ Reads (.value v) (']' :: s) s' := by
    intro v s' h
    cases h with
    | number h => exact not_isNumber_cons rfl h
  intro h
  cases h with
  | lastOfItems h => exact hvalue h
  | items h => exact hvalue h

/-- No field starts with the bracket that ends an object. -/
theorem not_reads_fields_bracket {fs : List (String × Datum)} :
    ¬ Reads (.fields fs) ('\x7d' :: s) r := by
  have hfield : ∀ {f s'}, ¬ Reads (.field f) ('\x7d' :: s) s' := by
    intro f s' h
    cases h
  intro h
  cases h with
  | lastOfFields h => exact hfield h
  | fields h => exact hfield h

/-- **The grammar is unambiguous.** The induction is on what is read; the other
reading takes the same rule, because a value's first character, or the
character behind an item or a field, leaves no choice. -/
theorem Reads.isOnly {p : Phrase} (h : Reads p s r) : p.IsOnly s r := by
  induction h with
  | null =>
    intro v' r' h'
    cases h' with
    | null => exact ⟨rfl, rfl⟩
    | number h' => exact absurd h' (not_isNumber_cons rfl)
  | true =>
    intro v' r' h'
    cases h' with
    | true => exact ⟨rfl, rfl⟩
    | number h' => exact absurd h' (not_isNumber_cons rfl)
  | false =>
    intro v' r' h'
    cases h' with
    | false => exact ⟨rfl, rfl⟩
    | number h' => exact absurd h' (not_isNumber_cons rfl)
  | number h =>
    intro v' r' h'
    cases h' with
    | number => exact ⟨rfl, rfl⟩
    | _ => exact absurd h (not_isNumber_cons rfl)
  | text h =>
    intro v' r' h'
    cases h' with
    | text h' =>
      obtain ⟨rfl, rfl⟩ := h.unique h'
      exact ⟨rfl, rfl⟩
    | number h' => exact absurd h' (not_isNumber_cons rfl)
  | emptyArray stop =>
    intro v' r' h'
    cases h' with
    | emptyArray stop' => exact ⟨rfl, (List.cons.inj (stop.symm.trans stop')).2⟩
    | array h' => exact absurd (stop ▸ h') not_reads_items_bracket
    | number h' => exact absurd h' (not_isNumber_cons rfl)
  | array h ih =>
    intro v' r' h'
    cases h' with
    | emptyArray stop' => exact absurd (stop' ▸ h) not_reads_items_bracket
    | array h' =>
      obtain ⟨rfl, rfl⟩ := ih _ _ h'
      exact ⟨rfl, rfl⟩
    | number h' => exact absurd h' (not_isNumber_cons rfl)
  | lastOfItems h stop ih =>
    intro vs' r' h'
    cases h' with
    | lastOfItems h' stop' =>
      obtain ⟨rfl, rfl⟩ := ih _ _ h'
      exact ⟨rfl, (List.cons.inj (stop.symm.trans stop')).2⟩
    | items h' comma' _ =>
      obtain ⟨rfl, rfl⟩ := ih _ _ h'
      simp [stop] at comma'
  | items h comma rest ih ihrest =>
    intro vs' r' h'
    cases h' with
    | lastOfItems h' stop' =>
      obtain ⟨rfl, rfl⟩ := ih _ _ h'
      simp [comma] at stop'
    | items h' comma' rest' =>
      obtain ⟨rfl, rfl⟩ := ih _ _ h'
      obtain ⟨-, rfl⟩ := List.cons.inj (comma.symm.trans comma')
      obtain ⟨rfl, rfl⟩ := ihrest _ _ rest'
      exact ⟨rfl, rfl⟩
  | emptyObject stop =>
    intro v' r' h'
    cases h' with
    | emptyObject stop' => exact ⟨rfl, (List.cons.inj (stop.symm.trans stop')).2⟩
    | object h' => exact absurd (stop ▸ h') not_reads_fields_bracket
    | number h' => exact absurd h' (not_isNumber_cons rfl)
  | object h ih =>
    intro v' r' h'
    cases h' with
    | emptyObject stop' => exact absurd (stop' ▸ h) not_reads_fields_bracket
    | object h' =>
      obtain ⟨rfl, rfl⟩ := ih _ _ h'
      exact ⟨rfl, rfl⟩
    | number h' => exact absurd h' (not_isNumber_cons rfl)
  | field name colon h ih =>
    intro f' r' h'
    cases h' with
    | field name' colon' h' =>
      obtain ⟨rfl, rfl⟩ := name.unique name'
      obtain ⟨-, rfl⟩ := List.cons.inj (colon.symm.trans colon')
      obtain ⟨rfl, rfl⟩ := ih _ _ h'
      exact ⟨rfl, rfl⟩
  | lastOfFields h stop ih =>
    intro fs' r' h'
    cases h' with
    | lastOfFields h' stop' =>
      obtain ⟨rfl, rfl⟩ := ih _ _ h'
      exact ⟨rfl, (List.cons.inj (stop.symm.trans stop')).2⟩
    | fields h' comma' _ =>
      obtain ⟨rfl, rfl⟩ := ih _ _ h'
      simp [stop] at comma'
  | fields h comma rest ih ihrest =>
    intro fs' r' h'
    cases h' with
    | lastOfFields h' stop' =>
      obtain ⟨rfl, rfl⟩ := ih _ _ h'
      simp [comma] at stop'
    | fields h' comma' rest' =>
      obtain ⟨rfl, rfl⟩ := ih _ _ h'
      obtain ⟨-, rfl⟩ := List.cons.inj (comma.symm.trans comma')
      obtain ⟨rfl, rfl⟩ := ihrest _ _ rest'
      exact ⟨rfl, rfl⟩

/-- **A text is a document of one value at most.** -/
theorem IsDocument.unique {v v' : Datum} (h : IsDocument s v) (h' : IsDocument s v') : v = v' := by
  obtain ⟨r, hv, -⟩ := h
  obtain ⟨r', hv', -⟩ := h'
  exact (hv.isOnly v' r' hv').1

/-! ## What a document ends with -/

/-- What stands behind the white space in front is an end of the text. -/
theorem skip_suffix (s : List Char) : skip s <:+ s := List.dropWhile_suffix isBlank

/-- So is what stands behind the first character that is not blank. -/
theorem suffix_of_skip_cons (h : skip s = c :: r) : r <:+ s :=
  (List.suffix_cons c r).trans (h ▸ skip_suffix s)

theorem suffix_of_unit? {n : ℕ} (h : unit? s = some (n, r)) : r <:+ s := by
  match s, h with
  | a :: b :: c :: d :: rest, h =>
    simp only [unit?, Option.bind_eq_bind, Option.bind_eq_some_iff, Option.pure_def,
      Option.some.injEq, Prod.mk.injEq] at h
    obtain ⟨-, -, -, -, -, -, -, -, -, rfl⟩ := h
    exact ⟨[a, b, c, d], rfl⟩

theorem ReadsChar.suffix (h : ReadsChar c s r) : r <:+ s := by
  cases h with
  | plain => exact List.suffix_cons c r
  | short => exact (List.suffix_cons _ _).trans (List.suffix_cons _ _)
  | unit h => exact (suffix_of_unit? h).trans ⟨['\\', 'u'], rfl⟩
  | pair h hnext =>
    have hback := (suffix_of_unit? hnext).trans ⟨['\\', 'u'], rfl⟩
    exact (hback.trans (suffix_of_unit? h)).trans ⟨['\\', 'u'], rfl⟩

theorem ReadsText.suffix (h : ReadsText cs s r) : r <:+ s := by
  induction h with
  | done => exact List.suffix_cons _ _
  | char h _ ih => exact ih.trans h.suffix

/-- The bracket that a part of a document goes up to. -/
def Phrase.stop : Phrase → List Char
  | .items _ => [']']
  | .fields _ => ['\x7d']
  | _ => []

/-- **What is left behind a part of a document, with the bracket that ends it, is
an end of the text.** -/
theorem Reads.suffix {p : Phrase} (h : Reads p s r) : p.stop ++ r <:+ s := by
  induction h with
  | null => exact ⟨['n', 'u', 'l', 'l'], rfl⟩
  | true => exact ⟨['t', 'r', 'u', 'e'], rfl⟩
  | false => exact ⟨['f', 'a', 'l', 's', 'e'], rfl⟩
  | number => exact List.dropWhile_suffix _
  | text h => exact h.suffix.trans (List.suffix_cons _ _)
  | emptyArray stop => exact (suffix_of_skip_cons stop).trans (List.suffix_cons _ _)
  | array _ ih =>
    exact (List.suffix_append [']'] _).trans
      (ih.trans ((skip_suffix _).trans (List.suffix_cons _ _)))
  | lastOfItems _ stop ih => exact (stop ▸ skip_suffix _).trans ih
  | items _ comma _ ih ihrest =>
    exact ihrest.trans ((skip_suffix _).trans ((suffix_of_skip_cons comma).trans ih))
  | emptyObject stop => exact (suffix_of_skip_cons stop).trans (List.suffix_cons _ _)
  | object _ ih =>
    exact (List.suffix_append ['\x7d'] _).trans
      (ih.trans ((skip_suffix _).trans (List.suffix_cons _ _)))
  | field name colon _ ih =>
    have hcolon := ih.trans ((skip_suffix _).trans (suffix_of_skip_cons colon))
    exact hcolon.trans (name.suffix.trans (List.suffix_cons _ _))
  | lastOfFields _ stop ih => exact (stop ▸ skip_suffix _).trans ih
  | fields _ comma _ ih ihrest =>
    exact ihrest.trans ((skip_suffix _).trans ((suffix_of_skip_cons comma).trans ih))

/-- **A text that begins an array and ends with anything but its bracket or white
space is no document.** -/
theorem not_isDocument_of_getLast? {v : Datum} (hhead : s.head? = some '[')
    (hlast : s.getLast? = some c)
    (hblank : isBlank c = false) (hc : c ≠ ']') : ¬ IsDocument s v := by
  rintro ⟨r, hv, hr⟩
  obtain ⟨rest, rfl⟩ : ∃ rest, s = '[' :: rest := List.head?_eq_some_iff.1 hhead
  have hskip : skip ('[' :: rest) = '[' :: rest := rfl
  rw [hskip] at hv
  -- The reading takes the bracket of the array last.
  have hstop : ']' :: r <:+ '[' :: rest := by
    cases hv with
    | number h => exact absurd h (not_isNumber_cons rfl)
    | emptyArray stop => exact (stop ▸ skip_suffix _).trans (List.suffix_cons _ _)
    | array h => exact h.suffix.trans ((skip_suffix _).trans (List.suffix_cons _ _))
  have hmem : c ∈ ']' :: r := by
    obtain ⟨front, hfront⟩ := hstop
    rw [← hfront, List.getLast?_append_of_ne_nil _ (by simp)] at hlast
    exact List.mem_of_getLast? hlast
  rcases List.mem_cons.1 hmem with rfl | hmem
  · exact hc rfl
  · have hblank' : isBlank c = true := List.dropWhile_eq_nil_iff.1 hr c hmem
    exact Bool.noConfusion (hblank.symm.trans hblank')

end Json

end BuildMarkers
