import BuildMarkers.Proofs.Log.Announced
import BuildMarkers.Proofs.Text.Digits
import Mathlib.Data.Option.Basic
/-!
# Printed diagnostics are read back

A compiler prints a diagnostic as `file:line[:column]: [keyword: ]message`, and a
line of this form could be read in more ways than one: the file may have a
colon, the message may look like numbers, a keyword or the name of a program.
It is read as it was meant (`parse_text`). What decides is the blank behind the
numbers: no number and no drive goes over it (`number?_blank`), and whatever
word ends before it ends with a digit and so is no make program
(`ofLine?_chars`).
-/

namespace BuildMarkers

/-- What a compiler prints of a diagnostic. -/
structure Printed where
  reference : String
  line : UInt32
  column : Option UInt32
  /-- The keyword in front of the message. -/
  keyword : Option String
  message : String

namespace Printed

/-- The keyword and the message. -/
def body (p : Printed) : List Char :=
  (p.keyword.elim [] fun keyword => keyword.toList ++ [':', ' ']) ++ p.message.toList

/-- The numbers, each behind a colon. -/
def numbers (p : Printed) : List Char :=
  ':' :: Nat.toDigits 10 p.line.toNat ++
    p.column.elim [] fun column => ':' :: Nat.toDigits 10 column.toNat

/-- The characters of the line. -/
def chars (p : Printed) : List Char := p.reference.toList ++ (p.numbers ++ ':' :: ' ' :: p.body)

/-- The line. -/
def text (p : Printed) : String :=
  p.reference ++ ":" ++ toString p.line ++
    (p.column.elim "" fun column => ":" ++ toString column) ++ ": " ++
    (p.keyword.elim "" fun keyword => keyword ++ ": ") ++ p.message

/-- The diagnostic that is meant. -/
def diagnostic (p : Printed) : Diagnostic :=
  { reference := p.reference, line := p.line, column := p.column
    severity := (p.keyword.map Severity.ofKeyword).getD .error
    description := p.message }

/-- The file has no white space around it, and no colon but that of a drive in
front. -/
structure IsReference (reference : String) : Prop where
  ne : reference ≠ ""
  trim : Text.trim reference = reference
  colon : ':' ∉ reference.toList ∨
    ∃ drive rest, reference.toList = drive :: ':' :: rest ∧ drive.isAlpha ∧ rest ≠ [] ∧ ':' ∉ rest

/-- The message starts with the keyword, blanks and a colon. -/
def StartsWith (message keyword : String) : Prop :=
  ∃ blanks rest, message.toList = keyword.toList ++ blanks ++ ':' :: rest ∧
    ∀ c ∈ blanks, Text.isAsciiBlank c = true

/-- The parts of the line are what they look like: the keyword is one of those
that are known, and without a keyword the message does not begin with one. -/
structure IsPlain (p : Printed) : Prop where
  reference : IsReference p.reference
  keyword : ∀ keyword ∈ p.keyword, keyword ∈ Diagnostic.keywords
  message_ne : p.message ≠ ""
  message_trim : Text.trim p.message = p.message
  message_line : '\n' ∉ p.message.toList
  message_start : p.keyword = none → ∀ keyword ∈ Diagnostic.keywords, ¬ StartsWith p.message keyword

/-- The file is a letter, which a number behind it makes a drive. -/
def IsDriveLike (p : Printed) : Prop :=
  p.column.isSome ∧ ∃ letter : Char, letter.isAlpha ∧ p.reference = String.ofList [letter]

end Printed

/-! ## The names of make programs -/

namespace DirectoryChange

variable {program : List Char}

/-- **The name of a make program** has four letters or more, and ends with its last
one or with the bracket of a depth. -/
theorem of_isMake (h : isMake program = true) :
    4 ≤ program.length ∧ (program.getLast? = some 'e' ∨ program.getLast? = some ']') := by
  obtain ⟨front, letter, -, -, hdrop⟩ := isMake_eq_true_iff.1 h
  obtain ⟨exe, depth, -, rfl⟩ := (dropExe_dropDepth_iff (by simp) (dropExe_make _)).1 hdrop
  constructor
  · simp only [List.length_append]
    exact le_add_right (le_add_right (Nat.le_add_left 4 _))
  · cases depth with
    | none => cases exe <;> simp
    | some digits =>
      right
      rw [Option.elim_some, ← List.cons_append, ← List.append_assoc, List.getLast?_concat]

end DirectoryChange

namespace Diagnostic

variable {name s : List Char} {keyword : String}

/-! ## Reading what is printed -/

/-- Digits between two colons are a number. -/
theorem number?_toDigits (n : ℕ) (s : List Char) :
    number? (':' :: (Nat.toDigits 10 n ++ ':' :: s)) = some (Nat.toDigits 10 n, ':' :: s) := by
  have hdigits : ∀ c ∈ Nat.toDigits 10 n, c.isDigit = true := fun c hc => Digits.isDigit_of_mem hc
  have hstop : ∀ c ∈ (':' :: s).head?, c.isDigit = false := by simp
  have htake := Text.takeWhile_run hdigits hstop
  have hdrop := Text.dropWhile_run hdigits hstop
  rw [number?, htake, hdrop]
  cases hn : Nat.toDigits 10 n with
  | nil => exact absurd hn Nat.toDigits_ne_nil
  | cons c digits => rfl

/-- No number goes over a blank. -/
theorem number?_blank (s : List Char) : number? (':' :: ' ' :: s) = none := rfl

/-- The file runs up to the next colon. -/
theorem afterDrive?_run (drive : List Char) (hne : name ≠ []) (hname : ':' ∉ name)
    (hs : s.head? = some ':') :
    afterDrive? drive (name ++ s) = afterFile? (drive ++ name) s := by
  have hrun : ∀ c ∈ name, decide (c ≠ ':') = true := by
    intro c hc
    exact decide_eq_true fun h => hname (h ▸ hc)
  have hstop : ∀ c ∈ s.head?, decide (c ≠ ':') = false := by simp [hs]
  have htake := Text.takeWhile_run hrun hstop
  have hdrop := Text.dropWhile_run hrun hstop
  simp only [afterDrive?, htake, hdrop]
  rw [if_neg (by simpa using hne)]

/-- What is read as a keyword stands in front, with blanks and a colon behind it. -/
theorem afterKeyword?_eq_none {message : String} (h : ¬ Printed.StartsWith message keyword) :
    afterKeyword? keyword message.toList = none := by
  by_contra hsome
  obtain ⟨rest, hrest⟩ := Option.ne_none_iff_exists'.1 hsome
  simp only [afterKeyword?, Option.bind_eq_bind, Option.bind_eq_some_iff,
    stripStart?_eq_some_iff] at hrest
  obtain ⟨after, hafter, hcolon⟩ := hrest
  split at hcolon
  · next rest' hrest' =>
    refine h ⟨after.takeWhile Text.isAsciiBlank, rest', ?_, fun c hc => (List.mem_takeWhile_imp hc)⟩
    rw [hafter, List.append_assoc, ← hrest', List.takeWhile_append_dropWhile]
  · cases hcolon

/-- A keyword with a colon and a blank behind it is read as itself: no other one
starts with its letter. -/
theorem keyword?_self (hk : keyword ∈ keywords) (hs : ∀ c ∈ s.head?, Text.isAsciiBlank c = false) :
    keyword? (keyword.toList ++ ':' :: ' ' :: s) = some (keyword, s) := by
  have hread : keyword? (keyword.toList ++ ':' :: ' ' :: s) =
      some (keyword, s.dropWhile Text.isAsciiBlank) := by
    simp only [keywords, List.mem_cons, List.not_mem_nil, or_false] at hk
    rcases hk with rfl | rfl | rfl | rfl | rfl <;> rfl
  rw [hread, Text.dropWhile_stop hs]

end Diagnostic

namespace Printed

open Diagnostic

variable {p : Printed}

/-- The parts of the line as they are to be read. -/
def parts (p : Printed) : Reading :=
  { file := p.reference.toList, line := Nat.toDigits 10 p.line.toNat
    column := p.column.map fun column => Nat.toDigits 10 column.toNat
    keyword := p.keyword, message := p.message.toList }

theorem IsPlain.head?_message (hp : p.IsPlain) :
    ∀ c ∈ p.message.toList.head?, Text.isAsciiBlank c = false := by
  intro c hc
  exact Text.isAsciiBlank_eq_false
    (Text.head?_of_stripBoth_eq (Text.trimChars_toList hp.message_trim) c hc)

theorem body_of_none (hkeyword : p.keyword = none) : p.body = p.message.toList := by
  simp [body, hkeyword]

theorem body_of_some {keyword : String} (hkeyword : p.keyword = some keyword) :
    p.body = keyword.toList ++ ':' :: ' ' :: p.message.toList := by
  simp [body, hkeyword]

/-- What stands behind the blank does not start with one. -/
theorem IsPlain.head?_body (hp : p.IsPlain) : ∀ c ∈ p.body.head?, Text.isAsciiBlank c = false := by
  have hwords : ∀ k ∈ keywords, ∃ c rest, k.toList = c :: rest ∧ Text.isAsciiBlank c = false := by
    simp only [keywords, List.forall_mem_cons]
    exact ⟨⟨_, _, rfl, rfl⟩, ⟨_, _, rfl, rfl⟩, ⟨_, _, rfl, rfl⟩, ⟨_, _, rfl, rfl⟩,
      ⟨_, _, rfl, rfl⟩, by simp⟩
  cases hkeyword : p.keyword with
  | none =>
    rw [body_of_none hkeyword]
    exact hp.head?_message
  | some keyword =>
    obtain ⟨c, rest, hletters, hc⟩ := hwords keyword (hp.keyword keyword hkeyword)
    rw [body_of_some hkeyword, hletters]
    simpa using hc

/-- The keyword that is printed is read, and none where none is. -/
theorem keyword?_body (hp : p.IsPlain) : keyword? p.body = p.keyword.map (·, p.message.toList) := by
  cases hkeyword : p.keyword with
  | none =>
    rw [body_of_none hkeyword, Option.map_none, keyword?, List.findSome?_eq_none_iff]
    intro keyword hk
    rw [afterKeyword?_eq_none (hp.message_start hkeyword keyword hk), Option.map_none]
  | some keyword =>
    rw [body_of_some hkeyword, keyword?_self (hp.keyword keyword hkeyword) hp.head?_message,
      Option.map_some]

/-- The text behind the numbers is read as the keyword and the message. -/
theorem message?_body (hp : p.IsPlain) :
    message? (' ' :: p.body) = some (p.keyword, p.message.toList) := by
  have hskip : (' ' :: p.body).dropWhile Text.isAsciiBlank = p.body := by
    rw [List.dropWhile_cons_of_pos rfl, Text.dropWhile_stop hp.head?_body]
  have hline : p.message.toList.contains '\n' = false := by simpa using hp.message_line
  have hread := keyword?_body hp
  simp only [message?, hskip, hread]
  cases hkeyword : p.keyword with
  | none =>
    simp only [Option.map_none, body_of_none hkeyword, hline]
    rfl
  | some keyword =>
    simp only [Option.map_some, hline]
    rfl

/-- The numbers are read as the line and the column. -/
theorem afterFile?_numbers (hp : p.IsPlain) (file : List Char) :
    afterFile? file (p.numbers ++ ':' :: ' ' :: p.body) = some { p.parts with file } := by
  have hmessage := message?_body hp
  cases hcolumn : p.column with
  | none =>
    have hline := number?_toDigits p.line.toNat (' ' :: p.body)
    simp [numbers, hcolumn, afterFile?, hline, number?_blank, finish?, hmessage, parts]
  | some column =>
    have hnext := number?_toDigits column.toNat (' ' :: p.body)
    have hline :=
      number?_toDigits p.line.toNat (Nat.toDigits 10 column.toNat ++ ':' :: ' ' :: p.body)
    simp [numbers, hcolumn, afterFile?, hline, hnext, finish?, hmessage, parts]

theorem head?_numbers (p : Printed) (s : List Char) : (p.numbers ++ s).head? = some ':' := by
  simp [numbers]

/-- A letter in front is a drive only where a number and a column follow. -/
theorem withDrive?_chars (hne : p.reference ≠ "") (hcolon : ':' ∉ p.reference.toList)
    (hdrive : ¬ p.IsDriveLike) : withDrive? p.chars = none := by
  unfold chars
  match hreference : p.reference.toList with
  | [] => exact absurd (by simpa using hreference) hne
  | [letter] =>
    by_cases halpha : letter.isAlpha = true
    · have hcolumn : p.column = none := by
        by_contra hsome
        have hletter : p.reference = String.ofList [letter] := by
          rw [← hreference, String.ofList_toList]
        exact hdrive ⟨Option.isSome_iff_ne_none.2 hsome, letter, halpha, hletter⟩
      -- The file would be the line number, and no number is left behind it.
      have hread : afterDrive? [letter, ':']
          (Nat.toDigits 10 p.line.toNat ++ ':' :: ' ' :: p.body) = none := by
        rw [afterDrive?_run _ Nat.toDigits_ne_nil (Digits.colon_notMem _) rfl]
        simp [afterFile?, number?_blank]
      simpa [numbers, hcolumn, withDrive?] using fun _ => hread
    · simp [numbers, withDrive?, halpha]
  | c :: d :: rest =>
    have hd : d ≠ ':' := by
      rintro rfl
      exact hcolon (by simp [hreference])
    simp [withDrive?, hd]

/-- **The line is read as its parts.** -/
theorem reading?_chars (hp : p.IsPlain) (hdrive : ¬ p.IsDriveLike) :
    reading? p.chars = some p.parts := by
  have hne := hp.reference.ne
  obtain hcolon | ⟨drive, rest, hreference, halpha, hrest, hcolon⟩ := hp.reference.colon
  · have hread : afterDrive? [] p.chars = some p.parts := by
      rw [chars, afterDrive?_run [] (by simpa using hne) hcolon (head?_numbers p _),
        afterFile?_numbers hp]
      rfl
    rw [reading?, withDrive?_chars hne hcolon hdrive, hread]
    rfl
  · have hread : withDrive? p.chars = some p.parts := by
      have hrun := afterDrive?_run [drive, ':'] hrest hcolon
          (head?_numbers p (':' :: ' ' :: p.body))
      rw [chars, hreference]
      simp only [List.cons_append, withDrive?]
      rw [if_pos halpha, hrun, afterFile?_numbers hp, List.cons_append, List.cons_append,
        List.nil_append, ← hreference]
      rfl
    rw [reading?, hread]
    rfl

theorem colon_or_isDigit_of_mem_numbers {c : Char} (h : c ∈ p.numbers) :
    c = ':' ∨ c.isDigit = true := by
  have hnumber : ∀ {n : ℕ}, c ∈ ':' :: Nat.toDigits 10 n → c = ':' ∨ c.isDigit = true := by
    intro n hc
    exact (List.mem_cons.1 hc).imp_right Digits.isDigit_of_mem
  rcases List.mem_append.1 h with hline | hrest
  · exact hnumber hline
  · cases hcolumn : p.column with
    | none => simp [hcolumn] at hrest
    | some column =>
      rw [hcolumn, Option.elim_some] at hrest
      exact hnumber hrest

/-- The numbers have no blanks in them. -/
theorem isAsciiBlank_of_mem_numbers {c : Char} (h : c ∈ p.numbers) :
    Text.isAsciiBlank c = false := by
  rcases colon_or_isDigit_of_mem_numbers h with rfl | hdigit
  · rfl
  · exact Text.isAsciiBlank_eq_false
      (Text.isBlank_of_isAlphanum (by simp [Char.isAlphanum, hdigit]))

/-- The numbers end with a digit. -/
theorem exists_getLast?_numbers (p : Printed) :
    ∃ c, p.numbers.getLast? = some c ∧ c.isDigit = true := by
  have hlast : ∀ (front : List Char) (n : ℕ),
      ∃ c, (front ++ Nat.toDigits 10 n).getLast? = some c ∧ c.isDigit = true := by
    intro front n
    refine ⟨(Nat.toDigits 10 n).getLast Nat.toDigits_ne_nil, ?_,
      Digits.isDigit_of_mem (List.getLast_mem _)⟩
    rw [List.getLast?_append_of_ne_nil _ Nat.toDigits_ne_nil, List.getLast?_eq_getLast_of_ne_nil]
  cases hcolumn : p.column with
  | none => simpa [numbers, hcolumn] using hlast [':'] p.line.toNat
  | some column =>
    simpa [numbers, hcolumn] using hlast (':' :: Nat.toDigits 10 p.line.toNat ++ [':']) column.toNat

/-- A colon that stands behind more than a letter is none of the file. -/
theorem IsReference.append_ne {reference : String} (h : IsReference reference)
    {program rest : List Char}
    (hlength : 4 ≤ program.length) : program ++ ':' :: rest ≠ reference.toList := by
  intro heq
  obtain hcolon | ⟨drive, rest', hreference, -, -, hcolon⟩ := h.colon
  · exact hcolon (heq ▸ by simp)
  · rw [hreference] at heq
    match program, hlength with
    | c :: d :: program, _ =>
      simp only [List.cons_append, List.cons.injEq] at heq
      exact hcolon (heq.2.2 ▸ by simp)

/-- **No directory line looks like this.** If the file has a blank in it, the first
word is a part of the file, and if not, it goes up to the last colon and has a
digit before that. -/
theorem ofLine?_chars (hp : p.IsPlain) : DirectoryChange.ofLine? p.chars = none := by
  by_contra hsome
  obtain ⟨change, hchange⟩ := Option.ne_none_iff_exists'.1 hsome
  obtain ⟨program, quoted, hprogram, hmake, -, hline⟩ := DirectoryChange.exists_of_ofLine? hchange
  obtain ⟨hword, -⟩ := DirectoryChange.cut_firstWord hprogram change quoted hline
  obtain ⟨hlength, hlast⟩ := DirectoryChange.of_isMake hmake
  by_cases hblank : ∀ c ∈ p.reference.toList, Text.isAsciiBlank c = false
  · have hrun : ∀ c ∈ p.reference.toList ++ p.numbers ++ [':'], (!Text.isAsciiBlank c) = true := by
      intro c hc
      simp only [List.mem_append, List.mem_singleton] at hc
      rcases hc with (hc | hc) | rfl
      · simp [hblank c hc]
      · simp [isAsciiBlank_of_mem_numbers hc]
      · rfl
    have htake := Text.takeWhile_run (s := ' ' :: p.body) hrun (by simp [Text.isAsciiBlank])
    have hchars : p.chars = p.reference.toList ++ p.numbers ++ [':'] ++ ' ' :: p.body := by
      simp [chars]
    rw [hchars, htake] at hword
    obtain ⟨hprogram, -⟩ := List.append_inj' hword rfl
    obtain ⟨c, hc, hdigit⟩ := exists_getLast?_numbers p
    rw [← hprogram, List.getLast?_append, hc, Option.some_or] at hlast
    rcases hlast with hlast | hlast
    · exact absurd (Option.some.inj hlast ▸ hdigit) (by decide)
    · exact absurd (Option.some.inj hlast ▸ hdigit) (by decide)
  · have hcut : p.chars.takeWhile (fun c => !Text.isAsciiBlank c) <+: p.reference.toList := by
      rw [chars, Text.takeWhile_append_of_exists (by simpa using hblank)]
      exact List.takeWhile_prefix _
    obtain ⟨rest, hrest⟩ := hword ▸ hcut
    exact hp.reference.append_ne hlength (by simpa using hrest)

/-! ## The line as a whole -/

theorem toList_toString (n : UInt32) : (toString n).toList = Nat.toDigits 10 n.toNat :=
  Nat.toList_repr

theorem toList_text (p : Printed) : p.text.toList = p.chars := by
  cases hcolumn : p.column <;> cases hkeyword : p.keyword <;>
    simp [text, chars, numbers, body, hcolumn, hkeyword, toList_toString]

/-- The line ends as its message does, with no white space. -/
theorem IsPlain.getLast?_chars (hp : p.IsPlain) :
    ∀ c ∈ p.chars.getLast?, Text.isBlank c = false := by
  have hne : p.message.toList ≠ [] := by simpa using hp.message_ne
  have hsplit : ∃ front, p.chars = front ++ p.message.toList :=
    ⟨p.reference.toList ++ p.numbers ++ [':', ' '] ++
        p.keyword.elim [] fun keyword => keyword.toList ++ [':', ' '],
      by simp [chars, body]⟩
  obtain ⟨front, hchars⟩ := hsplit
  rw [hchars, List.getLast?_append_of_ne_nil _ hne]
  exact Text.getLast?_of_stripBoth_eq (Text.trimChars_toList hp.message_trim)

/-- The parts make the diagnostic that is meant. -/
theorem ofReading?_parts (hp : p.IsPlain) : ofReading? p.parts = some p.diagnostic := by
  have hfile := Text.trimChars_toList hp.reference.trim
  have hmessage := Text.trimChars_toList hp.message_trim
  have hfile_ne : p.reference.toList ≠ [] := by simpa using hp.reference.ne
  have hmessage_ne : p.message.toList ≠ [] := by simpa using hp.message_ne
  have hcolumn : (p.column.map fun column => Nat.toDigits 10 column.toNat).bind number32? =
      p.column := by
    cases p.column with
    | none => rfl
    | some column => exact number32?_toDigits column
  simp [ofReading?, parts, diagnostic, hfile, hmessage, hfile_ne, hmessage_ne,
    number32?_toDigits, hcolumn]

/-- The line is read as what is meant, whatever ends it. -/
theorem parse_eq (hp : p.IsPlain) (hdrive : ¬ p.IsDriveLike) {ending : String}
    (hending : ∀ c ∈ ending.toList, c = '\r' ∨ c = '\n') :
    Line.parse (p.text ++ ending) = .diagnostic p.diagnostic := by
  have hend : ∀ c ∈ ending.toList, Line.isLineEnd c = true := by
    intro c hc
    simpa [Line.isLineEnd] using hending c hc
  have hlast : ∀ c ∈ p.chars.getLast?, Line.isLineEnd c = false := by
    intro c hc
    by_contra hcut
    have hblank := hp.getLast?_chars c hc
    have hcases : c = '\r' ∨ c = '\n' := by
      simpa only [Line.isLineEnd, Bool.or_eq_true, decide_eq_true_eq] using eq_true_of_ne_false hcut
    rcases hcases with rfl | rfl <;> exact absurd hblank (by decide)
  have hline : Diagnostic.ofLine? p.chars = some p.diagnostic := by
    rw [Diagnostic.ofLine?, reading?_chars hp hdrive]
    exact ofReading?_parts hp
  rw [Line.parse, String.toList_append, toList_text, Line.ofChars,
    Text.dropTrailing_append hend hlast]
  simp only [ofLine?_chars hp, hline]

/-- The line with the first number as a part of the file and the second one as
the line. -/
def shifted (p : Printed) (column : UInt32) : Printed :=
  { p with reference := p.reference ++ ":" ++ toString p.line, line := column, column := none }

/-- Where the file is a letter, the same line is printed for a file that has the
number behind this drive. -/
theorem text_shifted {column : UInt32} (hcolumn : p.column = some column) :
    (p.shifted column).text = p.text := by
  simp [text, shifted, hcolumn, String.append_assoc]

theorem isPlain_shifted (column : UInt32) {letter : Char} (hp : p.IsPlain) (halpha : letter.isAlpha)
    (hletter : p.reference = String.ofList [letter]) : (p.shifted column).IsPlain where
  reference := by
    have hchars : (p.shifted column).reference.toList =
        letter :: ':' :: Nat.toDigits 10 p.line.toNat := by
      simp [shifted, hletter, toList_toString]
    refine ⟨?_, ?_, .inr ⟨letter, Nat.toDigits 10 p.line.toNat, hchars, halpha,
      Nat.toDigits_ne_nil, ?_⟩⟩
    · intro hempty
      simp [hempty] at hchars
    · rw [Text.trim, Text.trimChars, hchars, Text.stripBoth_eq_self, ← hchars, String.ofList_toList]
      · intro c hc
        obtain rfl : letter = c := by simpa using hc
        exact Text.isBlank_of_isAlphanum (by simp [Char.isAlphanum, halpha])
      · intro c hc
        have hlast : c ∈ (Nat.toDigits 10 p.line.toNat).getLast? := by
          rwa [← List.getLast?_append_of_ne_nil [letter, ':'] Nat.toDigits_ne_nil]
        have hdigit := Digits.isDigit_of_mem (List.mem_of_getLast? hlast)
        exact Text.isBlank_of_isAlphanum (by simp [Char.isAlphanum, hdigit])
    · exact Digits.colon_notMem _
  keyword := hp.keyword
  message_ne := hp.message_ne
  message_trim := hp.message_trim
  message_line := hp.message_line
  message_start := hp.message_start

end Printed

/-- **A printed diagnostic is read back**, whatever line ends follow. The exception
is a file of one letter with a column printed: the letter is then read as a
drive, the line number as the rest of the file, and the column as the line. -/
theorem parse_text (p : Printed) (hp : p.IsPlain) (ending : String)
    (hending : ∀ c ∈ ending.toList, c = '\r' ∨ c = '\n') :
    (¬ p.IsDriveLike → Line.parse (p.text ++ ending) = .diagnostic p.diagnostic) ∧
    (p.IsDriveLike → ∀ column ∈ p.column,
      Line.parse (p.text ++ ending) = .diagnostic (p.shifted column).diagnostic) := by
  constructor
  · exact fun hdrive => Printed.parse_eq hp hdrive hending
  · rintro ⟨-, letter, halpha, hletter⟩ column hcolumn
    have hshifted := Printed.parse_eq (Printed.isPlain_shifted column hp halpha hletter)
      (fun h => by simp [Printed.IsDriveLike, Printed.shifted] at h) hending
    rwa [Printed.text_shifted hcolumn] at hshifted

/-- A warning about a file on a drive, whose message looks like other lines. -/
def unusedMake : Printed :=
  ⟨"C:/my make[1]/a.c", 12, some 5, some "warning", "make: 3: error: 'x' unused"⟩

theorem parse_text_unusedMake :
    unusedMake.text = "C:/my make[1]/a.c:12:5: warning: make: 3: error: 'x' unused" ∧
      Line.parse (unusedMake.text ++ "\r\n") =
        .diagnostic ⟨"C:/my make[1]/a.c", 12, some 5, .warning, "make: 3: error: 'x' unused"⟩ := by
  have hplain : unusedMake.IsPlain :=
    { reference := ⟨by decide, by decide,
        .inr ⟨'C', "/my make[1]/a.c".toList, by decide, by decide, by decide, by decide⟩⟩
      keyword := by simp [unusedMake, Diagnostic.keywords]
      message_ne := by decide
      message_trim := by decide
      message_line := by decide
      message_start := by simp [unusedMake] }
  refine ⟨by decide, (parse_text unusedMake hplain "\r\n" (by simp)).1 ?_⟩
  rintro ⟨-, letter, -, hletter⟩
  have hlength : unusedMake.reference.length = 1 := by
    rw [hletter, String.length_ofList]
    rfl
  exact absurd hlength (by decide)

end BuildMarkers
