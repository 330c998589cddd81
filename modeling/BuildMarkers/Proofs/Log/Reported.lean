import BuildMarkers.Proofs.Log.Announced
import BuildMarkers.Proofs.Text.Digits
import Mathlib.Data.Option.Basic
/-!
# Reported diagnostics

A diagnostic is never made up: the line from which it is read is put together of
the parts that it reports, of blanks, colons and line ends, and of nothing else
(`Line.of_parse_eq_diagnostic`). The file and the message are those parts without
the white space around them, and not blank; a number that is reported is the value
of its digits, so none is cut to 32 bits. What a reader leaves behind it is stated for
one part after the other, and the parts add up to the line.
-/

namespace BuildMarkers

/-- What stands behind the file in a diagnostic line. -/
structure Remark where
  /-- The digits of the line number. -/
  line : List Char
  /-- The digits of the column. -/
  column : Option (List Char)
  /-- The blanks behind the numbers. -/
  blanks : List Char
  /-- The keyword with the blanks before and behind its colon. -/
  keyword : Option (String × List Char × List Char)
  message : List Char

namespace Remark

/-- The keyword, its colon and the blanks around it. -/
def lead : Option (String × List Char × List Char) → List Char
  | none => []
  | some (keyword, before, behind) => keyword.toList ++ before ++ ':' :: behind

/-- The keyword is one of those that are known, and blanks are around its colon. -/
def IsLead : Option (String × List Char × List Char) → Prop
  | none => True
  | some (keyword, before, behind) => keyword ∈ Diagnostic.keywords ∧
    (∀ c ∈ before, Text.isAsciiBlank c = true) ∧ ∀ c ∈ behind, Text.isAsciiBlank c = true

/-- The part of the line. -/
def chars (m : Remark) : List Char :=
  ':' :: (m.line ++ ((m.column.elim [] fun digits => ':' :: digits) ++
    ':' :: (m.blanks ++ (lead m.keyword ++ m.message))))

/-- The numbers are digits, and the message is on the line. -/
structure IsPlain (m : Remark) : Prop where
  line : m.line ≠ [] ∧ ∀ c ∈ m.line, c.isDigit = true
  column : ∀ digits ∈ m.column, digits ≠ [] ∧ ∀ c ∈ digits, c.isDigit = true
  blanks : ∀ c ∈ m.blanks, Text.isAsciiBlank c = true
  lead : IsLead m.keyword
  message : '\n' ∉ m.message

/-- What the keyword says, an error where there is none. -/
def severityOf : Option String → Severity
  | some "warning" => .warning
  | some "note" => .info
  | some "info" => .info
  | _ => .error

/-- The parts that are read, where the file is read in front of them. -/
def reading (m : Remark) (file : List Char) : Diagnostic.Reading :=
  ⟨file, m.line, m.column, m.keyword.map Prod.fst, m.message⟩

end Remark

/-- The parts of a diagnostic line. -/
structure Layout where
  /-- The letter of the drive in front of the file. -/
  drive : Option Char
  /-- The file behind the drive. -/
  name : List Char
  remark : Remark

namespace Layout

/-- The file with its drive. -/
def file (p : Layout) : List Char := (p.drive.elim [] fun letter => [letter, ':']) ++ p.name

/-- The line. -/
def chars (p : Layout) : List Char := p.file ++ p.remark.chars

/-- The drive is a letter, and the file behind it is not empty and has no colon. -/
structure IsPlain (p : Layout) : Prop where
  drive : ∀ letter ∈ p.drive, letter.isAlpha = true
  name_ne : p.name ≠ []
  colon : ':' ∉ p.name
  remark : p.remark.IsPlain

/-- The diagnostic reports what the line says. -/
structure Says (p : Layout) (d : Diagnostic) : Prop where
  reference : d.reference = Text.trim (String.ofList p.file)
  reference_ne : d.reference ≠ ""
  description : d.description = Text.trim (String.ofList p.remark.message)
  description_ne : d.description ≠ ""
  line : Nat.ofDigitChars 10 p.remark.line 0 = d.line.toNat
  /-- A column is reported if there is one that 32 bits hold. -/
  column : ∀ n : UInt32, d.column = some n ↔
    ∃ digits ∈ p.remark.column, Nat.ofDigitChars 10 digits 0 = n.toNat
  severity : d.severity = Remark.severityOf (p.remark.keyword.map Prod.fst)

end Layout

/-! ## The parts one by one -/

namespace Diagnostic

variable {s rest digits file message : List Char} {keyword : Option String}
  {k : String} {r : Reading}

/-- A number is a colon and digits, up to the next colon. -/
theorem of_number? (h : number? s = some (digits, rest)) :
    (digits ≠ [] ∧ ∀ c ∈ digits, c.isDigit = true) ∧ s = ':' :: (digits ++ rest) ∧
      ∃ more, rest = ':' :: more := by
  unfold number? at h
  split at h
  · next after =>
    dsimp only at h
    split at h
    · cases h
    · next more hmore hne =>
      obtain ⟨rfl, rfl⟩ := Prod.mk.inj (Option.some.inj h)
      refine ⟨⟨hne, fun c hc => List.mem_takeWhile_imp hc⟩, ?_, more, rfl⟩
      rw [← hmore, List.takeWhile_append_dropWhile]
    · cases h
  · cases h

/-- A keyword is followed by a colon, with blanks on both sides. -/
theorem of_afterKeyword? (h : afterKeyword? k s = some rest) : ∃ before behind,
    (∀ c ∈ before, Text.isAsciiBlank c = true) ∧ (∀ c ∈ behind, Text.isAsciiBlank c = true) ∧
      s = k.toList ++ before ++ ':' :: (behind ++ rest) := by
  simp only [afterKeyword?, Option.bind_eq_bind, Option.bind_eq_some_iff,
    stripStart?_eq_some_iff] at h
  obtain ⟨after, rfl, hcolon⟩ := h
  split at hcolon
  · next more hmore =>
    obtain rfl := Option.some.inj hcolon
    refine ⟨after.takeWhile Text.isAsciiBlank, more.takeWhile Text.isAsciiBlank,
      fun c hc => List.mem_takeWhile_imp hc, fun c hc => List.mem_takeWhile_imp hc, ?_⟩
    rw [List.takeWhile_append_dropWhile, ← hmore, List.append_assoc,
      List.takeWhile_append_dropWhile]
  · cases hcolon

/-- Behind the last colon of the numbers stand blanks, maybe a keyword, and the
message. -/
theorem of_message? (h : message? s = some (keyword, message)) :
    ∃ blanks lead, (∀ c ∈ blanks, Text.isAsciiBlank c = true) ∧ Remark.IsLead lead ∧
      '\n' ∉ message ∧
      keyword = lead.map Prod.fst ∧ s = blanks ++ (Remark.lead lead ++ message) := by
  have hsplit := List.takeWhile_append_dropWhile (p := Text.isAsciiBlank) (l := s)
  have hblanks : ∀ c ∈ s.takeWhile Text.isAsciiBlank, Text.isAsciiBlank c = true :=
    fun c hc => List.mem_takeWhile_imp hc
  unfold message? at h
  extract_lets body at h
  cases hkeyword : keyword? body with
  | none =>
    simp only [hkeyword] at h
    split_ifs at h with hline
    obtain ⟨rfl, rfl⟩ := Prod.mk.inj (Option.some.inj h)
    exact ⟨_, none, hblanks, trivial, by simpa using hline, rfl, hsplit.symm⟩
  | some found =>
    obtain ⟨k, rest⟩ := found
    simp only [hkeyword] at h
    split_ifs at h with hline
    obtain ⟨rfl, rfl⟩ := Prod.mk.inj (Option.some.inj h)
    obtain ⟨k', hk', hfound⟩ := List.exists_of_findSome?_eq_some hkeyword
    obtain ⟨after, hafter, heq⟩ := Option.map_eq_some_iff.1 hfound
    obtain ⟨rfl, rfl⟩ := Prod.mk.inj heq
    obtain ⟨before, behind, hbefore, hbehind, hbody⟩ := of_afterKeyword? hafter
    refine ⟨_, some (k', before, behind), hblanks, ⟨hk', hbefore, hbehind⟩,
      by simpa using hline, rfl, ?_⟩
    rw [Remark.lead, List.append_assoc, List.cons_append, ← hbody]
    exact hsplit.symm

/-- The keyword and the message complete the numbers to a remark. -/
theorem of_finish? {line : List Char} {column : Option (List Char)}
    (h : finish? file line column (':' :: s) = some r)
    (hline : line ≠ [] ∧ ∀ c ∈ line, c.isDigit = true)
    (hcolumn : ∀ digits ∈ column, digits ≠ [] ∧ ∀ c ∈ digits, c.isDigit = true) :
    ∃ m : Remark, m.IsPlain ∧ m.reading file = r ∧
      m.chars = ':' :: (line ++ ((column.elim [] fun digits => ':' :: digits) ++ ':' :: s)) := by
  simp only [finish?, Option.bind_eq_bind, Option.bind_eq_some_iff, List.drop_one, List.tail_cons,
    Option.pure_def, Option.some.injEq] at h
  obtain ⟨⟨keyword, message⟩, hmessage, rfl⟩ := h
  obtain ⟨blanks, lead, hblanks, hlead, hon, rfl, rfl⟩ := of_message? hmessage
  exact ⟨⟨line, column, blanks, lead, message⟩, ⟨hline, hcolumn, hblanks, hlead, hon⟩, rfl, rfl⟩

/-- **Behind the file stands a remark.** -/
theorem of_afterFile? (h : afterFile? file s = some r) :
    ∃ m : Remark, m.IsPlain ∧ m.reading file = r ∧ m.chars = s := by
  simp only [afterFile?, Option.bind_eq_bind, Option.bind_eq_some_iff] at h
  obtain ⟨⟨line, rest⟩, hline, hrest⟩ := h
  obtain ⟨hdigits, rfl, more, rfl⟩ := of_number? hline
  rcases (Option.orElse_eq_some _ _ _).1 hrest with hcolumn | ⟨-, hnone⟩
  · obtain ⟨⟨column, rest⟩, hcolumn, hfinish⟩ := Option.bind_eq_some_iff.1 hcolumn
    obtain ⟨hcolumnDigits, hmore, more', rfl⟩ := of_number? hcolumn
    obtain ⟨m, hm, hreading, hchars⟩ := of_finish? hfinish hdigits (by simpa using hcolumnDigits)
    exact ⟨m, hm, hreading, hchars.trans (congrArg (fun rest => ':' :: (line ++ rest)) hmore.symm)⟩
  · obtain ⟨m, hm, hreading, hchars⟩ := of_finish? hnone hdigits (by simp)
    exact ⟨m, hm, hreading, hchars⟩

/-- In front of it stands a file without a colon, or with that of a drive. -/
theorem of_afterDrive? {drive : List Char} (h : afterDrive? drive s = some r) :
    ∃ (name : List Char) (m : Remark), name ≠ [] ∧ ':' ∉ name ∧ m.IsPlain ∧
      m.reading (drive ++ name) = r ∧ s = name ++ m.chars := by
  unfold afterDrive? at h
  extract_lets name at h
  split_ifs at h with hempty
  obtain ⟨m, hm, hreading, hchars⟩ := of_afterFile? h
  refine ⟨name, m, by simpa using hempty, fun hmem => ?_, hm, hreading, ?_⟩
  · simpa using List.mem_takeWhile_imp hmem
  · rw [hchars, List.takeWhile_append_dropWhile]

/-- **A reading has the parts of the line**, which add up to it. -/
theorem of_reading? (h : reading? s = some r) :
    ∃ p : Layout, p.IsPlain ∧ p.remark.reading p.file = r ∧ p.chars = s := by
  rcases (Option.orElse_eq_some _ _ _).1 h with hdrive | ⟨-, hplain⟩
  · unfold withDrive? at hdrive
    split at hdrive
    · next letter rest =>
      split_ifs at hdrive with halpha
      obtain ⟨name, m, hne, hcolon, hm, hreading, rfl⟩ := of_afterDrive? hdrive
      exact ⟨⟨some letter, name, m⟩, ⟨by simpa using halpha, hne, hcolon, hm⟩, hreading, rfl⟩
    · cases hdrive
  · obtain ⟨name, m, hne, hcolon, hm, hreading, rfl⟩ := of_afterDrive? hplain
    exact ⟨⟨none, name, m⟩, ⟨by simp, hne, hcolon, hm⟩, hreading, rfl⟩

/-! ## What is reported of them -/

/-- The known keywords are read as what they say. -/
theorem ofKeyword_eq_severityOf :
    ∀ word ∈ keywords, Severity.ofKeyword word = Remark.severityOf (some word) := by
  decide

theorem severity_of_isLead {lead : Option (String × List Char × List Char)}
    (h : Remark.IsLead lead) :
    ((lead.map Prod.fst).map Severity.ofKeyword).getD .error =
      Remark.severityOf (lead.map Prod.fst) := by
  cases lead with
  | none => rfl
  | some lead =>
    obtain ⟨word, before, behind⟩ := lead
    simp only [Option.map_some, Option.getD_some]
    exact ofKeyword_eq_severityOf word h.1

/-- A diagnostic says what the parts of the line say. -/
theorem says_of_ofReading? {p : Layout} {d : Diagnostic} (hp : p.IsPlain)
    (h : ofReading? (p.remark.reading p.file) = some d) : p.Says d := by
  unfold ofReading? at h
  extract_lets reference description at h
  split_ifs at h with hempty
  simp only [Bool.or_eq_true, List.isEmpty_iff, not_or] at hempty
  simp only [Option.bind_eq_bind, Option.bind_eq_some_iff, Option.pure_def, Option.some.injEq] at h
  obtain ⟨line, hline, rfl⟩ := h
  constructor
  · simp [Text.trim, reference, Remark.reading]
  · simpa using hempty.1
  · simp [Text.trim, description, Remark.reading]
  · simpa using hempty.2
  · exact number32?_eq_some_iff.1 hline
  · intro n
    simp only [Option.bind_eq_some_iff, number32?_eq_some_iff]
    rfl
  · exact severity_of_isLead hp.remark.lead

end Diagnostic

/-- The line ends are no part of what is read. -/
theorem Line.ofLine?_of_parse {s : String} {d : Diagnostic} (h : parse s = .diagnostic d) :
    DirectoryChange.ofLine? (Text.dropTrailing isLineEnd s.toList) = none ∧
      Diagnostic.ofLine? (Text.dropTrailing isLineEnd s.toList) = some d := by
  simp only [parse, ofChars] at h
  cases hchange : DirectoryChange.ofLine? (Text.dropTrailing isLineEnd s.toList) with
  | some change => simp [hchange] at h
  | none =>
    cases hline : Diagnostic.ofLine? (Text.dropTrailing isLineEnd s.toList) with
    | none => simp [hchange, hline] at h
    | some other => simpa [hchange, hline] using h

/-- **A diagnostic that is reported is a reading of its line**: without the line ends at its
end, the line consists of the file, the numbers, the keyword and the message that the
diagnostic tells of, each of its form, and is no announcement of a directory. -/
theorem Line.of_parse_eq_diagnostic {s : String} {d : Diagnostic} (h : parse s = .diagnostic d) :
    (∃ (p : Layout) (ending : List Char), p.IsPlain ∧ p.Says d ∧ s.toList = p.chars ++ ending ∧
      (∀ c ∈ ending, c = '\r' ∨ c = '\n') ∧ ∀ c ∈ p.chars.getLast?, c ≠ '\r' ∧ c ≠ '\n') ∧
    ¬ ∃ p : Announced, p.IsPlain ∧ p.text = s := by
  obtain ⟨hchange, hline⟩ := ofLine?_of_parse h
  obtain ⟨ending, hsplit, hending⟩ := Text.exists_eq_dropTrailing_append isLineEnd s.toList
  have hlast := Text.getLast?_dropTrailing isLineEnd s.toList
  constructor
  · obtain ⟨r, hreading, hr⟩ := Option.bind_eq_some_iff.1 hline
    obtain ⟨p, hp, rfl, hchars⟩ := Diagnostic.of_reading? hreading
    refine ⟨p, ending, hp, Diagnostic.says_of_ofReading? hp hr, hchars ▸ hsplit, fun c hc => ?_,
      fun c hc => ?_⟩
    · simpa [isLineEnd] using hending c hc
    · simpa [isLineEnd] using hlast c (hchars ▸ hc)
  · rintro ⟨p, hp, htext⟩
    have hread := Announced.exists_text_eq_iff.1 ⟨p, hp, rfl, htext⟩
    rw [hchange] at hread
    cases hread

/-- A note on a drive, with a column that no 32 bits hold. -/
def noteLine : String := "C:\\a.c:007:99999999999: note : see \t\r\n"

/-- It is reported without the column, and its parts are there. -/
theorem Line.of_parse_eq_diagnostic_note :
    parse noteLine = .diagnostic ⟨"C:\\a.c", 7, none, .info, "see"⟩ ∧
      (∃ (p : Layout) (ending : List Char), p.IsPlain ∧ p.Says ⟨"C:\\a.c", 7, none, .info, "see"⟩ ∧
        noteLine.toList = p.chars ++ ending) ∧
      ¬ ∃ p : Announced, p.IsPlain ∧ p.text = noteLine := by
  have h : parse noteLine = .diagnostic ⟨"C:\\a.c", 7, none, .info, "see"⟩ := by decide
  obtain ⟨⟨p, ending, hp, hsays, hchars, -⟩, hannounced⟩ := of_parse_eq_diagnostic h
  exact ⟨h, ⟨p, ending, hp, hsays, hchars⟩, hannounced⟩

end BuildMarkers
