import BuildMarkers.Log.BuildLog
import BuildMarkers.Proofs.Text.Runs
import Mathlib.Data.String.Basic
/-!
# Announced directory changes

A make announces where it works as in `make[1]: Entering directory 'lib'`. The
program is cut from its end, where the depth and `.exe` can be told from what is
in front of them, and the directory is what stands between the first quote and
the quote that nothing but blanks follow. So a line is read as a directory
change exactly if it is the announcement of one, and the directory that is read
is the one that was announced, quotes and blanks in it included
(`Line.parse_eq_directory_iff`).
-/

namespace BuildMarkers

/-- A make program as it is printed. -/
structure MakeProgram where
  /-- What stands in front of the name, as a path does. -/
  front : List Char
  name : String
  /-- The name is followed by `.exe`. -/
  exe : Bool
  /-- The digits in brackets. -/
  depth : Option (List Char)

namespace MakeProgram

/-- The word that the program is. -/
def chars (p : MakeProgram) : List Char :=
  p.front ++ p.name.toList ++ (if p.exe then ".exe".toList else []) ++
    p.depth.elim [] fun digits => '[' :: (digits ++ [']'])

/-- The program is a make, with nothing in front or what ends as a path or with a
hyphen. -/
structure IsPlain (p : MakeProgram) : Prop where
  front_blank : ∀ c ∈ p.front, Text.isAsciiBlank c = false
  front_last : ∀ c ∈ p.front.getLast?, c = '/' ∨ c = '\\' ∨ c = '-'
  name : p.name = "make" ∨ p.name = "gmake" ∨ p.name = "mmake"
  depth : ∀ digits ∈ p.depth, digits ≠ [] ∧ ∀ c ∈ digits, c.isDigit = true

/-- No blank is in the word that a program is. -/
theorem IsPlain.isAsciiBlank_eq_false {p : MakeProgram} (hp : p.IsPlain) :
    ∀ c ∈ p.chars, Text.isAsciiBlank c = false := by
  have hname : ∀ c ∈ p.name.toList, Text.isAsciiBlank c = false := by
    rcases hp.name with h | h | h <;> simp [h, Text.isAsciiBlank]
  have hexe : ∀ c ∈ (if p.exe then ".exe".toList else []), Text.isAsciiBlank c = false := by
    cases p.exe <;> simp [Text.isAsciiBlank]
  have hdepth : ∀ c ∈ p.depth.elim [] fun digits =>
      '[' :: (digits ++ [']']), Text.isAsciiBlank c = false := by
    intro c hc
    cases hdigits : p.depth with
    | none => simp [hdigits] at hc
    | some digits =>
      rw [hdigits, Option.elim_some, List.mem_cons, List.mem_append, List.mem_singleton] at hc
      rcases hc with rfl | hc | rfl
      · rfl
      · have hdigit := (hp.depth digits hdigits).2 c hc
        exact Text.isAsciiBlank_eq_false
          (Text.isBlank_of_isAlphanum (by simp [Char.isAlphanum, hdigit]))
      · rfl
  intro c hc
  simp only [chars, List.mem_append] at hc
  rcases hc with ((hc | hc) | hc) | hc
  · exact hp.front_blank c hc
  · exact hname c hc
  · exact hexe c hc
  · exact hdepth c hc

end MakeProgram

namespace DirectoryChange

/-- The directory that is entered or left. -/
def directory : DirectoryChange → String
  | .enter directory => directory
  | .leave directory => directory

/-- The words in front of the directory. -/
def phrase : DirectoryChange → List Char
  | .enter _ => " Entering directory ".toList
  | .leave _ => " Leaving directory ".toList

end DirectoryChange

/-- What a make prints of a directory change. -/
structure Announced where
  program : MakeProgram
  change : DirectoryChange
  /-- The quote in front of the directory. -/
  opening : Char
  /-- The quote behind the directory. -/
  closing : Char
  /-- What follows the closing quote. -/
  blanks : List Char

namespace Announced

/-- The directory in its quotes. -/
def quoted (p : Announced) : List Char := p.opening :: (p.change.directory.toList ++ [p.closing])

/-- The line up to the closing quote. -/
def core (p : Announced) : List Char := p.program.chars ++ ':' :: (p.change.phrase ++ p.quoted)

/-- The line. -/
def text (p : Announced) : String := String.ofList (p.core ++ p.blanks)

/-- The program is a make, and the directory stands between quotes on the line, which
nothing but blanks follow. -/
structure IsPlain (p : Announced) : Prop where
  program : p.program.IsPlain
  opening : p.opening = '\x60' ∨ p.opening = '\x27' ∨ p.opening = '"'
  closing : p.closing = '\x27' ∨ p.closing = '"'
  line : '\n' ∉ p.change.directory.toList
  blanks : ∀ c ∈ p.blanks, Text.isAsciiBlank c = true

end Announced

/-! ## Prefixes and suffixes -/

namespace Diagnostic

variable {start s rest : List Char}

theorem stripStart?_eq_some_iff : stripStart? start s = some rest ↔ s = start ++ rest := by
  rw [stripStart?]
  constructor
  · intro h
    split_ifs at h with hprefix
    obtain ⟨t, rfl⟩ := List.isPrefixOf_iff_prefix.1 hprefix
    rw [← Option.some.inj h, List.drop_left]
  · rintro rfl
    rw [if_pos (List.isPrefixOf_iff_prefix.2 (List.prefix_append _ _)), List.drop_left]

end Diagnostic

namespace DirectoryChange

open Diagnostic

variable {ending s front program digits : List Char} {change : DirectoryChange} {directory : String}

theorem stripEnd?_eq_some_iff : stripEnd? ending s = some front ↔ s = front ++ ending := by
  simp only [stripEnd?, Option.map_eq_some_iff, stripStart?_eq_some_iff]
  constructor
  · rintro ⟨rest, hrest, rfl⟩
    rw [← List.reverse_reverse s, hrest, List.reverse_append, List.reverse_reverse]
  · rintro rfl
    exact ⟨front.reverse, List.reverse_append, List.reverse_reverse front⟩

/-! ## The program -/

theorem isFront_iff :
    isFront front = true ↔ ∀ c ∈ front.getLast?, c = '/' ∨ c = '\\' ∨ c = '-' := by
  rw [isFront]
  cases front.getLast? with
  | none => simp
  | some c => simp [endsFront, or_assoc]

/-- The depth is taken off. -/
theorem dropDepth_bracket (hne : digits ≠ []) (hdigits : ∀ c ∈ digits, c.isDigit = true) :
    dropDepth (program ++ '[' :: (digits ++ [']'])) = program := by
  have hinner : stripEnd? [']'] (program ++ '[' :: (digits ++ [']'])) =
      some (program ++ '[' :: digits) :=
    stripEnd?_eq_some_iff.2 (by simp)
  have hreverse : (program ++ '[' :: digits).reverse =
      digits.reverse ++ '[' :: program.reverse := by simp
  have hrun : ∀ c ∈ digits.reverse, c.isDigit = true :=
    fun c hc => hdigits c (List.mem_reverse.1 hc)
  have hstop : ∀ c ∈ ('[' :: program.reverse).head?, c.isDigit = false := by simp
  rw [dropDepth, hinner]
  dsimp only
  rw [hreverse, Text.takeWhile_run hrun hstop, Text.dropWhile_run hrun hstop]
  cases hcases : digits.reverse with
  | nil => exact absurd (List.reverse_eq_nil_iff.1 hcases) hne
  | cons c rest => exact List.reverse_reverse program

/-- **A program is left as it is, or has a depth** that is taken off. -/
theorem dropDepth_cases (program : List Char) : dropDepth program = program ∨
    ∃ digits, digits ≠ [] ∧ (∀ c ∈ digits, c.isDigit = true) ∧
      program = dropDepth program ++ '[' :: (digits ++ [']']) := by
  unfold dropDepth
  cases hinner : stripEnd? [']'] program with
  | none => exact .inl rfl
  | some inner =>
    obtain rfl := stripEnd?_eq_some_iff.1 hinner
    dsimp only
    split
    · exact .inl rfl
    · next before hbefore hne =>
      refine .inr ⟨(inner.reverse.takeWhile Char.isDigit).reverse, ?_, fun c hc => ?_, ?_⟩
      · exact fun hnil => hne (List.reverse_eq_nil_iff.1 hnil)
      · exact List.mem_takeWhile_imp (List.mem_reverse.1 hc)
      · have hsplit := List.takeWhile_append_dropWhile (p := Char.isDigit) (l := inner.reverse)
        rw [hbefore] at hsplit
        have hinner := congrArg List.reverse hsplit
        simp only [List.reverse_append, List.reverse_cons, List.reverse_reverse, List.append_assoc,
          List.singleton_append] at hinner
        conv_lhs => rw [← hinner]
        simp
    · exact .inl rfl

/-- What does not end with a bracket has no depth. -/
theorem dropDepth_eq_self (h : program.getLast? ≠ some ']') : dropDepth program = program := by
  refine (dropDepth_cases program).resolve_right ?_
  rintro ⟨digits, -, -, heq⟩
  refine h ?_
  rw [heq, ← List.cons_append, ← List.append_assoc, List.getLast?_concat]

theorem dropExe_exe (program : List Char) : dropExe (program ++ ".exe".toList) = program := by
  have hstrip : stripEnd? ".exe".toList (program ++ ".exe".toList) = some program :=
    stripEnd?_eq_some_iff.2 rfl
  rw [dropExe, hstrip, Option.getD_some]

theorem dropExe_make (front : List Char) :
    dropExe (front ++ "make".toList) = front ++ "make".toList := by
  have hstrip : stripEnd? ".exe".toList (front ++ "make".toList) = none := by
    simp [stripEnd?, stripStart?]
  rw [dropExe, hstrip, Option.getD_none]

theorem dropExe_cases (program : List Char) :
    dropExe program = program ∨ program = dropExe program ++ ".exe".toList := by
  rw [dropExe]
  cases hfront : stripEnd? ".exe".toList program with
  | none => exact .inl rfl
  | some front => exact .inr (stripEnd?_eq_some_iff.1 hfront)

/-- What may stand between the front and the word with which every name ends. -/
def IsLetter (letter : List Char) : Prop := letter = [] ∨ letter = ['g'] ∨ letter = ['m']

/-- Without its endings a program is a front, a letter and that word. -/
theorem isMake_eq_true_iff : isMake program = true ↔ ∃ front letter, isFront front = true ∧
    IsLetter letter ∧ dropExe (dropDepth program) = front ++ letter ++ "make".toList := by
  rw [isMake]
  constructor
  · intro h
    cases hword : stripEnd? "make".toList (dropExe (dropDepth program)) with
    | none =>
      rw [hword] at h
      exact absurd h Bool.false_ne_true
    | some word =>
      rw [hword] at h
      have hsplit := stripEnd?_eq_some_iff.1 hword
      rcases Bool.or_eq_true_iff.1 h with hfront | hletter
      · exact ⟨word, [], hfront, .inl rfl, by simpa using hsplit⟩
      · rcases List.eq_nil_or_concat' word with rfl | ⟨front, c, rfl⟩
        · exact absurd hletter Bool.false_ne_true
        · rw [List.getLast?_concat, List.dropLast_concat] at hletter
          obtain ⟨hc, hfront⟩ : (c = 'g' ∨ c = 'm') ∧ isFront front = true := by simpa using hletter
          refine ⟨front, [c], hfront, .inr ?_, hsplit⟩
          exact hc.imp (congrArg fun c => [c]) (congrArg fun c => [c])
  · rintro ⟨front, letter, hfront, hletter, hsplit⟩
    have hword : stripEnd? "make".toList (dropExe (dropDepth program)) = some (front ++ letter) :=
      stripEnd?_eq_some_iff.2 hsplit
    rw [hword]
    rcases hletter with rfl | rfl | rfl <;> simp [hfront]

/-- The endings are those with which the program is printed. -/
theorem dropExe_dropDepth_iff {word : List Char} (hword : word.getLast? = some 'e')
    (hexe : dropExe word = word) : dropExe (dropDepth program) = word ↔
      ∃ (exe : Bool) (depth : Option (List Char)),
        (∀ digits ∈ depth, digits ≠ [] ∧ ∀ c ∈ digits, c.isDigit = true) ∧
        program = word ++ (if exe then ".exe".toList else []) ++
          depth.elim [] fun digits => '[' :: (digits ++ [']']) := by
  constructor
  · rintro rfl
    have hendings : ∃ exe : Bool, dropDepth program =
        dropExe (dropDepth program) ++ if exe then ".exe".toList else [] := by
      rcases dropExe_cases (dropDepth program) with h | h
      · exact ⟨false, by rw [h]; simp⟩
      · exact ⟨true, h⟩
    obtain ⟨exe, hendings⟩ := hendings
    rcases dropDepth_cases program with h | ⟨digits, hne, hdigits, h⟩
    · refine ⟨exe, none, by simp, ?_⟩
      rw [← hendings, h, Option.elim_none, List.append_nil]
    · refine ⟨exe, some digits, by simpa using ⟨hne, hdigits⟩, ?_⟩
      rw [← hendings, Option.elim_some]
      exact h
  · rintro ⟨exe, depth, hdepth, rfl⟩
    -- what is left without a depth ends with a letter, so no further depth is taken off
    have hletter : dropDepth (word ++ if exe then ".exe".toList else []) =
        word ++ if exe then ".exe".toList else [] := by
      refine dropDepth_eq_self ?_
      cases exe <;> simp [hword]
    have hdrop : dropDepth (word ++ (if exe then ".exe".toList else []) ++
        depth.elim [] fun digits => '[' :: (digits ++ [']'])) =
          word ++ if exe then ".exe".toList else [] := by
      cases depth with
      | none => simpa using hletter
      | some digits =>
        obtain ⟨hne, hdigits⟩ := hdepth digits rfl
        exact dropDepth_bracket hne hdigits
    rw [hdrop]
    cases exe with
    | false => simpa using hexe
    | true => exact dropExe_exe word

theorem letter_of_name {name : String} (h : name = "make" ∨ name = "gmake" ∨ name = "mmake") :
    ∃ letter, IsLetter letter ∧ name.toList = letter ++ "make".toList := by
  rcases h with rfl | rfl | rfl
  · exact ⟨[], .inl rfl, rfl⟩
  · exact ⟨['g'], .inr (.inl rfl), rfl⟩
  · exact ⟨['m'], .inr (.inr rfl), rfl⟩

theorem name_of_letter {letter : List Char} (h : IsLetter letter) : ∃ name : String,
    (name = "make" ∨ name = "gmake" ∨ name = "mmake") ∧ name.toList = letter ++ "make".toList := by
  rcases h with rfl | rfl | rfl
  · exact ⟨"make", by simp, rfl⟩
  · exact ⟨"gmake", by simp, rfl⟩
  · exact ⟨"mmake", by simp, rfl⟩

/-- **The words that are the name of a make program** are those that one is printed
as. -/
theorem isMake_iff (hblank : ∀ c ∈ program, Text.isAsciiBlank c = false) :
    isMake program = true ↔ ∃ p : MakeProgram, p.IsPlain ∧ p.chars = program := by
  have hword (word : List Char) : (word ++ "make".toList).getLast? = some 'e' := by simp
  rw [isMake_eq_true_iff]
  constructor
  · rintro ⟨front, letter, hfront, hletter, hdrop⟩
    obtain ⟨exe, depth, hdepth, hprogram⟩ :=
      (dropExe_dropDepth_iff (hword _) (dropExe_make _)).1 hdrop
    obtain ⟨name, hname, hchars⟩ := name_of_letter hletter
    refine ⟨⟨front, name, exe, depth⟩,
      ⟨fun c hc => hblank c ?_, isFront_iff.1 hfront, hname, hdepth⟩, ?_⟩
    · rw [hprogram]
      simp [hc]
    · rw [MakeProgram.chars, hchars, ← List.append_assoc, hprogram]
  · rintro ⟨p, hp, rfl⟩
    obtain ⟨letter, hletter, hchars⟩ := letter_of_name hp.name
    refine ⟨p.front, letter, isFront_iff.2 hp.front_last, hletter, ?_⟩
    refine (dropExe_dropDepth_iff (hword _) (dropExe_make _)).2 ⟨p.exe, p.depth, hp.depth, ?_⟩
    rw [MakeProgram.chars, hchars, ← List.append_assoc]

/-! ## The directory -/

/-- **The directory is what stands between** the first quote and the one that nothing
but blanks follow. -/
theorem quotedDirectory?_eq_some_iff : quotedDirectory? s = some directory ↔
    ∃ opening closing blanks, isOpeningQuote opening = true ∧ isClosingQuote closing = true ∧
      (∀ c ∈ blanks, Text.isAsciiBlank c = true) ∧ '\n' ∉ directory.toList ∧
      s = opening :: (directory.toList ++ [closing]) ++ blanks := by
  constructor
  · intro h
    cases s with
    | nil => cases h
    | cons opening rest =>
      obtain ⟨blanks, hrest, hblanks⟩ := Text.exists_eq_dropTrailing_append Text.isAsciiBlank rest
      simp only [quotedDirectory?, Option.ite_none_right_eq_some] at h
      generalize Text.dropTrailing Text.isAsciiBlank rest = body at h hrest
      obtain ⟨hquotes, hdirectory⟩ := h
      obtain rfl := Option.some.inj hdirectory
      rcases List.eq_nil_or_concat' body with rfl | ⟨directory, closing, rfl⟩
      · simp at hquotes
      · simp only [List.getLast?_concat, List.dropLast_concat, Option.any_some,
          Bool.and_eq_true] at hquotes
        obtain ⟨⟨hopening, hclosing⟩, hline⟩ := hquotes
        refine ⟨opening, closing, blanks, hopening, hclosing, hblanks, ?_, ?_⟩
        · simpa using hline
        · simp [hrest]
  · rintro ⟨opening, closing, blanks, hopening, hclosing, hblanks, hline, rfl⟩
    have hlast : ∀ c ∈ (directory.toList ++ [closing]).getLast?, Text.isAsciiBlank c = false := by
      intro c hc
      rw [List.getLast?_concat, Option.mem_some_iff] at hc
      subst hc
      simp only [isClosingQuote, Bool.or_eq_true, decide_eq_true_eq] at hclosing
      rcases hclosing with rfl | rfl <;> rfl
    have hbody := Text.dropTrailing_append hblanks hlast
    rw [List.cons_append]
    simp only [quotedDirectory?, hbody]
    simp [hopening, hclosing, hline]

/-! ## The line -/

theorem head?_phrase (change : DirectoryChange) : change.phrase.head? = some ' ' := by
  cases change <;> rfl

/-- The first word of a line is the program with its colon, and the phrase follows. -/
theorem cut_firstWord (hblank : ∀ c ∈ program, Text.isAsciiBlank c = false)
    (change : DirectoryChange) (quoted : List Char)
    (hs : s = program ++ ':' :: (change.phrase ++ quoted)) :
    s.takeWhile (fun c => !Text.isAsciiBlank c) = program ++ [':'] ∧
      s.dropWhile (fun c => !Text.isAsciiBlank c) = change.phrase ++ quoted := by
  have hrun : ∀ c ∈ program ++ [':'], (!Text.isAsciiBlank c) = true := by
    intro c hc
    rcases List.mem_append.1 hc with hc | hc
    · simp [hblank c hc]
    · rw [List.mem_singleton.1 hc]
      rfl
  have hstop : ∀ c ∈ (change.phrase ++ quoted).head?, (!Text.isAsciiBlank c) = false := by
    intro c hc
    rw [List.head?_append, head?_phrase, Option.some_or] at hc
    rw [← Option.some.inj hc]
    rfl
  have hline : s = (program ++ [':']) ++ (change.phrase ++ quoted) := by
    rw [hs, List.append_assoc, List.singleton_append]
  rw [hline]
  exact ⟨Text.takeWhile_run hrun hstop, Text.dropWhile_run hrun hstop⟩

/-- What is read as a directory change is a program, a phrase and a directory in
quotes. -/
theorem exists_of_ofLine? (h : ofLine? s = some change) : ∃ program quoted,
    (∀ c ∈ program, Text.isAsciiBlank c = false) ∧ isMake program = true ∧
      quotedDirectory? quoted = some change.directory ∧
        s = program ++ ':' :: (change.phrase ++ quoted) := by
  have hsplit := List.takeWhile_append_dropWhile (p := fun c => !Text.isAsciiBlank c) (l := s)
  have hword : ∀ c ∈ s.takeWhile fun c => !Text.isAsciiBlank c, Text.isAsciiBlank c = false :=
    fun c hc => by simpa using List.mem_takeWhile_imp hc
  simp only [ofLine?] at h
  generalize s.takeWhile (fun c => !Text.isAsciiBlank c) = word at h hsplit hword
  generalize s.dropWhile (fun c => !Text.isAsciiBlank c) = rest at h hsplit
  cases hprogram : stripEnd? [':'] word with
  | none => simp [hprogram] at h
  | some program =>
    simp only [hprogram, Option.ite_none_right_eq_some] at h
    obtain ⟨hmake, h⟩ := h
    obtain rfl := stripEnd?_eq_some_iff.1 hprogram
    have hblank : ∀ c ∈ program, Text.isAsciiBlank c = false :=
      fun c hc => hword c (List.mem_append_left _ hc)
    suffices hchange : ∃ quoted, rest = change.phrase ++ quoted ∧
        quotedDirectory? quoted = some change.directory by
      obtain ⟨quoted, rfl, hquoted⟩ := hchange
      exact ⟨program, quoted, hblank, hmake, hquoted, hsplit.symm.trans (List.append_assoc ..)⟩
    split at h
    · next quoted hquoted =>
      obtain ⟨directory, hdirectory, rfl⟩ := Option.map_eq_some_iff.1 h
      exact ⟨quoted, stripStart?_eq_some_iff.1 hquoted, hdirectory⟩
    split at h
    · next quoted hquoted =>
      obtain ⟨directory, hdirectory, rfl⟩ := Option.map_eq_some_iff.1 h
      exact ⟨quoted, stripStart?_eq_some_iff.1 hquoted, hdirectory⟩
    · cases h

/-- And these are read as it. -/
theorem ofLine?_program {quoted : List Char} (hblank : ∀ c ∈ program, Text.isAsciiBlank c = false)
    (hmake : isMake program = true) (hquoted : quotedDirectory? quoted = some change.directory) :
    ofLine? (program ++ ':' :: (change.phrase ++ quoted)) = some change := by
  obtain ⟨htake, hdrop⟩ := cut_firstWord hblank change quoted rfl
  have hstrip : stripEnd? [':'] (program ++ [':']) = some program := stripEnd?_eq_some_iff.2 rfl
  simp only [ofLine?, htake, hdrop, hstrip]
  rw [if_pos hmake]
  cases change with
  | enter directory =>
    have hphrase : stripStart? " Entering directory ".toList ((enter directory).phrase ++ quoted) =
        some quoted :=
      stripStart?_eq_some_iff.2 rfl
    rw [hphrase]
    exact congrArg (Option.map enter) hquoted
  | leave directory =>
    have hother : stripStart? " Entering directory ".toList
        ((leave directory).phrase ++ quoted) = none := rfl
    have hphrase : stripStart? " Leaving directory ".toList ((leave directory).phrase ++ quoted) =
        some quoted :=
      stripStart?_eq_some_iff.2 rfl
    rw [hother, hphrase]
    exact congrArg (Option.map leave) hquoted

theorem isOpeningQuote_iff {c : Char} :
    isOpeningQuote c = true ↔ c = '\x60' ∨ c = '\x27' ∨ c = '"' := by
  simp [isOpeningQuote, or_assoc]

theorem isClosingQuote_iff {c : Char} : isClosingQuote c = true ↔ c = '\x27' ∨ c = '"' := by
  simp [isClosingQuote]

/-- **The lines that are read as directory changes** are the announcements of one. -/
theorem ofLine?_eq_some_iff : ofLine? s = some change ↔
    ∃ p : Announced, p.IsPlain ∧ p.change = change ∧ p.core ++ p.blanks = s := by
  constructor
  · intro h
    obtain ⟨word, quoted, hblank, hmake, hquoted, rfl⟩ := exists_of_ofLine? h
    obtain ⟨program, hprogram, rfl⟩ := (isMake_iff hblank).1 hmake
    obtain ⟨opening, closing, blanks, hopening, hclosing, hblanks, hline, rfl⟩ :=
      quotedDirectory?_eq_some_iff.1 hquoted
    refine ⟨⟨program, change, opening, closing, blanks⟩, ⟨hprogram, isOpeningQuote_iff.1 hopening,
      isClosingQuote_iff.1 hclosing, hline, hblanks⟩, rfl, ?_⟩
    simp only [Announced.core, Announced.quoted, List.append_assoc, List.cons_append]
  · rintro ⟨p, hp, rfl, rfl⟩
    have hblank := hp.program.isAsciiBlank_eq_false
    have hmake : isMake p.program.chars = true := (isMake_iff hblank).2 ⟨p.program, hp.program, rfl⟩
    have hquoted : quotedDirectory? (p.quoted ++ p.blanks) = some p.change.directory :=
      quotedDirectory?_eq_some_iff.2 ⟨p.opening, p.closing, p.blanks,
        isOpeningQuote_iff.2 hp.opening, isClosingQuote_iff.2 hp.closing, hp.blanks, hp.line, rfl⟩
    rw [Announced.core, List.append_assoc, List.cons_append, List.append_assoc]
    exact ofLine?_program hblank hmake hquoted

end DirectoryChange

/-! ## The line as a whole -/

namespace Announced

theorem isAsciiBlank_of_isLineEnd {c : Char} (h : Line.isLineEnd c = true) :
    Text.isAsciiBlank c = true := by
  simp only [Line.isLineEnd, Bool.or_eq_true, decide_eq_true_eq] at h
  rcases h with rfl | rfl <;> rfl

/-- The closing quote is no line end. -/
theorem IsPlain.getLast?_core {p : Announced} (hp : p.IsPlain) :
    ∀ c ∈ p.core.getLast?, Line.isLineEnd c = false := by
  intro c hc
  have hlast : p.core = p.program.chars ++ ':' ::
      (p.change.phrase ++ p.opening :: p.change.directory.toList) ++ [p.closing] := by
    simp only [core, quoted, List.append_assoc, List.cons_append]
  rw [hlast, List.getLast?_concat] at hc
  rw [← Option.some.inj hc]
  rcases hp.closing with h | h <;> rw [h] <;> rfl

/-- Line ends behind a line are blanks behind its announcement. -/
theorem exists_dropTrailing_iff {s : List Char} {change : DirectoryChange} :
    (∃ p : Announced, p.IsPlain ∧ p.change = change ∧
      p.core ++ p.blanks = Text.dropTrailing Line.isLineEnd s) ↔
      ∃ p : Announced, p.IsPlain ∧ p.change = change ∧ p.core ++ p.blanks = s := by
  constructor
  · rintro ⟨p, hp, rfl, hs⟩
    obtain ⟨run, hsplit, hrun⟩ := Text.exists_eq_dropTrailing_append Line.isLineEnd s
    refine ⟨{ p with blanks := p.blanks ++ run }, { hp with blanks := fun c hc => ?_ }, rfl, ?_⟩
    · rcases List.mem_append.1 hc with hc | hc
      · exact hp.blanks c hc
      · exact isAsciiBlank_of_isLineEnd (hrun c hc)
    · rw [hsplit, ← hs, List.append_assoc]
      rfl
  · rintro ⟨p, hp, rfl, rfl⟩
    refine ⟨{ p with blanks := Text.dropTrailing Line.isLineEnd p.blanks },
      { hp with blanks := fun c hc => hp.blanks c ?_ }, rfl, ?_⟩
    · obtain ⟨run, hsplit, -⟩ := Text.exists_eq_dropTrailing_append Line.isLineEnd p.blanks
      rw [hsplit]
      exact List.mem_append_left _ hc
    · exact (Text.dropTrailing_append_of_getLast? hp.getLast?_core _).symm

/-- The lines that announce a change, as the characters that are read of them. -/
theorem exists_text_eq_iff {s : String} {change : DirectoryChange} :
    (∃ p : Announced, p.IsPlain ∧ p.change = change ∧ p.text = s) ↔
      DirectoryChange.ofLine? (Text.dropTrailing Line.isLineEnd s.toList) = some change := by
  rw [DirectoryChange.ofLine?_eq_some_iff, exists_dropTrailing_iff]
  simp only [text, String.ofList_eq]

end Announced

/-- **A line is read as a directory change** if and only if it is the announcement of
that change: by a make program, maybe with a path in front, `.exe` and its depth behind it,
and with the directory, whatever characters it has, between the first quote and the last
one. -/
theorem Line.parse_eq_directory_iff (s : String) (change : DirectoryChange) :
    parse s = .directory change ↔ ∃ p : Announced, p.IsPlain ∧ p.change = change ∧ p.text = s := by
  rw [Announced.exists_text_eq_iff, parse, ofChars]
  cases DirectoryChange.ofLine? (Text.dropTrailing isLineEnd s.toList) with
  | some other => simp
  | none =>
    cases Diagnostic.ofLine? (Text.dropTrailing isLineEnd s.toList) <;> simp

/-- Quotes in a directory belong to it. -/
example : Line.parse "bin/mingw32-make.exe[12]: Leaving directory \x60it's \"b\" 'x' \t\r\n" =
    .directory (.leave "it's \"b\" 'x") := by decide

end BuildMarkers
