import BuildMarkers.Yaml.Cursor
/-!
# Scalars

The written forms of a text in YAML: plain, in single or double quotes, and as
a block of lines. In plain and quoted scalars lines are folded: one break
becomes a space, and of several breaks all but the first are kept. A reader
gives the text and the place after it, or nothing where the form is broken.
-/

namespace BuildMarkers

namespace Yaml

/-- The written form of a scalar. -/
inductive Style where
  | plain
  | singleQuoted
  | doubleQuoted
  | literal
  | folded
  deriving DecidableEq, Repr

/-- The blanks and breaks between two parts of a scalar. -/
structure Gap where
  /-- The blanks before any break. -/
  blanks : List Char
  /-- There is a break. -/
  broken : Bool
  /-- The first break, unless it was escaped. -/
  first : List Char
  /-- The breaks that follow. -/
  further : List Char
  deriving DecidableEq, Repr

namespace Gap

/-- No blank and no break. -/
def none : Gap := ⟨[], false, [], []⟩

/-- An escaped break. -/
def escaped : Gap := ⟨[], true, [], []⟩

/-- What the gap contributes to the text. -/
def text (g : Gap) : List Char :=
  if !g.broken then g.blanks
  else if g.first = ['\n'] then (if g.further.isEmpty then [' '] else g.further)
  else g.first ++ g.further

/-- The gap with the blanks and breaks at the place, in at most `fuel` steps.
A tab at the start of a line must not stand before the column `indent`. -/
def scan (indent : Nat) : Nat → Gap → Cursor → Option (Gap × Cursor)
  | 0, g, c => some (g, c)
  | fuel + 1, g, c =>
    if c.next isBlank then
      if g.broken && c.column < indent && c.sees '\t' then .none
      else if g.broken then scan indent fuel g (c.skip 1)
      else scan indent fuel { g with blanks := g.blanks ++ c.peek.toList } (c.skip 1)
    else if c.next isBreak then
      let (b, c) := c.takeBreak
      if g.broken then scan indent fuel { g with further := g.further ++ b } c
      else scan indent fuel ⟨[], true, b, []⟩ c
    else some (g, c)

end Gap

/-! ## Plain scalars -/

/-- Characters that structure flow collections. -/
def isFlowIndicator (c : Char) : Bool :=
  c = ',' || c = '[' || c = ']' || c = '\x7b' || c = '\x7d'

/-- The characters of a plain scalar up to the next gap. In a flow collection a
colon must not stand before an indicator. -/
def plainPart (flow : Bool) : List Char → Option (List Char)
  | [] => some []
  | c :: r =>
    if isGap c then some []
    else if flow && c = ':' && r.head?.any (fun x => isFlowIndicator x || x = '?') then none
    else if c = ':' && startsGap r then some []
    else if flow && isFlowIndicator c then some []
    else (plainPart flow r).map (c :: ·)

/-- The rest of a plain scalar after the text and the gap. -/
def plainFrom (flow : Bool) (indent : Nat) :
    Nat → List Char → Gap → Cursor → Option (List Char × Bool × Cursor)
  | 0, text, g, c => some (text, g.broken, c)
  | fuel + 1, text, g, c =>
    if c.marksDocument || c.sees '#' then some (text, g.broken, c)
    else do
      let part ← plainPart flow c.rest
      let (text, g) := if part.isEmpty then (text, g) else (text ++ g.text ++ part, Gap.none)
      let c := c.skip part.length
      if c.next isGap then
        let (g, c) ← g.scan indent (c.rest.length + 1) c
        if !flow && c.column < indent then return (text, g.broken, c)
        else plainFrom flow indent fuel text g c
      else return (text, g.broken, c)

/-- A plain scalar: its text, whether a break follows it, and the place after
it. Its further lines are indented by `indent` columns at least. -/
def plain (flow : Bool) (indent : Nat) (c : Cursor) : Option (List Char × Bool × Cursor) :=
  plainFrom flow indent (c.rest.length + 1) [] .none c

/-! ## Quoted scalars -/

/-- The number that hexadecimal digits write. -/
def hexNumber? (digits : List Char) : Option Nat :=
  digits.foldlM (fun n d =>
    if d.isDigit then some (n * 16 + (d.toNat - 48))
    else if 'a' ≤ d && d ≤ 'f' then some (n * 16 + (d.toNat - 87))
    else if 'A' ≤ d && d ≤ 'F' then some (n * 16 + (d.toNat - 55))
    else none) 0

/-- The character with a number that `count` hexadecimal digits write. -/
def coded? (count : Nat) (s : List Char) : Option (Char × Nat) := do
  if s.length < count then none
  let n ← hexNumber? (s.take count)
  if n.isValidChar then some (Char.ofNat n, 2 + count) else none

/-- The character that the text after a backslash stands for, and the length of
the escape with the backslash. -/
def escape? : List Char → Option (Char × Nat)
  | [] => none
  | c :: r =>
    match c with
    | '0' => some ('\x00', 2)
    | 'a' => some ('\x07', 2)
    | 'b' => some ('\x08', 2)
    | 't' | '\t' => some ('\t', 2)
    | 'n' => some ('\n', 2)
    | 'v' => some ('\x0b', 2)
    | 'f' => some ('\x0c', 2)
    | 'r' => some ('\r', 2)
    | 'e' => some ('\x1b', 2)
    | ' ' => some (' ', 2)
    | '"' => some ('"', 2)
    | '/' => some ('/', 2)
    | '\\' => some ('\\', 2)
    | 'N' => some ('\u0085', 2)
    | '_' => some ('\u00a0', 2)
    | 'L' => some ('\u2028', 2)
    | 'P' => some ('\u2029', 2)
    | 'x' => coded? 2 r
    | 'u' => coded? 4 r
    | 'U' => coded? 8 r
    | _ => none

/-- The characters of a quoted scalar up to the next gap or the closing quote,
the place after them, and whether a break was escaped there. -/
def quotedPart (single : Bool) : Nat → Cursor → Option (List Char × Bool × Cursor)
  | 0, c => some ([], false, c)
  | fuel + 1, c =>
    match c.rest with
    | [] => some ([], false, c)
    | x :: r =>
      if isGap x then some ([], false, c)
      else if single && x = '\x27' then
        if r.head? = some '\x27' then
          (quotedPart single fuel (c.skip 2)).map fun (s, e, c) => ('\x27' :: s, e, c)
        else some ([], false, c)
      else if !single && x = '"' then some ([], false, c)
      else if !single && x = '\\' then
        if r.head?.any isBreak then some ([], true, (c.skip 1).skipBreak)
        else
          match escape? r with
          | none => none
          | some (y, length) =>
            (quotedPart single fuel (c.skip length)).map fun (s, e, c) => (y :: s, e, c)
      else (quotedPart single fuel (c.skip 1)).map fun (s, e, c) => (x :: s, e, c)

/-- The rest of a quoted scalar after the text. -/
def quotedFrom (single : Bool) : Nat → List Char → Cursor → Option (List Char × Cursor)
  | 0, _, _ => none
  | fuel + 1, text, c =>
    if c.marksDocument || c.atEnd then none
    else do
      let (part, escaped, c) ← quotedPart single (c.rest.length + 1) c
      let text := text ++ part
      if c.sees (if single then '\x27' else '"') then return (text, c.skip 1)
      else
        let (g, c) ← (if escaped then Gap.escaped else .none).scan 0 (c.rest.length + 1) c
        quotedFrom single fuel (text ++ g.text) c

/-- A quoted scalar from its opening quote on. -/
def quoted (single : Bool) (c : Cursor) : Option (List Char × Cursor) :=
  quotedFrom single (c.rest.length + 1) [] (c.skip 1)

/-! ## Block scalars -/

/-- What becomes of the breaks at the end of a block. -/
inductive Chomping where
  /-- The last break stays. -/
  | clip
  /-- All breaks go. -/
  | strip
  /-- All breaks stay. -/
  | keep
  deriving DecidableEq, Repr

/-- The chomping indicator at the place, if there is one. -/
def chomping? (c : Cursor) : Option (Chomping × Cursor) :=
  if c.sees '+' then some (.keep, c.skip 1)
  else if c.sees '-' then some (.strip, c.skip 1)
  else none

/-- The indentation indicator at the place, zero if there is none. -/
def indentation? (c : Cursor) : Option (Nat × Cursor) :=
  match c.peek with
  | some d =>
    if d = '0' then none
    else if d.isDigit then some (d.toNat - 48, c.skip 1)
    else some (0, c)
  | none => some (0, c)

/-- The indicators in the head of a block, in either order. -/
def blockHead? (c : Cursor) : Option (Chomping × Nat × Cursor) :=
  match chomping? c with
  | some (chomp, c) => (indentation? c).map fun (n, c) => (chomp, n, c)
  | none => do
    let (n, c) ← indentation? c
    if n = 0 then return (.clip, 0, c)
    match chomping? c with
    | some (chomp, c) => return (chomp, n, c)
    | none => return (.clip, n, c)

/-- The empty lines at the place, with `indent` zero while it is open. Gives
the breaks, the greatest column and the place. -/
def emptyLines (indent : Nat) : Nat → List Char → Nat → Cursor → Option (List Char × Nat × Cursor)
  | 0, breaks, widest, c => some (breaks, widest, c)
  | fuel + 1, breaks, widest, c =>
    let spaces := (c.rest.takeWhile (· = ' ')).length
    let c := c.skip (if indent = 0 then spaces else min spaces (indent - c.column))
    let widest := max widest c.column
    if (indent = 0 || c.column < indent) && c.sees '\t' then none
    else if c.next isBreak then
      let (b, c) := c.takeBreak
      emptyLines indent fuel (breaks ++ b) widest c
    else some (breaks, widest, c)

/-- The lines of a block with their indentation known: the text so far, the
last break, the breaks after it, and whether the last line started with a
blank. -/
def blockLines (folded : Bool) (indent : Nat) :
    Nat → List Char → List Char → List Char → Bool → Cursor →
    Option (List Char × List Char × List Char × Cursor)
  | 0, text, last, breaks, _, c => some (text, last, breaks, c)
  | fuel + 1, text, last, breaks, wasBlank, c =>
    if c.column = indent && !c.atEnd then do
      let isBlank := c.next isBlank
      let joined :=
        if folded && last.head? = some '\n' && !wasBlank && !isBlank then
          (if breaks.isEmpty then [' '] else [])
        else last
      let (line, c) := c.takeWhile fun x => !isBreak x
      let (last', c) := c.takeBreak
      let (breaks', _, c) ← emptyLines indent (c.rest.length + 1) [] 0 c
      blockLines folded indent fuel (text ++ joined ++ breaks ++ line) last' breaks' isBlank c
    else some (text, last, breaks, c)

/-- A block scalar from its indicator on, below a collection that is indented
by `parent` columns. -/
def block (folded : Bool) (parent : Int) (c : Cursor) : Option (List Char × Cursor) := do
  let (chomp, increment, c) ← blockHead? (c.skip 1)
  let c := c.skipComment
  if !(c.atEnd || c.next isBreak) then none
  let c := c.skipBreak
  let given := if increment = 0 then 0 else (max parent 0).toNat + increment
  let (breaks, widest, c) ← emptyLines given (c.rest.length + 1) [] 0 c
  let indent := if given = 0 then max widest (max (parent + 1).toNat 1) else given
  let (text, last, breaks, c) ← blockLines folded indent (c.rest.length + 1) [] [] breaks false c
  let text := match chomp with
    | .strip => text
    | .clip => text ++ last
    | .keep => text ++ last ++ breaks
  return (text, c)

end Yaml

end BuildMarkers
