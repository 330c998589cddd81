/-!
# A cursor over YAML text

A cursor stands somewhere in a text and knows the index, line and column of
that place, on which the structure of a YAML text depends. Five line breaks are
known; a carriage return and a line feed together are one of them.
-/

namespace BuildMarkers

namespace Yaml

/-- The character is a space or a tab. -/
def isBlank (c : Char) : Bool := c = ' ' || c = '\t'

/-- The character breaks a line. -/
def isBreak (c : Char) : Bool :=
  c = '\r' || c = '\n' || c = '\u0085' || c = '\u2028' || c = '\u2029'

/-- The character is a blank or breaks a line. -/
def isGap (c : Char) : Bool := isBlank c || isBreak c

/-- The characters of names: ASCII letters and digits, `_` and `-`. -/
def isWord (c : Char) : Bool := c.isAlphanum || c = '_' || c = '-'

/-- The byte order mark. -/
def byteOrderMark : Char := '\uFEFF'

/-- The character may stand in a YAML text. -/
def isAllowed (c : Char) : Bool :=
  let n := c.toNat
  n = 0x9 || n = 0xA || n = 0xD || (0x20 ≤ n && n ≤ 0x7E) || n = 0x85 ||
    (0xA0 ≤ n && n ≤ 0xD7FF) || (0xE000 ≤ n && n ≤ 0xFFFD) || 0x10000 ≤ n

/-- A blank, a break or the end stands at the head of the text. -/
def startsGap : List Char → Bool
  | [] => true
  | c :: _ => isGap c

/-- A place in a text. -/
structure Cursor where
  /-- The text from the place on. -/
  rest : List Char
  /-- The number of bytes before the place. -/
  index : Nat
  line : Nat
  /-- The number of characters before the place on its line. -/
  column : Nat
  deriving DecidableEq, Repr

namespace Cursor

/-- The start of the text. -/
def start (text : List Char) : Cursor := ⟨text, 0, 0, 0⟩

/-- The next character. -/
def peek (c : Cursor) : Option Char := c.rest.head?

/-- The character after `n` more. -/
def peekAt (c : Cursor) (n : Nat) : Option Char := c.rest[n]?

/-- The next character is the given one. -/
def sees (c : Cursor) (x : Char) : Bool := c.peek == some x

/-- The next character satisfies `p`. -/
def next (c : Cursor) (p : Char → Bool) : Bool := c.peek.any p

/-- Nothing follows. -/
def atEnd (c : Cursor) : Bool := c.rest.isEmpty

/-- A blank, a break or the end follows `n` more characters. -/
def gapAt (c : Cursor) (n : Nat) : Bool := startsGap (c.rest.drop n)

/-- The place `n` characters further on the line, or the end if it is nearer. -/
def skip : Cursor → Nat → Cursor
  | c, 0 => c
  | c, n + 1 =>
    match c.rest with
    | [] => c
    | x :: rest => skip ⟨rest, c.index + x.utf8Size, c.line, c.column + 1⟩ n

/-- The characters of the line that satisfy `p` from the place on, and the
place after them. -/
def takeWhile (c : Cursor) (p : Char → Bool) : List Char × Cursor :=
  let taken := c.rest.takeWhile p
  (taken, c.skip taken.length)

/-- The place after the characters that satisfy `p`. -/
def skipWhile (c : Cursor) (p : Char → Bool) : Cursor := (c.takeWhile p).2

/-- What the break at the place stands for, and the place after it. The breaks
of ASCII and the next line character are written as a line feed. -/
def takeBreak (c : Cursor) : List Char × Cursor :=
  match c.rest with
  | '\r' :: '\n' :: r => (['\n'], ⟨r, c.index + 2, c.line + 1, 0⟩)
  | x :: r =>
    if isBreak x then
      ([if x = '\u2028' || x = '\u2029' then x else '\n'], ⟨r, c.index + x.utf8Size, c.line + 1, 0⟩)
    else ([], c)
  | [] => ([], c)

/-- The place after the break. -/
def skipBreak (c : Cursor) : Cursor := c.takeBreak.2

/-- The place at the end of the line. -/
def skipToBreak (c : Cursor) : Cursor := c.skipWhile fun x => !isBreak x

/-- The place after blanks and a comment. -/
def skipComment (c : Cursor) : Cursor :=
  let c := c.skipWhile isBlank
  if c.sees '#' then c.skipToBreak else c

/-- The line starts with three times the character and a gap, as a document
marker does. -/
def marks (c : Cursor) (x : Char) : Bool :=
  c.column = 0 && c.rest.take 3 = [x, x, x] && c.gapAt 3

/-- The line starts or ends a document. -/
def marksDocument (c : Cursor) : Bool := c.marks '-' || c.marks '.'

end Cursor

end Yaml

end BuildMarkers
