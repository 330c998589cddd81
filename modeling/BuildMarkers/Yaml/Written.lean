import BuildMarkers.Text.Basic
import BuildMarkers.Text.Case
import BuildMarkers.Yaml.Cursor
/-!
# Written scalars

How a text is written as a scalar in a block mapping. It is written plain where
that reads back as the same text. A text that would be taken for something else
is written in single quotes, one with line feeds as a literal block, and one
with characters that do not print in double quotes.
-/

namespace BuildMarkers

namespace Yaml

/-- The character is written as it is. -/
def isPrintable (c : Char) : Bool :=
  let n := c.toNat
  n = 0xA || (0x20 ≤ n && n ≤ 0x7E) || (0xA0 ≤ n && n ≠ 0xFEFF && n ≠ 0xFFFE && n ≠ 0xFFFF)

/-- Words that mean a truth value, nothing or no number in some version of
YAML. -/
def reservedWords : List String :=
  ["true", "false", "null", "nil", "~", "y", "yes", "n", "no", "on", "off", "nan"]

/-- The character may start a number. -/
def startsNumber (c : Char) : Bool := c.isDigit || c = '+' || c = '-' || c = '.'

/-- Without quotes some reader might take the text for something else: for a
reserved word, for nothing, or for a number. -/
def isAmbiguous (s : String) : Bool :=
  s.isEmpty || reservedWords.contains (Text.lower s) || s.toList.head?.any startsNumber

/-- A character that structures YAML where a scalar starts. -/
def isIndicator (c : Char) : Bool :=
  "#,[]\x7b\x7d&*!|>\x27\"%@\x60".toList.contains c

/-- The text has a mark that YAML reads as structure at any place: a colon
before a gap, or a number sign after one. -/
def hasInnerMark : List Char → Bool
  | [] => false
  | c :: r => (c = ':' && startsGap r) || (isGap c && r.head? = some '#') || hasInnerMark r

/-- YAML would read structure into the text. -/
def hasIndicator (s : List Char) : Bool :=
  s.take 3 = ['-', '-', '-'] || s.take 3 = ['.', '.', '.'] || s.head?.any isIndicator ||
    (s.head?.any (fun c => c = '?' || c = '-') && startsGap s.tail) || hasInnerMark s

/-- A character with `p` stands right before one with `q`. -/
def hasPair (p q : Char → Bool) (s : List Char) : Bool :=
  (s.zip s.tail).any fun x => p x.1 && q x.2

/-- The text can be written plain. -/
def allowsPlain (s : List Char) : Bool :=
  !s.any isBreak && s.all isPrintable && !s.head?.any (· = ' ') && !s.getLast?.any (· = ' ') &&
    !hasIndicator s

/-- The text can be written in single quotes. -/
def allowsSingleQuotes (s : List Char) : Bool :=
  s.all isPrintable && !hasPair isBreak (· = ' ') s && !hasPair (· = ' ') isBreak s

/-- The text can be written as a block. -/
def allowsBlock (s : List Char) : Bool :=
  s.all isPrintable && !hasPair (· = ' ') isBreak s && !s.getLast?.any (· = ' ')

/-- The letter that stands for a character after a backslash. -/
def escapeLetter? (c : Char) : Option Char :=
  [('\x00', '0'), ('\x07', 'a'), ('\x08', 'b'), ('\t', 't'), ('\n', 'n'), ('\x0b', 'v'),
    ('\x0c', 'f'), ('\r', 'r'), ('\x1b', 'e'), ('"', '"'), ('\\', '\\'), ('\u0085', 'N'),
    ('\u00a0', '_'), ('\u2028', 'L'), ('\u2029', 'P')].lookup c

/-- A character in double quotes. -/
def doubleQuotedChar (c : Char) : List Char :=
  if isPrintable c && !isBreak c && c ≠ '"' && c ≠ '\\' then [c]
  else
    match escapeLetter? c with
    | some letter => ['\\', letter]
    | none =>
      let n := c.toNat
      let (mark, width) := if n ≤ 0xFF then ('x', 2) else if n ≤ 0xFFFF then ('u', 4) else ('U', 8)
      '\\' :: mark :: (Text.hexPadded width n).map Char.toUpper

/-- The text in double quotes. -/
def doubleQuoted (s : List Char) : List Char := '"' :: s.flatMap doubleQuotedChar ++ ['"']

/-- Spaces in front of a line. -/
def margin (indent : Nat) : List Char := List.replicate indent ' '

/-- The characters in single quotes from one on, after a break or not. -/
def singleQuotedFrom (indent : Nat) : Bool → List Char → List Char
  | afterBreak, [] => (if afterBreak then margin indent else []) ++ ['\x27']
  | afterBreak, c :: r =>
    if isBreak c then c :: singleQuotedFrom indent true r
    else
      (if afterBreak then margin indent else []) ++
        (if c = '\x27' then ['\x27', '\x27'] else [c]) ++ singleQuotedFrom indent false r

/-- The text in single quotes, its further lines behind a margin. -/
def singleQuoted (indent : Nat) (s : List Char) : List Char :=
  '\x27' :: singleQuotedFrom indent false s

/-- The lines of a block behind a margin. -/
def blockLinesFrom (indent : Nat) : Bool → List Char → List Char
  | _, [] => []
  | afterBreak, c :: r =>
    if isBreak c then c :: blockLinesFrom indent true r
    else (if afterBreak then margin indent else []) ++ c :: blockLinesFrom indent false r

/-- What the head of a block says of its end: nothing where one break ends it,
a hyphen where none does, a plus sign where more do. -/
def chompMark (s : List Char) : List Char :=
  match s.reverse with
  | [] => ['-']
  | c :: r =>
    if !isBreak c then ['-']
    else if r.isEmpty || r.head?.any isBreak then ['+']
    else []

/-- The text as a literal block. A block whose first line does not show its
margin says it in its head. -/
def literalBlock (indent : Nat) (s : List Char) : List Char :=
  let marginMark := if s.head?.any fun c => c = ' ' || isBreak c then ['2'] else []
  ['|'] ++ marginMark ++ chompMark s ++ ['\n'] ++ blockLinesFrom indent true s

/-- The text as a scalar with its further lines `indent` columns to the
right. -/
def written (indent : Nat) (text : String) : List Char :=
  let s := text.toList
  if s.contains '\n' then
    if allowsBlock s then literalBlock indent s else doubleQuoted s
  else if !isAmbiguous text && allowsPlain s then s
  else if allowsSingleQuotes s then singleQuoted indent s
  else doubleQuoted s

end Yaml

end BuildMarkers
