/-!
# Characters and bytes

What all reading and writing of texts rests on: which characters are blank, and
how characters and bytes correspond.
-/

namespace BuildMarkers

/-! ## Blank characters

Two classes of white space are in use. Whatever a person may have typed is
trimmed by the Unicode class (`isBlank`), while the line grammar of a build
log knows the six ASCII blanks only (`isAsciiBlank`). Both are predicates on
characters, and trimming is stated on lists of characters. -/

namespace Text

/-- The characters with the Unicode property `White_Space`. -/
def isBlank (c : Char) : Bool :=
  let n := c.toNat
  (0x9 ≤ n && n ≤ 0xD) || n = 0x20 || n = 0x85 || n = 0xA0 || n = 0x1680 ||
    (0x2000 ≤ n && n ≤ 0x200A) || n = 0x2028 || n = 0x2029 || n = 0x202F || n = 0x205F || n = 0x3000

/-- Tab, line feed, vertical tab, form feed, carriage return and space. -/
def isAsciiBlank (c : Char) : Bool :=
  let n := c.toNat
  (0x9 ≤ n && n ≤ 0xD) || n = 0x20

/-- The list without its longest run at the end whose members satisfy `p`. -/
def dropTrailing {α : Type} (p : α → Bool) (s : List α) : List α :=
  (s.reverse.dropWhile p).reverse

/-- The list without such runs at either end. -/
def stripBoth {α : Type} (p : α → Bool) (s : List α) : List α :=
  dropTrailing p (s.dropWhile p)

/-- The characters without the white space around them. -/
def trimChars (s : List Char) : List Char := stripBoth isBlank s

/-- The text without the white space around it. -/
def trim (s : String) : String := String.ofList (trimChars s.toList)

/-- The text has nothing but white space in it. -/
def isBlankText (s : String) : Bool := s.toList.all isBlank

/-- The parts of a text between the separators, the empty ones dropped. -/
def segments (isSeparator : Char → Bool) (s : String) : List String :=
  ((s.toList.splitOnP isSeparator).filter (fun part => !part.isEmpty)).map String.ofList

/-- The text up to its first line feed, without a carriage return before it. -/
def firstLine (s : String) : String :=
  let line := s.toList.takeWhile (· ≠ '\n')
  String.ofList (if line.getLast? = some '\r' then line.dropLast else line)

/-- Each lower case hexadecimal digit of the number, the highest first. -/
def hexDigits (n : Nat) : List Char := Nat.toDigits 16 n

/-- The last `width` hexadecimal digits, in lower case. -/
def hexPadded (width n : Nat) : List Char :=
  let digits := hexDigits n
  List.replicate (width - digits.length) '0' ++ digits

end Text

/-! ## Bytes and text

A text is written as bytes by the UTF-8 form of each of its characters
(`encode`). Reading goes through one pass, `parts`, which cuts the bytes into
characters and broken parts; a broken part is the longest start of a
well-formed sequence, or one byte. The strict reading (`decode?`) accepts no
broken part, the lenient one (`decodeLossy`) puts U+FFFD in its place. -/

namespace Text

/-- The UTF-8 form of the text. -/
def encode (s : String) : List UInt8 := s.toList.flatMap String.utf8EncodeChar

/-- The number of bytes that the characters take. -/
def byteLength (s : List Char) : Nat := (s.flatMap String.utf8EncodeChar).length

/-- A piece of a byte sequence that is read as text. -/
inductive Part where
  /-- A well-formed character. -/
  | char (c : Char)
  /-- Bytes that form no character. -/
  | broken (bytes : List UInt8)
  deriving DecidableEq, Repr

/-- The bytes of a character that has begun, and what may follow them. -/
structure Begun where
  /-- The bytes so far. -/
  bytes : List UInt8
  /-- The least byte that continues the character. -/
  low : UInt8
  /-- The greatest byte that continues the character. -/
  high : UInt8
  /-- How many bytes are missing after the next one. -/
  left : Nat
  deriving DecidableEq, Repr

/-- What a first byte begins. The bounds on the second byte keep out forms that
are longer than needed, surrogates and numbers above U+10FFFF. -/
def begin? (b : UInt8) : Option Begun :=
  if b < 0xC2 then none
  else if b < 0xE0 then some ⟨[b], 0x80, 0xBF, 0⟩
  else if b = 0xE0 then some ⟨[b], 0xA0, 0xBF, 1⟩
  else if b = 0xED then some ⟨[b], 0x80, 0x9F, 1⟩
  else if b < 0xF0 then some ⟨[b], 0x80, 0xBF, 1⟩
  else if b = 0xF0 then some ⟨[b], 0x90, 0xBF, 2⟩
  else if b < 0xF4 then some ⟨[b], 0x80, 0xBF, 2⟩
  else if b = 0xF4 then some ⟨[b], 0x80, 0x8F, 2⟩
  else none

/-- The parts that a first byte completes, and the character that it begins. -/
def first (b : UInt8) : List Part × Option Begun :=
  if b < 0x80 then ([.char (Char.ofNat b.toNat)], none)
  else
    match begin? b with
    | some begun => ([], some begun)
    | none => ([.broken [b]], none)

/-- The character of a complete sequence of two, three or four bytes: the low
bits of the first byte, then six bits of each other byte. -/
def assemble : List UInt8 → Char
  | [] => '\uFFFD'
  | a :: tails =>
    Char.ofNat (tails.foldl (fun n b => n * 64 + b.toNat % 64)
      (a.toNat % Nat.pow 2 (6 - tails.length)))

/-- The parts that a byte completes after what has begun before it. A byte that
does not continue the character closes it as broken and is itself read as a
first byte. -/
def advance (begun : Option Begun) (b : UInt8) : List Part × Option Begun :=
  match begun with
  | none => first b
  | some s =>
    if s.low ≤ b && b ≤ s.high then
      match s.left with
      | 0 => ([.char (assemble (s.bytes ++ [b]))], none)
      | n + 1 => ([], some ⟨s.bytes ++ [b], 0x80, 0xBF, n⟩)
    else
      let (done, next) := first b
      (.broken s.bytes :: done, next)

/-- The parts of the bytes that follow what has begun. -/
def partsAfter (begun : Option Begun) : List UInt8 → List Part
  | [] => begun.toList.map fun s => .broken s.bytes
  | b :: r =>
    let (done, next) := advance begun b
    done ++ partsAfter next r

/-- The characters and broken parts of the bytes, in order. -/
def parts (bytes : List UInt8) : List Part := partsAfter none bytes

/-- The character of a part, if it is one. -/
def Part.char? : Part → Option Char
  | .char c => some c
  | .broken _ => none

/-- The text that is written as these bytes, if they are well formed. -/
def decode? (bytes : List UInt8) : Option String :=
  ((parts bytes).mapM Part.char?).map String.ofList

/-- The text of the bytes with U+FFFD for each broken part. -/
def decodeLossy (bytes : List UInt8) : String :=
  String.ofList ((parts bytes).map fun part => part.char?.getD '\uFFFD')

end Text

end BuildMarkers
