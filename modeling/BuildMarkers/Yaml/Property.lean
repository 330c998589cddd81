import BuildMarkers.Text.Basic
import BuildMarkers.Yaml.Cursor
import BuildMarkers.Yaml.Scalar
/-!
# Anchors, tags and directives

The parts of a YAML text that name things: anchors and aliases, tags in their
three forms, and the directives at the start of a document. A tag is a sequence
of bytes, because its escapes write bytes, and these need not form a text. It
ends at its first NUL byte, whatever is written behind that.
-/

namespace BuildMarkers

namespace Yaml

/-- The name of an anchor or an alias after its indicator. -/
def anchorName (c : Cursor) : Option (String × Cursor) :=
  let (name, c) := (c.skip 1).takeWhile isWord
  let closed := c.gapAt 0 || c.next ("?:,]\x7d%@\x60".toList.contains ·)
  if name.isEmpty || !closed then none else some (String.ofList name, c)

/-- The handle of a tag: an exclamation mark, or a word between two. -/
def tagHandle (c : Cursor) : Option (List Char × Cursor) :=
  if c.sees '!' then
    let (word, c) := (c.skip 1).takeWhile isWord
    if c.sees '!' then some ('!' :: word ++ ['!'], c.skip 1) else some ('!' :: word, c)
  else none

/-- The characters of a tag besides escapes. Those of flow collections are
there between angle brackets only. -/
def isTagChar (verbatim : Bool) (c : Char) : Bool :=
  isWord c || ";/?:@&=+$.!~*\x27()".toList.contains c ||
    (verbatim && (c = ',' || c = '[' || c = ']'))

/-- The number of bytes in a sequence with this first byte. -/
def sequenceWidth? (b : Nat) : Option Nat :=
  if b < 0x80 then some 1
  else if b / 0x20 = 6 then some 2
  else if b / 0x10 = 14 then some 3
  else if b / 0x08 = 30 then some 4
  else none

/-- The byte that an escape in a tag writes. -/
def escapedByte? (c : Cursor) : Option (Nat × Cursor) :=
  if c.sees '%' && 3 ≤ c.rest.length then
    (hexNumber? ((c.rest.drop 1).take 2)).map (·, c.skip 3)
  else none

/-- The bytes that continue an escaped character. -/
def escapedTail? : Nat → Cursor → Option (List Nat × Cursor)
  | 0, c => some ([], c)
  | n + 1, c => do
    let (b, c) ← escapedByte? c
    if b / 0x40 = 2 then
      let (bs, c) ← escapedTail? n c
      return (b :: bs, c)
    else none

/-- The bytes that the escapes of one character at the place write. Their
number fits the first byte; nothing else is asked of them. -/
def escapedBytes? (c : Cursor) : Option (List Nat × Cursor) := do
  let (b, c) ← escapedByte? c
  let width ← sequenceWidth? b
  let (bs, c) ← escapedTail? (width - 1) c
  return (b :: bs, c)

/-- The bytes of a tag, which need not form a text. -/
abbrev Tag := List UInt8

namespace Tag

/-- The tag `!`, which names no kind of value. -/
def nonSpecific : Tag := [0x21]

/-- The tag up to its first NUL byte. -/
def cut (t : Tag) : Tag := t.takeWhile (· ≠ 0)

end Tag

/-- The bytes of a tag at the place. -/
def tagBytes (verbatim : Bool) : Nat → Cursor → Option (Tag × Cursor)
  | 0, c => some ([], c)
  | fuel + 1, c =>
    if c.sees '%' then do
      let (bs, c) ← escapedBytes? c
      let (r, c) ← tagBytes verbatim fuel c
      return (bs.map UInt8.ofNat ++ r, c)
    else if c.next (isTagChar verbatim) then do
      let (r, next) ← tagBytes verbatim fuel (c.skip 1)
      return (Text.encode (String.ofList c.peek.toList) ++ r, next)
    else some ([], c)

/-- A part of a tag at the place, for which something has to be written. -/
def tagPart (verbatim : Bool) (c : Cursor) : Option (Tag × Cursor) := do
  let (bs, c) ← tagBytes verbatim (c.rest.length + 1) c
  if bs.isEmpty then none else return (Tag.cut bs, c)

/-- A tag: its handle and the rest of it. A tag between angle brackets and the
tag `!` have no handle. -/
def tag (flow : Bool) (c : Cursor) : Option (String × Tag × Cursor) := do
  let (handle, suffix, c) ← (
    if c.peekAt 1 = some '<' then do
      let (bs, c) ← tagPart true (c.skip 2)
      if c.sees '>' then return ("", bs, c.skip 1) else none
    else do
      let (handle, c) ← tagHandle c
      if 2 ≤ handle.length && handle.getLast? = some '!' then
        let (bs, c) ← tagPart false c
        return (String.ofList handle, bs, c)
      else
        let (bs, c) ← tagBytes false (c.rest.length + 1) c
        let suffix := Tag.cut (Text.encode (String.ofList (handle.drop 1)) ++ bs)
        if suffix.isEmpty then return ("", Tag.nonSpecific, c) else return ("!", suffix, c))
  if c.gapAt 0 || (flow && c.sees ',') then return (handle, suffix, c) else none

/-- A directive. -/
inductive Directive where
  | version (major minor : Nat)
  | tag (handle : String) (replacement : Tag)
  deriving DecidableEq, Repr

/-- A number of a version, which has nine digits at most. -/
def versionNumber (c : Cursor) : Option (Nat × Cursor) :=
  let (digits, c) := c.takeWhile Char.isDigit
  if digits.isEmpty || 9 < digits.length then none
  else some (digits.foldl (fun n d => n * 10 + (d.toNat - 48)) 0, c)

/-- A directive with its line. -/
def directive (c : Cursor) : Option (Directive × Cursor) := do
  let (name, c) := (c.skip 1).takeWhile isWord
  if name.isEmpty || !c.gapAt 0 then none
  let c := c.skipWhile isBlank
  let (d, c) ← (
    if name = "YAML".toList then do
      let (major, c) ← versionNumber c
      if !c.sees '.' then none
      let (minor, c) ← versionNumber (c.skip 1)
      return (Directive.version major minor, c)
    else if name = "TAG".toList then do
      let (handle, c) ← tagHandle c
      if handle.getLast? ≠ some '!' then none
      if !c.next isBlank then none
      let (replacement, c) ← tagPart true (c.skipWhile isBlank)
      if !c.gapAt 0 then none
      return (.tag (String.ofList handle) replacement, c)
    else none)
  let c := c.skipComment
  if c.atEnd || c.next isBreak then return (d, c.skipBreak) else none

end Yaml

end BuildMarkers
