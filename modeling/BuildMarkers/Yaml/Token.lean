import BuildMarkers.Yaml.Property
/-!
# Tokens

Tokens are read as they are asked for. Whether a scalar, an alias or a flow
collection is a key shows only at the colon behind it, so each of them is
remembered as a possible key as long as it stays on one line and is not longer
than 1024 bytes; when the colon comes, the key token, and the token that
opens a block mapping, are put in front of what has been read since. Reading
ahead goes no further than needed for that, which decides what precedes an
error.
-/

namespace BuildMarkers

namespace Yaml

/-- A token of a YAML text. -/
inductive Token where
  | streamStart
  | streamEnd
  | directive (d : Directive)
  | documentStart
  | documentEnd
  | blockSequenceStart
  | blockMappingStart
  | blockEnd
  | flowSequenceStart
  | flowSequenceEnd
  | flowMappingStart
  | flowMappingEnd
  | blockEntry
  | flowEntry
  | key
  | value
  | alias (name : String)
  | anchor (name : String)
  | tag (handle : String) (suffix : Tag)
  | scalar (text : String) (style : Style)
  deriving DecidableEq, Repr

/-- A place at which a key may have started. -/
structure PossibleKey where
  /-- There is still a key possible. -/
  possible : Bool
  /-- The text is wrong if no key turns up. -/
  required : Bool
  /-- The number of the token that starts the key. -/
  number : Nat
  index : Nat
  line : Nat
  column : Nat
  deriving DecidableEq, Repr

/-- No key is possible. -/
def PossibleKey.none : PossibleKey := ⟨false, false, 0, 0, 0, 0⟩

/-- A reader of tokens. -/
structure Reader where
  cursor : Cursor
  /-- The stream has been opened. -/
  started : Bool
  /-- The number of open flow collections. -/
  flow : Nat
  /-- Tokens that are read and not taken yet. -/
  queue : List Token
  /-- The number of tokens taken. -/
  taken : Nat
  /-- The first token of the queue cannot change any more. -/
  ready : Bool
  /-- The column of the open block collection, -1 outside of all. -/
  indent : Int
  /-- The columns of the block collections around it. -/
  outer : List Int
  /-- A key may start at the cursor. -/
  keyAllowed : Bool
  /-- The possible keys, one for each open flow collection and one for all
  blocks, the innermost first. -/
  keys : List PossibleKey
  deriving Repr

namespace Reader

/-- A reader at the start of the text. -/
def start (text : List Char) : Reader :=
  ⟨.start text, false, 0, [], 0, false, -1, [], false, []⟩

/-- The number of bytes that a key may have. -/
def keyLimit : Nat := 1024

/-- The reader with one more token in the queue. -/
def enqueue (r : Reader) (t : Token) : Reader := { r with queue := r.queue ++ [t] }

/-- Gives up possible keys that are on a line before the cursor or too long. -/
def dropStale (r : Reader) : Option Reader := do
  let keys ← r.keys.mapM fun k =>
    if k.possible && (k.line < r.cursor.line || k.index + keyLimit < r.cursor.index) then
      if k.required then none else some { k with possible := false }
    else some k
  return { r with keys }

/-- Gives up the innermost possible key. -/
def removeKey (r : Reader) : Option Reader :=
  match r.keys with
  | [] => some r
  | k :: rest =>
    if k.possible && k.required then none
    else some { r with keys := { k with possible := false } :: rest }

/-- Remembers the cursor as a place where a key may start. -/
def saveKey (r : Reader) : Option Reader := do
  if r.keyAllowed then
    let key : PossibleKey := {
      possible := true
      required := r.flow = 0 && r.indent = r.cursor.column
      number := r.taken + r.queue.length
      index := r.cursor.index, line := r.cursor.line, column := r.cursor.column }
    let r ← r.removeKey
    return { r with keys := key :: r.keys.drop 1 }
  else return r

/-- Opens a block collection at the column unless one is open there, with its
token at the place in the queue. -/
def openBlock (r : Reader) (column : Nat) (place : Nat) (t : Token) : Reader :=
  if r.flow = 0 && r.indent < column then
    { r with
      indent := column
      outer := r.indent :: r.outer
      queue := r.queue.take place ++ t :: r.queue.drop place }
  else r

/-- Closes the block collections to the right of the column, given those that
are open. -/
def closeBlocksFrom (column : Int) (r : Reader) : List Int → Reader
  | [] => r
  | i :: outer =>
    if column < r.indent then
      closeBlocksFrom column ({ r with indent := i, outer }.enqueue .blockEnd) outer
    else r

/-- Closes the block collections to the right of the column. -/
def closeBlocks (r : Reader) (column : Int) : Reader :=
  if r.flow = 0 then closeBlocksFrom column r r.outer else r

/-- Skips blanks, comments and breaks before a token, and a byte order mark at
the start of a line. A tab must not stand where it could be taken for
indentation. -/
def skipToToken : Nat → Reader → Reader
  | 0, r => r
  | fuel + 1, r =>
    let c :=
      if r.cursor.column = 0 && r.cursor.sees byteOrderMark then r.cursor.skip 1 else r.cursor
    let tabs := r.flow ≠ 0 || !r.keyAllowed
    let c := c.skipWhile fun x => x = ' ' || (tabs && x = '\t')
    let c := if c.sees '#' then c.skipToBreak else c
    if c.next isBreak then
      skipToToken fuel { r with cursor := c.skipBreak, keyAllowed := r.keyAllowed || r.flow = 0 }
    else { r with cursor := c }

/-- Ends the stream. -/
def streamEnd (r : Reader) : Option Reader := do
  let r := if r.cursor.column = 0 then r
    else { r with cursor := { r.cursor with column := 0, line := r.cursor.line + 1 } }
  let r ← (r.closeBlocks (-1)).removeKey
  return { r with keyAllowed := false }.enqueue .streamEnd

/-- Prepares for a token that stands outside of all collections. -/
def leaveBlocks (r : Reader) : Option Reader := do
  let r ← (r.closeBlocks (-1)).removeKey
  return { r with keyAllowed := false }

/-- Reads a token of `n` characters. -/
def take (r : Reader) (n : Nat) (t : Token) : Reader :=
  { r with cursor := r.cursor.skip n }.enqueue t

/-- Reads the start of a flow collection. -/
def openFlow (r : Reader) (t : Token) : Option Reader := do
  let r ← r.saveKey
  return { r with keys := .none :: r.keys, flow := r.flow + 1, keyAllowed := true }.take 1 t

/-- Reads the end of a flow collection. -/
def closeFlow (r : Reader) (t : Token) : Option Reader := do
  let r ← r.removeKey
  let r := if r.flow = 0 then r else { r with flow := r.flow - 1, keys := r.keys.drop 1 }
  return { r with keyAllowed := false }.take 1 t

/-- Reads a comma of a flow collection. -/
def flowEntry (r : Reader) : Option Reader := do
  let r ← r.removeKey
  return { r with keyAllowed := true }.take 1 .flowEntry

/-- Opens a block collection at the cursor, where one may start. -/
def openBlockHere (r : Reader) (t : Token) : Option Reader :=
  if r.flow ≠ 0 then some r
  else if r.keyAllowed then some (r.openBlock r.cursor.column r.queue.length t)
  else none

/-- Reads the hyphen of a block sequence. -/
def blockEntry (r : Reader) : Option Reader := do
  let r ← (← r.openBlockHere .blockSequenceStart).removeKey
  return { r with keyAllowed := true }.take 1 .blockEntry

/-- Reads the question mark of a key. -/
def explicitKey (r : Reader) : Option Reader := do
  let r ← (← r.openBlockHere .blockMappingStart).removeKey
  return { r with keyAllowed := r.flow = 0 }.take 1 .key

/-- Reads the colon before a value. What started at the possible key becomes a
key. -/
def valueMark (r : Reader) : Option Reader :=
  match r.keys with
  | k :: rest =>
    if k.possible then
      let place := k.number - r.taken
      let r := { r with
        queue := r.queue.take place ++ Token.key :: r.queue.drop place
        keys := { k with possible := false } :: rest
        keyAllowed := false }
      some ((r.openBlock k.column place .blockMappingStart).take 1 .value)
    else noKey
  | [] => noKey
where
  /-- A value without a key, or after an explicit key. -/
  noKey : Option Reader := do
    let r ← r.openBlockHere .blockMappingStart
    return { r with keyAllowed := r.flow = 0 }.take 1 .value

/-- Reads a token that may start a key, given how it is read. -/
def keyLike (r : Reader) (read : Cursor → Option (Token × Cursor)) : Option Reader := do
  let r ← r.saveKey
  let (t, cursor) ← read r.cursor
  return { r with cursor, keyAllowed := false }.enqueue t

/-- Reads a block scalar. -/
def blockScalar (r : Reader) (folded : Bool) : Option Reader := do
  let r ← r.removeKey
  let (text, cursor) ← block folded r.indent r.cursor
  let t := Token.scalar (String.ofList text) (if folded then .folded else .literal)
  return { r with cursor, keyAllowed := true }.enqueue t

/-- Reads a quoted scalar. -/
def quotedScalar (r : Reader) (single : Bool) : Option Reader :=
  r.keyLike fun c => (quoted single c).map fun (text, c) =>
    (.scalar (String.ofList text) (if single then .singleQuoted else .doubleQuoted), c)

/-- Reads a plain scalar. After a break behind it a key may start. -/
def plainScalar (r : Reader) : Option Reader := do
  let r ← r.saveKey
  let (text, broken, cursor) ← plain (r.flow ≠ 0) (r.indent + 1).toNat r.cursor
  return { r with cursor, keyAllowed := broken }.enqueue (.scalar (String.ofList text) .plain)

/-- A plain scalar may start at the cursor. -/
def startsPlain (r : Reader) : Bool :=
  let c := r.cursor
  match c.peek with
  | none => false
  | some x =>
    !(isGap x || "-?:,[]\x7b\x7d#&*!|>\x27\"%@\x60".toList.contains x) ||
      (x = '-' && !(c.rest.drop 1).head?.any isBlank) ||
      (r.flow = 0 && (x = '?' || x = ':') && !c.gapAt 1)

/-- Reads one more token into the queue, and the tokens that it implies. -/
def readToken (r : Reader) : Option Reader := do
  if !r.started then
    return { r with
      started := true, indent := -1, keyAllowed := true, keys := [.none] }.enqueue .streamStart
  let r ← (skipToToken (r.cursor.rest.length + 1) r).dropStale
  let r := r.closeBlocks r.cursor.column
  let c := r.cursor
  let inFlow : Bool := r.flow ≠ 0
  match c.peek with
  | none => r.streamEnd
  | some x =>
    if c.column = 0 && x = '%' then
      let r ← r.leaveBlocks
      let (d, cursor) ← directive r.cursor
      return { r with cursor }.enqueue (.directive d)
    else if c.marks '-' then return (← r.leaveBlocks).take 3 .documentStart
    else if c.marks '.' then return (← r.leaveBlocks).take 3 .documentEnd
    else if x = '[' then r.openFlow .flowSequenceStart
    else if x = '\x7b' then r.openFlow .flowMappingStart
    else if x = ']' then r.closeFlow .flowSequenceEnd
    else if x = '\x7d' then r.closeFlow .flowMappingEnd
    else if x = ',' then r.flowEntry
    else if x = '-' && c.gapAt 1 then r.blockEntry
    else if x = '?' && (inFlow || c.gapAt 1) then r.explicitKey
    else if x = ':' && (inFlow || c.gapAt 1) then r.valueMark
    else if x = '*' then r.keyLike fun c => (anchorName c).map fun (n, c) => (.alias n, c)
    else if x = '&' then r.keyLike fun c => (anchorName c).map fun (n, c) => (.anchor n, c)
    else if x = '!' then r.keyLike fun c => (tag inFlow c).map fun (h, s, c) => (.tag h s, c)
    else if x = '|' && !inFlow then r.blockScalar false
    else if x = '>' && !inFlow then r.blockScalar true
    else if x = '\x27' then r.quotedScalar true
    else if x = '"' then r.quotedScalar false
    else if r.startsPlain then r.plainScalar
    else none

/-- Reads tokens until the first one cannot change any more. -/
def fill : Nat → Reader → Option Reader
  | 0, _ => none
  | fuel + 1, r =>
    if r.queue.isEmpty then do fill fuel (← r.readToken)
    else do
      let r ← r.dropStale
      if r.keys.any fun k => k.possible && k.number = r.taken then fill fuel (← r.readToken)
      else return { r with ready := true }

/-- The next token, which stays the next. -/
def peek (r : Reader) : Option (Token × Reader) := do
  let r ← if r.ready then some r else fill (2 * r.cursor.rest.length + 8) r
  let t ← r.queue.head?
  return (t, r)

/-- The reader after the next token. -/
def drop (r : Reader) : Reader :=
  { r with queue := r.queue.drop 1, taken := r.taken + 1, ready := false }

end Reader

end Yaml

end BuildMarkers
