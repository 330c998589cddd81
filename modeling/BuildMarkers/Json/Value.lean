import BuildMarkers.Text.Basic
/-!
# JSON values

The values that a report is made of, and their written form: every member of an
array or an object stands on a line of its own, two spaces further in than the
line of its bracket, and what has no members is a pair of brackets. Texts are
written as they are except for quotes, backslashes and control characters.
-/

namespace BuildMarkers

namespace Json

/-- A JSON value. -/
inductive Value where
  | number (n : Nat)
  | text (s : String)
  | array (items : List Value)
  /-- The fields in the order in which they are written. -/
  | object (fields : List (String × Value))
  deriving Repr

/-- The written form of a character inside of a text. -/
def escaped (c : Char) : List Char :=
  if c = '"' then ['\\', '"']
  else if c = '\\' then ['\\', '\\']
  else if c = '\x08' then ['\\', 'b']
  else if c = '\x0C' then ['\\', 'f']
  else if c = '\n' then ['\\', 'n']
  else if c = '\r' then ['\\', 'r']
  else if c = '\t' then ['\\', 't']
  else if c.toNat < 0x20 then '\\' :: 'u' :: Text.hexPadded 4 c.toNat
  else [c]

/-- A text in its written form. -/
def quoted (s : String) : List Char := '"' :: s.toList.flatMap escaped ++ ['"']

/-- The start of a line that is `depth` levels in. -/
def margin (depth : Nat) : List Char := '\n' :: List.replicate (2 * depth) ' '

/-- Members `depth` levels in, each on a line of its own. -/
def lines (depth : Nat) (members : List (List Char)) : List Char :=
  [','].intercalate (members.map (margin depth ++ ·))

/-- Members in brackets, the brackets being `depth` levels in. -/
def block (start stop : Char) (depth : Nat) (members : List (List Char)) : List Char :=
  start :: lines (depth + 1) members ++ (if members.isEmpty then [stop] else margin depth ++ [stop])

mutual

/-- The written form of a value that starts `depth` levels in. -/
def write (depth : Nat) : Value → List Char
  | .number n => Nat.toDigits 10 n
  | .text s => quoted s
  | .array items => block '[' ']' depth (writeItems (depth + 1) items)
  | .object fields => block '\x7b' '\x7d' depth (writeFields (depth + 1) fields)

/-- The written forms of the items of an array. -/
def writeItems (depth : Nat) : List Value → List (List Char)
  | [] => []
  | v :: rest => write depth v :: writeItems depth rest

/-- The written forms of the fields of an object. -/
def writeFields (depth : Nat) : List (String × Value) → List (List Char)
  | [] => []
  | (key, v) :: rest => (quoted key ++ [':', ' '] ++ write depth v) :: writeFields depth rest

end

/-- An array whose writing breaks off after these items. -/
def unfinished (items : List Value) : List Char := '[' :: lines 1 (writeItems 1 items)

end Json

end BuildMarkers
