import BuildMarkers.Settings.Basic
import BuildMarkers.Yaml.Document
/-!
# Reading settings

Settings are read from a YAML document item by item. A field that is missing
has its default, an unknown one is passed over, and a field that comes twice is
an error. A text may be written as any scalar, and an alias counts as the node
that it repeats. The only error with a text of its own is a schema of another
version; of several errors the first in the document counts, and one in the
document comes before a fault of the YAML text behind it.
-/

namespace BuildMarkers

namespace Settings

open Yaml

/-- Why settings cannot be read. -/
inductive Unreadable where
  /-- The settings are of another version. -/
  | unsupportedSchema (version : String)
  /-- The text is no YAML, or has another form than settings. -/
  | malformed
  deriving DecidableEq, Repr

/-- The text of the error, where it has one. -/
def Unreadable.message? : Unreadable → Option String
  | .unsupportedSchema version =>
    some ("Unsupported schema version: " ++ version ++ ". Expected: " ++ currentSchema)
  | .malformed => none

/-- Where a decoder stands in a document. -/
structure Stand where
  /-- The items that are not read yet. -/
  rest : List Item
  /-- How many aliases have been followed. -/
  jumps : Nat
  deriving Repr

/-- A reader of a value from a document. -/
abbrev Decoder (α : Type) := ReaderT Document (StateT Stand (Except Unreadable)) α

namespace Decoder

/-- The document has another form than settings, or breaks off. -/
def malformed {α : Type} : Decoder α := throw .malformed

/-- The next item, which stays the next. -/
def peek : Decoder Item := do
  match (← get).rest with
  | [] => malformed
  | i :: _ => return i

/-- Passes over the next item. -/
def skip : Decoder Unit := modify fun s => { s with rest := s.rest.tail }

/-- The next item. -/
def next : Decoder Item := do
  let i ← peek
  skip
  return i

/-- Counts an alias that is followed. For every item of the document a hundred
may be. -/
def countJump : Decoder Unit := do
  modify fun s => { s with jumps := s.jumps + 1 }
  if (← read).items.length * 100 < (← get).jumps then malformed

/-- Reads a value whose first item is given to `value`, an alias being followed
first. -/
def node {α : Type} (value : Item → Decoder α) : Decoder α := do
  match ← next with
  | .alias anchor =>
    countJump
    let back := (← get).rest
    match (← read).anchors.lookup anchor with
    | none => malformed
    | some items =>
      modify fun s => { s with rest := items }
      let a ← value (← next)
      modify fun s => { s with rest := back }
      return a
  | i => value i

/-- Reads a text. -/
def text : Decoder String :=
  node fun
    | .scalar _ _ text => return text
    | _ => malformed

/-- Reads a path. -/
def path : Decoder Path := return .ofString (← text)

/-- The rest of the items after a value that stands inside of `depth` others,
or after the last of these. -/
def afterValue? : Nat → List Item → Option (List Item)
  | _, [] => none
  | depth, .sequenceStart :: r | depth, .mappingStart :: r => afterValue? (depth + 1) r
  | depth, .sequenceEnd :: r | depth, .mappingEnd :: r =>
    if depth ≤ 1 then some r else afterValue? (depth - 1) r
  | depth, _ :: r => if depth = 0 then some r else afterValue? depth r

/-- Passes over a value. -/
def ignore : Decoder Unit := do
  match afterValue? 0 (← get).rest with
  | none => malformed
  | some rest => modify fun s => { s with rest }

/-- The item is a scalar that stands for an empty collection. -/
def isOmitted (i : Item) : Bool :=
  match i with
  | .scalar _ .plain "" | .void => true
  | _ => false

/-- Reads the items of a sequence, at most `fuel`. -/
def items {α : Type} (item : Decoder α) : Nat → Decoder (List α)
  | 0 => malformed
  | fuel + 1 => do
    if (← peek) = .sequenceEnd then
      skip
      return []
    else
      let a ← item
      return a :: (← items item fuel)

/-- Reads a sequence. -/
def sequence {α : Type} (item : Decoder α) : Decoder (List α) :=
  node fun i => do
    if i = .sequenceStart then items item ((← get).rest.length + 1)
    else if isOmitted i && i ≠ .void then return []
    else malformed

/-- Reads the entries of a mapping, at most `fuel`. `field` tells how the value
of a known key is read into the fields read so far. -/
def entries {σ : Type} (field : String → Option (σ → Decoder σ)) : Nat → σ → Decoder σ
  | 0, _ => malformed
  | fuel + 1, s => do
    if (← peek) = .mappingEnd then
      skip
      return s
    else
      match field (← text) with
      | some value => entries field fuel (← value s)
      | none =>
        ignore
        entries field fuel s

/-- Reads a mapping. -/
def mapping {σ : Type} (start : σ) (field : String → Option (σ → Decoder σ)) : Decoder σ :=
  node fun i => do
    if i = .mappingStart then entries field ((← get).rest.length + 1) start
    else if isOmitted i then return start
    else malformed

/-- Reads the value of a field that has none yet. -/
def once {α : Type} (known : Option α) (value : Decoder α) : Decoder (Option α) :=
  match known with
  | some _ => malformed
  | none => return some (← value)

/-- The value of a field that must be there. -/
def required {α : Type} : Option α → Decoder α
  | some a => return a
  | none => malformed

/-- The text is one of the words for nothing. -/
def isNullWord (text : String) : Bool :=
  text = "null" || text = "Null" || text = "NULL" || text = "~"

/-- The tag of nothing. -/
def nullTag : Tag := Text.encode "tag:yaml.org,2002:null"

/-- Reads a text or nothing. What is not written plain is a text whatever its
tag, and of the plain ones a tag decides before the word. -/
def optionalText : Decoder (Option String) :=
  node fun
    | .scalar (some tag) .plain text =>
      if tag = nullTag then (if isNullWord text then return none else malformed)
      else return some text
    | .scalar none .plain text => return if text = "" || isNullWord text then none else some text
    | .scalar _ _ text => return some text
    | _ => malformed

end Decoder

open Decoder

/-- Reads a link. -/
def linkDecoder : Decoder LinkedResource := do
  let start : Option String × Option Path := (none, none)
  let (path, target) ← mapping start fun
    | "path" => some fun s => return (← once s.1 text, s.2)
    | "target" => some fun s => return (s.1, ← once s.2 path)
    | _ => none
  return ⟨← required path, ← required target⟩

/-- Reads a project. -/
def projectDecoder : Decoder Project := do
  let start : Option String × Option Path × Option (List LinkedResource) := (none, none, none)
  let (name, location, links) ← mapping start fun
    | "name" => some fun s => return (← once s.1 text, s.2)
    | "location" => some fun s => return (s.1, ← once s.2.1 path, s.2.2)
    | "links" => some fun s => return (s.1, s.2.1, ← once s.2.2 (sequence linkDecoder))
    | _ => none
  return ⟨← required name, ← required location, links.getD []⟩

/-- Reads the projects of a workspace. -/
def workspaceDecoder : Decoder (List Project) := do
  let start : Option (List Project) := none
  let projects ← mapping start fun
    | "projects" => some fun s => once s (sequence projectDecoder)
    | _ => none
  return projects.getD []

/-- The choice with the label. -/
def caseChoice? (label : String) : Option CaseChoice :=
  [.auto, .sensitive, .insensitive].find? (·.label = label)

/-- The word that a tag of one's own consists of, `auto` for `!auto`. -/
def tagWord? : Tag → Option String
  | b :: word => if [b] = Tag.nonSpecific then Text.decode? word else none
  | [] => none

/-- Reads how names are compared: by a word, or by a tag before nothing. -/
def caseDecoder : Decoder CaseChoice :=
  node fun
    | .scalar tag style text =>
      match tag.bind tagWord? with
      | some word => do
        let choice ← required (caseChoice? word)
        if style = .plain && (text = "" || isNullWord text) then return choice else malformed
      | none => required (caseChoice? text)
    | _ => malformed

/-- Reads how file names are matched. -/
def matchingDecoder : Decoder CaseChoice := do
  let start : Option CaseChoice := none
  let choice ← mapping start fun
    | "case" => some fun s => once s caseDecoder
    | _ => none
  return choice.getD .auto

/-- Reads a mount. -/
def mountDecoder : Decoder MountSetting := do
  let start : Option String × Option Path := (none, none)
  let (point, target) ← mapping start fun
    | "prefix" => some fun s => return (← once s.1 text, s.2)
    | "target" => some fun s => return (s.1, ← once s.2 path)
    | _ => none
  return ⟨← required point, ← required target⟩

/-- Reads how Cygwin paths are mapped. -/
def cygwinDecoder : Decoder CygwinSettings := do
  let start : Option (Option String) × Option (List MountSetting) := (none, none)
  let (drives, mounts) ← mapping start fun
    | "cygdrive" => some fun s => return (← once s.1 optionalText, s.2)
    | "mounts" => some fun s => return (s.1, ← once s.2 (sequence mountDecoder))
    | _ => none
  return ⟨drives.getD none, mounts.getD []⟩

/-- Reads the version of the settings, which must be the current one. -/
def schemaDecoder : Decoder String := do
  let version ← text
  if version = currentSchema then return version else throw (.unsupportedSchema version)

/-- The fields of the settings that have been read. -/
structure Fields where
  schema : Option String
  projects : Option (List Project)
  caseChoice : Option CaseChoice
  cygwin : Option CygwinSettings

/-- Reads settings. -/
def decoder : Decoder Settings := do
  let start : Fields := ⟨none, none, none, none⟩
  let f ← mapping start fun
    | "schema" => some fun f => return { f with schema := ← once f.schema schemaDecoder }
    | "workspace" => some fun f => return { f with projects := ← once f.projects workspaceDecoder }
    | "matching" =>
      some fun f => return { f with caseChoice := ← once f.caseChoice matchingDecoder }
    | "cygwin" => some fun f => return { f with cygwin := ← once f.cygwin cygwinDecoder }
    | _ => none
  return {
    schema := f.schema.getD currentSchema
    projects := f.projects.getD []
    caseChoice := f.caseChoice.getD .auto
    cygwin := f.cygwin.getD .none }

/-- The settings that the bytes of a file write. The document must be complete
and the only one. -/
def read (bytes : List UInt8) : Except Unreadable Settings := do
  let (document, single) := firstDocument bytes
  let (settings, _) ← (decoder document).run ⟨document.items, 0⟩
  if document.complete && single then return settings else throw .malformed

end Settings

end BuildMarkers
