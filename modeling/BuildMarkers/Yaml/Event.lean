import BuildMarkers.Yaml.Token
/-!
# Events

The events of a YAML text are its documents in depth-first order: scalars,
aliases, and the starts and ends of collections, with every omitted node as an
empty scalar. Each event is one step of a `Producer`, which knows what may come
next and what comes after that.
-/

namespace BuildMarkers

namespace Yaml

/-- What a node may carry in front of it. -/
structure Properties where
  anchor : Option String
  tag : Option Tag
  deriving DecidableEq, Repr

/-- A part of a YAML text. -/
inductive Event where
  | documentStart
  | documentEnd
  | streamEnd
  | alias (name : String)
  | scalar (properties : Properties) (style : Style) (text : String)
  | sequenceStart (properties : Properties)
  | sequenceEnd
  | mappingStart (properties : Properties)
  | mappingEnd
  deriving DecidableEq, Repr

/-- What a producer is about to read. -/
inductive Expectation where
  /-- The first document, which needs no marker. -/
  | firstDocument
  | nextDocument
  | documentContent
  | documentEnd
  | blockNode
  | blockSequenceFirst
  | blockSequenceEntry
  /-- A hyphen at the column of the key whose value the sequence is. -/
  | indentlessEntry
  | blockMappingFirst
  | blockMappingKey
  | blockMappingValue
  | flowSequenceFirst
  | flowSequenceEntry
  /-- The key of a single pair in a flow sequence. -/
  | pairKey
  | pairValue
  | pairEnd
  | flowMappingFirst
  | flowMappingKey
  | flowMappingValue
  /-- The value of a key without a colon. -/
  | flowMappingNoValue
  | nothing
  deriving DecidableEq, Repr

/-- A producer of events. -/
structure Producer where
  reader : Reader
  expects : Expectation
  /-- What is expected after the open node, the innermost first. -/
  after : List Expectation
  /-- The tag handles of the document and what they stand for. -/
  handles : List (String × Tag)
  deriving Repr

namespace Producer

/-- A producer at the start of the text. The first token says nothing but that
the stream starts. -/
def start (text : List Char) : Option Producer := do
  let (_, r) ← (Reader.start text).peek
  return ⟨r.drop, .firstDocument, [], []⟩

/-- The producer that expects something else. -/
def expect (p : Producer) (e : Expectation) : Producer := { p with expects := e }

/-- The producer that will expect something after the next node. -/
def push (p : Producer) (e : Expectation) : Producer := { p with after := e :: p.after }

/-- The producer at the end of the open node. -/
def pop (p : Producer) : Producer :=
  { p with expects := p.after.headD .nothing, after := p.after.tail }

/-- The next token, which stays the next. -/
def peek (p : Producer) : Option (Token × Producer) := do
  let (t, reader) ← p.reader.peek
  return (t, { p with reader })

/-- The producer after the next token. -/
def drop (p : Producer) : Producer := { p with reader := p.reader.drop }

/-- The producer after the next token, and the token after that. -/
def dropPeek (p : Producer) : Option (Token × Producer) := p.drop.peek

/-- The event of an omitted node. -/
def emptyScalar : Event := .scalar ⟨none, none⟩ .plain ""

/-- Gives an omitted node and expects what comes after it. -/
def omitted (p : Producer) (e : Expectation) : Event × Producer := (emptyScalar, p.expect e)

/-- The anchor and the tag at the place, in either order, the tag with its
handle. -/
def properties (p : Producer) :
    Option (Option String × Option (String × Tag) × Token × Producer) := do
  let (t, p) ← p.peek
  match t with
  | .anchor name =>
    let (t, p) ← p.dropPeek
    match t with
    | .tag handle suffix =>
      let (t, p) ← p.dropPeek
      return (some name, some (handle, suffix), t, p)
    | _ => return (some name, none, t, p)
  | .tag handle suffix =>
    let (t, p) ← p.dropPeek
    match t with
    | .anchor name =>
      let (t, p) ← p.dropPeek
      return (some name, some (handle, suffix), t, p)
    | _ => return (none, some (handle, suffix), t, p)
  | _ => return (none, none, t, p)

/-- The tag that a handle and a suffix stand for. -/
def resolveTag (p : Producer) : Option (String × Tag) → Option (Option Tag)
  | none => some none
  | some (handle, suffix) =>
    if handle.isEmpty then some (some suffix)
    else (p.handles.lookup handle).map fun replacement => some (replacement ++ suffix)

/-- Reads a node. Block collections may start where `block` says so, and a
sequence without indentation where `indentless` does. -/
def node (p : Producer) (block indentless : Bool) : Option (Event × Producer) := do
  let (t, p) ← p.peek
  match t with
  | .alias name => return (.alias name, p.drop.pop)
  | _ =>
    let (anchor, written, t, p) ← p.properties
    let tag ← p.resolveTag written
    let props : Properties := ⟨anchor, tag⟩
    match t with
    | .scalar text style => return (.scalar props style text, p.drop.pop)
    | .flowSequenceStart => return (.sequenceStart props, p.expect .flowSequenceFirst)
    | .flowMappingStart => return (.mappingStart props, p.expect .flowMappingFirst)
    | _ =>
      if indentless && t = .blockEntry then
        return (.sequenceStart props, p.expect .indentlessEntry)
      else if block && t = .blockSequenceStart then
        return (.sequenceStart props, p.expect .blockSequenceFirst)
      else if block && t = .blockMappingStart then
        return (.mappingStart props, p.expect .blockMappingFirst)
      else if anchor.isSome || tag.isSome then
        return (.scalar props .plain "", p.pop)
      else none

/-- The handles that a document has without a directive. -/
def standardHandles : List (String × Tag) :=
  [("!", Tag.nonSpecific), ("!!", Text.encode "tag:yaml.org,2002:")]

/-- Reads the directives of a document. -/
def directives : Nat → Producer → Bool → Option Producer
  | 0, _, _ => none
  | fuel + 1, p, versioned => do
    let (t, p) ← p.peek
    match t with
    | .directive (.version major minor) =>
      if versioned || major ≠ 1 || (minor ≠ 1 && minor ≠ 2) then none
      else directives fuel p.drop true
    | .directive (.tag handle replacement) =>
      if p.handles.any (·.1 = handle) then none
      else directives fuel { p.drop with handles := p.handles ++ [(handle, replacement)] } versioned
    | _ =>
      let standard := standardHandles.filter fun h => !p.handles.any (·.1 = h.1)
      return { p with handles := p.handles ++ standard }

/-- Skips the markers at the end of a document. -/
def skipDocumentEnds : Nat → Producer → Option Producer
  | 0, p => some p
  | fuel + 1, p => do
    let (t, p) ← p.peek
    if t = .documentEnd then skipDocumentEnds fuel p.drop else return p

/-- Reads the start of a document or the end of the stream. -/
def document (p : Producer) (first : Bool) : Option (Event × Producer) := do
  let bound := p.reader.cursor.rest.length + p.reader.queue.length + 2
  let p ← if first then some p else skipDocumentEnds bound p
  let (t, p) ← p.peek
  match t with
  | .streamEnd => return (.streamEnd, p.drop.expect .nothing)
  | .directive _ | .documentStart =>
    let p ← directives bound p false
    let (t, p) ← p.peek
    if t = .documentStart then
      return (.documentStart, (p.drop.push .documentEnd).expect .documentContent)
    else none
  | _ =>
    if first then
      let p ← directives bound p false
      return (.documentStart, (p.push .documentEnd).expect .blockNode)
    else none

/-- Reads an entry of a block sequence. -/
def blockSequenceEntry (p : Producer) : Option (Event × Producer) := do
  let (t, p) ← p.peek
  match t with
  | .blockEntry =>
    let (t, p) ← p.dropPeek
    if t = .blockEntry || t = .blockEnd then return p.omitted .blockSequenceEntry
    else (p.push .blockSequenceEntry).node true false
  | .blockEnd => return (.sequenceEnd, p.drop.pop)
  | _ => none

/-- Reads an entry of a sequence without indentation. -/
def indentlessEntry (p : Producer) : Option (Event × Producer) := do
  let (t, p) ← p.peek
  if t = .blockEntry then
    let (t, p) ← p.dropPeek
    if t = .blockEntry || t = .key || t = .value || t = .blockEnd then
      return p.omitted .indentlessEntry
    else (p.push .indentlessEntry).node true false
  else return (.sequenceEnd, p.pop)

/-- Reads what follows a key or value mark in a block mapping. -/
def blockMappingNode (p : Producer) (next : Expectation) : Option (Event × Producer) := do
  let (t, p) ← p.dropPeek
  if t = .key || t = .value || t = .blockEnd then return p.omitted next
  else (p.push next).node true true

/-- Reads a key of a block mapping. -/
def blockMappingKey (p : Producer) : Option (Event × Producer) := do
  let (t, p) ← p.peek
  match t with
  | .key => p.blockMappingNode .blockMappingValue
  | .blockEnd => return (.mappingEnd, p.drop.pop)
  | _ => none

/-- Reads a value of a block mapping. -/
def blockMappingValue (p : Producer) : Option (Event × Producer) := do
  let (t, p) ← p.peek
  if t = .value then p.blockMappingNode .blockMappingKey
  else return p.omitted .blockMappingKey

/-- Takes the comma between entries of a flow collection, which the first entry
does not have. -/
def comma (p : Producer) (first : Bool) (t : Token) : Option (Token × Producer) :=
  if first then some (t, p) else if t = .flowEntry then p.dropPeek else none

/-- Reads an entry of a flow sequence. -/
def flowSequenceEntry (p : Producer) (first : Bool) : Option (Event × Producer) := do
  let (t, p) ← p.peek
  if t = .flowSequenceEnd then return (.sequenceEnd, p.drop.pop)
  let (t, p) ← p.comma first t
  match t with
  | .key => return (.mappingStart ⟨none, none⟩, p.drop.expect .pairKey)
  | .flowSequenceEnd => return (.sequenceEnd, p.drop.pop)
  | _ => (p.push .flowSequenceEntry).node false false

/-- Reads the key of a single pair. An omitted key takes the next token with
it. -/
def pairKey (p : Producer) : Option (Event × Producer) := do
  let (t, p) ← p.peek
  if t = .value || t = .flowEntry || t = .flowSequenceEnd then return p.drop.omitted .pairValue
  else (p.push .pairValue).node false false

/-- Reads the value of a single pair. -/
def pairValue (p : Producer) : Option (Event × Producer) := do
  let (t, p) ← p.peek
  if t = .value then
    let (t, p) ← p.dropPeek
    if t = .flowEntry || t = .flowSequenceEnd then return p.omitted .pairEnd
    else (p.push .pairEnd).node false false
  else return p.omitted .pairEnd

/-- Ends a single pair. -/
def pairEnd (p : Producer) : Option (Event × Producer) := do
  let (_, p) ← p.peek
  return (.mappingEnd, p.expect .flowSequenceEntry)

/-- Reads a key of a flow mapping. -/
def flowMappingKey (p : Producer) (first : Bool) : Option (Event × Producer) := do
  let (t, p) ← p.peek
  if t = .flowMappingEnd then return (.mappingEnd, p.drop.pop)
  let (t, p) ← p.comma first t
  match t with
  | .key =>
    let (t, p) ← p.dropPeek
    if t = .value || t = .flowEntry || t = .flowMappingEnd then return p.omitted .flowMappingValue
    else (p.push .flowMappingValue).node false false
  | .flowMappingEnd => return (.mappingEnd, p.drop.pop)
  | _ => (p.push .flowMappingNoValue).node false false

/-- Reads a value of a flow mapping. -/
def flowMappingValue (p : Producer) : Option (Event × Producer) := do
  let (t, p) ← p.peek
  if t = .value then
    let (t, p) ← p.dropPeek
    if t = .flowEntry || t = .flowMappingEnd then return p.omitted .flowMappingKey
    else (p.push .flowMappingKey).node false false
  else return p.omitted .flowMappingKey

/-- Reads the next event. -/
def step (p : Producer) : Option (Event × Producer) :=
  match p.expects with
  | .firstDocument => p.document true
  | .nextDocument => p.document false
  | .documentContent => do
    let (t, p) ← p.peek
    match t with
    | .directive _ | .documentStart | .documentEnd | .streamEnd => return (emptyScalar, p.pop)
    | _ => p.node true false
  | .documentEnd => do
    let (t, p) ← p.peek
    let p := if t = .documentEnd then p.drop else p
    return (.documentEnd, { p with handles := [] }.expect .nextDocument)
  | .blockNode => p.node true false
  | .blockSequenceFirst => do (← p.peek).2.drop.blockSequenceEntry
  | .blockSequenceEntry => p.blockSequenceEntry
  | .indentlessEntry => p.indentlessEntry
  | .blockMappingFirst => do (← p.peek).2.drop.blockMappingKey
  | .blockMappingKey => p.blockMappingKey
  | .blockMappingValue => p.blockMappingValue
  | .flowSequenceFirst => do (← p.peek).2.drop.flowSequenceEntry true
  | .flowSequenceEntry => p.flowSequenceEntry false
  | .pairKey => p.pairKey
  | .pairValue => p.pairValue
  | .pairEnd => p.pairEnd
  | .flowMappingFirst => do (← p.peek).2.drop.flowMappingKey true
  | .flowMappingKey => p.flowMappingKey false
  | .flowMappingValue => p.flowMappingValue
  | .flowMappingNoValue => do return (← p.peek).2.omitted .flowMappingKey
  | .nothing => none

/-- The events from the producer on. A text that is wrong somewhere has no last
event `streamEnd`. -/
def events : Nat → Producer → List Event
  | 0, _ => []
  | fuel + 1, p =>
    match p.step with
    | none => []
    | some (.streamEnd, _) => [.streamEnd]
    | some (e, p) => e :: events fuel p

end Producer

/-- The events of a text in order, up to the first place where it is wrong. No
character leads to more than twenty events. -/
def eventsOf (text : List Char) : List Event :=
  match Producer.start text with
  | none => []
  | some p => p.events (20 * text.length + 100)

end Yaml

end BuildMarkers
