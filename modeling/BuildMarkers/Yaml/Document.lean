import BuildMarkers.Text.Basic
import BuildMarkers.Yaml.Event
/-!
# Documents

A document is what its events say, with every alias led back to the node that
it repeats. A document may break off where the text is wrong; what stands
before that place is there nevertheless, so that a reader finds its own
objections first.
-/

namespace BuildMarkers

namespace Yaml

/-- A part of a document. -/
inductive Item where
  /-- The node that the anchor with this number marks. -/
  | alias (anchor : Nat)
  | scalar (tag : Option Tag) (style : Style) (text : String)
  | sequenceStart
  | sequenceEnd
  | mappingStart
  | mappingEnd
  /-- The text has no document. -/
  | void
  deriving DecidableEq, Repr

/-- A document of a text. -/
structure Document where
  items : List Item
  /-- The anchors by number, each with the items from its node on. The first
  entry for a number counts. -/
  anchors : List (Nat × List Item)
  /-- The document does not break off. -/
  complete : Bool
  deriving Repr

/-- What is known while a document is read. -/
structure Gathering where
  /-- The items in reverse. -/
  items : List Item
  /-- The numbers of the anchors that can be referred to by name. -/
  names : List (String × Nat)
  /-- The positions of the anchors by number, the latest first. -/
  positions : List (Nat × Nat)

namespace Gathering

/-- Nothing is known. -/
def start : Gathering := ⟨[], [], []⟩

/-- Adds an item. -/
def add (g : Gathering) (i : Item) : Gathering := { g with items := i :: g.items }

/-- Adds the first item of a node with its anchor. An anchor is numbered by how
many names are known, so a name that is used again takes the number of the name
that comes next. -/
def addNode (g : Gathering) (anchor : Option String) (i : Item) : Gathering :=
  match anchor with
  | none => g.add i
  | some name =>
    let number := g.names.length
    { items := i :: g.items
      names := (name, number) :: g.names.filter (·.1 ≠ name)
      positions := (number, g.items.length) :: g.positions }

/-- The document that has been gathered. -/
def document (g : Gathering) (complete : Bool) : Document :=
  let items := g.items.reverse
  ⟨items, g.positions.map fun p => (p.1, items.drop p.2), complete⟩

/-- Reads the document at the head of the events. Gives what is left of them,
which is nothing where the document breaks off or the text ends. -/
def read (g : Gathering) : List Event → Document × List Event
  | [] => (g.document false, [])
  | .documentStart :: rest => g.read rest
  | .documentEnd :: rest => (g.document true, rest)
  | .streamEnd :: _ => ((if g.items.isEmpty then g.add .void else g).document true, [.streamEnd])
  | .alias name :: rest =>
    match g.names.lookup name with
    | some number => (g.add (.alias number)).read rest
    | none => (g.document false, [])
  | .scalar p style text :: rest => (g.addNode p.anchor (.scalar p.tag style text)).read rest
  | .sequenceStart p :: rest => (g.addNode p.anchor .sequenceStart).read rest
  | .sequenceEnd :: rest => (g.add .sequenceEnd).read rest
  | .mappingStart p :: rest => (g.addNode p.anchor .mappingStart).read rest
  | .mappingEnd :: rest => (g.add .mappingEnd).read rest

end Gathering

/-- The first document of a text, and whether it is the only one. Bytes that
are no text, or a character that may not stand in one, leave nothing of it. -/
def firstDocument (bytes : List UInt8) : Document × Bool :=
  match Text.decode? bytes with
  | some text =>
    if text.toList.all isAllowed then
      let (document, rest) := Gathering.start.read (eventsOf text.toList)
      (document, rest = [.streamEnd])
    else (⟨[], [], false⟩, false)
  | none => (⟨[], [], false⟩, false)

end Yaml

end BuildMarkers
