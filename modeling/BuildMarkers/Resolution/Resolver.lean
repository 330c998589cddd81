import BuildMarkers.Disk.Basic
import BuildMarkers.Reference.Basic
import BuildMarkers.Text.Case
import BuildMarkers.Workspace.Tree
/-!
# Resolving a reference

A reference is tried by rules, and the first that applies decides. A Cygwin
path stands for the path of the host that it translates to, and an absolute
path is looked up by location; no other rule follows. A relative path is walked
from the container where the tool was running, across projects if need be, and
then looked up by location. Last, the end of the path of every file of the
project is compared with the segments of the reference.

A location is looked up as it is spelled first, and with the symbolic links on
the disk resolved only where that finds nothing.
-/

namespace BuildMarkers

/-! ## Outcomes

What became of a file reference. That no file or more than one is meant is an
outcome like any other. -/

/-- What a reference refers to. -/
inductive Outcome where
  /-- Exactly this file is meant. -/
  | unique (file : Address)
  /-- No file is meant. -/
  | noMatch
  /-- Each of these files may be meant. -/
  | ambiguous (files : List Address)
  deriving DecidableEq, Repr

/-- Where a build log line was printed. -/
structure Site where
  /-- The project that is searched. -/
  project : String
  /-- The directory in which the tool was running. -/
  directory : Route
  deriving DecidableEq, Repr

namespace Site

/-- The site at the location of a project. -/
def ofProject? (t : Tree) (name : String) : Option Site := do
  let root ← t.get? (.ofProject name)
  return ⟨name, ← root.location⟩

end Site

/-! ## The rules -/

/-- How names are compared. -/
inductive CaseRule where
  | sensitive
  | insensitive
  deriving DecidableEq, Repr

namespace CaseRule

/-- The names are the same. -/
def same : CaseRule → String → String → Bool
  | .sensitive, a, b => a == b
  | .insensitive, a, b => a == b || Text.lower a == Text.lower b

/-- The names that end the path are the wanted ones. -/
def endsWith (rule : CaseRule) (segments wanted : List String) : Bool :=
  wanted.length ≤ segments.length &&
    ((segments.drop (segments.length - wanted.length)).zip wanted).all fun p => rule.same p.1 p.2

end CaseRule

/-- What resolution depends on besides the tree. -/
structure Resolver where
  caseRule : CaseRule
  cygwin : CygwinMap
  deriving DecidableEq, Repr

/-- Where a walk through the tree stands. -/
inductive Position where
  /-- Above all projects. -/
  | workspace
  | resource (a : Address)
  deriving DecidableEq, Repr

/-- The only element of the list. -/
def single? {α : Type} : List α → Option α
  | [a] => some a
  | _ => none

namespace Tree

/-- What `find` gives for the route or, where that is nothing, for its other
spellings on the disk. -/
def atLocation (d : Disk) (find : Route → Option Address) (r : Route) : Option Address :=
  find r.normalize <|> ((d.spellings r).drop 1).findSome? find

/-- The file that lies where the route leads. -/
def fileAtLocation (t : Tree) (d : Disk) (preferred : String) (r : Route) : Option Address :=
  atLocation d (t.fileAt preferred) r

/-- The container that lies where the route leads. -/
def containerAtLocation (t : Tree) (d : Disk) (preferred : String) (r : Route) : Option Address :=
  atLocation d (t.containerAt preferred) r

end Tree

namespace Resolver

/-- The outcome of looking up a path of the host. -/
def resolveAbsolute (t : Tree) (d : Disk) (site : Site) (r : Route) : Outcome :=
  match t.fileAtLocation d site.project r with
  | some file => .unique file
  | none => .noMatch

/-- The project with the name, or the only one whose name is the same by the
rule. -/
def project? (rule : CaseRule) (t : Tree) (name : String) : Option Address :=
  if t.hasProject name then some (.ofProject name)
  else (single? (t.projects.filter (rule.same · name))).map .ofProject

/-- The child with the name, or the only one whose name is the same by the
rule. -/
def child? (rule : CaseRule) (t : Tree) (a : Address) (name : String) : Option Address :=
  if (t.get? (a.child name)).isSome then some (a.child name)
  else (single? ((t.children a).filter (rule.same · name))).map a.child

/-- One step of a walk. Above a project there is the workspace, above that
nothing. -/
def step (rule : CaseRule) (t : Tree) (here : Position) (segment : String) : Option Position :=
  if segment = "." then some here
  else if segment = ".." then
    match here with
    | .workspace => none
    | .resource a => some ((a.parent?.map .resource).getD .workspace)
  else
    match here with
    | .workspace => (project? rule t segment).map .resource
    | .resource a => (child? rule t a segment).map .resource

/-- The resource at the end of a walk along the segments. -/
def walk? (rule : CaseRule) (t : Tree) (start : Address) (segments : List String) :
    Option Address :=
  match segments.foldlM (step rule t) (.resource start) with
  | some (.resource a) => some a
  | _ => none

/-- The file that the reference leads to from the directory of the site: along
the tree, or by location. -/
def resolveRelative (r : Resolver) (t : Tree) (d : Disk) (site : Site) (ref : Reference) :
    Option Address :=
  let walked := do
    let start ← t.containerAtLocation d site.project site.directory
    let a ← walk? r.caseRule t start ref.segments
    if t.isFile a then some a else none
  walked <|> t.fileAtLocation d site.project (site.directory.normalize ++ ref.steps)

/-- The choice among several files that match: an exact match in letter case,
then, for a bare name, a file directly in the project. -/
def prefer (rule : CaseRule) (site : Site) (ref : Reference) (found : List Address) : Outcome :=
  let exact :=
    if rule = .insensitive then
      single? (found.filter fun a => CaseRule.endsWith .sensitive a.segments ref.trailingSegments)
    else none
  let inRoot :=
    if ref.isBare then single? (found.filter fun a => a.parent? = some (.ofProject site.project))
    else none
  match exact <|> inRoot with
  | some a => .unique a
  | none => .ambiguous found

/-- The outcome of comparing the end of every file's path with the reference. -/
def search (rule : CaseRule) (t : Tree) (site : Site) (ref : Reference) : Outcome :=
  let wanted := ref.trailingSegments
  if wanted.isEmpty then .noMatch
  else
    match (t.files site.project).filter fun a => rule.endsWith a.segments wanted with
    | [] => .noMatch
    | [a] => .unique a
    | found => prefer rule site ref found

/-- The outcome of the rules for references that are no absolute path. -/
def resolveOpaque (r : Resolver) (t : Tree) (d : Disk) (site : Site) (ref : Reference) : Outcome :=
  match r.resolveRelative t d site ref with
  | some file => .unique file
  | none => search r.caseRule t site ref

/-- What the reference refers to. -/
def resolve (r : Resolver) (t : Tree) (d : Disk) (site : Site) (ref : Reference) : Outcome :=
  if ref.text.isEmpty then .noMatch
  else if r.cygwin.recognizes ref.text then
    match r.cygwin.translate? ref.text with
    | some path =>
      if path.isAbsolute then resolveAbsolute t d site path.route
      else r.resolveOpaque t d site ref
    | none => r.resolveOpaque t d site ref
  else if ref.path.isAbsolute then resolveAbsolute t d site ref.path.route
  else r.resolveOpaque t d site ref

end Resolver

end BuildMarkers
