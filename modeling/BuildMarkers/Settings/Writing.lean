import BuildMarkers.Settings.Basic
import BuildMarkers.Yaml.Written
/-!
# Writing settings

The settings as a YAML document, in which a notice shows them. Empty lists and
missing drives are left out, except that the list of projects is always there.
-/

namespace BuildMarkers

namespace Settings

/-- A field with a text. After a block that ends in a break no other one
follows. -/
def textField (indent : Nat) (key text : String) : List Char :=
  let value := Yaml.written (indent + 2) text
  key.toList ++ [':', ' '] ++ value ++ (if value.getLast?.any Yaml.isBreak then [] else ['\n'])

/-- The fields of an item of a list, which starts at a hyphen. -/
def itemFields (indent : Nat) : List (List Char) → List Char
  | [] => []
  | f :: rest =>
    Yaml.margin indent ++ ['-', ' '] ++ f ++ rest.flatMap (Yaml.margin (indent + 2) ++ ·)

/-- A link as an item of a list. -/
def linkItem (indent : Nat) (l : LinkedResource) : List Char :=
  itemFields indent [textField (indent + 2) "path" l.path,
    textField (indent + 2) "target" l.target.display]

/-- A project as an item of a list. -/
def projectItem (indent : Nat) (p : Project) : List Char :=
  let links := if p.links.isEmpty then []
    else ["links:\n".toList ++ p.links.flatMap (linkItem (indent + 2))]
  itemFields indent
    ([textField (indent + 2) "name" p.name,
      textField (indent + 2) "location" p.location.display] ++ links)

/-- A mount as an item of a list. -/
def mountItem (indent : Nat) (m : MountSetting) : List Char :=
  itemFields indent [textField (indent + 2) "prefix" m.point,
    textField (indent + 2) "target" m.target.display]

/-- How Cygwin paths are mapped, after the key. -/
def cygwinFields (c : CygwinSettings) : List Char :=
  let drives := c.drives.toList.flatMap fun d => Yaml.margin 2 ++ textField 2 "cygdrive" d
  let mounts := if c.mounts.isEmpty then []
    else "  mounts:\n".toList ++ c.mounts.flatMap (mountItem 2)
  if c.drives.isNone && c.mounts.isEmpty then " \x7b\x7d\n".toList else '\n' :: drives ++ mounts

/-- The settings as a YAML document. -/
def yaml (s : Settings) : String :=
  let projects := if s.projects.isEmpty then " []\n".toList
    else '\n' :: s.projects.flatMap (projectItem 2)
  String.ofList (textField 0 "schema" s.schema ++ "workspace:\n  projects:".toList ++ projects ++
    "matching:\n".toList ++ Yaml.margin 2 ++ textField 2 "case" s.caseChoice.label ++
    "cygwin:".toList ++ cygwinFields s.cygwin)

/-- The settings as a text to show. -/
def display (s : Settings) : String :=
  let text := s.yaml
  "Configuration:\n" ++ text ++ (if text.toList.getLast? = some '\n' then "" else "\n")

end Settings

end BuildMarkers
