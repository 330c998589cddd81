import BuildMarkers.Text.Basic
/-!
# Notices

What a run tells the person who started it, besides its result: each notice
has a level, and a topic that names the part of the program it comes from.
-/

namespace BuildMarkers

/-- How urgent a notice is. -/
inductive Level where
  | error
  | warn
  | info
  deriving DecidableEq, Repr

namespace Level

/-- The word for the level. -/
def label : Level → String
  | .error => "ERROR"
  | .warn => "WARN"
  | .info => "INFO"

end Level

/-- Something that a run tells. -/
structure Notice where
  level : Level
  topic : String
  text : String
  deriving DecidableEq, Repr

/-! ## Filtering notices

Which notices are shown. A filter has directives, each with a threshold for the
topics that start with its own, and the directive with the longest topic
decides. A filter is written as directives between commas, `topic=level` or one
of the two alone, and after a slash a text that a notice has to contain. A
directive that cannot be read is left out and complained about. -/

/-- How much is shown. -/
inductive Threshold where
  | off
  | error
  | warn
  | info
  | debug
  | trace
  deriving DecidableEq, Repr

namespace Threshold

/-- All thresholds, the ones that show less first. -/
def all : List Threshold := [.off, .error, .warn, .info, .debug, .trace]

/-- The word for the threshold. -/
def word : Threshold → String
  | .off => "off"
  | .error => "error"
  | .warn => "warn"
  | .info => "info"
  | .debug => "debug"
  | .trace => "trace"

/-- The threshold that a word names, in any letter case. -/
def ofWord? (word : List Char) : Option Threshold :=
  all.find? fun t => t.word.toList = word.map Char.toLower

/-- Notices of the level are shown. -/
def admits (t : Threshold) : Level → Bool
  | .error => t ≠ .off
  | .warn => t ≠ .off && t ≠ .error
  | .info => t = .info || t = .debug || t = .trace

end Threshold

/-- A threshold for the topics that start with a text. -/
structure Directive where
  /-- What topics start with; every topic where there is none. -/
  topic : Option (List Char)
  threshold : Threshold
  deriving DecidableEq, Repr

namespace Directive

/-- The directive is about the topic. -/
def covers (v : Directive) (topic : String) : Bool :=
  match v.topic with
  | none => true
  | some start => start.isPrefixOf topic.toList

/-- The number of characters that the directive requires. -/
def weight (v : Directive) : Nat := (v.topic.getD []).length

/-- The directive that a part of a filter writes, or what is wrong with it. A
topic alone shows everything. Blanks around the level do not count, and those
behind the topic belong to it. -/
def read (part : List Char) : Except (List Char) Directive :=
  match part.splitOn '=' with
  | [word] =>
    match Threshold.ofWord? (Text.trimChars word) with
    | some threshold => .ok ⟨none, threshold⟩
    | none => .ok ⟨some word, .trace⟩
  | [topic, word] =>
    let word := Text.trimChars word
    if word = [] then .ok ⟨some topic, .trace⟩
    else
      match Threshold.ofWord? word with
      | some threshold => .ok ⟨some topic, threshold⟩
      | none => .error word
  | _ => .error part

end Directive

/-- What decides which notices are shown. -/
structure NoticeFilter where
  directives : List Directive
  /-- What the text of a notice has to contain. -/
  required : Option (List Char)
  deriving DecidableEq, Repr

namespace NoticeFilter

/-- The filter with one threshold for every topic. -/
def uniform (t : Threshold) : NoticeFilter := ⟨[⟨none, t⟩], none⟩

/-- The filter with one more directive, which takes the place of one for the
same topic. -/
def add (f : NoticeFilter) (v : Directive) : NoticeFilter :=
  if f.directives.any (·.topic = v.topic) then
    { f with directives := f.directives.map fun w => if w.topic = v.topic then v else w }
  else { f with directives := f.directives ++ [v] }

/-- The directive that decides about a topic: of those with the most characters
the last. -/
def deciding? (f : NoticeFilter) (topic : String) : Option Directive :=
  (f.directives.filter (·.covers topic)).foldl
    (fun best v => if best.any fun b => v.weight < b.weight then best else some v) none

/-- The characters stand somewhere in the text. -/
def occurs (part : List Char) : List Char → Bool
  | [] => part.isEmpty
  | c :: rest => part.isPrefixOf (c :: rest) || occurs part rest

/-- The notice is shown. -/
def shows (f : NoticeFilter) (n : Notice) : Bool :=
  (f.deciding? n.topic).any (·.threshold.admits n.level) &&
    f.required.all fun part => occurs part n.text.toList

/-- A complaint about a part of a filter. -/
def complaint (part : List Char) (detail : String) : String :=
  "warning: invalid logging spec '" ++ String.ofList part ++ "'" ++ detail ++ ", ignoring it"

/-- The filter with the directives of a written one, and the complaints. -/
def extend (f : NoticeFilter) (text : String) : NoticeFilter × List String :=
  match text.toList.splitOn '/' with
  | parts :: rest =>
    if rest.length ≤ 1 then
      let parts := ((parts.splitOn ',').map Text.trimChars).filter (· ≠ [])
      let (f, complaints) := parts.foldl (fun (f, complaints) part =>
        match Directive.read part with
        | .ok v => (f.add v, complaints)
        | .error wrong => (f, complaints ++ [complaint wrong ""])) (f, [])
      ({ f with required := rest.head? }, complaints)
    else (f, [complaint text.toList " (too many '/'s)"])
  | [] => (f, [])

end NoticeFilter

namespace Notice

/-- A word filled up to five characters. -/
def padded (word : String) : String :=
  word ++ String.ofList (List.replicate (5 - word.length) ' ')

/-- The notice as it is shown. Further lines of its text are indented. -/
def line (n : Notice) : String :=
  let text := n.text.toList.flatMap fun c => if c = '\n' then "\n    ".toList else [c]
  "[" ++ padded n.level.label ++ " " ++ n.topic ++ "] " ++ String.ofList text ++ "\n"

end Notice

end BuildMarkers
