/-
The written form of a structured value.

A value is written as its name with its parts, either on one line (`compact`) or with every
part on a line of its own, set in by four columns (`spread`).  The parts come in already
written; in the spread style their own lines are set in once more, so nesting needs no
depth to be passed around.  A record that does not show all its fields ends in two dots.
-/

namespace PageArena

namespace Text

/-- How the parts of a written value are laid out. -/
inductive Style where
  | compact
  | spread
  deriving DecidableEq, Repr

/-- The text with every line after the first set in by four columns. -/
def setIn (text : String) : String :=
  String.ofList (text.toList.flatMap fun c =>
    if c = '\n' then ['\n', ' ', ' ', ' ', ' '] else [c])

/-- One part on a line of its own. -/
def ownLine (part : String) : String :=
  "    " ++ setIn part ++ ",\n"

/-- A name with positional parts: `Some(4096)`. -/
def tuple (style : Style) (name : String) (parts : List String) : String :=
  match style with
  | .compact => name ++ "(" ++ ", ".intercalate parts ++ ")"
  | .spread => name ++ "(\n" ++ String.join (parts.map ownLine) ++ ")"

/-- A name with named parts.  With `more` set, two dots say that there are further fields. -/
def record (style : Style) (name : String) (fields : List (String × String)) (more : Bool) :
    String :=
  let parts := fields.map fun (field, value) => field ++ ": " ++ value
  match style with
  | .compact =>
    let shown := parts ++ (if more then [".."] else [])
    name ++ " \x7b " ++ ", ".intercalate shown ++ " \x7d"
  | .spread =>
    let dots := if more then "    ..\n" else ""
    name ++ " \x7b\n" ++ String.join (parts.map ownLine) ++ dots ++ "\x7d"

/-- An optional part: `None`, or `Some` around what is there. -/
def optional (style : Style) (value : Option String) : String :=
  match value with
  | none => "None"
  | some text => tuple style "Some" [text]

end Text

end PageArena
