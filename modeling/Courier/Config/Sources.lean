import Courier.Config.Record
import Courier.Config.Route

/-!
# Sources of a configuration

A configuration comes from layers, each laid over the ones before: the defaults, the default file if
there is one, a file that is asked for and has to be there, and the environment.  The files are YAML
documents.
-/

namespace Courier.Config

/-! ## Files -/

/-- The files of a folder and of the folders in it, with their names as seen from there. -/
abbrev Files := List (String × String)

namespace Files

/-- Whether there is a folder at a place. -/
def hasFolder (files : Files) (place : List String) : Bool :=
  place.isEmpty || files.any fun f =>
    let names := f.1.splitOn "/"
    place.isPrefixOf names && decide (place.length < names.length)

/-- Where the parts of a path lead to, from a place. -/
def follow (files : Files) (place : List String) : List String → Option (List String)
  | [] => some place
  | part :: rest =>
    if !files.hasFolder place then none
    else if part == "" || part == "." then follow files place rest
    else if part == ".." then
      if place.isEmpty then none else follow files place.dropLast rest
    else follow files (place ++ [part]) rest

/-- The content of the file that a path leads to.  A path from the root of the file system leads to
none. -/
def content? (files : Files) (path : String) : Option String := do
  guard !(path.startsWith "/")
  let place ← files.follow [] (path.splitOn "/")
  Dictionary.find? ("/".intercalate place) files

/-- The parts of a path up to its last name, last one first. -/
def namedParts (path : String) : List String :=
  (path.splitOn "/").reverse.dropWhile fun p => p == "" || p == "."

/-- Whether a name has an ending: a dot that is not its first character. -/
def hasEnding (name : String) : Bool := (name.toList.drop 1).contains '.'

/-- The path to which an ending is added.  Behind a name that has an ending the path stays as it is,
with a name for what would have none; otherwise it ends with its last name. -/
def pathForEnding? (path : String) : Option String :=
  match namedParts path with
  | [] | ".." :: _ => none
  | name :: before =>
    if hasEnding name then
      some (if path.endsWith "/" then path ++ ".placeholder" else path)
    else some ("/".intercalate (name :: before).reverse)

/-- The content of a YAML file, whose name may be given without its ending. -/
def yaml? (files : Files) (path : String) : Option String :=
  let withEnding (ending : String) : Option String := do
    files.content? ((← pathForEnding? path) ++ ending)
  files.content? path <|> withEnding ".yaml" <|> withEnding ".yml"

end Files

/-- The text of a file without the mark of its encoding. -/
def withoutMark (content : String) : String :=
  match content.toList with
  | '\uFEFF' :: rest => String.ofList rest
  | _ => content

/-- The table of a YAML text, which is a single document or empty. -/
def tableOf? (text : String) : Option (Dictionary Tree) := do
  match ← Yaml.documents text with
  | [] => return []
  | [root] =>
    match ← Tree.ofYaml? root with
    | .table entries => return entries
    | _ => none
  | _ => none

/-! ## Environment -/

/-- What the names of variables for settings begin with, in any case. -/
def variableMark : String := "bus__"

/-- What the value of a variable looks like. -/
def variableValue (value : String) : Tree :=
  match Tree.lowered value with
  | "true" => .bool true
  | "false" => .bool false
  | _ =>
    match Decimal.whole? value.toList, Decimal.setting? value.toList with
    | some n, _ => .whole n
    | none, some x => .number x
    | none, none => .text value

/-- The setting of a variable, if it is one for settings. -/
def settingOf? (name value : String) : Option (String × Tree) :=
  let name := Tree.lowered name
  if name.startsWith variableMark then
    some ((String.ofList (name.toList.drop variableMark.length)).replace "__" ".",
      variableValue value)
  else none

/-! ## Loading -/

/-- What a configuration is loaded from. -/
structure Sources where
  files : Files := []
  /-- The file that is asked for, unless this is empty. -/
  path : Option String := none
  /-- The variables of the environment. -/
  environment : Dictionary String := []
deriving Inhabited

/-- The path of the default file. -/
def defaultPath : String := "config/bus-runtime"

namespace Sources

/-- The layers above the defaults, lowest first; or why a file has none. -/
def layers? (s : Sources) : Except String (List (Dictionary Tree)) := do
  let parsed (text : String) : Except String (Dictionary Tree) :=
    match tableOf? (withoutMark text) with
    | some table => .ok table
    | none => .error "a file is not a well-formed table"
  let default ← match s.files.yaml? defaultPath with
    | none => pure []
    | some text => parsed text
  let asked ← match s.path with
    | none | some "" => pure []
    | some path =>
      match s.files.yaml? path with
      | none => .error "a file is missing"
      | some text => parsed text
  let given := Dictionary.ofList (s.environment.filterMap fun v => settingOf? v.1 v.2)
  return [default, asked, given]

end Sources
end Config

namespace RuntimeConfig

/-- The configuration of some layers, if it is valid. -/
def ofLayers (layers : List (Dictionary Config.Tree)) : Except Failure RuntimeConfig :=
  match Config.runtime? (layers.foldl (fun t entries => t.setAll entries) (.table [])) with
  | none => .error (.configuration (.unreadable "a setting has a value of the wrong kind"))
  | some c => c.validate.map fun _ => c

/-- Load a configuration. -/
def load (s : Config.Sources) : Except Failure RuntimeConfig :=
  match s.layers? with
  | .error reason => .error (.configuration (.unreadable reason))
  | .ok layers => ofLayers layers

/-- The configuration of a YAML document. -/
def ofYaml (document : String) : Except Failure RuntimeConfig :=
  match Config.tableOf? document with
  | none => .error (.configuration (.unreadable "the document is not a well-formed table"))
  | some table => ofLayers [table]

end RuntimeConfig
end Courier
