import SpeechRelay.Json.Reader
import SpeechRelay.Settings.Convert
import SpeechRelay.Settings.Path
import SpeechRelay.Toml.Reader

/-!
# Loading settings

Settings are loaded in layers, each over those before: what is set by default, the configuration
file, the environment, and the two variables that name the host and the port of the status server.
A layer sets what it mentions and leaves the rest alone.
-/

set_option autoImplicit false

namespace SpeechRelay.Settings

/-- A configuration file: its name and its text. -/
structure ConfigFile where
  name : String
  text : String

/-- A variable of the environment. -/
structure Variable where
  name : String
  value : String

/-- The default settings as the lowest layer. -/
def defaultLayer : Value := Value.ofJson none default.toJson

/-! ## The file -/

/-- The keys of a file with their values. A file with another name is as good as none. -/
def ConfigFile.entries (f : ConfigFile) : Except LoadError (List (String × Value)) :=
  let members : Option Json → Except LoadError (List (String × Value))
    | some (.object members) => .ok (Value.ofMembers (some (.file f.name)) members)
    | _ => .error .unreadableFile
  if f.name = "config.toml" then members (Toml.ofText f.text)
  else if f.name = "config.json" then members (Json.ofText f.text).toOption
  else .ok []

/-! ## The environment -/

/-- The mark at the front of the names of variables that are settings. -/
def variableMark : List Char := ['a', 'p', 'p', '_', '_']

/-- The characters with a dot for every two underscores. -/
def dotted : List Char → List Char
  | [] => []
  | '_' :: '_' :: cs => '.' :: dotted cs
  | c :: cs => c :: dotted cs

/-- The key that a variable sets, if it sets one. Case does not matter. -/
def Variable.key? (v : Variable) : Option String :=
  let name := (Text.lowered v.name).toList
  if variableMark.isPrefixOf name then
    some (String.ofList (dotted (name.drop variableMark.length)))
  else none

/-- The keys that variables set, with their values; of several variables with one key the last
counts. -/
def environmentEntries : List Variable → List (String × Value)
  | [] => []
  | v :: vs =>
    let rest := environmentEntries vs
    match v.key? with
    | none => rest
    | some key =>
      if rest.any (·.1 = key) then rest
      else (key, .scalar (some .environment) (.text v.value)) :: rest

/-- The value of the variable of exactly that name. -/
def variableValue? (name : String) (vs : List Variable) : Option String :=
  (vs.find? (·.name = name)).map Variable.value

/-- The key that a variable of its own sets, with its value. -/
def ownEntry (name key : String) (vs : List Variable) : List (String × Value) :=
  match variableValue? name vs with
  | some value => [(key, .scalar none (.text value))]
  | none => []

/-! ## All layers -/

/-- The table over which entries have been laid. -/
def assignAll (into : Value) : List (String × Value) → Except Halt Value
  | [] => .ok into
  | (key, v) :: rest => do assignAll (← assignKey key v into) rest

/-- The table of all layers. The inner result is that of the file. -/
def layers (environment : List Variable) (file : Option ConfigFile) :
    Except Halt (Except LoadError Value) :=
  match file.elim (.ok []) ConfigFile.entries with
  | .error why => .ok (.error why)
  | .ok entries =>
    (assignAll defaultLayer
      (entries ++ environmentEntries environment ++ ownEntry "HOST" "server.host" environment ++
        ownEntry "PORT" "server.port" environment)).map .ok

/-- The settings from the environment and the file. The outer result tells whether a limit of the
machine was hit. -/
def load (environment : List Variable) (file : Option ConfigFile) :
    Except Halt (Except LoadError Settings) :=
  (layers environment file).map fun table => table.bind ofValue

end SpeechRelay.Settings
