/-
# The configuration of a workspace

A workspace is configured by a small YAML document: where the documents are, whether reading is
strict, and how much is told. Every setting has a default, and unknown settings are ignored.

Of a text that is no YAML a user is also told what the YAML library has against it, behind the
wording of `ConfigError.malformed`. That text is the library's own and is left out here.

* `Config`: the configuration, with the defaults.
* `ConfigError`: what can be wrong with it, with the wording in `ConfigError.message`.
* `ConfigFault`: why there is no configuration: an error, or a text that nothing can be said of.
* `Config.parse`, `Config.load`: the configuration that a text writes, and that a file holds.
-/
import ContextAtlas.Files.Tree
import ContextAtlas.LogLevel
import ContextAtlas.Yaml.Value

namespace ContextAtlas

/-- How a workspace is configured. -/
structure Config where
  sourceDirectory : String := "."
  strict : Bool := false
  logLevel : LogLevel := .warning
deriving DecidableEq

/-- What is wrong with a configuration; `label` says where its text is from. -/
inductive ConfigError where
  | missing (path : Path)
  | unreadable (error : FileError)
  | malformed (label : String)
  | notMapping (label : String)
  | notText (label key : String)
  | notTruthValue (label key : String)
  | unknownLevel (label key : String)
deriving DecidableEq

/-- The wording of an error. -/
def ConfigError.message : ConfigError → String
  | .missing path => "Workspace config file not found: " ++ path.text
  | .unreadable e => "Cannot read workspace config file: " ++ e.message
  | .malformed label => "Invalid YAML in " ++ label
  | .notMapping label => label ++ ": workspace config must be a YAML mapping"
  | .notText label key => label ++ ": '" ++ key ++ "' must be a string"
  | .notTruthValue label key => label ++ ": '" ++ key ++ "' must be a boolean"
  | .unknownLevel label key =>
    label ++ ": '" ++ key ++ "' must be one of " ++ String.intercalate ", " LogLevel.names

/-- Why there is no configuration. Besides the errors of a configuration there are three causes
without a message: a value that cannot be what its YAML tag says, bytes that are no text, and a
path that no file can have. -/
inductive ConfigFault where
  | error (e : ConfigError)
  | value (fault : Yaml.Fault)
  | notText
  | unusableName
deriving DecidableEq

namespace Config

/-! ## 1. Settings -/

/-- The settings of a configuration: the pairs of its mapping. -/
abbrev Settings := List (Yaml.Value × Yaml.Value)

/-- The value of a setting. Of a setting that is given twice, the last one counts. -/
def setting? (settings : Settings) (key : String) : Option Yaml.Value :=
  (settings.reverse.find? fun (k, _) => k = .text key).map (·.2)

/-- A setting that is a text. -/
def text? (label : String) (settings : Settings) (key : String) :
    Except ConfigError (Option String) :=
  match setting? settings key with
  | none => .ok none
  | some (.text s) => .ok (some s)
  | some _ => .error (.notText label key)

/-- A setting that is a truth value. -/
def truthValue? (label : String) (settings : Settings) (key : String) :
    Except ConfigError (Option Bool) :=
  match setting? settings key with
  | none => .ok none
  | some (.bool b) => .ok (some b)
  | some _ => .error (.notTruthValue label key)

/-- A setting that names a log level. -/
def level? (label : String) (settings : Settings) (key : String) :
    Except ConfigError (Option LogLevel) := do
  match ← text? label settings key with
  | none => .ok none
  | some word =>
    match LogLevel.ofWord? word with
    | some level => .ok (some level)
    | none => .error (.unknownLevel label key)

/-! ## 2. Configurations -/

/-- The configuration that some settings make. -/
def ofSettings (label : String) (settings : Settings) : Except ConfigError Config := do
  let sourceDirectory ← text? label settings "source-directory"
  let strict ← truthValue? label settings "strict"
  let logLevel ← level? label settings "log-level"
  let default : Config := {}
  .ok
    { sourceDirectory := sourceDirectory.getD default.sourceDirectory
      strict := strict.getD default.strict
      logLevel := logLevel.getD default.logLevel }

/-- The configuration that a text writes. A text without a document writes the defaults. -/
def parse (label : String) (text : String) : Except ConfigFault Config :=
  match Yaml.load text.toList with
  | .error .malformed => .error (.error (.malformed label))
  | .error fault => .error (.value fault)
  | .ok (.null, _) => .ok {}
  | .ok (.mapping, settings) => (ofSettings label settings).mapError .error
  | .ok _ => .error (.error (.notMapping label))

/-- The configuration that a file holds. -/
def load (files : FileTree) (path : Path) : Except ConfigFault Config :=
  match files.readText path with
  | .ok text => parse path.text text
  | .error (.refused ⟨.absent, _⟩) => .error (.error (.missing path))
  | .error (.refused e) => .error (.error (.unreadable e))
  | .error .notText => .error .notText
  | .error .unusableName => .error .unusableName

/-- The text of a configuration with the defaults. -/
def defaultText : String :=
  let default : Config := {}
  "# CMLModel Workspace Configuration\n"
    ++ "source-directory: " ++ default.sourceDirectory ++ "\n"
    ++ "strict: false\n"
    ++ "log-level: " ++ Spelled.spell default.logLevel ++ "\n"

/-- The name of the file that holds the configuration of a workspace. -/
def fileName : String := ".cmlmodel.yaml"

end Config

end ContextAtlas
