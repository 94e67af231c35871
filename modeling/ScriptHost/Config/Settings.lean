import ScriptHost.Config.Json.Writer
import ScriptHost.Config.Toml.Writer
/-! Settings that a document may leave out, the configuration that they come to, and the documents that say them. -/
namespace ScriptHost

structure LibrarySettings where
  math : Option Bool := none
  string : Option Bool := none
  table : Option Bool := none
  utf8 : Option Bool := none
  deriving DecidableEq, Repr

/-- The settings that are given. A libraries section can be given without any of its flags. -/
structure Settings where
  chunkName : Option String := none
  errorTag : Option String := none
  libraries : Option LibrarySettings := none
  prepareExpressions : Option Bool := none
  logLevel : Option LogLevel := none
  deriving DecidableEq, Repr

def LibrarySettings.libraries (settings : LibrarySettings) : Libraries :=
  let start : Libraries := {}
  { math := settings.math.getD start.math
    string := settings.string.getD start.string
    table := settings.table.getD start.table
    utf8 := settings.utf8.getD start.utf8 }

/-- The configuration with the settings that are given and the defaults of the others. -/
def Settings.config (settings : Settings) : Config :=
  let start : Config := {}
  { chunkName := settings.chunkName.getD start.chunkName
    errorTag := settings.errorTag.getD start.errorTag
    libraries := (settings.libraries.map LibrarySettings.libraries).getD start.libraries
    prepareExpressions := settings.prepareExpressions.getD start.prepareExpressions
    logLevel := settings.logLevel.getD start.logLevel }

def ifGiven {α β : Type} (name : String) (write : α → β) : Option α → List (String × β)
  | none => []
  | some a => [(name, write a)]

def LibrarySettings.entries {β : Type} (write : Bool → β) (settings : LibrarySettings) : List (String × β) :=
  ifGiven "math" write settings.math ++ (ifGiven "string" write settings.string ++
    (ifGiven "table" write settings.table ++ ifGiven "utf8" write settings.utf8))

namespace Settings
open Config

def toJson (settings : Settings) : String :=
  Json.object <|
    ifGiven "chunk_name" Json.string settings.chunkName ++ (ifGiven "error_tag" Json.string settings.errorTag ++
      (ifGiven "libraries" (fun l => Json.object (l.entries Json.bool)) settings.libraries ++
        (ifGiven "prepare_expressions" Json.bool settings.prepareExpressions ++
          ifGiven "logging" (fun level => Json.object [("level", Json.string level.name)]) settings.logLevel)))

def lines (entries : List (String × String)) : String :=
  String.join (entries.map fun (key, value) => Toml.line key value)

def sectionText (name : String) : Option (List (String × String)) → String
  | none => ""
  | some entries => "[" ++ name ++ "]\n" ++ lines entries

/-- The TOML text of the settings that are given: the plain ones first, then the sections that are needed. -/
def toToml (settings : Settings) : String :=
  lines (ifGiven "chunk_name" Toml.string settings.chunkName ++ (ifGiven "error_tag" Toml.string settings.errorTag ++
      ifGiven "prepare_expressions" Toml.bool settings.prepareExpressions)) ++
    (sectionText "libraries" (settings.libraries.map (·.entries Toml.bool)) ++
      sectionText "logging" (settings.logLevel.map fun level => [("level", Toml.string level.name)]))

example : toToml { chunkName := some "a\"b", libraries := some { utf8 := some true }, logLevel := some .warn } =
    "chunk_name = \"a\\\"b\"\n[libraries]\nutf8 = true\n[logging]\nlevel = \"Warn\"\n" := by decide

end Settings
end ScriptHost
