import ScriptHost.Error
import ScriptHost.Log
import ScriptHost.Text.Utf8
/-! The configuration of a host: its fields with their defaults, what makes it valid, and overrides from the
environment. -/
namespace ScriptHost

structure Libraries where
  math : Bool := true
  string : Bool := true
  table : Bool := false
  utf8 : Bool := false
  deriving DecidableEq, Repr

def Libraries.enabled (libraries : Libraries) : List String :=
  [("math", libraries.math), ("string", libraries.string), ("table", libraries.table),
    ("utf8", libraries.utf8)].filterMap fun (name, on) => if on then some name else none

structure Config where
  /-- The name under which chunks are loaded; it shows in the messages of scripts. -/
  chunkName : String := "in"
  /-- The tag of reports about script errors. -/
  errorTag : String := "LUA_ERROR"
  libraries : Libraries := {}
  /-- Whether expressions are rewritten before they are read. -/
  prepareExpressions : Bool := false
  logLevel : LogLevel := .info
  deriving DecidableEq, Repr

namespace Config

def validate (config : Config) : Except ConfigError Unit :=
  if config.chunkName.isEmpty then .error (.validation "chunk_name must not be empty")
  else if config.errorTag.isEmpty then .error (.validation "error_tag must not be empty")
  else .ok ()

def parseBool? (text : String) : Option Bool :=
  if text == "true" then some true else if text == "false" then some false else none

/-- The text of a variable of the environment; bytes that are not text count as absent. -/
def textOf? (environment : List (String × Text.Bytes)) (name : String) : Option String :=
  (environment.lookup name).bind String.fromUTF8?

def applyEnvironment (config : Config) (environment : List (String × Text.Bytes)) : Config :=
  { config with
    chunkName := (textOf? environment "LUA_BRIDGE_CHUNK_NAME").getD config.chunkName
    errorTag := (textOf? environment "LUA_BRIDGE_ERROR_TAG").getD config.errorTag
    prepareExpressions :=
      ((textOf? environment "LUA_BRIDGE_PREPARE_EXPRESSIONS").bind parseBool?).getD
        config.prepareExpressions }

end Config
end ScriptHost
