import ScriptHost.Config.Basic
import ScriptHost.Numeral.Rendering
/-! The JSON text of a configuration: compact, with the fields in their order. -/
namespace ScriptHost.Config.Json

def escapeChar (c : Char) : String :=
  match c with
  | '"' => "\\\""
  | '\\' => "\\\\"
  | '\x08' => "\\b"
  | '\x0c' => "\\f"
  | '\n' => "\\n"
  | '\r' => "\\r"
  | '\t' => "\\t"
  | _ => if c.toNat < 32 then "\\u" ++ Numeral.padZeros 4 (Numeral.digits 16 c.toNat) else c.toString

def string (s : String) : String := "\"" ++ String.join (s.toList.map escapeChar) ++ "\""

def object (fields : List (String × String)) : String :=
  "\x7b" ++ ",".intercalate (fields.map fun (name, value) => string name ++ ":" ++ value) ++ "\x7d"

def bool (b : Bool) : String := if b then "true" else "false"

end ScriptHost.Config.Json

namespace ScriptHost
open Config.Json

def Libraries.toJson (libraries : Libraries) : String :=
  object [("math", bool libraries.math), ("string", bool libraries.string),
    ("table", bool libraries.table), ("utf8", bool libraries.utf8)]

def Config.toJson (config : Config) : String :=
  object [("chunk_name", string config.chunkName), ("error_tag", string config.errorTag),
    ("libraries", config.libraries.toJson), ("prepare_expressions", bool config.prepareExpressions),
    ("logging", object [("level", string config.logLevel.name)])]

end ScriptHost
