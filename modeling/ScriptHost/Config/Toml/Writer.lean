import ScriptHost.Numeral.Rendering
/-! The parts of a TOML text: strings, truth values and lines. -/
namespace ScriptHost.Config.Toml

def escapeChar (c : Char) : String :=
  match c with
  | '"' => "\\\""
  | '\\' => "\\\\"
  | '\x08' => "\\b"
  | '\t' => "\\t"
  | '\n' => "\\n"
  | '\x0c' => "\\f"
  | '\r' => "\\r"
  | _ =>
    if c.toNat < 32 || c.toNat == 127 then "\\u" ++ Numeral.padZeros 4 (Numeral.digits 16 c.toNat)
    else c.toString

def string (s : String) : String := "\"" ++ String.join (s.toList.map escapeChar) ++ "\""

def line (key value : String) : String := key ++ " = " ++ value ++ "\n"

def bool (b : Bool) : String := if b then "true" else "false"

end ScriptHost.Config.Toml
