import ScriptHost.Text.Visible
import ScriptHost.Numeral.Rendering
/-! The quoted form of a text: between double quotes, with escapes for quotes, backslashes and every
character that does not show as itself. -/
namespace ScriptHost.Text

def quoteChar (c : Char) : String :=
  if c == '"' then "\\\""
  else if c == '\\' then "\\\\"
  else if c == '\t' then "\\t"
  else if c == '\r' then "\\r"
  else if c == '\n' then "\\n"
  else if c == '\x00' then "\\0"
  else if showsAlone c then c.toString
  else "\\u\x7b" ++ Numeral.digits 16 c.toNat ++ "\x7d"

def quoted (s : String) : String :=
  "\"" ++ s.foldl (fun out c => out ++ quoteChar c) "" ++ "\""

end ScriptHost.Text
