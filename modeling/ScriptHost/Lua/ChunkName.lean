import ScriptHost.Text.Utf8
/-! The name of a script as messages show it. -/
namespace ScriptHost.Lua
open Text (Bytes)

/-- The number of bytes that a shown name may have, with one more for its end. -/
def shownNameLimit : Nat := 60

/-- A script's name in messages. After an equals sign it is shown as it is, and after an at sign as the name
of a file, of which the end counts; anything else is text of which the first line is shown. -/
def shownName (name : Bytes) : Bytes :=
  let dots := "...".toUTF8
  let rest := name.extract 1 name.size
  match name.data.toList.head? with
  | some 61 =>
    if name.size ≤ shownNameLimit then rest else rest.extract 0 (shownNameLimit - 1)
  | some 64 =>
    if name.size ≤ shownNameLimit then rest
    else dots ++ rest.extract (rest.size - (shownNameLimit - 4)) rest.size
  | _ =>
    let room := 45
    let firstLine := match name.data.toList.findIdx? (· == 10) with
      | some i => name.extract 0 i
      | none => name
    let shown :=
      if firstLine.size == name.size && name.size < room then name
      else firstLine.extract 0 room ++ dots
    "[string \"".toUTF8 ++ shown ++ "\"]".toUTF8

end ScriptHost.Lua
