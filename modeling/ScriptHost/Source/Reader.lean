import ScriptHost.Text.Utf8
/-! A reader that hands out a source in one piece. -/
namespace ScriptHost.Source
open Text (Bytes)

/-- A source that is handed out whole at the first request and is at its end from then on. -/
structure Reader where
  source : Bytes
  delivered : Bool := false

namespace Reader

def next (reader : Reader) : Option Bytes × Reader :=
  if reader.delivered then (none, reader) else (some reader.source, { reader with delivered := true })

def nexts (reader : Reader) : Nat → List (Option Bytes) × Reader
  | 0 => ([], reader)
  | n + 1 =>
    let (piece, reader) := reader.next
    let (pieces, reader) := reader.nexts n
    (piece :: pieces, reader)

def drain (reader : Reader) : Bytes :=
  match reader.next with
  | (none, _) => ByteArray.empty
  | (some piece, _) => piece

end Reader
end ScriptHost.Source
