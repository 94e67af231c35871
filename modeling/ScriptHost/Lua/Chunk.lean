import ScriptHost.Lua.ChunkName
import ScriptHost.Lua.Compiler.Statement
import ScriptHost.Lua.Parser.Statement
import ScriptHost.Lua.Memory
/-! Chunks: texts and compiled functions as the interpreter loads them. A compiled function is a header and the
place of the function among those that were written out. -/
namespace ScriptHost.Lua
open Text (Bytes)

inductive ChunkFault where
  /-- The chunk is malformed. -/
  | malformed (message : Bytes)
  /-- There is an error while the chunk is being read. -/
  | nestedTooDeeply

namespace Chunk

def binaryMark : UInt8 := 27

/-- The header of a compiled function after its mark, in parts, each with the fault of a part that differs. -/
def header : List (Bytes × String) :=
  [("Lua".toUTF8, "not a binary chunk"),
    (ByteArray.mk #[0x54], "version mismatch"),
    (ByteArray.mk #[0], "format mismatch"),
    (ByteArray.mk #[0x19, 0x93, 13, 10, 0x1a, 10], "corrupted chunk"),
    (ByteArray.mk #[4], "Instruction size mismatch"),
    (ByteArray.mk #[8], "lua_Integer size mismatch"),
    (ByteArray.mk #[8], "lua_Number size mismatch"),
    (ByteArray.mk #[0x78, 0x56, 0, 0, 0, 0, 0, 0], "integer format mismatch"),
    (ByteArray.mk #[0, 0, 0, 0, 0, 0x28, 0x77, 0x40], "float format mismatch")]

def truncated : String := "truncated chunk"

/-- Reads the parts of a header from a place on, and gives the place after them. -/
def readHeader (text : Bytes) : Nat → List (Bytes × String) → Except String Nat
  | place, [] => .ok place
  | place, (part, fault) :: rest =>
    let found := text.extract place (place + part.size)
    if found.size < part.size then .error truncated
    else if found == part then readHeader text (place + part.size) rest
    else .error fault

def encode (number : Nat) : Bytes :=
  let head := header.foldl (fun s (part, _) => s ++ part) (ByteArray.mk #[binaryMark])
  (List.range 8).foldl (fun s i => s.push (number / Nat.pow 256 i % 256).toUInt8) head

def decode (text : Bytes) : Except String Nat := do
  let place ← readHeader text 1 header
  if text.size < place + 8 then .error truncated
  else .ok ((text.extract place (place + 8)).data.toList.foldr (fun b n => n * 256 + b.toNat) 0)

def binaryName (name : Bytes) : Bytes :=
  match name.data.toList.head? with
  | some b =>
    if b == 64 || b == 61 then name.extract 1 name.size
    else if b == binaryMark then "binary string".toUTF8
    else name
  | none => name

def readText (name text : Bytes) (levels : Nat) : Except ChunkFault Proto :=
  match Proto.ofText name text levels with
  | .ok proto => .ok proto
  | .error (.malformed line message) =>
    .error (.malformed (shownName name ++ s!":{line}: ".toUTF8 ++ message))
  | .error .nestedTooDeeply => .error .nestedTooDeeply

def readBinary (written : Array Proto) (name text : Bytes) : Except ChunkFault Proto :=
  let fault (reason : String) : ChunkFault :=
    .malformed (untilNul (binaryName name) ++ (": bad binary format (" ++ reason ++ ")").toUTF8)
  match decode text with
  | .error reason => .error (fault reason)
  | .ok number =>
    match written[number]? with
    | some proto => .ok proto
    | none => .error (fault truncated)

/-- The function of a chunk. The mode says with its letters whether texts and compiled functions are wanted;
constructs of a text can nest in so many levels. -/
def read (written : Array Proto) (name text mode : Bytes) (levels : Nat) : Except ChunkFault Proto :=
  let isBinary := text.data.toList.head? == some binaryMark
  let (letter, kind) := if isBinary then (98, "binary") else (116, "text")
  if !mode.data.toList.contains letter then
    .error (.malformed (("attempt to load a " ++ kind ++ " chunk (mode is '").toUTF8 ++ untilNul mode ++
      "')".toUTF8))
  else if isBinary then readBinary written name text
  else readText name text levels

/-- The memory that the reading of a chunk takes. It goes by what its tokens spell. -/
def weight (text : Bytes) : Nat :=
  if text.data.toList.head? == some binaryMark then text.size
  else total (·.token.weight) (Lexer.tokens text)

end Chunk

namespace World

/-- A new function with captured variables of its own, of which the first holds the environment. -/
def addChunk (w : World) (proto : Proto) (environment : Value) : Nat × World :=
  let cells := proto.upvalues.size
  let start := w.cells.size
  let fresh := (Array.replicate cells Value.nil).setIfInBounds 0 environment
  { w with cells := w.cells ++ fresh }.addFunction
    (.closure proto (Array.ofFn fun (i : Fin cells) => start + i))

end World
end ScriptHost.Lua
