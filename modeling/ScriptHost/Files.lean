import ScriptHost.Error
import ScriptHost.Text.Utf8
/-! Reading files by path: from a tree of files, or from any function that answers for paths. -/
namespace ScriptHost
open Text (Bytes)

abbrev FileSource := String → Except FileError Bytes

/-- A directory with the files below it, each by the names on its way; a name without bytes is a
directory of its own. -/
structure FileTree where
  entries : List (List String × Option Bytes)

namespace FileTree

inductive Fault where
  | missing
  | isDirectory
  | notDirectory
  | nameTooLong
  | nulInName
  deriving DecidableEq, Repr

def Fault.words : Fault → String × Option Nat
  | .missing => ("No such file or directory", some 2)
  | .isDirectory => ("Is a directory", some 21)
  | .notDirectory => ("Not a directory", some 20)
  | .nameTooLong => ("File name too long", some 36)
  | .nulInName => ("file name contained an unexpected NUL byte", none)

def Fault.failure (fault : Fault) : OsFailure :=
  let (text, number) := fault.words
  { kind := if fault == .missing then .notFound else .other
    text := text ++ (number.map fun n => s!" (os error {n})").getD "" }

def components (path : String) : List String := path.splitOn "/"

def ofList (files : List (String × Option Bytes)) : FileTree :=
  ⟨files.map fun (path, content) =>
    ((components path).filter fun name => name != "" && name != ".", content)⟩

inductive Node where
  | file (content : Bytes)
  | directory

def node? (tree : FileTree) (place : List String) : Option Node :=
  match tree.entries.find? fun entry => entry.1 == place with
  | some (_, some content) => some (.file content)
  | some (_, none) => some .directory
  | none =>
    if place.isEmpty || tree.entries.any fun entry => place.isPrefixOf entry.1 then some .directory
    else none

/-- Follows names from a directory of the tree, kept in reverse. The directories above the root hold
nothing that can be read. -/
def walk (tree : FileTree) : List String → List String → Except Fault Bytes
  | _, [] => .error .isDirectory
  | place, name :: rest =>
    if name == "" || name == "." then walk tree place rest
    else if name == ".." then
      match place with
      | _ :: above => walk tree above rest
      | [] => if rest.all fun n => n == "" || n == "." || n == ".." then .error .isDirectory
        else .error .missing
    else if 255 < name.utf8ByteSize then .error .nameTooLong
    else
      match tree.node? (name :: place).reverse with
      | none => .error .missing
      | some .directory => walk tree (name :: place) rest
      | some (.file content) => if rest.isEmpty then .ok content else .error .notDirectory

def read (tree : FileTree) (path : String) : Except Fault Bytes :=
  if path.contains '\x00' then .error .nulInName
  else if path.isEmpty then .error .missing
  else if 4096 ≤ path.utf8ByteSize then .error .nameTooLong
  else if path.startsWith "/" then
    if (components path).all fun n => n == "" || n == "." || n == ".." then .error .isDirectory
    else .error .missing
  else tree.walk [] (components path)

def source (tree : FileTree) : FileSource := fun path =>
  match tree.read path with
  | .ok content => .ok content
  | .error fault => .error (.ofFailure fault.failure)

def readText (tree : FileTree) (path : String) : Except OsFailure String :=
  match tree.read path with
  | .error fault => .error fault.failure
  | .ok content =>
    match String.fromUTF8? content with
    | some text => .ok text
    | none => .error ⟨.other, "stream did not contain valid UTF-8"⟩

end FileTree
end ScriptHost
