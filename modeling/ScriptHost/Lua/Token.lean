import ScriptHost.Lua.Number
/-! Tokens of scripts, and how messages spell them. -/
namespace ScriptHost.Lua
open Text (Bytes)

inductive Keyword where
  | and | break | do | else | elseif | end | false | for | function | goto | if | in
  | local | nil | not | or | repeat | return | then | true | until | while
  deriving DecidableEq, Repr

namespace Keyword

def all : List Keyword :=
  [.and, .break, .do, .else, .elseif, .end, .false, .for, .function, .goto, .if, .in, .local, .nil,
    .not, .or, .repeat, .return, .then, .true, .until, .while]

def spelling : Keyword → String
  | .and => "and" | .break => "break" | .do => "do" | .else => "else" | .elseif => "elseif"
  | .end => "end" | .false => "false" | .for => "for" | .function => "function" | .goto => "goto"
  | .if => "if" | .in => "in" | .local => "local" | .nil => "nil" | .not => "not" | .or => "or"
  | .repeat => "repeat" | .return => "return" | .then => "then" | .true => "true"
  | .until => "until" | .while => "while"

def ofBytes? (s : Bytes) : Option Keyword := all.find? fun k => k.spelling.toUTF8 == s

end Keyword

/-- A token. What is not a token ends the tokens of a text, with the message that says why. -/
inductive Token where
  | name (s : Bytes)
  | string (s : Bytes)
  | number (n : Number)
  | keyword (k : Keyword)
  /-- A byte that is a token by itself, an operator or not. -/
  | char (b : UInt8)
  | concat
  | dots
  | equal
  | notEqual
  | lessEqual
  | greaterEqual
  | shiftLeft
  | shiftRight
  | floorDivide
  | doubleColon
  | endOfText
  | invalid (message : Bytes)

/-- A token with the line on which it ends, and the bytes it was read from as messages show them. -/
structure Lexeme where
  token : Token
  line : Nat
  spelling : Bytes

def untilNul (s : Bytes) : Bytes :=
  match s.data.toList.findIdx? (· == 0) with
  | some i => s.extract 0 i
  | none => s

def charSpelling (b : UInt8) : Bytes :=
  if 32 ≤ b && b < 127 then ByteArray.mk #[39, b, 39] else s!"'<\\{b.toNat}>'".toUTF8

def Lexeme.near (lexeme : Lexeme) : Bytes :=
  match lexeme.token with
  | .name _ | .string _ | .number _ =>
    ByteArray.mk #[39] ++ untilNul lexeme.spelling ++ ByteArray.mk #[39]
  | .keyword k => ("'" ++ k.spelling ++ "'").toUTF8
  | .char b => charSpelling b
  | .concat => "'..'".toUTF8
  | .dots => "'...'".toUTF8
  | .equal => "'=='".toUTF8
  | .notEqual => "'~='".toUTF8
  | .lessEqual => "'<='".toUTF8
  | .greaterEqual => "'>='".toUTF8
  | .shiftLeft => "'<<'".toUTF8
  | .shiftRight => "'>>'".toUTF8
  | .floorDivide => "'//'".toUTF8
  | .doubleColon => "'::'".toUTF8
  | .endOfText => "<eof>".toUTF8
  | .invalid _ => ByteArray.empty

end ScriptHost.Lua
