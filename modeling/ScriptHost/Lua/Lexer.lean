import ScriptHost.Lua.Token
/-! Splitting the bytes of a script into tokens. Each step takes bytes from the front of the text; the tokens
end with the end of the text, or with the first place where no token can be read. -/
namespace ScriptHost.Lua.Lexer
open Text (Bytes)

/-- Why no token can be read, with the part of the text that the message shows. -/
structure Fault where
  line : Nat
  message : Bytes

def near (message : String) (part : Bytes) : Bytes :=
  (message ++ " near ").toUTF8 ++ part

def quotedPart (part : List UInt8) : Bytes :=
  ByteArray.mk #[39] ++ untilNul ⟨part.toArray⟩ ++ ByteArray.mk #[39]

def faultNear (line : Nat) (message : String) (read : List UInt8) : Fault :=
  ⟨line, near message (quotedPart read.reverse)⟩

def faultAtEnd (line : Nat) (message : String) : Fault := ⟨line, near message "<eof>".toUTF8⟩

def isBreak (b : UInt8) : Bool := b == 10 || b == 13

/-- What follows a line break; the two bytes of a pair in either order break one line. -/
def afterBreak (first : UInt8) : List UInt8 → List UInt8
  | b :: rest => if isBreak b && b != first then rest else b :: rest
  | [] => []

/-- The level of a long bracket after its first bracket, and what follows its second; `none` if the second
does not come after the equals signs. -/
def longLevel? (cs : List UInt8) : Option (Nat × List UInt8) :=
  match cs.dropWhile (· == 61) with
  | 91 :: rest => some ((cs.takeWhile (· == 61)).length, rest)
  | _ => none

/-- Whether a text starts with the end of a long bracket of the given level after its first bracket; and what
follows. -/
def closesLevel? (level : Nat) (cs : List UInt8) : Option (List UInt8) :=
  if (cs.takeWhile (· == 61)).length == level then
    match cs.drop level with
    | 93 :: rest => some rest
    | _ => none
  else none

/-- Reads to the end of a long bracket, onto bytes in reverse. Returns the bytes, the line and the rest;
`none` with the last line at the end of the text. -/
def readLong (level : Nat) :
    Nat → Nat → List UInt8 → List UInt8 → Except Nat (List UInt8 × Nat × List UInt8)
  | 0, line, _, _ => .error line
  | _, line, _, [] => .error line
  | fuel + 1, line, out, b :: rest =>
    if b == 93 then
      match closesLevel? level rest with
      | some rest => .ok (out, line, rest)
      | none => readLong level fuel line (b :: out) rest
    else if isBreak b then readLong level fuel (line + 1) (10 :: out) (afterBreak b rest)
    else readLong level fuel line (b :: out) rest

/-- Reads a long bracket after its opening; a line break right after the opening is not part of it. -/
def readLongBracket (fuel level line : Nat) (cs : List UInt8) :
    Except Nat (List UInt8 × Nat × List UInt8) :=
  match cs with
  | b :: rest =>
    if isBreak b then readLong level fuel (line + 1) [] (afterBreak b rest)
    else readLong level fuel line [] cs
  | [] => .error line

def skipSpace : Nat → Nat → List UInt8 → Except Fault (Nat × List UInt8)
  | 0, line, cs => .ok (line, cs)
  | fuel + 1, line, cs =>
    match cs with
    | 45 :: 45 :: rest =>
      let long := match rest with
        | 91 :: tail => longLevel? tail
        | _ => none
      match long with
      | some (level, body) =>
        match readLongBracket fuel level line body with
        | .ok (_, line, rest) => skipSpace fuel line rest
        | .error last =>
          .error (faultAtEnd last s!"unfinished long comment (starting at line {line})")
      | none => skipSpace fuel line (rest.dropWhile fun b => !isBreak b)
    | b :: rest =>
      if isBreak b then skipSpace fuel (line + 1) (afterBreak b rest)
      else if isSpace b then skipSpace fuel line rest
      else .ok (line, cs)
    | [] => .ok (line, [])

/-- Takes the bytes of a number: digits, points, and exponents with their signs. They come in reverse. -/
def takeNumeral (letter : UInt8) : Nat → List UInt8 → List UInt8 → List UInt8 × List UInt8
  | 0, out, cs => (out, cs)
  | fuel + 1, out, cs =>
    match cs with
    | b :: rest =>
      if b == letter || b == letter - 32 then
        match rest with
        | c :: rest' =>
          if c == 43 || c == 45 then takeNumeral letter fuel (c :: b :: out) rest'
          else takeNumeral letter fuel (b :: out) rest
        | [] => (b :: out, [])
      else if isHexDigit b || b == 46 then takeNumeral letter fuel (b :: out) rest
      else (out, cs)
    | [] => (out, [])

def readNumber (fuel line : Nat) (taken cs : List UInt8) :
    Except Fault (Number × List UInt8 × List UInt8) :=
  let (taken, cs, letter) := match cs with
    | 48 :: x :: rest =>
      if x == 120 || x == 88 then (x :: 48 :: taken, rest, (112 : UInt8))
      else (48 :: taken, x :: rest, 101)
    | _ => (taken, cs, 101)
  let (out, rest) := takeNumeral letter fuel taken cs
  let (out, rest) := match rest with
    | b :: tail => if isLetter b then (b :: out, tail) else (out, rest)
    | [] => (out, rest)
  match Number.read? out.reverse with
  | some n => .ok (n, out, rest)
  | none => .error (faultNear line "malformed number" out)

/-- The bytes of a code point below 2³¹, in the form that goes past the end of the standard. -/
def encodeCodePoint (n : Nat) : List UInt8 :=
  if n < 0x80 then [n.toUInt8]
  else
    let tail (i : Nat) : UInt8 := (0x80 + n / Nat.pow 64 i % 64).toUInt8
    if n < 0x800 then [(0xC0 + n / 64).toUInt8, tail 0]
    else if n < 0x10000 then [(0xE0 + n / Nat.pow 64 2).toUInt8, tail 1, tail 0]
    else if n < 0x200000 then [(0xF0 + n / Nat.pow 64 3).toUInt8, tail 2, tail 1, tail 0]
    else if n < 0x4000000 then [(0xF8 + n / Nat.pow 64 4).toUInt8, tail 3, tail 2, tail 1, tail 0]
    else [(0xFC + n / Nat.pow 64 5).toUInt8, tail 4, tail 3, tail 2, tail 1, tail 0]

private def showNext (shown : List UInt8) : List UInt8 → List UInt8
  | b :: _ => b :: shown
  | [] => shown

def readHexEscape (line : Nat) (shown cs : List UInt8) : Except Fault (UInt8 × List UInt8) :=
  let digit (shown cs : List UInt8) : Except Fault (Nat × List UInt8 × List UInt8) :=
    match cs with
    | b :: rest =>
      match hexDigit? b with
      | some d => .ok (d, b :: shown, rest)
      | none => .error (faultNear line "hexadecimal digit expected" (b :: shown))
    | [] => .error (faultNear line "hexadecimal digit expected" shown)
  do
    let (high, shown, cs) ← digit shown cs
    let (low, _, cs) ← digit shown cs
    return ((high * 16 + low).toUInt8, cs)

def readBraced (line : Nat) : Nat → Nat → List UInt8 → List UInt8 → Except Fault (Nat × List UInt8)
  | 0, _, shown, _ => .error (faultNear line "missing '\x7d'" shown)
  | fuel + 1, n, shown, cs =>
    match cs with
    | b :: rest =>
      match hexDigit? b with
      | some d =>
        if 0x7FFFFFF < n then .error (faultNear line "UTF-8 value too large" (b :: shown))
        else readBraced line fuel (n * 16 + d) (b :: shown) rest
      | none =>
        if b == 125 then .ok (n, rest) else .error (faultNear line "missing '\x7d'" (b :: shown))
    | [] => .error (faultNear line "missing '\x7d'" shown)

def readUnicodeEscape (fuel line : Nat) (shown cs : List UInt8) : Except Fault (Nat × List UInt8) :=
  match cs with
  | 123 :: rest =>
    match rest with
    | b :: rest' =>
      match hexDigit? b with
      | some d => readBraced line fuel d (b :: 123 :: shown) rest'
      | none => .error (faultNear line "hexadecimal digit expected" (b :: 123 :: shown))
    | [] => .error (faultNear line "hexadecimal digit expected" (123 :: shown))
  | _ => .error (faultNear line "missing '\x7b'" (showNext shown cs))

def simpleEscape? (b : UInt8) : Option UInt8 :=
  match b with
  | 97 => some 7
  | 98 => some 8
  | 102 => some 12
  | 110 => some 10
  | 114 => some 13
  | 116 => some 9
  | 118 => some 11
  | 92 => some 92
  | 34 => some 34
  | 39 => some 39
  | _ => none

def skipBlanks : Nat → Nat → List UInt8 → Nat × List UInt8
  | 0, line, cs => (line, cs)
  | fuel + 1, line, cs =>
    match cs with
    | b :: rest =>
      if isBreak b then skipBlanks fuel (line + 1) (afterBreak b rest)
      else if isSpace b then skipBlanks fuel line rest
      else (line, cs)
    | [] => (line, [])

/-- Reads a string to its closing quote. The bytes read come in reverse, with the opening quote last. -/
def readString (quote : UInt8) :
    Nat → Nat → List UInt8 → List UInt8 → Except Fault (List UInt8 × Nat × List UInt8)
  | 0, line, _, _ => .error (faultAtEnd line "unfinished string")
  | fuel + 1, line, out, cs =>
    match cs with
    | [] => .error (faultAtEnd line "unfinished string")
    | b :: rest =>
      if b == quote then .ok (b :: out, line, rest)
      else if isBreak b then .error (faultNear line "unfinished string" out)
      else if b == 92 then
        match rest with
        | [] => readString quote fuel line out []
        | e :: rest' =>
          match simpleEscape? e with
          | some c => readString quote fuel line (c :: out) rest'
          | none =>
            if isBreak e then readString quote fuel (line + 1) (10 :: out) (afterBreak e rest')
            else if e == 120 then do
              let (c, rest) ← readHexEscape line (e :: 92 :: out) rest'
              readString quote fuel line (c :: out) rest
            else if e == 122 then
              let (line, rest) := skipBlanks fuel line rest'
              readString quote fuel line out rest
            else if e == 117 then do
              let (n, rest) ← readUnicodeEscape fuel line (e :: 92 :: out) rest'
              readString quote fuel line ((encodeCodePoint n).reverse ++ out) rest
            else if isDigit e then
              let digits := rest.take 3 |>.takeWhile isDigit
              let n := Number.spell 10 digits
              let tail := rest.drop digits.length
              if 255 < n then
                .error (faultNear line "decimal escape too large"
                  (showNext (digits.reverse ++ 92 :: out) tail))
              else readString quote fuel line (n.toUInt8 :: out) tail
            else .error (faultNear line "invalid escape sequence" (e :: 92 :: out))
      else readString quote fuel line (b :: out) rest

def isNameByte (b : UInt8) : Bool := isLetter b || isDigit b

/-- One token: what it is, the bytes that messages show, the line it ends on, and the rest of the text. -/
structure Step where
  token : Token
  spelling : List UInt8
  line : Nat
  rest : List UInt8

/-- An operator of one byte, or of two if the second follows. -/
private def oneOrTwo (line : Nat) (first second : UInt8) (long : Token) (cs : List UInt8) : Step :=
  match cs with
  | b :: rest => if b == second then ⟨long, [], line, rest⟩ else ⟨.char first, [], line, cs⟩
  | [] => ⟨.char first, [], line, []⟩

theorem length_oneOrTwo_le (line : Nat) (first second : UInt8) (long : Token) (cs : List UInt8) :
    (oneOrTwo line first second long cs).rest.length ≤ cs.length := by
  unfold oneOrTwo
  split
  · split <;> simp
  · exact Nat.le_refl _

theorem token_oneOrTwo (line : Nat) (first second : UInt8) (long : Token) (cs : List UInt8) :
    (oneOrTwo line first second long cs).token = .char first ∨
      (oneOrTwo line first second long cs).token = long := by
  unfold oneOrTwo
  split
  · split
    · exact .inr rfl
    · exact .inl rfl
  · exact .inl rfl

/-- An operator is the same whatever stands behind it, if that cannot be its second byte. -/
theorem oneOrTwo_append {second : UInt8} {tail : List UInt8} (htail : tail.head? ≠ some second) (line : Nat)
    (first : UInt8) (long : Token) (cs : List UInt8) :
    oneOrTwo line first second long (cs ++ tail) =
      { oneOrTwo line first second long cs with
        rest := (oneOrTwo line first second long cs).rest ++ tail } := by
  cases cs with
  | nil =>
    cases tail with
    | nil => rfl
    | cons b rest =>
      have hb : b ≠ second := by simpa using htail
      simp [oneOrTwo, hb]
  | cons b rest =>
    dsimp only [oneOrTwo, List.cons_append]
    split <;> rfl

def readToken (fuel line : Nat) (cs : List UInt8) : Except Fault Step :=
  match cs with
  | [] => .ok ⟨.endOfText, [], line, []⟩
  | b :: rest =>
    if isLetter b then
      let name : Bytes := ⟨(cs.takeWhile isNameByte).toArray⟩
      let token := match Keyword.ofBytes? name with
        | some k => .keyword k
        | none => .name name
      .ok ⟨token, name.data.toList, line, cs.dropWhile isNameByte⟩
    else if isDigit b then do
      let (n, spelling, rest) ← readNumber fuel line [] cs
      return ⟨.number n, spelling.reverse, line, rest⟩
    else if b == 34 || b == 39 then do
      let (out, line, rest) ← readString b fuel line [b] rest
      let spelling := out.reverse
      return ⟨.string ⟨((spelling.drop 1).dropLast).toArray⟩, spelling, line, rest⟩
    else if b == 91 then
      match longLevel? rest with
      | some (level, body) =>
        match readLongBracket fuel level line body with
        | .ok (out, last, rest) =>
          let bracket := List.replicate level 61
          let text := out.reverse
          .ok ⟨.string ⟨text.toArray⟩, 91 :: bracket ++ 91 :: text ++ 93 :: bracket ++ [93], last, rest⟩
        | .error last =>
          .error (faultAtEnd last s!"unfinished long string (starting at line {line})")
      | none =>
        let equals := rest.takeWhile (· == 61)
        if equals.isEmpty then .ok ⟨.char 91, [], line, rest⟩
        else .error (faultNear line "invalid long string delimiter" (equals.reverse ++ [91]))
    else if b == 61 then .ok (oneOrTwo line b 61 .equal rest)
    else if b == 126 then .ok (oneOrTwo line b 61 .notEqual rest)
    else if b == 58 then .ok (oneOrTwo line b 58 .doubleColon rest)
    else if b == 47 then .ok (oneOrTwo line b 47 .floorDivide rest)
    else if b == 60 then
      match rest with
      | 60 :: tail => .ok ⟨.shiftLeft, [], line, tail⟩
      | _ => .ok (oneOrTwo line b 61 .lessEqual rest)
    else if b == 62 then
      match rest with
      | 62 :: tail => .ok ⟨.shiftRight, [], line, tail⟩
      | _ => .ok (oneOrTwo line b 61 .greaterEqual rest)
    else if b == 46 then
      match rest with
      | 46 :: 46 :: tail => .ok ⟨.dots, [], line, tail⟩
      | 46 :: tail => .ok ⟨.concat, [], line, tail⟩
      | d :: _ =>
        if isDigit d then do
          let (n, spelling, rest) ← readNumber fuel line [46] rest
          return ⟨.number n, spelling.reverse, line, rest⟩
        else .ok ⟨.char b, [], line, rest⟩
      | [] => .ok ⟨.char b, [], line, []⟩
    else .ok ⟨.char b, [], line, rest⟩

/-- The tokens of a text from a line on, after those already read. The fuel exceeds the number of bytes left
and bounds every loop. -/
def tokensOnto : Nat → Nat → Array Lexeme → List UInt8 → Array Lexeme
  | 0, _, out, _ => out
  | fuel + 1, line, out, cs =>
    let step := do
      let (line, cs) ← skipSpace fuel line cs
      readToken fuel line cs
    match step with
    | .error fault => out.push ⟨.invalid fault.message, fault.line, ByteArray.empty⟩
    | .ok step =>
      let out := out.push ⟨step.token, step.line, ⟨step.spelling.toArray⟩⟩
      match step.token with
      | .endOfText => out
      | _ => tokensOnto fuel step.line out step.rest

/-- The tokens of a text. The last is its end, or says why there are no more. -/
def tokens (text : Bytes) : Array Lexeme :=
  let cs := text.data.toList
  tokensOnto (cs.length + 1) 1 #[] cs

end ScriptHost.Lua.Lexer
