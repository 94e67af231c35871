import ScriptHost.Lua.Value
/-! Patterns: what they match in a text, and what they capture. A match tries the longest repetitions first,
and the shortest ones for a minus sign. Every alternative that is tried apart is a level deeper, and there is a
limit on the depth. -/
namespace ScriptHost.Lua.Pattern
open Text (Bytes)

inductive Fault where
  | tooComplex
  | tooManyCaptures
  | unfinishedCapture
  | noOpenCapture
  | invalidIndex (number : Int)
  | endsInEscape
  | unfinishedSet
  | frontierWithoutSet
  | balanceWithoutEnds
  deriving DecidableEq, Repr

def Fault.message : Fault → String
  | .tooComplex => "pattern too complex"
  | .tooManyCaptures => "too many captures"
  | .unfinishedCapture => "unfinished capture"
  | .noOpenCapture => "invalid pattern capture"
  | .invalidIndex number => s!"invalid capture index %{number}"
  | .endsInEscape => "malformed pattern (ends with '%')"
  | .unfinishedSet => "malformed pattern (missing ']')"
  | .frontierWithoutSet => "missing '[' after '%f' in pattern"
  | .balanceWithoutEnds => "malformed pattern (missing arguments to '%b')"

/-- How far a capture goes. -/
inductive Extent where
  /-- Its end has not been reached. -/
  | unfinished
  /-- It captures a position and no text. -/
  | position
  | length (n : Nat)
  deriving DecidableEq, Repr

structure Capture where
  start : Nat
  extent : Extent
  deriving DecidableEq, Repr

/-- A match ends at a place of the text with the captures so far. -/
abbrev Result := Except Fault (Option (Nat × Array Capture))

structure Match where
  start : Nat
  stop : Nat
  captures : Array Capture

structure Query where
  text : Bytes
  pattern : Bytes

/-- The byte at a place; zero past the end. -/
def byteAt (s : Bytes) (i : Nat) : UInt8 := if h : i < s.size then s[i] else 0

/-- The sign that gives the next byte a meaning, or takes it away. -/
def escape : UInt8 := 37

def inClass (letter c : UInt8) : Bool :=
  let isLower := 97 ≤ c && c ≤ 122
  let isUpper := 65 ≤ c && c ≤ 90
  let isAlpha := isLower || isUpper
  let isGraph := 33 ≤ c && c ≤ 126
  match Char.ofNat letter.toNat with
  | 'a' => isAlpha
  | 'c' => c < 32 || c == 127
  | 'd' => isDigit c
  | 'g' => isGraph
  | 'l' => isLower
  | 'p' => isGraph && !isAlpha && !isDigit c
  | 's' => isSpace c
  | 'u' => isUpper
  | 'w' => isAlpha || isDigit c
  | 'x' => isHexDigit c
  | 'z' => c == 0
  | _ => false

def namesClass (letter : UInt8) : Bool :=
  "acdglpsuwxz".toUTF8.data.contains letter

/-- Whether a byte is in the class after an escape; a capital letter is the complement of a class, and what
names no class stands for itself. -/
def matchesClass (letter c : UInt8) : Bool :=
  let lower := if 65 ≤ letter && letter ≤ 90 then letter + 32 else letter
  if namesClass lower then inClass lower c == (lower == letter) else letter == c

namespace Query

def at_ (q : Query) (i : Nat) : UInt8 := byteAt q.pattern i

/-- The place after a set whose bytes start at a place. The first of them can be the closing bracket. -/
def setEnd (q : Query) : Nat → Nat → Except Fault Nat
  | 0, _ => .error .unfinishedSet
  | fuel + 1, i =>
    if q.pattern.size ≤ i then .error .unfinishedSet
    else
      let next := if q.at_ i == escape && i + 1 < q.pattern.size then i + 2 else i + 1
      if q.at_ next == 93 then .ok (next + 1) else setEnd q fuel next

def itemEnd (q : Query) (i : Nat) : Except Fault Nat :=
  if q.at_ i == escape then
    if i + 1 < q.pattern.size then .ok (i + 2) else .error .endsInEscape
  else if q.at_ i == 91 then
    q.setEnd (q.pattern.size + 1) (if q.at_ (i + 1) == 94 then i + 2 else i + 1)
  else .ok (i + 1)

def amongSet (q : Query) (c : UInt8) (last : Nat) : Nat → Nat → Bool
  | 0, _ => false
  | fuel + 1, i =>
    if last ≤ i then false
    else if q.at_ i == escape then
      matchesClass (q.at_ (i + 1)) c || amongSet q c last fuel (i + 2)
    else if q.at_ (i + 1) == 45 && i + 2 < last then
      (q.at_ i ≤ c && c ≤ q.at_ (i + 2)) || amongSet q c last fuel (i + 3)
    else q.at_ i == c || amongSet q c last fuel (i + 1)

def inSet (q : Query) (c : UInt8) (start last : Nat) : Bool :=
  if q.at_ (start + 1) == 94 then !q.amongSet c last (q.pattern.size + 1) (start + 2)
  else q.amongSet c last (q.pattern.size + 1) (start + 1)

def matchesOne (q : Query) (s i itemEnd : Nat) : Bool :=
  if h : s < q.text.size then
    let c := q.text[s]
    let first := q.at_ i
    if first == 46 then true
    else if first == escape then matchesClass (q.at_ (i + 1)) c
    else if first == 91 then q.inSet c i (itemEnd - 1)
    else first == c
  else false

/-- The number of bytes in a row, but not more than a bound, that an item matches. -/
def countOnes (q : Query) (i itemEnd : Nat) : Nat → Nat → Nat
  | 0, _ => 0
  | fuel + 1, s => if q.matchesOne s i itemEnd then countOnes q i itemEnd fuel (s + 1) + 1 else 0

/-- The first success among the places from so many bytes on down to a place. -/
def longest (attempt : Nat → Result) (s : Nat) : Nat → Result
  | 0 => attempt s
  | n + 1 =>
    match attempt (s + n + 1) with
    | .ok none => longest attempt s n
    | result => result

/-- The first success among the places from one on, as long as an item matches. -/
def shortestRun (q : Query) (attempt : Nat → Result) (i itemEnd : Nat) : Nat → Nat → Result
  | 0, _ => .ok none
  | fuel + 1, s =>
    match attempt s with
    | .ok none => if q.matchesOne s i itemEnd then shortestRun q attempt i itemEnd fuel (s + 1) else .ok none
    | result => result

def balanced? (q : Query) (opening closing : UInt8) : Nat → Nat → Nat → Option Nat
  | 0, _, _ => none
  | fuel + 1, depth, s =>
    if q.text.size ≤ s then none
    else
      let c := byteAt q.text s
      if c == closing then
        if depth == 1 then some (s + 1) else balanced? q opening closing fuel (depth - 1) (s + 1)
      else if c == opening then balanced? q opening closing fuel (depth + 1) (s + 1)
      else balanced? q opening closing fuel depth (s + 1)

def latestOpen? (captures : Array Capture) : Option Nat :=
  (List.range captures.size).reverse.find? fun l => (captures[l]?.map (·.extent)) == some .unfinished

def captureLimit : Nat := 32

def startCapture (deeper : Nat → Nat → Array Capture → Result) (captures : Array Capture) (extent : Extent)
    (s next : Nat) : Result :=
  if captureLimit ≤ captures.size then .error .tooManyCaptures
  else deeper s next (captures.push ⟨s, extent⟩)

def endCapture (deeper : Nat → Nat → Array Capture → Result) (captures : Array Capture) (s next : Nat) :
    Result :=
  match latestOpen? captures with
  | none => .error .noOpenCapture
  | some l => deeper s next (captures.modify l fun c => { c with extent := .length (s - c.start) })

/-- The place after a second occurrence of a captured text. -/
def repeated? (q : Query) (captures : Array Capture) (digit : UInt8) (s : Nat) :
    Except Fault (Option Nat) :=
  let number : Int := (digit.toNat : Int) - 48
  match if number < 1 then none else captures[number.toNat - 1]? with
  | none | some ⟨_, .unfinished⟩ => .error (.invalidIndex number)
  | some ⟨_, .position⟩ => .ok none
  | some ⟨start, .length n⟩ =>
    if q.text.size < s + n then .ok none
    else .ok (if q.text.extract start (start + n) == q.text.extract s (s + n) then some (s + n) else none)

def matchItem (q : Query) (deeper : Nat → Nat → Array Capture → Result)
    (goOn : Nat → Nat → Result) (s i : Nat) (captures : Array Capture) : Result := do
  let last ← q.itemEnd i
  let suffix := q.at_ last
  let rest (s : Nat) : Result := deeper s (last + 1) captures
  let bytesLeft := q.text.size - s
  if suffix == 63 then
    if q.matchesOne s i last then
      match ← rest (s + 1) with
      | some result => return some result
      | none => goOn s (last + 1)
    else goOn s (last + 1)
  else if suffix == 43 then
    if q.matchesOne s i last then longest rest (s + 1) (q.countOnes i last bytesLeft (s + 1))
    else return none
  else if suffix == 42 then
    if q.matchesOne s i last then longest rest s (q.countOnes i last bytesLeft s)
    else goOn s (last + 1)
  else if suffix == 45 then
    if q.matchesOne s i last then q.shortestRun rest i last (bytesLeft + 1) s
    else goOn s (last + 1)
  else if q.matchesOne s i last then goOn (s + 1) last
  else return none

/-- The match of the pattern from a place on with the text from a place on. Alternatives are tried one level
deeper. -/
def matchLevel (q : Query) (deeper : Nat → Nat → Array Capture → Result) :
    Nat → Nat → Nat → Array Capture → Result
  | 0, _, _, _ => .ok none
  | fuel + 1, s, i, captures =>
    let goOn (s i : Nat) : Result := matchLevel q deeper fuel s i captures
    let item (_ : Unit) : Result := q.matchItem deeper goOn s i captures
    if q.pattern.size ≤ i then .ok (some (s, captures))
    else
      match Char.ofNat (q.at_ i).toNat, Char.ofNat (q.at_ (i + 1)).toNat with
      | '(', ')' => startCapture deeper captures .position s (i + 2)
      | '(', _ => startCapture deeper captures .unfinished s (i + 1)
      | ')', _ => endCapture deeper captures s (i + 1)
      | '$', _ =>
        if i + 1 == q.pattern.size then .ok (if s == q.text.size then some (s, captures) else none)
        else item ()
      | '%', 'b' =>
        if q.pattern.size ≤ i + 3 then .error .balanceWithoutEnds
        else if byteAt q.text s != q.at_ (i + 2) || q.text.size ≤ s then .ok none
        else
          match q.balanced? (q.at_ (i + 2)) (q.at_ (i + 3)) (q.text.size - s) 1 (s + 1) with
          | some s => goOn s (i + 4)
          | none => .ok none
      | '%', 'f' =>
        if q.at_ (i + 2) != 91 then .error .frontierWithoutSet
        else do
          let last ← q.itemEnd (i + 2)
          let previous := if s == 0 then 0 else byteAt q.text (s - 1)
          if !q.inSet previous (i + 2) (last - 1) && q.inSet (byteAt q.text s) (i + 2) (last - 1) then
            goOn s last
          else return none
      | '%', c =>
        if c.isDigit then do
          match ← q.repeated? captures (q.at_ (i + 1)) s with
          | some s => goOn s (i + 2)
          | none => return none
        else item ()
      | _, _ => item ()

def matchDepth (q : Query) : Nat → Nat → Nat → Array Capture → Result
  | 0, _, _, _ => .error .tooComplex
  | depth + 1, s, i, captures => q.matchLevel (matchDepth q depth) (q.pattern.size + 1) s i captures

def depthLimit : Nat := 200

def matchAt (q : Query) (s : Nat) : Result := q.matchDepth depthLimit s 0 #[]

def search (q : Query) : Nat → Nat → Except Fault (Option Match)
  | 0, _ => .ok none
  | count + 1, s => do
    match ← q.matchAt s with
    | some (stop, captures) => return some ⟨s, stop, captures⟩
    | none => search q count (s + 1)

/-- What a match captures under a number from zero on. A pattern without captures captures the whole match. -/
def capture (q : Query) (m : Match) (l : Nat) : Except Fault Value :=
  match m.captures[l]? with
  | some ⟨_, .unfinished⟩ => .error .unfinishedCapture
  | some ⟨start, .position⟩ => .ok (.ofNat (start + 1))
  | some ⟨start, .length n⟩ => .ok (.string (q.text.extract start (start + n)))
  | none =>
    if l == 0 then .ok (.string (q.text.extract m.start m.stop)) else .error (.invalidIndex (l + 1))

def captures (q : Query) (m : Match) : Except Fault (List Value) :=
  (List.range m.captures.size).mapM (q.capture m)

/-- All that a match captures; the whole match if there are no captures. -/
def capturesOrWhole (q : Query) (m : Match) : Except Fault (List Value) :=
  (List.range (max m.captures.size 1)).mapM (q.capture m)

end Query

/-- A pattern without the sign that binds it to the start, and whether it had one. -/
def splitAnchor (pattern : Bytes) : Bytes × Bool :=
  if byteAt pattern 0 == 94 then (pattern.extract 1 pattern.size, true) else (pattern, false)

def isPlain (pattern : Bytes) : Bool :=
  let special := "^$*+?.([%-".toUTF8.data
  pattern.data.all fun b => !special.contains b

def findPlain (text sought : Bytes) : Nat → Nat → Option Nat
  | 0, _ => none
  | count + 1, s =>
    if text.extract s (s + sought.size) == sought then some s else findPlain text sought count (s + 1)

end ScriptHost.Lua.Pattern
