/-! Random numbers from four words of state, each step of which mixes all of them. -/
namespace ScriptHost.Lua

structure Random where
  a : UInt64
  b : UInt64
  c : UInt64
  d : UInt64
  deriving DecidableEq, Repr, Inhabited

namespace Random

def rotate (x : UInt64) (n : UInt64) : UInt64 := (x <<< n) ||| (x >>> (64 - n))

def next (r : Random) : UInt64 × Random :=
  let word := rotate (r.b * 5) 7 * 9
  let c := r.c ^^^ r.a
  let d := r.d ^^^ r.b
  (word, { a := r.a ^^^ d, b := r.b ^^^ c, c := c ^^^ (r.b <<< 17), d := rotate d 45 })

def skip (r : Random) : Nat → Random
  | 0 => r
  | n + 1 => (r.next.2).skip n

/-- The state of two seeds. The first words of it are thrown away. -/
def ofSeeds (first second : UInt64) : Random :=
  skip { a := first, b := 0xff, c := second, d := 0 } 16

/-- The number of tries for a word in a range. -/
def tries : Nat := 1000

def search (bound mask : UInt64) : Nat → UInt64 → Random → UInt64 × Random
  | 0, word, r => (word % (bound + 1), r)
  | fuel + 1, word, r =>
    if word &&& mask ≤ bound then (word &&& mask, r)
    else
      let (word, r) := r.next
      search bound mask fuel word r

/-- A number from zero up to a bound, made from a word and more of them if need be. -/
def project (r : Random) (word bound : UInt64) : UInt64 × Random :=
  if bound &&& (bound + 1) == 0 then (word &&& bound, r)
  else search bound (UInt64.ofNat (Nat.pow 2 (bound.toNat.log2 + 1) - 1)) tries word r

end Random
end ScriptHost.Lua
