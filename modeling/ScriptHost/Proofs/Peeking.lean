import ScriptHost.Proofs.Request
import ScriptHost.Proofs.Rounding
/-! Integers looked at on the stack. What is found there passes through a floating-point number, so that an integer
of more than 53 digits comes back as another one. -/
namespace ScriptHost.Host
open Numeral

theorem answer_peekInteger (h : Host) (position : Int) :
    h.answer (.peekInteger position) = (.ok (.integerOrNone (h.peekInteger position)), h) := rfl

theorem stack_answer_pushInteger (h : Host) (v : Int64) :
    (h.answer (.pushInteger v)).2.stack = .int v :: h.stack := rfl

theorem at?_top (h : Host) {v : Lua.HostValue} {rest : List Lua.HostValue} (hs : h.stack = v :: rest) :
    h.at? (-1) = some v := by
  have hdepth : h.depth = rest.length + 1 := by rw [depth, hs, List.length_cons]
  have htop : ((rest.length + 1 : Nat) + (-1 : Int) + 1 - 1).toNat = rest.reverse.length := by
    rw [List.length_reverse]
    omega
  have hnegative : (-1 : Int) < 0 := by decide
  rw [at?, hdepth, if_pos hnegative, if_pos (by omega), hs, List.reverse_cons, htop]
  exact List.getElem?_concat_length

theorem peekInteger_pushed (h : Host) (v : Int64) :
    (h.answer (.pushInteger v)).2.peekInteger (-1) = some (truncateToInt64 (ofInt v.toInt)) := by
  rw [peekInteger, at?_top _ (stack_answer_pushInteger h v)]
  rfl

/-- An integer that has been pushed is found on top of the stack, rounded to its first 53 binary digits. It comes back
as it was exactly if no digit is lost or it is the greatest one, and looking at it changes nothing. -/
theorem peek_pushed_iff (h : Host) (v : Int64) :
    let pushed := (h.answer (.pushInteger v)).2
    ∃ w, pushed.answer (.peekInteger (-1)) = (.ok (.integerOrNone (some w)), pushed) ∧
      (w.toInt - v.toInt).natAbs * 2 ^ 53 ≤ v.toInt.natAbs ∧
      (w = v ↔ (∃ m k, m < 2 ^ 53 ∧ v.toInt.natAbs = m * 2 ^ k) ∨ v = Int64.maxValue) := by
  have hlow : -2 ^ 63 ≤ v.toInt := v.le_toInt
  have hhigh : v.toInt < 2 ^ 63 := v.toInt_lt
  have hfound := toInt_truncateToInt64_ofInt (i := v.toInt) (by omega)
  have hnear := rounded_near v.toInt.natAbs
  refine ⟨truncateToInt64 (ofInt v.toInt), by rw [answer_peekInteger, peekInteger_pushed], ?_⟩
  rw [← rounded_eq_self_iff, ← Int64.toInt_inj, ← Int64.toInt_inj, hfound, Int64.toInt_maxValue]
  generalize v.toInt = i at hlow hhigh hnear ⊢
  -- The ends of the range come back, each for another reason.
  by_cases hleast : i = -2 ^ 63
  · subst hleast
    decide
  by_cases hgreatest : i = 2 ^ 63 - 1
  · subst hgreatest
    decide
  generalize rounded i.natAbs = r at hnear ⊢
  by_cases hnegative : i < 0
  · rw [if_pos hnegative]
    by_cases hr : r ≤ 2 ^ 63
    · rw [Int.min_eq_left (by omega), Int.max_eq_right (by omega)]
      omega
    · rw [Int.min_eq_left (by omega), Int.max_eq_left (by omega)]
      omega
  · rw [if_neg hnegative]
    by_cases hr : r < 2 ^ 63
    · rw [Int.min_eq_left (by omega), Int.max_eq_right (by omega)]
      omega
    · rw [Int.min_eq_right (by omega), Int.max_eq_right (by omega)]
      omega

/-- The least positive integer that does not come back. -/
theorem peek_pushed_rounded :
    (((offering []).answer (.pushInteger 9007199254740993)).2.answer (.peekInteger (-1))).1 =
      .ok (.integerOrNone (some 9007199254740992)) :=
  congrArg (fun found => Except.ok (Reply.integerOrNone found)) (by decide +kernel)

end ScriptHost.Host
