import ScriptHost.Proofs.Memory.Operation
/-! The libraries of mathematics and of encoded text are safe. Most of their functions give numbers. -/
namespace ScriptHost.Lua
open Text (Bytes)
variable {w : World} {args : List Value}

namespace MathFunction

theorem wholeValue_has (whole : Option Int) (x : Float) : w.Has (wholeValue whole x) := by
  unfold wholeValue
  split
  · split <;> trivial
  · trivial

theorem onFloat_safe (f : Float → Float) (args : List Value) : (onFloat f args).Safe w :=
  .seq (Argument.float_safe _ _) fun _ => .pure (by simp)

theorem runFloor_safe (args : List Value) : (runFloor args).Safe w := by
  unfold runFloor
  split
  · exact .pure (by simp)
  · exact .seq (Argument.float_safe _ _) fun _ => .pure (by simp [wholeValue_has])

theorem runCeil_safe (args : List Value) : (runCeil args).Safe w := by
  unfold runCeil
  split
  · exact .pure (by simp)
  · exact .seq (Argument.float_safe _ _) fun _ => .pure (by simp [wholeValue_has])

theorem runFmod_safe (args : List Value) : (runFmod args).Safe w := by
  unfold runFmod
  split
  · exact .seq (Argument.require_safe _ _ _) fun _ => .pure (by simp)
  · exact .seq (Argument.float_safe _ _) fun _ => .seq (Argument.float_safe _ _) fun _ => .pure (by simp)

theorem runModf_safe (args : List Value) : (runModf args).Safe w := by
  unfold runModf
  split
  · exact .pure (by simp)
  · exact .seq (Argument.float_safe _ _) fun _ => .pure (by simp)

theorem runLog_safe (args : List Value) : (runLog args).Safe w := by
  refine .seq (Argument.float_safe _ _) fun x => .ite (.pure (by simp)) ?_
  refine .seq (Argument.float_safe _ _) fun base => ?_
  exact .ite (.pure (by simp)) (.ite (.pure (by simp)) (.pure (by simp)))

theorem extremum_safe {passes : Value → Value → Task Bool}
    (hp : ∀ {w a b}, World.Has w a → World.Has w b → (passes a b).Safe w) {best : Value} (hb : w.Has best)
    {values : List Value} (hv : w.Has values) : (extremum passes best values).Safe w := by
  induction values generalizing best w with
  | nil => exact .pure hb
  | cons v rest ih =>
    obtain ⟨hv, hrest⟩ := (has_list_cons _ _).mp hv
    refine .bind (hp hv hb) fun _ u hu _ => ?_
    exact .ite (ih (hv.later hu) (hrest.later hu)) (ih (hb.later hu) (hrest.later hu))

theorem runExtremum_safe {passes : Value → Value → Task Bool}
    (hp : ∀ {w a b}, World.Has w a → World.Has w b → (passes a b).Safe w) (ha : w.Has args) :
    (runExtremum passes args).Safe w := by
  refine .bind (Argument.any_safe ha 1) fun first u hu hf => ?_
  exact .bind (extremum_safe hp hf (ha.later hu).tail) fun v _ _ hv => .pure (by simpa using hv)

theorem nextWord_safe : nextWord.Safe w :=
  .create fun _ hv => ⟨hv.sound.untouched ⟨rfl, rfl, rfl, rfl, rfl, rfl, rfl⟩, trivial⟩

theorem randomBetween_safe (low high : Int64) (word : UInt64) : (randomBetween low high word).Safe w := by
  refine .seq (Argument.require_safe _ _ _) fun _ => .seq (.create fun v hv => ?_) fun _ => .pure (by simp)
  exact ⟨hv.sound.untouched ⟨rfl, rfl, rfl, rfl, rfl, rfl, rfl⟩, trivial⟩

theorem runRandom_safe (args : List Value) : (runRandom args).Safe w := by
  refine .seq nextWord_safe fun word => ?_
  split
  · exact .pure (by simp)
  · exact .seq (Argument.integer_safe _ _) fun high => .ite (.pure (by simp)) (randomBetween_safe _ _ _)
  · exact .seq (Argument.integer_safe _ _) fun _ => .seq (Argument.integer_safe _ _) fun _ =>
      randomBetween_safe _ _ _
  · exact .failCaller

theorem runRandomseed_safe (args : List Value) : (runRandomseed args).Safe w := by
  have goOn (seeds : Int64 × Int64) : (do
      Task.change fun w => { w with random := .ofSeeds seeds.1.toUInt64 seeds.2.toUInt64 }
      return [.int seeds.1, .int seeds.2] : Task (List Value)).Safe w :=
    .seq (.change_untouched fun _ => ⟨rfl, rfl, rfl, rfl, rfl, rfl, rfl⟩) fun _ => .pure (by simp)
  unfold runRandomseed
  split
  · exact .seq nextWord_safe fun _ => .seq nextWord_safe fun _ => goOn _
  · split
    · exact .seq (.pure trivial) fun _ => .seq (Argument.integerOr_safe _ _ _) fun _ => goOn _
    · refine .seq (Argument.float_safe _ _) fun _ => ?_
      exact .seq (.pure trivial) fun _ => .seq (Argument.integerOr_safe _ _ _) fun _ => goOn _

private theorem abs_safe (args : List Value) :
    (match Argument.get args 1 with
      | .int i => return [Value.int (if i < 0 then -i else i)]
      | _ => onFloat Float.abs args : Task (List Value)).Safe w := by
  split
  · exact .pure (by simp)
  · exact onFloat_safe _ _

theorem run_safe (f : MathFunction) (ha : w.Has args) : (run f args).Safe w := by
  cases f with
  | abs => exact abs_safe args
  | atan =>
    refine .seq (Argument.float_safe _ _) fun y => ?_
    exact .ite (.seq (.pure trivial) fun _ => .pure (by simp))
      (.seq (Argument.float_safe _ _) fun _ => .pure (by simp))
  | ceil => exact runCeil_safe args
  | floor => exact runFloor_safe args
  | fmod => exact runFmod_safe args
  | frexp => exact .seq (Argument.float_safe _ _) fun _ => .pure (by simp)
  | ldexp =>
    exact .seq (Argument.float_safe _ _) fun _ => .seq (Argument.integer_safe _ _) fun _ => .pure (by simp)
  | log => exact runLog_safe args
  | max => exact runExtremum_safe (fun ha hb => Operation.less_safe hb ha) ha
  | min => exact runExtremum_safe (fun ha hb => Operation.less_safe ha hb) ha
  | modf => exact runModf_safe args
  | pow =>
    exact .seq (Argument.float_safe _ _) fun _ => .seq (Argument.float_safe _ _) fun _ => .pure (by simp)
  | random => exact runRandom_safe args
  | randomseed => exact runRandomseed_safe args
  | tointeger =>
    refine .seq (Argument.any_safe ha 1) fun v => .pure ?_
    cases v.toInteger? <;> simp
  | type =>
    refine .seq (Argument.any_safe ha 1) fun v => ?_
    split <;> exact .pure (by simp)
  | ult =>
    exact .seq (Argument.integer_safe _ _) fun _ => .seq (Argument.integer_safe _ _) fun _ => .pure (by simp)
  | _ => exact onFloat_safe _ args

end MathFunction

namespace Utf8Function

theorem charsOf_safe (args : List Value) (count n : Nat) (out : Bytes) : (charsOf args count n out).Safe w := by
  induction count generalizing n out with
  | zero => exact .pure trivial
  | succ count ih =>
    exact .seq (Argument.integer_safe _ _) fun _ => .seq (Argument.require_safe _ _ _) fun _ => ih _ _

theorem codesBetween_safe (s : Bytes) (strict : Bool) (stop : Int) (fuel i : Nat) {found : List Value}
    (hf : w.Has found) : (codesBetween s strict stop fuel i found).Safe w := by
  induction fuel generalizing i found with
  | zero => exact .pure ((has_reverse _).mpr hf)
  | succ fuel ih =>
    refine .ite (.pure ((has_reverse _).mpr hf)) ?_
    split
    · exact ih _ (by simp [hf])
    · exact .failCaller

theorem runCodepoint_safe (args : List Value) : (runCodepoint args).Safe w := by
  refine .seq (Argument.string_safe _ _) fun s => ?_
  refine .seq (Argument.integerOr_safe _ _ _) fun _ => .seq (Argument.integerOr_safe _ _ _) fun _ => ?_
  refine .seq (Argument.require_safe _ _ _) fun _ => .seq (Argument.require_safe _ _ _) fun _ => ?_
  exact codesBetween_safe _ _ _ _ _ has_list_nil

theorem has_countBetween (s : Bytes) (strict : Bool) (last : Int) (fuel : Nat) (i : Int) (count : Nat) :
    w.Has (countBetween s strict last fuel i count) := by
  induction fuel generalizing i count with
  | zero => simp [countBetween]
  | succ fuel ih =>
    unfold countBetween
    split
    · simp
    · split
      · exact ih _ _
      · simp

theorem runLen_safe (args : List Value) : (runLen args).Safe w := by
  refine .seq (Argument.string_safe _ _) fun s => ?_
  refine .seq (Argument.integerOr_safe _ _ _) fun _ => .seq (Argument.integerOr_safe _ _ _) fun _ => ?_
  refine .seq (Argument.require_safe _ _ _) fun _ => .seq (Argument.require_safe _ _ _) fun _ => ?_
  exact .pure (has_countBetween _ _ _ _ _ _)

theorem runOffset_safe (args : List Value) : (runOffset args).Safe w := by
  have placed (found : Option Nat) : w.Has [found.elim Value.nil fun i => .ofNat (i + 1)] := by
    cases found <;> simp
  refine .seq (Argument.string_safe _ _) fun s => .seq (Argument.integer_safe _ _) fun n => ?_
  refine .seq (Argument.integerOr_safe _ _ _) fun _ => .seq (Argument.require_safe _ _ _) fun _ => ?_
  exact .ite (.pure (placed _)) (.ite .failCaller (.ite (.pure (placed _)) (.pure (placed _))))

theorem runStep_safe (strict : Bool) (args : List Value) : (runStep strict args).Safe w := by
  refine .seq (Argument.string_safe _ _) fun s => .ite (.pure has_list_nil) ?_
  split
  · exact .failCaller
  · exact .ite .failCaller (.pure (by simp))

theorem runCodes_safe (args : List Value) : (runCodes args).Safe w := by
  refine .seq (Argument.string_safe _ _) fun s => .bind (Argument.require_safe _ _ _) fun _ u hu _ => .pure ?_
  have hstep (strict : Bool) : u.Has (stepValue strict) := hu.sound.has_builtin _
  simp [hstep]

theorem run_safe (f : Utf8Function) (args : List Value) : (run f args).Safe w := by
  cases f with
  | char => exact .seq (charsOf_safe _ _ _ _) fun _ => .pure (by simp)
  | codepoint => exact runCodepoint_safe args
  | codes => exact runCodes_safe args
  | len => exact runLen_safe args
  | offset => exact runOffset_safe args
  | strictStep => exact runStep_safe true args
  | laxStep => exact runStep_safe false args

end Utf8Function
end ScriptHost.Lua
