import ScriptHost.Proofs.Memory.Operation
/-! The library of strings is safe: formats, searches and replacements, packed values, and arithmetic. -/
namespace ScriptHost.Lua
open Text (Bytes)
variable {w : World} {args : List Value}

instance : Plain UInt8 := ⟨⟩
instance : Plain Numeral.Layout := ⟨⟩
instance : Plain Search.Replacing := ⟨⟩

namespace Format

theorem layout_safe (flags : String) (allowsPrecision : Bool) (body : List UInt8) :
    (layout flags allowsPrecision body).Safe w := by
  unfold layout
  split
  · exact .pure trivial
  · exact .fail trivial

theorem formatText_safe (ha : w.Has args) (n : Nat) (body : List UInt8) : (formatText args n body).Safe w := by
  refine .seq (Task.describe_safe (Argument.has_get ha n)) fun s => .ite (.pure trivial) ?_
  refine .seq (Argument.require_safe _ _ _) fun _ => .seq (layout_safe _ _ _) fun l => ?_
  split <;> exact .pure trivial

theorem formatInteger_safe (flags : String) (show_ : Numeral.Layout → Int64 → String) (args : List Value) (n : Nat)
    (body : List UInt8) : (formatInteger flags show_ args n body).Safe w :=
  .seq (Argument.integer_safe _ _) fun _ => .seq (layout_safe _ _ _) fun _ => .pure trivial

theorem formatFloat_safe (style : Numeral.Layout.Style) (isUpper : Bool) (args : List Value) (n : Nat)
    (body : List UInt8) : (formatFloat style isUpper args n body).Safe w :=
  .seq (Argument.float_safe _ _) fun _ => .seq (layout_safe _ _ _) fun _ => .pure trivial

theorem formatHexadecimal_safe (isUpper : Bool) (args : List Value) (n : Nat) (body : List UInt8) :
    (formatHexadecimal isUpper args n body).Safe w :=
  .seq (layout_safe _ _ _) fun _ => formatFloat_safe _ _ _ _ _

theorem formatAddress_safe (args : List Value) (n : Nat) (body : List UInt8) :
    (formatAddress args n body).Safe w :=
  .seq (layout_safe _ _ _) fun _ => .pure trivial

theorem formatOne_safe (ha : w.Has args) (n : Nat) (body : List UInt8) : (formatOne args n body).Safe w := by
  refine .ite .failCaller ?_
  split
  · exact .seq (layout_safe _ _ _) fun _ => .seq (Argument.integer_safe _ _) fun _ => .pure trivial
  · exact formatInteger_safe _ _ _ _ _
  · exact formatInteger_safe _ _ _ _ _
  · exact formatInteger_safe _ _ _ _ _
  · exact formatInteger_safe _ _ _ _ _
  · exact formatInteger_safe _ _ _ _ _
  · exact formatInteger_safe _ _ _ _ _
  · exact formatHexadecimal_safe _ _ _ _
  · exact formatHexadecimal_safe _ _ _ _
  · exact formatFloat_safe _ _ _ _ _
  · exact formatFloat_safe _ _ _ _ _
  · exact formatFloat_safe _ _ _ _ _
  · exact formatFloat_safe _ _ _ _ _
  · exact formatFloat_safe _ _ _ _ _
  · exact formatAddress_safe _ _ _
  · refine .ite .failCaller (.read_bind fun v hv => ?_)
    split
    · exact .pure trivial
    · exact Argument.fail_safe _ _
  · exact formatText_safe ha n body
  · exact .fail trivial

theorem formatAll_safe (ha : w.Has args) (n : Nat) (out : Bytes) (pieces : List Piece) :
    (formatAll args n out pieces).Safe w := by
  induction pieces generalizing n out w with
  | nil => exact .pure trivial
  | cons piece rest ih =>
    cases piece with
    | byte b => exact ih ha _ _
    | directive body =>
      refine .ite (Argument.fail_safe _ _) ?_
      exact .bind (formatOne_safe ha _ _) fun _ u hu _ => ih (ha.later hu) _ _

theorem run_safe (ha : w.Has args) : (run args).Safe w :=
  .seq (Argument.string_safe _ _) fun _ => .seq (formatAll_safe ha _ _ _) fun _ => .pure (by simp)

end Format

namespace Search
open Pattern (Query Match)

/-- What follows a search can rely on what it gave. -/
theorem check_bind {α β : Type} [Referring β] {outcome : Except Pattern.Fault α} {f : α → Task β}
    (goes : ∀ a, outcome = .ok a → (f a).Safe w) : (check outcome >>= f).Safe w := by
  cases outcome with
  | ok a => exact goes a rfl
  | error fault => exact (.failCaller : (Task.failCaller fault.message : Task β).Safe w)

theorem has_capture {q : Query} {m : Match} {l : Nat} {v : Value} (h : q.capture m l = .ok v) : w.Has v := by
  unfold Query.capture at h
  split at h
  · cases h
  · cases h; simp
  · cases h; simp
  · split at h <;> cases h
    simp

/-- What captures give names nothing. -/
theorem has_captures {q : Query} {m : Match} {places : List Nat} {values : List Value}
    (h : places.mapM (q.capture m) = .ok values) : w.Has values := by
  induction places generalizing values with
  | nil =>
    cases h
    exact has_list_nil
  | cons l rest ih =>
    rw [List.mapM_cons] at h
    rcases hc : q.capture m l with fault | v
    · simp [hc, bind, Except.bind] at h
    · rcases hr : rest.mapM (q.capture m) with fault | vs
      · simp [hc, hr, bind, Except.bind] at h
      · have hvalues : v :: vs = values := by simpa [hc, hr, bind, Except.bind, pure, Except.pure] using h
        rw [← hvalues]
        exact (has_list_cons _ _).mpr ⟨has_capture hc, ih hr⟩

theorem check_capturesOrWhole_safe (q : Query) (m : Match) : (check (q.capturesOrWhole m)).Safe w :=
  check_bind fun _ h => .pure (has_captures h)

theorem runFind_safe (wantsPlace : Bool) (args : List Value) : (runFind wantsPlace args).Safe w := by
  refine .seq (Argument.string_safe _ _) fun text => .seq (Argument.string_safe _ _) fun pattern => ?_
  refine .seq (Argument.integerOr_safe _ _ _) fun position => .ite (.pure (by simp)) (.ite ?_ ?_)
  · split <;> exact .pure (by simp)
  · refine check_bind fun found _ => ?_
    split
    · exact .pure (by simp)
    · refine .ite (check_bind fun values hv => .pure ?_) (check_capturesOrWhole_safe _ _)
      simp [has_captures hv]

theorem runGmatch_safe (args : List Value) : (runGmatch args).Safe w := by
  refine .seq (Argument.string_safe _ _) fun text => .seq (Argument.string_safe _ _) fun pattern => ?_
  refine .seq (Argument.integerOr_safe _ _ _) fun position => ?_
  refine .create_bind (fun v hv => (hv.sound.addFunction _).1) fun v hv => .pure ?_
  simpa using (hv.sound.addFunction _).2

theorem runMatching_safe (place : Nat) (m : Matching) : (runMatching place m).Safe w := by
  refine check_bind fun found _ => ?_
  split
  · exact .pure has_list_nil
  · exact .seq (.change fun v hv => hv.sound.putFunction _ _) fun _ => check_capturesOrWhole_safe _ _

theorem expand_safe (q : Query) (m : Match) : ∀ (out : Bytes) (text : List UInt8), (expand q m out text).Safe w
  | _, [] => .pure trivial
  | _, [_] => .ite .failCaller (.pure trivial)
  | _, _ :: c :: rest =>
    .ite (expand_safe q m _ (c :: rest)) (.ite (expand_safe q m _ rest) (.ite (expand_safe q m _ rest)
      (.ite (check_bind fun _ _ => expand_safe q m _ rest) .failCaller)))

/-- What is found for a match replaces it if it is a text. -/
private theorem replaceBy_safe (found : Value) :
    (if !found.isTrue then return none else
      match found.toBytes? with
      | some s => return some s
      | none => Task.failCaller ("invalid replacement value (a " ++ found.typeName ++ ")") :
        Task (Option Bytes)).Safe w := by
  refine .ite (.pure has_none) ?_
  split
  · exact .pure fun _ _ => trivial
  · exact .failCaller

theorem replacement_safe (q : Query) (m : Match) {by_ : Value} (hb : w.Has by_) :
    (replacement q m by_).Safe w := by
  unfold replacement
  split
  · exact check_bind fun values hv => .seq (.callFirst hb (has_captures hv)) replaceBy_safe
  · exact check_bind fun key hk => .seq (Operation.index_safe hb (has_capture hk) none) replaceBy_safe
  · exact .seq (expand_safe _ _ _ _) fun _ => .seq (.pure (has_string _)) replaceBy_safe

theorem replaceAll_safe (q : Query) {by_ : Value} (hb : w.Has by_) (limit : Int) (anchored : Bool) (fuel : Nat)
    (state : Replacing) : (replaceAll q by_ limit anchored fuel state).Safe w := by
  induction fuel generalizing state w with
  | zero => exact .pure trivial
  | succ fuel ih =>
    refine .ite (.pure trivial) (check_bind fun found _ => ?_)
    dsimp only
    split
    · exact .bind (replacement_safe q _ hb) fun new u hu _ => .ite (.pure trivial) (ih (hb.later hu) _)
    · exact .ite (.ite (.pure trivial) (ih hb _)) (.pure trivial)

theorem runGsub_safe (ha : w.Has args) : (runGsub args).Safe w := by
  have hb := Argument.has_get ha 3
  refine .seq (Argument.string_safe _ _) fun text => .seq (Argument.string_safe _ _) fun pattern => ?_
  refine .seq (Argument.integerOr_safe _ _ _) fun limit => ?_
  dsimp only
  split
  · exact .seq (replaceAll_safe _ hb _ _ _ _) fun _ => .pure (by simp)
  · exact .seq (replaceAll_safe _ hb _ _ _ _) fun _ => .pure (by simp)
  · exact .seq (replaceAll_safe _ hb _ _ _ _) fun _ => .pure (by simp)
  · exact .seq (replaceAll_safe _ hb _ _ _ _) fun _ => .pure (by simp)
  · exact .seq (replaceAll_safe _ hb _ _ _ _) fun _ => .pure (by simp)
  · exact Argument.mismatch_safe _ _ _

end Search

namespace Packing

/-- What follows the reading of a format can rely on what was read. -/
theorem check_bind {α β : Type} [Referring β] {outcome : Except Fault α} {f : α → Task β}
    (goes : ∀ a, outcome = .ok a → (f a).Safe w) : (check outcome >>= f).Safe w := by
  cases outcome with
  | ok a => exact goes a rfl
  | error fault =>
    have stop (message : Bytes) : (Task.fail (.located 1 message) : Task β).Safe w := .fail trivial
    have stopHere (message : String) : (Argument.fail 1 message : Task β).Safe w := Argument.fail_safe _ _
    cases fault with
    | sizeOutOfLimits _ | missingSize | invalidOption _ => exact stop _
    | invalidNext | unevenAlignment => exact stopHere _

theorem packOne_safe (mode : Mode) (item : Item) (args : List Value) (n : Nat) :
    (packOne mode item args n).Safe w := by
  cases item with
  | integer isSigned size =>
    refine .seq (Argument.integer_safe _ _) fun i => ?_
    exact .ite (.seq (Argument.require_safe _ _ _) fun _ => .pure trivial)
      (.seq (Argument.require_safe _ _ _) fun _ => .pure trivial)
  | single | double => exact .seq (Argument.float_safe _ _) fun _ => .pure trivial
  | fixed _ | counted _ | terminated =>
    exact .seq (Argument.string_safe _ _) fun _ => .seq (Argument.require_safe _ _ _) fun _ => .pure trivial
  | _ => exact .pure trivial

theorem packAll_safe (args : List Value) (fuel : Nat) (mode : Mode) (n : Nat) (out : Bytes)
    (letters : List UInt8) : (packAll args fuel mode n out letters).Safe w := by
  induction fuel generalizing mode n out letters with
  | zero => exact .pure trivial
  | succ fuel ih =>
    cases letters with
    | nil => exact .pure trivial
    | cons letter rest =>
      refine check_bind fun ⟨item, rest⟩ _ => check_bind fun gap _ => ?_
      exact .seq (packOne_safe _ _ _ _) fun _ => ih _ _ _ _

theorem runPack_safe (args : List Value) : (runPack args).Safe w :=
  .seq (Argument.string_safe _ _) fun _ => .seq (packAll_safe _ _ _ _ _ _) fun _ => .pure (by simp)

theorem sizeAll_safe (fuel : Nat) (mode : Mode) (total : Nat) (letters : List UInt8) :
    (sizeAll fuel mode total letters).Safe w := by
  induction fuel generalizing mode total letters with
  | zero => exact .pure trivial
  | succ fuel ih =>
    cases letters with
    | nil => exact .pure trivial
    | cons letter rest =>
      refine check_bind fun ⟨item, rest⟩ _ => check_bind fun gap _ => ?_
      dsimp only
      split
      · exact Argument.fail_safe _ _
      · exact Argument.fail_safe _ _
      · exact .seq (Argument.require_safe _ _ _) fun _ => ih _ _ _

theorem runPacksize_safe (args : List Value) : (runPacksize args).Safe w :=
  .seq (Argument.string_safe _ _) fun _ => .seq (sizeAll_safe _ _ _ _) fun _ => .pure (by simp)

theorem integerAt_safe (mode : Mode) (isSigned : Bool) (data : Bytes) (place size : Nat) :
    (integerAt mode isSigned data place size).Safe w := by
  unfold integerAt
  split
  · exact .pure trivial
  · exact .failCaller

theorem unpackOne_safe (mode : Mode) (item : Item) (data : Bytes) (place : Nat) :
    (unpackOne mode item data place).Safe w := by
  cases item with
  | integer isSigned size => exact .seq (integerAt_safe _ _ _ _ _) fun _ => .pure (by simp)
  | counted size =>
    exact .seq (integerAt_safe _ _ _ _ _) fun _ => .seq (Argument.require_safe _ _ _) fun _ => .pure (by simp)
  | terminated =>
    unfold unpackOne
    dsimp only
    split
    · exact .pure (by simp)
    · exact Argument.fail_safe _ _
  | _ => exact .pure (by simp)

theorem unpackAll_safe (data : Bytes) (fuel : Nat) (mode : Mode) (place : Nat) {values : List Value}
    (hv : w.Has values) (letters : List UInt8) : (unpackAll data fuel mode place values letters).Safe w := by
  induction fuel generalizing mode place values letters w with
  | zero => exact .pure (by simp [hv])
  | succ fuel ih =>
    cases letters with
    | nil => exact .pure (by simp [hv])
    | cons letter rest =>
      refine check_bind fun ⟨item, rest⟩ _ => check_bind fun gap _ => ?_
      refine .seq (Argument.require_safe _ _ _) fun _ => ?_
      refine .bind (unpackOne_safe _ _ _ _) fun ⟨v?, place⟩ u hu hnew => ih _ _ ?_ _
      have hv? : u.Has v? := hnew.1
      cases v? with
      | none => simpa using hv.later hu
      | some v => simpa [hv.later hu] using hv?

theorem runUnpack_safe (args : List Value) : (runUnpack args).Safe w := by
  refine .seq (Argument.string_safe _ _) fun format => .seq (Argument.string_safe _ _) fun data => ?_
  refine .seq (Argument.integerOr_safe _ _ _) fun start => .seq (Argument.require_safe _ _ _) fun _ => ?_
  exact unpackAll_safe _ _ _ _ has_list_nil _

end Packing

namespace StringFunction

theorem runByte_safe (args : List Value) : (runByte args).Safe w := by
  refine .seq (Argument.string_safe _ _) fun s => .seq (Argument.integerOr_safe _ _ _) fun position => ?_
  refine .seq (Argument.integerOr_safe _ _ _) fun last => ?_
  refine .ite (.pure has_list_nil) (.ite .failCaller (.pure fun v hv => ?_))
  obtain ⟨b, -, rfl⟩ := List.mem_map.mp hv
  exact has_ofNat _

theorem charsOf_safe (args : List Value) (count n : Nat) (out : Bytes) : (charsOf args count n out).Safe w := by
  induction count generalizing n out with
  | zero => exact .pure trivial
  | succ count ih =>
    exact .seq (Argument.integer_safe _ _) fun _ => .seq (Argument.require_safe _ _ _) fun _ => ih _ _

theorem runRep_safe (args : List Value) : (runRep args).Safe w := by
  refine .seq (Argument.string_safe _ _) fun s => .seq (Argument.integer_safe _ _) fun count => ?_
  refine .seq (Argument.stringOr_safe _ _ _) fun between => .ite (.pure (by simp)) ?_
  exact .ite .failCaller (.pure (by simp))

theorem runSub_safe (args : List Value) : (runSub args).Safe w := by
  refine .seq (Argument.string_safe _ _) fun s => .seq (Argument.integer_safe _ _) fun first => ?_
  exact .seq (Argument.integerOr_safe _ _ _) fun last => .pure (by simp)

theorem runMap_safe (f : UInt8 → UInt8) (args : List Value) : (runMap f args).Safe w :=
  .seq (Argument.string_safe _ _) fun _ => .pure (by simp)

theorem runDump_safe (ha : w.Has args) : (runDump args).Safe w := by
  refine .seq (Argument.function_safe ha 1) fun f => ?_
  split
  · refine .read_bind fun v hv => ?_
    split
    · refine .seq (.create fun u hu => ⟨?_, trivial⟩) fun number => .pure (by simp)
      exact hu.sound.untouched ⟨rfl, rfl, rfl, rfl, rfl, rfl, rfl⟩
    · exact .failCaller
  · exact .failCaller

/-- The handler of an operator is called; without one the operator fails. -/
private theorem callForBoth_safe (message : String) {a b handler : Value} (ha : w.Has a) (hb : w.Has b) :
    w.Has handler → (match handler with
      | .nil => Task.failCaller message
      | _ => do return [← Task.callFirst handler [a, b]] : Task (List Value)).Safe w := by
  intro hh
  split
  · exact .failCaller
  · exact .bind (.callFirst hh (by simp [ha, hb])) fun _ _ _ hv => .pure (by simp [hv])

theorem byHandler_safe (event : String) {a b : Value} (ha : w.Has a) (hb : w.Has b) :
    (runArith.byHandler event a b).Safe w := by
  unfold runArith.byHandler
  split
  · exact .bind (.pure has_nil) fun handler u hu hh => callForBoth_safe _ (ha.later hu) (hb.later hu) hh
  · refine .bind (Operation.readHandler_safe _ _) fun handler u hu hh => ?_
    exact callForBoth_safe _ (ha.later hu) (hb.later hu) hh

theorem runArith_safe (op : ArithOp) (ha : w.Has args) : (runArith op args).Safe w := by
  unfold runArith
  dsimp only
  split
  · exact .bind (Operation.arith_safe op (has_ofNumber _) (has_ofNumber _)) fun _ _ _ hv => .pure (by simp [hv])
  · exact byHandler_safe _ (Argument.has_get ha 1) (Argument.has_get ha 2)

theorem runNegate_safe (ha : w.Has args) : (runNegate args).Safe w := by
  unfold runNegate
  dsimp only
  split
  · exact .pure (by simp)
  · exact byHandler_safe _ (Argument.has_get ha 1) (Argument.has_get ha 2)

theorem run_safe (f : StringFunction) (ha : w.Has args) : (run f args).Safe w := by
  cases f with
  | byte => exact runByte_safe args
  | char => exact .seq (charsOf_safe _ _ _ _) fun _ => .pure (by simp)
  | dump => exact runDump_safe ha
  | find | matchFirst => exact Search.runFind_safe _ args
  | format => exact Format.run_safe ha
  | gmatch => exact Search.runGmatch_safe args
  | gsub => exact Search.runGsub_safe ha
  | len => exact .seq (Argument.string_safe _ _) fun _ => .pure (by simp)
  | lower | upper => exact runMap_safe _ args
  | pack => exact Packing.runPack_safe args
  | packsize => exact Packing.runPacksize_safe args
  | rep => exact runRep_safe args
  | reverse => exact .seq (Argument.string_safe _ _) fun _ => .pure (by simp)
  | sub => exact runSub_safe args
  | unpack => exact Packing.runUnpack_safe args
  | negate => exact runNegate_safe ha
  | _ => exact runArith_safe _ ha

end StringFunction
end ScriptHost.Lua
