import ScriptHost.Proofs.Memory.Task
/-! The operations of the language, and the arguments and the texts of values: all of them are safe. -/
namespace ScriptHost.Lua
open Text (Bytes)
variable {w : World}

/-- A handler is called if it is a function, and else something is done with it in another way. -/
theorem Step.Safe.follow {args : List Value} {next : List Value → World → Step} {other : Value → Step} (hw : w.Sound)
    (ha : w.Has args) (hnext : ∀ results w', w.Later w' → w'.Has results → (next results w').Safe w')
    (hother : ∀ handler, w.Has handler → (other handler).Safe w) {handler : Value} :
    w.Has handler → (match handler with
      | .function _ => .call w handler args next
      | _ => other handler : Step).Safe w := by
  intro hh
  split
  · exact .call hw.later hh ha hnext
  · exact hother _ hh

namespace Operation

theorem indexFrom_safe (operand : Option Nat) (fuel : Nat) {object key : Value} (ho : w.Has object)
    (hkey : w.Has key) : (indexFrom operand fuel object key).Safe w := by
  induction fuel generalizing operand object w with
  | zero => exact .failHere
  | succ fuel ih =>
    intro v k hv hk
    have hs := hv.sound
    have noted (place : Nat) (tableKey : Key) : v.Later (v.modifyTable place (·.noteRead tableKey)) :=
      hs.modifyTable place fun _ ht => Table.has_noteRead ht tableKey
    have hargs : v.Has [object, key] := by simp [ho.later hv, hkey.later hv]
    have called (results : List Value) (v' : World) (hv' : v.Later v') (hr : v'.Has results) :
        (k (results.headD .nil) v').Safe v' := hk _ v' hv' (hr.headD has_nil)
    -- A handler that is no function is accessed in place of the object.
    have inPlace (handler : Value) (hh : v.Has handler) : (indexFrom none fuel handler key k v).Safe v :=
      ih none hh (hkey.later hv) v k hs.later hk
    unfold indexFrom
    dsimp only
    split
    · next place =>
      split
      · next tableKey _ =>
        have hget : v.Has ((v.table place).get tableKey) := Table.has_get (hs.has_tableAt place) tableKey
        split
        · split
          · exact (hk _ _ (noted _ _) has_nil).earlier (noted _ _)
          · next rules _ =>
            have hrule := Table.has_getName (hs.has_tableAt rules) "__index"
            split
            · exact (hk _ _ (noted _ _) has_nil).earlier (noted _ _)
            · exact .follow hs hargs called inPlace hrule
        · split
          · exact (hk _ _ (noted _ _) (hget.later (noted _ _))).earlier (noted _ _)
          · exact hk _ v hs.later hget
      · split
        · exact hk _ v hs.later has_nil
        · exact .follow hs hargs called inPlace (hs.has_handler _ _)
    · split
      · exact .fail hs.later trivial
      · exact .follow hs hargs called inPlace (hs.has_handler _ _)

theorem index_safe {object key : Value} (ho : w.Has object) (hkey : w.Has key) (operand : Option Nat) :
    (index object key operand).Safe w := indexFrom_safe operand _ ho hkey

theorem rawSet_safe (place : Nat) {key value : Value} (hkey : w.Has key) (hvalue : w.Has value) :
    (rawSet place key value).Safe w := by
  unfold rawSet
  split
  · next tableKey htk =>
    refine .change fun v hv => hv.sound.modifyTable place fun t ht => ?_
    exact Table.has_set ht ((has_ofValue? hkey tableKey htk).later hv) (hvalue.later hv)
  · exact .ite .failHere .failHere

theorem setIndexFrom_safe (operand : Option Nat) (fuel : Nat) {object key value : Value}
    (ho : w.Has object) (hkey : w.Has key) (hvalue : w.Has value) :
    (setIndexFrom operand fuel object key value).Safe w := by
  induction fuel generalizing operand object w with
  | zero => exact .failHere
  | succ fuel ih =>
    intro v k hv hk
    have hs := hv.sound
    have raw (place : Nat) : (rawSet place key value k v).Safe v :=
      rawSet_safe place (hkey.later hv) (hvalue.later hv) v k hs.later hk
    have hargs : v.Has [object, key, value] := by simp [ho.later hv, hkey.later hv, hvalue.later hv]
    have called (results : List Value) (v' : World) (hv' : v.Later v') (_ : v'.Has results) :
        (k () v').Safe v' := hk () v' hv' trivial
    -- A handler that is no function is accessed in place of the object.
    have inPlace (handler : Value) (hh : v.Has handler) : (setIndexFrom none fuel handler key value k v).Safe v :=
      ih none hh (hkey.later hv) (hvalue.later hv) v k hs.later hk
    unfold setIndexFrom
    dsimp only
    split
    · split
      · exact raw _
      · next rules _ =>
        have hrule := Table.has_getName (hs.has_tableAt rules) "__newindex"
        refine .ite (raw _) ?_
        split
        · exact raw _
        · exact .follow hs hargs called inPlace hrule
    · split
      · exact .fail hs.later trivial
      · exact .follow hs hargs called inPlace (hs.has_handler _ _)

theorem setIndex_safe {object key value : Value} (ho : w.Has object) (hkey : w.Has key)
    (hvalue : w.Has value) (operand : Option Nat) : (setIndex object key value operand).Safe w :=
  setIndexFrom_safe operand _ ho hkey hvalue

theorem readHandler_safe (v : Value) (event : String) : (Task.read (·.handler v event)).Safe w :=
  .read fun _ hv => hv.sound.has_handler v event

theorem handlerOfEither_safe (event : String) (a b : Value) : (handlerOfEither event a b).Safe w := by
  refine .bind (readHandler_safe a event) fun handler v hv hh => ?_
  split
  · exact readHandler_safe b event
  · exact .pure hh

theorem failOperand_safe {α : Type} [Referring α] (action : String) (a b : Value) :
    (failOperand action a b : Task α).Safe w := by
  unfold failOperand
  split <;> exact .fail trivial

theorem failArith_safe {α : Type} [Referring α] (fault : ArithFault) : (failArith fault : Task α).Safe w := by
  cases fault <;> exact .fail trivial

theorem arithByHandler_safe (op : ArithOp) {a b : Value} (ha : w.Has a) (hb : w.Has b) {fallback : Task Value}
    (hf : fallback.Safe w) : (arithByHandler op a b fallback).Safe w := by
  refine .bind (handlerOfEither_safe _ a b) fun handler v hv hh => ?_
  split
  · exact hf.later hv
  · exact .callFirst hh (by simp [ha.later hv, hb.later hv])

theorem arith_safe (op : ArithOp) {a b : Value} (ha : w.Has a) (hb : w.Has b) : (arith op a b).Safe w := by
  unfold arith
  dsimp only
  split
  · split
    · exact .pure (has_ofNumber _)
    · exact arithByHandler_safe op ha hb (.fail trivial)
    · exact failArith_safe _
  · exact arithByHandler_safe op ha hb (failOperand_safe _ a b)

/-- An operator with one operand asks the handler with the operand twice. -/
private theorem callWithSelf_safe {v : Value} (hv : w.Has v) {handler : Value} (hh : w.Has handler) :
    (Task.callFirst handler [v, v]).Safe w := .callFirst hh (by simp [hv])

theorem length_safe {v : Value} (hv : w.Has v) : (length v).Safe w := by
  unfold length
  split
  · exact .pure (has_ofNat _)
  · refine .bind (readHandler_safe _ _) fun handler u hu hh => ?_
    split
    · refine .create fun u' hu' => ⟨hu'.sound.modifyTable _ fun t ht => ?_, has_ofNat _⟩
      exact Table.has_withHint ht _
    · exact .fail trivial
    · exact callWithSelf_safe (hv.later hu) hh

/-- An operator fails on an operand that has no handler for it. -/
private theorem unaryByHandler_safe (event : String) {fault : Fault} (hf : w.Has fault) {v : Value} (hv : w.Has v) :
    (do match ← Task.read (·.handler v event) with
        | .nil => Task.fail fault
        | handler => Task.callFirst handler [v, v] : Task Value).Safe w := by
  refine .bind (readHandler_safe _ _) fun handler u hu hh => ?_
  split
  · exact .fail (hf.later hu)
  · exact callWithSelf_safe (hv.later hu) hh

theorem unary_safe (op : UnaryOp) {v : Value} (hv : w.Has v) : (unary op v).Safe w := by
  cases op with
  | not => exact .pure (has_bool _)
  | length => exact length_safe hv
  | negate =>
    unfold unary
    dsimp only
    split
    · exact .pure (has_int _)
    · exact .pure (has_float _)
    · refine unaryByHandler_safe _ ?_ hv
      trivial
  | complement =>
    unfold unary
    dsimp only
    split
    · split
      · exact .pure (has_int _)
      · exact .fail trivial
    · refine unaryByHandler_safe _ ?_ hv
      trivial

theorem equal_safe {a b : Value} (ha : w.Has a) (hb : w.Has b) : (equal a b).Safe w := by
  have callArgs {v : World} (hv : w.Later v) : v.Has [a, b] := by simp [ha.later hv, hb.later hv]
  unfold equal
  split
  · split
    · exact .pure trivial
    · refine .bind (handlerOfEither_safe _ _ _) fun handler v hv hh => ?_
      split
      · exact .pure trivial
      · exact .seq (.callFirst hh (callArgs hv)) fun _ => .pure trivial
  · exact .pure trivial

theorem failOrder_safe {α : Type} [Referring α] (a b : Value) : (failOrder a b : Task α).Safe w :=
  .seq (.read fun _ _ => trivial) fun _ => .seq (.read fun _ _ => trivial) fun _ =>
    .ite (.fail trivial) (.fail trivial)

theorem orderByHandler_safe (event : String) {a b : Value} (ha : w.Has a) (hb : w.Has b)
    {fallback : Task Bool} (hf : fallback.Safe w) : (orderByHandler event a b fallback).Safe w := by
  refine .bind (handlerOfEither_safe _ _ _) fun handler v hv hh => ?_
  split
  · exact hf.later hv
  · exact .seq (.callFirst hh (by simp [ha.later hv, hb.later hv])) fun _ => .pure trivial

theorem less_safe {a b : Value} (ha : w.Has a) (hb : w.Has b) : (less a b).Safe w := by
  unfold less
  split
  · exact .pure trivial
  · exact .pure trivial
  · exact orderByHandler_safe _ ha hb (failOrder_safe _ _)

theorem lessEqual_safe {a b : Value} (ha : w.Has a) (hb : w.Has b) : (lessEqual a b).Safe w := by
  unfold lessEqual
  split
  · exact .pure trivial
  · exact .pure trivial
  · refine orderByHandler_safe _ ha hb (.bind (handlerOfEither_safe _ _ _) fun handler v hv hh => ?_)
    split
    · exact failOrder_safe _ _
    · exact .seq (.callFirst hh (by simp [ha.later hv, hb.later hv])) fun _ => .pure trivial

theorem compare_safe (op : CompareOp) {a b : Value} (ha : w.Has a) (hb : w.Has b) :
    (compare op a b).Safe w := by
  cases op with
  | equal => exact equal_safe ha hb
  | less => exact less_safe ha hb
  | lessEqual => exact lessEqual_safe ha hb

theorem concatOnto_safe {joined : Value} (hj : w.Has joined) (place : Nat) {before : List Value}
    (hb : w.Has before) : (concatOnto joined place before).Safe w := by
  induction before generalizing joined place w with
  | nil => exact .pure hj
  | cons v before ih =>
    obtain ⟨hv, hrest⟩ := (has_list_cons _ _).mp hb
    unfold concatOnto
    split
    · exact ih (has_string _) _ hrest
    · refine .bind (handlerOfEither_safe _ _ _) fun handler u hu hh => ?_
      split
      · split <;> exact .fail trivial
      · refine .bind (.callFirst hh (by simp [hv.later hu, hj.later hu])) fun result u' hu' hr => ?_
        exact ih hr _ ((hrest.later hu).later hu')

theorem concat_safe {values : List Value} (hv : w.Has values) : (concat values).Safe w := by
  have hr := (has_reverse _).mpr hv
  unfold concat
  split
  · exact .pure (has_string _)
  · next last before heq =>
    rw [heq] at hr
    exact concatOnto_safe ((has_list_cons _ _).mp hr).1 _ ((has_list_cons _ _).mp hr).2

end Operation

namespace Argument
variable {args : List Value}

theorem has_get? (ha : w.Has args) (n : Nat) : w.Has (get? args n) := World.Has.get? ha _

theorem has_get (ha : w.Has args) (n : Nat) : w.Has (get args n) := (has_get? ha n).getD has_nil

theorem fail_safe {α : Type} [Referring α] (n : Nat) (message : String) : (fail n message : Task α).Safe w :=
  .fail trivial

theorem require_safe (holds : Bool) (n : Nat) (message : String) : (require holds n message).Safe w :=
  .ite (.pure trivial) (fail_safe n message)

theorem mismatch_safe {α : Type} [Referring α] (args : List Value) (n : Nat) (expected : String) :
    (mismatch args n expected : Task α).Safe w :=
  .seq (.read fun _ _ => trivial) fun _ => .fail trivial

/-- Nothing goes on after a mismatch. -/
theorem mismatch_bind {α β : Type} [Referring β] (args : List Value) (n : Nat) (expected : String)
    (f : α → Task β) : (mismatch args n expected >>= f).Safe w :=
  (mismatch_safe args n expected : (mismatch args n expected : Task β).Safe w)

theorem any_safe (ha : w.Has args) (n : Nat) : (any args n).Safe w := by
  unfold any
  split
  · next v hv => exact .pure (has_get? ha n v hv)
  · exact fail_safe _ _

theorem integer_safe (args : List Value) (n : Nat) : (integer args n).Safe w := by
  unfold integer
  split
  · split
    · exact .pure trivial
    · exact fail_safe _ _
  · exact mismatch_safe _ _ _

theorem integerOr_safe (args : List Value) (n : Nat) (default : Int64) : (integerOr args n default).Safe w :=
  .ite (.pure trivial) (integer_safe args n)

theorem number_safe (args : List Value) (n : Nat) : (number args n).Safe w := by
  unfold number
  split
  · exact .pure trivial
  · exact mismatch_safe _ _ _

theorem float_safe (args : List Value) (n : Nat) : (float args n).Safe w :=
  .seq (number_safe args n) fun _ => .pure trivial

theorem string_safe (args : List Value) (n : Nat) : (string args n).Safe w := by
  unfold string
  split
  · exact .pure trivial
  · exact mismatch_safe _ _ _

theorem stringOr_safe (args : List Value) (n : Nat) (default : Bytes) : (stringOr args n default).Safe w :=
  .ite (.pure trivial) (string_safe args n)

/-- What goes on after a table was taken can rely on it. -/
theorem table_bind {β : Type} [Referring β] (ha : w.Has args) (n : Nat) {f : Nat → Task β}
    (goes : ∀ place, w.Has (Value.table place) → (f place).Safe w) : (table args n >>= f).Safe w := by
  have hg := has_get ha n
  unfold table
  split
  · next place heq =>
    rw [heq] at hg
    exact goes place hg
  · exact mismatch_bind args n "table" f

theorem function_safe (ha : w.Has args) (n : Nat) : (function args n).Safe w := by
  have hg := has_get ha n
  unfold function
  split
  · next place heq => exact .pure (heq ▸ hg)
  · exact mismatch_safe _ _ _

end Argument

theorem Task.describe_safe {v : Value} (hv : w.Has v) : (Task.describe v).Safe w := by
  refine .bind (Operation.readHandler_safe _ _) fun handler u hu hh => ?_
  split
  · exact .read fun _ _ => trivial
  · refine .seq (.callFirst hh (by simp [hv.later hu])) fun result => ?_
    split
    · exact .pure trivial
    · exact .failCaller

end ScriptHost.Lua
