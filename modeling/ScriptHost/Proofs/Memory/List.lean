import ScriptHost.Proofs.Memory.Operation
/-! The library of tables is safe, sorting included. -/
namespace ScriptHost.Lua.Sort
open Text (Bytes)
variable {w : World}

/-- The list that is sorted and the order are in the memory. -/
def Job.NamedIn (job : Job) (w : World) : Prop := w.Has job.list ∧ w.Has job.order

instance : Referring Job where
  namedIn := Job.NamedIn
  extend h he := ⟨h.1.extend he, h.2.extend he⟩

variable {job : Job}

theorem get_safe (hj : w.Has job) (i : Nat) : (get job i).Safe w := Operation.index_safe hj.1 (has_ofNat i) none

theorem set_safe (hj : w.Has job) (i : Nat) {v : Value} (hv : w.Has v) : (set job i v).Safe w :=
  Operation.setIndex_safe hj.1 (has_ofNat i) hv none

theorem setBoth_safe (hj : w.Has job) (i : Nat) {v : Value} (hv : w.Has v) (j : Nat) {u : Value} (hu : w.Has u) :
    (setBoth job i v j u).Safe w :=
  .seq (set_safe hj i hv) fun _ => set_safe hj j hu

theorem before_safe (hj : w.Has job) {a b : Value} (ha : w.Has a) (hb : w.Has b) : (before job a b).Safe w := by
  unfold before
  split
  · exact Operation.less_safe ha hb
  · exact .seq (.callFirst hj.2 (by simp [ha, hb])) fun _ => .pure trivial

theorem failOrder_safe {α : Type} [Referring α] : (failOrder : Task α).Safe w := .failCaller

theorem seekUp_safe (hj : w.Has job) {pivot : Value} (hp : w.Has pivot) (high fuel i : Nat) :
    (seekUp job pivot high fuel i).Safe w := by
  induction fuel generalizing i w with
  | zero => exact failOrder_safe
  | succ fuel ih =>
    refine .bind (get_safe hj _) fun v u hu hv => ?_
    refine .bind (before_safe (hj.later hu) hv (hp.later hu)) fun _ u' hu' _ => ?_
    refine .ite (.ite failOrder_safe (ih ((hj.later hu).later hu') ((hp.later hu).later hu') _)) ?_
    exact .pure ⟨trivial, hv.later hu'⟩

theorem seekDown_safe (hj : w.Has job) {pivot : Value} (hp : w.Has pivot) (i fuel j : Nat) :
    (seekDown job pivot i fuel j).Safe w := by
  induction fuel generalizing j w with
  | zero => exact failOrder_safe
  | succ fuel ih =>
    refine .bind (get_safe hj _) fun v u hu hv => ?_
    refine .bind (before_safe (hj.later hu) (hp.later hu) hv) fun _ u' hu' _ => ?_
    refine .ite (.ite failOrder_safe (ih ((hj.later hu).later hu') ((hp.later hu).later hu') _)) ?_
    exact .pure ⟨trivial, hv.later hu'⟩

theorem partition_safe (hj : w.Has job) {pivot : Value} (hp : w.Has pivot) (high fuel i j : Nat) :
    (partition job pivot high fuel i j).Safe w := by
  induction fuel generalizing i j w with
  | zero => exact failOrder_safe
  | succ fuel ih =>
    refine .bind (seekUp_safe hj hp _ _ _) fun ⟨i, atI⟩ u hu hi => ?_
    have hj := hj.later hu
    have hp := hp.later hu
    refine .bind (seekDown_safe hj hp _ _ _) fun ⟨j, atJ⟩ u' hu' hatJ => ?_
    have hj := hj.later hu'
    have hp := hp.later hu'
    have hatI : u'.Has atI := hi.2.later hu'
    refine .ite ?_ ?_
    · exact .seq (setBoth_safe hj _ hatI _ hp) fun _ => .pure trivial
    · exact .seq (setBoth_safe hj _ hatJ.2 _ hatI) fun _ => ih hj hp _ _

theorem orderEnds_safe (hj : w.Has job) (low high : Nat) : (orderEnds job low high).Safe w := by
  refine .bind (get_safe hj _) fun first u hu hfirst => ?_
  refine .bind (get_safe (hj.later hu) _) fun last u' hu' hlast => ?_
  have hj := (hj.later hu).later hu'
  have hfirst := hfirst.later hu'
  exact .seq (before_safe hj hlast hfirst) fun _ => .ite (setBoth_safe hj _ hlast _ hfirst) (.pure trivial)

theorem orderMiddle_safe (hj : w.Has job) (low middle high : Nat) : (orderMiddle job low middle high).Safe w := by
  refine .bind (get_safe hj _) fun pivot u hu hpivot => ?_
  refine .bind (get_safe (hj.later hu) _) fun first u' hu' hfirst => ?_
  have hj := (hj.later hu).later hu'
  have hpivot := hpivot.later hu'
  refine .seq (before_safe hj hpivot hfirst) fun _ => .ite (setBoth_safe hj _ hfirst _ hpivot) ?_
  refine .bind (get_safe hj _) fun last v hv hlast => ?_
  have hj := hj.later hv
  have hpivot := hpivot.later hv
  exact .seq (before_safe hj hlast hpivot) fun _ => .ite (setBoth_safe hj _ hlast _ hpivot) (.pure trivial)

theorem sortBetween_safe (hj : w.Has job) (fuel low high : Nat) : (sortBetween job fuel low high).Safe w := by
  induction fuel generalizing low high w with
  | zero => exact .pure trivial
  | succ fuel ih =>
    refine .ite (.pure trivial) ?_
    refine .seq (orderEnds_safe hj low high) fun _ => .ite (.pure trivial) ?_
    refine .seq (orderMiddle_safe hj _ _ _) fun _ => .ite (.pure trivial) ?_
    refine .bind (get_safe hj _) fun pivot u hu hpivot => ?_
    refine .bind (get_safe (hj.later hu) _) fun other u' hu' hother => ?_
    have hj := (hj.later hu).later hu'
    have hpivot := hpivot.later hu'
    refine .seq (setBoth_safe hj _ hother _ hpivot) fun _ => ?_
    refine .seq (partition_safe hj hpivot _ _ _ _) fun _ => ?_
    exact .ite (.seq (ih hj _ _) fun _ => ih hj _ _) (.seq (ih hj _ _) fun _ => ih hj _ _)

end ScriptHost.Lua.Sort

namespace ScriptHost.Lua.TableFunction
open Text (Bytes)
variable {w : World} {args : List Value}

theorem listArgument_safe (ha : w.Has args) (n : Nat) (access : Access) : (listArgument args n access).Safe w := by
  have hg := Argument.has_get ha n
  unfold listArgument
  dsimp only
  split
  · exact .pure hg
  · exact .seq (.read fun _ _ => trivial) fun _ => .ite (.pure hg) (Argument.mismatch_safe _ _ _)

theorem lengthOf_safe {list : Value} (hl : w.Has list) : (lengthOf list).Safe w := by
  refine .seq (Operation.length_safe hl) fun n => ?_
  split
  · exact .pure trivial
  · exact .failCaller

theorem get_safe {list : Value} (hl : w.Has list) (i : Int64) : (get list i).Safe w :=
  Operation.index_safe hl (has_int i) none

theorem set_safe {list : Value} (hl : w.Has list) (i : Int64) {v : Value} (hv : w.Has v) : (set list i v).Safe w :=
  Operation.setIndex_safe hl (has_int i) hv none

theorem copy_safe {source target : Value} (hs : w.Has source) (ht : w.Has target) (step : Int64) (count : Nat)
    (i j : Int64) : (copy source target step count i j).Safe w := by
  induction count generalizing i j w with
  | zero => exact .pure trivial
  | succ count ih =>
    refine .bind (get_safe hs i) fun v u hu hv => ?_
    have hs := hs.later hu
    have ht := ht.later hu
    exact .seq (set_safe ht j hv) fun _ => ih hs ht _ _

theorem runInsert_safe (ha : w.Has args) : (runInsert args).Safe w := by
  refine .bind (listArgument_safe ha 1 _) fun list u hu hlist => ?_
  have has : u.Has args := ha.later hu
  refine .seq (lengthOf_safe hlist) fun size => ?_
  dsimp only
  split
  · exact .seq (set_safe hlist _ (has.mem (by simp))) fun _ => .pure has_list_nil
  · refine .seq (Argument.integer_safe _ 2) fun place => ?_
    refine .seq (Argument.require_safe _ _ _) fun _ => ?_
    refine .seq (copy_safe hlist hlist _ _ _ _) fun _ => ?_
    exact .seq (set_safe hlist _ (has.mem (by simp))) fun _ => .pure has_list_nil
  · exact .failCaller

theorem runRemove_safe (ha : w.Has args) : (runRemove args).Safe w := by
  refine .bind (listArgument_safe ha 1 _) fun list u hu hlist => ?_
  refine .seq (lengthOf_safe hlist) fun size => ?_
  refine .seq (Argument.integerOr_safe _ _ _) fun place => ?_
  refine .seq (Argument.require_safe _ _ _) fun _ => ?_
  refine .bind (get_safe hlist place) fun v u' hu' hv => ?_
  have hlist := hlist.later hu'
  refine .seq (copy_safe hlist hlist _ _ _ _) fun _ => ?_
  exact .seq (set_safe hlist _ has_nil) fun _ => .pure (by simp [hv])

theorem runMove_safe (ha : w.Has args) : (runMove args).Safe w := by
  refine .seq (Argument.integer_safe _ 2) fun first => ?_
  refine .seq (Argument.integer_safe _ 3) fun last => ?_
  refine .seq (Argument.integer_safe _ 4) fun start => ?_
  refine .bind (listArgument_safe ha 1 _) fun source u hu hsource => ?_
  refine .bind (listArgument_safe (ha.later hu) _ _) fun target u' hu' htarget => ?_
  have hsource := hsource.later hu'
  refine .ite (.pure (by simp [htarget])) ?_
  refine .seq (Argument.require_safe _ _ _) fun _ => ?_
  refine .seq (Argument.require_safe _ _ _) fun _ => ?_
  refine .ite (.seq (.pure trivial) ?goOn) (.ite (.seq (.pure trivial) ?goOn)
    (.seq (Operation.equal_safe hsource htarget) fun _ => .seq (.pure trivial) ?goOn))
  intro apart
  refine .ite (.seq (copy_safe hsource htarget _ _ _ _) ?_) (.seq (copy_safe hsource htarget _ _ _ _) ?_) <;>
    exact fun _ => .pure (by simp [htarget])

theorem elementText_safe {list : Value} (hl : w.Has list) (i : Int64) : (elementText list i).Safe w := by
  refine .seq (get_safe hl i) fun v => ?_
  split
  · exact .pure trivial
  · exact .failCaller

theorem join_safe {list : Value} (hl : w.Has list) (between : Bytes) (count : Nat) (i : Int64) (out : Bytes) :
    (join list between count i out).Safe w := by
  induction count generalizing i out with
  | zero => exact .pure trivial
  | succ count ih => exact .seq (elementText_safe hl i) fun _ => .ite (.pure trivial) (ih _ _)

theorem runConcat_safe (ha : w.Has args) : (runConcat args).Safe w := by
  refine .bind (listArgument_safe ha 1 _) fun list u hu hlist => ?_
  refine .seq (lengthOf_safe hlist) fun size => ?_
  refine .seq (Argument.stringOr_safe _ _ _) fun between => ?_
  refine .seq (Argument.integerOr_safe _ _ _) fun first => ?_
  refine .seq (Argument.integerOr_safe _ _ _) fun last => ?_
  exact .seq (join_safe hlist _ _ _ _) fun _ => .pure (by simp)

theorem runPack_safe (ha : w.Has args) : (runPack args).Safe w := by
  have added (v : World) (hv : w.Later v) := hv.sound.addTable
    (Table.has_setName (Table.has_setList (Table.has_withCapacity 1) 0 (ha.later hv)) "n"
      (has_ofNat args.length))
  refine .create_bind (fun v hv => (added v hv).1) fun v hv => .pure ?_
  simpa using (added v hv).2

theorem collect_safe {list : Value} (hl : w.Has list) (count : Nat) (i : Int64) {values : List Value}
    (hv : w.Has values) : (collect list count i values).Safe w := by
  induction count generalizing i values w with
  | zero => exact .pure ((has_reverse _).mpr hv)
  | succ count ih =>
    refine .bind (get_safe hl i) fun v u hu hval => ?_
    exact ih (hl.later hu) _ (by simp [hval, hv.later hu])

theorem runUnpack_safe (ha : w.Has args) : (runUnpack args).Safe w := by
  have hlist := Argument.has_get ha 1
  refine .seq (Argument.integerOr_safe _ _ _) fun first => ?_
  refine .ite (.seq (lengthOf_safe hlist) ?goOn) (.seq (Argument.integer_safe _ _) ?goOn)
  intro last
  exact .ite (.pure has_list_nil) (.ite .failCaller (collect_safe hlist _ _ has_list_nil))

theorem runSort_safe (ha : w.Has args) : (runSort args).Safe w := by
  refine .bind (listArgument_safe ha 1 _) fun list u hu hlist => ?_
  refine .seq (lengthOf_safe hlist) fun size => .ite (.pure has_list_nil) ?_
  refine .seq (Argument.require_safe _ _ _) fun _ => ?_
  refine .ite (.bind (.pure has_nil) ?goOn) (.bind (Argument.function_safe (ha.later hu) 2) ?goOn)
  intro order v hv horder
  have hj : v.Has ({ list, order } : «Sort».Job) := ⟨hlist.later hv, horder⟩
  exact .seq (Sort.sortBetween_safe hj _ _ _) fun _ => .pure has_list_nil

theorem run_safe (f : TableFunction) (ha : w.Has args) : (run f args).Safe w := by
  cases f with
  | concat => exact runConcat_safe ha
  | insert => exact runInsert_safe ha
  | move => exact runMove_safe ha
  | pack => exact runPack_safe ha
  | remove => exact runRemove_safe ha
  | sort => exact runSort_safe ha
  | unpack => exact runUnpack_safe ha

end ScriptHost.Lua.TableFunction
