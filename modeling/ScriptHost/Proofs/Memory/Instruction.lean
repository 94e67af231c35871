import ScriptHost.Proofs.Memory.Operation
/-! Instructions of scripts keep a memory sound. A call of a script function holds values in its registers and
beside them, and all of them stay in the memory. -/
namespace ScriptHost.Lua
open Text (Bytes)
variable {w : World}

/-- All that a call of a script function holds is in the memory. -/
structure ScriptFrame.NamedIn (f : ScriptFrame) (w : World) : Prop where
  registers : w.Has f.registers
  extra : w.Has f.extra
  openValues : w.Has f.openValues
  toClose : w.Has f.toClose
  returning : w.Has f.returning

instance : Referring ScriptFrame where
  namedIn := ScriptFrame.NamedIn
  extend h he := ⟨h.registers.extend he, h.extra.extend he, h.openValues.extend he, h.toClose.extend he,
    h.returning.extend he⟩

/-- An effect that an instruction can have on a memory. -/
inductive Effect.Safe (w : World) : Effect → Prop where
  | next {w' : World} {f : ScriptFrame} (later : w.Later w') (frame : w'.Has f) : Safe w (.next w' f)
  | work {f : ScriptFrame} {step : Step} (frame : w.Has f) (safe : step.Safe w) : Safe w (.work f step)
  | call {w' : World} {f : ScriptFrame} {fn : Value} {args : List Value} {deeper : Bool} (later : w.Later w')
      (frame : w'.Has f) (callee : w'.Has fn) (has : w'.Has args) : Safe w (.call w' f fn args deeper)
  | replace {w' : World} {f : ScriptFrame} {fn : Value} {args : List Value} (later : w.Later w')
      (frame : w'.Has f) (callee : w'.Has fn) (has : w'.Has args) : Safe w (.replace w' f fn args)
  | leave {w' : World} {values : List Value} (later : w.Later w') (has : w'.Has values) :
      Safe w (.leave w' values)
  | fail {w' : World} {f : ScriptFrame} {fault : Fault} (later : w.Later w') (frame : w'.Has f)
      (has : w'.Has fault) : Safe w (.fail w' f fault)

/-- The values that a loop counts with are numbers. -/
theorem Loop.has_start {first limit step a b c : Value} (h : Loop.start first limit step = .run a b c) :
    w.Has a ∧ w.Has b ∧ w.Has c := by
  unfold start at h
  split at h
  · split at h
    · cases h
    · split at h
      · unfold integerStart at h
        split at h
        · cases h
        · dsimp only at h
          split at h
          · cases h
          · split at h <;> split at h <;> cases h <;> simp
      · cases h
  · split at h
    · cases h
    · cases h
    · cases h
    · dsimp only at h
      split at h
      · cases h
      · split at h <;> split at h <;> cases h <;> simp

theorem Loop.has_next? {index bound step a b : Value} (h : Loop.next? index bound step = some (a, b)) :
    w.Has a ∧ w.Has b := by
  unfold next? at h
  split at h
  · split at h <;> cases h
    simp
  · dsimp only at h
    split at h <;> split at h <;> cases h <;> simp
  · cases h

namespace ScriptFrame
variable {f : ScriptFrame}

theorem has_register (hf : w.Has f) (r : Nat) : w.Has (f.register r) := (hf.registers.at? r).getD has_nil

theorem has_get (hw : w.Sound) (hf : w.Has f) (src : Source) : w.Has (f.get w src) := by
  cases src with
  | reg r => exact has_register hf r
  | const c => exact has_ofConstant c
  | box r => exact (hw.cells.at? _).getD has_nil
  | upvalue place => exact (hw.cells.at? _).getD has_nil

theorem has_fill {registers : Array Value} (hr : w.Has registers) (start count : Nat) {values : List Value}
    (hv : w.Has values) : w.Has (fill registers start count values) := by
  induction count generalizing registers start values with
  | zero => exact hr
  | succ count ih => exact ih (hr.putAt start (hv.headD has_nil)) _ hv.tail

theorem has_collect (hf : w.Has f) (first : Nat) (count : Option Nat) : w.Has (f.collect first count) := by
  have part (stop : Nat) : w.Has (f.registers.extract first stop).toList := by
    intro v hv
    have hv : v ∈ (f.registers.toList.drop first).take (stop - first) := by
      simpa [List.extract_eq_take_drop] using hv
    exact hf.registers v (Array.mem_toList_iff.mp (List.mem_of_mem_drop (List.mem_of_mem_take hv)))
  cases count with
  | some n => exact part _
  | none => exact (has_append _ _).mpr ⟨part _, hf.openValues⟩

/-- Where a call goes on names nothing, and neither does what becomes of results. -/
theorem has_goOn (hf : w.Has f) (pc : Nat) (boxes : List (Nat × Nat)) (resume : Resume) :
    w.Has { f with pc, boxes, resume } :=
  ⟨hf.registers, hf.extra, hf.openValues, hf.toClose, hf.returning⟩

theorem has_withRegisters (hf : w.Has f) {registers : Array Value} (hr : w.Has registers) (pc : Nat) :
    w.Has { f with registers, pc } :=
  ⟨hr, hf.extra, hf.openValues, hf.toClose, hf.returning⟩

theorem has_withToClose (hf : w.Has f) {toClose : List (Nat × Value)} (ht : w.Has toClose) (resume : Resume) :
    w.Has { f with toClose, resume } :=
  ⟨hf.registers, hf.extra, hf.openValues, ht, hf.returning⟩

theorem has_next (hf : w.Has f) : w.Has f.next := has_goOn hf _ _ _

theorem has_jump (hf : w.Has f) (target : Nat) : w.Has (f.jump target) := has_goOn hf _ _ _

theorem has_put (hf : w.Has f) (r : Nat) {v : Value} (hv : w.Has v) : w.Has (f.put r v) :=
  has_withRegisters hf (hf.registers.putAt r hv) _

theorem has_putResults (hf : w.Has f) (base : Nat) (count : Option Nat) {values : List Value}
    (hv : w.Has values) : w.Has (f.putResults base count values) := by
  cases count with
  | some n => exact has_withRegisters hf (has_fill hf.registers _ _ hv) _
  | none => exact ⟨hf.registers, hf.extra, hv, hf.toClose, hf.returning⟩

theorem has_quickIndex (hw : w.Sound) {object key v : Value} (h : quickIndex w object key = some v) : w.Has v := by
  unfold quickIndex at h
  split at h
  · split at h
    · dsimp only at h
      split at h
      · cases h
      · split at h <;> cases h
        exact Table.has_get (hw.has_tableAt _) _
    · cases h
  · cases h

theorem has_quickKey? {object key : Value} (hk : w.Has key) {place : Nat} {tableKey : Key}
    (h : quickKey? w object key = some (place, tableKey)) : w.Has tableKey := by
  unfold quickKey? at h
  split at h
  · split at h
    · obtain ⟨found, hfound, heq⟩ := Option.map_eq_some_iff.mp h
      cases heq
      exact has_ofValue? hk _ hfound
    · cases h
  · cases h

theorem has_quickArith {op : ArithOp} {a b v : Value} (h : quickArith op a b = some v) : w.Has v := by
  unfold quickArith at h
  split at h
  · split at h <;> cases h
    exact has_ofNumber _
  · cases h

theorem operate_safe (hw : w.Sound) (hf : w.Has f) (resume : Resume) {t : Task Value} (ht : t.Safe w) :
    (f.operate w resume t).Safe w := by
  refine .work (has_goOn hf _ _ _) (ht w _ hw.later fun v w' hw' hv => ?_)
  exact .done hw'.sound.later (by simpa using hv)

theorem decideBy_safe (hw : w.Sound) (hf : w.Has f) (resume : Resume) {t : Task Bool} (ht : t.Safe w) :
    (f.decideBy w resume t).Safe w := by
  refine .work (has_goOn hf _ _ _) (ht w _ hw.later fun b w' hw' _ => ?_)
  exact .done hw'.sound.later (by simp)

theorem closeFrom_safe (hw : w.Sound) (hf : w.Has f) (level : Nat) {done : World → ScriptFrame → Effect}
    (hd : (done w f).Safe w) : (f.closeFrom w level done).Safe w := by
  have hclose := hf.toClose
  unfold closeFrom
  split
  · next r v rest heq =>
    rw [heq] at hclose
    obtain ⟨⟨-, hv⟩, hrest⟩ := (has_list_cons _ _).mp hclose
    split
    · exact .call hw.later (has_withToClose hf hrest _) (hw.has_handler _ _) (by simpa using hv)
    · exact hd
  · exact hd

theorem markToClose_safe (hw : w.Sound) (hf : w.Has f) (r : Nat) (name : Bytes)
    {done : ScriptFrame → ScriptFrame} (hd : ∀ g, w.Has g → w.Has (done g)) :
    (f.markToClose w r name done).Safe w := by
  unfold markToClose
  dsimp only
  split
  · exact .next hw.later (hd f hf)
  · split
    · exact .fail hw.later hf trivial
    · refine .next hw.later (hd _ (has_withToClose hf ?_ f.resume))
      exact (has_list_cons _ _).mpr ⟨⟨trivial, has_register hf r⟩, hf.toClose⟩

theorem finishWith_safe (hw : w.Sound) (hf : w.Has f) {values : List Value} (hv : w.Has values) :
    (f.finishWith w values).Safe w := by
  unfold finishWith
  split
  · exact .leave hw.later hv
  · have hf' : w.Has { f with returning := some values } :=
      ⟨hf.registers, hf.extra, hf.openValues, hf.toClose, (has_some _).mpr hv⟩
    exact closeFrom_safe hw hf' 0 (.leave hw.later hv)

theorem startLoop_safe (hw : w.Sound) (hf : w.Has f) (base target : Nat) : (f.startLoop w base target).Safe w := by
  unfold startLoop
  split
  · exact .next hw.later (has_jump hf target)
  · exact .fail hw.later hf trivial
  · exact .fail hw.later hf trivial
  · next first bound step heq =>
    obtain ⟨h₁, h₂, h₃⟩ := Loop.has_start (w := w) heq
    exact .next hw.later (has_withRegisters hf (has_fill hf.registers _ _ (by simp [h₁, h₂, h₃])) _)

theorem stepLoop_safe (hw : w.Sound) (hf : w.Has f) (base target : Nat) : (f.stepLoop w base target).Safe w := by
  unfold stepLoop
  split
  · next index bound heq =>
    obtain ⟨h₁, h₂⟩ := Loop.has_next? (w := w) heq
    exact .next hw.later (has_withRegisters hf (((hf.registers.putAt _ h₁).putAt _ h₂).putAt _ h₁) _)
  · exact .next hw.later (has_next hf)

/-- A value that is found at once goes to a register; for any other more has to be done. -/
private theorem putOr_safe (hw : w.Sound) (hf : w.Has f) (dst : Nat) {other : Effect} (ho : other.Safe w)
    {found : Option Value} :
    (∀ v, found = some v → w.Has v) → (match found with
      | some v => .next w (f.put dst v)
      | none => other : Effect).Safe w := by
  intro hv
  cases found with
  | some v => exact .next hw.later (has_put hf dst (hv v rfl))
  | none => exact ho

private theorem branch_safe (hw : w.Sound) (hf : w.Has f) (jumps : Bool) (target : Nat) :
    (Effect.next w (if jumps then f.jump target else f.next)).Safe w := by
  cases jumps with
  | true => exact .next hw.later (has_jump hf target)
  | false => exact .next hw.later (has_next hf)

private theorem newTable_safe (hw : w.Sound) (hf : w.Has f) (dst items keys : Nat) :
    (f.execute w (.newTable dst items keys)).Safe w := by
  have hitems : w.Has (Array.replicate items Value.nil) := by
    intro v hv
    rw [(Array.mem_replicate.mp hv).2]
    exact has_nil
  obtain ⟨hadd, hplace⟩ := hw.addTable (t := {
    list := Array.replicate items Value.nil, capacity := Table.capacityFor keys, hint := items })
    (has_table_iff.mpr ⟨hitems, has_empty_array, has_none,
      (Table.searchable_withCapacity (Table.capacityFor keys)).of_eq rfl rfl⟩)
  exact .next hadd (has_put (hf.later hadd) dst hplace)

theorem execute_safe (hw : w.Sound) (hf : w.Has f) (instr : Instr) : (f.execute w instr).Safe w := by
  have hget := has_get hw hf
  cases instr with
  | move dst src => exact .next hw.later (has_put hf dst (hget src))
  | clear dst count => exact .next hw.later (has_withRegisters hf (has_fill hf.registers _ _ has_list_nil) _)
  | makeBox r =>
    have hcell := hw.addCell (has_register hf r)
    exact .next hcell (has_goOn (hf.later hcell) _ _ _)
  | setBox r src =>
    have hcell := hw.setCell ((f.boxes.lookup r).getD 0) (hget src)
    exact .next hcell (has_next (hf.later hcell))
  | setUpvalue place src =>
    have hcell := hw.setCell (f.captured[place]?.getD 0) (hget src)
    exact .next hcell (has_next (hf.later hcell))
  | index dst object key =>
    exact putOr_safe hw hf dst (operate_safe hw hf _ (Operation.index_safe (hget _) (hget _) _))
      fun _ hq => has_quickIndex hw hq
  | setIndex object key value =>
    unfold execute
    dsimp only
    split
    · next place tableKey hq =>
      have hset : w.Later (w.modifyTable place (·.set tableKey (f.get w value))) :=
        hw.modifyTable place fun t ht => Table.has_set ht (has_quickKey? (hget _) hq) (hget _)
      exact .next hset (has_next (hf.later hset))
    · have safe := Operation.setIndex_safe (hget object) (hget key) (hget value) (some 0)
      exact .work (has_goOn hf _ _ _)
        (safe w _ hw.later fun _ w' hw' _ => .done hw'.sound.later has_list_nil)
  | lookup dst object name =>
    have hf' : w.Has { f with registers := putAt f.registers (dst + 1) (f.get w object) } :=
      has_withRegisters hf (hf.registers.putAt _ (hget _)) f.pc
    exact putOr_safe hw hf' dst (operate_safe hw hf' _ (Operation.index_safe (hget _) (has_string _) _))
      fun _ hq => has_quickIndex hw hq
  | arith op dst a b =>
    exact putOr_safe hw hf dst (operate_safe hw hf _ (Operation.arith_safe op (hget _) (hget _)))
      fun _ hq => has_quickArith hq
  | unary op dst a =>
    unfold execute
    dsimp only
    split
    · exact .next hw.later (has_put hf dst (has_bool _))
    · exact operate_safe hw hf _ (Operation.unary_safe _ (hget _))
  | concat dst first count =>
    unfold execute
    dsimp only
    split
    · exact .next hw.later (has_put hf dst (has_string _))
    · exact operate_safe hw hf _ (Operation.concat_safe (has_collect hf _ _))
  | compare op dst a b negated =>
    unfold execute
    dsimp only
    split
    · exact .next hw.later (has_put hf dst (has_bool _))
    · exact decideBy_safe hw hf _ (Operation.compare_safe op (hget _) (hget _))
  | jumpCompare op a b sense target =>
    unfold execute
    dsimp only
    split
    · exact branch_safe hw hf _ target
    · exact decideBy_safe hw hf _ (Operation.compare_safe op (hget _) (hget _))
  | jumpIf src sense target => exact branch_safe hw hf _ target
  | keepIf dst src sense target =>
    unfold execute
    dsimp only
    split
    · exact .next hw.later (has_withRegisters hf (hf.registers.putAt _ (hget _)) _)
    · exact .next hw.later (has_next hf)
  | jump target => exact .next hw.later (has_jump hf target)
  | leave target level =>
    unfold execute
    refine closeFrom_safe hw hf level ?_
    exact .next hw.later (has_jump hf target)
  | call base args results =>
    exact .call hw.later (has_goOn hf _ _ _) (has_register hf base) (has_collect hf _ _)
  | tailCall base args => exact .replace hw.later hf (has_register hf base) (has_collect hf _ _)
  | ret first count =>
    have hreturning := hf.returning
    unfold execute
    dsimp only
    split
    · next values heq => exact finishWith_safe hw hf (hreturning values heq)
    · exact finishWith_safe hw hf (has_collect hf _ _)
  | varargs dst count => exact .next hw.later (has_putResults hf dst count hf.extra)
  | closure dst place captures =>
    unfold execute
    dsimp only
    split
    · next proto _ =>
      obtain ⟨hadd, hfn⟩ := hw.addFunction (.closure proto (f.captureAll captures))
      exact .next hadd (has_put (hf.later hadd) dst hfn)
    · exact .next hw.later (has_next hf)
  | newTable dst items keys => exact newTable_safe hw hf dst items keys
  | append table first count start open_ =>
    unfold execute
    dsimp only
    split
    · next place _ =>
      have hset : w.Later (w.modifyTable place
          (·.setList start (f.collect first (if open_ then none else some count)))) :=
        hw.modifyTable place fun t ht => Table.has_setList ht start (has_collect hf _ _)
      exact .next hset (has_next (hf.later hset))
    · exact .next hw.later (has_next hf)
  | prepareNumeric base target => exact startLoop_safe hw hf base target
  | stepNumeric base target => exact stepLoop_safe hw hf base target
  | prepareGeneric base target => exact markToClose_safe hw hf _ _ fun _ hg => has_jump hg target
  | callGeneric base count =>
    refine .call hw.later (has_goOn hf _ _ _) (has_register hf base) ?_
    simp [has_register hf]
  | stepGeneric base target =>
    unfold execute
    dsimp only
    split
    · exact .next hw.later (has_next hf)
    · exact .next hw.later (has_withRegisters hf (hf.registers.putAt _ (has_register hf _)) _)
  | markToClose r name => exact markToClose_safe hw hf _ _ fun _ hg => has_next hg
  | close level =>
    unfold execute
    refine closeFrom_safe hw hf level ?_
    exact .next hw.later (has_next hf)

end ScriptFrame
end ScriptHost.Lua
