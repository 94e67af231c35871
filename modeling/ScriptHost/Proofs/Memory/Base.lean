import ScriptHost.Proofs.Memory.Operation
/-! The base library is safe. -/
namespace ScriptHost.Lua.BaseFunction
open Text (Bytes)
variable {w : World} {args : List Value}

/-- The functions of the interpreter can be given to scripts at any time. -/
theorem valueOf_has (hw : w.Sound) (f : BaseFunction) : w.Has (valueOf f) := hw.has_builtin (.base f)

theorem raise_safe {v : Value} (hv : w.Has v) (level : Int64) : (raise v level).Safe w := by
  unfold raise
  split
  · exact .ite (.fail trivial) (.fail hv)
  · exact .fail hv

theorem runAssert_safe (ha : w.Has args) : (runAssert args).Safe w := by
  refine .bind (Argument.any_safe ha 1) fun v u hu hv => ?_
  have ha := ha.later hu
  refine .ite (.pure ha) (raise_safe ?_ 1)
  exact (ha.get? 1).getD (has_ofText _)

private theorem setGenerational_safe (on : Bool) : (Task.create (setGenerational on)).Safe w :=
  .create fun _ hv => ⟨hv.sound.untouched ⟨rfl, rfl, rfl, rfl, rfl, rfl, rfl⟩, has_ofText _⟩

theorem runCollectgarbage_safe (args : List Value) : (runCollectgarbage args).Safe w := by
  have same {w : World} {collector : Collector} : w.Untouched { w with collector } :=
    ⟨rfl, rfl, rfl, rfl, rfl, rfl, rfl⟩
  refine .seq (Argument.stringOr_safe _ _ _) fun option => ?_
  dsimp only
  split
  · exact .fail trivial
  · exact .seq (.change_untouched fun _ => same) fun _ => .pure (by simp)
  · exact .seq (.change_untouched fun _ => same) fun _ => .pure (by simp)
  · exact .seq .measure fun _ => .pure (by simp)
  · exact .seq (Argument.integerOr_safe _ _ _) fun _ => .seq .measure fun _ => .pure (by simp)
  · refine .seq (Argument.integerOr_safe _ _ _) fun _ => .seq (.read fun _ _ => trivial) fun _ => ?_
    exact .seq (.change_untouched fun _ => same) fun _ => .pure (by simp)
  · refine .seq (Argument.integerOr_safe _ _ _) fun _ => .seq (.read fun _ _ => trivial) fun _ => ?_
    exact .seq (.change_untouched fun _ => same) fun _ => .pure (by simp)
  · exact .seq (.read fun _ _ => trivial) fun _ => .pure (by simp)
  · exact .bind (setGenerational_safe true) fun v u _ hv => .pure (by simp [hv])
  · exact .bind (setGenerational_safe false) fun v u _ hv => .pure (by simp [hv])
  · exact .pure (by simp)

theorem loadChunk_safe (name text mode : Bytes) {environment : Option Value} (he : w.Has environment) :
    (loadChunk name text mode environment).Safe w := by
  refine .seq .surroundings fun surroundings => .read_bind fun v hv => ?_
  have he := he.later hv
  split
  · next proto _ =>
    refine .bind (.read fun u hu => hu.sound.has_globals) fun globals u hu hg => ?_
    have added (v : World) (hv : u.Later v) :=
      hv.sound.addChunk proto (((he.later hu).getD hg).later hv)
    exact .create_bind (fun v hv => (added v hv).1) fun v hv => .pure (added v hv).2
  · exact .pure trivial
  · exact .bind (.catchFault trivial) fun raised u _ hr => .pure hr

theorem loadFile_safe (path mode : Bytes) {environment : Option Value} (he : w.Has environment) :
    (loadFile path mode environment).Safe w := by
  refine .read_bind fun v hv => ?_
  split
  · exact .pure trivial
  · exact .pure trivial
  · exact loadChunk_safe _ _ _ (he.later hv)

theorem loadNamed_safe (args : List Value) (mode : Bytes) {environment : Option Value}
    (he : w.Has environment) : (loadNamed args mode environment).Safe w :=
  .ite (loadChunk_safe _ _ _ he) (.seq (Argument.string_safe _ _) fun _ => loadFile_safe _ _ he)

theorem has_loaded {outcome : Except Value Value} (h : w.Has outcome) : w.Has (loaded outcome) := by
  cases outcome with
  | ok f => exact (has_list_cons _ _).mpr ⟨h, has_list_nil⟩
  | error message => simpa [loaded] using h

theorem runDofile_safe (args : List Value) : (runDofile args).Safe w := by
  refine .bind (loadNamed_safe _ _ has_none) fun outcome u _ ho => ?_
  split
  · exact .call ho has_list_nil
  · exact .fail ho

theorem runLoadfile_safe (ha : w.Has args) : (runLoadfile args).Safe w := by
  refine .seq (Argument.stringOr_safe _ _ _) fun mode => ?_
  exact .bind (loadNamed_safe _ _ (Argument.has_get? ha 3)) fun outcome u _ ho => .pure (has_loaded ho)

theorem readPieces_safe {reader : Value} (hr : w.Has reader) (fuel : Nat) (text : Bytes) :
    (readPieces reader fuel text).Safe w := by
  induction fuel generalizing text w with
  | zero => exact .fail trivial
  | succ fuel ih =>
    refine .bind (.callGuarded hr has_list_nil trivial) fun outcome u hu ho => ?_
    split
    · exact .pure ho
    · split
      · exact .pure trivial
      · split
        · exact .bind (.catchFault trivial) fun raised _ _ hraised => .pure hraised
        · exact .ite (.pure trivial) (ih (hr.later hu) _)

theorem runLoad_safe (ha : w.Has args) : (runLoad args).Safe w := by
  have he := Argument.has_get? ha 4
  refine .seq (Argument.stringOr_safe _ _ _) fun mode => ?_
  dsimp only
  split
  · refine .seq (Argument.stringOr_safe _ _ _) fun name => ?_
    exact .bind (loadChunk_safe _ _ _ he) fun outcome _ _ ho => .pure (has_loaded ho)
  · refine .seq (Argument.stringOr_safe _ _ _) fun name => ?_
    refine .bind (Argument.function_safe ha 1) fun reader u hu hr => ?_
    refine .bind (readPieces_safe hr _ _) fun outcome u' hu' ho => ?_
    split
    · have he := (he.later hu).later hu'
      exact .bind (loadChunk_safe _ _ _ he) fun outcome _ _ ho => .pure (has_loaded ho)
    · exact .pure (by simpa using ho)

theorem runGetmetatable_safe (ha : w.Has args) : (runGetmetatable args).Safe w := by
  refine .bind (Argument.any_safe ha 1) fun v u hu hv => ?_
  split
  · exact .pure (by simp)
  · refine .read_bind fun u' hu' => ?_
    have hm := hu'.sound.has_metatable? v
    split
    · exact .pure (by simp)
    · next place heq =>
      rw [heq] at hm
      refine .bind (.read fun x hx => Table.has_getName (hx.sound.has_tableAt place) _) fun shown x hx hs => ?_
      split
      · exact .pure (by simpa using hm.later hx)
      · exact .pure (by simpa using hs)

/-- A table whose metatable is not protected gets another one. -/
private theorem replaceMetatable_safe {place : Nat} (hp : w.Has (Value.table place)) {metatable : Option Nat}
    (hmeta : w.Has (metatable.map Value.table)) :
    (do match ← Task.read (·.handler (.table place) "__metatable") with
        | .nil =>
          Task.change fun w => w.modifyTable place fun t => { t with metatable }
          return [.table place]
        | _ => Task.failCaller "cannot change a protected metatable" : Task (List Value)).Safe w := by
  refine .seq (Operation.readHandler_safe _ _) fun handler => ?_
  split
  · refine .seq (.change fun v hv => hv.sound.modifyTable place fun t ht => ?_) fun _ => .pure (by simpa using hp)
    obtain ⟨hlist, hnodes, -, hsearch⟩ := has_table_iff.mp ht
    exact has_table_iff.mpr ⟨hlist, hnodes, hmeta.later hv, hsearch.of_eq rfl rfl⟩
  · exact .failCaller

theorem runSetmetatable_safe (ha : w.Has args) : (runSetmetatable args).Safe w := by
  refine Argument.table_bind ha 1 fun place hp => ?_
  have hm := Argument.has_get? ha 2
  split
  · exact replaceMetatable_safe (by simpa using hp) has_none
  · next m heq => exact replaceMetatable_safe (by simpa using hp) ((has_some _).mpr (hm _ heq))
  · exact Argument.mismatch_bind args 2 "nil or table" _

theorem runNext_safe (ha : w.Has args) : (runNext args).Safe w := by
  refine Argument.table_bind ha 1 fun place _ => ?_
  refine .bind (.read fun v hv => Table.has_next (hv.sound.has_tableAt place) _) fun next v hv hn => ?_
  split
  · exact .pure ((has_list_cons _ _).mpr ⟨hn.1, by simpa using hn.2⟩)
  · exact .pure (by simp)
  · exact .failHere

theorem runPairs_safe (ha : w.Has args) : (runPairs args).Safe w := by
  refine .bind (Argument.any_safe ha 1) fun v u hu hv => ?_
  refine .bind (Operation.readHandler_safe _ _) fun handler u' hu' hh => ?_
  have hv := hv.later hu'
  split
  · have hnext : u'.Has nextValue := valueOf_has hu'.sound .next
    exact .pure (by simp [hnext, hv])
  · refine .bind (.call hh (by simpa using hv)) fun results x _ hr => .pure ?_
    simp only [has_list_cons, has_list_nil, and_true]
    exact ⟨hr.headD has_nil, (hr.get? 1).getD has_nil, (hr.get? 2).getD has_nil⟩

theorem runIpairsStep_safe (ha : w.Has args) : (runIpairsStep args).Safe w := by
  refine .seq (Argument.integer_safe _ _) fun i => ?_
  refine .bind (Operation.index_safe (Argument.has_get ha 1) (has_int _) none) fun v u _ hv => ?_
  split
  · exact .pure (by simp)
  · exact .pure (by simpa using hv)

theorem runProtected_safe {f : Value} (hf : w.Has f) (ha : w.Has args) {handler : Handler}
    (hh : w.Has handler) : (runProtected f args handler).Safe w := by
  refine .bind (.callGuarded hf ha hh) fun outcome u _ ho => ?_
  split
  · exact .pure (by simpa using ho)
  · exact .pure ((has_list_cons _ _).mpr ⟨has_bool _, (has_list_cons _ _).mpr ⟨ho, has_list_nil⟩⟩)

theorem describeAll_safe (ha : w.Has args) : (describeAll args).Safe w := by
  induction args generalizing w with
  | nil => exact .pure trivial
  | cons v rest ih =>
    obtain ⟨hv, hrest⟩ := (has_list_cons _ _).mp ha
    exact .bind (Task.describe_safe hv) fun _ u hu _ => ih (hrest.later hu)

theorem checkTexts_safe (args : List Value) (count n : Nat) : (checkTexts args count n).Safe w := by
  induction count generalizing n with
  | zero => exact .pure trivial
  | succ count ih => exact .seq (Argument.string_safe _ _) fun _ => ih _

theorem runSelect_safe (ha : w.Has args) : (runSelect args).Safe w := by
  refine .ite (.pure (by simp)) ?_
  refine .seq (Argument.integer_safe _ _) fun i => ?_
  exact .seq (Argument.require_safe _ _ _) fun _ => .pure (ha.drop _)

theorem runTonumber_safe (ha : w.Has args) : (runTonumber args).Safe w := by
  refine .ite (.bind (Argument.any_safe ha 1) fun v u _ _ => .pure ?_) ?_
  · cases v.toNumber? <;> simp
  · refine .seq (Argument.integer_safe _ _) fun base => ?_
    split
    · next s _ =>
      refine .seq (Argument.require_safe _ _ _) fun _ => .pure ?_
      cases spelled? base.toNatClampNeg s <;> simp
    · exact Argument.mismatch_safe _ _ _

private theorem rawlen_safe (args : List Value) :
    (match Argument.get args 1 with
      | .table place => do return [Value.ofNat (← Task.read fun w => (w.table place).length)]
      | .string s => return [Value.ofNat s.size]
      | _ => Argument.mismatch args 1 "table or string" : Task (List Value)).Safe w := by
  split
  · exact .seq (.read fun _ _ => trivial) fun _ => .pure (by simp)
  · exact .pure (by simp)
  · exact Argument.mismatch_safe _ _ _

theorem run_safe (f : BaseFunction) (ha : w.Has args) : (run f args).Safe w := by
  cases f with
  | assert => exact runAssert_safe ha
  | collectgarbage => exact runCollectgarbage_safe args
  | dofile => exact runDofile_safe args
  | error => exact .seq (Argument.integerOr_safe _ _ _) fun level => raise_safe (Argument.has_get ha 1) level
  | getmetatable => exact runGetmetatable_safe ha
  | ipairs =>
    refine .bind (Argument.any_safe ha 1) fun v u hu hv => .pure ?_
    have hstep : u.Has ipairsStepValue := valueOf_has hu.sound .ipairsStep
    simp [hstep, hv]
  | load => exact runLoad_safe ha
  | loadfile => exact runLoadfile_safe ha
  | next => exact runNext_safe ha
  | pairs => exact runPairs_safe ha
  | pcall =>
    exact .bind (Argument.any_safe ha 1) fun f u hu hf => runProtected_safe hf ((ha.later hu).drop 1) trivial
  | print => exact .seq (describeAll_safe ha) fun _ => .pure has_list_nil
  | rawequal =>
    exact .bind (Argument.any_safe ha 1) fun a u hu _ =>
      .seq (Argument.any_safe (ha.later hu) 2) fun b => .pure (by simp)
  | rawget =>
    refine Argument.table_bind ha 1 fun place hp => ?_
    refine .bind (Argument.any_safe ha 2) fun key u hu hkey => ?_
    refine .bind (.read fun v hv => ?_) fun found v _ hf => .pure (by simpa using hf)
    cases Key.ofValue? key with
    | none => exact has_nil
    | some tableKey => exact Table.has_get (hv.sound.has_tableAt place) tableKey
  | rawlen => exact rawlen_safe args
  | rawset =>
    refine Argument.table_bind ha 1 fun place hp => ?_
    refine .bind (Argument.any_safe ha 2) fun key u hu hkey => ?_
    refine .bind (Argument.any_safe (ha.later hu) 3) fun value u' hu' hvalue => ?_
    refine .seq (Operation.rawSet_safe place (hkey.later hu') hvalue) fun _ => .pure ?_
    simpa using (hp.later hu).later hu'
  | select => exact runSelect_safe ha
  | setmetatable => exact runSetmetatable_safe ha
  | tonumber => exact runTonumber_safe ha
  | tostring =>
    exact .bind (Argument.any_safe ha 1) fun v u _ hv => .seq (Task.describe_safe hv) fun _ => .pure (by simp)
  | type => exact .seq (Argument.any_safe ha 1) fun _ => .pure (by simp)
  | warn => exact .seq (checkTexts_safe _ _ _) fun _ => .pure has_list_nil
  | xpcall =>
    refine .bind (Argument.function_safe ha 2) fun handler u hu hh => ?_
    exact runProtected_safe (Argument.has_get (ha.later hu) 1) ((ha.later hu).drop 2) hh
  | ipairsStep => exact runIpairsStep_safe ha

end ScriptHost.Lua.BaseFunction
