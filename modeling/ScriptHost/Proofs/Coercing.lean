import ScriptHost.Proofs.Assignment
import ScriptHost.Proofs.Decimal
import ScriptHost.Proofs.Peeking
import ScriptHost.Proofs.RoundTrip
import ScriptHost.Proofs.Stacking
/-! Integers and the texts that they have. Both count as one number on the stack. As globals they do too, unless the
metatable of the globals lets somebody take the value. -/
namespace ScriptHost.Host
open Lua (HostValue Interpreter World)

variable {h : Host} {i : Interpreter}

theorem numberOf?_eq (hi : h.interpreter.isSome) (v : HostValue) : h.numberOf? v = v.number? := by
  cases v <;> simp [numberOf?, hi]

/-- The text of an integer spells the number that the integer is. -/
theorem number?_shown (v : Int64) :
    (Item.text (toString v.toInt)).value.number? = some (Numeral.ofInt v.toInt) := by
  have hread : Lua.Number.ofBytes? (toString v.toInt).toUTF8 = some (.int v) := Lua.Number.ofBytes?_intText v
  change (Lua.Number.ofBytes? (toString v.toInt).toUTF8).map Lua.Number.toFloat = _
  rw [hread]
  rfl

/-- An integer that has been pushed is popped as the text that it has. -/
theorem answer_popString_pushed (hi : h.interpreter.isSome) (v : Int64) :
    (h.after [.pushInteger v]).answer .popString = (.ok (.text (toString v.toInt)), h) := by
  have hpush : h.after [.pushInteger v] = h.withStack ((Item.integer v).value :: h.stack) := rfl
  rw [hpush]
  exact answer_popString_item (h := h.withStack ((Item.integer v).value :: h.stack)) hi rfl

/-- What is pushed counts on top of the stack as the number that it is. -/
theorem peek_pushed (hi : h.interpreter.isSome) (item : Item) :
    ((h.after [item.push]).answer (.peekInteger (-1))).1 =
      .ok (.integerOrNone (some ((item.value.number?.map Numeral.truncateToInt64).getD 0))) := by
  have hafter : h.after [item.push] = h.withStack (item.value :: h.stack) := congrArg Prod.snd (answer_push hi item)
  have hnumber : (h.withStack (item.value :: h.stack)).numberOf? item.value = item.value.number? :=
    numberOf?_eq (h := h.withStack (item.value :: h.stack)) hi item.value
  rw [hafter, answer_peekInteger, peekInteger, at?_top (h.withStack (item.value :: h.stack)) rfl, Option.map_some,
    hnumber]

/-- The number that a name gives once it has been bound to what a request pushes. -/
def numberOnceBound (h : Host) (name : String) (push : Request) : Except Interruption Reply :=
  ((h.after [push, .bindGlobal name]).answer (.run (.number name))).1

/-- The number that a name gives with another interpreter. -/
def numberWith (h : Host) (j : Interpreter) (name : String) : Except Interruption Reply :=
  ((h.keeping j).answer (.run (.number name))).1

/-- It is the interpreter in which the name has been set that counts. -/
theorem numberOnceBound_eq (hi : h.interpreter = some i) (name : String) (item : Item) :
    h.numberOnceBound name item.push = h.numberWith (i.setGlobal name item.value).2 name := by
  have hsome : h.interpreter.isSome := by rw [hi, Option.isSome_some]
  have hafter : h.after [item.push, .bindGlobal name] =
      ((h.withStack (item.value :: h.stack)).answer (.bindGlobal name)).2 := by
    simp only [after, answer_push hsome item]
  have alike : (h.keeping (i.setGlobal name item.value).2).Alike (h.after [item.push, .bindGlobal name]) := by
    rw [hafter, answer_bindGlobal_cons (h.withStack (item.value :: h.stack)) hi rfl]
    rcases i.setGlobal name item.value with ⟨_ | e | payload, j⟩ <;> exact ⟨_, _, _, _, rfl⟩
  exact (alike.answer (.run (.number name))).1

/-- A handler that takes the value decides which interpreter that is. -/
theorem numberOnceBound_of_taken (hi : h.interpreter = some i) {name : String} {handler : Lua.Value}
    (htaken : i.interceptor? name = some handler) (item : Item) :
    h.numberOnceBound name item.push = h.numberWith (i.intercept handler name item.value).2 name := by
  rw [numberOnceBound_eq hi, i.setGlobal_eq, htaken]

section Globals
variable {name : String} (hid : Lua.isIdentifier name) (hn : name ≠ "_ENV")
include hid hn

/-- A global that has a value gives the number that the value counts as, unless nothing can be loaded at all. -/
theorem numberWith_eq {j : Interpreter} {x : Lua.Value} (hx : j.world.globalValue name = x) (hnil : x ≠ .nil)
    {v : HostValue} (hv : ∀ w : World, w.receive x = (.ok v, w)) (hfunction : v.isFunction = false) :
    h.numberWith j name =
      .ok (.number (if Interpreter.HoldsZero h.config.chunkName then 0.0 else v.number?.getD 0.0)) := by
  unfold numberWith
  generalize hg : h.keeping j = g
  have hi : g.interpreter = some j.takeEvents.2 := hg ▸ rfl
  have hname : g.config.chunkName = h.config.chunkName := hg ▸ rfl
  rw [← hname]
  by_cases hzero : Interpreter.HoldsZero g.config.chunkName
  · rw [if_pos hzero]
    exact (answer_of_holdsZero (r := .number name) hi hzero rfl).1
  · have hread : j.takeEvents.2.world.ReadsPlainly j.takeEvents.2.world.globals name.toUTF8 :=
      .inr fun hget => hnil (hx.symm.trans hget)
    have hverdict : g.verdict? (.number name) = some (g.judge j.takeEvents.2 ("return " ++ name).toUTF8).1 :=
      verdict?_identifier hi hid
    rw [judge_return hread hzero hid hn (v := v) fun w => hx ▸ hv w] at hverdict
    obtain ⟨interpreter, log, hj, hsome⟩ := g.judged_frame (.number name)
    have hnumber : (g.judged (.number name)).numberOf? v = v.number? := by
      apply numberOf?_eq
      rw [hj]
      exact hsome (by rw [hi, Option.isSome_some])
    rw [if_neg hzero, answer_run hverdict]
    simp only [conclude, List.headD_cons, accept, unlessFunction, hfunction, hnumber, Bool.false_eq_true, if_false]

/-- A name whose value nobody takes gives the number that it has been bound to. -/
theorem numberOnceBound_of_free (hs : h.Sound) (hi : h.interpreter = some i) (hfree : i.interceptor? name = none)
    (item : Item) :
    h.numberOnceBound name item.push =
      .ok (.number (if Interpreter.HoldsZero h.config.chunkName then 0.0 else item.value.number?.getD 0.0)) := by
  have hset := i.setGlobal_eq name item.value
  rw [hfree] at hset
  rw [numberOnceBound_eq hi, hset]
  have hglobal := (hs i hi).1.globalValue_assign name item.value
  generalize i.world.assign name item.value = w at hglobal
  cases item with
  | text s =>
    exact numberWith_eq (j := { i with world := w }) hid hn hglobal Lua.Value.noConfusion (fun _ => rfl) rfl
  | integer v =>
    exact numberWith_eq (j := { i with world := w }) hid hn hglobal Lua.Value.noConfusion (fun _ => rfl) rfl

end Globals

/-- The text that an integer is taken as counts as the integer counts. On top of the stack it always does. Under a name
it does as long as nobody takes the values of the name, and both then give the number nearest to the integer. If the
handler that the metatable of the globals has for names without a value takes them, it does exactly if the handler
leaves the same number behind for both. -/
theorem shown_counts_alike_iff (hr : Reachable h) (hi : h.interpreter = some i) (v : Int64) :
    ∃ t, (h.after [.pushInteger v]).answer .popString = (.ok (.text t), h) ∧
      ((h.after [.pushString t]).answer (.peekInteger (-1))).1 =
        ((h.after [.pushInteger v]).answer (.peekInteger (-1))).1 ∧
      ∀ name, Lua.isIdentifier name → name ≠ "_ENV" →
        (i.interceptor? name = none → ∀ push ∈ [.pushString t, .pushInteger v], h.numberOnceBound name push =
          .ok (.number (if Interpreter.HoldsZero h.config.chunkName then 0.0 else Numeral.ofInt v.toInt))) ∧
        (h.numberOnceBound name (.pushString t) = h.numberOnceBound name (.pushInteger v) ↔
          ∀ handler, i.interceptor? name = some handler →
            h.numberWith (i.intercept handler name (.string t.toUTF8)).2 name =
              h.numberWith (i.intercept handler name (.int v)).2 name) := by
  have hsome : h.interpreter.isSome := hr.interpreter_isSome
  have hinteger : (Item.integer v).value.number? = some (Numeral.ofInt v.toInt) := rfl
  have htext := number?_shown v
  refine ⟨toString v.toInt, answer_popString_pushed hsome v, ?_, fun name hid hn => ?_⟩
  · have hpeek := peek_pushed hsome (.text (toString v.toInt))
    rw [htext, ← hinteger, ← peek_pushed hsome] at hpeek
    exact hpeek
  · have hfree (hnone : i.interceptor? name = none) :
        ∀ push ∈ [.pushString (toString v.toInt), .pushInteger v], h.numberOnceBound name push =
          .ok (.number (if Interpreter.HoldsZero h.config.chunkName then 0.0 else Numeral.ofInt v.toInt)) := by
      have hbound := numberOnceBound_of_free hid hn hr.sound hi hnone
      have hboth := (hbound (.text (toString v.toInt))).trans (by rw [htext])
      simp only [List.mem_cons, List.not_mem_nil, or_false, forall_eq_or_imp, forall_eq]
      exact ⟨hboth, hbound (.integer v)⟩
    refine ⟨hfree, ?_⟩
    cases hinterceptor : i.interceptor? name with
    | none =>
      have hboth := hfree hinterceptor
      refine iff_of_true ?_ fun handler hhandler => ?_
      · rw [hboth (.pushString (toString v.toInt)) (by simp), hboth (.pushInteger v) (by simp)]
      · cases hhandler
    | some handler =>
      have htext := numberOnceBound_of_taken hi hinterceptor (.text (toString v.toInt))
      have hinteger := numberOnceBound_of_taken hi hinterceptor (.integer v)
      constructor
      · intro hsame handler' hhandler
        cases hhandler
        exact htext.symm.trans (hsame.trans hinteger)
      · intro hsame
        exact htext.trans ((hsame handler rfl).trans hinteger.symm)

/-- A text and the smallest integer, under a name that nobody takes the values of. -/
theorem shown_counts_alike_iff_smallest :
    ∃ i, Reachable (offering []) ∧ (offering []).interpreter = some i ∧ Lua.isIdentifier "x" ∧ "x" ≠ "_ENV" ∧
      i.interceptor? "x" = none ∧
      ∃ t, ((offering []).after [.pushInteger Int64.minValue]).answer .popString = (.ok (.text t), offering []) ∧
        (offering []).numberOnceBound "x" (.pushString t) =
          (offering []).numberOnceBound "x" (.pushInteger Int64.minValue) := by
  have hr : Reachable (offering []) := Reachable.offering []
  obtain ⟨i, hi⟩ := Option.isSome_iff_exists.mp hr.interpreter_isSome
  have hfree : (offering []).interpreter.all fun i => (i.interceptor? "x").isNone := by decide +kernel
  rw [hi, Option.all_some, Option.isNone_iff_eq_none] at hfree
  have hid : Lua.isIdentifier "x" := by decide +kernel
  have hn : "x" ≠ "_ENV" := by decide
  obtain ⟨t, hpop, -, hnames⟩ := shown_counts_alike_iff hr hi Int64.minValue
  obtain ⟨-, hiff⟩ := hnames "x" hid hn
  refine ⟨i, hr, hi, hid, hn, hfree, t, hpop, hiff.mpr ?_⟩
  intro handler hhandler
  rw [hfree] at hhandler
  cases hhandler

/-- A host whose globals keep only what kind a new value is of. -/
def sorting : Host :=
  (offering []).after
    [.run (.script
      "setmetatable(_G, \x7b__newindex = function(g, k, x) rawset(g, k, math.type(x) and 1 or 2) end\x7d)")]

/-- What is left of an integer there is not what is left of its text. -/
theorem sorting_counts_apart :
    Reachable sorting ∧ ∃ t,
      (sorting.after [.pushInteger 5]).answer .popString = (.ok (.text t), sorting) ∧
        sorting.numberOnceBound "x" (.pushString t) ≠ sorting.numberOnceBound "x" (.pushInteger 5) := by
  have hr : Reachable sorting := (Reachable.offering []).after _
  refine ⟨hr, _, answer_popString_pushed hr.interpreter_isSome 5, fun hsame => ?_⟩
  have hother : (sorting.numberOnceBound "x" (.pushString "5")).toOption ≠
      (sorting.numberOnceBound "x" (.pushInteger 5)).toOption := by decide +kernel
  apply hother
  exact congrArg Except.toOption hsame

end ScriptHost.Host
