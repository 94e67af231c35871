import ScriptHost.Proofs.Binding
import ScriptHost.Proofs.Report
import ScriptHost.Proofs.ReturnedGlobal
/-! Values that go from the host to a global and through a script back to the host. A ledger of what the host has
been asked for says what is on the stack and what each name was last bound to. -/
namespace ScriptHost
open Lua (HostValue Interpreter World)

/-- Whether a value belongs to no interpreter. -/
def Lua.HostValue.isPlain : HostValue → Bool
  | .table _ | .function _ | .error _ => false
  | _ => true

/-- A plain value is the same in every memory. -/
theorem Lua.HostValue.receive_give {v : HostValue} (hv : v.isPlain) :
    ∃ x, ∀ w : World, w.give v = (x, w) ∧ w.receive x = (.ok v, w) := by
  cases v with
  | table _ | function _ | error _ => cases hv
  | _ => exact ⟨_, fun _ => ⟨rfl, rfl⟩⟩

/-- The values that a host has been given. -/
structure Ledger where
  /-- The values that it has still got, the latest first. -/
  stack : List HostValue := []
  /-- The values that names have been bound to, the latest first. -/
  bound : List (String × HostValue) := []

namespace Ledger

def push (ledger : Ledger) (v : HostValue) : Ledger := { ledger with stack := v :: ledger.stack }

/-- The ledger after a request that runs no chunk. -/
def record (ledger : Ledger) : Request → Ledger
  | .pushInteger i => ledger.push (.int i)
  | .pushNumber x => ledger.push (.float x)
  | .pushBoolean b => ledger.push (.bool b)
  | .pushPointer address => ledger.push (if address == 0 then .nil else .pointer address)
  | .pushString text => ledger.push (.string text.toUTF8)
  | .popString =>
    match ledger.stack with
    | v :: rest => if v.text?.isSome then { ledger with stack := rest } else ledger
    | [] => ledger
  | .bindGlobal name =>
    match ledger.stack with
    | v :: rest => { stack := rest, bound := (name, v) :: ledger.bound }
    | [] => ledger
  | .peekInteger _ | .renew | .run _ => ledger

def after (ledger : Ledger) (requests : List Request) : Ledger := requests.foldl record ledger

def lastBound? (ledger : Ledger) (name : String) : Option HostValue := ledger.bound.lookup name

theorem after_append (ledger : Ledger) (requests requests' : List Request) :
    ledger.after (requests ++ requests') = (ledger.after requests).after requests' := List.foldl_append

/-- Only a request that binds a name changes what the name was last bound to. -/
theorem lastBound?_record (ledger : Ledger) {request : Request} {name : String} (hr : request ≠ .bindGlobal name) :
    (ledger.record request).lastBound? name = ledger.lastBound? name := by
  cases request with
  | popString =>
    simp only [record]
    split
    · split <;> rfl
    · rfl
  | bindGlobal name' =>
    have hname : name ≠ name' := fun h => hr (h ▸ rfl)
    simp only [record]
    split
    · simp only [lastBound?, List.lookup_cons, beq_eq_false_iff_ne.mpr hname]
    · rfl
  | _ => rfl

theorem lastBound?_after {ledger : Ledger} {requests : List Request} {name : String}
    (hr : ∀ r ∈ requests, r ≠ .bindGlobal name) :
    (ledger.after requests).lastBound? name = ledger.lastBound? name := by
  induction requests generalizing ledger with
  | nil => rfl
  | cons request rest ih =>
    obtain ⟨hfirst, hrest⟩ := List.forall_mem_cons.mp hr
    exact (ih hrest).trans (ledger.lastBound?_record hfirst)

end Ledger

/-- A request that stays with the host: it runs no chunk and keeps the interpreter. -/
def Request.staysWithHost : Request → Bool
  | .run _ | .renew => false
  | _ => true

/-- A host has what its ledger says. -/
structure Ledger.Describes (ledger : Ledger) (h : Host) (i : Interpreter) : Prop where
  interpreter : h.interpreter = some i
  openGlobals : i.world.OpenGlobals
  stack : h.stack = ledger.stack
  plain : ∀ v ∈ ledger.stack, v.isPlain
  bound : ∀ name v, ledger.lastBound? name = some v →
    v.isPlain ∧ ∀ w : World, w.receive (i.world.globalValue name) = (.ok v, w)

namespace Ledger.Describes
variable {ledger : Ledger} {h : Host} {i : Interpreter}

theorem push (hl : ledger.Describes h i) {v : HostValue} (hv : v.isPlain) :
    (ledger.push v).Describes (h.withStack (v :: h.stack)) i where
  interpreter := hl.interpreter
  openGlobals := hl.openGlobals
  stack := congrArg (v :: ·) hl.stack
  plain := List.forall_mem_cons.mpr ⟨hv, hl.plain⟩
  bound := hl.bound

theorem drop (hl : ledger.Describes h i) {v : HostValue} {rest : List HostValue} (hs : ledger.stack = v :: rest) :
    { ledger with stack := rest : Ledger }.Describes (h.withStack rest) i where
  interpreter := hl.interpreter
  openGlobals := hl.openGlobals
  stack := rfl
  plain u hu := hl.plain u (hs ▸ List.mem_cons_of_mem v hu)
  bound := hl.bound

/-- A value that becomes a global is in the memory under its name, and every other name keeps its value. -/
theorem bind (hl : ledger.Describes h i) {v : HostValue} {rest : List HostValue} (hs : ledger.stack = v :: rest)
    (name : String) :
    ∃ j, { stack := rest, bound := (name, v) :: ledger.bound : Ledger }.Describes
      (h.answer (.bindGlobal name)).2 j := by
  have hv : v.isPlain := hl.plain v (hs ▸ List.mem_cons_self)
  obtain ⟨x, hx⟩ := v.receive_give hv
  obtain ⟨j, hset, hj, -, hvalue⟩ := Interpreter.setGlobal_of_open hl.openGlobals name v
  rw [h.answer_bindGlobal_cons hl.interpreter (hl.stack.trans hs), hset]
  refine ⟨_, rfl, hj.of_tables rfl rfl, rfl, (hl.drop hs).plain, fun name' v' hv' => ?_⟩
  change (List.lookup name' ((name, v) :: ledger.bound)) = some v' at hv'
  change v'.isPlain ∧ ∀ w : World, w.receive (j.world.globalValue name') = _
  rw [hvalue, (hx i.world).1]
  by_cases hname : name' = name
  · -- The new value hides what the name was bound to before.
    rw [hname, List.lookup_cons_self, Option.some_inj] at hv'
    rw [if_pos hname, ← hv']
    exact ⟨hv, fun w => (hx w).2⟩
  · rw [List.lookup_cons, beq_eq_false_iff_ne.mpr hname] at hv'
    rw [if_neg hname]
    exact hl.bound name' v' hv'

/-- A request that stays with the host does to it what it does to the ledger. -/
theorem answer (hl : ledger.Describes h i) {request : Request} (hr : request.staysWithHost) :
    ∃ j, (ledger.record request).Describes (h.answer request).2 j := by
  cases request with
  | renew | run _ => cases hr
  | pushInteger _ | pushNumber _ | pushBoolean _ => exact ⟨i, hl.push rfl⟩
  | pushPointer address =>
    refine ⟨i, hl.push ?_⟩
    split <;> rfl
  | pushString text =>
    rw [h.answer_pushString, hl.interpreter]
    exact ⟨i, hl.push rfl⟩
  | popString =>
    rcases hs : ledger.stack with _ | ⟨v, rest⟩
    · rw [h.answer_popString_nil (hl.stack.trans hs), Ledger.record, hs]
      exact ⟨i, hl⟩
    · rw [h.answer_popString_cons (hl.stack.trans hs), h.textOf?_eq hl.interpreter, Ledger.record, hs]
      dsimp only
      cases hv : v.text? with
      | none => exact ⟨i, hl⟩
      | some text => exact ⟨i, hl.drop hs⟩
  | peekInteger _ => exact ⟨i, hl⟩
  | bindGlobal name =>
    rcases hs : ledger.stack with _ | ⟨v, rest⟩
    · rw [h.answer_bindGlobal_nil (hl.stack.trans hs), Ledger.record, hs]
      exact ⟨i, hl⟩
    · rw [Ledger.record, hs]
      exact hl.bind hs name

theorem after (hl : ledger.Describes h i) {requests : List Request} (hr : ∀ r ∈ requests, r.staysWithHost) :
    ∃ j, (ledger.after requests).Describes (h.after requests) j := by
  induction requests generalizing ledger h i with
  | nil => exact ⟨i, hl⟩
  | cons request rest ih =>
    obtain ⟨hfirst, hrest⟩ := List.forall_mem_cons.mp hr
    obtain ⟨j, hj⟩ := hl.answer hfirst
    exact ih hj hrest

theorem renewed (h : Host) : ({} : Ledger).Describes h.renewed h.renewal where
  interpreter := rfl
  openGlobals := h.bindInto_fresh.2
  stack := rfl
  plain := by simp
  bound := by simp [lastBound?]

end Ledger.Describes

namespace Host
variable {h : Host} {i : Interpreter}

theorem prepared_identifier {name : String} (hid : Lua.isIdentifier name) : h.prepared name = name := by
  rw [prepared, Source.prepareExpression_identifier hid, ite_self]

theorem verdict?_identifier (hi : h.interpreter = some i) {name : String} (hid : Lua.isIdentifier name) :
    h.verdict? (.expression name) = some (h.judge i ("return " ++ name).toUTF8).1 := by
  simp only [verdict?, hi, chunk?, prepared_identifier hid]

/-- Nothing can be loaded under a name that has a zero in it. -/
theorem judge_of_holdsZero (hchunk : Interpreter.HoldsZero h.config.chunkName) (source : Text.Bytes) :
    ∃ message, (h.judge i source).1 = .error .parsing (.runtime message) := by
  obtain ⟨message, hcheck⟩ := Interpreter.checkName_of_holdsZero hchunk
  refine ⟨message, ?_⟩
  simp only [judge, Interpreter.load, hcheck]

/-- Under such a name no chunk is run, and one report says so. -/
theorem answer_of_holdsZero (hi : h.interpreter = some i) (hchunk : Interpreter.HoldsZero h.config.chunkName)
    {r : Run} {source : Text.Bytes} {shown : String} (hc : h.chunk? r = some (source, shown)) :
    (h.answer (.run r)).1 = .ok r.failure ∧ ∃ report, h.Reports r [report] := by
  obtain ⟨message, hjudge⟩ := judge_of_holdsZero (i := i) hchunk source
  have hverdict : h.verdict? r = some (.error .parsing (.runtime message)) := by
    simp only [verdict?, hi, hc, hjudge]
  obtain ⟨hanswer, hreports⟩ := answer_run_error hverdict (by simp [Lua.ScriptError.rootCause])
  exact ⟨hanswer, _, hreports⟩

/-- A global is what the chunk that returns it gives. -/
theorem judge_return {name : String} (hread : i.world.ReadsPlainly i.world.globals name.toUTF8)
    (hchunk : ¬ Interpreter.HoldsZero h.config.chunkName) (hid : Lua.isIdentifier name) (hn : name ≠ "_ENV")
    {v : HostValue}
    (hv : ∀ w : World, w.receive (i.world.globalValue name) = (.ok v, w)) :
    (h.judge i ("return " ++ name).toUTF8).1 = .results [v] := by
  let proto := Lua.returnGlobal h.config.chunkName.toUTF8 name.toUTF8
  let captured := Array.ofFn fun k : Fin proto.upvalues.size => i.world.cells.size + k
  have hload := i.load_return hchunk hid hn
  let j : Interpreter := { i.afterReading ("return " ++ name).toUTF8 with
    world := { (i.world.addChunk proto (.table i.world.globals)).2 with events := [] } }
  have hf : j.world.functions[i.world.functions.size]? = some (.closure proto captured) := Array.getElem?_push_size
  have hcell : j.world.cells[captured[0]?.getD 0]? = some (.table i.world.globals) := by
    have hcaptured : captured[0]?.getD 0 = i.world.cells.size := rfl
    rw [hcaptured]
    exact (Array.getElem?_append_right (Nat.le_refl _)).trans (by rw [Nat.sub_self]; rfl)
  obtain ⟨k, hcall⟩ := Interpreter.call_returnGlobal (i := j) hf hcell hread hv
  change Interpreter.call (Interpreter.takeEvents { i.afterReading _ with world := _ }).2 _ = _ at hcall
  simp only [judge, hload]
  rw [hcall]

/-- The value of an expression comes back on top of the stack, and nothing is reported. -/
structure GivesBack (h : Host) (text : String) (v : HostValue) : Prop where
  answer : (h.answer (.run (.expression text))).1 = .ok (.truth true)
  stack : (h.answer (.run (.expression text))).2.stack = v :: h.stack
  silent : h.Reports (.expression text) []

theorem givesBack_of_results {text : String} {v : HostValue} (hv : h.verdict? (.expression text) = some (.results [v]))
    (hplain : v.isPlain) : h.GivesBack text v := by
  obtain ⟨interpreter, log, hj, -⟩ := h.judged_frame (.expression text)
  have hfunction : ¬ v.isFunction := by
    cases v with
    | function _ => cases hplain
    | _ => exact Bool.false_ne_true
  have hanswer : h.answer (.run (.expression text)) =
      (.ok (.truth true), (h.judged (.expression text)).withStack (v :: (h.judged (.expression text)).stack)) := by
    rw [answer_run hv]
    exact if_neg hfunction
  refine ⟨congrArg Prod.fst hanswer, ?_, .of_results hv⟩
  rw [hanswer, hj]
  rfl

theorem givesBack_iff {ledger : Ledger} (hl : ledger.Describes h i) {name : String} (hid : Lua.isIdentifier name)
    (hn : name ≠ "_ENV") {v : HostValue} (hv : ledger.lastBound? name = some v) :
    h.GivesBack name v ↔ ¬ Interpreter.HoldsZero h.config.chunkName := by
  have hverdict := verdict?_identifier hl.interpreter hid
  obtain ⟨hplain, hglobal⟩ := hl.bound name v hv
  refine ⟨fun hgives hzero => ?_, fun hchunk => ?_⟩
  · -- The name is refused before the text is looked at.
    have hfalse := (answer_of_holdsZero (r := .expression name) hl.interpreter hzero rfl).1
    rw [hgives.answer] at hfalse
    cases hfalse
  · rw [judge_return (.inl hl.openGlobals.plain) hchunk hid hn hglobal] at hverdict
    exact givesBack_of_results hverdict hplain

/-- A value that the host binds to a name comes back when a script returns the name, whatever else the host pushes,
pops, peeks at and binds to other names before and after, and however the stack stands by then. It does so exactly
when the configured name of chunks is one under which a chunk can be loaded. -/
theorem bound_value_returns_iff {given : Host} (hs : given.start = (.ok (), h)) {before later : List Request}
    (hbefore : ∀ r ∈ before, r.staysWithHost) {name : String}
    (hlater : ∀ r ∈ later, r.staysWithHost ∧ r ≠ .bindGlobal name) (hid : Lua.isIdentifier name)
    (hn : name ≠ "_ENV") {v : HostValue} (hv : (Ledger.after {} before).lastBound? name = some v) :
    (h.after (before ++ later)).stack = (Ledger.after {} (before ++ later)).stack ∧
      ((h.after (before ++ later)).GivesBack name v ↔ ¬ Interpreter.HoldsZero given.config.chunkName) := by
  obtain ⟨-, rfl⟩ := given.renewed_of_start hs
  have hall : ∀ r ∈ before ++ later, r.staysWithHost := by
    intro r hr
    obtain hr | hr := List.mem_append.mp hr
    · exact hbefore r hr
    · exact (hlater r hr).1
  obtain ⟨i, hl⟩ := (Ledger.Describes.renewed given).after hall
  have hlast : (Ledger.after {} (before ++ later)).lastBound? name = some v := by
    rw [Ledger.after_append, Ledger.lastBound?_after fun r hr => (hlater r hr).2, hv]
  have hconfig : (given.renewed.after (before ++ later)).config = given.config := (keeps_after ..).config
  have hgives := givesBack_iff hl hid hn hlast
  rw [hconfig] at hgives
  exact ⟨hl.stack, hgives⟩

theorem bound_value_returns_iff_rebound :
    let before := [.pushInteger 7, .bindGlobal "speed", .pushString "fast", .bindGlobal "speed"]
    let later := [.pushPointer 0, .bindGlobal "brake", .pushBoolean true]
    let h := (Host.offering []).after (before ++ later)
    (∀ r ∈ before, r.staysWithHost) ∧ (∀ r ∈ later, r.staysWithHost ∧ r ≠ .bindGlobal "speed") ∧
      Lua.isIdentifier "speed" ∧ (Ledger.after {} before).lastBound? "speed" = some (.string "fast".toUTF8) ∧
      h.stack = [.bool true] ∧ h.GivesBack "speed" (.string "fast".toUTF8) := by
  intro before later h
  have hbefore : ∀ r ∈ before, r.staysWithHost := by decide
  have hlater : ∀ r ∈ later, r.staysWithHost ∧ r ≠ .bindGlobal "speed" := by decide
  have hid : Lua.isIdentifier "speed" := by decide +kernel
  have hv : (Ledger.after {} before).lastBound? "speed" = some (.string "fast".toUTF8) := rfl
  obtain ⟨hstack, hgives⟩ :=
    bound_value_returns_iff (Host.start_offering []) hbefore hlater hid (by decide) hv
  exact ⟨hbefore, hlater, hid, hv, hstack, hgives.mpr (by decide +kernel)⟩

/-- A host whose chunks have a name with a zero in it. -/
def misnamed : Host :=
  (Host.start { config := { chunkName := "a\x00b" }, registry := {}, files := fun _ => .error .notFound }).2

theorem start_misnamed :
    Host.start { config := { chunkName := "a\x00b" }, registry := {}, files := fun _ => .error .notFound } =
      (.ok (), misnamed) :=
  Prod.ext (by rw [start_eq]; rfl) rfl

/-- Such a host starts and takes values, and no script can return them. -/
theorem bound_value_lost_to_chunk_name :
    let requests := [.pushInteger 7, .bindGlobal "speed"]
    let h := misnamed.after requests
    Reachable misnamed ∧ (∀ r ∈ requests, r.staysWithHost) ∧ Lua.isIdentifier "speed" ∧
      (Ledger.after {} requests).lastBound? "speed" = some (.int 7) ∧
      (h.answer (.run (.expression "speed"))).1 = .ok (.truth false) ∧ ¬ h.GivesBack "speed" (.int 7) := by
  intro requests h
  have hrequests : ∀ r ∈ requests, r.staysWithHost := by decide
  have hid : Lua.isIdentifier "speed" := by decide +kernel
  obtain ⟨-, hrenewed⟩ := renewed_of_start _ start_misnamed
  obtain ⟨i, hl⟩ := (Ledger.Describes.renewed _).after hrequests
  rw [← hrenewed] at hl
  have hzero : Interpreter.HoldsZero h.config.chunkName := by
    rw [(misnamed.keeps_after requests).config]
    decide +kernel
  obtain ⟨message, hjudge⟩ := judge_of_holdsZero (i := i) hzero ("return " ++ "speed").toUTF8
  have hverdict := verdict?_identifier hl.interpreter hid
  rw [hjudge] at hverdict
  have hfalse := (answer_run_error hverdict (by simp [Lua.ScriptError.rootCause])).1
  refine ⟨.started _ _ _ _ _ start_misnamed, hrequests, hid, rfl, hfalse, fun hgives => ?_⟩
  rw [hgives.answer] at hfalse
  cases hfalse

end Host
end ScriptHost
