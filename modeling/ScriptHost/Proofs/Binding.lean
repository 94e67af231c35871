import ScriptHost.Proofs.Request
/-! The functions of a registry as globals. They are bound latest first and each takes the place of what had its name
before, so that of several functions with one name the one that was registered first is left. -/
namespace ScriptHost
open Lua (Interpreter)

/-- A global is a function of the host. -/
def Lua.World.IsNative (w : Lua.World) (name : String) (f : Lua.HostFunction) : Prop :=
  ∃ place, w.globalValue name = .function place ∧ w.functions[place]? = some (.host f)

namespace Registry

/-- One function becomes a global. -/
theorem bind_one {i : Interpreter} (hi : i.world.OpenGlobals) (f : NativeFunction) :
    ∃ j, (i.addFunction f.function).2.setGlobal f.name (.function (i.addFunction f.function).1) = (.ok (), j) ∧
      j.world.OpenGlobals ∧ i.world.BindsMore j.world ∧ j.world.IsNative f.name f.function ∧
      ∀ name, name ≠ f.name → j.world.globalValue name = i.world.globalValue name := by
  have hadd : (i.addFunction f.function).2.world.OpenGlobals := hi.of_tables rfl rfl
  obtain ⟨j, hset, hj, hmore, hvalue⟩ :=
    Interpreter.setGlobal_of_open hadd f.name (.function (i.addFunction f.function).1)
  refine ⟨j, hset, hj, (Lua.World.BindsMore.addFunction ..).trans hmore, ?_, fun name hname => ?_⟩
  · refine ⟨i.world.functions.size, (hvalue f.name).trans (if_pos rfl), hmore.function? ?_⟩
    exact Array.getElem?_push_size
  · exact (hvalue name).trans (if_neg hname)

/-- Of the functions with a name the last one in the list is bound. -/
theorem globals_bindAll (functions : List NativeFunction) (bound : Nat) {i : Interpreter}
    (hi : i.world.OpenGlobals) :
    i.world.BindsMore (bindAll functions bound i).2.world ∧
      ∀ name, match functions.reverse.find? (·.name == name) with
        | some f => (bindAll functions bound i).2.world.IsNative name f.function
        | none => (bindAll functions bound i).2.world.globalValue name = i.world.globalValue name := by
  induction functions generalizing bound i with
  | nil => exact ⟨.refl _, fun _ => rfl⟩
  | cons f rest ih =>
    obtain ⟨j, hset, hj, hmore, hnative, hother⟩ := bind_one hi f
    obtain ⟨hrest, hglobals⟩ := ih (bound + 1) hj
    have hall : bindAll (f :: rest) bound i = bindAll rest (bound + 1) j := by
      simp only [bindAll, hset]
    rw [hall]
    refine ⟨hmore.trans hrest, fun name => ?_⟩
    have hglobal := hglobals name
    rw [List.reverse_cons, List.find?_append]
    cases hlater : rest.reverse.find? (·.name == name) with
    | some g =>
      rw [hlater] at hglobal
      rw [Option.some_or]
      exact hglobal
    | none =>
      rw [hlater] at hglobal
      by_cases hname : f.name = name
      · -- Nothing that comes later has the name of this function.
        subst hname
        obtain ⟨place, hvalue, hf⟩ := hnative
        simp only [Option.none_or, List.find?_cons, beq_self_eq_true]
        exact ⟨place, hglobal.trans hvalue, hrest.function? hf⟩
      · simp only [Option.none_or, List.find?_cons, beq_eq_false_iff_ne.mpr hname, List.find?_nil]
        exact hglobal.trans (hother name (Ne.symm hname))

theorem entries_ofList (functions : List (String × Lua.HostFunction)) :
    (ofList functions).entries.reverse = functions.map fun p => ⟨p.1, p.2⟩ := by
  have register_all (r : Registry) : (functions.foldl (fun r p => r.register p.1 p.2) r).entries.reverse =
      r.entries.reverse ++ functions.map fun p => ⟨p.1, p.2⟩ := by
    induction functions generalizing r with
    | nil => simp
    | cons p rest ih => rw [List.foldl_cons, ih, register, List.reverse_cons, List.append_assoc, List.map_cons]; rfl
  exact register_all {}

theorem size_ofList (functions : List (String × Lua.HostFunction)) :
    (ofList functions).size = functions.length := by
  rw [size, ← List.length_reverse, entries_ofList, List.length_map]

end Registry

namespace Host

/-- Which global is what is settled by the order of the registrations alone. A registered name is the function that
was first registered with it; any other name is what it is in a new interpreter with the same libraries, and so is
all else in the memory. The functions can always be bound, and their number counts those that are overwritten. -/
theorem registry_decides_globals (functions : List (String × Lua.HostFunction)) :
    (Registry.ofList functions).size = functions.length ∧
    (∀ h : Host, ((Registry.ofList functions).bindInto h.fresh).1 = .ok functions.length) ∧
    ∀ h h' : Host, h.registry = .ofList functions →
      h.start = (.ok (), h') ∨ h.answer .renew = (.ok .done, h') →
      ∃ i, h'.interpreter = some i ∧ h.fresh.world.BindsMore i.world ∧
        ∀ name, match functions.find? (·.1 == name) with
          | some (_, f) =>
            ∃ place, (i.global name).1 = .ok (.function place) ∧ i.world.functions[place]? = some (.host f)
          | none => (i.global name).1 = (h.fresh.global name).1 := by
  have hsize := Registry.size_ofList functions
  refine ⟨hsize, fun h => ?_, fun h h' hregistry hnew => ?_⟩
  · have hbind := ({ h with registry := .ofList functions } : Host).bindInto_fresh.1
    rw [← hsize]
    exact congrArg Prod.fst hbind
  · have hh' : h' = h.renewed := by
      obtain hs | hr := hnew
      · exact (h.renewed_of_start hs).2
      · exact congrArg Prod.snd (hr.symm.trans h.answer_renew)
    subst hh'
    obtain ⟨hmore, hglobals⟩ := Registry.globals_bindAll h.registry.entries 0 h.openGlobals_fresh
    change h.fresh.world.BindsMore h.renewal.world at hmore
    refine ⟨h.renewal, rfl, hmore, fun name => ?_⟩
    have hglobal := hglobals name
    have hfind : h.registry.entries.reverse.find? (·.name == name) =
        (functions.find? (·.1 == name)).map fun p => ⟨p.1, p.2⟩ := by
      rw [hregistry, Registry.entries_ofList, List.find?_map]
      rfl
    rw [hfind] at hglobal
    cases hp : functions.find? (·.1 == name) with
    | some p =>
      rw [hp] at hglobal
      obtain ⟨place, hvalue, hf⟩ := hglobal
      change h.renewal.world.globalValue name = .function place at hvalue
      exact ⟨place, by rw [Interpreter.global_fst, hvalue]; rfl, hf⟩
    | none =>
      rw [hp] at hglobal
      change h.renewal.world.globalValue name = h.fresh.world.globalValue name at hglobal
      calc
        (h.renewal.global name).1 = (h.renewal.world.receive (h.fresh.world.globalValue name)).1 := by
          rw [Interpreter.global_fst, hglobal]
        _ = (h.fresh.global name).1 := hmore.receive _

theorem registry_decides_globals_of_three :
    let functions : List (String × Lua.HostFunction) :=
      [("Pick", .constant (.number (.int 1))), ("print", .count), ("Pick", .constant (.number (.int 2)))]
    let given : Host := { config := {}, registry := .ofList functions, files := fun _ => .error .notFound }
    given.start = (.ok (), .offering functions) ∧
      ∃ i, (Host.offering functions).interpreter = some i ∧
        (∃ place, (i.global "Pick").1 = .ok (.function place) ∧
          i.world.functions[place]? = some (.host (.constant (.number (.int 1))))) ∧
        (∃ place, (i.global "print").1 = .ok (.function place) ∧ i.world.functions[place]? = some (.host .count)) ∧
        (i.global "type").1 = (given.fresh.global "type").1 := by
  intro functions given
  have hs := Host.start_offering functions
  obtain ⟨i, hi, -, hglobals⟩ := (registry_decides_globals functions).2.2 given _ rfl (.inl hs)
  exact ⟨hs, i, hi, hglobals "Pick", hglobals "print", hglobals "type"⟩

end Host
end ScriptHost
