import Mathlib.Data.List.Nodup
import ScriptHost.Proofs.Toml.Document
/-! Fitting the tables of a document to fields. They come in the order of their keys, whatever order the document has
them in. -/
namespace ScriptHost.Config.Toml

/-- Names in their order, each once. -/
def Ascends (names : List String) : Prop := names.Pairwise fun a b => compare a b = .lt

instance (names : List String) : Decidable (Ascends names) := inferInstanceAs (Decidable (List.Pairwise _ _))

theorem Ascends.nodup {names : List String} (h : Ascends names) : names.Nodup := by
  refine h.imp fun {a b} hlt heq => ?_
  have hself : compare b b = .eq := Std.ReflCmp.compare_self
  rw [heq, hself] at hlt
  cases hlt

/-- Sorting finds the order of the keys. -/
theorem Entries.sorted_eq {entries ordered : Entries} (hperm : entries.Perm ordered)
    (hordered : Ascends (ordered.map (·.1))) : entries.sorted = ordered := by
  have hle (a b : String) : (compare a b != .gt) = (compare a b).isLE := by cases compare a b <;> rfl
  have hsorted : entries.sorted.Perm ordered := (List.mergeSort_perm ..).trans hperm
  refine @List.Perm.eq_of_pairwise _ (fun a b => (compare a.1 b.1 != .gt) = true) _ _ ?_ ?_ ?_ hsorted
  · intro a b ha hb hab hba
    rw [hle] at hab hba
    exact List.inj_on_of_nodup_map hordered.nodup (hsorted.mem_iff.mp ha) hb
      (Std.LawfulEqCmp.eq_of_compare (Std.OrientedCmp.isLE_antisymm hab hba))
  · refine List.pairwise_mergeSort (fun a b c hab hbc => ?_) (fun a b => ?_) entries
    · rw [hle] at *
      exact Std.TransCmp.isLE_trans hab hbc
    · have hswap : compare b.1 a.1 = (compare a.1 b.1).swap := Std.OrientedCmp.eq_swap
      rw [hswap]
      cases compare a.1 b.1 <;> rfl
  · exact (List.pairwise_map.mp hordered).imp fun hlt => by rw [hlt]; rfl

section Fields
variable {S α β : Type} {fields : List (String × (S → Value → Fitted S))} {s s' s'' : S} {entries entries' : Entries}

/-- What an entry does to the fields of a section. -/
def fitEntry (fields : List (String × (S → Value → Fitted S))) (state : S) (entry : String × Value) : Fitted S :=
  match fields.lookup entry.1 with
  | some field => field state entry.2
  | none => .ok state

/-- Some entries, fitted one after the other, take the fields of a section from one state to another. -/
def Fits (fields : List (String × (S → Value → Fitted S))) (s : S) (entries : Entries) (s' : S) : Prop :=
  entries.foldlM (fitEntry fields) s = .ok s'

theorem Fits.append (h : Fits fields s entries s') (h' : Fits fields s' entries' s'') :
    Fits fields s (entries ++ entries') s'' := by
  unfold Fits at *
  rw [List.foldlM_append, h]
  exact h'

variable {name : String} {mean : α → Value} {field : S → Value → Fitted S}

/-- A setting that is given changes the part of the state that it is about; without it that part stays. -/
theorem fits_ifGiven (part : S → β) (change : S → β → S) (value : α → β) (hself : ∀ s, change s (part s) = s)
    (hlookup : fields.lookup name = some field) (hfield : ∀ s a, field s (mean a) = .ok (change s (value a)))
    (setting : Option α) (s : S) :
    Fits fields s (ifGiven name mean setting) (change s ((setting.map value).getD (part s))) := by
  unfold Fits
  cases setting with
  | none => exact (congrArg Except.ok (hself s)).symm
  | some a =>
    rw [ifGiven, List.foldlM_cons, fitEntry, hlookup]
    dsimp only
    rw [hfield]
    rfl

theorem fits_ifGiven_self (part : S → α) (change : S → α → S) (hself : ∀ s, change s (part s) = s)
    (hlookup : fields.lookup name = some field) (hfield : ∀ s a, field s (mean a) = .ok (change s a))
    (setting : Option α) (s : S) : Fits fields s (ifGiven name mean setting) (change s (setting.getD (part s))) := by
  have h := fits_ifGiven part change id hself hlookup hfield setting s
  rwa [Option.map_id] at h

/-- A table is fitted entry by entry, in the order of its keys. -/
theorem Fits.fitSection {expected : Expected} {origin : Origin} {ordered : Entries} (h : Fits fields s ordered s')
    (hperm : entries.Perm ordered) (hordered : Ascends (ordered.map (·.1))) :
    fitSection expected s fields (.table origin entries) = .ok s' := by
  rw [Toml.fitSection, fitFields, Entries.sorted_eq hperm hordered]
  exact h

end Fields

theorem fitLogging_level (level : LogLevel) :
    fitLogging (.table .headed [("level", .string level.name)]) = .ok level := by
  have hlevel (level : LogLevel) : fitLevel (.string level.name) = .ok level := by cases level <;> rfl
  have hsection : fitSection .logging (none : Option LogLevel) [("level", fun _ v => return some (← fitLevel v))]
      (.table .headed [("level", .string level.name)]) = .ok (some level) := by
    refine Fits.fitSection ?_ (.refl _) (by decide : Ascends ["level"])
    change Fits _ none (ifGiven "level" (fun level : LogLevel => .string level.name) (some level)) _
    exact fits_ifGiven id (fun _ level? => level?) some (fun _ => rfl) rfl
      (fun _ level => by simp only [hlevel]; rfl) (some level) none
  rw [fitLogging, hsection]
  rfl

end ScriptHost.Config.Toml
namespace ScriptHost
open Config Config.Toml

theorem LibrarySettings.fitLibraries_entries (settings : LibrarySettings) :
    fitLibraries (.table .headed (settings.entries .boolean)) = .ok settings.libraries := by
  refine Fits.fitSection ?_ (.refl _) (List.Pairwise.sublist (settings.keys_entries _) (by decide))
  refine .append (fits_ifGiven_self Libraries.math (fun l on => { l with math := on }) (fun _ => rfl) rfl
    (fun _ _ => rfl) _ _) ?_
  refine .append (fits_ifGiven_self Libraries.string (fun l on => { l with string := on }) (fun _ => rfl) rfl
    (fun _ _ => rfl) _ _) ?_
  refine .append (fits_ifGiven_self Libraries.table (fun l on => { l with table := on }) (fun _ => rfl) rfl
    (fun _ _ => rfl) _ _) ?_
  exact fits_ifGiven_self Libraries.utf8 (fun l on => { l with utf8 := on }) (fun _ => rfl) rfl (fun _ _ => rfl) _ _

namespace Settings

/-- What a document says, in the order in which it is fitted. -/
def orderedEntries (settings : Settings) : Entries :=
  ifGiven "chunk_name" .string settings.chunkName ++ (ifGiven "error_tag" .string settings.errorTag ++
    (ifGiven "libraries" (fun l => .table .headed (l.entries .boolean)) settings.libraries ++
      (ifGiven "logging" (fun level => .table .headed [("level", .string level.name)]) settings.logLevel ++
        ifGiven "prepare_expressions" .boolean settings.prepareExpressions)))

variable (settings : Settings)

theorem entries_perm : settings.entries.Perm settings.orderedEntries := by
  simp only [entries, frontEntries, plainEntries, List.append_assoc, orderedEntries]
  refine .append_left _ (.append_left _ ?_)
  exact List.perm_append_comm.trans (.of_eq (List.append_assoc ..))

theorem ascends_orderedEntries : Ascends (settings.orderedEntries.map (·.1)) := by
  have hsub : (settings.orderedEntries.map (·.1)).Sublist
      ["chunk_name", "error_tag", "libraries", "logging", "prepare_expressions"] := by
    simp only [orderedEntries, List.map_append]
    exact (keys_ifGiven ..).append ((keys_ifGiven ..).append ((keys_ifGiven ..).append ((keys_ifGiven ..).append
      (keys_ifGiven ..))))
  exact List.Pairwise.sublist hsub (by decide)

theorem fitConfig_entries : fitConfig (.table .headed settings.entries) = .ok settings.config := by
  refine Fits.fitSection ?_ settings.entries_perm settings.ascends_orderedEntries
  have hlibraries (c : Config) (l : LibrarySettings) :
      (do return { c with libraries := ← fitLibraries (.table .headed (l.entries .boolean)) } : Fitted Config) =
        .ok { c with libraries := l.libraries } := by
    rw [l.fitLibraries_entries]
    rfl
  have hlogging (c : Config) (level : LogLevel) :
      (do return { c with logLevel := ← fitLogging (.table .headed [("level", .string level.name)]) } : Fitted Config) =
        .ok { c with logLevel := level } := by
    rw [fitLogging_level]
    rfl
  refine .append (fits_ifGiven_self Config.chunkName (fun c text => { c with chunkName := text }) (fun _ => rfl) rfl
    (fun _ _ => rfl) _ _) ?_
  refine .append (fits_ifGiven_self Config.errorTag (fun c text => { c with errorTag := text }) (fun _ => rfl) rfl
    (fun _ _ => rfl) _ _) ?_
  refine .append (fits_ifGiven Config.libraries (fun c l => { c with libraries := l }) LibrarySettings.libraries
    (fun _ => rfl) rfl hlibraries _ _) ?_
  refine .append (fits_ifGiven_self Config.logLevel (fun c level => { c with logLevel := level }) (fun _ => rfl) rfl
    hlogging _ _) ?_
  exact fits_ifGiven_self Config.prepareExpressions (fun c on => { c with prepareExpressions := on }) (fun _ => rfl) rfl
    (fun _ _ => rfl) _ _

/-- The TOML text of some settings is read as the configuration with these settings. -/
theorem ofToml_toToml : Config.ofToml settings.toToml = .ok settings.config := by
  rw [Config.ofToml, parse, parse?_toToml]
  exact settings.fitConfig_entries

end Settings
end ScriptHost
