import ScriptHost.Proofs.Json.Document
import ScriptHost.Proofs.Toml.Fitting
/-! Settings come to the same configuration in either format, by readers that share nothing. -/
namespace ScriptHost
open Config

namespace Config.Json
variable {S α : Type} {shape : Shape S} {used : List String} {s result : S} {name : String} {write : α → String}
  {fields : List (String × String)}

/-- Fields that, as they are written, take the settings of an object from one state to another, once the names that are
used have come before them. -/
def Writes (shape : Shape S) (used : List String) (s : S) (fields : List (String × String)) (result : S) : Prop :=
  ∀ {first : Bool} {seen : List String}, seen ⊆ used → Lists shape first seen s (memberTexts first fields) result

theorem writes_nil : Writes shape used s [] s := fun _ => .done .nil

/-- A setting that may be given is put in its place, which was empty. -/
theorem writes_ifGiven (put : S → Option α → S)
    (hgives : ∀ a, shape.gives name (bytesOf (write a)) fun s => put s (some a))
    (hnew : name ∉ used) (hnone : put s none = s) {setting : Option α}
    (htail : Writes shape (name :: used) (put s setting) fields result) :
    Writes shape used s (ifGiven name write setting ++ fields) result := by
  intro first seen hseen
  cases setting with
  | none =>
    rw [hnone] at htail
    exact htail (List.subset_cons_of_subset _ hseen)
  | some a =>
    have hrest : Lists shape false (name :: seen) (put s (some a)) (memberTexts false fields) result :=
      htail (List.cons_subset_cons _ hseen)
    have hlead : Separator first (if first then [] else [44]) := by
      cases first with
      | true => exact .first .nil
      | false => exact .later .nil .nil
    change Lists shape first seen s ((if first then [] else [44]) ++
      (memberBytes (escaped name) [] ([] ++ bytesOf (write a)) ++ memberTexts false fields)) result
    exact .known hlead (spells_escaped name) .nil .nil (hgives a) (fun hmem => hnew (hseen hmem)) hrest

theorem writes_ifGiven_last (put : S → Option α → S)
    (hgives : ∀ a, shape.gives name (bytesOf (write a)) fun s => put s (some a)) (hnew : name ∉ used)
    (hnone : put s none = s) (setting : Option α) :
    Writes shape used s (ifGiven name write setting) (put s setting) := by
  have h : Writes shape used s (ifGiven name write setting ++ []) (put s setting) :=
    writes_ifGiven put hgives hnew hnone writes_nil
  rwa [List.append_nil] at h

theorem Writes.gives_object (h : Writes shape [] s fields result) : Gives shape s (bytesOf (object fields)) result := by
  rw [bytesOf_object]
  exact .object (h (List.Subset.refl _))

theorem quotes_string (text : String) : Quotes text (bytesOf (string text)) := by
  rw [bytesOf_string]
  exact .spelled (spells_escaped text)

theorem gives_entries (settings : LibrarySettings) :
    Gives librariesShape {} (bytesOf (object (settings.entries bool))) settings := by
  refine Writes.gives_object ?_
  refine writes_ifGiven (fun s on => { s with math := on }) LibraryGives.math (by decide) rfl ?_
  refine writes_ifGiven (fun s on => { s with string := on }) LibraryGives.string (by decide) rfl ?_
  refine writes_ifGiven (fun s on => { s with table := on }) LibraryGives.table (by decide) rfl ?_
  exact writes_ifGiven_last (fun (s : LibrarySettings) on => { s with utf8 := on }) LibraryGives.utf8 (by decide) rfl _

theorem gives_level (level : LogLevel) :
    Gives loggingShape none (bytesOf (object [("level", string level.name)])) (some level) := by
  have hlevel (level : LogLevel) : LoggingGives "level" (bytesOf (string level.name)) fun _ => some level :=
    .level (.name (quotes_string _))
  refine Writes.gives_object ?_
  change Writes _ _ _ (ifGiven "level" (fun level : LogLevel => string level.name) (some level)) _
  exact writes_ifGiven_last (fun _ level? => level?) hlevel (by decide) rfl (some level)

end Config.Json

namespace Settings
open Json

/-- The JSON text of some settings is a document that gives them. -/
theorem document_toJson (settings : Settings) : Document settings settings.toJson := by
  refine .intro .nil ?_ .nil (List.append_nil _).symm
  refine Writes.gives_object ?_
  refine writes_ifGiven (fun s text => { s with chunkName := text })
    (fun text => ConfigGives.chunkName (quotes_string text)) (by decide) rfl ?_
  refine writes_ifGiven (fun s text => { s with errorTag := text })
    (fun text => ConfigGives.errorTag (quotes_string text)) (by decide) rfl ?_
  refine writes_ifGiven (fun s l => { s with libraries := l })
    (fun l => ConfigGives.libraries (gives_entries l)) (by decide) rfl ?_
  refine writes_ifGiven (fun s on => { s with prepareExpressions := on })
    ConfigGives.prepareExpressions (by decide) rfl ?_
  exact writes_ifGiven_last (fun (s : Settings) level => { s with logLevel := level })
    (fun level => ConfigGives.logging (gives_level level)) (by decide) rfl _

/-- Both texts of some settings are accepted and come to the same configuration: the settings that are given, and the
defaults of the others. -/
theorem formats_agree (settings : Settings) :
    Config.ofToml settings.toToml = .ok settings.config ∧ Config.ofJson settings.toJson = .ok settings.config :=
  ⟨settings.ofToml_toToml, settings.document_toJson.ofJson⟩

end Settings
end ScriptHost
