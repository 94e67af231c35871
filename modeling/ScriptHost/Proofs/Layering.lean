import ScriptHost.Proofs.Json.Document
import ScriptHost.Proofs.Renewal
/-! Where the fields of a configuration come from. The environment decides before the document, and the document before
the defaults; whatever they say, a host starts unless a name is left empty. -/
namespace ScriptHost
open Text (Bytes)

/-- A variable of an environment has a text. -/
def HasText (environment : List (String × Bytes)) (name text : String) : Prop :=
  environment.lookup name = some text.toUTF8

/-- A field has the value that overrides what is given, and without such a value it has what is given, or else its
default. -/
structure Layered {α : Type} (override : α → Prop) (given : Option α) (default a : α) : Prop where
  overridden : ∀ v, override v → a = v
  given : (∀ v, ¬ override v) → a = given.getD default

namespace Config

/-- Every field of a configuration is what the environment, the settings and the defaults together say. -/
structure Layers (environment : List (String × Bytes)) (settings : Settings) (config : Config) : Prop where
  chunkName : Layered (HasText environment "LUA_BRIDGE_CHUNK_NAME") settings.chunkName ({} : Config).chunkName
    config.chunkName
  errorTag : Layered (HasText environment "LUA_BRIDGE_ERROR_TAG") settings.errorTag ({} : Config).errorTag
    config.errorTag
  prepareExpressions :
    Layered (fun on => HasText environment "LUA_BRIDGE_PREPARE_EXPRESSIONS" (if on then "true" else "false"))
      settings.prepareExpressions ({} : Config).prepareExpressions config.prepareExpressions
  math : config.libraries.math = (settings.libraries.bind (·.math)).getD ({} : Config).libraries.math
  string : config.libraries.string = (settings.libraries.bind (·.string)).getD ({} : Config).libraries.string
  table : config.libraries.table = (settings.libraries.bind (·.table)).getD ({} : Config).libraries.table
  utf8 : config.libraries.utf8 = (settings.libraries.bind (·.utf8)).getD ({} : Config).libraries.utf8
  logLevel : config.logLevel = settings.logLevel.getD ({} : Config).logLevel

private theorem fromUTF8?_eq_some_iff {bytes : Bytes} {text : String} :
    String.fromUTF8? bytes = some text ↔ bytes = text.toUTF8 := by
  rw [String.toUTF8_eq_toByteArray]
  unfold String.fromUTF8?
  split
  · rw [Option.some_inj]
    constructor <;> rintro rfl <;> rfl
  · next hinvalid =>
    constructor
    · rintro ⟨⟩
    · rintro rfl
      exact absurd text.isValidUTF8 hinvalid

theorem textOf?_eq_some_iff {environment : List (String × Bytes)} {name text : String} :
    textOf? environment name = some text ↔ HasText environment name text := by
  simp only [textOf?, Option.bind_eq_some_iff, fromUTF8?_eq_some_iff, HasText, exists_eq_right]

theorem parseBool?_eq_some_iff {text : String} {on : Bool} :
    parseBool? text = some on ↔ text = if on then "true" else "false" := by
  unfold parseBool?
  cases on <;> grind

/-- What a layer says about a field, if anything, goes before what is given. -/
theorem layered_getD {α : Type} {override : α → Prop} {layer? : Option α} (h : ∀ v, layer? = some v ↔ override v)
    (given : Option α) (default : α) : Layered override given default (layer?.getD (given.getD default)) := by
  constructor
  · intro v hv
    rw [(h v).mpr hv, Option.getD_some]
  · intro hnone
    rw [Option.eq_none_iff_forall_ne_some.mpr fun v hv => hnone v ((h v).mp hv), Option.getD_none]

theorem layers_applyEnvironment (settings : Settings) (environment : List (String × Bytes)) :
    Layers environment settings (settings.config.applyEnvironment environment) where
  chunkName := layered_getD (fun _ => textOf?_eq_some_iff) _ _
  errorTag := layered_getD (fun _ => textOf?_eq_some_iff) _ _
  prepareExpressions := by
    refine layered_getD (fun on => ?_) _ _
    simp only [Option.bind_eq_some_iff, parseBool?_eq_some_iff, textOf?_eq_some_iff, exists_eq_right]
  math := by cases hl : settings.libraries <;> simp [applyEnvironment, Settings.config, hl, LibrarySettings.libraries]
  string := by cases hl : settings.libraries <;> simp [applyEnvironment, Settings.config, hl, LibrarySettings.libraries]
  table := by cases hl : settings.libraries <;> simp [applyEnvironment, Settings.config, hl, LibrarySettings.libraries]
  utf8 := by cases hl : settings.libraries <;> simp [applyEnvironment, Settings.config, hl, LibrarySettings.libraries]
  logLevel := rfl

/-- What the environment says does not change what it has said. -/
theorem applyEnvironment_twice (config : Config) (environment : List (String × Bytes)) :
    (config.applyEnvironment environment).applyEnvironment environment = config.applyEnvironment environment := by
  have getD_twice {α : Type} (layer? : Option α) (a : α) : layer?.getD (layer?.getD a) = layer?.getD a := by
    cases layer? <;> rfl
  simp only [applyEnvironment, getD_twice]

theorem validate_error_iff (config : Config) :
    (∃ text, config.validate = .error (.validation text)) ↔ config.chunkName = "" ∨ config.errorTag = "" := by
  unfold validate
  simp only [String.isEmpty_iff]
  split
  · simp_all
  · split <;> simp_all

end Config

/-- A host refuses to start over a configuration exactly if one of its two names is empty. -/
theorem Host.start_refused_iff (h : Host) :
    (∃ text, h.start.1 = .error (.failed (.config (.validation text)))) ↔
      h.config.chunkName = "" ∨ h.config.errorTag = "" := by
  rw [← h.config.validate_error_iff, h.start_eq]
  cases h.config.validate with
  | error e => simp
  | ok _ => simp

/-- A document that gives settings is read, whatever else it has and however it is laid out. Under every environment
each field is then what the environment, the document and the defaults say, in this order; the environment has its say
once and for all; and a host starts with the outcome unless one of the two names is empty. -/
theorem Config.ofJson_layers {settings : Settings} {text : String} (hd : Json.Document settings text)
    (environment : List (String × Bytes)) :
    ∃ config, Config.ofJson text = .ok config ∧
      Layers environment settings (config.applyEnvironment environment) ∧
      (config.applyEnvironment environment).applyEnvironment environment = config.applyEnvironment environment ∧
      ∀ given : Host, given.config = config.applyEnvironment environment →
        ((∃ text, given.start.1 = .error (.failed (.config (.validation text)))) ↔
          given.config.chunkName = "" ∨ given.config.errorTag = "") :=
  ⟨settings.config, hd.ofJson, layers_applyEnvironment settings environment,
    applyEnvironment_twice settings.config environment, fun given _ => given.start_refused_iff⟩

section Example
open Config.Json

/-- A document with blanks, with a member that is not known and with one setting. -/
private theorem document_tagged :
    Document { errorTag := some "T" } " \x7b\"x\" : [-1.5] ,\"error_tag\":\"T\"\x7d\n" := by
  have hblank : Blank [32] := by simp [Blank, isBlank]
  have hnumber : Unsigned ([49] ++ ([46, 53] ++ [])) :=
    .mk (.digits (by decide) (by decide) (by simp)) (.point ⟨by simp, by simp [isDigit]⟩) .absent
  have hvalue : Value (Bracket.list.opening ::
      ([] ++ (45 :: ([49] ++ ([46, 53] ++ [])) ++ []) ++ [Bracket.list.closing])) :=
    .bracketed (.item (.first .nil) (.negative hnumber) (.done .nil))
  have htag : Lists configShape false [] {} (([32] ++ 44 :: []) ++
      (memberBytes (escaped "error_tag") [] ([] ++ 34 :: (escaped "T" ++ [34])) ++ [])) { errorTag := some "T" } :=
    .known (.later hblank .nil) (spells_escaped _) .nil .nil (.errorTag (.spelled (spells_escaped _))) (by simp)
      (.done .nil)
  have hall := Lists.unknown (.first .nil) (spells_escaped "x") hblank hblank (by decide) hvalue htag
  have hend : Blank [10] := by simp [Blank, isBlank]
  exact .intro hblank (.object hall) hend (by decide +kernel)

/-- The environment goes before the defaults, and what it says without being a truth value does not count. -/
theorem ofJson_layers_tagged :
    let environment :=
      [("LUA_BRIDGE_CHUNK_NAME", "env".toUTF8), ("LUA_BRIDGE_PREPARE_EXPRESSIONS", "yes".toUTF8)]
    ∃ config, Config.ofJson " \x7b\"x\" : [-1.5] ,\"error_tag\":\"T\"\x7d\n" = .ok config ∧
      (config.applyEnvironment environment).chunkName = "env" ∧
      (config.applyEnvironment environment).errorTag = "T" ∧
      (config.applyEnvironment environment).prepareExpressions = false := by
  intro environment
  obtain ⟨config, hread, hlayers, -⟩ := Config.ofJson_layers document_tagged environment
  refine ⟨config, hread, hlayers.chunkName.overridden _ rfl, hlayers.errorTag.given fun text htext => ?_,
    hlayers.prepareExpressions.given fun on hon => ?_⟩
  · cases htext
  · revert hon
    unfold HasText
    cases on <;> decide +kernel

end Example

end ScriptHost
