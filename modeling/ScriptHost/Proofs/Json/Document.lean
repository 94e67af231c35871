import ScriptHost.Config.Settings
import ScriptHost.Proofs.Json.Configuration
import ScriptHost.Proofs.Json.Value
/-! Documents that give settings. The members of an object may come in any order, and among those that are known there
may be any others; what is given is read, and the rest is skipped. -/
namespace ScriptHost.Config.Json
variable {S α : Type}

/-- The members that an object knows: their names, and what settings become by a member with a value. -/
structure Shape (S : Type) where
  names : List String
  gives : String → List UInt8 → (S → S) → Prop

/-- The members of an object up to its closing brace, and the settings after them. A name that is known is not among
those seen before; a member that is not known may have any value. -/
inductive Lists (shape : Shape S) : Bool → List String → S → List UInt8 → S → Prop where
  | done {first : Bool} {seen : List String} {s : S} {blanks : List UInt8} (hb : Blank blanks) :
      Lists shape first seen s blanks s
  | known {first : Bool} {seen : List String} {s result : S} {name : String} {change : S → S}
      {lead key before after body tail : List UInt8} (hlead : Separator first lead) (hkey : Spells name.toList key)
      (hbefore : Blank before) (hafter : Blank after) (hgives : shape.gives name body change) (hseen : name ∉ seen)
      (htail : Lists shape false (name :: seen) (change s) tail result) :
      Lists shape first seen s (lead ++ (memberBytes key before (after ++ body) ++ tail)) result
  | unknown {first : Bool} {seen : List String} {s result : S} {name : String}
      {lead key before after body tail : List UInt8} (hlead : Separator first lead) (hkey : Spells name.toList key)
      (hbefore : Blank before) (hafter : Blank after) (hname : name ∉ shape.names) (hvalue : Value body)
      (htail : Lists shape false seen s tail result) :
      Lists shape first seen s (lead ++ (memberBytes key before (after ++ body) ++ tail)) result

/-- An object without what comes before it. -/
inductive Gives (shape : Shape S) (start : S) : List UInt8 → S → Prop where
  | object {bytes : List UInt8} {s : S} (h : Lists shape true [] start bytes s) :
      Gives shape start (123 :: (bytes ++ [125])) s

/-- A text between quotes, with any of its spellings. -/
inductive Quotes (text : String) : List UInt8 → Prop where
  | spelled {bytes : List UInt8} (h : Spells text.toList bytes) : Quotes text (34 :: (bytes ++ [34]))

/-- A level: its name, or an object that has the name as its only key. -/
inductive NamesLevel (level : LogLevel) : List UInt8 → Prop where
  | name {body : List UInt8} (h : Quotes level.name body) : NamesLevel level body
  | key {before between after last body : List UInt8} (hbefore : Blank before) (hbetween : Blank between)
      (hafter : Blank after) (hlast : Blank last) (h : Quotes level.name body) :
      NamesLevel level
        (123 :: ((before ++ body) ++ ((between ++ [58]) ++ ((after ++ [110, 117, 108, 108]) ++ (last ++ [125])))))

inductive LibraryGives : String → List UInt8 → (LibrarySettings → LibrarySettings) → Prop where
  | math (on : Bool) : LibraryGives "math" (bytesOf (bool on)) fun s => { s with math := some on }
  | string (on : Bool) : LibraryGives "string" (bytesOf (bool on)) fun s => { s with string := some on }
  | table (on : Bool) : LibraryGives "table" (bytesOf (bool on)) fun s => { s with table := some on }
  | utf8 (on : Bool) : LibraryGives "utf8" (bytesOf (bool on)) fun s => { s with utf8 := some on }

def librariesShape : Shape LibrarySettings := ⟨["math", "string", "table", "utf8"], LibraryGives⟩

inductive LoggingGives : String → List UInt8 → (Option LogLevel → Option LogLevel) → Prop where
  | level {level : LogLevel} {body : List UInt8} (h : NamesLevel level body) :
      LoggingGives "level" body fun _ => some level

def loggingShape : Shape (Option LogLevel) := ⟨["level"], LoggingGives⟩

inductive ConfigGives : String → List UInt8 → (Settings → Settings) → Prop where
  | chunkName {text : String} {body : List UInt8} (h : Quotes text body) :
      ConfigGives "chunk_name" body fun s => { s with chunkName := some text }
  | errorTag {text : String} {body : List UInt8} (h : Quotes text body) :
      ConfigGives "error_tag" body fun s => { s with errorTag := some text }
  | libraries {libraries : LibrarySettings} {body : List UInt8} (h : Gives librariesShape {} body libraries) :
      ConfigGives "libraries" body fun s => { s with libraries := some libraries }
  | prepareExpressions (on : Bool) :
      ConfigGives "prepare_expressions" (bytesOf (bool on)) fun s => { s with prepareExpressions := some on }
  | logging {level : LogLevel} {body : List UInt8} (h : Gives loggingShape none body (some level)) :
      ConfigGives "logging" body fun s => { s with logLevel := some level }

def configShape : Shape Settings :=
  ⟨["chunk_name", "error_tag", "libraries", "prepare_expressions", "logging"], ConfigGives⟩

/-- A text that is an object with some settings. -/
inductive Document (settings : Settings) (text : String) : Prop where
  | intro {before body after : List UInt8} (hbefore : Blank before) (h : Gives configShape {} body settings)
      (hafter : Blank after) (ht : bytesOf text = before ++ body ++ after)

variable {shape : Shape S} {first : Bool} {seen : List String} {s result : S} {bytes rest blanks : List UInt8}

theorem Lists.endsValue (h : Lists shape false seen s bytes result) (rest : List UInt8) :
    EndsValue (bytes ++ 125 :: rest) := by
  cases h with
  | done hb => exact hb.endsValue (by decide)
  | known hlead =>
    rw [List.append_assoc]
    exact hlead.endsValue _
  | unknown hlead =>
    rw [List.append_assoc]
    exact hlead.endsValue _

/-- A reader for the members of an object reads every list of them, if it reads each of those that are known and does
not know any other. -/
theorem Lists.members {field : String → α → Option (Reader α)} (value : S → α)
    (hknown : ∀ {name : String} {body : List UInt8} {change : S → S}, shape.gives name body change → ∀ s : S,
      ∃ reader, field name (value s) = some reader ∧
        ∀ {blanks rest : List UInt8}, Blank blanks → Reads reader (blanks ++ body) rest (value (change s)))
    (hunknown : ∀ {name : String}, name ∉ shape.names → ∀ a : α, field name a = none)
    (h : Lists shape first seen s bytes result) : Members field first seen (value s) bytes (value result) := by
  induction h with
  | done hb => exact .done hb
  | known hlead hkey hbefore hafter hgives hseen _ ih =>
    obtain ⟨reader, hfield, hreads⟩ := hknown hgives _
    exact .known hlead hkey hbefore hfield hseen (fun _ => hreads hafter) ih
  | unknown hlead hkey hbefore hafter hname hvalue htail ih =>
    exact .unknown hlead hkey hbefore (hunknown hname _)
      (fun rest => hvalue.reads_skipValue hafter (htail.endsValue rest)) ih

theorem Quotes.reads_readText {text : String} (h : Quotes text bytes) (hb : Blank blanks) :
    Reads readText (blanks ++ bytes) rest text := by
  obtain ⟨h⟩ := h
  exact Json.reads_readText hb h

theorem reads_readBool (on : Bool) (hb : Blank blanks) : Reads readBool (blanks ++ bytesOf (bool on)) rest on := by
  cases on with
  | true => exact reads_readBool_true hb
  | false => exact reads_readBool_false hb

theorem reads_readLibraries {settings : LibrarySettings} (h : Gives librariesShape {} bytes settings)
    (hb : Blank blanks) : Reads readLibraries (blanks ++ bytes) rest settings.libraries := by
  obtain ⟨h⟩ := h
  refine reads_readSection hb (Members.reads_snd_fieldsOf (h.members LibrarySettings.libraries ?_ ?_))
  · intro name body change hgives s
    cases hgives with
    | math on | string on | table on | utf8 on => exact ⟨_, rfl, fun hb => (reads_readBool on hb).map _⟩
  · intro name hname libraries
    split
    case h_5 => rfl
    all_goals exact absurd (by decide) hname

theorem reads_readNull (hb : Blank blanks) : Reads readNull (blanks ++ [110, 117, 108, 108]) rest () := by
  refine .located (.bind (hb.reads_peekValue (by decide)) ?_)
  exact .taking (reads_skip 110) (reads_readWord [117, 108, 108])

theorem NamesLevel.reads_readLevel {level : LogLevel} (h : NamesLevel level bytes) (hb : Blank blanks) :
    Reads readLevel (blanks ++ bytes) rest level := by
  have hname : LogLevel.ofName? level.name = some level := by cases level <;> decide
  have hnamed {rest : List UInt8} : Reads (levelNamed level.name) [] rest level := by
    rw [levelNamed, hname]
    exact .pure level
  cases h with
  | name h =>
    obtain ⟨h⟩ := h
    exact Json.reads_readLevel hb h
  | key hbefore hbetween hafter hlast h =>
    obtain ⟨h⟩ := h
    refine .bind (hb.reads_peekToken (by decide)) (.taking (reads_skip 123) ?_)
    refine .bind (reads_readStringAs hbefore h .variantName hnamed) (.bind hbetween.reads_readColon ?_)
    refine .bind (reads_readNull hafter) (.bind (hlast.reads_peekToken (by decide)) ?_)
    exact .bind_nil (reads_skip 125) (.pure level)

theorem reads_readLogging {level : LogLevel} (h : Gives loggingShape none bytes (some level)) (hb : Blank blanks) :
    Reads readLogging (blanks ++ bytes) rest level := by
  obtain ⟨h⟩ := h
  refine reads_readSection hb (Members.reads_fieldsOf_bind (h.members id ?_ ?_) fun _ => .pure level)
  · intro name body change hgives s
    cases hgives with
    | level h => exact ⟨_, rfl, fun hb => (h.reads_readLevel hb).map _⟩
  · intro name hname level
    split
    case h_2 => rfl
    all_goals exact absurd (by decide) hname

theorem reads_readConfig {settings : Settings} (h : Gives configShape {} bytes settings) (hb : Blank blanks) :
    Reads readConfig (blanks ++ bytes) rest settings.config := by
  obtain ⟨h⟩ := h
  refine reads_readSection hb (Members.reads_snd_fieldsOf (h.members Settings.config ?_ ?_))
  · intro name body change hgives s
    cases hgives with
    | chunkName h | errorTag h => exact ⟨_, rfl, fun hb => (h.reads_readText hb).map _⟩
    | libraries h => exact ⟨_, rfl, fun hb => (reads_readLibraries h hb).map _⟩
    | prepareExpressions on => exact ⟨_, rfl, fun hb => (reads_readBool on hb).map _⟩
    | logging h => exact ⟨_, rfl, fun hb => (reads_readLogging h hb).map _⟩
  · intro name hname config
    split
    case h_6 => rfl
    all_goals exact absurd (by decide) hname

/-- A document that gives settings is read as the configuration with these settings. -/
theorem Document.ofJson {settings : Settings} {text : String} (h : Document settings text) :
    Config.ofJson text = .ok settings.config := by
  obtain ⟨hbefore, h, hafter, ht⟩ := h
  rw [Config.ofJson, (reads_readConfig h hbefore).parse hafter ht]
  rfl

end ScriptHost.Config.Json
