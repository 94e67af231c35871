import ScriptHost.Config.Json.Writer
import ScriptHost.Proofs.Json.Object
/-! The JSON text of a configuration is read as that configuration. -/
namespace ScriptHost.Config.Json

/-- The bytes of a text. -/
def bytesOf (s : String) : List UInt8 := s.toUTF8.data.toList

@[simp] theorem bytesOf_append (s t : String) : bytesOf (s ++ t) = bytesOf s ++ bytesOf t := by
  simp [bytesOf, String.toByteArray_append]

theorem bytesOf_toString (c : Char) : bytesOf c.toString = String.utf8EncodeChar c := by
  simp [bytesOf, Char.toString, String.toByteArray_singleton, List.utf8Encode]

section Strings
variable {c : Char}

private theorem isPlain_of_toNat {n : Nat} (hn : n < 256) (hlow : 32 ≤ n) (hquote : n ≠ 34) (hslash : n ≠ 92) :
    isPlain (UInt8.ofNat n) := by
  have hb : (UInt8.ofNat n).toNat = n := UInt8.toNat_ofNat_of_lt' hn
  simp only [isPlain, bne, Bool.and_eq_true, Bool.not_eq_true', beq_eq_false_iff_ne, ne_eq, ← UInt8.toNat_inj,
    UInt8.le_iff_toNat_le, decide_eq_true_eq, hb, UInt8.reduceToNat]
  exact ⟨⟨hquote, hslash⟩, hlow⟩

theorem isPlain_of_mem_utf8EncodeChar (hlow : 32 ≤ c.toNat) (hquote : c ≠ '"') (hslash : c ≠ '\\') :
    ∀ b ∈ String.utf8EncodeChar c, isPlain b := by
  have hquote : c.toNat ≠ 34 := fun h => hquote (Char.toNat_inj.mp h)
  have hslash : c.toNat ≠ 92 := fun h => hslash (Char.toNat_inj.mp h)
  have hhigh {n : Nat} (hn : 128 ≤ n ∧ n < 256) : isPlain (UInt8.ofNat n) :=
    isPlain_of_toNat hn.2 (by omega) (by omega) (by omega)
  unfold String.utf8EncodeChar
  dsimp only
  change 32 ≤ c.val.toNat at hlow
  split
  · simpa using isPlain_of_toNat (by omega) hlow hquote hslash
  split
  · exact List.forall_mem_cons.mpr ⟨hhigh (by omega), List.forall_mem_singleton.mpr (hhigh (by omega))⟩
  split
  · exact List.forall_mem_cons.mpr ⟨hhigh (by omega), List.forall_mem_cons.mpr
      ⟨hhigh (by omega), List.forall_mem_singleton.mpr (hhigh (by omega))⟩⟩
  · exact List.forall_mem_cons.mpr ⟨hhigh (by omega), List.forall_mem_cons.mpr
      ⟨hhigh (by omega), List.forall_mem_cons.mpr
        ⟨hhigh (by omega), List.forall_mem_singleton.mpr (hhigh (by omega))⟩⟩⟩

/-- The hexadecimal digit for a number. -/
def hexByte (n : Nat) : UInt8 := if n < 10 then .ofNat (48 + n) else .ofNat (87 + n)

private theorem bytesOf_control : ∀ n : Fin 32,
    bytesOf ("\\u" ++ Numeral.padZeros 4 (Numeral.digits 16 n)) =
        [92, 117, 48, 48, hexByte (n / 16), hexByte (n % 16)] ∧
      codeUnit? 48 48 (hexByte (n / 16)) (hexByte (n % 16)) = some n.val := by
  decide +kernel

theorem spelling_escapeChar (c : Char) : Spelling c (bytesOf (escapeChar c)) := by
  unfold escapeChar
  split
  case h_8 hquote hslash _ _ _ _ _ =>
    split
    · next hlow =>
      obtain ⟨hbytes, hunit⟩ := bytesOf_control ⟨c.toNat, hlow⟩
      rw [hbytes]
      exact .code hunit
    · next hlow =>
      rw [bytesOf_toString]
      exact .plain (isPlain_of_mem_utf8EncodeChar (Nat.le_of_not_lt hlow) hquote hslash)
  all_goals exact .letter (by decide)

/-- What a text is written as between its quotes. -/
def escaped (s : String) : List UInt8 := bytesOf (String.join (s.toList.map escapeChar))

theorem spells_escaped (s : String) : Spells s.toList (escaped s) := by
  have h (cs : List Char) : Spells cs (bytesOf (String.join (cs.map escapeChar))) := by
    induction cs with
    | nil => exact .nil
    | cons c cs ih =>
      rw [List.map_cons, String.join_cons, bytesOf_append]
      exact .cons (spelling_escapeChar c) ih
  exact h s.toList

theorem bytesOf_string (s : String) : bytesOf (string s) = 34 :: (escaped s ++ [34]) := by
  have hquote : bytesOf "\"" = [34] := by decide
  rw [string, bytesOf_append, bytesOf_append, hquote]
  rfl

end Strings

theorem reads_bool (on : Bool) {rest : List UInt8} : Reads readBool (bytesOf (bool on)) rest on := by
  cases on with
  | true => exact reads_readBool_true Blank.nil
  | false => exact reads_readBool_false Blank.nil

/-- The members of an object as they are written, from a first or a later one on. -/
def memberTexts : Bool → List (String × String) → List UInt8
  | _, [] => []
  | first, (name, text) :: fields =>
    (if first then [] else [44]) ++ (memberBytes (escaped name) [] (bytesOf text) ++ memberTexts false fields)

private theorem bytesOf_intercalate (first : Bool) (fields : List (String × String)) :
    (if first ∨ fields = [] then [] else [44]) ++
      bytesOf (",".intercalate (fields.map fun (name, value) => string name ++ ":" ++ value)) =
        memberTexts first fields := by
  have hcolon : bytesOf ":" = [58] := by decide
  have hcomma : bytesOf "," = [44] := by decide
  induction fields generalizing first with
  | nil => simp [memberTexts]; decide
  | cons field fields ih =>
    have ih := ih false
    cases fields with
    | nil => simp [memberTexts, memberBytes, bytesOf_string, hcolon]
    | cons field' fields =>
      rw [memberTexts, ← ih]
      simp [String.intercalate_cons_cons, memberBytes, bytesOf_string, hcolon, hcomma]

theorem bytesOf_object (fields : List (String × String)) :
    bytesOf (object fields) = 123 :: (memberTexts true fields ++ [125]) := by
  have hopening : bytesOf "\x7b" = [123] := by decide
  have hclosing : bytesOf "\x7d" = [125] := by decide
  have hinside := bytesOf_intercalate true fields
  rw [if_pos (.inl rfl), List.nil_append] at hinside
  rw [object, bytesOf_append, bytesOf_append, hopening, hclosing, hinside]
  rfl

theorem Members.written {α : Type} {field : String → α → Option (Reader α)} {first : Bool} {seen : List String}
    {value value' result : α} {name text : String} {reader : Reader α} {fields : List (String × String)} (hfield : field name value = some reader) (hseen : name ∉ seen)
    (hbody : ∀ rest, Reads reader (bytesOf text) rest value')
    (htail : Members field false (name :: seen) value' (memberTexts false fields) result) :
    Members field first seen value (memberTexts first ((name, text) :: fields)) result := by
  refine .known ?_ (spells_escaped name) .nil hfield hseen (fun rest => hbody _) htail
  cases first with
  | true => exact .first .nil
  | false => exact .later Blank.nil .nil

end ScriptHost.Config.Json

namespace ScriptHost
open Config.Json

theorem Libraries.reads_toJson (libraries : Libraries) {rest : List UInt8} :
    Reads readLibraries (bytesOf libraries.toJson) rest libraries := by
  rw [toJson, bytesOf_object]
  refine reads_readSection Blank.nil (Members.reads_snd_fieldsOf ?_)
  exact .written rfl (by simp) (fun _ => (reads_bool libraries.math).map _) <|
    .written rfl (by simp) (fun _ => (reads_bool libraries.string).map _) <|
    .written rfl (by simp) (fun _ => (reads_bool libraries.table).map _) <|
    .written rfl (by simp) (fun _ => (reads_bool libraries.utf8).map _) <| .done .nil

theorem LogLevel.reads_toJson (level : LogLevel) {rest : List UInt8} :
    Reads readLogging (bytesOf (object [("level", string level.name)])) rest level := by
  rw [bytesOf_object]
  have hname {rest : List UInt8} : Reads readLevel (bytesOf (string level.name)) rest level := by
    rw [bytesOf_string]
    exact reads_readLevel Blank.nil (spells_escaped level.name)
  exact reads_readSection Blank.nil <| Members.reads_fieldsOf_bind
    (.written rfl (by simp) (fun _ => hname.map some) (.done .nil)) fun _ => .pure level

theorem Config.reads_toJson (config : Config) {rest : List UInt8} :
    Reads readConfig (bytesOf config.toJson) rest config := by
  have htext (s : String) {rest : List UInt8} : Reads readText (bytesOf (string s)) rest s := by
    rw [bytesOf_string]
    exact reads_readText Blank.nil (spells_escaped s)
  rw [toJson, bytesOf_object]
  refine reads_readSection Blank.nil (Members.reads_snd_fieldsOf ?_)
  exact .written rfl (by simp) (fun _ => (htext config.chunkName).map _) <|
    .written rfl (by simp) (fun _ => (htext config.errorTag).map _) <|
    .written rfl (by simp) (fun _ => config.libraries.reads_toJson.map _) <|
    .written rfl (by simp) (fun _ => (reads_bool config.prepareExpressions).map _) <|
    .written rfl (by simp) (fun _ => config.logLevel.reads_toJson.map _) <| .done .nil

/-- Reading undoes writing, whatever characters the texts of the configuration are made of. -/
theorem Config.ofJson_toJson (config : Config) : Config.ofJson config.toJson = .ok config := by
  have hread : Reads readConfig (bytesOf config.toJson) [] config := config.reads_toJson
  rw [ofJson, hread.parse .nil (List.append_nil _).symm]
  rfl

end ScriptHost
