import ScriptHost.Config.Settings
import ScriptHost.Proofs.Toml.Reading
/-! What a TOML document says after some of its lines. A line adds its key to the table of the header that is open, and
a header opens a table at the end. -/
namespace ScriptHost.Config.Toml

/-- The text of a value on a line of its own. -/
structure SaysValue (text : String) (value : Value) : Prop where
  reads : ∀ rest, Reads (readValue depthLimit) text.toList ('\n' :: rest) value
  begins : ∃ c cs, text.toList = c :: cs ∧ c ≠ ' ' ∧ c ≠ '\t'

theorem saysValue_string (text : String) : SaysValue (string text) (.string text) where
  reads _ := reads_readValue_string text (by simp)
  begins := ⟨'"', _, toList_string text, by decide⟩

theorem saysValue_bool (on : Bool) : SaysValue (bool on) (.boolean on) where
  reads _ := reads_readValue_bool on (by rintro _ ⟨⟩; rfl)
  begins := by cases on <;> exact ⟨_, _, rfl, by decide⟩

/-- Texts of entries. -/
inductive Says : List (String × String) → Entries → Prop where
  | nil : Says [] []
  | cons {name text : String} {value : Value} {texts : List (String × String)} {entries : Entries}
      (hname : IsBare name) (hvalue : SaysValue text value) (hrest : Says texts entries) :
      Says ((name, text) :: texts) ((name, value) :: entries)

theorem Says.append {texts texts' : List (String × String)} {entries entries' : Entries} (h : Says texts entries)
    (h' : Says texts' entries') : Says (texts ++ texts') (entries ++ entries') := by
  induction h with
  | nil => exact h'
  | cons hname hvalue _ ih => exact .cons hname hvalue ih

theorem says_ifGiven {α : Type} {name : String} (hname : IsBare name) {write : α → String} {mean : α → Value}
    (h : ∀ a, SaysValue (write a) (mean a)) (setting : Option α) :
    Says (ifGiven name write setting) (ifGiven name mean setting) := by
  cases setting with
  | none => exact .nil
  | some a => exact .cons hname (h a) .nil

/-- Some lines lead from one place of a document to another. -/
def Leads (progress : Progress) (front : List Char) (progress' : Progress) : Prop :=
  ∀ (rest : List Char) (entries : Entries),
    (∀ fuel, rest.length < fuel → Reads (readDocument fuel progress') rest [] entries) →
    ∀ fuel, (front ++ rest).length < fuel → Reads (readDocument fuel progress) (front ++ rest) [] entries

theorem Leads.refl (progress : Progress) : Leads progress [] progress := fun _ _ hrest => hrest

theorem Leads.trans {p p' p'' : Progress} {front back : List Char} (h : Leads p front p') (h' : Leads p' back p'') :
    Leads p (front ++ back) p'' := by
  intro rest entries hrest fuel hfuel
  rw [List.append_assoc] at hfuel ⊢
  exact h _ _ (h' rest entries hrest) fuel hfuel

/-- The fuel is as long as the text, and a line takes one unit of it. -/
theorem leads_of_line {p p' : Progress} {front : List Char} (hfront : front ≠ [])
    (h : ∀ {fuel : Nat} {rest : List Char} {entries : Entries}, Reads (readDocument fuel p') rest [] entries →
      Reads (readDocument (fuel + 1) p) (front ++ rest) [] entries) : Leads p front p' := by
  intro rest entries hrest fuel hfuel
  obtain ⟨fuel, rfl⟩ := Nat.exists_eq_add_one_of_ne_zero (Nat.ne_zero_of_lt hfuel)
  have hlength := List.length_pos_iff.mpr hfront
  rw [List.length_append] at hfuel
  exact h (hrest fuel (by omega))

section Lines
variable {progress progress' : Progress} {name : String}

/-- A line is read as its key and its value, whatever is done with them. -/
theorem reads_line (hname : IsBare name) {text : String} {value : Value} (hvalue : SaysValue text value)
    {α : Type} {next : List String → Value → Reader α} {rest rest' : List Char} {a : α}
    (hnext : Reads (next [name] value) rest rest' a) :
    Reads (do
      let key ← readKey
      expect ['=']
      skipBlanks
      let value ← readValue depthLimit
      endLine
      next key value) ((line name text).toList ++ rest) rest' a := by
  obtain ⟨d, ds, hds, hd⟩ := hvalue.begins
  have hend : Reads (do endLine; next [name] value) (['\n'] ++ rest) rest' a := reads_endLine.bind hnext
  have hread : Reads (do
      let value ← readValue depthLimit
      endLine
      next [name] value) (text.toList ++ (['\n'] ++ rest)) rest' a := (hvalue.reads _).bind hend
  have hblank : Reads skipBlanks [' '] (text.toList ++ (['\n'] ++ rest) ++ rest') () := by
    refine reads_skipBlanks (by simp) ?_
    rw [hds]
    rintro _ ⟨⟩
    exact hd
  have hequal : Reads (do
      expect ['=']
      skipBlanks
      let value ← readValue depthLimit
      endLine
      next [name] value) (['='] ++ ([' '] ++ (text.toList ++ (['\n'] ++ rest)))) rest' a :=
    (reads_expect _).bind (hblank.bind hread)
  have hkey : Reads readKey (name.toList ++ [' '])
      (['='] ++ ([' '] ++ (text.toList ++ (['\n'] ++ rest))) ++ rest') [name] :=
    reads_readKey hname (by simp) (.inl rfl)
  have hline : (line name text).toList ++ rest =
      (name.toList ++ [' ']) ++ (['='] ++ ([' '] ++ (text.toList ++ (['\n'] ++ rest)))) := by
    simp [line, String.toList_append]
  rw [hline]
  exact hkey.bind hequal

theorem leads_line (hname : IsBare name) {text : String} {value : Value} (hvalue : SaysValue text value)
    (hadd : progress.add [name] value = some progress') : Leads progress (line name text).toList progress' := by
  obtain ⟨c, cs, hcs, hc⟩ := hname.exists_eq_cons
  have hbegin : (line name text).toList = c :: (cs ++ (" = " ++ text ++ "\n").toList) := by
    simp [line, String.toList_append, hcs]
  refine leads_of_line (hbegin ▸ List.cons_ne_nil _ _) fun {fuel rest entries} hnext => ?_
  have hblank : ∀ d ∈ ((line name text).toList ++ rest ++ []).head?, d ≠ ' ' ∧ d ≠ '\t' := by
    rw [hbegin]
    rintro _ ⟨⟩
    exact ⟨fun h => hc (by simp [h]), fun h => hc (by simp [h])⟩
  rw [readDocument]
  refine .looking (reads_skipBlanks (List.forall_mem_nil _) hblank) (.looking reads_peek ?_)
  rw [hbegin]
  -- The name begins with none of the characters that other lines begin with.
  split
  case h_6 =>
    rw [← hbegin]
    exact reads_line hname hvalue (by rw [hadd]; exact hnext)
  all_goals simp_all

/-- A header is read as its key, whatever is done with it. -/
theorem reads_header (hname : IsBare name) {α : Type} {next : List String → Reader α} {rest rest' : List Char} {a : α}
    (hnext : Reads (next [name]) rest rest' a) :
    Reads (do
      let path ← readKey
      expect [']']
      endLine
      next path) (name.toList ++ ([']'] ++ (['\n'] ++ rest))) rest' a := by
  have hend : Reads (do endLine; next [name]) (['\n'] ++ rest) rest' a := reads_endLine.bind hnext
  have hclose : Reads (do expect [']']; endLine; next [name]) ([']'] ++ (['\n'] ++ rest)) rest' a :=
    (reads_expect _).bind hend
  have hkey : Reads readKey (name.toList ++ []) ([']'] ++ (['\n'] ++ rest) ++ rest') [name] :=
    reads_readKey hname (List.forall_mem_nil _) (.inr rfl)
  rw [List.append_nil] at hkey
  exact hkey.bind hclose

theorem leads_header (hname : IsBare name) (hopen : progress.openHeader false [name] = some progress') :
    Leads progress ("[" ++ name ++ "]\n").toList progress' := by
  obtain ⟨c, cs, hcs, hc⟩ := hname.exists_eq_cons
  have htext : ("[" ++ name ++ "]\n").toList = '[' :: (name.toList ++ ([']'] ++ ['\n'])) := by
    simp [String.toList_append]
  rw [htext]
  refine leads_of_line (List.cons_ne_nil _ _) fun {fuel rest entries} hnext => ?_
  -- Another bracket would open an array of tables.
  have hsingle : ((name.toList ++ ([']'] ++ ['\n']) ++ rest ++ []).head? == some '[') = false := by
    rw [hcs]
    exact beq_false_of_ne fun h => hc (by cases h; decide)
  rw [readDocument, List.cons_append]
  refine .looking (reads_skipBlanks (List.forall_mem_nil _) (by rintro _ ⟨⟩; decide)) (.looking reads_peek ?_)
  refine .taking (reads_skip '[') (.looking reads_peek ?_)
  rw [hsingle, List.append_assoc, List.append_assoc]
  exact reads_header hname (by rw [hopen]; exact hnext)

/-- At the end of the text the document is what its lines said. -/
theorem Leads.readDocument {text : List Char} (h : Leads progress text progress') {fuel : Nat}
    (hfuel : text.length < fuel) : Reads (readDocument fuel progress) text [] progress'.root := by
  have hend (fuel : Nat) (hfuel : ([] : List Char).length < fuel) :
      Reads (Toml.readDocument fuel progress') [] [] progress'.root := by
    obtain ⟨fuel, rfl⟩ := Nat.exists_eq_add_one_of_ne_zero (Nat.ne_zero_of_lt hfuel)
    rfl
  have hread := h [] _ hend fuel
  rw [List.append_nil] at hread
  exact hread hfuel

end Lines

namespace Entries
variable {entries : Entries} {key : String} {value : Value}

theorem find?_eq_none (hkey : key ∉ entries.map (·.1)) : entries.find? key = none := by
  rw [find?, List.lookup_eq_none_iff]
  rintro ⟨k, v⟩ hmem
  have hne : key ≠ k := by
    rintro rfl
    exact hkey (List.mem_map_of_mem hmem)
  simpa using hne

/-- A table with a key ends with it. -/
theorem find?_append_self (hkey : key ∉ entries.map (·.1)) (rest : Entries) :
    find? (entries ++ (key, value) :: rest) key = some value := by
  have hnone := find?_eq_none hkey
  unfold find? at *
  rw [List.lookup_append, hnone, List.lookup_cons_self, Option.none_or]

theorem put_append (hkey : key ∉ entries.map (·.1)) (rest : Entries) :
    put (entries ++ rest) key value = entries ++ put rest key value := by
  induction entries with
  | nil => rfl
  | cons entry entries ih =>
    rw [List.map_cons, List.mem_cons, not_or] at hkey
    have hne : (entry.1 == key) = false := beq_false_of_ne (Ne.symm hkey.1)
    rw [List.cons_append, put, hne, ih hkey.2]
    rfl

/-- A new key is put at the end. -/
theorem put_eq_append (hkey : key ∉ entries.map (·.1)) : put entries key value = entries ++ [(key, value)] := by
  rw [← put.eq_1 key value, ← put_append hkey [], List.append_nil]

theorem addDotted_new (hkey : key ∉ entries.map (·.1)) :
    entries.addDotted [key] value = some (entries ++ [(key, value)]) := by
  rw [addDotted, find?_eq_none hkey, put_eq_append hkey]

end Entries

section Places
variable {root inner entries : Entries} {path : List String} {name key : String} {value : Value}

theorem Progress.add_root (hkey : key ∉ root.map (·.1)) :
    Progress.add { root, path := [] } [key] value = some { root := root ++ [(key, value)], path := [] } := by
  rw [Progress.add, Entries.alongHeader, Entries.addDotted_new hkey]
  rfl

/-- The document whose last table is the one of the header that is open. -/
def Progress.inside (root : Entries) (name : String) (inner : Entries) : Progress :=
  { root := root ++ [(name, .table .headed inner)], path := [name] }

theorem Progress.add_inside (hname : name ∉ root.map (·.1)) (hkey : key ∉ inner.map (·.1)) :
    (inside root name inner).add [key] value = some (inside root name (inner ++ [(key, value)])) := by
  have hput (inner' : Entries) : Entries.put (root ++ [(name, .table .headed inner)]) name (.table .headed inner') =
      root ++ [(name, .table .headed inner')] := by
    rw [Entries.put_append hname, Entries.put, beq_self_eq_true, if_pos rfl]
  rw [Progress.add, inside, Entries.alongHeader, Entries.find?_append_self hname]
  simp only [Entries.alongHeader, Entries.addDotted_new hkey, Option.map_some, hput]
  rfl

theorem Progress.openHeader_new (hname : name ∉ root.map (·.1)) :
    Progress.openHeader { root, path } false [name] = some (inside root name []) := by
  change (Entries.openTable name root).map _ = _
  rw [Entries.openTable, Entries.find?_eq_none hname, Entries.put_eq_append hname]
  rfl

/-- Lines add their entries, where each of them can be added. -/
theorem leads_lines (place : Entries → Progress)
    (hadd : ∀ {inner : Entries} {key : String} {value : Value}, key ∉ inner.map (·.1) →
      (place inner).add [key] value = some (place (inner ++ [(key, value)])))
    {texts : List (String × String)} (h : Says texts entries) (hnew : ((inner ++ entries).map (·.1)).Nodup) :
    Leads (place inner) (Settings.lines texts).toList (place (inner ++ entries)) := by
  induction h generalizing inner with
  | nil =>
    rw [List.append_nil]
    exact .refl _
  | @cons name text value texts entries hname hvalue _ ih =>
    have hkey : name ∉ inner.map (·.1) := by
      rw [List.map_append, List.nodup_append] at hnew
      intro hmem
      exact hnew.2.2 _ hmem _ List.mem_cons_self rfl
    have hrest := @ih (inner ++ [(name, value)]) (by rwa [List.append_assoc])
    rw [List.append_assoc] at hrest
    have hlines : (Settings.lines ((name, text) :: texts)).toList =
        (line name text).toList ++ (Settings.lines texts).toList := by
      rw [Settings.lines, List.map_cons, String.join_cons, String.toList_append]
      rfl
    rw [hlines]
    exact (leads_line hname hvalue (hadd hkey)).trans hrest

/-- A section that is given leads to its table at the end of the document. -/
theorem leads_sectionText {α : Type} {write : α → List (String × String)} {mean : α → Entries}
    (htexts : ∀ a, Says (write a) (mean a)) (hkeys : ∀ a, ((mean a).map (·.1)).Nodup) (hname : IsBare name)
    (hnew : name ∉ root.map (·.1)) (setting : Option α) :
    ∃ path', Leads { root, path } (Settings.sectionText name (setting.map write)).toList
      { root := root ++ ifGiven name (fun a => .table .headed (mean a)) setting, path := path' } := by
  cases setting with
  | none =>
    refine ⟨path, ?_⟩
    rw [ifGiven, List.append_nil]
    exact .refl _
  | some a =>
    have hlines : Leads (.inside root name []) (Settings.lines (write a)).toList (.inside root name (mean a)) :=
      leads_lines (.inside root name) (Progress.add_inside hnew) (htexts a) (hkeys a)
    have hsection : (Settings.sectionText name ((some a).map write)).toList =
        ("[" ++ name ++ "]\n").toList ++ (Settings.lines (write a)).toList := by
      rw [Option.map_some, Settings.sectionText, String.toList_append]
    refine ⟨[name], ?_⟩
    rw [hsection]
    exact (leads_header hname (Progress.openHeader_new hnew)).trans hlines

/-- No key begins with a mark of the byte order. -/
theorem readDocument_mark (fuel : Nat) (progress : Progress) (rest : List Char) :
    (readDocument fuel progress).run ('\uFEFF' :: rest) = none := by
  cases fuel <;> rfl

theorem parse?_of_leads {progress : Progress} {text : String} (h : Leads {} text.toList progress) :
    parse? text = some progress.root := by
  have hread : (readDocument (text.toList.length + 1) {}).run (text.toList ++ []) = some (progress.root, []) :=
    h.readDocument (Nat.lt_succ_self _)
  rw [List.append_nil] at hread
  unfold parse?
  split
  · next heq =>
    rw [heq, readDocument_mark] at hread
    cases hread
  · dsimp only
    rw [hread]
    rfl

end Places

end ScriptHost.Config.Toml

namespace ScriptHost
open Config.Toml

theorem keys_ifGiven {α β : Type} (name : String) (write : α → β) (setting : Option α) :
    ((ifGiven name write setting).map (·.1)).Sublist [name] := by
  cases setting with
  | none => exact List.nil_sublist _
  | some a => exact .refl _

theorem LibrarySettings.keys_entries {β : Type} (write : Bool → β) (settings : LibrarySettings) :
    ((settings.entries write).map (·.1)).Sublist ["math", "string", "table", "utf8"] := by
  simp only [entries, List.map_append]
  exact (keys_ifGiven ..).append ((keys_ifGiven ..).append ((keys_ifGiven ..).append (keys_ifGiven ..)))

theorem LibrarySettings.says_entries (settings : LibrarySettings) :
    Says (settings.entries bool) (settings.entries .boolean) :=
  have hflag {name : String} (hname : IsBare name) (flag : Option Bool) :
      Says (ifGiven name bool flag) (ifGiven name .boolean flag) := says_ifGiven hname saysValue_bool flag
  (hflag (by decide) _).append ((hflag (by decide) _).append ((hflag (by decide) _).append (hflag (by decide) _)))

namespace Settings

/-- The entries in front of the sections. -/
def plainEntries (settings : Settings) : Entries :=
  ifGiven "chunk_name" .string settings.chunkName ++ (ifGiven "error_tag" .string settings.errorTag ++
    ifGiven "prepare_expressions" .boolean settings.prepareExpressions)

/-- The entries in front of the logging section. -/
def frontEntries (settings : Settings) : Entries :=
  settings.plainEntries ++ ifGiven "libraries" (fun l => .table .headed (l.entries .boolean)) settings.libraries

/-- What the document of some settings says. -/
def entries (settings : Settings) : Entries :=
  settings.frontEntries ++ ifGiven "logging" (fun level => .table .headed [("level", .string level.name)])
    settings.logLevel

variable (settings : Settings)

theorem keys_plainEntries :
    (settings.plainEntries.map (·.1)).Sublist ["chunk_name", "error_tag", "prepare_expressions"] := by
  simp only [plainEntries, List.map_append]
  exact (keys_ifGiven ..).append ((keys_ifGiven ..).append (keys_ifGiven ..))

theorem keys_frontEntries :
    (settings.frontEntries.map (·.1)).Sublist ["chunk_name", "error_tag", "prepare_expressions", "libraries"] := by
  rw [frontEntries, List.map_append]
  exact settings.keys_plainEntries.append (keys_ifGiven ..)

theorem leads_plainEntries : Leads {}
    (lines (ifGiven "chunk_name" string settings.chunkName ++ (ifGiven "error_tag" string settings.errorTag ++
      ifGiven "prepare_expressions" bool settings.prepareExpressions))).toList
    { root := settings.plainEntries, path := [] } :=
  leads_lines (fun root => { root, path := [] }) Progress.add_root
    ((says_ifGiven (by decide) saysValue_string settings.chunkName).append
      ((says_ifGiven (by decide) saysValue_string settings.errorTag).append
        (says_ifGiven (by decide) saysValue_bool settings.prepareExpressions)))
    (settings.keys_plainEntries.nodup (by decide))

theorem leads_libraries (path : List String) : ∃ path', Leads { root := settings.plainEntries, path }
    (sectionText "libraries" (settings.libraries.map (·.entries bool))).toList
    { root := settings.frontEntries, path := path' } :=
  leads_sectionText LibrarySettings.says_entries (fun l => (l.keys_entries _).nodup (by decide)) (by decide)
    (fun hmem => absurd (settings.keys_plainEntries.subset hmem) (by decide)) settings.libraries

theorem leads_logging (path : List String) : ∃ path', Leads { root := settings.frontEntries, path }
    (sectionText "logging" (settings.logLevel.map fun level => [("level", string level.name)])).toList
    { root := settings.entries, path := path' } :=
  leads_sectionText (fun _ => .cons (by decide) (saysValue_string _) .nil) (fun _ => List.pairwise_singleton ..)
    (by decide) (fun hmem => absurd (settings.keys_frontEntries.subset hmem) (by decide)) settings.logLevel

theorem parse?_toToml : parse? settings.toToml = some settings.entries := by
  obtain ⟨path, hlibraries⟩ := settings.leads_libraries []
  obtain ⟨path', hlogging⟩ := settings.leads_logging path
  have htext := settings.leads_plainEntries.trans (hlibraries.trans hlogging)
  rw [← String.toList_append, ← String.toList_append] at htext
  exact parse?_of_leads htext

end Settings
end ScriptHost
