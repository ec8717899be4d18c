import SpeechRelay.Proofs.Settings.Precedence
import SpeechRelay.Proofs.Settings.Standing

/-!
# Numbers are loaded exactly

A number that a source gives to a field is loaded as that number, or nothing is loaded
(`load_number`). It may be too large for its field, and it may have any company: whatever else the
file and the variables hold, no other number takes its place, unless another entry gives the field
another one.

The sources may give a number in three ways (`Supplied`): in the variable that is there for the port
alone, in the variable of the field, and in the file, each only as far as no source above it gives
the field another one. Whether a number is also accepted is told where it is all that is set
(`Alone`).
-/

set_option autoImplicit false

namespace SpeechRelay.Settings

open Json.Numeral (AllDigits)

/-! ## Sources of a number -/

/-- The entries of the file. A file that cannot be read has none. -/
def fileEntries (file : Option ConfigFile) : List (String × Value) :=
  match file.elim (.ok []) ConfigFile.entries with
  | .ok entries => entries
  | .error _ => []

/-- The entries that are read are those of the file. -/
theorem fileEntries_eq {file : Option ConfigFile} {entries : List (String × Value)}
    (hread : file.elim (.ok []) ConfigFile.entries = .ok entries) : fileEntries file = entries := by
  rw [fileEntries, hread]

/-- A file that can be read has the entries that are read. -/
theorem fileEntries_eq_of_some {file : ConfigFile} {entries : List (String × Value)}
    (hread : file.entries = .ok entries) : fileEntries (some file) = entries :=
  fileEntries_eq hread

/-- The number is what the sources give the field: the highest source that gives it one gives it
this number, and no other one beside it. -/
inductive Supplied (environment : List Variable) (file : Option ConfigFile) (f : Field) (n : Nat) :
    Prop where
  /-- The variable that is there for the port alone. -/
  | byPort {text : String} (hport : f = .port)
      (hvalue : variableValue? "PORT" environment = some text) (htext : IsDecimal text n)
  /-- The variable of the field. -/
  | byName {v : Variable} (hmem : v ∈ environment) (hkey : v.key? = some f.key)
      (htext : IsDecimal v.value n)
      (hown : f = .port → variableValue? "PORT" environment = none)
      (honly : ∀ entry ∈ environment.filterMap Variable.entry?, OnlyNumber f n entry)
  /-- The file. -/
  | inFile {entry : String × Value} {v : Value} (hmem : entry ∈ fileEntries file)
      (hassigns : Assigns f entry v)
      (hown : f = .port → variableValue? "PORT" environment = none)
      (honly : ∀ entry ∈ fileEntries file ++ environment.filterMap Variable.entry?,
        OnlyNumber f n entry)

/-- The number is all that is set. -/
inductive Alone (f : Field) (n : Nat) : List Variable → Option ConfigFile → Prop where
  | byPort {v : Variable} (hport : f = .port) (hname : v.name = "PORT")
      (htext : IsDecimal v.value n) : Alone f n [v] none
  | byName {v : Variable} (hkey : v.key? = some f.key) (htext : IsDecimal v.value n) :
      Alone f n [v] none
  | inFile {file : ConfigFile} {origin : Option Origin} {s : Scalar}
      (hread : file.entries =
        .ok [(f.part.name, .table origin [(f.name, .scalar origin s)])]) (hs : s.Gives n) :
      Alone f n [] (some file)

section Sources

variable {environment : List Variable} {file : Option ConfigFile} {f : Field} {n bits : Nat}

/-- A scalar under the path of a field is for that field only. -/
theorem eq_of_mayAssign {g : Field} {key : String} (hpath : (Path.ofKey key).LeadsTo g)
    {origin : Option Origin} {s : Scalar} {v : Value}
    (h : MayAssign f (key, .scalar origin s) v) : g = f ∧ v = .scalar origin s := by
  cases h with
  | assigns hassigns =>
    cases hassigns with
    | path hother => exact ⟨hother.unique hpath, rfl⟩
  | place hhead htail =>
    obtain ⟨-, name, hname, -⟩ := hpath
    rw [hname] at htail
    cases htail

/-- The key of a field gives the field its value. -/
theorem assigns_key (f : Field) (v : Value) : Assigns f (f.key, v) v := .path (leadsTo_key f)

/-- The key of a field gives no other number than its own. -/
theorem onlyNumber_key {s : Scalar} (hs : s.Gives n) (origin : Option Origin) :
    OnlyNumber f n (f.key, .scalar origin s) := by
  intro v hv
  obtain ⟨-, rfl⟩ := eq_of_mayAssign (leadsTo_key f) hv
  exact ⟨origin, s, rfl, hs⟩

/-- A variable that is read for another field gives the field no number. -/
theorem onlyNumber_of_mem_ownEntry {name : String} {g : Field}
    (h : g = f → variableValue? name environment = none) {entry : String × Value}
    (hmem : entry ∈ ownEntry name g.key environment) : OnlyNumber f n entry := by
  unfold ownEntry at hmem
  cases hvalue : variableValue? name environment with
  | none =>
    rw [hvalue] at hmem
    cases hmem
  | some text =>
    rw [hvalue] at hmem
    obtain rfl := List.mem_singleton.mp hmem
    intro v hv
    obtain ⟨hsame, -⟩ := eq_of_mayAssign (leadsTo_key g) hv
    rw [h hsame] at hvalue
    cases hvalue

/-- Among the variables no entry gives the field another number. -/
theorem onlyNumber_of_mem_variables (hbits : f.kind.bits? = some bits)
    (hown : f = .port → variableValue? "PORT" environment = none)
    (honly : ∀ entry ∈ environment.filterMap Variable.entry?, OnlyNumber f n entry)
    {entry : String × Value}
    (hmem : entry ∈ environmentEntries environment ++
      (ownEntry "HOST" Field.host.key environment ++ ownEntry "PORT" Field.port.key environment)) :
    OnlyNumber f n entry := by
  rcases List.mem_append.mp hmem with hvariable | hmem
  · exact honly entry (List.mem_filterMap.mpr (mem_of_mem_environmentEntries hvariable))
  rcases List.mem_append.mp hmem with hhost | hport
  · apply onlyNumber_of_mem_ownEntry _ hhost
    rintro rfl
    cases hbits
  · exact onlyNumber_of_mem_ownEntry (fun hsame => hown hsame.symm) hport

/-- When all layers have been laid, the number stands. -/
theorem stands_of_supplied (hbits : f.kind.bits? = some bits)
    (h : Supplied environment file f n) {root next : Value}
    (hok : assignAll root (upperEntries (fileEntries file) environment) = .ok next) :
    Stands f n next := by
  unfold upperEntries at hok
  cases h with
  | @byPort text hport hvalue htext =>
    subst hport
    have hentries : ownEntry "PORT" Field.port.key environment =
        [(Field.port.key, .scalar none (.text text))] := by
      rw [ownEntry, hvalue]
    rw [hentries, ← List.append_assoc, ← List.append_assoc] at hok
    apply stands_append hbits List.mem_cons_self (assigns_key .port _) _ hok
    intro entry hmem
    obtain rfl := List.mem_singleton.mp hmem
    exact onlyNumber_key (.text htext) none
  | @byName v hmem hkey htext hown honly =>
    have hentry : v.entry? = some (f.key, .scalar (some .environment) (.text v.value)) := by
      rw [Variable.entry?, hkey, Option.map_some]
    obtain ⟨⟨key, w⟩, hother, hsame⟩ := exists_mem_environmentEntries hmem hentry
    obtain rfl : key = f.key := hsame
    apply stands_append hbits (List.mem_append_left _ hother) (assigns_key f w) _ hok
    intro entry
    exact onlyNumber_of_mem_variables hbits hown honly
  | @inFile entry v hmem hassigns hown honly =>
    have hvariables : ∀ other ∈ environment.filterMap Variable.entry?, OnlyNumber f n other :=
      fun other hother => honly other (List.mem_append_right _ hother)
    apply stands_of_mem_assigns hbits (List.mem_append_left _ hmem) hassigns _ hok
    intro other hother
    rcases List.mem_append.mp hother with hfirst | hlater
    · exact honly other (List.mem_append_left _ hfirst)
    · exact onlyNumber_of_mem_variables hbits hown hvariables hlater

/-- A number in a configuration file that holds nothing else. -/
theorem describes_member {s : Scalar} {a : f.Datum} (h : s.StandsFor f.kind a)
    (origin other : Option Origin) :
    Describes (Layer.only f (some a))
      [(f.part.name, .table origin [(f.name, .scalar other s)])] := by
  have hpath := isPart_name f.part
  have hname := lowered_name f
  constructor
  · intro entry hmem
    obtain rfl := List.mem_singleton.mp hmem
    apply Suits.part hpath
    intro m hm
    obtain rfl := List.mem_singleton.mp hm
    exact .field rfl hname h (Layer.only_self f (some a))
  · intro g c hlayer
    obtain rfl := Layer.eq_of_only hlayer
    exact ⟨_, List.mem_singleton_self _, .member hpath ⟨_, List.mem_singleton_self _, hname⟩⟩

/-- A number in a table for the part gives the field that number only. -/
theorem onlyNumber_member {s : Scalar} (hs : s.Gives n) (origin other : Option Origin) :
    OnlyNumber f n (f.part.name, .table origin [(f.name, .scalar other s)]) := by
  have hpath := isPart_name f.part
  intro v hv
  cases hv with
  | assigns hassigns =>
    cases hassigns with
    | path hleads =>
      obtain ⟨-, name, htail, -⟩ := hleads
      rw [hpath.2] at htail
      cases htail
    | member _ hm _ =>
      obtain rfl := List.mem_singleton.mp hm
      exact ⟨other, s, rfl, hs⟩
  | place hhead htail =>
    rw [hpath.2] at htail
    cases htail

/-- A variable with the mark is not the one that is there for the port alone. -/
theorem name_ne_of_key? {v : Variable} {key : String} (hkey : v.key? = some key) :
    v.name ≠ "PORT" := by
  intro hname
  have hmark : variableMark.isPrefixOf (Text.lowered "PORT").toList = false := by decide +kernel
  unfold Variable.key? at hkey
  rw [hname] at hkey
  simp only [hmark] at hkey
  cases hkey

/-- The variable for the port alone has no key. -/
theorem key?_eq_none {v : Variable} (hname : v.name = "PORT") : v.key? = none := by
  cases hkey : v.key? with
  | none => rfl
  | some key => exact absurd hname (name_ne_of_key? hkey)

/-- A variable with the key of a field is one entry. -/
theorem filterMap_entry?_of_key? {v : Variable} (hkey : v.key? = some f.key) :
    [v].filterMap Variable.entry? =
      [(f.key, .scalar (some .environment) (.text v.value))] := by
  simp [Variable.entry?, hkey]

/-- The variable for the port alone is no entry. -/
theorem filterMap_entry?_of_name {v : Variable} (hname : v.name = "PORT") :
    [v].filterMap Variable.entry? = [] := by
  simp [Variable.entry?, key?_eq_none hname]

/-- The variable for the port alone is found by its name. -/
theorem variableValue?_of_name {v : Variable} (hname : v.name = "PORT") :
    variableValue? "PORT" [v] = some v.value := by
  simp [variableValue?, hname]

/-- A variable with a key is not the one for the port alone. -/
theorem variableValue?_of_key? {v : Variable} {key : String} (hkey : v.key? = some key) :
    variableValue? "PORT" [v] = none := by
  simp [variableValue?, name_ne_of_key? hkey]

/-- A number that is all that is set is what the sources give the field. -/
theorem supplied_of_alone (h : Alone f n environment file) : Supplied environment file f n := by
  cases h with
  | @byPort v hport hname htext => exact .byPort hport (variableValue?_of_name hname) htext
  | @byName v hkey htext =>
    apply Supplied.byName List.mem_cons_self hkey htext
    · intro _
      exact variableValue?_of_key? hkey
    · rw [filterMap_entry?_of_key? hkey]
      intro entry hmem
      obtain rfl := List.mem_singleton.mp hmem
      exact onlyNumber_key (.text htext) _
  | @inFile file origin s hread hs =>
    have hentries := fileEntries_eq_of_some hread
    have hassigns : Assigns f (f.part.name, .table origin [(f.name, .scalar origin s)])
        (.scalar origin s) :=
      .member (m := (f.name, .scalar origin s)) (isPart_name f.part) List.mem_cons_self
        (lowered_name f)
    refine .inFile (by rw [hentries]; exact List.mem_cons_self) hassigns (fun _ => rfl) ?_
    intro entry hmem
    rw [hentries, List.filterMap_nil, List.append_nil] at hmem
    obtain rfl := List.mem_singleton.mp hmem
    exact onlyNumber_member hs origin origin

/-- The table of all layers comes from laying the entries over the defaults. -/
theorem layers_eq_ok {root : Value} (h : layers environment file = .ok (.ok root)) :
    assignAll defaultLayer (upperEntries (fileEntries file) environment) = .ok root := by
  cases hread : file.elim (.ok []) ConfigFile.entries with
  | error why =>
    simp only [layers, hread] at h
    cases h
  | ok entries =>
    rw [layers_of_entries hread] at h
    obtain ⟨table, htable, hsame⟩ := map_eq_ok h
    obtain rfl := Except.ok.inj hsame
    rw [fileEntries_eq hread]
    exact htable

/-- Settings that are loaded have the number that the sources give the field. -/
theorem toNat?_of_load (hbits : f.kind.bits? = some bits) (h : Supplied environment file f n)
    {settings : Settings} (hload : load environment file = .ok (.ok settings)) :
    f.kind.toNat? (settings.get f) = some n := by
  obtain ⟨table, htable, hvalue⟩ := map_eq_ok hload
  obtain ⟨root, rfl, hsettings⟩ := bind_eq_ok hvalue
  have hstands := stands_of_supplied hbits h (layers_eq_ok htable)
  exact toNat?_of_stands hbits hstands hsettings

/-- Loading halts for no other reason than a place out of reach on the path of a key. -/
theorem exists_not_inReach {halt : Halt} (hload : load environment file = .error halt) :
    ∃ entry ∈ fileEntries file ++ environment.filterMap Variable.entry?,
      ¬InReach (Path.ofKey entry.1).tail := by
  by_contra! hreach
  obtain ⟨root, hroot⟩ :=
    exists_assignAll (fun entry hmem => inReach_of_mem_upperEntries hreach hmem) defaultLayer
  cases hread : file.elim (.ok []) ConfigFile.entries with
  | error why =>
    simp only [load, layers, hread] at hload
    cases hload
  | ok entries =>
    rw [load, layers_of_entries hread, ← fileEntries_eq hread, hroot] at hload
    cases hload

/-- Entries that describe layers are loaded, if all places are in reach. -/
theorem exists_load {inFile inVariables : Layer} {port : Option UInt16}
    (hread : file.elim (.ok []) ConfigFile.entries = .ok (fileEntries file))
    (hfile : Describes inFile (fileEntries file))
    (hvariables : Describes inVariables (environment.filterMap Variable.entry?))
    (hport : Owns .port (variableValue? "PORT" environment) port)
    (hreach : ∀ entry ∈ fileEntries file ++ environment.filterMap Variable.entry?,
      InReach (Path.ofKey entry.1).tail) :
    ∃ settings, load environment file = .ok (.ok settings) := by
  obtain ⟨table, htable⟩ :=
    exists_assignAll_upper hfile hvariables fun entry hmem _ => hreach entry hmem
  have hholds := holdsAll_assignAll_upper hfile hvariables hport htable
  have hvalue := ofValue_of_holdsAll hholds
  rw [load, layers_of_entries hread, htable]
  exact ⟨_, congrArg Except.ok hvalue⟩

/-- No entries describe the layer that gives nothing. -/
theorem describes_nil : Describes (fun _ => none) [] := by
  constructor
  · intro entry hmem
    cases hmem
  · intro g a hlayer
    cases hlayer

/-- A number that is all that is set has every place of its path in reach. -/
theorem inReach_of_alone (h : Alone f n environment file) {entry : String × Value}
    (hmem : entry ∈ fileEntries file ++ environment.filterMap Variable.entry?) :
    InReach (Path.ofKey entry.1).tail := by
  cases h with
  | @byPort v hport hname htext =>
    rw [filterMap_entry?_of_name hname] at hmem
    cases hmem
  | @byName v hkey htext =>
    rw [filterMap_entry?_of_key? hkey] at hmem
    obtain rfl := List.mem_singleton.mp hmem
    exact inReach_of_leadsTo (leadsTo_key f)
  | @inFile file origin s hread hs =>
    have hentries := fileEntries_eq_of_some hread
    rw [hentries] at hmem
    obtain rfl := List.mem_singleton.mp hmem
    intro index hplace
    rw [(isPart_name f.part).2] at hplace
    cases hplace

/-- A number that is all that is set is loaded, if the field has the bits for it. -/
theorem exists_load_of_alone (hbits : f.kind.bits? = some bits) (hn : n < 2 ^ bits)
    (h : Alone f n environment file) : ∃ settings, load environment file = .ok (.ok settings) := by
  have hreach : ∀ entry ∈ fileEntries file ++ environment.filterMap Variable.entry?,
      InReach (Path.ofKey entry.1).tail := fun entry => inReach_of_alone h
  obtain ⟨d, hd⟩ := Kind.exists_datum hbits hn
  cases h with
  | @byPort v hport hname htext =>
    subst hport
    have howns : Owns .port (variableValue? "PORT" [v]) (some d) := by
      rw [variableValue?_of_name hname]
      exact ⟨d, rfl, (Scalar.Gives.text htext).standsFor hd⟩
    have hentries := filterMap_entry?_of_name hname
    exact exists_load rfl describes_nil (hentries ▸ describes_nil) howns hreach
  | @byName v hkey htext =>
    have howns : Owns .port (variableValue? "PORT" [v]) none := by
      rw [variableValue?_of_key? hkey]
      rfl
    have hentries := filterMap_entry?_of_key? hkey
    have hvariables := describes_key ((Scalar.Gives.text htext).standsFor hd) (some .environment)
    exact exists_load rfl describes_nil (hentries ▸ hvariables) howns hreach
  | @inFile file origin s hread hs =>
    have howns : Owns .port (variableValue? "PORT" []) none := rfl
    have hentries := fileEntries_eq_of_some hread
    have hfile := describes_member (hs.standsFor hd) origin origin
    have hall : (some file).elim (.ok []) ConfigFile.entries = .ok (fileEntries (some file)) := by
      rw [hentries]
      exact hread
    exact exists_load hall (hentries ▸ hfile) describes_nil howns hreach

/-- Where the sources give a field a number, settings are loaded with exactly that number or not at
all, and a number that does not fit the field is not loaded. Loading halts for no other reason than
a place out of reach on the path of a key. A number that is all that is set is loaded if it fits the
field, and rejected if not. -/
theorem load_number (hbits : f.kind.bits? = some bits) :
    (Supplied environment file f n →
      (∃ settings, load environment file = .ok (.ok settings) ∧
        f.kind.toNat? (settings.get f) = some n ∧ n < 2 ^ bits) ∨
      (∃ why, load environment file = .ok (.error why)) ∨
      (∃ halt, load environment file = .error halt) ∧
        ∃ entry ∈ fileEntries file ++ environment.filterMap Variable.entry?,
          ¬InReach (Path.ofKey entry.1).tail) ∧
    (Alone f n environment file →
      if n < 2 ^ bits then
        ∃ settings, load environment file = .ok (.ok settings) ∧
          f.kind.toNat? (settings.get f) = some n
      else ∃ why, load environment file = .ok (.error why)) := by
  constructor
  · intro hsupplied
    cases hload : load environment file with
    | error halt => exact .inr (.inr ⟨⟨halt, rfl⟩, exists_not_inReach hload⟩)
    | ok result =>
      cases result with
      | error why => exact .inr (.inl ⟨why, rfl⟩)
      | ok settings =>
        have hnumber := toNat?_of_load hbits hsupplied hload
        exact .inl ⟨settings, rfl, hnumber, Kind.lt_of_toNat? hbits hnumber⟩
  · intro halone
    have hsupplied := supplied_of_alone halone
    split
    · next hn =>
      obtain ⟨settings, hload⟩ := exists_load_of_alone hbits hn halone
      exact ⟨settings, hload, toNat?_of_load hbits hsupplied hload⟩
    · next hn =>
      cases hload : load environment file with
      | error halt =>
        obtain ⟨entry, hmem, hout⟩ := exists_not_inReach hload
        exact absurd (inReach_of_alone halone hmem) hout
      | ok result =>
        cases result with
        | error why => exact ⟨why, rfl⟩
        | ok settings =>
          have hnumber := toNat?_of_load hbits hsupplied hload
          exact absurd (Kind.lt_of_toNat? hbits hnumber) hn

end Sources

/-- The port at the limit of its word: one more is rejected, also beside another variable. -/
theorem load_number_port :
    (∃ settings, load [⟨"PORT", "65535"⟩] none = .ok (.ok settings) ∧
      settings.server.port = 65535) ∧
    (∃ why, load [⟨"PORT", "65536"⟩] none = .ok (.error why)) ∧
    ∀ settings, load [⟨"APP__AUDIO__CHANNELS", "2"⟩, ⟨"PORT", "65536"⟩] none ≠
      .ok (.ok settings) := by
  have htop : IsDecimal "65535" 65535 := ⟨by decide, by simp [AllDigits], by decide⟩
  have hover : IsDecimal "65536" 65536 := ⟨by decide, by simp [AllDigits], by decide⟩
  have hbits : Field.port.kind.bits? = some 16 := rfl
  have hloaded := (load_number hbits).2 (.byPort (v := ⟨"PORT", "65535"⟩) rfl rfl htop)
  have hrejected := (load_number hbits).2 (.byPort (v := ⟨"PORT", "65536"⟩) rfl rfl hover)
  rw [if_pos (by decide)] at hloaded
  rw [if_neg (by decide)] at hrejected
  refine ⟨?_, hrejected, ?_⟩
  · obtain ⟨settings, hload, hport⟩ := hloaded
    exact ⟨settings, hload, UInt16.toNat.inj (Option.some.inj hport)⟩
  · intro settings hload
    have hsupplied : Supplied [⟨"APP__AUDIO__CHANNELS", "2"⟩, ⟨"PORT", "65536"⟩] none .port 65536 :=
      .byPort rfl rfl hover
    rcases (load_number hbits).1 hsupplied with ⟨_, -, -, hfits⟩ | ⟨why, hwhy⟩ | ⟨⟨halt, hhalt⟩, -⟩
    · exact absurd hfits (by decide)
    · rw [hload] at hwhy
      cases hwhy
    · rw [hload] at hhalt
      cases hhalt

end SpeechRelay.Settings
