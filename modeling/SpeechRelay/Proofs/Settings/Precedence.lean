import Mathlib.Logic.Function.Basic
import Mathlib.Tactic.ByContra
import SpeechRelay.Proofs.Settings.Layers
import SpeechRelay.Proofs.Settings.Written

/-!
# Which layer wins

Each field is set by the highest layer that gives it: `HOST` and `PORT`, then the variables of the
environment, then the file, then the defaults. A layer that sets a field leaves every other field
alone, those of the same part too (`load_overlays`).

Entries about no field at all do not count, whatever they hold. But their keys are paths like all
others, and a path may have a place in a list that cannot be walked to: then loading halts instead
of passing the key over (`not_load_of_foreign`), and it halts for no other reason.
-/

set_option autoImplicit false

namespace SpeechRelay.Settings

open Json.Numeral (AllDigits)

/-! ## Keys of fields -/

/-- The key of a field at the top. -/
def Field.key (f : Field) : String := f.part.name ++ "." ++ f.name

/-- The key of a field is the path of its part and its name. -/
theorem ofKey_key (f : Field) : Path.ofKey f.key = ⟨f.part.name, [.name f.name]⟩ := by
  cases f <;> decide +kernel

/-- The names of fields are in lower case. -/
theorem lowered_name (f : Field) : Text.lowered f.name = f.name := by
  cases f <;> decide +kernel

/-- The names of parts are in lower case. -/
theorem lowered_part (part : Part) : Text.lowered part.name = part.name := by
  cases part <;> decide +kernel

/-- The key of a field ends at that field. -/
theorem leadsTo_key (f : Field) : (Path.ofKey f.key).LeadsTo f := by
  rw [ofKey_key]
  exact ⟨lowered_part f.part, f.name, rfl, lowered_name f⟩

/-- The name of a part is a key of that part. -/
theorem isPart_name (part : Part) : (Path.ofKey part.name).IsPart part := by
  cases part <;> constructor <;> decide +kernel

/-- A path that ends at a field has no places. -/
theorem inReach_of_leadsTo {p : Path} {f : Field} (h : p.LeadsTo f) : InReach p.tail := by
  obtain ⟨-, key, htail, -⟩ := h
  intro index hmem
  simp [htail] at hmem

/-- The variable of a field in any case sets its key. -/
theorem key?_eq_key {v : Variable} {f : Field}
    (h : Text.lowered v.name = "app__" ++ f.part.name ++ "__" ++ f.name) :
    v.key? = some f.key := by
  unfold Variable.key?
  rw [h]
  cases f <;> decide +kernel

/-! ## Variables as entries -/

/-- The entry that a variable is, if its name has the mark. -/
def Variable.entry? (v : Variable) : Option (String × Value) :=
  v.key?.map (·, .scalar (some .environment) (.text v.value))

/-- The name of a variable tells what its entry is about. -/
theorem leadsTo_of_mentions {v : Variable} {entry : String × Value} {f : Field}
    (hentry : v.entry? = some entry) (h : Mentions entry f) : (Path.ofKey entry.1).LeadsTo f := by
  obtain ⟨key, -, rfl⟩ := Option.map_eq_some_iff.mp hentry
  exact mentions_scalar_iff.mp h

/-- Of the variables with one key one is an entry, and all entries are variables. -/
theorem environmentEntries_of_cons (v : Variable) (vs : List Variable) :
    environmentEntries (v :: vs) = environmentEntries vs ∧
        (∀ entry, v.entry? = some entry → ∃ other ∈ environmentEntries vs, other.1 = entry.1) ∨
      ∃ entry, v.entry? = some entry ∧
        environmentEntries (v :: vs) = entry :: environmentEntries vs := by
  unfold Variable.entry?
  rw [environmentEntries]
  cases v.key? with
  | none => exact .inl ⟨rfl, fun entry hentry => by cases hentry⟩
  | some key =>
    dsimp only
    split
    · next hany =>
      left
      refine ⟨rfl, ?_⟩
      rintro _ ⟨⟩
      simpa using hany
    · exact .inr ⟨_, rfl, rfl⟩

/-- The entries of the environment are variables. -/
theorem mem_of_mem_environmentEntries {environment : List Variable} {entry : String × Value}
    (h : entry ∈ environmentEntries environment) :
    ∃ v ∈ environment, v.entry? = some entry := by
  induction environment with
  | nil => cases h
  | cons v vs ih =>
    rcases environmentEntries_of_cons v vs with ⟨heq, -⟩ | ⟨first, hfirst, heq⟩ <;> rw [heq] at h
    · obtain ⟨w, hw, hentry⟩ := ih h
      exact ⟨w, List.mem_cons_of_mem v hw, hentry⟩
    · rcases List.mem_cons.mp h with rfl | hrest
      · exact ⟨v, List.mem_cons_self, hfirst⟩
      · obtain ⟨w, hw, hentry⟩ := ih hrest
        exact ⟨w, List.mem_cons_of_mem v hw, hentry⟩

/-- Of every variable with a mark there is an entry with its key, if not its own. -/
theorem exists_mem_environmentEntries {environment : List Variable} {v : Variable}
    {entry : String × Value} (hv : v ∈ environment) (hentry : v.entry? = some entry) :
    ∃ other ∈ environmentEntries environment, other.1 = entry.1 := by
  induction environment with
  | nil => cases hv
  | cons w ws ih =>
    rcases environmentEntries_of_cons w ws with ⟨heq, hlater⟩ | ⟨first, hfirst, heq⟩ <;> rw [heq]
    · rcases List.mem_cons.mp hv with rfl | hrest
      · exact hlater entry hentry
      · exact ih hrest
    · rcases List.mem_cons.mp hv with rfl | hrest
      · exact ⟨first, List.mem_cons_self, by rw [Option.some.inj (hfirst.symm.trans hentry)]⟩
      · obtain ⟨other, hother, hkey⟩ := ih hrest
        exact ⟨other, List.mem_cons_of_mem first hother, hkey⟩

/-- Variables that describe a layer still do when each key is left with one. -/
theorem describes_environmentEntries {layer : Layer} {environment : List Variable}
    (h : Describes layer (environment.filterMap Variable.entry?)) :
    Describes layer (environmentEntries environment) := by
  constructor
  · intro entry hmem
    exact h.suits entry (List.mem_filterMap.mpr (mem_of_mem_environmentEntries hmem))
  · intro f a hlayer
    obtain ⟨entry, hmem, hmentions⟩ := h.mentions f a hlayer
    obtain ⟨v, hv, hentry⟩ := List.mem_filterMap.mp hmem
    have hleads := leadsTo_of_mentions hentry hmentions
    obtain ⟨other, hother, hkey⟩ := exists_mem_environmentEntries hv hentry
    exact ⟨other, hother, .path (hkey ▸ hleads)⟩

/-! ## Variables of their own -/

/-- The layer of one field. -/
def Layer.only (f : Field) (a : Option f.Datum) : Layer := Function.update (fun _ => none) f a

/-- The layer of one field gives its datum to that field. -/
@[simp] theorem Layer.only_self (f : Field) (a : Option f.Datum) : Layer.only f a f = a := by
  rw [Layer.only, Function.update_self]

/-- The layer of one field gives nothing to any other. -/
theorem Layer.eq_of_only {f g : Field} {a : Option f.Datum} {b : g.Datum}
    (h : Layer.only f a g = some b) : g = f := by
  by_contra hne
  rw [Layer.only, Function.update_of_ne hne] at h
  cases h

/-- The text of a variable is a datum, and without the variable there is none. -/
def Owns (f : Field) (text : Option String) (a : Option f.Datum) : Prop :=
  match text with
  | none => a = none
  | some s => ∃ b, a = some b ∧ (Scalar.text s).StandsFor f.kind b

/-- The key of a field with a datum describes the layer of that field. -/
theorem describes_key {f : Field} {a : f.Datum} {s : Scalar} (h : s.StandsFor f.kind a)
    (origin : Option Origin) : Describes (Layer.only f (some a)) [(f.key, .scalar origin s)] := by
  constructor
  · intro entry hmem
    obtain rfl := List.mem_singleton.mp hmem
    exact .field (leadsTo_key f) h (Layer.only_self f (some a))
  · intro g c hlayer
    obtain rfl := Layer.eq_of_only hlayer
    exact ⟨_, List.mem_singleton_self _, .path (leadsTo_key g)⟩

/-- A variable that is read for one field describes the layer of that field. -/
theorem describes_ownEntry {environment : List Variable} {name : String} {f : Field}
    {a : Option f.Datum} (h : Owns f (variableValue? name environment) a) :
    Describes (Layer.only f a) (ownEntry name f.key environment) := by
  unfold ownEntry
  cases hvalue : variableValue? name environment with
  | none =>
    rw [hvalue] at h
    obtain rfl : a = none := h
    refine ⟨fun entry hmem => absurd hmem List.not_mem_nil, fun g b hlayer => ?_⟩
    obtain rfl := Layer.eq_of_only hlayer
    rw [Layer.only_self] at hlayer
    cases hlayer
  | some s =>
    rw [hvalue] at h
    obtain ⟨b, rfl, hstands⟩ := h
    exact describes_key hstands none

/-- The key of a variable that is read for one field has no places. -/
theorem inReach_ownEntry {environment : List Variable} {name : String} {f : Field}
    {entry : String × Value} (h : entry ∈ ownEntry name f.key environment) :
    InReach (Path.ofKey entry.1).tail := by
  unfold ownEntry at h
  split at h
  · obtain rfl := List.mem_singleton.mp h
    exact inReach_of_leadsTo (leadsTo_key f)
  · cases h

/-! ## All layers -/

/-- Only a foreign key has places on its path. -/
theorem inReach_of_suits {layer : Layer} {entry : String × Value} (h : Suits layer entry)
    (hforeign : (Path.ofKey entry.1).Foreign → InReach (Path.ofKey entry.1).tail) :
    InReach (Path.ofKey entry.1).tail := by
  cases h with
  | field hpath => exact inReach_of_leadsTo hpath
  | part hpath =>
    intro index hmem
    rw [hpath.2] at hmem
    cases hmem
  | foreign hpath => exact hforeign hpath

section Load

variable {environment : List Variable} {file : Option ConfigFile} {entries : List (String × Value)}
  {inFile inVariables : Layer} {port : Option UInt16}

/-- Everything that is laid over the defaults. -/
def upperEntries (entries : List (String × Value)) (environment : List Variable) :
    List (String × Value) :=
  entries ++ (environmentEntries environment ++
    (ownEntry "HOST" Field.host.key environment ++ ownEntry "PORT" Field.port.key environment))

/-- Loading lays everything that is above the defaults over them. -/
theorem layers_of_entries (hread : file.elim (.ok []) ConfigFile.entries = .ok entries) :
    layers environment file =
      (assignAll defaultLayer (upperEntries entries environment)).map .ok := by
  have hkeys : Field.host.key = "server.host" ∧ Field.port.key = "server.port" := by decide
  simp only [layers, upperEntries, hread, hkeys, List.append_assoc]

/-- Any text is a host. -/
theorem owns_host (text : Option String) : Owns .host text text := by
  cases text with
  | none => rfl
  | some s => exact ⟨s, rfl, rfl⟩

/-- If the places in the file and in the variables with a mark are in reach, then all are. -/
theorem inReach_of_mem_upperEntries
    (hreach : ∀ entry ∈ entries ++ environment.filterMap Variable.entry?,
      InReach (Path.ofKey entry.1).tail) {entry : String × Value}
    (hmem : entry ∈ upperEntries entries environment) : InReach (Path.ofKey entry.1).tail := by
  rcases List.mem_append.mp hmem with hfirst | hmem
  · exact hreach entry (List.mem_append_left _ hfirst)
  rcases List.mem_append.mp hmem with hsecond | hmem
  · have hentry := List.mem_filterMap.mpr (mem_of_mem_environmentEntries hsecond)
    exact hreach entry (List.mem_append_right _ hentry)
  rcases List.mem_append.mp hmem with hhost | hport
  · exact inReach_ownEntry hhost
  · exact inReach_ownEntry hport

/-- If all places are in reach, all layers can be laid. -/
theorem exists_assignAll_upper (hfile : Describes inFile entries)
    (hvariables : Describes inVariables (environment.filterMap Variable.entry?))
    (hreach : ∀ entry ∈ entries ++ environment.filterMap Variable.entry?,
      (Path.ofKey entry.1).Foreign → InReach (Path.ofKey entry.1).tail) :
    ∃ table, assignAll defaultLayer (upperEntries entries environment) = .ok table := by
  apply exists_assignAll
  intro entry hmem
  apply inReach_of_mem_upperEntries _ hmem
  intro other hother
  rcases List.mem_append.mp hother with hfirst | hsecond
  · exact inReach_of_suits (hfile.suits other hfirst) (hreach other hother)
  · exact inReach_of_suits (hvariables.suits other hsecond) (hreach other hother)

/-- All layers over the defaults. -/
theorem holdsAll_assignAll_upper (hfile : Describes inFile entries)
    (hvariables : Describes inVariables (environment.filterMap Variable.entry?))
    (hport : Owns .port (variableValue? "PORT" environment) port) {table : Value}
    (hok : assignAll defaultLayer (upperEntries entries environment) = .ok table) :
    HoldsAll ((Layer.only .port port).over
      ((Layer.only .host (variableValue? "HOST" environment)).over
        (inVariables.over (inFile.over default.get)))) table := by
  have hdefault := holdsAll_ofJson default none signed_default
  obtain ⟨first, hfirst, hok⟩ := holdsAll_append hdefault hfile hok
  obtain ⟨second, hsecond, hok⟩ :=
    holdsAll_append hfirst (describes_environmentEntries hvariables) hok
  obtain ⟨third, hthird, hok⟩ := holdsAll_append hsecond (describes_ownEntry (owns_host _)) hok
  exact holdsAll_assignAll hthird (describes_ownEntry hport) hok

/-- Every field has its datum from the highest layer that gives it one. Loading halts for no other
reason than a place out of reach on the path of a foreign key. -/
theorem load_overlays (hread : file.elim (.ok []) ConfigFile.entries = .ok entries)
    (hfile : Describes inFile entries)
    (hvariables : Describes inVariables (environment.filterMap Variable.entry?))
    (hport : Owns .port (variableValue? "PORT" environment) port) :
    ∃ settings : Settings,
      (∀ f, settings.get f = (Layer.only .port port).over
        ((Layer.only .host (variableValue? "HOST" environment)).over
          (inVariables.over (inFile.over default.get))) f) ∧
      (load environment file = .ok (.ok settings) ∨
        (∃ why, load environment file = .error why) ∧
          ∃ entry ∈ entries ++ environment.filterMap Variable.entry?,
            (Path.ofKey entry.1).Foreign ∧ ¬InReach (Path.ofKey entry.1).tail) := by
  refine ⟨ofData _, get_ofData _, ?_⟩
  unfold load
  rw [layers_of_entries hread]
  cases hall : assignAll defaultLayer (upperEntries entries environment) with
  | ok table =>
    have htable := holdsAll_assignAll_upper hfile hvariables hport hall
    exact .inl (congrArg Except.ok (ofValue_of_holdsAll htable))
  | error why =>
    refine .inr ⟨⟨why, rfl⟩, ?_⟩
    by_contra! hreach
    obtain ⟨table, htable⟩ := exists_assignAll_upper hfile hvariables hreach
    rw [hall] at htable
    cases htable

end Load

/-! ## A file, two variables and `PORT` -/

/-- A file that sets two fields of one part, and something unknown in it. -/
def mixedFile : ConfigFile :=
  ⟨"config.toml", "[server]\nport = 3000\nenabled = false\nnote = 1\n"⟩

/-- Where the values of the file come from. -/
def mixedOrigin : Option Origin := some (.file "config.toml")

/-- What the file says about the server. -/
def mixedMembers : List (String × Value) :=
  [("port", .scalar mixedOrigin (.integer 3000)), ("enabled", .scalar mixedOrigin (.truth false)),
    ("note", .scalar mixedOrigin (.integer 1))]

/-- What the file sets. -/
def mixedFileLayer : Layer
  | .port => some 3000
  | .enabled => some false
  | _ => none

/-- One variable is about no field at all, and one has its name in mixed case. -/
def mixedEnvironment : List Variable :=
  [⟨"APP__NOTE[1]", "x"⟩, ⟨"App__Audio__Channels", "1"⟩, ⟨"PORT", "080"⟩]

/-- What the variables with a mark set. -/
def mixedVariableLayer : Layer
  | .channels => some 1
  | _ => none

/-- Whether a file was read as the one table with these members. Equality of values is not
decidable, for there are doubles among them, but their shape can be looked at. -/
def isMixed : Except LoadError (List (String × Value)) → Bool
  | .ok [(part, .table origin [(first, .scalar ofFirst (.integer port)),
      (second, .scalar ofSecond (.truth enabled)), (third, .scalar ofThird (.integer note))])] =>
    decide ((part, first, second, third) = ("server", "port", "enabled", "note") ∧
      (port, enabled, note) = (3000, false, 1) ∧
      (origin, ofFirst, ofSecond, ofThird) =
        (mixedOrigin, mixedOrigin, mixedOrigin, mixedOrigin))
  | _ => false

/-- What looks like the table is the table. -/
theorem eq_of_isMixed {read : Except LoadError (List (String × Value))} (h : isMixed read = true) :
    read = .ok [("server", .table mixedOrigin mixedMembers)] := by
  unfold isMixed at h
  split at h
  · obtain ⟨hkeys, hscalars, horigins⟩ := of_decide_eq_true h
    cases hkeys
    cases hscalars
    cases horigins
    rfl
  · cases h

/-- The file is read as one table. -/
theorem entries_mixedFile :
    mixedFile.entries = .ok [("server", .table mixedOrigin mixedMembers)] :=
  eq_of_isMixed (by decide +kernel)

/-- The table describes what the file sets, and its unknown member is no hindrance. -/
theorem describes_mixedMembers :
    Describes mixedFileLayer [("server", .table mixedOrigin mixedMembers)] := by
  have hport : (Scalar.integer 3000).StandsFor .word16 3000 := Scalar.IsNumber.integer
  constructor
  · intro entry hmem
    obtain rfl := List.mem_singleton.mp hmem
    refine .part (isPart_name .server) fun m hm => ?_
    simp only [mixedMembers, List.mem_cons, List.not_mem_nil, or_false] at hm
    rcases hm with rfl | rfl | rfl
    · exact .field rfl (lowered_name .port) hport rfl
    · exact .field rfl (lowered_name .enabled) (.inl rfl) rfl
    · exact .foreign fun f _ => by cases f <;> decide +kernel
  · intro f a hlayer
    refine ⟨_, List.mem_singleton_self _, ?_⟩
    cases f with
    | port => exact .member (isPart_name .server) ⟨_, List.mem_cons_self, lowered_name .port⟩
    | enabled =>
      exact .member (isPart_name .server)
        ⟨_, List.mem_cons_of_mem _ List.mem_cons_self, lowered_name .enabled⟩
    | _ => cases hlayer

/-- The variables with a mark are two entries, and `PORT` is none. -/
theorem entries_mixedEnvironment :
    mixedEnvironment.filterMap Variable.entry? =
      [("note[1]", .scalar (some .environment) (.text "x")),
        (Field.channels.key, .scalar (some .environment) (.text "1"))] := by
  have hnote : Variable.key? ⟨"APP__NOTE[1]", "x"⟩ = some "note[1]" := by decide +kernel
  have hchannels : Variable.key? ⟨"App__Audio__Channels", "1"⟩ = some Field.channels.key :=
    key?_eq_key (by decide +kernel)
  simp [mixedEnvironment, Variable.entry?, hnote, hchannels]
  decide +kernel

/-- The two entries describe what the variables set. -/
theorem describes_mixedEnvironment :
    Describes mixedVariableLayer (mixedEnvironment.filterMap Variable.entry?) := by
  have hforeign : (Path.ofKey "note[1]").Foreign :=
    .head fun part => by cases part <;> decide +kernel
  have hone : IsDecimal "1" (1 : UInt16).toNat := ⟨by decide, by simp [AllDigits], by decide⟩
  rw [entries_mixedEnvironment]
  constructor
  · intro entry hmem
    simp only [List.mem_cons, List.not_mem_nil, or_false] at hmem
    rcases hmem with rfl | rfl
    · exact .foreign hforeign
    · exact .field (leadsTo_key .channels) (.text hone) rfl
  · intro f a hlayer
    cases f with
    | channels =>
      exact ⟨_, List.mem_cons_of_mem _ List.mem_cons_self, .path (leadsTo_key .channels)⟩
    | _ => cases hlayer

/-- The only place on a path can be walked to, so that nothing halts the loading. -/
theorem inReach_mixed {entry : String × Value}
    (hmem : entry ∈ [("server", .table mixedOrigin mixedMembers)] ++
      mixedEnvironment.filterMap Variable.entry?) : InReach (Path.ofKey entry.1).tail := by
  rw [entries_mixedEnvironment] at hmem
  simp only [List.cons_append, List.nil_append, List.mem_cons, List.not_mem_nil, or_false] at hmem
  rcases hmem with rfl | rfl | rfl
  · have htail : (Path.ofKey "server").tail = [] := (isPart_name .server).2
    simp [InReach, htail]
  · have hpath : Path.ofKey "note[1]" = ⟨"note", [.place 1]⟩ := by decide +kernel
    intro index hplace
    obtain rfl : index = 1 := by simpa [hpath] using hplace
    decide
  · exact inReach_of_leadsTo (leadsTo_key .channels)

/-- A file and variables with something unknown in each: the port is that of `PORT`, and what is set
in a part leaves the rest of it alone. -/
theorem load_overlays_mixed :
    ∃ settings, load mixedEnvironment (some mixedFile) = .ok (.ok settings) ∧
      settings.server = ⟨false, "127.0.0.1", 80⟩ ∧
      settings.audio = { default.audio with channels := 1 } := by
  have hport : Owns .port (variableValue? "PORT" mixedEnvironment) (some 80) :=
    ⟨80, rfl, .text ⟨by decide, by simp [AllDigits], by decide⟩⟩
  have hread : (some mixedFile).elim (.ok []) ConfigFile.entries =
      .ok [("server", .table mixedOrigin mixedMembers)] := by
    rw [Option.elim_some, entries_mixedFile]
  obtain ⟨settings, hget, hload⟩ :=
    load_overlays hread describes_mixedMembers describes_mixedEnvironment hport
  refine ⟨settings, hload.resolve_right fun hhalt => ?_, ?_, ?_⟩
  · obtain ⟨-, entry, hmem, -, hout⟩ := hhalt
    exact hout (inReach_mixed hmem)
  · show (⟨settings.get .enabled, settings.get .host, settings.get .port⟩ : ServerSection) = _
    rw [hget, hget, hget]
    rfl
  · show (⟨settings.get .channels, settings.get .bytesPerSample, settings.get .consumeGateBytes,
      settings.get .silenceFrameSamples, settings.get .pacingIntervalMs,
      settings.get .targetSampleRate⟩ : AudioSection) = _
    rw [hget, hget, hget, hget, hget, hget]
    rfl

/-- Unknown variables alone can make loading halt: a place that counts from the end of a list cannot
be walked to when there is no list. -/
theorem not_load_of_foreign :
    ¬∀ environment : List Variable,
      (∀ entry ∈ environment.filterMap Variable.entry?, (Path.ofKey entry.1).Foreign) →
        ∃ settings, load environment none = .ok (.ok settings) := by
  intro hall
  have hkey : Variable.key? ⟨"APP__X[-1]", "1"⟩ = some "x[-1]" := by decide +kernel
  have hpath : Path.ofKey "x[-1]" = ⟨"x", [.place (-1)]⟩ := by decide +kernel
  have hforeign : (Path.ofKey "x[-1]").Foreign :=
    .head fun part => by cases part <;> decide +kernel
  obtain ⟨settings, hload⟩ := hall [⟨"APP__X[-1]", "1"⟩] fun entry hmem => by
    simp [Variable.entry?, hkey] at hmem
    rw [hmem]
    exact hforeign
  have hupper : upperEntries [] [⟨"APP__X[-1]", "1"⟩] =
      [("x[-1]", .scalar (some .environment) (.text "1"))] := by
    simp [upperEntries, environmentEntries, hkey, ownEntry, variableValue?]
  rw [load, layers_of_entries rfl, hupper, assignAll, assignKey, hpath, Path.assign_cons] at hload
  cases hload

end SpeechRelay.Settings
