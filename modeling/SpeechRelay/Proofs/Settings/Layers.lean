import SpeechRelay.Proofs.Settings.Assigning
import SpeechRelay.Proofs.Settings.Fields
import SpeechRelay.Settings.Load

/-!
# Laying a layer over data

A layer gives some fields a datum (`Layer`). Entries describe a layer (`Describes`) if each entry is
one of three: a field under a path of its own, a table for a whole part, or something foreign, which
is about no field at all. The order of the entries does not matter, and a field may come up more
than once if it has the same datum each time.

Entries that describe a layer turn tables that hold data into tables that hold the data with the
layer over them (`holdsAll_assignAll`).
-/

set_option autoImplicit false

namespace SpeechRelay.Settings

/-! ## Layers and their entries -/

/-- The data that a layer gives. -/
abbrev Layer : Type := (f : Field) → Option f.Datum

/-- The data with a layer over them. -/
def Layer.over (layer : Layer) (d : Data) : Data := fun f => (layer f).getD (d f)

namespace Path

/-- The path ends at a field. -/
def LeadsTo (p : Path) (f : Field) : Prop :=
  Text.lowered p.head = f.part.name ∧
    ∃ key, p.tail = [.name key] ∧ Text.lowered key = f.name

/-- The path ends at a part. -/
def IsPart (p : Path) (part : Part) : Prop :=
  Text.lowered p.head = part.name ∧ p.tail = []

/-- The path leaves all fields aside: it starts at no part, or goes on from a part with a name that
no field there has. -/
inductive Foreign (p : Path) : Prop where
  | head (h : ∀ part : Part, Text.lowered p.head ≠ part.name) : Foreign p
  | name {part : Part} {key : String} {rest : List Segment}
      (hhead : Text.lowered p.head = part.name) (htail : p.tail = .name key :: rest)
      (h : ∀ f : Field, f.part = part → Text.lowered key ≠ f.name) : Foreign p

end Path

/-- A member of a part's table: a field with the datum that the layer gives it, or an unknown
name. -/
inductive SuitsPart (layer : Layer) (part : Part) : String × Value → Prop where
  | field {key : String} {origin : Option Origin} {s : Scalar} {f : Field} {a : f.Datum}
      (hpart : f.part = part) (hname : Text.lowered key = f.name) (hs : s.StandsFor f.kind a)
      (hlayer : layer f = some a) : SuitsPart layer part (key, .scalar origin s)
  | foreign {key : String} {v : Value}
      (h : ∀ f : Field, f.part = part → Text.lowered key ≠ f.name) : SuitsPart layer part (key, v)

/-- An entry that gives what the layer gives, or nothing to any field. -/
inductive Suits (layer : Layer) : String × Value → Prop where
  | field {key : String} {origin : Option Origin} {s : Scalar} {f : Field} {a : f.Datum}
      (hpath : (Path.ofKey key).LeadsTo f) (hs : s.StandsFor f.kind a)
      (hlayer : layer f = some a) : Suits layer (key, .scalar origin s)
  | part {key : String} {origin : Option Origin} {members : List (String × Value)} {part : Part}
      (hpath : (Path.ofKey key).IsPart part) (h : ∀ m ∈ members, SuitsPart layer part m) :
      Suits layer (key, .table origin members)
  | foreign {key : String} {v : Value} (hpath : (Path.ofKey key).Foreign) : Suits layer (key, v)

/-- The entry is about the field. -/
inductive Mentions : String × Value → Field → Prop where
  | path {key : String} {v : Value} {f : Field} (hpath : (Path.ofKey key).LeadsTo f) :
      Mentions (key, v) f
  | member {key : String} {origin : Option Origin} {members : List (String × Value)} {f : Field}
      (hpath : (Path.ofKey key).IsPart f.part)
      (h : ∃ m ∈ members, Text.lowered m.1 = f.name) : Mentions (key, .table origin members) f

/-- The entries give just what the layer gives. -/
structure Describes (layer : Layer) (entries : List (String × Value)) : Prop where
  suits : ∀ e ∈ entries, Suits layer e
  mentions : ∀ f a, layer f = some a → ∃ e ∈ entries, Mentions e f

/-! ## From data to data -/

/-- The data have become those of the layer for the fields that are given, and else are the same. -/
structure Overlaid (layer : Layer) (given : Field → Prop) (d e : Data) : Prop where
  laid : ∀ f, given f → layer f = some (e f)
  kept : ∀ f, ¬given f → e f = d f

namespace Overlaid

variable {layer : Layer} {given more : Field → Prop} {d e g : Data}

/-- Where nothing is given, nothing changes. -/
theorem refl (h : ∀ f, ¬given f) : Overlaid layer given d d :=
  ⟨fun f hf => absurd hf (h f), fun _ _ => rfl⟩

/-- One field is given. -/
theorem single {f : Field} {a : f.Datum} (hlayer : layer f = some a) (d : Data) :
    Overlaid layer (· = f) d (Function.update d f a) := by
  constructor
  · rintro g rfl
    rw [Function.update_self, hlayer]
  · intro g hne
    exact Function.update_of_ne hne a d

/-- What is given in two stretches is laid over both. -/
theorem trans (hfirst : Overlaid layer given d e) (hsecond : Overlaid layer more e g) :
    Overlaid layer (fun f => given f ∨ more f) d g := by
  constructor
  · intro f hf
    -- What is given later stands, and it is the same datum, since it is that of the layer.
    by_cases hmore : more f
    · exact hsecond.laid f hmore
    · rw [hsecond.kept f hmore]
      exact hfirst.laid f (hf.resolve_right hmore)
  · intro f hf
    rw [hsecond.kept f fun hmore => hf (.inr hmore), hfirst.kept f fun hgiven => hf (.inl hgiven)]

/-- It is enough to know which fields are given. -/
theorem congr (h : Overlaid layer given d e) (hiff : ∀ f, more f ↔ given f) :
    Overlaid layer more d e :=
  ⟨fun f hf => h.laid f ((hiff f).mp hf), fun f hf => h.kept f fun hg => hf ((hiff f).mpr hg)⟩

/-- Where everything in the layer is given, the layer lies over the data. -/
theorem eq_over (h : Overlaid layer given d e) (hall : ∀ f a, layer f = some a → given f) :
    e = layer.over d := by
  funext f
  unfold Layer.over
  cases hlayer : layer f with
  | some a =>
    have hlaid := h.laid f (hall f a hlayer)
    exact Option.some.inj (hlaid.symm.trans hlayer)
  | none =>
    have hnot : ¬given f := fun hgiven => by
      rw [h.laid f hgiven] at hlayer
      cases hlayer
    exact h.kept f hnot

end Overlaid

/-! ## The table of a part -/

namespace Holds

variable {d e : Data} {part : Part} {table : Value}

/-- A table holds the data of its part, whatever those of the other parts are. -/
theorem congr (h : Holds d part table) (heq : ∀ f : Field, f.part = part → e f = d f) :
    Holds e part table := by
  intro f hf
  rw [heq f hf]
  exact h f hf

/-- Putting a scalar under the name of a field sets that field alone. -/
theorem put_field {f : Field} (h : Holds d f.part table) {s : Scalar} {a : f.Datum}
    (hs : s.StandsFor f.kind a) (origin : Option Origin) :
    Holds (Function.update d f a) f.part (table.put f.name (.scalar origin s)) := by
  intro g hg
  by_cases hsame : g = f
  · subst hsame
    refine ⟨origin, s, Value.get?_put_self table g.name _, ?_⟩
    rw [Function.update_self]
    exact hs
  · rw [Value.get?_put_of_ne (Field.name_injective.ne hsame), Function.update_of_ne hsame]
    exact h g hg

/-- Putting a value under an unknown name sets no field of the part. -/
theorem put_foreign (h : Holds d part table) {key : String}
    (hforeign : ∀ f : Field, f.part = part → key ≠ f.name) (v : Value) :
    Holds d part (table.put key v) := by
  intro f hf
  rw [Value.get?_put_of_ne (hforeign f hf).symm]
  exact h f hf

end Holds

section Members

variable {layer : Layer} {d : Data} {part : Part} {table : Value}

/-- Merging a member that suits the part sets the field of its name, and no other. -/
theorem holds_mergeEntry {m : String × Value} (h : Holds d part table)
    (hm : SuitsPart layer part m) :
    ∃ e, Holds e part (mergeEntry table m) ∧
      Overlaid layer (fun f => f.part = part ∧ Text.lowered m.1 = f.name) d e := by
  cases hm with
  | @field key origin s f a hpart hname hs hlayer =>
    subst hpart
    refine ⟨Function.update d f a, ?_, (Overlaid.single hlayer d).congr fun g => ?_⟩
    · rw [mergeEntry, merge_scalar, hname]
      exact h.put_field hs origin
    · refine ⟨fun hg => Field.name_injective (hg.2.symm.trans hname), ?_⟩
      rintro rfl
      exact ⟨rfl, hname⟩
  | @foreign key v hforeign =>
    obtain ⟨w, hw⟩ := merge_eq_put key table v
    refine ⟨d, ?_, Overlaid.refl fun f hf => hforeign f hf.1 hf.2⟩
    rw [mergeEntry, hw]
    exact h.put_foreign hforeign w

/-- A table for a part gives its members' fields. -/
theorem holds_mergeEntries {members : List (String × Value)} (h : Holds d part table)
    (hmembers : ∀ m ∈ members, SuitsPart layer part m) :
    ∃ e, Holds e part (mergeEntries table members) ∧
      Overlaid layer (fun f => f.part = part ∧ ∃ m ∈ members, Text.lowered m.1 = f.name) d e := by
  induction members generalizing d table with
  | nil =>
    refine ⟨d, h, Overlaid.refl fun f hf => ?_⟩
    obtain ⟨-, m, hm, -⟩ := hf
    cases hm
  | cons m ms ih =>
    obtain ⟨e, he, hfirst⟩ := holds_mergeEntry h (hmembers m List.mem_cons_self)
    obtain ⟨g, hg, hrest⟩ := ih he fun n hn => hmembers n (List.mem_cons_of_mem m hn)
    refine ⟨g, hg, (hfirst.trans hrest).congr fun f => ?_⟩
    simp only [List.exists_mem_cons_iff, and_or_left]

end Members

/-! ## The table of tables -/

namespace HoldsAll

variable {d e : Data} {root : Value}

/-- Putting a table under the name of a part sets the fields of that part alone. -/
theorem put_part (h : HoldsAll d root) {part : Part} {table : Value} (hpart : Holds e part table)
    (hkept : ∀ f : Field, f.part ≠ part → e f = d f) : HoldsAll e (root.put part.name table) := by
  intro q
  by_cases hsame : q = part
  · subst hsame
    exact ⟨table, Value.get?_put_self root q.name table, hpart⟩
  · obtain ⟨old, hget, hold⟩ := h q
    refine ⟨old, ?_, hold.congr fun f hf => hkept f (hf ▸ hsame)⟩
    rw [Value.get?_put_of_ne (Part.name_injective.ne hsame), hget]

/-- Putting a value under the name of no part sets no field. -/
theorem put_foreign (h : HoldsAll d root) {key : String}
    (hforeign : ∀ part : Part, key ≠ part.name) (v : Value) : HoldsAll d (root.put key v) := by
  intro q
  rw [Value.get?_put_of_ne (hforeign q).symm]
  exact h q

end HoldsAll

/-! ## What an entry mentions -/

section Mentioning

variable {key : String} {f g : Field}

/-- A path ends at one field at most. -/
theorem Path.LeadsTo.unique {p : Path} (hf : p.LeadsTo f) (hg : p.LeadsTo g) : g = f := by
  obtain ⟨-, key, htail, hname⟩ := hf
  obtain ⟨-, other, htail', hname'⟩ := hg
  obtain rfl : other = key := by simpa [htail] using htail'.symm
  exact Field.name_injective (hname'.symm.trans hname)

/-- A scalar is about the field that its path ends at. -/
theorem mentions_scalar_iff {origin : Option Origin} {s : Scalar} :
    Mentions (key, .scalar origin s) g ↔ (Path.ofKey key).LeadsTo g := by
  refine ⟨fun h => ?_, .path⟩
  cases h with
  | path hpath => exact hpath

/-- A table for a part is about the fields of its members. -/
theorem mentions_part_iff {origin : Option Origin} {members : List (String × Value)} {part : Part}
    (hpath : (Path.ofKey key).IsPart part) :
    Mentions (key, .table origin members) g ↔
      g.part = part ∧ ∃ m ∈ members, Text.lowered m.1 = g.name := by
  constructor
  · intro h
    cases h with
    | path hleads =>
      obtain ⟨-, other, htail, -⟩ := hleads
      rw [hpath.2] at htail
      cases htail
    | member hpart hmember =>
      exact ⟨Part.name_injective (hpart.1.symm.trans hpath.1), hmember⟩
  · rintro ⟨rfl, hmember⟩
    exact .member hpath hmember

/-- An entry with a foreign key is about no field. -/
theorem not_mentions_of_foreign {v : Value} (hpath : (Path.ofKey key).Foreign) :
    ¬Mentions (key, v) g := by
  intro h
  cases hpath with
  | head hhead =>
    cases h with
    | path hleads => exact hhead _ hleads.1
    | member hpart => exact hhead _ hpart.1
  | name hhead htail hforeign =>
    cases h with
    | path hleads =>
      obtain ⟨hpart, other, hother, hname⟩ := hleads
      rw [htail] at hother
      cases hother
      exact hforeign g (Part.name_injective (hpart.symm.trans hhead)) hname
    | member hpart =>
      rw [hpart.2] at htail
      cases htail

end Mentioning

/-! ## Assigning entries -/

section Assigning

variable {layer : Layer} {d : Data} {root next : Value}

/-- What is set as a whole is merged. -/
theorem assignKey_of_isPart {key : String} {part : Part} (hpath : (Path.ofKey key).IsPart part)
    (v into : Value) : assignKey key v into = .ok (merge (Path.ofKey key).head into v) := by
  obtain ⟨-, htail⟩ := hpath
  unfold assignKey
  generalize Path.ofKey key = p at htail ⊢
  obtain ⟨head, tail⟩ := p
  obtain rfl := htail
  exact Path.assign_head head v into

/-- Laying an entry that suits the layer sets the fields that the entry is about. -/
theorem holdsAll_assignKey {key : String} {v : Value} (h : HoldsAll d root)
    (hs : Suits layer (key, v)) (hok : assignKey key v root = .ok next) :
    ∃ e, HoldsAll e next ∧ Overlaid layer (Mentions (key, v)) d e := by
  cases hs with
  | @field _ origin s f a hpath hs hlayer =>
    unfold assignKey at hok
    have hmentions (g : Field) : Mentions (key, .scalar origin s) g ↔ g = f := by
      rw [mentions_scalar_iff]
      exact ⟨hpath.unique, fun hg => hg ▸ hpath⟩
    refine ⟨Function.update d f a, ?_, (Overlaid.single hlayer d).congr hmentions⟩
    obtain ⟨table, hget, htable⟩ := h f.part
    obtain ⟨hhead, name, htail, hname⟩ := hpath
    generalize Path.ofKey key = p at hok hhead htail
    obtain ⟨head, tail⟩ := p
    obtain rfl := htail
    rw [Path.assign_name, Path.assign_head, merge_scalar, hname, hhead, hget] at hok
    obtain rfl := Except.ok.inj hok
    refine h.put_part (htable.put_field hs origin) fun g hg => Function.update_of_ne ?_ a d
    rintro rfl
    exact hg rfl
  | @part _ origin members part hpath hmembers =>
    obtain ⟨table, hget, htable⟩ := h part
    obtain ⟨e, he, hlaid⟩ := holds_mergeEntries htable hmembers
    refine ⟨e, ?_, hlaid.congr fun g => mentions_part_iff hpath⟩
    rw [assignKey_of_isPart hpath, merge, hpath.1, hget] at hok
    obtain rfl := Except.ok.inj hok
    exact h.put_part he fun f hf => hlaid.kept f fun hgiven => hf hgiven.1
  | foreign hpath =>
    unfold assignKey at hok
    refine ⟨d, ?_, Overlaid.refl fun f => not_mentions_of_foreign hpath⟩
    cases hpath with
    | head hforeign =>
      -- Whatever is made of the value, it stands beside the parts.
      obtain ⟨w, rfl⟩ := Path.assign_eq_put hok
      exact h.put_foreign hforeign w
    | @name part name rest hhead htail hforeign =>
      -- What lies behind the unknown name stays behind it.
      obtain ⟨table, hget, htable⟩ := h part
      generalize Path.ofKey key = p at hok hhead htail
      obtain ⟨head, tail⟩ := p
      obtain rfl := htail
      rw [Path.assign_name, hhead, hget] at hok
      generalize hpart : Path.assign _ _ _ = result at hok
      cases result with
      | error halt => cases hok
      | ok changed =>
        obtain ⟨w, rfl⟩ := Path.assign_eq_put hpart
        obtain rfl := Except.ok.inj hok
        exact h.put_part (htable.put_foreign hforeign w) fun f _ => rfl

/-- Laying entries sets the fields that any of them is about. -/
theorem holdsAll_assignEntries {entries : List (String × Value)} (h : HoldsAll d root)
    (hs : ∀ entry ∈ entries, Suits layer entry) (hok : assignAll root entries = .ok next) :
    ∃ e, HoldsAll e next ∧ Overlaid layer (fun f => ∃ entry ∈ entries, Mentions entry f) d e := by
  induction entries generalizing d root with
  | nil =>
    obtain rfl := Except.ok.inj hok
    refine ⟨d, h, Overlaid.refl fun f hf => ?_⟩
    obtain ⟨entry, hmem, -⟩ := hf
    cases hmem
  | cons entry rest ih =>
    obtain ⟨key, v⟩ := entry
    rw [assignAll] at hok
    cases hfirst : assignKey key v root with
    | error halt =>
      rw [hfirst] at hok
      cases hok
    | ok middle =>
      rw [hfirst] at hok
      obtain ⟨e, he, hlaid⟩ := holdsAll_assignKey h (hs (key, v) List.mem_cons_self) hfirst
      obtain ⟨g, hg, hrest⟩ := ih he (fun other hmem => hs other (List.mem_cons_of_mem _ hmem)) hok
      refine ⟨g, hg, (hlaid.trans hrest).congr fun f => ?_⟩
      simp only [List.exists_mem_cons_iff]

/-- Entries that describe a layer lay it over the data. -/
theorem holdsAll_assignAll {entries : List (String × Value)} (h : HoldsAll d root)
    (hlayer : Describes layer entries) (hok : assignAll root entries = .ok next) :
    HoldsAll (layer.over d) next := by
  obtain ⟨e, he, hlaid⟩ := holdsAll_assignEntries h hlayer.suits hok
  exact hlaid.eq_over hlayer.mentions ▸ he

/-- Entries in two stretches are laid one stretch after the other. -/
theorem assignAll_append (into : Value) (first second : List (String × Value)) :
    assignAll into (first ++ second) =
      (assignAll into first).bind fun middle => assignAll middle second := by
  induction first generalizing into with
  | nil => rfl
  | cons entry rest ih =>
    obtain ⟨key, v⟩ := entry
    rw [List.cons_append, assignAll, assignAll]
    cases assignKey key v into with
    | error halt => rfl
    | ok next => exact ih next

/-- Entries whose places are all in reach can be laid. -/
theorem exists_assignAll {entries : List (String × Value)}
    (hreach : ∀ entry ∈ entries, InReach (Path.ofKey entry.1).tail) (into : Value) :
    ∃ next, assignAll into entries = .ok next := by
  induction entries generalizing into with
  | nil => exact ⟨into, rfl⟩
  | cons entry rest ih =>
    obtain ⟨key, v⟩ := entry
    obtain ⟨next, hnext⟩ := Path.exists_assign (hreach (key, v) List.mem_cons_self) v into
    obtain ⟨last, hlast⟩ := ih (fun other hmem => hreach other (List.mem_cons_of_mem _ hmem)) next
    refine ⟨last, ?_⟩
    rw [assignAll, assignKey, hnext]
    exact hlast

/-- A layer is laid before what comes after it. -/
theorem holdsAll_append {first second : List (String × Value)} (h : HoldsAll d root)
    (hlayer : Describes layer first)
    (hok : assignAll root (first ++ second) = .ok next) :
    ∃ middle, HoldsAll (layer.over d) middle ∧ assignAll middle second = .ok next := by
  rw [assignAll_append] at hok
  cases hfirst : assignAll root first with
  | error halt =>
    rw [hfirst] at hok
    cases hok
  | ok middle =>
    rw [hfirst] at hok
    exact ⟨middle, holdsAll_assignAll h hlayer hfirst, hok⟩

end Assigning

end SpeechRelay.Settings
