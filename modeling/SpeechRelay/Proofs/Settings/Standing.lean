import SpeechRelay.Proofs.Settings.Layers
import SpeechRelay.Proofs.Settings.Numbers

/-!
# Numbers that stand

A number stands for a field in a table if whatever the table has for the field is read as the
number, or is not read (`Stands`). An entry that gives the field the number brings that about,
whatever the table had before (`stands_of_assigns`), and an entry that gives the field no other
number keeps it (`stands_assignKey`). So the number stands after all entries of which one gives it
and none gives another one (`stands_of_mem_assigns`), and then no other number can be loaded
(`toNat?_of_stands`).
-/

set_option autoImplicit false

namespace SpeechRelay.Settings

/-! ## Entries that give a field a value -/

/-- The entry gives the field the value: under a path of its own, in a table for its part, or in a
list for its part. -/
inductive Assigns (f : Field) : String × Value → Value → Prop where
  | path {key : String} {v : Value} (hpath : (Path.ofKey key).LeadsTo f) : Assigns f (key, v) v
  | member {key : String} {origin : Option Origin} {members : List (String × Value)}
      {m : String × Value} (hpath : (Path.ofKey key).IsPart f.part) (hm : m ∈ members)
      (hname : Text.lowered m.1 = f.name) : Assigns f (key, .table origin members) m.2
  | item {key : String} {origin : Option Origin} {items : List Value} {v : Value}
      (hpath : (Path.ofKey key).IsPart f.part) (hv : items[f.place]? = some v) :
      Assigns f (key, .list origin items) v

/-- The entry may give the field the value: it does, or its path ends at a place in a list for the
part, which may be that of the field. -/
inductive MayAssign (f : Field) : String × Value → Value → Prop where
  | assigns {entry : String × Value} {v : Value} (h : Assigns f entry v) : MayAssign f entry v
  | place {key : String} {v : Value} {index : Int}
      (hhead : Text.lowered (Path.ofKey key).head = f.part.name)
      (htail : (Path.ofKey key).tail = [.place index])
      (hindex : 0 ≤ index → index.toNat = f.place) : MayAssign f (key, v) v

/-- The value is a scalar that gives the number. -/
def Value.GivesNumber (v : Value) (n : Nat) : Prop := ∃ origin s, v = .scalar origin s ∧ s.Gives n

/-- The entry gives the field no other number. -/
def OnlyNumber (f : Field) (n : Nat) (entry : String × Value) : Prop :=
  ∀ v, MayAssign f entry v → v.GivesNumber n

/-! ## What a section has for a field -/

section Sections

variable {f : Field} {n bits : Nat} (hbits : f.kind.bits? = some bits)

/-- Whatever the section has for the field is read as the number, or it is not read. -/
def Value.SectionStands (f : Field) (n : Nat) (v : Value) : Prop :=
  ∀ w, v.field? f = some w → w.ReadsAs f.kind n

/-- What was put under the name of a field is what the section has for it. -/
theorem field?_put_self (v w : Value) : (v.put f.name w).field? f = some w := by
  cases v with
  | table origin entries => exact Value.get?_put_self (.table origin entries) f.name w
  | scalar origin s => exact Value.get?_put_self (.scalar origin s) f.name w
  | list origin items => exact Value.get?_put_self (.list origin items) f.name w

/-- Putting a value under another name leaves the number standing. -/
theorem sectionStands_put_of_ne {key : String} (hne : key ≠ f.name) {v : Value}
    (h : v.SectionStands f n) (w : Value) : (v.put key w).SectionStands f n := by
  intro x hx
  cases v with
  | table origin entries =>
    apply h
    rw [← hx]
    exact (Value.get?_put_of_ne hne.symm (.table origin entries) w).symm
  | scalar origin s =>
    have hnone : ((Value.scalar origin s).put key w).field? f = none :=
      Value.get?_put_of_ne hne.symm (.scalar origin s) w
    rw [hnone] at hx
    cases hx
  | list origin items =>
    have hnone : ((Value.list origin items).put key w).field? f = none :=
      Value.get?_put_of_ne hne.symm (.list origin items) w
    rw [hnone] at hx
    cases hx

include hbits in
/-- A value that gives a number is read as no other one. -/
theorem readsAs_of_givesNumber {v : Value} (h : v.GivesNumber n) : v.ReadsAs f.kind n := by
  obtain ⟨origin, s, rfl, hs⟩ := h
  exact readsAs_of_gives hbits hs origin

include hbits in
/-- Merging a value that gives the number under the name of the field leaves it standing. -/
theorem sectionStands_merge_name {key : String} (hkey : Text.lowered key = f.name) {v : Value}
    (hv : v.GivesNumber n) (into : Value) : (merge key into v).SectionStands f n := by
  have hreads := readsAs_of_givesNumber hbits hv
  obtain ⟨origin, s, rfl, hs⟩ := hv
  rw [merge_scalar, hkey]
  intro x hx
  rw [field?_put_self] at hx
  obtain rfl := Option.some.inj hx
  exact hreads

/-! ## Tables for a part -/

section Members

variable {members : List (String × Value)}
  (hmembers : ∀ m ∈ members, Text.lowered m.1 = f.name → m.2.GivesNumber n)

include hbits

/-- Merging a member that gives no other number leaves it standing. -/
theorem sectionStands_mergeEntry {m : String × Value}
    (hm : Text.lowered m.1 = f.name → m.2.GivesNumber n) {into : Value}
    (h : into.SectionStands f n) : (mergeEntry into m).SectionStands f n := by
  obtain ⟨key, v⟩ := m
  rw [mergeEntry]
  by_cases hkey : Text.lowered key = f.name
  · exact sectionStands_merge_name hbits hkey (hm hkey) into
  · obtain ⟨w, hw⟩ := merge_eq_put key into v
    rw [hw]
    exact sectionStands_put_of_ne hkey h w

include hmembers

/-- Merging members that give no other number leaves it standing. -/
theorem sectionStands_mergeEntries {into : Value} (h : into.SectionStands f n) :
    (mergeEntries into members).SectionStands f n := by
  induction members generalizing into with
  | nil =>
    rw [mergeEntries]
    exact h
  | cons m ms ih =>
    rw [mergeEntries]
    apply ih (fun other hother => hmembers other (List.mem_cons_of_mem m hother))
    exact sectionStands_mergeEntry hbits (hmembers m List.mem_cons_self) h

/-- A member for the field settles it, whatever was there. -/
theorem sectionStands_of_member {m : String × Value} (hm : m ∈ members)
    (hname : Text.lowered m.1 = f.name) (into : Value) :
    (mergeEntries into members).SectionStands f n := by
  induction members generalizing into with
  | nil => cases hm
  | cons first rest ih =>
    have hrest : ∀ other ∈ rest, Text.lowered other.1 = f.name → other.2.GivesNumber n :=
      fun other hother => hmembers other (List.mem_cons_of_mem first hother)
    rw [mergeEntries]
    rcases List.mem_cons.mp hm with heq | hlater
    · subst heq
      apply sectionStands_mergeEntries hbits hrest
      obtain ⟨key, v⟩ := m
      rw [mergeEntry]
      exact sectionStands_merge_name hbits hname (hmembers (key, v) List.mem_cons_self hname) into
    · exact ih hrest hlater (mergeEntry into first)

end Members

/-! ## Places in a list for a part -/

/-- A value under which something was put has parts. -/
theorem isUnread_put (into : Value) (key : String) (v : Value) : (into.put key v).IsUnread := by
  cases into with
  | table origin entries => exact .table _ _
  | scalar origin s => exact .table _ _
  | list origin items => exact .table _ _

/-- A value along a path has parts. -/
theorem isUnread_assignStep {v parent w : Value} {step : Segment}
    (h : assignStep v parent step = .ok w) : w.IsUnread := by
  cases step with
  | name key =>
    obtain ⟨x, hx⟩ := merge_eq_put key parent v
    obtain rfl := Except.ok.inj h
    rw [hx]
    exact isUnread_put parent _ x
  | place index =>
    obtain ⟨items, -, rfl⟩ := map_eq_ok h
    exact .list _ items

/-- A value that is changed at a part of it has parts. -/
theorem isUnread_changeAt {change : Value → Except Halt Value}
    (hchange : ∀ v w, change v = .ok w → w.IsUnread) {steps : List Segment} {v w : Value}
    (h : changeAt change steps v = .ok w) : w.IsUnread := by
  cases steps with
  | nil => exact hchange v w h
  | cons step rest =>
    cases step with
    | name key =>
      obtain ⟨part, -, h⟩ := bind_eq_ok h
      obtain rfl := Except.ok.inj h
      exact isUnread_put v _ part
    | place index =>
      obtain ⟨items, -, h⟩ := bind_eq_ok h
      obtain rfl := Except.ok.inj h
      exact .list _ items

/-- An element is the one that was changed, or it was there before, or it fills the list up. -/
theorem changeItem_eq_ok {items changed : List Value} {index : Int}
    {change : Value → Except Halt Value} (h : changeItem items index change = .ok changed) :
    ∃ number x w, placeNumber items.length index = .ok number ∧ change x = .ok w ∧
      ∀ i y, changed[i]? = some y → i = number ∧ y = w ∨ items[i]? = some y ∨ y = .nothing := by
  unfold changeItem at h
  obtain ⟨number, hnumber, h⟩ := bind_eq_ok h
  obtain ⟨_, -, h⟩ := bind_eq_ok h
  obtain ⟨w, hw, h⟩ := bind_eq_ok h
  obtain rfl := Except.ok.inj h
  refine ⟨number, _, w, hnumber, hw, ?_⟩
  intro i y hy
  by_cases hi : number = i
  · left
    subst hi
    have hlength : number < (items ++ List.replicate (number + 1 - items.length)
        Value.nothing).length := by
      rw [List.length_append, List.length_replicate]
      omega
    rw [List.getElem?_set_self hlength] at hy
    exact ⟨rfl, (Option.some.inj hy).symm⟩
  · right
    rw [List.getElem?_set_ne hi] at hy
    by_cases hold : i < items.length
    · rw [List.getElem?_append_left hold] at hy
      exact .inl hy
    · rw [List.getElem?_append_right (Nat.not_lt.mp hold)] at hy
      exact .inr (List.eq_of_mem_replicate (List.mem_of_getElem? hy))

/-- A place from the front of a list is the number that it says. -/
theorem placeNumber_eq_toNat {length number : Nat} {index : Int} (hindex : 0 ≤ index)
    (h : placeNumber length index = .ok number) : index.toNat = number := by
  unfold placeNumber at h
  rw [if_pos hindex] at h
  exact Except.ok.inj h

include hbits in
/-- Changing the items of a section leaves the number standing, if the item of the field may be
changed to no other one. -/
theorem sectionStands_changeItem {v : Value} (h : v.SectionStands f n) {index : Int}
    {change : Value → Except Halt Value} {items : List Value}
    (hitems : changeItem v.items index change = .ok items)
    (hchange : (0 ≤ index → index.toNat = f.place) →
      ∀ x w, change x = .ok w → w.ReadsAs f.kind n) (origin : Option Origin) :
    (Value.list origin items).SectionStands f n := by
  obtain ⟨number, x, w, hnumber, hw, helements⟩ := changeItem_eq_ok hitems
  intro y hy
  rcases helements f.place y hy with ⟨hplace, rfl⟩ | hold | rfl
  · apply hchange _ x y hw
    intro hindex
    rw [hplace]
    exact placeNumber_eq_toNat hindex hnumber
  · cases v with
    | list origin items => exact h y hold
    | table origin entries => cases hold
    | scalar origin s => cases hold
  · exact Value.IsUnread.nothing.readsAs hbits n

/-! ## Paths behind a part -/

include hbits in
/-- A path that goes on from a part with a name. -/
theorem sectionStands_name {key : String} {rest : List Segment} {v into next : Value}
    (h : into.SectionStands f n)
    (hv : Text.lowered key = f.name → rest = [] → v.GivesNumber n)
    (hok : (⟨key, rest⟩ : Path).assign v into = .ok next) : next.SectionStands f n := by
  by_cases hkey : Text.lowered key = f.name
  · cases rest with
    | nil =>
      obtain rfl := Except.ok.inj ((Path.assign_head key v into).symm.trans hok)
      exact sectionStands_merge_name hbits hkey (hv hkey rfl) into
    | cons step rest =>
      -- The field itself gets parts.
      rw [Path.assign_cons] at hok
      obtain ⟨part, hpart, rfl⟩ := map_eq_ok hok
      have hunread := isUnread_changeAt (fun _ _ => isUnread_assignStep) hpart
      intro w hw
      rw [hkey, field?_put_self] at hw
      obtain rfl := Option.some.inj hw
      exact hunread.readsAs hbits n
  · obtain ⟨w, rfl⟩ := Path.assign_eq_put hok
    exact sectionStands_put_of_ne hkey h w

include hbits in
/-- A path that goes on from a part with a place. -/
theorem sectionStands_place {index : Int} {rest : List Segment} {v into next : Value}
    (h : into.SectionStands f n)
    (hv : (0 ≤ index → index.toNat = f.place) → rest = [] → v.GivesNumber n)
    (hok : changeAt
      (fun parent => assignStep v parent ((.place index :: rest).getLast (List.cons_ne_nil _ _)))
      (.place index :: rest).dropLast into = .ok next) : next.SectionStands f n := by
  cases rest with
  | nil =>
    obtain ⟨items, hitems, rfl⟩ := map_eq_ok hok
    apply sectionStands_changeItem hbits h hitems
    intro hindex x w hw
    obtain rfl := Except.ok.inj hw
    exact readsAs_of_givesNumber hbits (hv hindex rfl)
  | cons step rest =>
    obtain ⟨items, hitems, hnext⟩ := bind_eq_ok hok
    obtain rfl := Except.ok.inj hnext
    apply sectionStands_changeItem hbits h hitems
    intro _ x w hw
    have hunread : w.IsUnread := isUnread_changeAt (fun _ _ => isUnread_assignStep) hw
    exact hunread.readsAs hbits n

end Sections

/-! ## What a table of sections has for a field -/

/-- Whatever the table has for the field is read as the number, or it is not read. -/
def Stands (f : Field) (n : Nat) (root : Value) : Prop :=
  ∀ v, root.get? f.part.name = some v → v.SectionStands f n

section Assigning

variable {f : Field} {n bits : Nat} (hbits : f.kind.bits? = some bits) {root next : Value}

/-- Putting a section in which the number stands leaves it standing. -/
theorem stands_put {v : Value} (h : v.SectionStands f n) (root : Value) :
    Stands f n (root.put f.part.name v) := by
  intro w hw
  rw [Value.get?_put_self] at hw
  obtain rfl := Option.some.inj hw
  exact h

/-- A number that stands in a table stands in its section, or there is none. -/
theorem sectionStands_getD (h : Stands f n root) {v : Value} (hv : v.field? f = none) :
    ((root.get? f.part.name).getD v).SectionStands f n := by
  cases hget : root.get? f.part.name with
  | some w => exact h w hget
  | none =>
    intro w hw
    rw [Option.getD_none, hv] at hw
    cases hw

/-- A list that takes the place of a part settles the field. -/
theorem stands_merge_list {head : String} (hhead : Text.lowered head = f.part.name)
    {origin : Option Origin} {items : List Value}
    (hitems : ∀ v, items[f.place]? = some v → v.ReadsAs f.kind n) (root : Value) :
    Stands f n (merge head root (.list origin items)) := by
  have hmerge : merge head root (.list origin items) =
      root.put (Text.lowered head) (.list origin items) := by
    rw [merge]
    intro _ _ h
    cases h
  have hsection : (Value.list origin items).SectionStands f n := hitems
  rw [hmerge, hhead]
  exact stands_put hsection root

/-- A table for the part is laid over what the part had. -/
theorem stands_merge_table {head : String} (hhead : Text.lowered head = f.part.name)
    {origin : Option Origin} {members : List (String × Value)}
    (h : (mergeEntries ((root.get? f.part.name).getD .emptyTable) members).SectionStands f n) :
    Stands f n (merge head root (.table origin members)) := by
  rw [merge, hhead]
  exact stands_put h root

/-- A part that becomes a scalar has nothing for the field. -/
theorem stands_merge_scalar {head : String} (hhead : Text.lowered head = f.part.name)
    (origin : Option Origin) (s : Scalar) (n : Nat) (root : Value) :
    Stands f n (merge head root (.scalar origin s)) := by
  have hsection : (Value.scalar origin s).SectionStands f n := fun w hw => by cases hw
  rw [merge_scalar, hhead]
  exact stands_put hsection root

include hbits

/-- An entry for the whole part. -/
theorem stands_merge {key : String} {v : Value} (hpath : (Path.ofKey key).IsPart f.part)
    (h : Stands f n root) (honly : OnlyNumber f n (key, v)) :
    Stands f n (merge (Path.ofKey key).head root v) := by
  cases v with
  | scalar origin s => exact stands_merge_scalar hpath.1 origin s n root
  | list origin items =>
    apply stands_merge_list hpath.1
    intro w hw
    have hgives := honly w (.assigns (.item hpath hw))
    exact readsAs_of_givesNumber hbits hgives
  | table origin members =>
    apply stands_merge_table hpath.1
    apply sectionStands_mergeEntries hbits _ (sectionStands_getD h rfl)
    intro m hm hname
    exact honly m.2 (.assigns (.member hpath hm hname))

/-- An entry that gives the field no other number keeps what stands. -/
theorem stands_assignKey {key : String} {v : Value} (h : Stands f n root)
    (honly : OnlyNumber f n (key, v)) (hok : assignKey key v root = .ok next) :
    Stands f n next := by
  unfold assignKey at hok
  by_cases hhead : Text.lowered (Path.ofKey key).head = f.part.name
  · have hmerge : (Path.ofKey key).tail = [] →
        Stands f n (merge (Path.ofKey key).head root v) := fun htail =>
      stands_merge hbits ⟨hhead, htail⟩ h honly
    have hnamed : ∀ name, (Path.ofKey key).tail = [.name name] → Text.lowered name = f.name →
        v.GivesNumber n := fun name htail hname =>
      honly v (.assigns (.path ⟨hhead, name, htail, hname⟩))
    have hplaces : ∀ index : Int, (Path.ofKey key).tail = [.place index] →
        (0 ≤ index → index.toNat = f.place) → v.GivesNumber n := fun index htail hindex =>
      honly v (.place hhead htail hindex)
    generalize Path.ofKey key = p at hok hhead hmerge hnamed hplaces
    obtain ⟨head, tail⟩ := p
    cases tail with
    | nil =>
      obtain rfl := Except.ok.inj ((Path.assign_head head v root).symm.trans hok)
      exact hmerge rfl
    | cons step rest =>
      cases step with
      | name name =>
        rw [Path.assign_name, hhead] at hok
        obtain ⟨part, hpart, rfl⟩ := map_eq_ok hok
        apply stands_put
        apply sectionStands_name hbits (sectionStands_getD h rfl) _ hpart
        intro hname hrest
        exact hnamed name (by rw [hrest]) hname
      | place index =>
        rw [Path.assign_cons, hhead] at hok
        obtain ⟨part, hpart, rfl⟩ := map_eq_ok hok
        apply stands_put
        apply sectionStands_place hbits (sectionStands_getD h rfl) _ hpart
        intro hindex hrest
        exact hplaces index (by rw [hrest]) hindex
  · obtain ⟨w, rfl⟩ := Path.assign_eq_put hok
    intro x hx
    rw [Value.get?_put_of_ne (Ne.symm hhead)] at hx
    exact h x hx

/-- An entry that gives the field the number settles it, whatever was there. -/
theorem stands_of_assigns {key : String} {v w : Value} (hassigns : Assigns f (key, v) w)
    (honly : OnlyNumber f n (key, v)) (hok : assignKey key v root = .ok next) :
    Stands f n next := by
  cases hassigns with
  | path hpath =>
    have hgives := honly v (.assigns (.path hpath))
    obtain ⟨hhead, name, htail, hname⟩ := hpath
    unfold assignKey at hok
    generalize Path.ofKey key = p at hok hhead htail
    obtain ⟨head, tail⟩ := p
    obtain rfl := htail
    rw [Path.assign_name, Path.assign_head, hhead] at hok
    obtain rfl := Except.ok.inj hok
    apply stands_put
    exact sectionStands_merge_name hbits hname hgives _
  | @member _ origin members m hpath hm hname =>
    rw [assignKey_of_isPart hpath] at hok
    obtain rfl := Except.ok.inj hok
    apply stands_merge_table hpath.1
    apply sectionStands_of_member hbits _ hm hname
    intro other hother hsame
    exact honly other.2 (.assigns (.member hpath hother hsame))
  | @item _ origin items _ hpath hv =>
    have hgives := honly w (.assigns (.item hpath hv))
    rw [assignKey_of_isPart hpath] at hok
    obtain rfl := Except.ok.inj hok
    apply stands_merge_list hpath.1
    intro x hx
    obtain rfl := Option.some.inj (hv.symm.trans hx)
    exact readsAs_of_givesNumber hbits hgives

/-- Laying entries that give no other number leaves the number standing. -/
theorem stands_assignAll {entries : List (String × Value)} (h : Stands f n root)
    (honly : ∀ entry ∈ entries, OnlyNumber f n entry) (hok : assignAll root entries = .ok next) :
    Stands f n next := by
  induction entries generalizing root with
  | nil =>
    obtain rfl := Except.ok.inj hok
    exact h
  | cons entry rest ih =>
    obtain ⟨key, v⟩ := entry
    rw [assignAll] at hok
    obtain ⟨middle, hfirst, hok⟩ := bind_eq_ok hok
    have hmiddle := stands_assignKey hbits h (honly (key, v) List.mem_cons_self) hfirst
    exact ih hmiddle (fun other hother => honly other (List.mem_cons_of_mem _ hother)) hok

/-- Entries of which one gives the field the number, and none gives it another one. -/
theorem stands_of_mem_assigns {entries : List (String × Value)} {entry : String × Value}
    {w : Value} (hmem : entry ∈ entries) (hassigns : Assigns f entry w)
    (honly : ∀ entry ∈ entries, OnlyNumber f n entry) (hok : assignAll root entries = .ok next) :
    Stands f n next := by
  induction entries generalizing root with
  | nil => cases hmem
  | cons first rest ih =>
    obtain ⟨key, v⟩ := first
    rw [assignAll] at hok
    obtain ⟨middle, hfirst, hok⟩ := bind_eq_ok hok
    have hrest : ∀ other ∈ rest, OnlyNumber f n other := fun other hother =>
      honly other (List.mem_cons_of_mem _ hother)
    rcases List.mem_cons.mp hmem with rfl | hlater
    · have hmiddle :=
        stands_of_assigns hbits hassigns (honly _ List.mem_cons_self) hfirst
      exact stands_assignAll hbits hmiddle hrest hok
    · exact ih hlater hrest hok

/-- Where the number stands, it is the one that is loaded. -/
theorem toNat?_of_stands (h : Stands f n root) {settings : Settings}
    (hok : ofValue root = .ok settings) : f.kind.toNat? (settings.get f) = some n := by
  obtain ⟨v, hv, w, key, hw, hread⟩ := exists_yields_of_ofValue hok hbits
  exact h v hv w hw key _ hread

/-- The layers that come later count, if one of their entries gives the field the number. -/
theorem stands_append {first second : List (String × Value)} {entry : String × Value} {w : Value}
    (hmem : entry ∈ second) (hassigns : Assigns f entry w)
    (honly : ∀ entry ∈ second, OnlyNumber f n entry)
    (hok : assignAll root (first ++ second) = .ok next) : Stands f n next := by
  rw [assignAll_append] at hok
  obtain ⟨middle, -, hok⟩ := bind_eq_ok hok
  exact stands_of_mem_assigns hbits hmem hassigns honly hok

end Assigning

end SpeechRelay.Settings
