import SpeechRelay.Settings.Path

/-!
# What an assignment leaves alone

A value that is assigned behind a path changes what its first name holds in the table and nothing
else (`Path.assign_eq_put`), and behind the first name the rest of the path works in the same way on
what the name holds (`Path.assign_name`). An assignment can only halt at a place in a list: one that
counts from the end of a list too short for it, or one beyond what the machine has room for
(`Path.exists_assign`).
-/

set_option autoImplicit false

namespace SpeechRelay.Settings

/-! ## Tables -/

namespace Value

/-- An entry that was put is found. -/
theorem find?_putEntry_self (key : String) (v : Value) (entries : List (String × Value)) :
    (putEntry key v entries).find? (·.1 = key) = some (key, v) := by
  induction entries with
  | nil => simp [putEntry]
  | cons e es ih =>
    unfold putEntry
    split
    · simp
    · next hne => simp [hne, ih]

/-- Putting an entry leaves those under other keys as they are. -/
theorem find?_putEntry_of_ne {key other : String} (hne : other ≠ key) (v : Value)
    (entries : List (String × Value)) :
    (putEntry key v entries).find? (·.1 = other) = entries.find? (·.1 = other) := by
  induction entries with
  | nil => simp [putEntry, Ne.symm hne]
  | cons e es ih =>
    unfold putEntry
    split
    · next heq => simp [heq, Ne.symm hne]
    · simp [List.find?_cons, ih]

/-- A value that was put under a key is there. -/
@[simp] theorem get?_put_self (into : Value) (key : String) (v : Value) :
    (into.put key v).get? key = some v := by
  cases into with
  | table origin entries => simp [put, get?, find?_putEntry_self]
  | _ => simp [put, get?]

/-- Putting a value leaves what is under other keys as it is. -/
theorem get?_put_of_ne {key other : String} (hne : other ≠ key) (into v : Value) :
    (into.put key v).get? other = into.get? other := by
  cases into with
  | table origin entries => simp [put, get?, find?_putEntry_of_ne hne]
  | _ => simp [put, get?, Ne.symm hne]

end Value

/-! ## Merging -/

/-- A scalar is not merged. -/
theorem merge_scalar (key : String) (into : Value) (origin : Option Origin) (s : Scalar) :
    merge key into (.scalar origin s) = into.put (Text.lowered key) (.scalar origin s) := by
  rw [merge]
  intro _ _ h
  cases h

/-- Merging puts something under the key in lower case. -/
theorem merge_eq_put (key : String) (into v : Value) :
    ∃ w, merge key into v = into.put (Text.lowered key) w := by
  cases v with
  | table origin entries => exact ⟨_, by rw [merge]⟩
  | _ => exact ⟨_, by rw [merge]; intro _ _ h; cases h⟩

/-! ## Assigning -/

/-- No place along the steps counts from the end of a list, and there is room for each. -/
def InReach (steps : List Segment) : Prop :=
  ∀ index, .place index ∈ steps → 0 ≤ index ∧ (index.toNat + 1) * itemBytes ≤ Machine.maxBytes

section Changing

variable {change : Value → Except Halt Value} (hchange : ∀ v, ∃ w, change v = .ok w)

include hchange

/-- A place from the front of a list, with room for it, can be changed. -/
theorem exists_changeItem {index : Int} (hindex : 0 ≤ index)
    (hroom : (index.toNat + 1) * itemBytes ≤ Machine.maxBytes) (items : List Value) :
    ∃ changed, changeItem items index change = .ok changed := by
  obtain ⟨w, hw⟩ := hchange ((items ++ List.replicate (index.toNat + 1 - items.length)
    Value.nothing).getD index.toNat Value.nothing)
  have hplace : placeNumber items.length index = .ok index.toNat := if_pos hindex
  have hreserve : Machine.reserve (index.toNat + 1) itemBytes = .ok () := if_pos hroom
  unfold changeItem
  simp only [hplace, hreserve, hw, bind, Except.bind]
  exact ⟨_, rfl⟩

/-- Steps that are in reach can be walked. -/
theorem exists_changeAt {steps : List Segment} (hreach : InReach steps) (v : Value) :
    ∃ w, changeAt change steps v = .ok w := by
  induction steps generalizing v with
  | nil => exact hchange v
  | cons step rest ih =>
    have hrest : InReach rest := fun index hmem => hreach index (List.mem_cons_of_mem step hmem)
    cases step with
    | name key =>
      obtain ⟨part, hpart⟩ := ih hrest ((v.get? (Text.lowered key)).getD .nothing)
      rw [changeAt, hpart]
      exact ⟨_, rfl⟩
    | place index =>
      obtain ⟨hindex, hroom⟩ := hreach index List.mem_cons_self
      obtain ⟨items, hitems⟩ := exists_changeItem (ih hrest) hindex hroom v.items
      rw [changeAt, hitems]
      exact ⟨_, rfl⟩

end Changing

/-- A step that is in reach can be assigned to. -/
theorem exists_assignStep {step : Segment} (hreach : InReach [step]) (v into : Value) :
    ∃ w, assignStep v into step = .ok w := by
  cases step with
  | name key => exact ⟨_, rfl⟩
  | place index =>
    obtain ⟨hindex, hroom⟩ := hreach index List.mem_cons_self
    obtain ⟨items, hitems⟩ := exists_changeItem (fun _ => ⟨v, rfl⟩) hindex hroom into.items
    rw [assignStep, hitems]
    exact ⟨_, rfl⟩

namespace Path

variable {p : Path} {v into next : Value}

/-- Assigning to a path of one name is merging under that name. -/
theorem assign_head (head : String) (v into : Value) :
    (⟨head, []⟩ : Path).assign v into = .ok (merge head into v) := rfl

/-- The steps of a path work on what its first name holds. -/
theorem assign_cons (head : String) (step : Segment) (rest : List Segment) (v into : Value) :
    (⟨head, step :: rest⟩ : Path).assign v into =
      (changeAt (fun parent => assignStep v parent ((step :: rest).getLast (List.cons_ne_nil _ _)))
        (step :: rest).dropLast ((into.get? (Text.lowered head)).getD .nothing)).map
          (into.put (Text.lowered head)) := rfl

/-- If the first step is a name, the steps are a path again. -/
theorem assign_name (head key : String) (rest : List Segment) (v into : Value) :
    (⟨head, .name key :: rest⟩ : Path).assign v into =
      ((⟨key, rest⟩ : Path).assign v ((into.get? (Text.lowered head)).getD .nothing)).map
        (into.put (Text.lowered head)) := rfl

/-- An assignment changes nothing but what the first name of the path holds. -/
theorem assign_eq_put (h : p.assign v into = .ok next) :
    ∃ w, next = into.put (Text.lowered p.head) w := by
  obtain ⟨head, tail⟩ := p
  cases tail with
  | nil =>
    obtain ⟨w, hw⟩ := merge_eq_put head into v
    obtain rfl := Except.ok.inj ((assign_head head v into).symm.trans h)
    exact ⟨w, hw⟩
  | cons step rest =>
    rw [assign_cons] at h
    generalize changeAt _ _ _ = part at h
    cases part with
    | error halt => cases h
    | ok w => exact ⟨w, (Except.ok.inj h).symm⟩

/-- An assignment with all places in reach does not halt. -/
theorem exists_assign (hreach : InReach p.tail) (v into : Value) :
    ∃ next, p.assign v into = .ok next := by
  obtain ⟨head, tail⟩ := p
  cases tail with
  | nil => exact ⟨_, assign_head head v into⟩
  | cons step rest =>
    have hlast : InReach [(step :: rest).getLast (List.cons_ne_nil _ _)] :=
      fun index hmem => hreach index (List.mem_singleton.mp hmem ▸ List.getLast_mem _)
    have hfirst : InReach (step :: rest).dropLast :=
      fun index hmem => hreach index (List.dropLast_subset _ hmem)
    obtain ⟨part, hpart⟩ := exists_changeAt (exists_assignStep hlast v) hfirst
      ((into.get? (Text.lowered head)).getD .nothing)
    rw [assign_cons, hpart]
    exact ⟨_, rfl⟩

end Path

end SpeechRelay.Settings
