import SpeechRelay.Json.Reader
import SpeechRelay.Proofs.Json.Tokens

/-!
# The grammar of values

`Derives d (.value v) cs` says that `cs` is written like the value `v` and has no more than `d`
containers open at a time. The rules are those of the JSON grammar, and so allow blanks around
every value and every name.

A text is read as a value if and only if the grammar derives it (`ofText_eq_ok_iff`). That the reader
accepts what is derived is shown along the grammar (`reads_of_derives`). That what it accepts is
derived is shown by the number of tokens, for a value, the items of a list and the members of an
object at once, as each of them may hold the others (`sound`).
-/

set_option autoImplicit false

namespace SpeechRelay.Json

/-- What the grammar speaks of. The items and the members are those between the brackets, one at
least, with commas between them. -/
inductive Part where
  | value (v : Json)
  | items (vs : List Json)
  | members (ms : List (String × Json))

/-- The grammar of values with no more than so many levels, and how they are written. -/
inductive Derives : Nat → Part → List Char → Prop where
  | padded {d : Nat} {v : Json} {a b cs : List Char} (ha : Blank a)
      (h : Derives d (.value v) cs) (hb : Blank b) : Derives d (.value v) (a ++ (cs ++ b))
  | null {d : Nat} : Derives d (.value .null) ['n', 'u', 'l', 'l']
  | yes {d : Nat} : Derives d (.value (.truth true)) ['t', 'r', 'u', 'e']
  | no {d : Nat} : Derives d (.value (.truth false)) ['f', 'a', 'l', 's', 'e']
  | integer {d : Nat} {n : Numeral} {i : Int} {cs : List Char} (h : n.Written cs)
      (hi : n.Integer i) : Derives d (.value (.number (.integer i))) cs
  | double {d : Nat} {n : Numeral} {x : Float} {cs : List Char} (h : n.Written cs)
      (hx : n.value = .ok (.double x)) : Derives d (.value (.number (.double x))) cs
  | text {d : Nat} {body text : List Char} (h : Literal.Spells body text) :
      Derives d (.value (.text (String.ofList text))) ('\"' :: (body ++ ['\"']))
  | noItems {d : Nat} {a : List Char} (ha : Blank a) :
      Derives (d + 1) (.value (.list [])) ('[' :: (a ++ [']']))
  | list {d : Nat} {vs : List Json} {cs : List Char} (h : Derives d (.items vs) cs) :
      Derives (d + 1) (.value (.list vs)) ('[' :: (cs ++ [']']))
  | noMembers {d : Nat} {a : List Char} (ha : Blank a) :
      Derives (d + 1) (.value (.object [])) ('\x7b' :: (a ++ ['\x7d']))
  | object {d : Nat} {ms : List (String × Json)} {cs : List Char}
      (h : Derives d (.members ms) cs) :
      Derives (d + 1) (.value (.object ms)) ('\x7b' :: (cs ++ ['\x7d']))
  | item {d : Nat} {v : Json} {cs : List Char} (h : Derives d (.value v) cs) :
      Derives d (.items [v]) cs
  | items {d : Nat} {v : Json} {vs : List Json} {cs cs' : List Char}
      (h : Derives d (.value v) cs) (hs : Derives d (.items vs) cs') :
      Derives d (.items (v :: vs)) (cs ++ ',' :: cs')
  | member {d : Nat} {name : String} {v : Json} {key cs : List Char} (hname : Quoted name key)
      (h : Derives d (.value v) cs) : Derives d (.members [(name, v)]) (key ++ ':' :: cs)
  | members {d : Nat} {name : String} {v : Json} {ms : List (String × Json)}
      {key cs cs' : List Char} (hname : Quoted name key) (h : Derives d (.value v) cs)
      (hs : Derives d (.members ms) cs') :
      Derives d (.members ((name, v) :: ms)) (key ++ ':' :: (cs ++ ',' :: cs'))

/-! ## Where a value is wanted -/

section Opening

variable {room : Nat} {place : Place} {stack : List Frame} {t : Token} {ts : List Token}

/-- A whole value is read in one token. -/
theorem read_whole {v : Json} (h : t.opening place = .ok (.whole v)) :
    read room (.value place) stack (t :: ts) = read room (.ending v) stack ts := by
  conv_lhs => unfold read
  simp only [h]

/-- The start of a list opens a level, if there is room for it. -/
theorem read_list (h : t.opening place = .ok .list) (hroom : stack.length + 1 < room) :
    read room (.value place) stack (t :: ts) =
      read room (.value .first) (.list [] :: stack) ts := by
  conv_lhs => unfold read
  simp only [h]
  rw [if_pos hroom]

/-- The start of an object opens a level, if there is room for it. -/
theorem read_object (h : t.opening place = .ok .object) (hroom : stack.length + 1 < room) :
    read room (.value place) stack (t :: ts) = read room (.name [] true) stack ts := by
  conv_lhs => unfold read
  simp only [h]
  rw [if_pos hroom]

/-- A list that ends at once is read as the items so far. -/
theorem read_close {done : List Json} (h : t.opening place = .ok .close) :
    read room (.value place) (.list done :: stack) (t :: ts) =
      read room (.ending (.list done.reverse)) stack ts := by
  conv_lhs => unfold read
  simp only [h]

end Opening

/-! ## What is derived is read -/

/-- How the reader passes from the front of a part to its end. -/
def Reads (d : Nat) (cs : List Char) : Part → Prop
  | .value v => ∀ room place stack rest, stack.length + d < room → Delimited rest →
      read room (.value place) stack (tokens (cs ++ rest)) =
        read room (.ending v) stack (tokens rest)
  | .items vs => ∀ room place done stack rest, stack.length + 1 + d < room →
      read room (.value place) (.list done :: stack) (tokens (cs ++ ']' :: rest)) =
        read room (.ending (.list (done.reverse ++ vs))) stack (tokens rest)
  | .members ms => ∀ room first done stack rest, stack.length + 1 + d < room →
      read room (.name done first) stack (tokens (cs ++ '\x7d' :: rest)) =
        read room (.ending (.object (done.reverse ++ ms))) stack (tokens rest)

section Delimited

variable {rest : List Char}

/-- Blanks may stand behind a value, in front of what may. -/
theorem Delimited.blank {b : List Char} (hb : Blank b) (hrest : Delimited rest) :
    Delimited (b ++ rest) := by
  cases b with
  | nil => exact hrest
  | cons c b =>
    intro c' hc'
    cases hc'
    exact Or.inl (hb c List.mem_cons_self)

/-- A comma may stand behind a value. -/
theorem delimited_comma : Delimited (',' :: rest) := fun c hc => by
  cases hc
  decide

/-- The end of a list may stand behind a value. -/
theorem delimited_closeList : Delimited (']' :: rest) := fun c hc => by
  cases hc
  decide

/-- The end of an object may stand behind a value. -/
theorem delimited_closeObject : Delimited ('\x7d' :: rest) := fun c hc => by
  cases hc
  decide

end Delimited

/-- Whatever the grammar derives, the reader reads. -/
theorem reads_of_derives {d : Nat} {part : Part} {cs : List Char} (h : Derives d part cs) :
    Reads d cs part := by
  induction h with
  | @padded d v a b cs ha _ hb ih =>
    intro room place stack rest hroom hrest
    rw [List.append_assoc, List.append_assoc, tokens_blank_append ha,
      ih room place stack (b ++ rest) hroom (hrest.blank hb), tokens_blank_append hb]
  | null =>
    intro room place stack rest _ _
    rw [tokens_null, read_whole rfl]
  | yes =>
    intro room place stack rest _ _
    rw [tokens_yes, read_whole rfl]
  | no =>
    intro room place stack rest _ _
    rw [tokens_no, read_whole rfl]
  | @integer d n i cs h hi =>
    intro room place stack rest _ hrest
    rw [tokens_number h hrest, Numeral.value_eq_integer_iff.mpr hi, read_whole rfl]
  | double h hx =>
    intro room place stack rest _ hrest
    rw [tokens_number h hrest, hx, read_whole rfl]
  | text h =>
    intro room place stack rest _ _
    rw [List.cons_append, List.append_assoc, List.singleton_append, tokens_text h,
      read_whole rfl]
  | @noItems d a ha =>
    intro room place stack rest hroom _
    rw [List.cons_append, List.append_assoc, List.singleton_append, tokens_openList,
      tokens_blank_append ha, tokens_closeList, read_list rfl (by omega), read_close rfl]
    rfl
  | list h ih =>
    intro room place stack rest hroom _
    rw [List.cons_append, List.append_assoc, List.singleton_append, tokens_openList,
      read_list rfl (by omega), ih room .first [] stack rest (by omega)]
    rfl
  | @noMembers d a ha =>
    intro room place stack rest hroom _
    rw [List.cons_append, List.append_assoc, List.singleton_append, tokens_openObject,
      tokens_blank_append ha, tokens_closeObject, read_object rfl (by omega), read]
    rfl
  | object h ih =>
    intro room place stack rest hroom _
    rw [List.cons_append, List.append_assoc, List.singleton_append, tokens_openObject,
      read_object rfl (by omega), ih room true [] stack rest (by omega)]
    rfl
  | item h ih =>
    intro room place done stack rest hroom
    rw [ih room place (.list done :: stack) _ (by simpa using hroom) delimited_closeList,
      tokens_closeList, read, List.reverse_cons]
  | @items d v vs cs cs' h hs ih ihs =>
    intro room place done stack rest hroom
    rw [List.append_assoc, List.cons_append,
      ih room place (.list done :: stack) _ (by simpa using hroom) delimited_comma, tokens_comma,
      read, ihs room .next (v :: done) stack rest hroom]
    simp
  | @member d name v key cs hname h ih =>
    intro room first done stack rest hroom
    rw [List.append_assoc, List.cons_append, tokens_quoted hname, tokens_colon, read, read,
      ih room .alone (.object done name :: stack) _ (by simpa using hroom) delimited_closeObject,
      tokens_closeObject, read, List.reverse_cons]
  | @members d name v ms key cs cs' hname h hs ih ihs =>
    intro room first done stack rest hroom
    rw [List.append_assoc, List.cons_append, List.append_assoc, List.cons_append,
      tokens_quoted hname, tokens_colon, read, read,
      ih room .alone (.object done name :: stack) _ (by simpa using hroom) delimited_comma,
      tokens_comma, read, ihs room false ((name, v) :: done) stack rest hroom]
    simp

/-! ## What is read is derived -/

section Front

variable {room : Nat} {place : Place} {stack : List Frame} {cs : List Char}
  {r : Json × List Token} {v : Json}

/-- The reader has passed over a value and goes on behind it. -/
def PassedValue (room : Nat) (stack : List Frame) (cs : List Char) (r : Json × List Token) : Prop :=
  ∃ v piece rest, cs = piece ++ rest ∧ Derives (room - 1 - stack.length) (.value v) piece ∧
    (tokens rest).length < (tokens cs).length ∧
    read room (.ending v) stack (tokens rest) = .ok r

/-- The reader has found the end of a list instead of its first item. -/
def PassedEnd (room : Nat) (stack : List Frame) (cs : List Char) (r : Json × List Token) : Prop :=
  ∃ done below a rest, stack = .list done :: below ∧ Blank a ∧ cs = a ++ ']' :: rest ∧
    (tokens rest).length < (tokens cs).length ∧
    read room (.ending (.list done.reverse)) below (tokens rest) = .ok r

/-- The reader has passed over the rest of a list that holds `done`. -/
def PassedItems (room : Nat) (place : Place) (done : List Json) (stack : List Frame)
    (cs : List Char) (r : Json × List Token) : Prop :=
  ∃ vs piece rest, cs = piece ++ ']' :: rest ∧
    (Derives (room - 1 - (stack.length + 1)) (.items vs) piece ∨
      place = .first ∧ vs = [] ∧ Blank piece) ∧
    (tokens rest).length < (tokens cs).length ∧
    read room (.ending (.list (done.reverse ++ vs))) stack (tokens rest) = .ok r

/-- The reader has passed over the rest of an object that holds `done`. -/
def PassedMembers (room : Nat) (first : Bool) (done : List (String × Json)) (stack : List Frame)
    (cs : List Char) (r : Json × List Token) : Prop :=
  ∃ ms piece rest, cs = piece ++ '\x7d' :: rest ∧
    (Derives (room - 1 - (stack.length + 1)) (.members ms) piece ∨
      first = true ∧ ms = [] ∧ Blank piece) ∧
    (tokens rest).length < (tokens cs).length ∧
    read room (.ending (.object (done.reverse ++ ms))) stack (tokens rest) = .ok r

/-- For texts of less than `n` tokens, the reader passes only over what is derived. -/
structure Sound (room n : Nat) : Prop where
  value : ∀ place stack cs r, (tokens cs).length < n →
    read room (.value place) stack (tokens cs) = .ok r →
    PassedValue room stack cs r ∨ place = .first ∧ PassedEnd room stack cs r
  items : ∀ place done stack cs r, (tokens cs).length < n →
    read room (.value place) (.list done :: stack) (tokens cs) = .ok r →
    PassedItems room place done stack cs r
  members : ∀ first done stack cs r, (tokens cs).length < n →
    read room (.name done first) stack (tokens cs) = .ok r →
    PassedMembers room first done stack cs r

/-- A token that is a whole value is written like it. -/
theorem derives_of_whole {d : Nat} {t : Token} {piece : List Char}
    (ht : t.opening place = .ok (.whole v)) (hpiece : t.Written piece) :
    Derives d (.value v) piece := by
  cases hpiece with
  | null =>
    cases ht
    exact .null
  | yes =>
    cases ht
    exact .yes
  | no =>
    cases ht
    exact .no
  | @number n _ h =>
    cases hvalue : n.value with
    | error e =>
      rw [hvalue] at ht
      cases ht
    | ok x =>
      rw [hvalue] at ht
      cases ht
      cases x with
      | integer i => exact .integer h (Numeral.value_eq_integer_iff.mp hvalue)
      | double x => exact .double h hvalue
  | text h =>
    cases ht
    exact .text h
  | bounded => cases ht
  | closeList => cases place <;> cases ht
  | _ => cases ht

/-- A token that can stand where a value does is the one that the opening says. -/
theorem eq_of_opening {t : Token} {o : Opening} (ht : t.opening place = .ok o) :
    match o with
    | .whole _ => t.isBroken = false
    | .list => t = .openList
    | .object => t = .openObject
    | .close => t = .closeList ∧ place = .first := by
  cases t with
  | number n =>
    cases n <;> cases ht
    rfl
  | text s =>
    cases s <;> cases ht
    rfl
  | closeList =>
    cases place <;> cases ht
    exact ⟨rfl, rfl⟩
  | _ =>
    cases ht
    try rfl

/-- How the reader goes on where a value is wanted. -/
theorem read_value_eq_ok (h : read room (.value place) stack (tokens cs) = .ok r) :
    PassedValue room stack cs r ∨
      (∃ a rest, Blank a ∧ cs = a ++ '[' :: rest ∧ stack.length + 1 < room ∧
        (tokens rest).length < (tokens cs).length ∧
        read room (.value .first) (.list [] :: stack) (tokens rest) = .ok r) ∨
      (∃ a rest, Blank a ∧ cs = a ++ '\x7b' :: rest ∧ stack.length + 1 < room ∧
        (tokens rest).length < (tokens cs).length ∧
        read room (.name [] true) stack (tokens rest) = .ok r) ∨
      place = .first ∧ PassedEnd room stack cs r := by
  cases hcs : tokens cs with
  | nil =>
    rw [hcs, read] at h
    cases h
  | cons t ts =>
    rw [hcs] at h
    cases ht : t.opening place with
    | error e =>
      conv_lhs at h => unfold read
      simp only [ht] at h
      cases h
    | ok opening =>
      have hfront := eq_of_opening ht
      cases opening with
      | whole v =>
        obtain ⟨a, piece, rest, ha, rfl, hpiece, rfl⟩ := tokens_eq_cons hcs hfront
        rw [read_whole ht] at h
        have hvalue : Derives (room - 1 - stack.length) (.value v) (a ++ (piece ++ [])) :=
          .padded ha (derives_of_whole ht hpiece) .nil
        refine Or.inl ⟨v, _, rest, ?_, hvalue, ?_, h⟩
        · simp
        · rw [hcs, List.length_cons]
          exact Nat.lt_succ_self _
      | list =>
        rw [hfront] at hcs ht h
        obtain ⟨a, rest, ha, rfl, rfl⟩ := tokens_eq_openList hcs
        by_cases hroom : stack.length + 1 < room
        · rw [read_list ht hroom] at h
          exact Or.inr (Or.inl ⟨a, rest, ha, rfl, hroom, Nat.lt_succ_self _, h⟩)
        · conv_lhs at h => unfold read
          simp only [ht, if_neg hroom] at h
          cases h
      | object =>
        rw [hfront] at hcs ht h
        obtain ⟨a, rest, ha, rfl, rfl⟩ := tokens_eq_openObject hcs
        by_cases hroom : stack.length + 1 < room
        · rw [read_object ht hroom] at h
          exact Or.inr (Or.inr (Or.inl ⟨a, rest, ha, rfl, hroom, Nat.lt_succ_self _, h⟩))
        · conv_lhs at h => unfold read
          simp only [ht, if_neg hroom] at h
          cases h
      | close =>
        obtain ⟨rfl, hplace⟩ := hfront
        obtain ⟨a, rest, ha, rfl, rfl⟩ := tokens_eq_closeList hcs
        refine Or.inr (Or.inr (Or.inr ⟨hplace, ?_⟩))
        conv_lhs at h => unfold read
        simp only [ht] at h
        split at h
        · next done below =>
          refine ⟨done, below, a, rest, rfl, ha, rfl, ?_, h⟩
          rw [hcs]
          exact Nat.lt_succ_self _
        · cases h

/-- How the reader goes on behind an item of a list. -/
theorem read_item_eq_ok {done : List Json}
    (h : read room (.ending v) (.list done :: stack) (tokens cs) = .ok r) :
    (∃ a rest, Blank a ∧ cs = a ++ ',' :: rest ∧ (tokens rest).length < (tokens cs).length ∧
      read room (.value .next) (.list (v :: done) :: stack) (tokens rest) = .ok r) ∨
    ∃ a rest, Blank a ∧ cs = a ++ ']' :: rest ∧ (tokens rest).length < (tokens cs).length ∧
      read room (.ending (.list (v :: done).reverse)) stack (tokens rest) = .ok r := by
  cases hcs : tokens cs with
  | nil =>
    rw [hcs, read] at h
    cases h
  | cons t ts =>
    rw [hcs, read.eq_def] at h
    dsimp only at h
    split at h
    · obtain ⟨a, rest, ha, rfl, rfl⟩ := tokens_eq_comma hcs
      exact Or.inl ⟨a, rest, ha, rfl, Nat.lt_succ_self _, h⟩
    · obtain ⟨a, rest, ha, rfl, rfl⟩ := tokens_eq_closeList hcs
      exact Or.inr ⟨a, rest, ha, rfl, Nat.lt_succ_self _, h⟩
    · cases h

/-- How the reader goes on behind a member of an object. -/
theorem read_member_eq_ok {done : List (String × Json)} {name : String}
    (h : read room (.ending v) (.object done name :: stack) (tokens cs) = .ok r) :
    (∃ a rest, Blank a ∧ cs = a ++ ',' :: rest ∧ (tokens rest).length < (tokens cs).length ∧
      read room (.name ((name, v) :: done) false) stack (tokens rest) = .ok r) ∨
    ∃ a rest, Blank a ∧ cs = a ++ '\x7d' :: rest ∧ (tokens rest).length < (tokens cs).length ∧
      read room (.ending (.object ((name, v) :: done).reverse)) stack (tokens rest) = .ok r := by
  cases hcs : tokens cs with
  | nil =>
    rw [hcs, read] at h
    cases h
  | cons t ts =>
    rw [hcs, read.eq_def] at h
    dsimp only at h
    split at h
    · obtain ⟨a, rest, ha, rfl, rfl⟩ := tokens_eq_comma hcs
      exact Or.inl ⟨a, rest, ha, rfl, Nat.lt_succ_self _, h⟩
    · obtain ⟨a, rest, ha, rfl, rfl⟩ := tokens_eq_closeObject hcs
      exact Or.inr ⟨a, rest, ha, rfl, Nat.lt_succ_self _, h⟩
    · cases h

/-- Behind a name there is a colon, and then a value. -/
theorem read_colon_eq_ok {done : List (String × Json)} {name : String}
    (h : read room (.colon done name) stack (tokens cs) = .ok r) :
    ∃ a rest, Blank a ∧ cs = a ++ ':' :: rest ∧ (tokens rest).length < (tokens cs).length ∧
      read room (.value .alone) (.object done name :: stack) (tokens rest) = .ok r := by
  cases hcs : tokens cs with
  | nil =>
    rw [hcs, read] at h
    cases h
  | cons t ts =>
    rw [hcs, read.eq_def] at h
    dsimp only at h
    split at h
    · obtain ⟨a, rest, ha, rfl, rfl⟩ := tokens_eq_colon hcs
      exact ⟨a, rest, ha, rfl, Nat.lt_succ_self _, h⟩
    · cases h

/-- How the reader goes on where the name of a member is wanted. -/
theorem read_name_eq_ok {done : List (String × Json)} {first : Bool}
    (h : read room (.name done first) stack (tokens cs) = .ok r) :
    (∃ name key rest, Quoted name key ∧ cs = key ++ ':' :: rest ∧
      (tokens rest).length < (tokens cs).length ∧
      read room (.value .alone) (.object done name :: stack) (tokens rest) = .ok r) ∨
    ∃ a rest, first = true ∧ Blank a ∧ cs = a ++ '\x7d' :: rest ∧
      (tokens rest).length < (tokens cs).length ∧
      read room (.ending (.object done.reverse)) stack (tokens rest) = .ok r := by
  cases hcs : tokens cs with
  | nil =>
    rw [hcs, read] at h
    cases h
  | cons t ts =>
    rw [hcs, read.eq_def] at h
    dsimp only at h
    split at h
    · next name =>
      obtain ⟨key, behind, rfl, hkey, rfl⟩ := tokens_eq_text hcs
      obtain ⟨a, rest, ha, rfl, hlt, h⟩ := read_colon_eq_ok h
      refine Or.inl ⟨name, key ++ a, rest, hkey.padded ha, ?_, Nat.lt_succ_of_lt hlt, h⟩
      rw [List.append_assoc]
    · cases h
    · cases h
    · split at h
      · next hfirst =>
        obtain ⟨a, rest, ha, rfl, rfl⟩ := tokens_eq_closeObject hcs
        exact Or.inr ⟨a, rest, hfirst, ha, rfl, Nat.lt_succ_self _, h⟩
      · cases h
    · cases h

section Steps

variable {n : Nat}

/-- A value is read rightly if all shorter texts are. -/
theorem sound_value (ih : ∀ m, m < n → Sound room m) (hn : (tokens cs).length < n)
    (h : read room (.value place) stack (tokens cs) = .ok r) :
    PassedValue room stack cs r ∨ place = .first ∧ PassedEnd room stack cs r := by
  rcases read_value_eq_ok h with hvalue | ⟨a, rest, ha, rfl, hroom, hlt, hrest⟩ |
    ⟨a, rest, ha, rfl, hroom, hlt, hrest⟩ | hend
  · exact Or.inl hvalue
  · obtain ⟨vs, piece, behind, rfl, hpiece, hlt', hbehind⟩ :=
      (ih _ hn).items .first [] stack rest r hlt hrest
    have hdepth : room - 1 - stack.length = room - 1 - (stack.length + 1) + 1 := by omega
    refine Or.inl ⟨.list vs, a ++ ('[' :: (piece ++ [']']) ++ []), behind, by simp, ?_,
      Nat.lt_trans hlt' hlt, hbehind⟩
    rw [hdepth]
    rcases hpiece with hitems | ⟨-, rfl, hblank⟩
    · exact .padded ha (.list hitems) .nil
    · exact .padded ha (.noItems hblank) .nil
  · obtain ⟨ms, piece, behind, rfl, hpiece, hlt', hbehind⟩ :=
      (ih _ hn).members true [] stack rest r hlt hrest
    have hdepth : room - 1 - stack.length = room - 1 - (stack.length + 1) + 1 := by omega
    refine Or.inl ⟨.object ms, a ++ ('\x7b' :: (piece ++ ['\x7d']) ++ []), behind, by simp, ?_,
      Nat.lt_trans hlt' hlt, hbehind⟩
    rw [hdepth]
    rcases hpiece with hmembers | ⟨-, rfl, hblank⟩
    · exact .padded ha (.object hmembers) .nil
    · exact .padded ha (.noMembers hblank) .nil
  · exact Or.inr hend

/-- The rest of a list is read rightly if all shorter texts are. -/
theorem sound_items {done : List Json} (ih : ∀ m, m < n → Sound room m)
    (hn : (tokens cs).length < n)
    (h : read room (.value place) (.list done :: stack) (tokens cs) = .ok r) :
    PassedItems room place done stack cs r := by
  rcases sound_value ih hn h with ⟨v, piece, rest, rfl, hpiece, hlt, hrest⟩ |
    ⟨hplace, _, _, a, rest, heq, ha, rfl, hlt, hrest⟩
  · have hpadded (a : List Char) (ha : Blank a) := Derives.padded .nil hpiece ha
    rcases read_item_eq_ok hrest with ⟨a, next, ha, rfl, hlt', hnext⟩ |
      ⟨a, next, ha, rfl, hlt', hnext⟩
    · have hshorter := Nat.lt_trans hlt' hlt
      obtain ⟨vs, more, behind, rfl, hmore, hend, hbehind⟩ :=
        (ih _ hn).items .next (v :: done) stack next r hshorter hnext
      have hitems := hmore.resolve_right fun hnone => by cases hnone.1
      refine ⟨v :: vs, ([] ++ (piece ++ a)) ++ ',' :: more, behind, by simp,
        Or.inl (.items (hpadded a ha) hitems), Nat.lt_trans hend hshorter, ?_⟩
      rw [← hbehind, List.reverse_cons, List.append_assoc]
      rfl
    · refine ⟨[v], [] ++ (piece ++ a), next, by simp, Or.inl (.item (hpadded a ha)),
        Nat.lt_trans hlt' hlt, ?_⟩
      rw [← hnext, List.reverse_cons]
  · cases heq
    refine ⟨[], a, rest, rfl, Or.inr ⟨hplace, rfl, ha⟩, hlt, ?_⟩
    rw [List.append_nil]
    exact hrest

/-- The rest of an object is read rightly if all shorter texts are. -/
theorem sound_members {done : List (String × Json)} {first : Bool}
    (ih : ∀ m, m < n → Sound room m) (hn : (tokens cs).length < n)
    (h : read room (.name done first) stack (tokens cs) = .ok r) :
    PassedMembers room first done stack cs r := by
  rcases read_name_eq_ok h with ⟨name, key, rest, hkey, rfl, hlt, hrest⟩ |
    ⟨a, rest, hfirst, ha, rfl, hlt, hrest⟩
  · have hvalue := (ih _ hn).value .alone (.object done name :: stack) rest r hlt hrest
    obtain ⟨v, piece, behind, rfl, hpiece, hlt', hbehind⟩ :=
      hvalue.resolve_right fun hnone => by cases hnone.1
    have hpadded (a : List Char) (ha : Blank a) := Derives.padded .nil hpiece ha
    rcases read_member_eq_ok hbehind with ⟨a, next, ha, rfl, hlt'', hnext⟩ |
      ⟨a, next, ha, rfl, hlt'', hnext⟩
    · have hshorter := Nat.lt_trans hlt'' (Nat.lt_trans hlt' hlt)
      obtain ⟨ms, more, last, rfl, hmore, hend, hlast⟩ :=
        (ih _ hn).members false ((name, v) :: done) stack next r hshorter hnext
      have hmembers := hmore.resolve_right fun hnone => by cases hnone.1
      refine ⟨(name, v) :: ms, key ++ ':' :: (([] ++ (piece ++ a)) ++ ',' :: more), last, by simp,
        Or.inl (.members hkey (hpadded a ha) hmembers), Nat.lt_trans hend hshorter, ?_⟩
      rw [← hlast, List.reverse_cons, List.append_assoc]
      rfl
    · refine ⟨[(name, v)], key ++ ':' :: ([] ++ (piece ++ a)), next, by simp,
        Or.inl (.member hkey (hpadded a ha)), Nat.lt_trans hlt'' (Nat.lt_trans hlt' hlt), ?_⟩
      rw [← hnext, List.reverse_cons]
  · refine ⟨[], a, rest, rfl, Or.inr ⟨hfirst, rfl, ha⟩, hlt, ?_⟩
    rw [List.append_nil]
    exact hrest

end Steps

/-- What is read is derived, by induction on the number of tokens. -/
theorem sound (room n : Nat) : Sound room n := by
  -- The three parts call each other, each behind a token at least: the induction is on their number.
  induction n using Nat.strongRecOn with
  | ind n ih =>
    exact ⟨fun _ _ _ _ hn h => sound_value ih hn h,
      fun _ _ _ _ _ hn h => sound_items ih hn h,
      fun _ _ _ _ _ hn h => sound_members ih hn h⟩

/-- A value that is read where it stands alone is derived within the room. -/
theorem derives_of_read {ts : List Token}
    (h : read room (.value .alone) [] (tokens cs) = .ok (v, ts)) :
    ∃ piece rest, cs = piece ++ rest ∧ Derives (room - 1) (.value v) piece ∧ ts = tokens rest := by
  have hsound := (sound room _).value .alone [] cs (v, ts) (Nat.lt_succ_self _) h
  obtain ⟨w, piece, rest, hcs, hpiece, -, hend⟩ :=
    hsound.resolve_right fun hnone => by cases hnone.1
  rw [read] at hend
  cases hend
  exact ⟨piece, rest, hcs, hpiece, rfl⟩

/-- And one that is derived is read. -/
theorem read_of_derives {d : Nat} {piece rest : List Char} (hd : d < room)
    (h : Derives d (.value v) piece) (hrest : Delimited rest) :
    read room (.value .alone) [] (tokens (piece ++ rest)) = .ok (v, tokens rest) := by
  have hreads := reads_of_derives h room .alone [] rest (by simpa using hd) hrest
  rw [hreads, read]

end Front

/-- A text is read as a value if and only if the grammar derives it. -/
theorem ofText_eq_ok_iff {text : String} {v : Json} :
    ofText text = .ok v ↔ Derives (depthLimit - 1) (.value v) text.toList := by
  unfold ofText
  constructor
  · intro h
    cases hread : read depthLimit (.value .alone) [] (tokens text.toList) with
    | error e =>
      rw [hread] at h
      cases h
    | ok found =>
      obtain ⟨w, ts⟩ := found
      obtain ⟨piece, rest, hcs, hpiece, hts⟩ := derives_of_read hread
      rw [hread] at h
      cases ts with
      | cons t ts => cases h
      | nil =>
        cases h
        have hpadded := Derives.padded .nil hpiece (tokens_eq_nil hts.symm)
        rwa [hcs]
  · intro h
    have hend : Delimited [] := fun c hc => by cases hc
    have hread : read depthLimit (.value .alone) [] (tokens (text.toList ++ [])) = _ :=
      read_of_derives (by decide) h hend
    rw [List.append_nil] at hread
    rw [hread, tokens_nil]
    rfl

end SpeechRelay.Json
