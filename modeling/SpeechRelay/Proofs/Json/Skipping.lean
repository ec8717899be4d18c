import SpeechRelay.Json.Skip
import SpeechRelay.Proofs.Json.Values

/-!
# The grammar of values that are passed over

`Skims .value cs` says that `cs` has the form of a value. The rules are those of `Derives` without
what belongs to the value itself: containers may be open to any depth, any numeral will do, and the
names and texts only need an end.

`skip` passes over what has this form (`skip_of_skims`) and nothing else (`skims_of_skip`). The proof
goes like that for `read`.
-/

set_option autoImplicit false

namespace SpeechRelay.Json

/-- What can be passed over: a value, or what stands between brackets. -/
inductive Portion where
  | value
  | items
  | members

/-- A literal with blanks around it, of which only the end is looked for. -/
inductive Enclosed : List Char → Prop where
  | mk {a b body : List Char} (ha : Blank a) (h : Literal.Bounded body) (hb : Blank b) :
      Enclosed (a ++ '\"' :: (body ++ '\"' :: b))

/-- What is passed over has the form of a value, of items or of members, whatever its numbers and
texts are. -/
inductive Skims : Portion → List Char → Prop where
  | padded {a b cs : List Char} (ha : Blank a) (h : Skims .value cs) (hb : Blank b) :
      Skims .value (a ++ (cs ++ b))
  | null : Skims .value ['n', 'u', 'l', 'l']
  | yes : Skims .value ['t', 'r', 'u', 'e']
  | no : Skims .value ['f', 'a', 'l', 's', 'e']
  | number {n : Numeral} {cs : List Char} (h : n.Written cs) : Skims .value cs
  | text {body : List Char} (h : Literal.Bounded body) : Skims .value ('\"' :: (body ++ ['\"']))
  | noItems {a : List Char} (ha : Blank a) : Skims .value ('[' :: (a ++ [']']))
  | list {cs : List Char} (h : Skims .items cs) : Skims .value ('[' :: (cs ++ [']']))
  | noMembers {a : List Char} (ha : Blank a) : Skims .value ('\x7b' :: (a ++ ['\x7d']))
  | object {cs : List Char} (h : Skims .members cs) :
      Skims .value ('\x7b' :: (cs ++ ['\x7d']))
  | item {cs : List Char} (h : Skims .value cs) : Skims .items cs
  | items {cs cs' : List Char} (h : Skims .value cs) (hs : Skims .items cs') :
      Skims .items (cs ++ ',' :: cs')
  | member {key cs : List Char} (hname : Enclosed key) (h : Skims .value cs) :
      Skims .members (key ++ ':' :: cs)
  | members {key cs cs' : List Char} (hname : Enclosed key) (h : Skims .value cs)
      (hs : Skims .members cs') : Skims .members (key ++ ':' :: (cs ++ ',' :: cs'))

section Tokens

variable {cs rest : List Char}

/-- Blanks behind a literal make no difference. -/
theorem Enclosed.padded {b : List Char} (h : Enclosed cs) (hb : Blank b) :
    Enclosed (cs ++ b) := by
  obtain ⟨ha, hbounded, hbehind⟩ := h
  rw [List.append_assoc, List.cons_append, List.append_assoc, List.cons_append]
  exact .mk ha hbounded (hbehind.append hb)

/-- A literal is one token, whether or not it is a text. -/
theorem tokens_enclosed (h : Enclosed cs) (rest : List Char) :
    ∃ value, tokens (cs ++ rest) = .text value :: tokens rest := by
  obtain ⟨ha, hbounded, hb⟩ := h
  obtain ⟨value, htokens⟩ := tokens_bounded hbounded (_ ++ rest)
  refine ⟨value, ?_⟩
  rw [List.append_assoc, tokens_blank_append ha, List.cons_append, List.append_assoc,
    List.cons_append, htokens, tokens_blank_append hb]

/-- A token of a literal stands there in quotes. -/
theorem tokens_eq_literal {value : Except ReadError String} {ts : List Token}
    (h : tokens cs = .text value :: ts) :
    ∃ piece rest, cs = piece ++ rest ∧ Enclosed piece ∧ ts = tokens rest := by
  obtain ⟨a, piece, rest, ha, rfl, hwritten, rfl⟩ := tokens_eq_cons h rfl
  refine ⟨a ++ piece, rest, (List.append_assoc _ _ _).symm, ?_, rfl⟩
  cases hwritten with
  | text hspells => exact .mk ha hspells.bounded .nil
  | bounded hbounded => exact .mk ha hbounded .nil

end Tokens

/-! ## What has the form is passed over -/

/-- How one passes from the front of a portion to its end. -/
def Skips (cs : List Char) : Portion → Prop
  | .value => ∀ first stack rest, Delimited rest →
      skip (.value first) stack (tokens (cs ++ rest)) = skip .ending stack (tokens rest)
  | .items => ∀ first stack rest,
      skip (.value first) (.list :: stack) (tokens (cs ++ ']' :: rest)) =
        skip .ending stack (tokens rest)
  | .members => ∀ first stack rest,
      skip (.name first) (.object :: stack) (tokens (cs ++ '\x7d' :: rest)) =
        skip .ending stack (tokens rest)

/-- What has the form of a portion is passed over from its front to its end. -/
theorem skips_of_skims {portion : Portion} {cs : List Char} (h : Skims portion cs) :
    Skips cs portion := by
  -- Along the form, for any brackets that are open already and any rest.
  induction h with
  | @padded a b cs ha _ hb ih =>
    intro first stack rest hrest
    rw [List.append_assoc, List.append_assoc, tokens_blank_append ha,
      ih first stack (b ++ rest) (hrest.blank hb), tokens_blank_append hb]
  | null =>
    intro first stack rest _
    rw [tokens_null, skip]
    rfl
  | yes =>
    intro first stack rest _
    rw [tokens_yes, skip]
    rfl
  | no =>
    intro first stack rest _
    rw [tokens_no, skip]
    rfl
  | number h =>
    intro first stack rest hrest
    rw [tokens_number h hrest, skip]
    rfl
  | text h =>
    intro first stack rest _
    obtain ⟨value, htokens⟩ := tokens_bounded h rest
    rw [List.cons_append, List.append_assoc, List.singleton_append, htokens, skip]
    rfl
  | @noItems a ha =>
    intro first stack rest _
    rw [List.cons_append, List.append_assoc, List.singleton_append, tokens_openList,
      tokens_blank_append ha, tokens_closeList, skip]
    simp only [Token.entry, Bracket.start]
    rw [skip]
    rfl
  | list h ih =>
    intro first stack rest _
    rw [List.cons_append, List.append_assoc, List.singleton_append, tokens_openList, skip]
    simp only [Token.entry, Bracket.start]
    exact ih true stack rest
  | @noMembers a ha =>
    intro first stack rest _
    rw [List.cons_append, List.append_assoc, List.singleton_append, tokens_openObject,
      tokens_blank_append ha, tokens_closeObject, skip]
    simp only [Token.entry, Bracket.start]
    rw [skip]
    rfl
  | object h ih =>
    intro first stack rest _
    rw [List.cons_append, List.append_assoc, List.singleton_append, tokens_openObject, skip]
    simp only [Token.entry, Bracket.start]
    exact ih true stack rest
  | item h ih =>
    intro first stack rest
    rw [ih first (.list :: stack) _ delimited_closeList, tokens_closeList, skip]
  | @items cs cs' h hs ih ihs =>
    intro first stack rest
    rw [List.append_assoc, List.cons_append, ih first (.list :: stack) _ delimited_comma,
      tokens_comma, skip, ihs false stack rest]
  | @member key cs hname h ih =>
    intro first stack rest
    obtain ⟨value, htokens⟩ := tokens_enclosed hname (':' :: (cs ++ '\x7d' :: rest))
    rw [List.append_assoc, List.cons_append, htokens, tokens_colon, skip, skip,
      ih false (.object :: stack) _ delimited_closeObject, tokens_closeObject, skip]
  | @members key cs cs' hname h hs ih ihs =>
    intro first stack rest
    obtain ⟨value, htokens⟩ := tokens_enclosed hname (':' :: (cs ++ ',' :: (cs' ++ '\x7d' :: rest)))
    rw [List.append_assoc, List.cons_append, List.append_assoc, List.cons_append, htokens,
      tokens_colon, skip, skip, ih false (.object :: stack) _ delimited_comma, tokens_comma, skip,
      ihs false stack rest]

/-! ## What is passed over has the form -/

section Front

variable {first : Bool} {stack : List Bracket} {cs : List Char} {r : List Token}

/-- A value has been passed over, and what is left is passed over behind it. -/
def SkippedValue (stack : List Bracket) (cs : List Char) (r : List Token) : Prop :=
  ∃ piece rest, cs = piece ++ rest ∧ Skims .value piece ∧
    (tokens rest).length < (tokens cs).length ∧ skip .ending stack (tokens rest) = .ok r

/-- The end of a list has been found instead of its first item. -/
def SkippedEnd (stack : List Bracket) (cs : List Char) (r : List Token) : Prop :=
  ∃ a rest, Blank a ∧ cs = a ++ ']' :: rest ∧ (tokens rest).length < (tokens cs).length ∧
    skip .ending stack.tail (tokens rest) = .ok r

/-- The rest of a list has been passed over with its end. -/
def SkippedItems (first : Bool) (stack : List Bracket) (cs : List Char) (r : List Token) : Prop :=
  ∃ piece rest, cs = piece ++ ']' :: rest ∧ (Skims .items piece ∨ first = true ∧ Blank piece) ∧
    (tokens rest).length < (tokens cs).length ∧ skip .ending stack (tokens rest) = .ok r

/-- The rest of an object has been passed over with its end. -/
def SkippedMembers (first : Bool) (stack : List Bracket) (cs : List Char) (r : List Token) :
    Prop :=
  ∃ piece rest, cs = piece ++ '\x7d' :: rest ∧
    (Skims .members piece ∨ first = true ∧ Blank piece) ∧
    (tokens rest).length < (tokens cs).length ∧ skip .ending stack (tokens rest) = .ok r

/-- In texts of less than `n` tokens, only what has the form is passed over. -/
structure Skimmed (n : Nat) : Prop where
  value : ∀ first stack cs r, (tokens cs).length < n →
    skip (.value first) stack (tokens cs) = .ok r →
    SkippedValue stack cs r ∨ first = true ∧ SkippedEnd stack cs r
  items : ∀ first stack cs r, (tokens cs).length < n →
    skip (.value first) (.list :: stack) (tokens cs) = .ok r → SkippedItems first stack cs r
  members : ∀ first stack cs r, (tokens cs).length < n →
    skip (.name first) (.object :: stack) (tokens cs) = .ok r → SkippedMembers first stack cs r

/-- A token that can stand where a value does is the one that the entry says. -/
theorem eq_of_entry {t : Token} {e : Entry} (ht : t.entry first = .ok e) :
    match e with
    | .whole => ∀ piece, t.Written piece → Skims .value piece
    | .open .list => t = .openList
    | .open .object => t = .openObject
    | .close => t = .closeList ∧ first = true := by
  cases t with
  | null =>
    cases ht
    intro piece hpiece
    cases hpiece
    exact .null
  | truth b =>
    cases ht
    intro piece hpiece
    cases hpiece with
    | yes => exact .yes
    | no => exact .no
  | number value =>
    cases ht
    intro piece hpiece
    cases hpiece with
    | number h => exact .number h
  | text value =>
    cases ht
    intro piece hpiece
    cases hpiece with
    | text h => exact .text h.bounded
    | bounded h => exact .text h
  | closeList =>
    cases first <;> cases ht
    exact ⟨rfl, rfl⟩
  | openList =>
    cases ht
    rfl
  | openObject =>
    cases ht
    rfl
  | _ => cases ht

/-- No broken token can stand where a value does. -/
theorem not_isBroken_of_entry {t : Token} {e : Entry} (ht : t.entry first = .ok e) :
    t.isBroken = false := by
  cases t with
  | brokenWord e => cases ht
  | brokenNumber e => cases ht
  | brokenText e e' => cases ht
  | stray c => cases ht
  | _ => rfl

/-- Where a value may stand, there is a whole one, or a list or an object starts, or the list has
ended. -/
theorem skip_value_eq_ok (h : skip (.value first) stack (tokens cs) = .ok r) :
    SkippedValue stack cs r ∨
      (∃ a rest, Blank a ∧ cs = a ++ '[' :: rest ∧ (tokens rest).length < (tokens cs).length ∧
        skip (.value true) (.list :: stack) (tokens rest) = .ok r) ∨
      (∃ a rest, Blank a ∧ cs = a ++ '\x7b' :: rest ∧
        (tokens rest).length < (tokens cs).length ∧
        skip (.name true) (.object :: stack) (tokens rest) = .ok r) ∨
      first = true ∧ SkippedEnd stack cs r := by
  cases hcs : tokens cs with
  | nil =>
    rw [hcs, skip] at h
    cases h
  | cons t ts =>
    rw [hcs, skip] at h
    cases ht : t.entry first with
    | error e =>
      rw [ht] at h
      cases h
    | ok entry =>
      have hfront := eq_of_entry ht
      have hbroken := not_isBroken_of_entry ht
      rw [ht] at h
      cases entry with
      | whole =>
        obtain ⟨a, piece, rest, ha, rfl, hpiece, rfl⟩ := tokens_eq_cons hcs hbroken
        refine Or.inl ⟨a ++ (piece ++ []), rest, by simp, .padded ha (hfront piece hpiece) .nil, ?_, h⟩
        rw [hcs]
        exact Nat.lt_succ_self _
      | «open» b =>
        cases b with
        | list =>
          rw [hfront] at hcs
          obtain ⟨a, rest, ha, rfl, rfl⟩ := tokens_eq_openList hcs
          exact Or.inr (Or.inl ⟨a, rest, ha, rfl, Nat.lt_succ_self _, h⟩)
        | object =>
          rw [hfront] at hcs
          obtain ⟨a, rest, ha, rfl, rfl⟩ := tokens_eq_openObject hcs
          exact Or.inr (Or.inr (Or.inl ⟨a, rest, ha, rfl, Nat.lt_succ_self _, h⟩))
      | close =>
        rw [hfront.1] at hcs
        obtain ⟨a, rest, ha, rfl, rfl⟩ := tokens_eq_closeList hcs
        refine Or.inr (Or.inr (Or.inr ⟨hfront.2, a, rest, ha, rfl, ?_, h⟩))
        rw [hcs]
        exact Nat.lt_succ_self _

/-- Behind an item there is a comma, or the list ends. -/
theorem skip_item_eq_ok (h : skip .ending (.list :: stack) (tokens cs) = .ok r) :
    (∃ a rest, Blank a ∧ cs = a ++ ',' :: rest ∧ (tokens rest).length < (tokens cs).length ∧
      skip (.value false) (.list :: stack) (tokens rest) = .ok r) ∨
    ∃ a rest, Blank a ∧ cs = a ++ ']' :: rest ∧ (tokens rest).length < (tokens cs).length ∧
      skip .ending stack (tokens rest) = .ok r := by
  cases hcs : tokens cs with
  | nil =>
    rw [hcs, skip] at h
    cases h
  | cons t ts =>
    rw [hcs, skip.eq_def] at h
    dsimp only at h
    split at h
    · obtain ⟨a, rest, ha, rfl, rfl⟩ := tokens_eq_comma hcs
      exact Or.inl ⟨a, rest, ha, rfl, Nat.lt_succ_self _, h⟩
    · obtain ⟨a, rest, ha, rfl, rfl⟩ := tokens_eq_closeList hcs
      exact Or.inr ⟨a, rest, ha, rfl, Nat.lt_succ_self _, h⟩
    · cases h

/-- Behind a member there is a comma, or the object ends. -/
theorem skip_member_eq_ok (h : skip .ending (.object :: stack) (tokens cs) = .ok r) :
    (∃ a rest, Blank a ∧ cs = a ++ ',' :: rest ∧ (tokens rest).length < (tokens cs).length ∧
      skip (.name false) (.object :: stack) (tokens rest) = .ok r) ∨
    ∃ a rest, Blank a ∧ cs = a ++ '\x7d' :: rest ∧ (tokens rest).length < (tokens cs).length ∧
      skip .ending stack (tokens rest) = .ok r := by
  cases hcs : tokens cs with
  | nil =>
    rw [hcs, skip] at h
    cases h
  | cons t ts =>
    rw [hcs, skip.eq_def] at h
    dsimp only at h
    split at h
    · obtain ⟨a, rest, ha, rfl, rfl⟩ := tokens_eq_comma hcs
      exact Or.inl ⟨a, rest, ha, rfl, Nat.lt_succ_self _, h⟩
    · obtain ⟨a, rest, ha, rfl, rfl⟩ := tokens_eq_closeObject hcs
      exact Or.inr ⟨a, rest, ha, rfl, Nat.lt_succ_self _, h⟩
    · cases h

/-- Behind a name there is a colon, and then a value may stand. -/
theorem skip_colon_eq_ok (h : skip .colon stack (tokens cs) = .ok r) :
    ∃ a rest, Blank a ∧ cs = a ++ ':' :: rest ∧ (tokens rest).length < (tokens cs).length ∧
      skip (.value false) stack (tokens rest) = .ok r := by
  cases hcs : tokens cs with
  | nil =>
    rw [hcs, skip] at h
    cases h
  | cons t ts =>
    rw [hcs, skip.eq_def] at h
    dsimp only at h
    split at h
    · obtain ⟨a, rest, ha, rfl, rfl⟩ := tokens_eq_colon hcs
      exact ⟨a, rest, ha, rfl, Nat.lt_succ_self _, h⟩
    · cases h

/-- Where a name may stand, there is one with its colon, or the object ends without members. -/
theorem skip_name_eq_ok (h : skip (.name first) stack (tokens cs) = .ok r) :
    (∃ key rest, Enclosed key ∧ cs = key ++ ':' :: rest ∧
      (tokens rest).length < (tokens cs).length ∧
      skip (.value false) stack (tokens rest) = .ok r) ∨
    ∃ a rest, first = true ∧ Blank a ∧ cs = a ++ '\x7d' :: rest ∧
      (tokens rest).length < (tokens cs).length ∧
      skip .ending stack.tail (tokens rest) = .ok r := by
  cases hcs : tokens cs with
  | nil =>
    rw [hcs, skip] at h
    cases h
  | cons t ts =>
    rw [hcs, skip.eq_def] at h
    dsimp only at h
    split at h
    · obtain ⟨key, behind, rfl, hkey, rfl⟩ := tokens_eq_literal hcs
      obtain ⟨a, rest, ha, rfl, hlt, h⟩ := skip_colon_eq_ok h
      refine Or.inl ⟨key ++ a, rest, hkey.padded ha, ?_, Nat.lt_succ_of_lt hlt, h⟩
      rw [List.append_assoc]
    · cases h
    · split at h
      · next hfirst =>
        obtain ⟨a, rest, ha, rfl, rfl⟩ := tokens_eq_closeObject hcs
        exact Or.inr ⟨a, rest, hfirst, ha, rfl, Nat.lt_succ_self _, h⟩
      · cases h
    · cases h

section Steps

variable {n : Nat}

/-- A value is passed over rightly if all shorter texts are. -/
theorem skimmed_value (ih : ∀ m, m < n → Skimmed m) (hn : (tokens cs).length < n)
    (h : skip (.value first) stack (tokens cs) = .ok r) :
    SkippedValue stack cs r ∨ first = true ∧ SkippedEnd stack cs r := by
  rcases skip_value_eq_ok h with hvalue | ⟨a, rest, ha, rfl, hlt, hrest⟩ |
    ⟨a, rest, ha, rfl, hlt, hrest⟩ | hend
  · exact Or.inl hvalue
  · obtain ⟨piece, behind, rfl, hpiece, hlt', hbehind⟩ :=
      (ih _ hn).items true stack rest r hlt hrest
    refine Or.inl ⟨a ++ ('[' :: (piece ++ [']']) ++ []), behind, by simp, ?_,
      Nat.lt_trans hlt' hlt, hbehind⟩
    rcases hpiece with hitems | ⟨-, hblank⟩
    · exact .padded ha (.list hitems) .nil
    · exact .padded ha (.noItems hblank) .nil
  · obtain ⟨piece, behind, rfl, hpiece, hlt', hbehind⟩ :=
      (ih _ hn).members true stack rest r hlt hrest
    refine Or.inl ⟨a ++ ('\x7b' :: (piece ++ ['\x7d']) ++ []), behind, by simp, ?_,
      Nat.lt_trans hlt' hlt, hbehind⟩
    rcases hpiece with hmembers | ⟨-, hblank⟩
    · exact .padded ha (.object hmembers) .nil
    · exact .padded ha (.noMembers hblank) .nil
  · exact Or.inr hend

/-- The rest of a list is passed over rightly if all shorter texts are. -/
theorem skimmed_items (ih : ∀ m, m < n → Skimmed m) (hn : (tokens cs).length < n)
    (h : skip (.value first) (.list :: stack) (tokens cs) = .ok r) :
    SkippedItems first stack cs r := by
  rcases skimmed_value ih hn h with ⟨piece, rest, rfl, hpiece, hlt, hrest⟩ |
    ⟨hfirst, a, rest, ha, rfl, hlt, hrest⟩
  · have hpadded (a : List Char) (ha : Blank a) := Skims.padded .nil hpiece ha
    rcases skip_item_eq_ok hrest with ⟨a, next, ha, rfl, hlt', hnext⟩ |
      ⟨a, next, ha, rfl, hlt', hnext⟩
    · have hshorter := Nat.lt_trans hlt' hlt
      obtain ⟨more, behind, rfl, hmore, hend, hbehind⟩ :=
        (ih _ hn).items false stack next r hshorter hnext
      have hitems := hmore.resolve_right fun hnone => by cases hnone.1
      exact ⟨([] ++ (piece ++ a)) ++ ',' :: more, behind, by simp,
        Or.inl (.items (hpadded a ha) hitems), Nat.lt_trans hend hshorter, hbehind⟩
    · exact ⟨[] ++ (piece ++ a), next, by simp, Or.inl (.item (hpadded a ha)),
        Nat.lt_trans hlt' hlt, hnext⟩
  · exact ⟨a, rest, rfl, Or.inr ⟨hfirst, ha⟩, hlt, hrest⟩

/-- The rest of an object is passed over rightly if all shorter texts are. -/
theorem skimmed_members (ih : ∀ m, m < n → Skimmed m) (hn : (tokens cs).length < n)
    (h : skip (.name first) (.object :: stack) (tokens cs) = .ok r) :
    SkippedMembers first stack cs r := by
  rcases skip_name_eq_ok h with ⟨key, rest, hkey, rfl, hlt, hrest⟩ |
    ⟨a, rest, hfirst, ha, rfl, hlt, hrest⟩
  · have hvalue := (ih _ hn).value false (.object :: stack) rest r hlt hrest
    obtain ⟨piece, behind, rfl, hpiece, hlt', hbehind⟩ :=
      hvalue.resolve_right fun hnone => by cases hnone.1
    have hpadded (a : List Char) (ha : Blank a) := Skims.padded .nil hpiece ha
    rcases skip_member_eq_ok hbehind with ⟨a, next, ha, rfl, hlt'', hnext⟩ |
      ⟨a, next, ha, rfl, hlt'', hnext⟩
    · have hshorter := Nat.lt_trans hlt'' (Nat.lt_trans hlt' hlt)
      obtain ⟨more, last, rfl, hmore, hend, hlast⟩ :=
        (ih _ hn).members false stack next r hshorter hnext
      have hmembers := hmore.resolve_right fun hnone => by cases hnone.1
      exact ⟨key ++ ':' :: (([] ++ (piece ++ a)) ++ ',' :: more), last, by simp,
        Or.inl (.members hkey (hpadded a ha) hmembers), Nat.lt_trans hend hshorter, hlast⟩
    · exact ⟨key ++ ':' :: ([] ++ (piece ++ a)), next, by simp,
        Or.inl (.member hkey (hpadded a ha)), Nat.lt_trans hlt'' (Nat.lt_trans hlt' hlt), hnext⟩
  · exact ⟨a, rest, rfl, Or.inr ⟨hfirst, ha⟩, hlt, hrest⟩

end Steps

/-- What is passed over has the right form, by induction on the number of tokens. -/
theorem skimmed (n : Nat) : Skimmed n := by
  -- As for values that are kept, the induction is on the number of tokens.
  induction n using Nat.strongRecOn with
  | ind n ih =>
    exact ⟨fun _ _ _ _ hn h => skimmed_value ih hn h, fun _ _ _ _ hn h => skimmed_items ih hn h,
      fun _ _ _ _ hn h => skimmed_members ih hn h⟩

/-- What is passed over where a value stands alone has the form of a value. -/
theorem skims_of_skip (h : skip (.value false) [] (tokens cs) = .ok r) :
    ∃ piece rest, cs = piece ++ rest ∧ Skims .value piece ∧ r = tokens rest := by
  have hskimmed := (skimmed _).value false [] cs r (Nat.lt_succ_self _) h
  obtain ⟨piece, rest, hcs, hpiece, -, hend⟩ :=
    hskimmed.resolve_right fun hnone => by cases hnone.1
  rw [skip] at hend
  cases hend
  exact ⟨piece, rest, hcs, hpiece, rfl⟩

/-- And what has this form is passed over. -/
theorem skip_of_skims {piece rest : List Char} (h : Skims .value piece) (hrest : Delimited rest) :
    skip (.value false) [] (tokens (piece ++ rest)) = .ok (tokens rest) := by
  have hskips := skips_of_skims h false [] rest hrest
  rw [hskips, skip]

end Front

end SpeechRelay.Json
