import Mathlib.Data.List.Induction
import Mathlib.Data.List.Nodup
import SpeechRelay.Json.Record
import SpeechRelay.Proofs.Json.Skipping

/-!
# The grammar of records

How a record of a given shape is written: as an object, whose members are fields or not, or as the
list of its fields (`Shape.Derives`). The members that are fields are collected with their values. A
field may not come twice, and one that does not come at all is null if it may be left out.

A text is read as a record of a shape if and only if the grammar of this shape derives it
(`Shape.ofText_eq_ok_iff`).
-/

set_option autoImplicit false

namespace SpeechRelay.Json

/-! ## The grammar -/

/-- The value of a field of that kind, and how it is written. -/
inductive FieldKind.Holds : FieldKind → Json → List Char → Prop where
  | text {s : String} {cs : List Char} (h : Quoted s cs) : Holds .text (.text s) cs
  | any {v : Json} {cs : List Char} (h : Derives (roomInRecord - 1) (.value v) cs) :
      Holds .any v cs

/-- Fields that may all be left out. -/
def Optional (fs : List Field) : Prop := ∀ f ∈ fs, f.kind = .any

/-- The value of a field, where `got` are the members that are fields. -/
def Given (got : List (String × Json)) (f : Field) (v : Json) : Prop :=
  (f.name, v) ∈ got ∨ f.name ∉ got.map Prod.fst ∧ f.kind = .any ∧ v = .null

namespace Shape

/-- A member of the object, with what is collected of it. -/
inductive Member (s : Shape) : List (String × Json) → List Char → Prop where
  | field {name : String} {f : Field} {v : Json} {key cs : List Char} (hname : Quoted name key)
      (hfield : s.field? name = some f) (h : f.kind.Holds v cs) :
      Member s [(name, v)] (key ++ ':' :: cs)
  | unknown {name : String} {key cs : List Char} (hname : Quoted name key)
      (hfield : s.field? name = none) (h : Skims .value cs) : Member s [] (key ++ ':' :: cs)

/-- The members of the object, one at least, with what is collected of them. -/
inductive Members (s : Shape) : List (String × Json) → List Char → Prop where
  | last {got : List (String × Json)} {cs : List Char} (h : s.Member got cs) : Members s got cs
  | more {got rest : List (String × Json)} {cs cs' : List Char} (h : s.Member got cs)
      (hs : Members s rest cs') : Members s (got ++ rest) (cs ++ ',' :: cs')

/-- The fields as the elements of a list, one at least. -/
inductive Elements : List Field → List Json → List Char → Prop where
  | last {f : Field} {fs : List Field} {v : Json} {cs : List Char} (h : f.kind.Holds v cs)
      (hfs : Optional fs) : Elements (f :: fs) (v :: fs.map fun _ => .null) cs
  | more {f : Field} {fs : List Field} {v : Json} {vs : List Json} {cs cs' : List Char}
      (h : f.kind.Holds v cs) (hs : Elements fs vs cs') :
      Elements (f :: fs) (v :: vs) (cs ++ ',' :: cs')

/-- A record with these values of its fields, with blanks around it. -/
inductive Derives (s : Shape) (vs : List Json) : List Char → Prop where
  | noMembers {a b c : List Char} (ha : Blank a) (hb : Blank b)
      (hgiven : List.Forall₂ (Given []) s.fields vs) (hc : Blank c) :
      Derives s vs (a ++ '\x7b' :: (b ++ '\x7d' :: c))
  | object {got : List (String × Json)} {a cs b : List Char} (ha : Blank a)
      (h : s.Members got cs) (hnodup : (got.map Prod.fst).Nodup)
      (hgiven : List.Forall₂ (Given got) s.fields vs) (hb : Blank b) :
      Derives s vs (a ++ '\x7b' :: (cs ++ '\x7d' :: b))
  | noElements {a b c : List Char} (ha : Blank a) (hb : Blank b) (hfields : Optional s.fields)
      (hvs : vs = s.fields.map fun _ => .null) (hc : Blank c) :
      Derives s vs (a ++ '[' :: (b ++ ']' :: c))
  | list {a cs b : List Char} (ha : Blank a) (h : Elements s.fields vs cs) (hb : Blank b) :
      Derives s vs (a ++ '[' :: (cs ++ ']' :: b))

end Shape

/-! ## Fields -/

section Fields

variable {kind : FieldKind} {v : Json} {cs rest : List Char} {ts : List Token}

/-- Blanks behind the value of a field make no difference. -/
theorem FieldKind.Holds.padded {b : List Char} (h : kind.Holds v cs) (hb : Blank b) :
    kind.Holds v (cs ++ b) := by
  cases h with
  | text h => exact .text (h.padded hb)
  | any h => exact .any (.padded .nil h hb)

/-- The value that is read of a field stands there. -/
theorem holds_of_readField (h : readField kind (tokens cs) = .ok (v, ts)) :
    ∃ piece rest, cs = piece ++ rest ∧ kind.Holds v piece ∧ ts = tokens rest := by
  cases kind with
  | any =>
    obtain ⟨piece, rest, hcs, hpiece, hts⟩ := derives_of_read h
    exact ⟨piece, rest, hcs, .any hpiece, hts⟩
  | text =>
    unfold readField at h
    dsimp only at h
    split at h
    · cases h
    · next hcs =>
      cases h
      obtain ⟨piece, rest, hcs, hpiece, hts⟩ := tokens_eq_text hcs
      exact ⟨piece, rest, hcs, .text hpiece, hts⟩
    · cases h

/-- A value of a field that stands there is read. -/
theorem readField_of_holds (h : kind.Holds v cs) (hrest : Delimited rest) :
    readField kind (tokens (cs ++ rest)) = .ok (v, tokens rest) := by
  cases h with
  | text h =>
    unfold readField
    rw [tokens_quoted h]
  | any h => exact read_of_derives (by decide) h hrest

end Fields

/-! ## Members -/

section Members

variable {s : Shape} {got more : List (String × Json)} {name : String} {cs rest : List Char}
  {ts : List Token} {first : Bool}

/-- Blanks behind a member make no difference. -/
theorem Shape.Member.padded {b : List Char} (h : s.Member got cs) (hb : Blank b) :
    s.Member got (cs ++ b) := by
  cases h with
  | field hname hfield h =>
    rw [List.append_assoc, List.cons_append]
    exact .field hname hfield (h.padded hb)
  | unknown hname hfield h =>
    rw [List.append_assoc, List.cons_append]
    exact .unknown hname hfield (.padded .nil h hb)

/-- The name that is read of a member stands there in quotes. -/
theorem quoted_of_memberName (h : memberName (tokens cs) = .ok (name, ts)) :
    ∃ key rest, cs = key ++ rest ∧ Quoted name key ∧ ts = tokens rest := by
  unfold memberName at h
  split at h
  · next hcs =>
    cases h
    exact tokens_eq_text hcs
  all_goals cases h

/-- The colon that is passed stands there. -/
theorem colon_of_afterColon (h : afterColon (tokens cs) = .ok ts) :
    ∃ a rest, Blank a ∧ cs = a ++ ':' :: rest ∧ ts = tokens rest := by
  unfold afterColon at h
  split at h
  · next hcs =>
    cases h
    exact tokens_eq_colon hcs
  all_goals cases h

/-- What `readMember` does behind a name is what the grammar says about a member of that name, which
is no field collected before. -/
theorem member_of_readMember {key : List Char} {got' : List (String × Json)}
    (hname : Quoted name key) (h : readMember s got name (tokens cs) = .ok (got', ts)) :
    ∃ new piece rest, key ++ cs = piece ++ rest ∧ ts = tokens rest ∧ got' = got ++ new ∧
      s.Member new piece ∧ ∀ x ∈ new, x.1 ∉ got.map Prod.fst := by
  unfold readMember at h
  split at h
  · next hfield =>
    split at h
    · cases h
    · next behind hcolon =>
      obtain ⟨a, value, ha, rfl, rfl⟩ := colon_of_afterColon hcolon
      split at h
      · cases h
      · next hskip =>
        cases h
        obtain ⟨piece, rest, rfl, hpiece, rfl⟩ := skims_of_skip hskip
        refine ⟨[], (key ++ a) ++ ':' :: piece, rest, by simp, rfl, (List.append_nil _).symm,
          .unknown (hname.padded ha) hfield hpiece, fun x hx => by cases hx⟩
  · next f hfield =>
    split at h
    · cases h
    · next hfresh =>
      split at h
      · cases h
      · next behind hcolon =>
        obtain ⟨a, value, ha, rfl, rfl⟩ := colon_of_afterColon hcolon
        split at h
        · cases h
        · next v rest hread =>
          cases h
          obtain ⟨piece, rest, rfl, hpiece, rfl⟩ := holds_of_readField hread
          refine ⟨[(name, v)], (key ++ a) ++ ':' :: piece, rest, by simp, rfl, rfl,
            .field (hname.padded ha) hfield hpiece, ?_⟩
          intro x hx hmem
          obtain rfl := List.mem_singleton.mp hx
          obtain ⟨y, hy, hyname⟩ := List.mem_map.mp hmem
          exact hfresh (List.any_eq_true.mpr ⟨y, hy, by simpa using hyname⟩)

/-- A member that stands there is read, and what it gives is put to what is collected. -/
theorem readMember_of_member (h : s.Member more cs) (hrest : Delimited rest)
    (hfresh : ∀ x ∈ more, x.1 ∉ got.map Prod.fst) :
    ∃ name ts, tokens (cs ++ rest) = .text (.ok name) :: ts ∧
      readMember s got name ts = .ok (got ++ more, tokens rest) := by
  cases h with
  | @field name f v key cs hname hfield h =>
    refine ⟨name, tokens (':' :: (cs ++ rest)), ?_, ?_⟩
    · rw [List.append_assoc, tokens_quoted hname, List.cons_append]
    · have hnew : got.any (·.1 = name) = false := by
        apply List.any_eq_false.mpr
        intro x hx hxname
        refine hfresh (name, v) List.mem_cons_self (List.mem_map.mpr ⟨x, hx, ?_⟩)
        simpa using hxname
      unfold readMember
      rw [hfield]
      dsimp only
      rw [hnew, if_neg Bool.false_ne_true, tokens_colon]
      dsimp only [afterColon]
      rw [readField_of_holds h hrest]
  | @unknown name key cs hname hfield h =>
    refine ⟨name, tokens (':' :: (cs ++ rest)), ?_, ?_⟩
    · rw [List.append_assoc, tokens_quoted hname, List.cons_append]
    · unfold readMember
      rw [hfield]
      dsimp only
      rw [tokens_colon]
      dsimp only [afterColon]
      rw [skip_of_skims h hrest, List.append_nil]

/-- Reading members goes from one to the next, up to the end of the object. -/
theorem readMembers_eq (s : Shape) (got : List (String × Json)) (first : Bool) (ts : List Token) :
    readMembers s got first ts =
      match nextName first ts with
      | .error e => .error e
      | .ok none => .ok (got, ts.tail)
      | .ok (some (name, rest)) =>
        match readMember s got name rest with
        | .error e => .error e
        | .ok (got, rest) => readMembers s got false rest := by
  rw [readMembers]
  split <;> simp_all
  split <;> simp_all

/-- What follows a member: the end of the object, or a comma and other members up to it. -/
def Followed (s : Shape) (new : List (String × Json)) (cs rest : List Char) : Prop :=
  (new = [] ∧ ∃ a, Blank a ∧ cs = a ++ '\x7d' :: rest) ∨
    ∃ a piece, Blank a ∧ cs = a ++ ',' :: (piece ++ '\x7d' :: rest) ∧ s.Members new piece

/-- A member and what follows it are the members up to the end of the object. -/
theorem Shape.Member.followed {new : List (String × Json)} {piece : List Char}
    (h : s.Member new piece) (hbehind : Followed s more cs rest) :
    ∃ all, piece ++ cs = all ++ '\x7d' :: rest ∧ s.Members (new ++ more) all := by
  rcases hbehind with ⟨rfl, a, ha, rfl⟩ | ⟨a, others, ha, rfl, hothers⟩
  · refine ⟨piece ++ a, (List.append_assoc _ _ _).symm, ?_⟩
    rw [List.append_nil]
    exact .last (h.padded ha)
  · exact ⟨(piece ++ a) ++ ',' :: others, by simp, .more (h.padded ha) hothers⟩

/-- Where no other name is found, the object ends. -/
theorem nextName_eq_none (h : nextName first (tokens cs) = .ok none) :
    ∃ a rest, Blank a ∧ cs = a ++ '\x7d' :: rest ∧ (tokens cs).tail = tokens rest := by
  have hname (ts : List Token) : (memberName ts).map some ≠ .ok none := by
    cases memberName ts <;> simp [Except.map]
  unfold nextName at h
  split at h
  · cases h
  · next hcs =>
    obtain ⟨a, rest, ha, hsplit, hts⟩ := tokens_eq_closeObject hcs
    exact ⟨a, rest, ha, hsplit, by rw [hcs, List.tail_cons, hts]⟩
  · split at h
    · exact absurd h (hname _)
    · split at h
      · exact absurd h (hname _)
      · cases h

/-- What was found can be taken out of the answer again. -/
theorem map_some_eq_ok {α ε : Type} {found : Except ε α} {a : α}
    (h : found.map some = .ok (some a)) : found = .ok a := by
  cases found with
  | error e => cases h
  | ok b =>
    cases h
    rfl

/-- The first name needs no comma in front. -/
theorem nextName_true_eq_some (h : nextName true (tokens cs) = .ok (some (name, ts))) :
    memberName (tokens cs) = .ok (name, ts) := by
  unfold nextName at h
  split at h
  · cases h
  · cases h
  · next hcs =>
    rw [hcs]
    exact map_some_eq_ok h

/-- Another name stands behind a comma. -/
theorem nextName_false_eq_some (h : nextName false (tokens cs) = .ok (some (name, ts))) :
    ∃ a behind, Blank a ∧ cs = a ++ ',' :: behind ∧ memberName (tokens behind) = .ok (name, ts) := by
  unfold nextName at h
  split at h
  · cases h
  · cases h
  · rw [if_neg Bool.false_ne_true] at h
    split at h
    · next hcs =>
      obtain ⟨a, behind, ha, hsplit, rfl⟩ := tokens_eq_comma hcs
      exact ⟨a, behind, ha, hsplit, map_some_eq_ok h⟩
    · cases h

/-- New names leave the names without repetition. -/
theorem nodup_append {new : List (String × Json)} (hgot : (got.map Prod.fst).Nodup)
    (hnew : (new.map Prod.fst).Nodup) (hfresh : ∀ x ∈ new, x.1 ∉ got.map Prod.fst) :
    ((got ++ new).map Prod.fst).Nodup := by
  rw [List.map_append]
  refine List.nodup_append'.mpr ⟨hgot, hnew, fun name hmem hmem' => ?_⟩
  obtain ⟨x, hx, rfl⟩ := List.mem_map.mp hmem'
  exact hfresh x hx hmem

/-- A member gives one field at most. -/
theorem Shape.Member.nodup (h : s.Member more cs) : (more.map Prod.fst).Nodup := by
  cases h with
  | field => exact List.nodup_singleton _
  | unknown => exact List.nodup_nil

/-- What the reader collects behind a member is what the grammar collects of what follows it. -/
theorem followed_of_readMembers {got' : List (String × Json)}
    (h : readMembers s got false (tokens cs) = .ok (got', ts)) :
    ∃ new rest, ts = tokens rest ∧ got' = got ++ new ∧ Followed s new cs rest ∧
      ((got.map Prod.fst).Nodup → (got'.map Prod.fst).Nodup) := by
  -- A member is a name, a colon and a value; only the tokens tell that the text gets shorter.
  induction hn : (tokens cs).length using Nat.strongRecOn generalizing cs got with
  | ind n ih =>
    subst hn
    rw [readMembers_eq] at h
    split at h
    · cases h
    · next hnone =>
      cases h
      obtain ⟨a, rest, ha, hcs, htail⟩ := nextName_eq_none hnone
      exact ⟨[], rest, htail, (List.append_nil _).symm, Or.inl ⟨rfl, a, ha, hcs⟩, id⟩
    · next name behind hsome =>
      obtain ⟨a, after, ha, rfl, hname⟩ := nextName_false_eq_some hsome
      obtain ⟨key, value, rfl, hkey, rfl⟩ := quoted_of_memberName hname
      split at h
      · cases h
      · next hmember =>
        obtain ⟨new, piece, rest, hsplit, rfl, rfl, hpiece, hfresh⟩ :=
          member_of_readMember hkey hmember
        have hlt : (tokens rest).length < (tokens (a ++ ',' :: (key ++ value))).length :=
          Nat.lt_trans (length_readMember hmember) (length_nextName hsome)
        obtain ⟨more, last, hts, rfl, hfollowed, hnodup⟩ := ih _ hlt h rfl
        obtain ⟨all, hall, hmembers⟩ := hpiece.followed hfollowed
        refine ⟨new ++ more, last, hts, List.append_assoc _ _ _,
          Or.inr ⟨a, all, ha, by rw [hsplit, hall], hmembers⟩, fun hgot => hnodup ?_⟩
        exact nodup_append hgot hpiece.nodup hfresh

/-- An object is read from its opening brace on only if the grammar derives its members. -/
theorem members_of_readMembers {got' : List (String × Json)}
    (h : readMembers s [] true (tokens cs) = .ok (got', ts)) :
    ∃ piece rest, cs = piece ++ '\x7d' :: rest ∧ ts = tokens rest ∧
      (got'.map Prod.fst).Nodup ∧ (s.Members got' piece ∨ got' = [] ∧ Blank piece) := by
  rw [readMembers_eq] at h
  split at h
  · cases h
  · next hnone =>
    cases h
    obtain ⟨a, rest, ha, hcs, htail⟩ := nextName_eq_none hnone
    exact ⟨a, rest, hcs, htail, List.nodup_nil, Or.inr ⟨rfl, ha⟩⟩
  · next name behind hsome =>
    obtain ⟨key, value, rfl, hkey, rfl⟩ := quoted_of_memberName (nextName_true_eq_some hsome)
    split at h
    · cases h
    · next hmember =>
      obtain ⟨new, piece, rest, hsplit, rfl, rfl, hpiece, -⟩ := member_of_readMember hkey hmember
      obtain ⟨more, last, hts, rfl, hfollowed, hnodup⟩ := followed_of_readMembers h
      obtain ⟨all, hall, hmembers⟩ := hpiece.followed hfollowed
      exact ⟨all, last, hsplit.trans hall, hts, hnodup hpiece.nodup, Or.inl hmembers⟩

/-- At the end of the object there are no more members. -/
theorem readMembers_end (got : List (String × Json)) (ts : List Token) :
    readMembers s got first (.closeObject :: ts) = .ok (got, ts) := by
  rw [readMembers_eq]
  rfl

/-- Members are collected in both places where they may stand. -/
theorem readMembers_of_members (h : s.Members more cs) :
    ∀ got, ((got ++ more).map Prod.fst).Nodup →
      readMembers s got true (tokens (cs ++ '\x7d' :: rest)) = .ok (got ++ more, tokens rest) ∧
      readMembers s got false (tokens (',' :: (cs ++ '\x7d' :: rest))) =
        .ok (got ++ more, tokens rest) := by
  have hnames (name : String) (ts : List Token) :
      nextName true (.text (.ok name) :: ts) = .ok (some (name, ts)) ∧
      nextName false (.comma :: .text (.ok name) :: ts) = .ok (some (name, ts)) := ⟨rfl, rfl⟩
  have hfresh {got new : List (String × Json)} (hnodup : ((got ++ new).map Prod.fst).Nodup) :
      ∀ x ∈ new, x.1 ∉ got.map Prod.fst := by
    intro x hx hmem
    rw [List.map_append] at hnodup
    exact (List.nodup_append'.mp hnodup).2.2 hmem (List.mem_map_of_mem hx)
  induction h with
  | @last new cs h =>
    intro got hnodup
    obtain ⟨name, ts, hts, hread⟩ :=
      readMember_of_member h (delimited_closeObject : Delimited ('\x7d' :: rest)) (hfresh hnodup)
    rw [tokens_comma, hts, readMembers_eq, readMembers_eq, (hnames name ts).1, (hnames name ts).2]
    dsimp only
    rw [hread, tokens_closeObject]
    exact ⟨readMembers_end _ _, readMembers_end _ _⟩
  | @more new others cs cs' h hs ih =>
    intro got hnodup
    -- The members behind this one are collected behind it, so they are read from `got ++ new` on.
    have hparts : (((got ++ new) ++ others).map Prod.fst).Nodup := by
      rwa [List.append_assoc]
    have hfirst : ((got ++ new).map Prod.fst).Nodup := by
      rw [List.map_append] at hparts
      exact (List.nodup_append'.mp hparts).1
    obtain ⟨name, ts, hts, hread⟩ :=
      readMember_of_member h (delimited_comma : Delimited (',' :: (cs' ++ '\x7d' :: rest)))
        (hfresh hfirst)
    rw [List.append_assoc, List.cons_append, tokens_comma, hts, readMembers_eq, readMembers_eq,
      (hnames name ts).1, (hnames name ts).2]
    dsimp only
    rw [hread, ← List.append_assoc]
    exact ⟨(ih (got ++ new) hparts).2, (ih (got ++ new) hparts).2⟩

end Members

/-! ## Values of the fields -/

section Complete

variable {got : List (String × Json)} {name : String} {v : Json}

/-- The member that is looked up is the last one of its name. -/
theorem member?_eq_some_iff {ms : List (String × Json)} :
    member? name ms = some v ↔
      ∃ before after, ms = before ++ (name, v) :: after ∧ name ∉ after.map Prod.fst := by
  induction ms using List.reverseRecOn with
  | nil => simp [member?]
  | append_singleton ms m ih =>
    obtain ⟨key, w⟩ := m
    rw [member?_append_singleton]
    constructor
    · intro h
      split at h
      · next hkey =>
        cases h
        exact ⟨ms, [], by rw [hkey], by simp⟩
      · next hkey =>
        obtain ⟨before, after, rfl, hafter⟩ := ih.mp h
        refine ⟨before, after ++ [(key, w)], by simp, ?_⟩
        simp only [List.map_append, List.mem_append, not_or]
        exact ⟨hafter, by simpa using fun heq => hkey heq.symm⟩
    · rintro ⟨before, after, heq, hafter⟩
      rcases List.eq_nil_or_concat after with rfl | ⟨others, last, rfl⟩
      · obtain ⟨-, hlast⟩ := List.append_inj' heq rfl
        cases hlast
        rw [if_pos rfl]
      · rw [List.concat_eq_append, ← List.cons_append, ← List.append_assoc] at heq
        obtain ⟨hms, hlast⟩ := List.append_inj' heq rfl
        cases hlast
        simp only [List.concat_eq_append, List.map_append, List.mem_append, not_or, List.map_cons,
          List.map_nil, List.mem_singleton] at hafter
        rw [if_neg fun hkey => hafter.2 hkey.symm]
        exact ih.mpr ⟨before, others, hms, hafter.1⟩

/-- A member is not found just if there is none of its name. -/
theorem member?_eq_none_iff {ms : List (String × Json)} :
    member? name ms = none ↔ name ∉ ms.map Prod.fst := by
  induction ms using List.reverseRecOn with
  | nil => simp [member?]
  | append_singleton ms m ih =>
    rw [member?_append_singleton]
    by_cases hkey : m.1 = name
    · simp [hkey]
    · rw [if_neg hkey, ih, List.map_append, List.mem_append, not_or]
      have hother : name ∉ [m].map Prod.fst := fun hmem => hkey (List.mem_singleton.mp hmem).symm
      exact ⟨fun h => ⟨h, hother⟩, fun h => h.1⟩

/-- Without repetitions there is no other one. -/
theorem member?_eq_some_iff_mem (hnodup : (got.map Prod.fst).Nodup) :
    member? name got = some v ↔ (name, v) ∈ got := by
  rw [member?_eq_some_iff]
  constructor
  · rintro ⟨before, after, rfl, -⟩
    simp
  · intro hmem
    obtain ⟨before, after, rfl⟩ := List.append_of_mem hmem
    refine ⟨before, after, rfl, ?_⟩
    rw [List.map_append, List.map_cons] at hnodup
    exact (List.nodup_cons.mp (List.nodup_append'.mp hnodup).2.1).1

/-- The fields are complete if the first is given and the others are complete. -/
theorem complete_cons_eq_ok_iff (hnodup : (got.map Prod.fst).Nodup) {f : Field} {fs : List Field}
    {vs : List Json} :
    complete got (f :: fs) = .ok vs ↔
      ∃ v vs', vs = v :: vs' ∧ Given got f v ∧ complete got fs = .ok vs' := by
  have hmap (w : Json) (found : Except ReadError (List Json)) :
      found.map (w :: ·) = .ok vs ↔ ∃ vs', vs = w :: vs' ∧ found = .ok vs' := by
    cases found with
    | error e => simp [Except.map]
    | ok ws => simp [Except.map, eq_comm]
  rw [complete]
  cases hfound : member? f.name got with
  | some w =>
    have hmem := (member?_eq_some_iff_mem hnodup).mp hfound
    dsimp only
    rw [hmap]
    constructor
    · rintro ⟨vs', rfl, hrest⟩
      exact ⟨w, vs', rfl, Or.inl hmem, hrest⟩
    · rintro ⟨v, vs', rfl, hv | ⟨hnone, -, -⟩, hrest⟩
      · have hsame := (member?_eq_some_iff_mem hnodup).mpr hv
        rw [hfound] at hsame
        cases hsame
        exact ⟨vs', rfl, hrest⟩
      · exact absurd (List.mem_map.mpr ⟨_, hmem, rfl⟩) hnone
  | none =>
    have hnone := member?_eq_none_iff.mp hfound
    have hgiven {v : Json} (hv : Given got f v) : f.kind = .any ∧ v = .null := by
      rcases hv with hmem | ⟨-, hany⟩
      · exact absurd (List.mem_map.mpr ⟨_, hmem, rfl⟩) hnone
      · exact hany
    cases hkind : f.kind with
    | text =>
      dsimp only
      constructor
      · intro h
        cases h
      · rintro ⟨v, vs', -, hv, -⟩
        have hany := (hgiven hv).1
        rw [hkind] at hany
        cases hany
    | any =>
      dsimp only
      rw [hmap]
      constructor
      · rintro ⟨vs', rfl, hrest⟩
        exact ⟨.null, vs', rfl, Or.inr ⟨hnone, hkind, rfl⟩, hrest⟩
      · rintro ⟨v, vs', rfl, hv, hrest⟩
        obtain ⟨-, rfl⟩ := hgiven hv
        exact ⟨vs', rfl, hrest⟩

/-- The fields are complete if and only if each has its value. -/
theorem complete_eq_ok_iff (hnodup : (got.map Prod.fst).Nodup) {fs : List Field}
    {vs : List Json} : complete got fs = .ok vs ↔ List.Forall₂ (Given got) fs vs := by
  induction fs generalizing vs with
  | nil =>
    rw [List.forall₂_nil_left_iff, complete]
    simp [eq_comm]
  | cons f fs ih =>
    rw [complete_cons_eq_ok_iff hnodup, List.forall₂_cons_left_iff]
    constructor
    · rintro ⟨v, vs', rfl, hv, hrest⟩
      exact ⟨v, vs', hv, ih.mp hrest, rfl⟩
    · rintro ⟨v, vs', hv, hrest, rfl⟩
      exact ⟨v, vs', rfl, hv, ih.mpr hrest⟩

end Complete

/-! ## Elements -/

section Elements

variable {s : Shape} {index : Nat} {fs : List Field} {vs : List Json} {cs rest : List Char}
  {ts us : List Token}

/-- At the end of the list only fields are left that may be left out. -/
theorem readElements_end :
    readElements s index fs (.closeList :: ts) = .ok (vs, us) ↔
      Optional fs ∧ vs = fs.map (fun _ => .null) ∧ us = .closeList :: ts := by
  induction fs generalizing index vs us with
  | nil =>
    rw [readElements]
    simp [Optional, eq_comm]
  | cons f fs ih =>
    have hnext (first : Bool) : nextElement first (.closeList :: ts) = .ok none := rfl
    rw [readElements, hnext]
    cases hkind : f.kind with
    | text =>
      dsimp only
      refine iff_of_false (fun h => by cases h) fun h => ?_
      have hany := h.1 f List.mem_cons_self
      rw [hkind] at hany
      cases hany
    | any =>
      dsimp only
      cases hrest : readElements s (index + 1) fs (.closeList :: ts) with
      | error e =>
        refine iff_of_false (fun h => by cases h) fun h => ?_
        have hok : readElements s (index + 1) fs (.closeList :: ts) = .ok (_, us) :=
          ih.mpr ⟨fun g hg => h.1 g (List.mem_cons_of_mem f hg), rfl, h.2.2⟩
        rw [hrest] at hok
        cases hok
      | ok found =>
        obtain ⟨ws, left⟩ := found
        obtain ⟨hfs, rfl, rfl⟩ := ih.mp hrest
        constructor
        · intro h
          cases h
          refine ⟨fun g hg => ?_, rfl, rfl⟩
          rcases List.mem_cons.mp hg with rfl | hg
          · exact hkind
          · exact hfs g hg
        · rintro ⟨-, rfl, rfl⟩
          rfl

/-- Behind the last field the list ends. -/
theorem closeList_of_afterElements (h : afterElements ts = .ok us) : ts = .closeList :: us := by
  unfold afterElements at h
  split at h
  · cases h
  · cases h
    rfl
  · cases h
  · cases h

/-- An element is read behind a comma or as the first one. -/
theorem nextElement_of_readField {kind : FieldKind} {found : Json × List Token}
    (h : readField kind ts = .ok found) :
    nextElement true ts = .ok (some ts) ∧ nextElement false (.comma :: ts) = .ok (some ts) := by
  cases ts with
  | nil =>
    cases kind <;> cases h
  | cons t ts =>
    cases t with
    | closeList => cases kind <;> cases h
    | _ => exact ⟨rfl, rfl⟩

/-- Another element stands behind a comma. -/
theorem nextElement_false_eq_some (h : nextElement false (tokens cs) = .ok (some ts)) :
    ∃ a behind, Blank a ∧ cs = a ++ ',' :: behind ∧ ts = tokens behind := by
  unfold nextElement at h
  split at h
  · cases h
  · cases h
  · next t us _ hcs =>
    rw [if_neg Bool.false_ne_true] at h
    split at h
    · cases h
    · cases h
    · cases h
      exact tokens_eq_comma hcs
    · cases h

/-- Where no other element is found, the list ends. -/
theorem nextElement_eq_none {first : Bool} (h : nextElement first (tokens cs) = .ok none) :
    ∃ a rest, Blank a ∧ cs = a ++ ']' :: rest ∧ tokens cs = .closeList :: tokens rest := by
  unfold nextElement at h
  split at h
  · cases h
  · next hcs =>
    obtain ⟨a, rest, ha, hsplit, rfl⟩ := tokens_eq_closeList hcs
    exact ⟨a, rest, ha, hsplit, hcs⟩
  · split at h
    · cases h
    · split at h <;> cases h

/-- What follows an element: the end of the list, or a comma and other elements up to it. -/
def Trailed (fs : List Field) (vs : List Json) (cs rest : List Char) : Prop :=
  (∃ a, Blank a ∧ cs = a ++ ']' :: rest ∧ Optional fs ∧ vs = fs.map fun _ => .null) ∨
    ∃ a piece, Blank a ∧ cs = a ++ ',' :: (piece ++ ']' :: rest) ∧ Shape.Elements fs vs piece

/-- An element and what follows it are the elements up to the end of the list. -/
theorem FieldKind.Holds.trailed {f : Field} {v : Json} {piece : List Char}
    (h : f.kind.Holds v piece) (hbehind : Trailed fs vs cs rest) :
    ∃ all, piece ++ cs = all ++ ']' :: rest ∧ Shape.Elements (f :: fs) (v :: vs) all := by
  rcases hbehind with ⟨a, ha, rfl, hfs, rfl⟩ | ⟨a, others, ha, rfl, hothers⟩
  · exact ⟨piece ++ a, (List.append_assoc _ _ _).symm, .last (h.padded ha) hfs⟩
  · exact ⟨(piece ++ a) ++ ',' :: others, by simp, .more (h.padded ha) hothers⟩

/-- The element that has been found and those behind it. -/
theorem readElements_some {f : Field} {first : Bool} {found : List Token}
    (hfirst : first = decide (index = 0)) (hnext : nextElement first ts = .ok (some found)) :
    readElements s index (f :: fs) ts = .ok (vs, us) ↔
      ∃ v rest vs', vs = v :: vs' ∧ readField f.kind found = .ok (v, rest) ∧
        readElements s (index + 1) fs rest = .ok (vs', us) := by
  rw [readElements, ← hfirst, hnext]
  dsimp only
  constructor
  · intro h
    cases hfield : readField f.kind found with
    | error e =>
      rw [hfield] at h
      cases h
    | ok read =>
      obtain ⟨v, rest⟩ := read
      rw [hfield] at h
      dsimp only at h
      cases hothers : readElements s (index + 1) fs rest with
      | error e =>
        rw [hothers] at h
        cases h
      | ok others =>
        obtain ⟨vs', left⟩ := others
        rw [hothers] at h
        cases h
        exact ⟨v, rest, vs', rfl, rfl, hothers⟩
  · rintro ⟨v, rest, vs', rfl, hfield, hothers⟩
    rw [hfield]
    dsimp only
    rw [hothers]
    rfl

/-- The first element needs no comma in front. -/
theorem nextElement_true_eq_some {found : List Token} (h : nextElement true ts = .ok (some found)) :
    found = ts := by
  unfold nextElement at h
  split at h
  · cases h
  · cases h
  · cases h
    rfl

/-- The fields from one on that is not the first, and the end of the list. -/
theorem trailed_of_readElements (hindex : index ≠ 0)
    (h : readElements s index fs (tokens cs) = .ok (vs, .closeList :: us)) :
    ∃ rest, us = tokens rest ∧ Trailed fs vs cs rest := by
  induction fs generalizing index cs vs with
  | nil =>
    rw [readElements] at h
    obtain ⟨rfl, hcs⟩ := Prod.mk.inj (Except.ok.inj h)
    obtain ⟨a, rest, ha, rfl, rfl⟩ := tokens_eq_closeList hcs
    have hnone : Optional [] := fun f hf => by cases hf
    exact ⟨rest, rfl, Or.inl ⟨a, ha, rfl, hnone, rfl⟩⟩
  | cons f fs ih =>
    cases hnext : nextElement (decide (index = 0)) (tokens cs) with
    | error e =>
      rw [readElements, hnext] at h
      cases h
    | ok found =>
      cases found with
      | none =>
        obtain ⟨a, rest, ha, rfl, hcs⟩ := nextElement_eq_none hnext
        rw [hcs] at h
        obtain ⟨hfs, hvs, hus⟩ := readElements_end.mp h
        cases hus
        exact ⟨rest, rfl, Or.inl ⟨a, ha, rfl, hfs, hvs⟩⟩
      | some found =>
        obtain ⟨v, behind, vs', rfl, hfield, hrest⟩ := (readElements_some rfl hnext).mp h
        rw [decide_eq_false hindex] at hnext
        obtain ⟨a, element, ha, rfl, rfl⟩ := nextElement_false_eq_some hnext
        obtain ⟨piece, tail, rfl, hpiece, rfl⟩ := holds_of_readField hfield
        obtain ⟨rest, hus, htrailed⟩ := ih (Nat.succ_ne_zero index) hrest
        obtain ⟨all, hall, helements⟩ := hpiece.trailed htrailed
        exact ⟨rest, hus, Or.inr ⟨a, all, ha, by rw [hall], helements⟩⟩

/-- A list is read from its opening bracket on only if the grammar derives its elements. -/
theorem elements_of_readElements
    (h : readElements s 0 fs (tokens cs) = .ok (vs, .closeList :: us)) :
    ∃ piece rest, cs = piece ++ ']' :: rest ∧ us = tokens rest ∧
      (Shape.Elements fs vs piece ∨
        Optional fs ∧ vs = fs.map (fun _ => .null) ∧ Blank piece) := by
  have hend {rest : List Token} (hcs : tokens cs = .closeList :: rest)
      (h : readElements s 0 fs (tokens cs) = .ok (vs, .closeList :: us)) :
      ∃ piece rest, cs = piece ++ ']' :: rest ∧ us = tokens rest ∧
        (Shape.Elements fs vs piece ∨
          Optional fs ∧ vs = fs.map (fun _ => .null) ∧ Blank piece) := by
    obtain ⟨a, rest, ha, hsplit, rfl⟩ := tokens_eq_closeList hcs
    rw [hcs] at h
    obtain ⟨hfs, hvs, hus⟩ := readElements_end.mp h
    cases hus
    exact ⟨a, rest, hsplit, rfl, Or.inr ⟨hfs, hvs, ha⟩⟩
  cases fs with
  | nil =>
    have hcs := h
    rw [readElements] at hcs
    exact hend (Prod.mk.inj (Except.ok.inj hcs)).2 h
  | cons f fs =>
    cases hnext : nextElement (decide (0 = 0)) (tokens cs) with
    | error e =>
      rw [readElements, hnext] at h
      cases h
    | ok found =>
      cases found with
      | none =>
        obtain ⟨a, rest, -, -, hcs⟩ := nextElement_eq_none hnext
        exact hend hcs h
      | some found =>
        obtain ⟨v, behind, vs', rfl, hfield, hrest⟩ := (readElements_some rfl hnext).mp h
        rw [nextElement_true_eq_some hnext] at hfield
        obtain ⟨piece, tail, rfl, hpiece, rfl⟩ := holds_of_readField hfield
        obtain ⟨rest, hus, htrailed⟩ := trailed_of_readElements (Nat.succ_ne_zero 0) hrest
        obtain ⟨all, hall, helements⟩ := hpiece.trailed htrailed
        exact ⟨all, rest, hall, hus, Or.inl helements⟩

/-- Elements are read in both places where they may stand. -/
theorem readElements_of_elements (h : Shape.Elements fs vs cs) :
    readElements s 0 fs (tokens (cs ++ ']' :: rest)) = .ok (vs, .closeList :: tokens rest) ∧
    ∀ index, readElements s (index + 1) fs (tokens (',' :: (cs ++ ']' :: rest))) =
      .ok (vs, .closeList :: tokens rest) := by
  have hstart : true = decide (0 = 0) := rfl
  have hbehind (index : Nat) : false = decide (index + 1 = 0) :=
    (decide_eq_false (Nat.succ_ne_zero index)).symm
  induction h with
  | @last f fs v cs h hfs =>
    have hfield := readField_of_holds h (delimited_closeList : Delimited (']' :: rest))
    obtain ⟨hfirst, hnext⟩ := nextElement_of_readField hfield
    have hend (index : Nat) :
        readElements s index fs (tokens (']' :: rest)) =
          .ok (fs.map fun _ => .null, .closeList :: tokens rest) := by
      rw [tokens_closeList]
      exact readElements_end.mpr ⟨hfs, rfl, rfl⟩
    rw [tokens_comma]
    exact ⟨(readElements_some hstart hfirst).mpr ⟨v, _, _, rfl, hfield, hend _⟩, fun index =>
      (readElements_some (hbehind index) hnext).mpr ⟨v, _, _, rfl, hfield, hend _⟩⟩
  | @more f fs v vs cs cs' h hs ih =>
    have hfield := readField_of_holds h (delimited_comma : Delimited (',' :: (cs' ++ ']' :: rest)))
    obtain ⟨hfirst, hnext⟩ := nextElement_of_readField hfield
    rw [tokens_comma, List.append_assoc, List.cons_append]
    exact ⟨(readElements_some hstart hfirst).mpr ⟨v, _, _, rfl, hfield, ih.2 0⟩, fun index =>
      (readElements_some (hbehind index) hnext).mpr ⟨v, _, _, rfl, hfield, ih.2 (index + 1)⟩⟩

end Elements

/-! ## Records -/

namespace Shape

variable {s : Shape} {vs : List Json} {cs : List Char} {ts : List Token}

/-- What is read as an object is derived as one. -/
theorem derives_of_readObject {a : List Char} (ha : Blank a)
    (h : readObject s (tokens cs) = .ok (vs, [])) : s.Derives vs (a ++ '\x7b' :: cs) := by
  unfold readObject at h
  split at h
  · cases h
  · next got rest hmembers =>
    cases hcomplete : complete got s.fields with
    | error e =>
      rw [hcomplete] at h
      cases h
    | ok ws =>
      rw [hcomplete] at h
      cases h
      obtain ⟨piece, tail, rfl, htail, hnodup, hpiece⟩ := members_of_readMembers hmembers
      have hgiven := (complete_eq_ok_iff hnodup).mp hcomplete
      have hb := tokens_eq_nil htail.symm
      rcases hpiece with hpiece | ⟨rfl, hblank⟩
      · exact .object ha hpiece hnodup hgiven hb
      · exact .noMembers ha hblank hgiven hb

/-- What is read as a list is derived as one. -/
theorem derives_of_readList {a : List Char} (ha : Blank a)
    (h : readList s (tokens cs) = .ok (vs, [])) : s.Derives vs (a ++ '[' :: cs) := by
  unfold readList at h
  split at h
  · cases h
  · next ws rest helements =>
    cases hend : afterElements rest with
    | error e =>
      rw [hend] at h
      cases h
    | ok left =>
      rw [hend] at h
      cases h
      rw [closeList_of_afterElements hend] at helements
      obtain ⟨piece, tail, rfl, htail, hpiece⟩ := elements_of_readElements helements
      have hb := tokens_eq_nil htail.symm
      rcases hpiece with hpiece | ⟨hfields, hvs, hblank⟩
      · exact .list ha hpiece hb
      · exact .noElements ha hblank hfields hvs hb

/-- A record that is read from all of a text is derived by the grammar. -/
theorem derives_of_readRecord (h : readRecord s (tokens cs) = .ok (vs, [])) :
    s.Derives vs cs := by
  unfold readRecord at h
  split at h
  · cases h
  · next hcs =>
    obtain ⟨a, rest, ha, rfl, rfl⟩ := tokens_eq_openObject hcs
    exact derives_of_readObject ha h
  · next hcs =>
    obtain ⟨a, rest, ha, rfl, rfl⟩ := tokens_eq_openList hcs
    exact derives_of_readList ha h
  · cases h

/-- What is derived as a record is read as one. -/
theorem readRecord_of_derives (h : s.Derives vs cs) :
    readRecord s (tokens cs) = .ok (vs, []) := by
  cases h with
  | noMembers ha hb hgiven hc =>
    rw [tokens_blank_append ha, tokens_openObject, tokens_blank_append hb, tokens_closeObject,
      tokens_of_blank hc, readRecord, readObject, readMembers_end]
    have hnodup : (([] : List (String × Json)).map Prod.fst).Nodup := List.nodup_nil
    have hcomplete := (complete_eq_ok_iff hnodup).mpr hgiven
    dsimp only
    rw [hcomplete]
    rfl
  | @object got a cs b ha h hnodup hgiven hb =>
    have hread : readMembers s [] true (tokens (cs ++ '\x7d' :: b)) = .ok (got, tokens b) :=
      (readMembers_of_members h [] hnodup).1
    rw [tokens_blank_append ha, tokens_openObject, readRecord, readObject, hread,
      tokens_of_blank hb]
    dsimp only
    rw [(complete_eq_ok_iff hnodup).mpr hgiven]
    rfl
  | noElements ha hb hfields hvs hc =>
    rw [tokens_blank_append ha, tokens_openList, tokens_blank_append hb, tokens_closeList,
      tokens_of_blank hc, readRecord, readList, readElements_end.mpr ⟨hfields, hvs, rfl⟩]
    rfl
  | @list a cs b ha h hb =>
    rw [tokens_blank_append ha, tokens_openList, readRecord, readList,
      (readElements_of_elements h).1, tokens_of_blank hb]
    rfl

/-- A text is read as a record of a shape if and only if the grammar of the shape derives it. -/
theorem ofText_eq_ok_iff {text : String} :
    s.ofText text = .ok vs ↔ s.Derives vs text.toList := by
  unfold ofText
  constructor
  · intro h
    cases hread : readRecord s (tokens text.toList) with
    | error e =>
      rw [hread] at h
      cases h
    | ok found =>
      obtain ⟨ws, ts⟩ := found
      rw [hread] at h
      cases ts with
      | cons t ts => cases h
      | nil =>
        cases h
        exact derives_of_readRecord hread
  · intro h
    rw [readRecord_of_derives h]
    rfl

end Shape

end SpeechRelay.Json
