import SpeechRelay.Proofs.Json.Records
import SpeechRelay.Recognizer.Answer

/-!
# The wire format of answers

An answer of a recognizer is written as an object in which the field comes once, with a text,
between any number of members of other names, whatever these hold; or as the list of this one text
(`Recognizer.Written`). `ReadsExactly` says of a function that it reads this format and no other
text, and that of the text that is said it removes the blanks at both ends and nothing else
(`Trims`). The readers of both kinds of answers do (`answers_exact`).
-/

set_option autoImplicit false

namespace SpeechRelay

/-! ## Trimming -/

namespace Text

/-- The one text is the other without blanks at its ends, and has none itself. -/
structure Trims (text trimmed : String) : Prop where
  kept : ∃ front back : List Char, text.toList = front ++ (trimmed.toList ++ back) ∧
    ∀ c ∈ front ++ back, isBlank c = true
  head : ∀ c, trimmed.toList.head? = some c → isBlank c = false
  last : ∀ c, trimmed.toList.getLast? = some c → isBlank c = false

/-- A text that does not start with a blank has none to drop in front. -/
theorem dropWhile_of_head {cs : List Char} (h : ∀ c, cs.head? = some c → isBlank c = false) :
    cs.dropWhile isBlank = cs := by
  cases cs with
  | nil => rfl
  | cons c cs =>
    have hc := h c rfl
    rw [List.dropWhile_cons_of_neg (by simp [hc])]

/-- Blanks at the end are dropped up to the last character that is none. -/
theorem trimEnd_append {cs back : List Char} (hback : ∀ c ∈ back, isBlank c = true)
    (hlast : ∀ c, cs.getLast? = some c → isBlank c = false) : trimEnd (cs ++ back) = cs := by
  unfold trimEnd
  rw [List.reverse_append, List.dropWhile_append_of_pos, dropWhile_of_head, List.reverse_reverse]
  · rwa [List.head?_reverse]
  · intro c hmem
    exact hback c (List.mem_reverse.mp hmem)

/-- What trimming leaves of a text between blanks is this text. -/
theorem trim_append {front cs back : List Char} (hblank : ∀ c ∈ front ++ back, isBlank c = true)
    (hhead : ∀ c, cs.head? = some c → isBlank c = false)
    (hlast : ∀ c, cs.getLast? = some c → isBlank c = false) :
    trim (front ++ (cs ++ back)) = cs := by
  have hback : ∀ c ∈ back, isBlank c = true := fun c hmem =>
    hblank c (List.mem_append_right _ hmem)
  unfold trim
  rw [List.dropWhile_append_of_pos fun c hmem => hblank c (List.mem_append_left _ hmem)]
  cases cs with
  | nil =>
    have hnone : back.dropWhile isBlank = [] := List.dropWhile_eq_nil_iff.mpr hback
    rw [List.nil_append, hnone]
    rfl
  | cons c cs =>
    rw [List.cons_append, List.dropWhile_cons_of_neg (by simp [hhead c rfl]), ← List.cons_append]
    exact trimEnd_append hback hlast

/-- What is dropped at the end is blank. -/
theorem blank_of_mem_trimEnd (cs : List Char) :
    ∃ back, cs = trimEnd cs ++ back ∧ ∀ c ∈ back, isBlank c = true := by
  refine ⟨(cs.reverse.takeWhile isBlank).reverse, ?_, ?_⟩
  · unfold trimEnd
    rw [← List.reverse_append, List.takeWhile_append_dropWhile, List.reverse_reverse]
  · intro c hmem
    exact List.mem_takeWhile_imp (List.mem_reverse.mp hmem)

/-- Trimming is done in one way only. -/
theorem trims_iff {text trimmed : String} : Trims text trimmed ↔ trimmed = Text.trimmed text := by
  constructor
  · rintro ⟨⟨front, back, htext, hblank⟩, hhead, hlast⟩
    rw [Text.trimmed, htext, trim_append hblank hhead hlast, String.ofList_toList]
  · rintro rfl
    obtain ⟨back, hback, hblank⟩ := blank_of_mem_trimEnd (text.toList.dropWhile isBlank)
    have hkept : text.toList = text.toList.takeWhile isBlank ++ (trim text.toList ++ back) := by
      unfold trim
      rw [← hback, List.takeWhile_append_dropWhile]
    constructor
    · refine ⟨_, back, by rw [Text.trimmed, String.toList_ofList]; exact hkept, ?_⟩
      intro c hmem
      rcases List.mem_append.mp hmem with hfront | hmem
      · exact List.mem_takeWhile_imp hfront
      · exact hblank c hmem
    · intro c hc
      rw [Text.trimmed, String.toList_ofList] at hc
      exact head?_trim hc
    · intro c hc
      rw [Text.trimmed, String.toList_ofList] at hc
      exact getLast?_trim hc

end Text

namespace Recognizer

open Json (Blank Quoted Skims)

/-! ## The format -/

/-- The member of that name, with that text. -/
inductive Said (field text : String) : List Char → Prop where
  | mk {key cs : List Char} (hname : Quoted field key) (h : Quoted text cs) :
      Said field text (key ++ ':' :: cs)

/-- A member of another name, whatever its value is. -/
inductive Passed (field : String) : List Char → Prop where
  | mk {name : String} {key cs : List Char} (hname : Quoted name key) (hother : name ≠ field)
      (h : Skims .value cs) : Passed field (key ++ ':' :: cs)

/-- An answer that says that text, with blanks around it. -/
inductive Written (field text : String) : List Char → Prop where
  | object {a said b : List Char} {before after : List (List Char)} (ha : Blank a)
      (hbefore : ∀ m ∈ before, Passed field m) (h : Said field text said)
      (hafter : ∀ m ∈ after, Passed field m) (hb : Blank b) :
      Written field text
        (a ++ '\x7b' :: ([','].intercalate (before ++ said :: after) ++ '\x7d' :: b))
  | list {a cs b : List Char} (ha : Blank a) (h : Quoted text cs) (hb : Blank b) :
      Written field text (a ++ '[' :: (cs ++ ']' :: b))

/-- The function reads the answers that say a text, and nothing else, without the blanks at the ends
of what is said. An answer says no more than one text. -/
structure ReadsExactly (field : String) (read : String → Except RecognizerError String) : Prop where
  reads : ∀ answer t, read answer = .ok t ↔
    ∃ text, Written field text answer.toList ∧ Text.Trims text t
  refuses : ∀ answer, (∃ problem, read answer = .error (.unreadable problem)) ↔
    ¬ ∃ text, Written field text answer.toList
  unambiguous : ∀ cs text text', Written field text cs → Written field text' cs → text = text'

/-! ## Members -/

/-- The shape of a record with one text. -/
def oneText (label field : String) : Json.Shape := ⟨label, [⟨field, .text⟩]⟩

section Members

variable {label field : String} {got : List (String × Json)} {cs : List Char}

/-- The shape has one field, and it is a text. -/
theorem field?_oneText {name : String} {f : Json.Field} :
    (oneText label field).field? name = some f ↔ name = field ∧ f = ⟨field, .text⟩ := by
  unfold Json.Shape.field? oneText
  by_cases h : field = name
  · simp [h, eq_comm]
  · simp [h, Ne.symm h]

/-- All other names are unknown to the shape. -/
theorem field?_oneText_eq_none {name : String} :
    (oneText label field).field? name = none ↔ name ≠ field := by
  unfold Json.Shape.field? oneText
  simp [eq_comm]

/-- A member is the field or another one. -/
theorem member_oneText : (oneText label field).Member got cs ↔
    got = [] ∧ Passed field cs ∨ ∃ text, got = [(field, .text text)] ∧ Said field text cs := by
  constructor
  · intro h
    cases h with
    | unknown hname hfield h => exact Or.inl ⟨rfl, .mk hname (field?_oneText_eq_none.mp hfield) h⟩
    | field hname hfield h =>
      obtain ⟨rfl, rfl⟩ := field?_oneText.mp hfield
      cases h with
      | text h => exact Or.inr ⟨_, rfl, .mk hname h⟩
  · rintro (⟨rfl, ⟨hname, hother, h⟩⟩ | ⟨text, rfl, ⟨hname, h⟩⟩)
    · exact .unknown hname (field?_oneText_eq_none.mpr hother) h
    · exact .field hname (field?_oneText.mpr ⟨rfl, rfl⟩) (.text h)

/-- The first of several members is followed by a comma and the others. -/
theorem intercalate_cons {m : List Char} {ms : List (List Char)} (h : ms ≠ []) :
    [','].intercalate (m :: ms) = m ++ ',' :: [','].intercalate ms := by
  obtain ⟨n, ms, rfl⟩ := List.exists_cons_of_ne_nil h
  simp [List.intercalate, List.intersperse]

/-- Members of which no field is collected are all passed over. -/
theorem passed_of_members (h : (oneText label field).Members got cs) (hgot : got = []) :
    ∃ ms, ms ≠ [] ∧ (∀ m ∈ ms, Passed field m) ∧ cs = [','].intercalate ms := by
  induction h with
  | @last got cs h =>
    rcases member_oneText.mp h with ⟨-, hpassed⟩ | ⟨text, rfl, -⟩
    · exact ⟨[cs], by simp, by simpa using hpassed, by simp [List.intercalate]⟩
    · cases hgot
  | @more got rest cs cs' h _ ih =>
    obtain ⟨hfirst, hrest⟩ := List.append_eq_nil_iff.mp hgot
    obtain ⟨ms, hne, hms, rfl⟩ := ih hrest
    rcases member_oneText.mp h with ⟨-, hpassed⟩ | ⟨text, rfl, -⟩
    · refine ⟨cs :: ms, by simp, List.forall_mem_cons.mpr ⟨hpassed, hms⟩, ?_⟩
      exact (intercalate_cons hne).symm
    · cases hfirst

/-- Members of which one field is collected are passed over up to it and behind it. -/
theorem said_of_members {x : String × Json} (h : (oneText label field).Members got cs)
    (hgot : got = [x]) :
    ∃ text before said after, x = (field, .text text) ∧ (∀ m ∈ before, Passed field m) ∧
      Said field text said ∧ (∀ m ∈ after, Passed field m) ∧
      cs = [','].intercalate (before ++ said :: after) := by
  induction h with
  | @last got cs h =>
    subst hgot
    rcases member_oneText.mp h with ⟨hnone, -⟩ | ⟨text, hx, hsaid⟩
    · cases hnone
    · cases hx
      exact ⟨text, [], cs, [], rfl, by simp, hsaid, by simp, by simp [List.intercalate]⟩
  | @more got rest cs cs' h hs ih =>
    rcases member_oneText.mp h with ⟨rfl, hpassed⟩ | ⟨text, rfl, hsaid⟩
    · obtain ⟨text, before, said, after, hx, hbefore, hsaid, hafter, rfl⟩ := ih hgot
      refine ⟨text, cs :: before, said, after, hx, ?_, hsaid, hafter, ?_⟩
      · exact List.forall_mem_cons.mpr ⟨hpassed, hbefore⟩
      · exact (intercalate_cons (by simp)).symm
    · obtain ⟨hx, hrest⟩ := List.cons_eq_cons.mp hgot
      obtain ⟨ms, hne, hms, rfl⟩ := passed_of_members hs hrest
      exact ⟨text, [], cs, ms, hx.symm, by simp, hsaid, hms, (intercalate_cons hne).symm⟩

/-- Members of other names give nothing. -/
theorem members_of_passed {ms : List (List Char)} (hne : ms ≠ [])
    (h : ∀ m ∈ ms, Passed field m) : (oneText label field).Members [] ([','].intercalate ms) := by
  induction ms with
  | nil => exact absurd rfl hne
  | cons m ms ih =>
    obtain ⟨hm, hms⟩ := List.forall_mem_cons.mp h
    have hmember : (oneText label field).Member [] m := member_oneText.mpr (Or.inl ⟨rfl, hm⟩)
    by_cases hlast : ms = []
    · subst hlast
      simpa [List.intercalate] using Json.Shape.Members.last hmember
    · rw [intercalate_cons hlast]
      exact .more hmember (ih hlast hms)

/-- Among members of other names, the one of the field gives its text. -/
theorem members_of_said {text : String} {before after : List (List Char)} {said : List Char}
    (hbefore : ∀ m ∈ before, Passed field m) (h : Said field text said)
    (hafter : ∀ m ∈ after, Passed field m) :
    (oneText label field).Members [(field, .text text)]
      ([','].intercalate (before ++ said :: after)) := by
  induction before with
  | nil =>
    have hmember : (oneText label field).Member [(field, .text text)] said :=
      member_oneText.mpr (Or.inr ⟨text, rfl, h⟩)
    by_cases hlast : after = []
    · subst hlast
      simpa [List.intercalate] using Json.Shape.Members.last hmember
    · rw [List.nil_append, intercalate_cons hlast]
      exact .more hmember (members_of_passed hlast hafter)
  | cons m before ih =>
    obtain ⟨hm, hms⟩ := List.forall_mem_cons.mp hbefore
    rw [List.cons_append, intercalate_cons (by simp)]
    exact .more (member_oneText.mpr (Or.inl ⟨rfl, hm⟩)) (ih hms)

/-- Whatever is collected is a text of that name. -/
theorem eq_text_of_mem (h : (oneText label field).Members got cs) {x : String × Json}
    (hmem : x ∈ got) : ∃ text, x = (field, .text text) := by
  have hmember {new : List (String × Json)} {cs : List Char}
      (h : (oneText label field).Member new cs) (hmem : x ∈ new) :
      ∃ text, x = (field, .text text) := by
    rcases member_oneText.mp h with ⟨rfl, -⟩ | ⟨text, rfl, -⟩
    · cases hmem
    · exact ⟨text, List.mem_singleton.mp hmem⟩
  induction h with
  | last h => exact hmember h hmem
  | more h _ ih =>
    rcases List.mem_append.mp hmem with hfirst | hrest
    · exact hmember h hfirst
    · exact ih hrest

/-- A name that may not come twice is collected once. -/
theorem eq_singleton_of_members (h : (oneText label field).Members got cs)
    (hnodup : (got.map Prod.fst).Nodup) {x : String × Json} (hmem : x ∈ got) : got = [x] := by
  have hnames : got.map Prod.fst = List.replicate got.length field := by
    rw [List.eq_replicate_iff]
    refine ⟨List.length_map _, ?_⟩
    intro name hname
    obtain ⟨y, hy, rfl⟩ := List.mem_map.mp hname
    obtain ⟨text, rfl⟩ := eq_text_of_mem h hy
    rfl
  rw [hnames, List.nodup_replicate] at hnodup
  have hpos := List.length_pos_of_mem hmem
  obtain ⟨y, rfl⟩ : ∃ y, got = [y] := List.length_eq_one_iff.mp (by omega)
  rw [List.mem_singleton.mp hmem]

end Members

/-! ## Answers -/

section Answers

variable {label field : String} {cs : List Char} {vs : List Json}

/-- What the shape derives is an answer that says a text. -/
theorem derives_oneText :
    (oneText label field).Derives vs cs ↔ ∃ text, vs = [.text text] ∧ Written field text cs := by
  constructor
  · intro h
    cases h with
    | noMembers _ _ hgiven =>
      obtain ⟨v, ws, hv | hv, -⟩ := List.forall₂_cons_left_iff.mp hgiven
      · cases hv
      · cases hv.2.1
    | @object got a cs b ha h hnodup hgiven hb =>
      obtain ⟨v, ws, hv, hnil, rfl⟩ := List.forall₂_cons_left_iff.mp hgiven
      obtain rfl := List.forall₂_nil_left_iff.mp hnil
      have hmem : (field, v) ∈ got := hv.resolve_right fun hnone => by cases hnone.2.1
      obtain ⟨text, before, said, after, hx, hbefore, hsaid, hafter, rfl⟩ :=
        said_of_members h (eq_singleton_of_members h hnodup hmem)
      cases hx
      exact ⟨text, rfl, .object ha hbefore hsaid hafter hb⟩
    | noElements _ _ hfields =>
      have hkind := hfields ⟨field, .text⟩ List.mem_cons_self
      cases hkind
    | @list a cs b ha h hb =>
      have helements : Json.Shape.Elements [⟨field, .text⟩] vs cs := h
      cases helements with
      | last h _ =>
        cases h with
        | text h => exact ⟨_, rfl, .list ha h hb⟩
      | more _ hnone => cases hnone
  · rintro ⟨text, rfl, h⟩
    cases h with
    | object ha hbefore h hafter hb =>
      refine .object ha (members_of_said hbefore h hafter) (List.nodup_singleton _) ?_ hb
      exact .cons (Or.inl List.mem_cons_self) .nil
    | list ha h hb =>
      refine .list ha (.last (.text h) ?_) hb
      intro f hf
      cases hf

/-- An answer is read just if it says a text, and the text is what is read. -/
theorem ofText_oneText {answer : String} : (oneText label field).ofText answer = .ok vs ↔
    ∃ text, vs = [.text text] ∧ Written field text answer.toList :=
  Json.Shape.ofText_eq_ok_iff.trans derives_oneText

/-- An answer that says a text is read as that text without the blanks around it. -/
theorem readText_of_written {answer text : String} (h : Written field text answer.toList) :
    readText (oneText label field) answer = .ok (Text.trimmed text) := by
  rw [readText, ofText_oneText.mpr ⟨text, rfl, h⟩]

/-- An answer that says no text cannot be read. -/
theorem readText_of_not_written {answer : String}
    (h : ¬ ∃ text, Written field text answer.toList) :
    ∃ problem, readText (oneText label field) answer = .error (.unreadable problem) := by
  unfold readText
  cases hread : (oneText label field).ofText answer with
  | error problem => exact ⟨problem, rfl⟩
  | ok vs =>
    obtain ⟨text, -, hwritten⟩ := ofText_oneText.mp hread
    exact absurd ⟨text, hwritten⟩ h

/-- Reading a text reads exactly the answers that say one. -/
theorem readsExactly_readText (label field : String) :
    ReadsExactly field (readText (oneText label field)) := by
  constructor
  case reads =>
    intro answer t
    constructor
    · intro h
      by_cases hwritten : ∃ text, Written field text answer.toList
      · obtain ⟨text, hwritten⟩ := hwritten
        rw [readText_of_written hwritten] at h
        exact ⟨text, hwritten, Text.trims_iff.mpr (Except.ok.inj h).symm⟩
      · obtain ⟨problem, herror⟩ : ∃ problem, readText (oneText label field) answer =
            .error (.unreadable problem) := readText_of_not_written hwritten
        rw [herror] at h
        cases h
    · rintro ⟨text, hwritten, htrims⟩
      rw [readText_of_written hwritten, Text.trims_iff.mp htrims]
  case refuses =>
    intro answer
    constructor
    · rintro ⟨problem, h⟩ ⟨text, hwritten⟩
      rw [readText_of_written hwritten] at h
      cases h
    · exact readText_of_not_written
  case unambiguous =>
    intro cs text text' h h'
    rw [← String.toList_ofList (l := cs)] at h h'
    have hread : (oneText label field).ofText (String.ofList cs) = .ok [.text text] :=
      ofText_oneText.mpr ⟨text, rfl, h⟩
    rw [ofText_oneText.mpr ⟨text', rfl, h'⟩] at hread
    cases hread
    rfl

/-- An answer about an utterance that has ended is the text of `text`, and one about an utterance in
progress is the text of `partial`, of an object or alone in a list. What is said is trimmed, and any
other answer cannot be read. -/
theorem answers_exact : ReadsExactly "text" readFinal ∧ ReadsExactly "partial" readPartial :=
  ⟨readsExactly_readText "FinalPayload" "text", readsExactly_readText "PartialPayload" "partial"⟩

/-- A name with an escape behind a member that is passed over, and blanks that are not ASCII. -/
example : (readFinal ("\x7b\"alternatives\": [\x7b\"text\": 1e999\x7d], " ++
    "\"te\\u0078t\": \"\\u3000 two  words\\n\"\x7d ")).toOption = some "two  words" := by
  decide +kernel

end Answers

end Recognizer

end SpeechRelay
