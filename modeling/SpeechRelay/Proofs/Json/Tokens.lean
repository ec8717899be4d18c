import SpeechRelay.Json.Token
import SpeechRelay.Proofs.Json.Literals
import SpeechRelay.Proofs.Json.Numerals

/-!
# How tokens are written

`Token.Written` says how a token is written that is not broken. Whatever `tokens` finds at the front
of a text stands there behind blanks, written like this, unless it is broken (`tokens_eq_cons`).
In the other direction there is a lemma for each kind of token.
-/

set_option autoImplicit false

namespace SpeechRelay.Json

/-- Nothing but white space. -/
def Blank (cs : List Char) : Prop := ∀ c ∈ cs, isSpace c

/-- Nothing at all is blank. -/
theorem Blank.nil : Blank [] := fun _ hmem => by cases hmem

/-- Blanks behind blanks are blank. -/
theorem Blank.append {a b : List Char} (ha : Blank a) (hb : Blank b) : Blank (a ++ b) :=
  fun c hmem => (List.mem_append.mp hmem).elim (ha c) (hb c)

/-- What may stand behind a value: nothing, a blank, or what separates it from something else. -/
def Delimited (cs : List Char) : Prop :=
  ∀ c, cs.head? = some c → isSpace c ∨ c = ',' ∨ c = ']' ∨ c = '\x7d'

namespace Token

/-- How tokens are written that are not broken. -/
inductive Written : Token → List Char → Prop where
  | openList : Written .openList ['[']
  | closeList : Written .closeList [']']
  | openObject : Written .openObject ['\x7b']
  | closeObject : Written .closeObject ['\x7d']
  | comma : Written .comma [',']
  | colon : Written .colon [':']
  | null : Written .null ['n', 'u', 'l', 'l']
  | yes : Written (.truth true) ['t', 'r', 'u', 'e']
  | no : Written (.truth false) ['f', 'a', 'l', 's', 'e']
  | number {n : Numeral} {cs : List Char} (h : n.Written cs) : Written (.number n.value) cs
  | text {body text : List Char} (h : Literal.Spells body text) :
      Written (.text (.ok (String.ofList text))) ('\"' :: (body ++ ['\"']))
  /-- A literal that has an end and no text. -/
  | bounded {body : List Char} {problem : ReadError} (h : Literal.Bounded body) :
      Written (.text (.error problem)) ('\"' :: (body ++ ['\"']))

/-- Whether a token stands for something that cannot be one. -/
def isBroken : Token → Bool
  | .brokenWord _ | .brokenNumber _ | .brokenText _ _ | .stray _ => true
  | _ => false

end Token

/-! ## What is found -/

section Cut

variable {cs rest : List Char} {t : Token}

/-- The token stands at the front and is followed by what is said to follow, or it is broken. -/
def Cut (cs : List Char) (found : Token × List Char) : Prop :=
  (∃ piece, cs = piece ++ found.2 ∧ found.1.Written piece) ∨ found.1.isBroken

/-- A word that is passed stands there. -/
theorem append_of_afterWord {ws : List Char} (h : afterWord ws cs = .ok rest) :
    cs = ws ++ rest := by
  induction ws generalizing cs with
  | nil =>
    cases h
    rfl
  | cons w ws ih =>
    cases cs with
    | nil => cases h
    | cons c cs =>
      rw [afterWord] at h
      split at h
      · next hc => rw [hc, List.cons_append, ← ih h]
      · cases h

/-- The word that a token stands for is cut off in front. -/
theorem cut_word {w : Char} {ws : List Char} (ht : t.Written (w :: ws)) :
    Cut (w :: cs) (Token.word t ws cs) := by
  unfold Token.word
  split
  · next rest h => exact Or.inl ⟨w :: ws, by rw [append_of_afterWord h]; rfl, ht⟩
  · exact Or.inr rfl

/-- The numeral that a token stands for is cut off in front. -/
theorem cut_numeral : Cut cs (Token.numeral false cs) := by
  unfold Token.numeral
  split
  · next n rest h =>
    obtain ⟨hsign, body, hcs, hbody⟩ := Numeral.written_of_scan h
    exact Or.inl ⟨body, hcs, .number (.natural hsign hbody)⟩
  · exact Or.inr rfl

/-- The numeral is cut off with its sign, if it has one. -/
theorem cut_negative : Cut ('-' :: cs) (Token.numeral true cs) := by
  unfold Token.numeral
  split
  · next n rest h =>
    obtain ⟨hsign, body, hcs, hbody⟩ := Numeral.written_of_scan h
    exact Or.inl ⟨'-' :: body, by rw [hcs]; rfl, .number (.negative hsign hbody)⟩
  · exact Or.inr rfl

/-- The literal that a token stands for is cut off in front. -/
theorem cut_string : Cut ('\"' :: cs) (Token.string cs) := by
  unfold Token.string
  cases hskip : Literal.skip cs with
  | error e =>
    right
    dsimp only
    split <;> rfl
  | ok rest =>
    left
    obtain ⟨body, hcs, hbounded⟩ := Literal.skip_eq_ok_iff.mp hskip
    cases hdecode : Literal.decode cs with
    | error problem =>
      exact ⟨'\"' :: (body ++ ['\"']), by simp [hcs], .bounded hbounded⟩
    | ok decoded =>
      obtain ⟨text, tail⟩ := decoded
      obtain ⟨spelling, hcs', hspells⟩ := Literal.decode_eq_ok_iff.mp hdecode
      -- Both readings of the literal stop at the same quote.
      have hskip' := Literal.skip_eq_ok_iff.mpr ⟨spelling, hcs', hspells.bounded⟩
      have hrest : rest = tail := Except.ok.inj (hskip.symm.trans hskip')
      subst hrest
      exact ⟨'\"' :: (spelling ++ ['\"']), by simp [hcs'], .text hspells⟩

/-- Of two ways to cut, the one that is chosen cuts. -/
theorem cut_ite {p : Prop} [Decidable p] {a b : Token × List Char} (ha : p → Cut cs a)
    (hb : Cut cs b) : Cut cs (if p then a else b) := by
  by_cases hp : p
  · rw [if_pos hp]
    exact ha hp
  · rwa [if_neg hp]

/-- A mark is cut off as the token that it is. -/
theorem cut_mark (c : Char) {d : Char} (ht : t.Written [d]) (hc : c = d) (cs : List Char) :
    Cut (c :: cs) (t, cs) := Or.inl ⟨[d], by rw [hc]; rfl, ht⟩

/-- The first token is what stands in front, unless it is broken. -/
theorem cut_first (c : Char) (cs : List Char) : Cut (c :: cs) (Token.first c cs) := by
  unfold Token.first
  refine cut_ite (fun hc => hc ▸ cut_string) ?_
  refine cut_ite (fun hc => cut_mark c .comma hc cs) ?_
  refine cut_ite (fun hc => cut_mark c .colon hc cs) ?_
  refine cut_ite (fun hc => cut_mark c .openList hc cs) ?_
  refine cut_ite (fun hc => cut_mark c .closeList hc cs) ?_
  refine cut_ite (fun hc => cut_mark c .openObject hc cs) ?_
  refine cut_ite (fun hc => cut_mark c .closeObject hc cs) ?_
  refine cut_ite (fun _ => cut_numeral) ?_
  refine cut_ite (fun hc => hc ▸ cut_negative) ?_
  refine cut_ite (fun hc => hc ▸ cut_word .null) ?_
  refine cut_ite (fun hc => hc ▸ cut_word .yes) ?_
  refine cut_ite (fun hc => hc ▸ cut_word .no) ?_
  exact Or.inr rfl

/-- A text without tokens is blank. -/
theorem tokens_eq_nil (h : tokens cs = []) : Blank cs := by
  cases hfirst : firstToken? cs with
  | some found =>
    obtain ⟨t, rest⟩ := found
    rw [tokens_of_some hfirst] at h
    cases h
  | none =>
    unfold firstToken? at hfirst
    split at hfirst
    · next hdrop =>
      intro c hmem
      have hall := List.dropWhile_eq_nil_iff.mp hdrop
      exact hall c hmem
    · cases hfirst

/-- The first token of a text, unless it is broken, is written at the front behind blanks. -/
theorem tokens_eq_cons {ts : List Token} (h : tokens cs = t :: ts) (ht : t.isBroken = false) :
    ∃ a piece rest, Blank a ∧ cs = a ++ (piece ++ rest) ∧ t.Written piece ∧ ts = tokens rest := by
  cases hfirst : firstToken? cs with
  | none =>
    rw [tokens_of_none hfirst] at h
    cases h
  | some found =>
    obtain ⟨u, rest⟩ := found
    rw [tokens_of_some hfirst] at h
    cases h
    unfold firstToken? at hfirst
    split at hfirst
    · cases hfirst
    · next c tail hdrop =>
      have hparts := List.takeWhile_append_dropWhile (p := isSpace) (l := cs)
      have hfound := cut_first c tail
      rw [Option.some.inj hfirst, ← hdrop] at hfound
      rcases hfound with ⟨piece, hpiece, hwritten⟩ | hbroken
      · refine ⟨cs.takeWhile isSpace, piece, rest, ?_, ?_, hwritten, rfl⟩
        · exact fun _ hmem => List.mem_takeWhile_imp hmem
        · rw [← hpiece]
          exact hparts.symm
      · rw [ht] at hbroken
        cases hbroken

/-- What stands in front of the rest of a text whose first token is a single character. -/
theorem tokens_eq_mark {c : Char} {ts : List Token} (ht : t.isBroken = false)
    (hmark : ∀ piece, t.Written piece → piece = [c]) (h : tokens cs = t :: ts) :
    ∃ a rest, Blank a ∧ cs = a ++ c :: rest ∧ ts = tokens rest := by
  obtain ⟨a, piece, rest, ha, rfl, hwritten, rfl⟩ := tokens_eq_cons h ht
  rw [hmark piece hwritten]
  exact ⟨a, rest, ha, rfl, rfl⟩

/-- A comma that is read stands there, behind blanks. -/
theorem tokens_eq_comma {ts : List Token} (h : tokens cs = .comma :: ts) :
    ∃ a rest, Blank a ∧ cs = a ++ ',' :: rest ∧ ts = tokens rest :=
  tokens_eq_mark rfl (fun _ hwritten => by cases hwritten; rfl) h

/-- A colon that is read stands there, behind blanks. -/
theorem tokens_eq_colon {ts : List Token} (h : tokens cs = .colon :: ts) :
    ∃ a rest, Blank a ∧ cs = a ++ ':' :: rest ∧ ts = tokens rest :=
  tokens_eq_mark rfl (fun _ hwritten => by cases hwritten; rfl) h

/-- The start of a list that is read stands there, behind blanks. -/
theorem tokens_eq_openList {ts : List Token} (h : tokens cs = .openList :: ts) :
    ∃ a rest, Blank a ∧ cs = a ++ '[' :: rest ∧ ts = tokens rest :=
  tokens_eq_mark rfl (fun _ hwritten => by cases hwritten; rfl) h

/-- The end of a list that is read stands there, behind blanks. -/
theorem tokens_eq_closeList {ts : List Token} (h : tokens cs = .closeList :: ts) :
    ∃ a rest, Blank a ∧ cs = a ++ ']' :: rest ∧ ts = tokens rest :=
  tokens_eq_mark rfl (fun _ hwritten => by cases hwritten; rfl) h

/-- The start of an object that is read stands there, behind blanks. -/
theorem tokens_eq_openObject {ts : List Token} (h : tokens cs = .openObject :: ts) :
    ∃ a rest, Blank a ∧ cs = a ++ '\x7b' :: rest ∧ ts = tokens rest :=
  tokens_eq_mark rfl (fun _ hwritten => by cases hwritten; rfl) h

/-- The end of an object that is read stands there, behind blanks. -/
theorem tokens_eq_closeObject {ts : List Token} (h : tokens cs = .closeObject :: ts) :
    ∃ a rest, Blank a ∧ cs = a ++ '\x7d' :: rest ∧ ts = tokens rest :=
  tokens_eq_mark rfl (fun _ hwritten => by cases hwritten; rfl) h

/-- A text in quotes, with blanks around it. -/
inductive Quoted : String → List Char → Prop where
  | mk {a b body text : List Char} (ha : Blank a) (h : Literal.Spells body text) (hb : Blank b) :
      Quoted (String.ofList text) (a ++ '\"' :: (body ++ '\"' :: b))

/-- Blanks behind a text in quotes make no difference. -/
theorem Quoted.padded {s : String} {b : List Char} (h : Quoted s cs) (hb : Blank b) :
    Quoted s (cs ++ b) := by
  obtain ⟨ha, hspells, hbehind⟩ := h
  rw [List.append_assoc, List.cons_append, List.append_assoc, List.cons_append]
  exact .mk ha hspells (hbehind.append hb)

/-- A text that is read stands there in quotes. -/
theorem tokens_eq_text {s : String} {ts : List Token} (h : tokens cs = .text (.ok s) :: ts) :
    ∃ piece rest, cs = piece ++ rest ∧ Quoted s piece ∧ ts = tokens rest := by
  obtain ⟨a, piece, rest, ha, rfl, hwritten, rfl⟩ := tokens_eq_cons h rfl
  cases hwritten with
  | text hspells => exact ⟨_, rest, (List.append_assoc _ _ _).symm, .mk ha hspells .nil, rfl⟩

end Cut

/-! ## What is written -/

section Written

variable {a cs rest : List Char}

/-- Blanks in front make no tokens. -/
theorem tokens_blank_append (ha : Blank a) (cs : List Char) : tokens (a ++ cs) = tokens cs := by
  have hfirst : firstToken? (a ++ cs) = firstToken? cs := by
    unfold firstToken?
    rw [List.dropWhile_append_of_pos ha]
  cases h : firstToken? cs with
  | none => rw [tokens_of_none (hfirst.trans h), tokens_of_none h]
  | some found => rw [tokens_of_some (hfirst.trans h), tokens_of_some h]

/-- An empty text has no tokens. -/
theorem tokens_nil : tokens [] = [] := tokens_of_none rfl

/-- A blank text has no tokens. -/
theorem tokens_of_blank (ha : Blank a) : tokens a = [] := by
  have h := tokens_blank_append ha []
  rwa [List.append_nil, tokens_nil] at h

/-- Where no blank stands, the first token is cut off there. -/
theorem tokens_cons {c : Char} (hc : isSpace c = false) (cs : List Char) :
    tokens (c :: cs) = (Token.first c cs).1 :: tokens (Token.first c cs).2 := by
  apply tokens_of_some
  unfold firstToken?
  rw [List.dropWhile_cons_of_neg (by simp [hc])]

/-- A comma is a token of its own. -/
@[simp] theorem tokens_comma (cs : List Char) : tokens (',' :: cs) = .comma :: tokens cs :=
  tokens_cons rfl cs

/-- A colon is a token of its own. -/
@[simp] theorem tokens_colon (cs : List Char) : tokens (':' :: cs) = .colon :: tokens cs :=
  tokens_cons rfl cs

/-- The start of a list is a token of its own. -/
@[simp] theorem tokens_openList (cs : List Char) : tokens ('[' :: cs) = .openList :: tokens cs :=
  tokens_cons rfl cs

/-- The end of a list is a token of its own. -/
@[simp] theorem tokens_closeList (cs : List Char) : tokens (']' :: cs) = .closeList :: tokens cs :=
  tokens_cons rfl cs

/-- The start of an object is a token of its own. -/
@[simp] theorem tokens_openObject (cs : List Char) :
    tokens ('\x7b' :: cs) = .openObject :: tokens cs := tokens_cons rfl cs

/-- The end of an object is a token of its own. -/
@[simp] theorem tokens_closeObject (cs : List Char) :
    tokens ('\x7d' :: cs) = .closeObject :: tokens cs := tokens_cons rfl cs

/-- The word for nothing is one token. -/
@[simp] theorem tokens_null (cs : List Char) :
    tokens (['n', 'u', 'l', 'l'] ++ cs) = .null :: tokens cs := tokens_cons rfl _

/-- The word for true is one token. -/
@[simp] theorem tokens_yes (cs : List Char) :
    tokens (['t', 'r', 'u', 'e'] ++ cs) = .truth true :: tokens cs := tokens_cons rfl _

/-- The word for false is one token. -/
@[simp] theorem tokens_no (cs : List Char) :
    tokens (['f', 'a', 'l', 's', 'e'] ++ cs) = .truth false :: tokens cs := tokens_cons rfl _

/-- A literal is one token with the text that it spells. -/
theorem tokens_text {body text : List Char} (h : Literal.Spells body text) (rest : List Char) :
    tokens ('\"' :: (body ++ '\"' :: rest)) =
      .text (.ok (String.ofList text)) :: tokens rest := by
  have hdecode : Literal.decode (body ++ '\"' :: rest) = .ok (text, rest) :=
    Literal.decode_eq_ok_iff.mpr ⟨body, rfl, h⟩
  have hskip : Literal.skip (body ++ '\"' :: rest) = .ok rest :=
    Literal.skip_eq_ok_iff.mpr ⟨body, rfl, h.bounded⟩
  have hstring : Token.string (body ++ '\"' :: rest) =
      (.text (.ok (String.ofList text)), rest) := by
    unfold Token.string
    rw [hdecode, hskip]
    rfl
  rw [tokens_cons rfl]
  show (Token.string _).1 :: tokens (Token.string _).2 = _
  rw [hstring]

/-- A text in quotes is one token, blanks or not. -/
theorem tokens_quoted {s : String} (h : Quoted s cs) (rest : List Char) :
    tokens (cs ++ rest) = .text (.ok s) :: tokens rest := by
  obtain ⟨ha, hspells, hb⟩ := h
  rw [List.append_assoc, tokens_blank_append ha, List.cons_append, List.append_assoc,
    List.cons_append, tokens_text hspells, tokens_blank_append hb]

/-- A literal that has an end is one token, whether or not it is a text. -/
theorem tokens_bounded {body : List Char} (h : Literal.Bounded body) (rest : List Char) :
    ∃ value, tokens ('\"' :: (body ++ '\"' :: rest)) = .text value :: tokens rest := by
  have hskip : Literal.skip (body ++ '\"' :: rest) = .ok rest :=
    Literal.skip_eq_ok_iff.mpr ⟨body, rfl, h⟩
  rw [tokens_cons rfl]
  show ∃ value, (Token.string _).1 :: tokens (Token.string _).2 = _
  unfold Token.string
  rw [hskip]
  exact ⟨_, rfl⟩

/-- What may stand behind a value does not go on with a numeral. -/
theorem Delimited.stops (h : Delimited rest) : Numeral.Stops rest := by
  intro c hc
  rcases h c hc with hspace | rfl | rfl | rfl
  · unfold isSpace at hspace
    simp only [Bool.or_eq_true, decide_eq_true_eq] at hspace
    rcases hspace with ((rfl | rfl) | rfl) | rfl <;> decide
  all_goals decide

/-- A digit starts a numeral, and is no blank. -/
theorem first_of_isDigit {c : Char} (hc : c.isDigit) (cs : List Char) :
    Token.first c cs = Token.numeral false (c :: cs) ∧ isSpace c = false := by
  have hne (d : Char) (hd : d.isDigit = false) : c ≠ d := by
    rintro rfl
    rw [hc] at hd
    cases hd
  refine ⟨?_, ?_⟩
  · unfold Token.first
    rw [if_neg (hne _ rfl), if_neg (hne _ rfl), if_neg (hne _ rfl), if_neg (hne _ rfl),
      if_neg (hne _ rfl), if_neg (hne _ rfl), if_neg (hne _ rfl), if_pos hc]
  · simp [isSpace, hne _ (show ' '.isDigit = false from rfl),
      hne _ (show '\t'.isDigit = false from rfl), hne _ (show '\n'.isDigit = false from rfl),
      hne _ (show '\r'.isDigit = false from rfl)]

/-- A numeral is one token with its value, if nothing goes on with it. -/
theorem tokens_number {n : Numeral} (h : n.Written cs) (hrest : Delimited rest) :
    tokens (cs ++ rest) = .number n.value :: tokens rest := by
  have hscan (body : List Char) (hbody : n.Unsigned body) :
      Token.numeral n.negative (body ++ rest) = (.number n.value, rest) := by
    unfold Token.numeral
    rw [Numeral.scan_of_written hbody hrest.stops]
  cases h with
  | natural hsign hbody =>
    have hnumeral := hscan cs hbody
    rw [hsign] at hnumeral
    obtain ⟨c, tail, rfl, hc⟩ := hbody.startsWithDigit
    obtain ⟨hfirst, hspace⟩ := first_of_isDigit hc (tail ++ rest)
    rw [List.cons_append, tokens_cons hspace, hfirst, ← List.cons_append, hnumeral]
  | @negative body hsign hbody =>
    have hnumeral := hscan body hbody
    rw [hsign] at hnumeral
    rw [List.cons_append, tokens_cons rfl]
    show (Token.numeral true _).1 :: tokens (Token.numeral true _).2 = _
    rw [hnumeral]

end Written

end SpeechRelay.Json
