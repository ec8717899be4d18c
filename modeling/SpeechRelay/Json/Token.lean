import SpeechRelay.Json.Literal
import SpeechRelay.Json.Numeral

/-!
# Tokens of JSON

`tokens` cuts a text into tokens. A token that cannot be completed is kept as the last one,
together with what is wrong with it: whether that matters, and which of two problems comes first,
is for the reader of the tokens to say. For the same reason a string carries its text or what is
wrong with it, and a number its value or that it has none.
-/

set_option autoImplicit false

namespace SpeechRelay.Json

/-- A token. -/
inductive Token where
  | openList
  | closeList
  | openObject
  | closeObject
  | comma
  | colon
  | null
  | truth (b : Bool)
  | number (value : Except ReadError Number)
  | text (value : Except ReadError String)
  /-- The start of `null`, `true` or `false`, with something else behind it. -/
  | brokenWord (problem : ReadError)
  /-- The start of a number. -/
  | brokenNumber (problem : ReadError)
  /-- A string without an end: the first problem for who wants its text, and the first for who
  only looks for its end. -/
  | brokenText (problem : ReadError) (skipping : ReadError)
  /-- A character with which no token starts. -/
  | stray (c : Char)

/-- White space between tokens. -/
def isSpace (c : Char) : Bool :=
  c = ' ' || c = '\t' || c = '\n' || c = '\r'

/-- What follows the rest of a word. -/
def afterWord : List Char → List Char → Except ReadError (List Char)
  | [], cs => .ok cs
  | _ :: _, [] => .error (.ended .value)
  | w :: ws, c :: cs => if c = w then afterWord ws cs else .error .expectedWord

namespace Token

/-- The word that starts with a letter already read. -/
def word (t : Token) (rest cs : List Char) : Token × List Char :=
  match afterWord rest cs with
  | .ok cs => (t, cs)
  | .error e => (.brokenWord e, [])

/-- The number at the start of the text, its sign already read. -/
def numeral (negative : Bool) (cs : List Char) : Token × List Char :=
  match Numeral.scan negative cs with
  | .ok (n, rest) => (.number n.value, rest)
  | .error e => (.brokenNumber e, [])

/-- The string whose opening quote has been read. -/
def string (cs : List Char) : Token × List Char :=
  let text := (Literal.decode cs).map fun p => String.ofList p.1
  match Literal.skip cs with
  | .ok rest => (.text text, rest)
  | .error e =>
    match text with
    | .ok _ => (.brokenText e e, [])
    | .error problem => (.brokenText problem e, [])

/-- The token that starts with a character, and what follows it. -/
def first (c : Char) (cs : List Char) : Token × List Char :=
  if c = '\"' then string cs
  else if c = ',' then (.comma, cs)
  else if c = ':' then (.colon, cs)
  else if c = '[' then (.openList, cs)
  else if c = ']' then (.closeList, cs)
  else if c = '\x7b' then (.openObject, cs)
  else if c = '\x7d' then (.closeObject, cs)
  else if c.isDigit then numeral false (c :: cs)
  else if c = '-' then numeral true cs
  else if c = 'n' then word .null ['u', 'l', 'l'] cs
  else if c = 't' then word (.truth true) ['r', 'u', 'e'] cs
  else if c = 'f' then word (.truth false) ['a', 'l', 's', 'e'] cs
  else (.stray c, cs)

end Token

/-! ## Lengths -/

/-- Behind a word no more characters are left than there were. -/
theorem length_afterWord {ws cs rest : List Char} (h : afterWord ws cs = .ok rest) :
    rest.length ≤ cs.length := by
  induction ws generalizing cs with
  | nil => simp_all [afterWord]
  | cons w ws ih =>
    cases cs with
    | nil => simp [afterWord] at h
    | cons c cs =>
      simp only [afterWord] at h
      split at h
      · exact Nat.le_succ_of_le (ih h)
      · simp at h

/-- Behind the token of a word no more characters are left either, also if the token is an error. -/
theorem length_word (t : Token) (ws cs : List Char) :
    (Token.word t ws cs).2.length ≤ cs.length := by
  unfold Token.word
  split
  · next h => exact length_afterWord h
  · simp

/-- Behind a string no more characters are left than there were. -/
theorem length_string (cs : List Char) : (Token.string cs).2.length ≤ cs.length := by
  unfold Token.string
  dsimp only
  split
  · next h => exact Nat.le_of_lt (Literal.length_skipFrom h)
  · split <;> exact Nat.zero_le _

/-- A numeral uses up the character that it was found by. -/
theorem length_numeral (negative : Bool) (cs : List Char) :
    (Token.numeral negative cs).2.length ≤ cs.length - 1 := by
  unfold Token.numeral
  split
  · next h => exact Nat.le_sub_one_of_lt (Numeral.length_scan h)
  · exact Nat.zero_le _

/-- A bound that holds of both branches holds of the choice between them. -/
theorem length_ite {p : Prop} [Decidable p] {a b : Token × List Char} {n : Nat}
    (ha : a.2.length ≤ n) (hb : b.2.length ≤ n) : (if p then a else b).2.length ≤ n := by
  by_cases h : p
  · rwa [if_pos h]
  · rwa [if_neg h]

/-- What follows a token's first character is not longer than the text behind it. -/
theorem length_first (c : Char) (cs : List Char) :
    (Token.first c cs).2.length ≤ cs.length := by
  unfold Token.first
  refine length_ite (length_string cs) ?_
  iterate 6 refine length_ite (Nat.le_refl _) ?_
  refine length_ite (length_numeral false (c :: cs)) ?_
  refine length_ite (Nat.le_trans (length_numeral true cs) (Nat.sub_le _ _)) ?_
  iterate 3 refine length_ite (length_word _ _ _) ?_
  exact Nat.le_refl _

/-! ## The tokens of a text -/

/-- The first token of a text and what follows it, if there is one. -/
def firstToken? (cs : List Char) : Option (Token × List Char) :=
  match cs.dropWhile isSpace with
  | [] => none
  | c :: rest => some (Token.first c rest)

/-- Every token uses up a character, so that reading tokens comes to an end. -/
theorem length_firstToken? {cs rest : List Char} {t : Token}
    (h : firstToken? cs = some (t, rest)) : rest.length < cs.length := by
  unfold firstToken? at h
  have hle := Numeral.length_dropWhile_le isSpace cs
  split at h
  · simp at h
  · next c tail heq =>
    have := length_first c tail
    simp only [Option.some.injEq] at h
    rw [h] at this
    rw [heq] at hle
    exact Nat.lt_of_le_of_lt this hle

/-- The tokens of a text behind those in `done`, which holds the last one first. -/
def tokensFrom (done : List Token) (cs : List Char) : List Token :=
  match _h : firstToken? cs with
  | none => done.reverse
  | some (t, rest) => tokensFrom (t :: done) rest
termination_by cs.length
decreasing_by exact length_firstToken? _h

/-- The tokens of a text. -/
def tokens (cs : List Char) : List Token :=
  tokensFrom [] cs

/-- Where no token is found, the tokens so far are all there are. -/
theorem tokensFrom_of_none {done : List Token} {cs : List Char} (h : firstToken? cs = none) :
    tokensFrom done cs = done.reverse := by
  rw [tokensFrom]
  split <;> simp_all

/-- A token that is found is put to the ones so far. -/
theorem tokensFrom_of_some {done : List Token} {cs rest : List Char} {t : Token}
    (h : firstToken? cs = some (t, rest)) :
    tokensFrom done cs = tokensFrom (t :: done) rest := by
  rw [tokensFrom]
  split <;> simp_all

/-- The tokens so far stay in front. -/
theorem tokensFrom_eq (done : List Token) (cs : List Char) :
    tokensFrom done cs = done.reverse ++ tokens cs := by
  induction hn : cs.length using Nat.strongRecOn generalizing done cs with
  | ind n ih =>
    unfold tokens
    cases h : firstToken? cs with
    | none => simp [tokensFrom_of_none h]
    | some p =>
      obtain ⟨t, rest⟩ := p
      have hlt := length_firstToken? h
      rw [tokensFrom_of_some h, tokensFrom_of_some h, ih _ (hn ▸ hlt) (t :: done) rest rfl,
        ih _ (hn ▸ hlt) [t] rest rfl]
      simp

/-- A text in which no token is found has none. -/
theorem tokens_of_none {cs : List Char} (h : firstToken? cs = none) : tokens cs = [] := by
  simp [tokens, tokensFrom_of_none h]

/-- The tokens of a text are the first one and those of what is left behind it. -/
theorem tokens_of_some {cs rest : List Char} {t : Token} (h : firstToken? cs = some (t, rest)) :
    tokens cs = t :: tokens rest := by
  simp [tokens, tokensFrom_of_some h, tokensFrom_eq [t] rest]

end SpeechRelay.Json
