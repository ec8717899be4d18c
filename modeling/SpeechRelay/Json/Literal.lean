import SpeechRelay.Json.Error
import SpeechRelay.Text.Hex

/-!
# String literals of JSON

`Literal.decode` reads a string literal from behind its opening quote; `Literal.skip` only looks
for its end, and lets halves of surrogate pairs pass; `Literal.encode` writes a text between the
quotes. Whatever `decode` accepts, `skip` accepts too, and both stop at the same place.
-/

set_option autoImplicit false

namespace SpeechRelay.Json.Literal

/-- The character that a backslash and a letter stand for. -/
def shortEscape? (c : Char) : Option Char :=
  if c = '\"' ∨ c = '\\' ∨ c = '/' then some c
  else if c = 'b' then some (Char.ofNat 0x08)
  else if c = 'f' then some (Char.ofNat 0x0C)
  else if c = 'n' then some '\n'
  else if c = 'r' then some '\r'
  else if c = 't' then some '\t'
  else none

/-- Whether the text is too short for four hexadecimal digits; it is measured in the bytes of its
characters. -/
def tooShort (cs : List Char) : Bool :=
  (cs.take 4).foldl (fun size c => size + c.utf8Size) 0 < 4

/-- The first half of a surrogate pair. -/
def isHigh (n : Nat) : Bool := 0xD800 ≤ n && n ≤ 0xDBFF

/-- The second half of a surrogate pair. -/
def isLow (n : Nat) : Bool := 0xDC00 ≤ n && n ≤ 0xDFFF

/-- The character that a surrogate pair stands for. -/
def ofPair (high low : Nat) : Char :=
  Char.ofNat (0x10000 + (high - 0xD800) * 0x400 + (low - 0xDC00))

/-- Where in a string literal the reader is. -/
inductive Spot where
  | plain
  /-- Behind a backslash. -/
  | escape
  /-- Behind `seen` hexadecimal digits with that value, perhaps of the second half of a pair. -/
  | hex (seen value : Nat) (high : Option Nat)
  /-- Behind the first half of a pair: a backslash has to follow. -/
  | pairBackslash (high : Nat)
  /-- Behind the first half of a pair and a backslash: a `u` has to follow. -/
  | pairLetter (high : Nat)

/-- What four hexadecimal digits amount to: a character, or the first half of a pair. -/
def unit (n : Nat) : Option Nat → Except ReadError (Char ⊕ Nat)
  | none =>
    if isLow n then .error .loneSurrogate
    else if isHigh n then .ok (.inr n)
    else .ok (.inl (Char.ofNat n))
  | some high => if isLow n then .ok (.inl (ofPair high n)) else .error .loneSurrogate

/-- Reads the rest of a string literal; `done` holds the characters so far, last one first. -/
def decodeFrom : Spot → List Char → List Char → Except ReadError (List Char × List Char)
  | _, _, [] => .error (.ended .text)
  | .plain, done, c :: cs =>
    if c = '\"' then .ok (done.reverse, cs)
    else if c = '\\' then decodeFrom .escape done cs
    else if c.toNat < 0x20 then .error .controlCharacter
    else decodeFrom .plain (c :: done) cs
  | .escape, done, c :: cs =>
    if c = 'u' then decodeFrom (.hex 0 0 none) done cs
    else match shortEscape? c with
      | some d => decodeFrom .plain (d :: done) cs
      | none => .error .invalidEscape
  | .hex seen value high, done, c :: cs =>
    if seen = 0 ∧ tooShort (c :: cs) then .error (.ended .text)
    else match Text.hexDigit? c with
      | none => .error .invalidEscape
      | some d =>
        if seen < 3 then decodeFrom (.hex (seen + 1) (value * 16 + d) high) done cs
        else match unit (value * 16 + d) high with
          | .error e => .error e
          | .ok (.inl ch) => decodeFrom .plain (ch :: done) cs
          | .ok (.inr n) => decodeFrom (.pairBackslash n) done cs
  | .pairBackslash high, done, c :: cs =>
    if c = '\\' then decodeFrom (.pairLetter high) done cs else .error .unfinishedPair
  | .pairLetter high, done, c :: cs =>
    if c = 'u' then decodeFrom (.hex 0 0 (some high)) done cs else .error .unfinishedPair

/-- The text of the literal behind an opening quote, and what follows the closing quote. -/
def decode (cs : List Char) : Except ReadError (List Char × List Char) :=
  decodeFrom .plain [] cs

/-- Where in a string literal one is who only looks for its end. -/
inductive SkipSpot where
  | plain
  | escape
  /-- Behind `seen` hexadecimal digits. -/
  | hex (seen : Nat)

/-- What follows the closing quote. -/
def skipFrom : SkipSpot → List Char → Except ReadError (List Char)
  | _, [] => .error (.ended .text)
  | .plain, c :: cs =>
    if c = '\"' then .ok cs
    else if c = '\\' then skipFrom .escape cs
    else if c.toNat < 0x20 then .error .controlCharacter
    else skipFrom .plain cs
  | .escape, c :: cs =>
    if c = 'u' then skipFrom (.hex 0) cs
    else if (shortEscape? c).isSome then skipFrom .plain cs
    else .error .invalidEscape
  | .hex seen, c :: cs =>
    if seen = 0 ∧ tooShort (c :: cs) then .error (.ended .text)
    else if (Text.hexDigit? c).isNone then .error .invalidEscape
    else if seen < 3 then skipFrom (.hex (seen + 1)) cs
    else skipFrom .plain cs

/-- What follows the closing quote of the literal behind an opening quote. -/
def skip (cs : List Char) : Except ReadError (List Char) :=
  skipFrom .plain cs

/-- One character between the quotes: a letter for the five controls that have one, a number for
the other controls below the space, and every other character as it is. -/
def encodeChar (c : Char) : List Char :=
  if c = '\"' then ['\\', '\"']
  else if c = '\\' then ['\\', '\\']
  else if c.toNat = 0x08 then ['\\', 'b']
  else if c.toNat = 0x0C then ['\\', 'f']
  else if c = '\n' then ['\\', 'n']
  else if c = '\r' then ['\\', 'r']
  else if c = '\t' then ['\\', 't']
  else if c.toNat < 0x20 then
    ['\\', 'u', '0', '0', Text.hexChar (c.toNat / 16), Text.hexChar (c.toNat % 16)]
  else [c]

/-- The text between quotes. -/
def encode (cs : List Char) : List Char :=
  '\"' :: cs.flatMap encodeChar ++ ['\"']

/-- A literal that was skipped leaves a shorter text. -/
theorem length_skipFrom {spot : SkipSpot} {cs rest : List Char}
    (h : skipFrom spot cs = .ok rest) : rest.length < cs.length := by
  induction cs generalizing spot with
  | nil => simp [skipFrom] at h
  | cons c cs ih =>
    cases spot <;> simp only [skipFrom] at h
    · split at h
      · cases h; simp
      · split at h
        · exact Nat.lt_succ_of_lt (ih h)
        · split at h
          · simp at h
          · exact Nat.lt_succ_of_lt (ih h)
    · split at h
      · exact Nat.lt_succ_of_lt (ih h)
      · split at h
        · exact Nat.lt_succ_of_lt (ih h)
        · simp at h
    · split at h
      · simp at h
      · split at h
        · simp at h
        · split at h <;> exact Nat.lt_succ_of_lt (ih h)

end SpeechRelay.Json.Literal
