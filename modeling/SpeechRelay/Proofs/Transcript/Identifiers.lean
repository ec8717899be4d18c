import Mathlib.Algebra.Ring.Nat
import SpeechRelay.Transcript.Uuid

/-!
# Written identifiers

The one written form of an identifier is five groups of lower-case digits between dashes
(`Uuid.Canonical`). `Uuid.write` writes it, and the digits are those of the identifier's bits: read
back, they give the identifier (`Uuid.canonical_write`).
-/

set_option autoImplicit false

namespace SpeechRelay.Uuid

open Text (hexChar hexDigit?)

/-- That many lower-case hexadecimal digits. -/
def LowerDigits (count : Nat) (cs : List Char) : Prop :=
  cs.length = count ∧ ∀ c ∈ cs, ('0' ≤ c ∧ c ≤ '9') ∨ ('a' ≤ c ∧ c ≤ 'f')

/-- The written form of an identifier. -/
inductive Canonical (id : Uuid) : List Char → Prop where
  | mk {a b c d e : List Char} (ha : LowerDigits 8 a) (hb : LowerDigits 4 b)
      (hc : LowerDigits 4 c) (hd : LowerDigits 4 d) (he : LowerDigits 12 e)
      (hreads : ofText? (String.ofList (a ++ b ++ c ++ d ++ e)) = some id) :
      Canonical id (a ++ '-' :: b ++ '-' :: c ++ '-' :: d ++ '-' :: e)

/-! ## Digits -/

/-- A digit of an identifier is below sixteen. -/
theorem digit_lt (id : Uuid) (place : Nat) : id.digit place < 16 := by
  unfold digit
  exact Nat.mod_lt _ (by decide)

/-- Hexadecimal digits are written in lower case. -/
theorem lower_hexChar {n : Nat} (h : n < 16) :
    ('0' ≤ hexChar n ∧ hexChar n ≤ '9') ∨ ('a' ≤ hexChar n ∧ hexChar n ≤ 'f') := by
  have hall : ∀ m : Fin 16, ('0' ≤ hexChar m ∧ hexChar m ≤ '9') ∨
      ('a' ≤ hexChar m ∧ hexChar m ≤ 'f') := by decide
  exact hall ⟨n, h⟩

/-- A hexadecimal digit is no dash. -/
theorem hexChar_ne_dash {n : Nat} (h : n < 16) : hexChar n ≠ '-' := by
  have hall : ∀ m : Fin 16, hexChar m ≠ '-' := by decide
  exact hall ⟨n, h⟩

section Group

variable (id : Uuid)

/-- A group of digits is written with one character for each. -/
theorem lowerDigits_group (start stop : Nat) :
    LowerDigits (stop - start) (id.group start stop) := by
  unfold group
  refine ⟨by simp, fun c hmem => ?_⟩
  obtain ⟨i, -, rfl⟩ := List.mem_map.mp hmem
  exact lower_hexChar (id.digit_lt i)

/-- Groups next to each other are one group. -/
theorem group_append {start middle stop : Nat} (h : start ≤ middle) (h' : middle ≤ stop) :
    id.group start middle ++ id.group middle stop = id.group start stop := by
  have hsplit : List.range' start (middle - start) ++ List.range' middle (stop - middle) =
      List.range' start (stop - start) := by
    have happend := List.range'_append_1 (s := start) (m := middle - start) (n := stop - middle)
    have hmiddle : start + (middle - start) = middle := by omega
    have htotal : middle - start + (stop - middle) = stop - start := by omega
    rwa [hmiddle, htotal] at happend
  unfold group
  rw [← List.map_append, hsplit]

/-- There are no dashes within a group. -/
theorem filter_group (start stop : Nat) :
    (id.group start stop).filter (· ≠ '-') = id.group start stop := by
  apply List.filter_eq_self.mpr
  intro c hmem
  obtain ⟨i, -, rfl⟩ := List.mem_map.mp hmem
  simpa using hexChar_ne_dash (id.digit_lt i)

/-- The digits of a group are read one by one. -/
theorem mapM_group (start stop : Nat) :
    (id.group start stop).mapM hexDigit? =
      some ((List.range' start (stop - start)).map id.digit) := by
  unfold group
  induction List.range' start (stop - start) with
  | nil => rfl
  | cons i is ih =>
    have hdigit : hexDigit? (hexChar (id.digit i)) = some (id.digit i) :=
      Text.hexDigit?_hexChar (id.digit_lt i)
    simp [List.mapM_cons, hdigit, ih]

/-- The first digits amount to the bits in front of the others. -/
theorem foldl_digits {k : Nat} (hk : k ≤ 32) :
    ((List.range k).map id.digit).foldl (fun n d => n * 16 + d) 0 =
      id.bits.toNat / 16 ^ (32 - k) := by
  induction k with
  | zero =>
    have hlt : id.bits.toNat < 16 ^ (32 - 0) := id.bits.isLt
    rw [Nat.div_eq_of_lt hlt]
    rfl
  | succ k ih =>
    have hplace : 32 - k = 31 - k + 1 := by omega
    have hdigit : id.digit k = id.bits.toNat / 16 ^ (31 - k) % 16 := rfl
    have hshift : 32 - (k + 1) = 31 - k := by omega
    rw [List.range_succ, List.map_append, List.foldl_append, ih (by omega), hplace, Nat.pow_succ,
      ← Nat.div_div_eq_div_mul, hshift]
    simp only [List.map_cons, List.map_nil, List.foldl_cons, List.foldl_nil, hdigit]
    omega

/-- All digits together read as the identifier. -/
theorem ofText?_group : ofText? (String.ofList (id.group 0 32)) = some id := by
  have hvalue := id.foldl_digits (k := 32) (Nat.le_refl 32)
  rw [List.range_eq_range', Nat.sub_self, Nat.pow_zero, Nat.div_one] at hvalue
  unfold ofText?
  rw [String.toList_ofList, filter_group, mapM_group]
  simp [hvalue]

end Group

/-- An identifier is written in its one form. -/
theorem canonical_write (id : Uuid) : Canonical id id.write := by
  have hall : id.group 0 8 ++ id.group 8 12 ++ id.group 12 16 ++ id.group 16 20 ++ id.group 20 32 =
      id.group 0 32 := by
    iterate 4 rw [group_append id (by decide) (by decide)]
  unfold write
  refine .mk (id.lowerDigits_group 0 8) (id.lowerDigits_group 8 12) (id.lowerDigits_group 12 16)
    (id.lowerDigits_group 16 20) (id.lowerDigits_group 20 32) ?_
  rw [hall]
  exact id.ofText?_group

end SpeechRelay.Uuid
