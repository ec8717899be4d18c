import SpeechRelay.Json.Writer
import SpeechRelay.Proofs.Json.Values

/-!
# What is written reads back

A text is written as a literal that spells it (`Literal.spells_encode`), a natural number by its
digits (`derives_natural`), and a list or an object as the grammar has it if its values are
(`derives_list`, `derives_object`). What is written for a text holds no control character, nor does
an object of such values (`plain_encode`, `plain_object`): the escapes stand for all of them.
-/

set_option autoImplicit false

namespace SpeechRelay.Json

/-- There is no control character among the characters. -/
def Plain (cs : List Char) : Prop := ∀ c ∈ cs, 0x20 ≤ c.toNat

namespace Plain

variable {c : Char} {cs more : List Char}

/-- No characters hold no control character. -/
theorem nil : Plain [] := by
  intro c hmem
  cases hmem

/-- A character that is no control character can be put in front. -/
theorem cons (hc : 0x20 ≤ c.toNat) (h : Plain cs) : Plain (c :: cs) := by
  intro d hmem
  rcases List.mem_cons.mp hmem with rfl | hmem
  · exact hc
  · exact h d hmem

/-- Plain texts one after the other are plain. -/
theorem append (h : Plain cs) (hmore : Plain more) : Plain (cs ++ more) := by
  intro d hmem
  rcases List.mem_append.mp hmem with hmem | hmem
  · exact h d hmem
  · exact hmore d hmem

end Plain

/-! ## Texts -/

namespace Literal

open Text (hexChar hexDigit?)

/-- The number of a control character in four digits. -/
theorem quad_hexChar {n : Nat} (h : n < 0x20) :
    Quad ['0', '0', hexChar (n / 16), hexChar (n % 16)] n := by
  have hzero : hexDigit? '0' = some 0 := by decide
  have htens : hexDigit? (hexChar (n / 16)) = some (n / 16) := Text.hexDigit?_hexChar (by omega)
  have hones : hexDigit? (hexChar (n % 16)) = some (n % 16) := Text.hexDigit?_hexChar (by omega)
  have hquad := Quad.mk hzero hzero htens hones
  have hvalue : ((0 * 16 + 0) * 16 + n / 16) * 16 + n % 16 = n := by omega
  rwa [hvalue] at hquad

/-- A character is written behind a backslash as a letter, behind a backslash as its number, or as it
is. -/
theorem encodeChar_cases (c : Char) :
    (∃ e, shortEscape? e = some c ∧ 0x20 ≤ e.toNat ∧ encodeChar c = ['\\', e]) ∨
    (c.toNat < 0x20 ∧
      encodeChar c = ['\\', 'u', '0', '0', hexChar (c.toNat / 16), hexChar (c.toNat % 16)]) ∨
    (c ≠ '\"' ∧ c ≠ '\\' ∧ 0x20 ≤ c.toNat ∧ encodeChar c = [c]) := by
  have hcode {n : Nat} (hn : c.toNat = n) : some (Char.ofNat n) = some c := by
    rw [← hn, Char.ofNat_toNat]
  unfold encodeChar
  split
  · next hquote => exact Or.inl ⟨'\"', by rw [hquote]; decide, by decide, rfl⟩
  next hquote =>
  split
  · next hslash => exact Or.inl ⟨'\\', by rw [hslash]; decide, by decide, rfl⟩
  next hslash =>
  split
  · next hback => exact Or.inl ⟨'b', hcode hback, by decide, rfl⟩
  split
  · next hfeed => exact Or.inl ⟨'f', hcode hfeed, by decide, rfl⟩
  split
  · next hline => exact Or.inl ⟨'n', by rw [hline]; decide, by decide, rfl⟩
  split
  · next hreturn => exact Or.inl ⟨'r', by rw [hreturn]; decide, by decide, rfl⟩
  split
  · next htab => exact Or.inl ⟨'t', by rw [htab]; decide, by decide, rfl⟩
  split
  · next hcontrol => exact Or.inr (Or.inl ⟨hcontrol, rfl⟩)
  · next hcontrol => exact Or.inr (Or.inr ⟨hquote, hslash, by omega, rfl⟩)

/-- Whatever a character is written as, it spells the character. -/
theorem spells_encodeChar (c : Char) {body text : List Char} (h : Spells body text) :
    Spells (encodeChar c ++ body) (c :: text) := by
  rcases encodeChar_cases c with ⟨e, he, -, heq⟩ | ⟨hcontrol, heq⟩ | ⟨hquote, hslash, hprint, heq⟩
  · rw [heq]
    exact .short he h
  · -- A control character is no half of a pair.
    have hhigh : isHigh c.toNat = false := by
      simp [isHigh]
      omega
    have hlow : isLow c.toNat = false := by
      simp [isLow]
      omega
    have hunit := Spells.unit (quad_hexChar hcontrol) hhigh hlow h
    rw [Char.ofNat_toNat] at hunit
    rw [heq]
    exact hunit
  · rw [heq]
    exact .plain hquote hslash hprint h

/-- An encoded text spells that text. -/
theorem spells_encode (cs : List Char) : Spells (cs.flatMap encodeChar) cs := by
  induction cs with
  | nil => exact .nil
  | cons c cs ih =>
    rw [List.flatMap_cons]
    exact spells_encodeChar c ih

/-- A hexadecimal digit is no control character. -/
theorem plain_hexChar {n : Nat} (h : n < 16) : 0x20 ≤ (hexChar n).toNat := by
  have hall : ∀ m : Fin 16, 0x20 ≤ (hexChar m).toNat := by decide
  exact hall ⟨n, h⟩

/-- However a character is encoded, no control character is used for it. -/
theorem plain_encodeChar (c : Char) : Plain (encodeChar c) := by
  rcases encodeChar_cases c with ⟨e, -, he, heq⟩ | ⟨hcontrol, heq⟩ | ⟨-, -, hprint, heq⟩
  · rw [heq]
    exact .cons (by decide) (.cons he .nil)
  · have htens : 0x20 ≤ (hexChar (c.toNat / 16)).toNat := plain_hexChar (by omega)
    have hones : 0x20 ≤ (hexChar (c.toNat % 16)).toNat := plain_hexChar (by omega)
    have hdigits : Plain [hexChar (c.toNat / 16), hexChar (c.toNat % 16)] :=
      .cons htens (.cons hones .nil)
    rw [heq]
    iterate 4 apply Plain.cons (by decide)
    exact hdigits
  · rw [heq]
    exact .cons hprint .nil

/-- A text is written without control characters, whatever characters it has. -/
theorem plain_encode (cs : List Char) : Plain (encode cs) := by
  have hbody : Plain (cs.flatMap encodeChar) := by
    intro d hmem
    obtain ⟨c, -, hc⟩ := List.mem_flatMap.mp hmem
    exact plain_encodeChar c d hc
  unfold encode
  exact .append (.cons (by decide) hbody) (.cons (by decide) .nil)

end Literal

/-- An encoded text stands in quotes. -/
theorem quoted_encode (s : String) : Quoted s (Literal.encode s.toList) := by
  have hquoted := Quoted.mk .nil (Literal.spells_encode s.toList) .nil
  rwa [String.ofList_toList] at hquoted

/-- A text that is written is derived as a value at any level. -/
theorem derives_text (d : Nat) (s : String) : Derives d (.value (.text s)) (write (.text s)) := by
  have hderives : Derives d _ _ := .text (Literal.spells_encode s.toList)
  rw [String.ofList_toList] at hderives
  rw [write]
  exact hderives

/-- A text is written without control characters. -/
theorem plain_text (s : String) : Plain (write (.text s)) := by
  rw [write]
  exact Literal.plain_encode s.toList

/-! ## Natural numbers -/

namespace Numeral

/-- A digit more multiplies the value by ten and adds the digit. -/
theorem natValue_append (ds : List Char) (c : Char) :
    natValue (ds ++ [c]) = natValue ds * 10 + digit c := by
  rw [natValue, List.foldl_append]
  rfl

/-- The digit of a number below ten has that number as its value. -/
theorem digit_digitChar {n : Nat} (h : n < 10) : digit n.digitChar = n := by
  rw [digit, Nat.toNat_digitChar_of_lt_ten h]
  exact Nat.add_sub_cancel_left 48 n

/-- The decimal digits of a number have it as their value. -/
theorem natValue_toDigits (n : Nat) : natValue (Nat.toDigits 10 n) = n := by
  induction n using Nat.strongRecOn with
  | ind n ih =>
    by_cases hn : n < 10
    · rw [Nat.toDigits_of_lt_base hn]
      exact (Nat.zero_add _).trans (digit_digitChar hn)
    · rw [Nat.toDigits_of_base_le (by decide) (Nat.not_lt.mp hn), natValue_append,
        ih (n / 10) (by omega), digit_digitChar (Nat.mod_lt n (by decide))]
      exact Nat.div_add_mod' n 10

/-- A digit may be put behind the digits before the point, but not behind a single zero. -/
theorem Whole.append {ds : List Char} {c : Char} (h : Whole ds) (hne : ds ≠ ['0'])
    (hc : c.isDigit) : Whole (ds ++ [c]) := by
  cases h with
  | zero => exact absurd rfl hne
  | digits hfirst hzero hds =>
    refine .digits hfirst hzero fun d hmem => ?_
    rcases List.mem_append.mp hmem with hmem | hmem
    · exact hds d hmem
    · rwa [List.mem_singleton.mp hmem]

/-- In decimal a number has no zeros in front of it. -/
theorem whole_toDigits (n : Nat) : Whole (Nat.toDigits 10 n) := by
  induction n using Nat.strongRecOn with
  | ind n ih =>
    by_cases hn : n < 10
    · rw [Nat.toDigits_of_lt_base hn]
      by_cases hzero : n = 0
      · subst hzero
        exact .zero
      · exact .digits (by simpa using hn) (by simpa using hzero) (List.forall_mem_nil _)
    · rw [Nat.toDigits_of_base_le (by decide) (Nat.not_lt.mp hn)]
      have hvalue := natValue_toDigits (n / 10)
      refine (ih (n / 10) (by omega)).append (fun hzero => ?_) ?_
      · rw [hzero] at hvalue
        have hquotient : 0 = n / 10 := hvalue
        omega
      · simpa using Nat.mod_lt n (by decide)

end Numeral

/-- A natural number is written as the grammar has it if it fits a word. -/
theorem derives_natural (d : Nat) {n : Nat} (h : n < 0x10000000000000000) :
    Derives d (.value (.number (.integer n))) (write (.number (.integer n))) := by
  have hvalue := Numeral.natValue_toDigits n
  have hinteger : Numeral.Integer ⟨false, Nat.toDigits 10 n, [], none⟩ n := by
    have hnatural := Numeral.Integer.natural (n := ⟨false, Nat.toDigits 10 n, [], none⟩) rfl rfl
      rfl (hvalue.symm ▸ h)
    rwa [hvalue] at hnatural
  have hwritten : Numeral.Written ⟨false, Nat.toDigits 10 n, [], none⟩ (Nat.toDigits 10 n) := by
    have hunsigned := Numeral.Unsigned.mk (n := ⟨false, Nat.toDigits 10 n, [], none⟩)
      (Numeral.whole_toDigits n) .none .none
    rw [List.append_nil, List.append_nil] at hunsigned
    exact .natural rfl hunsigned
  have hdigits : write (.number (.integer n)) = Nat.toDigits 10 n := by
    rw [write, Number.write, writeInteger, if_neg (Int.not_lt.mpr (Int.natCast_nonneg n)),
      Int.natAbs_natCast]
  rw [hdigits]
  exact .integer hwritten hinteger

/-! ## Lists -/

section Lists

variable {d : Nat}

/-- Items are written up to the end of their list. -/
theorem derives_writeItems (v : Json) (vs : List Json)
    (h : ∀ x ∈ v :: vs, Derives d (.value x) (write x)) :
    ∃ cs, write v ++ writeItems vs = cs ++ [']'] ∧ Derives d (.items (v :: vs)) cs := by
  induction vs generalizing v with
  | nil =>
    refine ⟨write v, by rw [writeItems], ?_⟩
    exact .item (h v List.mem_cons_self)
  | cons next vs ih =>
    obtain ⟨cs, hcs, hitems⟩ := ih next fun x hx => h x (List.mem_cons_of_mem _ hx)
    refine ⟨write v ++ ',' :: cs, ?_, .items (h v List.mem_cons_self) hitems⟩
    rw [writeItems, List.cons_append, hcs]
    simp

/-- A list is written as the grammar has it if its items are. -/
theorem derives_list (vs : List Json) (h : ∀ v ∈ vs, Derives d (.value v) (write v)) :
    Derives (d + 1) (.value (.list vs)) (write (.list vs)) := by
  cases vs with
  | nil =>
    rw [write]
    exact .noItems .nil
  | cons v vs =>
    obtain ⟨cs, hcs, hitems⟩ := derives_writeItems v vs h
    rw [write, List.cons_append, hcs]
    exact .list hitems

end Lists

/-! ## Objects -/

section Objects

variable {d : Nat}

/-- Members are written up to the end of their object. -/
theorem derives_writeMembers (m : String × Json) (ms : List (String × Json))
    (h : ∀ x ∈ m :: ms, Derives d (.value x.2) (write x.2)) :
    ∃ cs, writeMember m ++ writeMembers ms = cs ++ ['\x7d'] ∧
      Derives d (.members (m :: ms)) cs := by
  induction ms generalizing m with
  | nil =>
    obtain ⟨name, v⟩ := m
    have hv : Derives d (.value v) (write v) := h (name, v) List.mem_cons_self
    refine ⟨writeMember (name, v), by rw [writeMembers], ?_⟩
    rw [writeMember]
    exact .member (quoted_encode name) hv
  | cons next ms ih =>
    obtain ⟨name, v⟩ := m
    have hv : Derives d (.value v) (write v) := h (name, v) List.mem_cons_self
    obtain ⟨cs, hcs, hmembers⟩ := ih next fun x hx => h x (List.mem_cons_of_mem _ hx)
    refine ⟨Literal.encode name.toList ++ ':' :: (write v ++ ',' :: cs), ?_, ?_⟩
    · rw [writeMembers, List.cons_append, hcs, writeMember]
      simp
    · exact .members (quoted_encode name) hv hmembers

/-- An object is written as the grammar has it if its values are. -/
theorem derives_object (ms : List (String × Json))
    (h : ∀ m ∈ ms, Derives d (.value m.2) (write m.2)) :
    Derives (d + 1) (.value (.object ms)) (write (.object ms)) := by
  cases ms with
  | nil =>
    rw [write]
    exact .noMembers .nil
  | cons m ms =>
    obtain ⟨cs, hcs, hmembers⟩ := derives_writeMembers m ms h
    rw [write, List.cons_append, hcs]
    exact .object hmembers

/-- A member is written without control characters if its value is. -/
theorem plain_writeMember {m : String × Json} (h : Plain (write m.2)) : Plain (writeMember m) := by
  obtain ⟨name, v⟩ := m
  rw [writeMember]
  exact .append (Literal.plain_encode name.toList) (.cons (by decide) h)

/-- And it has no control characters if its values have none. -/
theorem plain_object (ms : List (String × Json)) (h : ∀ m ∈ ms, Plain (write m.2)) :
    Plain (write (.object ms)) := by
  have hmembers (ms : List (String × Json)) (h : ∀ m ∈ ms, Plain (write m.2)) :
      Plain (writeMembers ms) := by
    induction ms with
    | nil =>
      rw [writeMembers]
      exact .cons (by decide) .nil
    | cons m ms ih =>
      rw [writeMembers]
      have hfirst := plain_writeMember (h m List.mem_cons_self)
      have hrest := ih fun x hx => h x (List.mem_cons_of_mem m hx)
      exact .append (.cons (by decide) hfirst) hrest
  cases ms with
  | nil =>
    rw [write]
    exact .cons (by decide) (.cons (by decide) .nil)
  | cons m ms =>
    rw [write]
    have hfirst := plain_writeMember (h m List.mem_cons_self)
    have hrest := hmembers ms fun x hx => h x (List.mem_cons_of_mem m hx)
    exact .append (.cons (by decide) hfirst) hrest

end Objects

end SpeechRelay.Json
