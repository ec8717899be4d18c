/-!
# Hexadecimal digits

Digits of either case are read, and lower-case digits are written.
-/

set_option autoImplicit false

namespace SpeechRelay.Text

/-- The value of a hexadecimal digit of either case. -/
def hexDigit? (c : Char) : Option Nat :=
  if '0' ≤ c ∧ c ≤ '9' then some (c.toNat - 0x30)
  else if 'a' ≤ c ∧ c ≤ 'f' then some (c.toNat - 0x57)
  else if 'A' ≤ c ∧ c ≤ 'F' then some (c.toNat - 0x37)
  else none

/-- The lower-case digit of a value below 16. -/
def hexChar (n : Nat) : Char := Nat.digitChar n

/-- A digit that is written is read back. -/
theorem hexDigit?_hexChar {n : Nat} (h : n < 16) : hexDigit? (hexChar n) = some n := by
  have : ∀ m : Fin 16, hexDigit? (hexChar m) = some m.val := by decide
  exact this ⟨n, h⟩

end SpeechRelay.Text
