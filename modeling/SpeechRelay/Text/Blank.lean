/-!
# White space

The 25 characters with the property White_Space, and trimming a text by them. `trim` removes them
from both ends and nothing from between.
-/

set_option autoImplicit false

namespace SpeechRelay.Text

/-- The property White_Space of the Unicode standard. -/
def isBlank (c : Char) : Bool :=
  let n := c.toNat
  (9 ≤ n && n ≤ 13) || n == 0x20 || n == 0x85 || n == 0xA0 || n == 0x1680 ||
    (0x2000 ≤ n && n ≤ 0x200A) || n == 0x2028 || n == 0x2029 || n == 0x202F || n == 0x205F ||
    n == 0x3000

/-- The text without the white space at its end. -/
def trimEnd (cs : List Char) : List Char :=
  (cs.reverse.dropWhile isBlank).reverse

/-- The text without the white space at either end. -/
def trim (cs : List Char) : List Char :=
  trimEnd (cs.dropWhile isBlank)

/-- `trim` on strings. -/
def trimmed (s : String) : String :=
  String.ofList (trim s.toList)

/-- There is nothing to trim of an empty text. -/
@[simp] theorem trim_nil : trim [] = [] := rfl

/-- A text without the blanks at its end is a beginning of it. -/
theorem trimEnd_prefix (cs : List Char) : trimEnd cs <+: cs := by
  have hsuffix : cs.reverse.dropWhile isBlank <:+ cs.reverse := List.dropWhile_suffix isBlank
  have hprefix := List.reverse_prefix.mpr hsuffix
  rwa [List.reverse_reverse] at hprefix

/-- A trimmed text does not end with a blank. -/
theorem getLast?_trim {cs : List Char} {c : Char} (h : (trim cs).getLast? = some c) :
    isBlank c = false := by
  unfold trim trimEnd at h
  rw [List.getLast?_reverse] at h
  have hhead := List.head?_dropWhile_not isBlank (cs.dropWhile isBlank).reverse
  rw [h] at hhead
  simpa using hhead

/-- A trimmed text does not start with a blank. -/
theorem head?_trim {cs : List Char} {c : Char} (h : (trim cs).head? = some c) :
    isBlank c = false := by
  obtain ⟨rest, hrest⟩ := trimEnd_prefix (cs.dropWhile isBlank)
  have hhead := List.head?_dropWhile_not isBlank cs
  have hsame : (cs.dropWhile isBlank).head? = some c := by
    rw [← hrest, List.head?_append]
    unfold trim at h
    rw [h]
    rfl
  rw [hsame] at hhead
  simpa using hhead

end SpeechRelay.Text
