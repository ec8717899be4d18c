/-!
# Classes of characters as ranges

A class of characters is a list of ranges of code points, both ends included.
-/

set_option autoImplicit false

namespace SpeechRelay.Text

/-- Whether one of the ranges, both ends included, holds the number. -/
def inRanges (ranges : List (Nat × Nat)) (n : Nat) : Bool :=
  ranges.any fun r => r.1 ≤ n && n ≤ r.2

end SpeechRelay.Text
