import SpeechRelay.Text.Hex

/-!
# Quoted texts of TOML

A text stands between quotation marks, with escapes, or between apostrophes, without. Between three
of them it may run over several lines: a line break right behind the opening is left out, one or two
marks may stand inside, and behind a backslash at the end of a line all white space is left out.
Line breaks are line feeds here.
-/

set_option autoImplicit false

namespace SpeechRelay.Toml

/-- Whether a text or a comment may hold the character as it is. -/
def isPlain (c : Char) : Bool := c = '\t' || (0x20 ≤ c.toNat && c.toNat ≠ 0x7F)

/-- Whether the character is a space within a line. -/
def isSpace (c : Char) : Bool := c = ' ' || c = '\t'

/-- The character that the hexadecimal digits name. -/
def scalar? (ds : List Char) : Option Char :=
  match ds.mapM Text.hexDigit? with
  | none => none
  | some ns =>
    let n := ns.foldl (fun n d => n * 16 + d) 0
    if n.isValidChar then some (Char.ofNat n) else none

/-- The character that a short escape stands for. -/
def escape? : Char → Option Char
  | 'b' => some '\x08'
  | 't' => some '\t'
  | 'n' => some '\n'
  | 'f' => some '\x0c'
  | 'r' => some '\r'
  | '"' => some '"'
  | '\\' => some '\\'
  | _ => none

/-- The character that the first `length` digits name, and what follows. -/
def numbered (length : Nat) (cs : List Char) : Option (Char × List Char) :=
  if (cs.take length).length = length then (scalar? (cs.take length)).map (·, cs.drop length)
  else none

/-- The character at the front behind a backslash, and what follows. -/
def unescape : List Char → Option (Char × List Char)
  | [] => none
  | 'u' :: cs => numbered 4 cs
  | 'U' :: cs => numbered 8 cs
  | c :: cs => (escape? c).map (·, cs)

/-- The digits of a character do not make what is left longer. -/
theorem length_numbered {length : Nat} {c : Char} {cs rest : List Char}
    (h : numbered length cs = some (c, rest)) : rest.length ≤ cs.length := by
  unfold numbered at h
  split at h
  · simp only [Option.map_eq_some_iff, Prod.mk.injEq] at h
    obtain ⟨_, _, _, rfl⟩ := h
    simp
  · simp at h

/-- An escape uses up a character. -/
theorem length_unescape {c : Char} {cs rest : List Char} (h : unescape cs = some (c, rest)) :
    rest.length < cs.length := by
  unfold unescape at h
  split at h
  · simp at h
  · exact Nat.lt_succ_of_le (length_numbered h)
  · exact Nat.lt_succ_of_le (length_numbered h)
  · simp only [Option.map_eq_some_iff, Prod.mk.injEq] at h
    obtain ⟨_, _, _, rfl⟩ := h
    simp

/-- The text up to the closing quotation mark, and what follows; `done` holds what precedes, the
last first. -/
def basicLine (done : List Char) (cs : List Char) : Option (List Char × List Char) :=
  match cs with
  | [] => none
  | '"' :: cs => some (done.reverse, cs)
  | '\\' :: cs =>
    match _h : unescape cs with
    | none => none
    | some (c, rest) => basicLine (c :: done) rest
  | c :: cs => if isPlain c then basicLine (c :: done) cs else none
termination_by cs.length
decreasing_by
  · have := length_unescape _h
    simp only [List.length_cons]
    omega
  · simp

/-- The text up to the closing apostrophe, and what follows. -/
def literalLine (done : List Char) : List Char → Option (List Char × List Char)
  | [] => none
  | '\'' :: cs => some (done.reverse, cs)
  | c :: cs => if isPlain c then literalLine (c :: done) cs else none

/-- The end of a text of several lines behind three marks: up to two marks more belong to it. -/
def closeLines (mark : Char) (done : List Char) (cs : List Char) : List Char × List Char :=
  match cs with
  | a :: b :: rest =>
    if a = mark ∧ b = mark then ((b :: a :: done).reverse, rest)
    else if a = mark then ((a :: done).reverse, b :: rest)
    else (done.reverse, cs)
  | [a] => if a = mark then ((a :: done).reverse, []) else (done.reverse, cs)
  | [] => (done.reverse, [])

/-- What follows the white space and the line breaks behind a backslash that ends a line. -/
def joinLine? (cs : List Char) : Option (List Char) :=
  match cs.dropWhile isSpace with
  | '\n' :: rest => some (rest.dropWhile fun c => isSpace c || c = '\n')
  | _ => none

/-- Joining a line to the next uses up a character. -/
theorem length_joinLine? {cs rest : List Char} (h : joinLine? cs = some rest) :
    rest.length < cs.length := by
  unfold joinLine? at h
  split at h
  · next tail heq =>
    simp only [Option.some.injEq] at h
    have h1 := (List.dropWhile_sublist isSpace (l := cs)).length_le
    have h2 := (List.dropWhile_sublist (fun c => isSpace c || c = '\n') (l := tail)).length_le
    rw [heq] at h1
    simp only [List.length_cons] at h1
    rw [h] at h2
    omega
  · simp at h

/-- The text up to three closing quotation marks, and what follows. -/
def basicLines (done : List Char) (cs : List Char) : Option (List Char × List Char) :=
  match cs with
  | [] => none
  | '"' :: '"' :: '"' :: rest => some (closeLines '"' done rest)
  | '\\' :: rest =>
    match _h : joinLine? rest with
    | some rest => basicLines done rest
    | none =>
      match _hu : unescape rest with
      | none => none
      | some (c, rest) => basicLines (c :: done) rest
  | c :: rest => if isPlain c || c = '\n' then basicLines (c :: done) rest else none
termination_by cs.length
decreasing_by
  · have := length_joinLine? _h
    simp only [List.length_cons]
    omega
  · have := length_unescape _hu
    simp only [List.length_cons]
    omega
  · simp

/-- The text up to three closing apostrophes, and what follows. -/
def literalLines (done : List Char) : List Char → Option (List Char × List Char)
  | [] => none
  | '\'' :: '\'' :: '\'' :: rest => some (closeLines '\'' done rest)
  | c :: rest => if isPlain c || c = '\n' then literalLines (c :: done) rest else none

/-- What follows a line break at the front, if there is one. -/
def skipBreak : List Char → List Char
  | '\n' :: cs => cs
  | cs => cs

/-- The text at the front within one line, and what follows. -/
def quotedLine? : List Char → Option (List Char × List Char)
  | '"' :: cs => basicLine [] cs
  | '\'' :: cs => literalLine [] cs
  | _ => none

/-- The text at the front, and what follows. -/
def quoted? : List Char → Option (List Char × List Char)
  | '"' :: '"' :: '"' :: cs => basicLines [] (skipBreak cs)
  | '\'' :: '\'' :: '\'' :: cs => literalLines [] (skipBreak cs)
  | cs => quotedLine? cs

end SpeechRelay.Toml
