import SpeechRelay.Json.Skip

/-!
# Records

A record with named fields is written as an object or as the list of its fields in order. In an
object the members may come in any order; a member that is no field is passed over, a field may
come only once, and a field that is left out must be one that has a default. A list may leave out
fields with a default at its end and has nothing behind the last field. Fields are checked as they
are met, so that the first problem in the text is the one reported.
-/

set_option autoImplicit false

namespace SpeechRelay.Json

/-- What a field holds. -/
inductive FieldKind where
  /-- A text; the field may not be left out. -/
  | text
  /-- Any value; null if the field is left out. -/
  | any
  deriving DecidableEq

/-- A field of a record. -/
structure Field where
  name : String
  kind : FieldKind

/-- The description of a record. -/
structure Shape where
  name : String
  fields : List Field

namespace Shape

/-- The record as messages call it. -/
def describe (s : Shape) : String := "struct " ++ s.name

/-- The record and its number of fields, as messages call it. -/
def describeLength (s : Shape) : String :=
  s.describe ++ " with " ++ toString s.fields.length ++
    (if s.fields.length = 1 then " element" else " elements")

/-- The field of that name. -/
def field? (s : Shape) (name : String) : Option Field := s.fields.find? (·.name = name)

end Shape

/-- How many containers may be open within a record at a time, less one. -/
def roomInRecord : Nat := depthLimit - 1

/-- What a token shows where a value of another shape is wanted. -/
def Token.mismatch (t : Token) (wanted : String) : ReadError :=
  match t with
  | .null => .wrongType .null wanted
  | .truth b => .wrongType (.truth b) wanted
  | .number (.ok n) => .wrongType n.found wanted
  | .number (.error e) => e
  | .text (.ok s) => .wrongType (.text s) wanted
  | .text (.error e) => e
  | .openList => .wrongType .list wanted
  | .openObject => .wrongType .object wanted
  | .brokenWord e | .brokenNumber e | .brokenText e _ => e
  | .closeList | .closeObject | .comma | .colon | .stray _ => .expectedValue

/-- The value of a field at the front of the tokens. -/
def readField (kind : FieldKind) (ts : List Token) : Except ReadError (Json × List Token) :=
  match kind with
  | .any => read roomInRecord (.value .alone) [] ts
  | .text =>
    match ts with
    | [] => .error (.ended .value)
    | .text (.ok s) :: rest => .ok (.text s, rest)
    | t :: _ => .error (t.mismatch "a string")

/-- A field that is read leaves no more tokens than there were. -/
theorem length_readField {kind : FieldKind} {ts rest : List Token} {v : Json}
    (h : readField kind ts = .ok (v, rest)) : rest.length ≤ ts.length := by
  unfold readField at h
  split at h
  · exact length_read h
  · split at h
    · simp at h
    · simp only [Except.ok.injEq, Prod.mk.injEq] at h
      simp [h.2]
    · simp at h

/-! ## As an object -/

/-- What is behind the colon, if a colon is there. -/
def afterColon : List Token → Except ReadError (List Token)
  | .colon :: ts => .ok ts
  | [] => .error (.ended .object)
  | _ :: _ => .error .expectedColon

/-- The name of a member where one has to stand. -/
def memberName : List Token → Except ReadError (String × List Token)
  | .text (.ok s) :: ts => .ok (s, ts)
  | .text (.error e) :: _ | .brokenText e _ :: _ => .error e
  | .closeObject :: _ => .error .trailingComma
  | [] => .error (.ended .value)
  | _ :: _ => .error .keyNotText

/-- The name of the next member, or `none` at the end of the object; `first` says that no member
precedes. -/
def nextName (first : Bool) : List Token → Except ReadError (Option (String × List Token))
  | [] => .error (.ended .object)
  | .closeObject :: _ => .ok none
  | t :: ts =>
    if first then (memberName (t :: ts)).map some
    else match t with
      | .comma => (memberName ts).map some
      | _ => .error .expectedObjectEnd

/-- One member behind its name: added to the fields, or passed over. -/
def readMember (s : Shape) (got : List (String × Json)) (name : String) (ts : List Token) :
    Except ReadError (List (String × Json) × List Token) :=
  match s.field? name with
  | none =>
    match afterColon ts with
    | .error e => .error e
    | .ok ts =>
      match skip (.value false) [] ts with
      | .error e => .error e
      | .ok rest => .ok (got, rest)
  | some f =>
    if got.any (·.1 = name) then .error (.duplicateField name)
    else match afterColon ts with
      | .error e => .error e
      | .ok ts =>
        match readField f.kind ts with
        | .error e => .error e
        | .ok (v, rest) => .ok (got ++ [(name, v)], rest)

/-- Reading a colon uses up a token. -/
theorem length_afterColon {ts rest : List Token} (h : afterColon ts = .ok rest) :
    rest.length < ts.length := by
  unfold afterColon at h
  split at h <;> simp_all

/-- Reading the name of a member uses up a token. -/
theorem length_memberName {ts rest : List Token} {name : String}
    (h : memberName ts = .ok (name, rest)) : rest.length < ts.length := by
  unfold memberName at h
  split at h <;> simp_all

/-- Reading the name of the next member uses up a token. -/
theorem length_nextName {first : Bool} {ts rest : List Token} {name : String}
    (h : nextName first ts = .ok (some (name, rest))) : rest.length < ts.length := by
  unfold nextName at h
  have key : ∀ {us : List Token}, (memberName us).map some = .ok (some (name, rest)) →
      rest.length < us.length := by
    intro us hu
    cases hm : memberName us with
    | error e => simp [hm, Except.map] at hu
    | ok p =>
      simp only [hm, Except.map, Except.ok.injEq, Option.some.injEq] at hu
      exact length_memberName (hu ▸ hm)
  split at h
  · simp at h
  · simp at h
  · split at h
    · exact key h
    · split at h
      · exact Nat.lt_succ_of_lt (key h)
      · simp at h

/-- A member that is read leaves fewer tokens, so that reading members comes to an end. -/
theorem length_readMember {s : Shape} {got got' : List (String × Json)} {name : String}
    {ts rest : List Token} (h : readMember s got name ts = .ok (got', rest)) :
    rest.length < ts.length := by
  unfold readMember at h
  split at h
  · split at h
    · simp at h
    · next us hc =>
      split at h
      · simp at h
      · next r hs =>
        simp only [Except.ok.injEq, Prod.mk.injEq] at h
        exact h.2 ▸ Nat.lt_of_le_of_lt (length_skip hs) (length_afterColon hc)
  · split at h
    · simp at h
    · split at h
      · simp at h
      · next us hc =>
        split at h
        · simp at h
        · next v r hf =>
          simp only [Except.ok.injEq, Prod.mk.injEq] at h
          exact h.2 ▸ Nat.lt_of_le_of_lt (length_readField hf) (length_afterColon hc)

/-- The fields behind those in `got`, up to the end of the object. -/
def readMembers (s : Shape) (got : List (String × Json)) (first : Bool) (ts : List Token) :
    Except ReadError (List (String × Json) × List Token) :=
  match _hn : nextName first ts with
  | .error e => .error e
  | .ok none => .ok (got, ts.tail)
  | .ok (some (name, rest)) =>
    match _hm : readMember s got name rest with
    | .error e => .error e
    | .ok (got, rest) => readMembers s got false rest
termination_by ts.length
decreasing_by exact Nat.lt_trans (length_readMember _hm) (length_nextName _hn)

/-- The fields in order, where one that was left out has its default. -/
def complete (got : List (String × Json)) : List Field → Except ReadError (List Json)
  | [] => .ok []
  | f :: fs =>
    match member? f.name got, f.kind with
    | some v, _ => (complete got fs).map (v :: ·)
    | none, .any => (complete got fs).map (.null :: ·)
    | none, .text => .error (.missingField f.name)

/-- A record behind its opening brace. -/
def readObject (s : Shape) (ts : List Token) : Except ReadError (List Json × List Token) :=
  match readMembers s [] true ts with
  | .error e => .error e
  | .ok (got, rest) => (complete got s.fields).map fun vs => (vs, rest)

/-! ## As a list -/

/-- What is in front of the next element, or `none` at the end of the list; `first` says that no
element precedes. -/
def nextElement (first : Bool) : List Token → Except ReadError (Option (List Token))
  | [] => .error (.ended .list)
  | .closeList :: _ => .ok none
  | t :: ts =>
    if first then .ok (some (t :: ts))
    else match t, ts with
      | .comma, [] => .error (.ended .value)
      | .comma, .closeList :: _ => .error .trailingComma
      | .comma, ts => .ok (some ts)
      | _, _ => .error .expectedListEnd

/-- The fields from the one numbered `index` on. -/
def readElements (s : Shape) (index : Nat) : List Field → List Token →
    Except ReadError (List Json × List Token)
  | [], ts => .ok ([], ts)
  | f :: fs, ts =>
    match nextElement (index = 0) ts with
    | .error e => .error e
    | .ok none =>
      match f.kind with
      | .text => .error (.wrongLength index s.describeLength)
      | .any => (readElements s (index + 1) fs ts).map fun p => (.null :: p.1, p.2)
    | .ok (some ts) =>
      match readField f.kind ts with
      | .error e => .error e
      | .ok (v, rest) => (readElements s (index + 1) fs rest).map fun p => (v :: p.1, p.2)

/-- What follows the end of a list whose elements have all been read. -/
def afterElements : List Token → Except ReadError (List Token)
  | [] => .error (.ended .list)
  | .closeList :: ts => .ok ts
  | .comma :: .closeList :: _ => .error .trailingComma
  | _ :: _ => .error .trailingCharacters

/-- A record behind its opening bracket. -/
def readList (s : Shape) (ts : List Token) : Except ReadError (List Json × List Token) :=
  match readElements s 0 s.fields ts with
  | .error e => .error e
  | .ok (vs, rest) => (afterElements rest).map fun rest => (vs, rest)

/-! ## Either way -/

/-- The fields of the record at the front of the tokens, in order. -/
def readRecord (s : Shape) : List Token → Except ReadError (List Json × List Token)
  | [] => .error (.ended .value)
  | .openObject :: ts => readObject s ts
  | .openList :: ts => readList s ts
  | t :: _ => .error (t.mismatch s.describe)

/-- The fields, in order, of the record that the text is. -/
def Shape.ofText (s : Shape) (text : String) : Except ReadError (List Json) :=
  (readRecord s (tokens text.toList)).bind alone

end SpeechRelay.Json
