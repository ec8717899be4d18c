import SpeechRelay.Toml.Quoted
import SpeechRelay.Toml.Scalar
import SpeechRelay.Toml.Table

/-!
# Reading a TOML document

A document is a list of lines: keys with values, headers, comments and empty lines. `Toml.ofText`
reads a whole document as an object; what is wrong with a text that is none is not told. Dates and
times are not among the values. Containers within a value, and the parts of a key, may number less
than `nesting`.
-/

set_option autoImplicit false

namespace SpeechRelay.Toml

/-- The bound on the containers within a value, and on the parts of a key. -/
def nesting : Nat := 80

/-- The text with every line break a line feed. -/
def unixBreaks : List Char → List Char
  | [] => []
  | '\r' :: '\n' :: cs => '\n' :: unixBreaks cs
  | c :: cs => c :: unixBreaks cs

/-- What follows spaces. -/
def skipSpaces (cs : List Char) : List Char := cs.dropWhile isSpace

/-- What follows spaces, line breaks and comments; `comment` says that a comment is open. -/
def skipLines (comment : Bool) : List Char → List Char
  | [] => []
  | c :: cs =>
    if c = '\n' then skipLines false cs
    else if comment then (if isPlain c then skipLines true cs else c :: cs)
    else if isSpace c then skipLines false cs
    else if c = '#' then skipLines true cs
    else c :: cs

/-- What follows the end of a line, before which a comment may stand. -/
def lineEnd (cs : List Char) : Option (List Char) :=
  let rest :=
    match skipSpaces cs with
    | '#' :: cs => cs.dropWhile isPlain
    | cs => cs
  match rest with
  | [] => some []
  | '\n' :: rest => some rest
  | _ => none

/-! ## Keys -/

/-- Whether a key without quotes may hold the character. -/
def isKeyChar (c : Char) : Bool := c.isAlphanum || c = '_' || c = '-'

/-- One part of a key, and what follows. -/
def keyPart? (cs : List Char) : Option (String × List Char) :=
  match quotedLine? cs with
  | some (s, rest) => some (String.ofList s, rest)
  | none =>
    match cs.takeWhile isKeyChar with
    | [] => none
    | s => some (String.ofList s, cs.dropWhile isKeyChar)

/-- A key with at most `room` parts, and what follows it and the spaces behind it. -/
def key? : Nat → List Char → Option (List String × List Char)
  | 0, _ => none
  | room + 1, cs =>
    match keyPart? (skipSpaces cs) with
    | none => none
    | some (part, rest) =>
      match skipSpaces rest with
      | '.' :: rest => (key? room rest).map fun p => (part :: p.1, p.2)
      | rest => some ([part], rest)

/-- The parts of a key without the last, and the last. -/
def splitKey (parts : List String) : List String × String := (parts.dropLast, parts.getLastD "")

/-! ## Values -/

mutual

/-- The value at the front, and what follows. Every call takes a character or goes on to one that
does, so twice the length of the text is fuel enough. -/
def value? : Nat → Nat → List Char → Option (Json × List Char)
  | 0, _, _ => none
  | fuel + 1, room, cs =>
    match cs with
    | '[' :: rest => if room ≤ 1 then none else items? fuel (room - 1) [] rest
    | '\x7b' :: rest =>
      if room ≤ 1 then none
      else match skipSpaces rest with
        | '\x7d' :: rest => some (.object [], rest)
        | rest => pairs? fuel (room - 1) .empty rest
    | cs =>
      match quoted? cs with
      | some (s, rest) => some (.text (String.ofList s), rest)
      | none => (word? (cs.takeWhile isWordChar)).map (·, cs.dropWhile isWordChar)

/-- The elements of a list behind those in `done`, and what follows the list. -/
def items? : Nat → Nat → List Json → List Char → Option (Json × List Char)
  | 0, _, _, _ => none
  | fuel + 1, room, done, cs =>
    match skipLines false cs with
    | ']' :: rest => some (.list done.reverse, rest)
    | cs =>
      match value? fuel room cs with
      | none => none
      | some (v, rest) =>
        match skipLines false rest with
        | ',' :: rest => items? fuel room (v :: done) rest
        | ']' :: rest => some (.list (v :: done).reverse, rest)
        | _ => none

/-- The keys of a table within a line behind those in `t`, and what follows the table. -/
def pairs? : Nat → Nat → Table → List Char → Option (Json × List Char)
  | 0, _, _, _ => none
  | fuel + 1, room, t, cs =>
    match key? (nesting - 1) cs with
    | some (parts, '=' :: rest) =>
      match value? fuel room (skipSpaces rest) with
      | none => none
      | some (v, rest) =>
        match t.insert (splitKey parts).1 (splitKey parts).2 v, skipSpaces rest with
        | some t, ',' :: rest => pairs? fuel room t rest
        | some t, '\x7d' :: rest => some (t.finish, rest)
        | _, _ => none
    | _ => none

end

/-! ## Documents -/

/-- A document under construction: all its tables, and the path of the one that keys go to. -/
structure Document where
  root : Table
  path : List String

namespace Document

/-- A key with its value, and what follows. -/
def readPair (d : Document) (cs : List Char) : Option (Document × List Char) :=
  match key? (nesting - 1) cs with
  | some (parts, '=' :: rest) =>
    match value? (2 * rest.length + 2) nesting (skipSpaces rest) with
    | none => none
    | some (v, rest) =>
      (d.root.update false (Table.insert (splitKey parts).1 (splitKey parts).2 v) d.path).map
        fun root => ({ d with root }, rest)
  | _ => none

/-- A header behind its opening brackets, and what follows; `grows` says that it adds a table to a
list. -/
def readHeader (grows : Bool) (d : Document) (cs : List Char) : Option (Document × List Char) :=
  match key? (nesting - 1) cs with
  | none => none
  | some (parts, rest) =>
    let (path, key) := splitKey parts
    match grows, rest with
    | false, ']' :: rest => (d.root.define path key).map (⟨·, parts⟩, rest)
    | true, ']' :: ']' :: rest => (d.root.extend path key).map (⟨·, parts⟩, rest)
    | _, _ => none

/-- A line that is not empty, and what follows. -/
def readLine (d : Document) : List Char → Option (Document × List Char)
  | '#' :: cs => some (d, '#' :: cs)
  | '[' :: '[' :: cs => d.readHeader true cs
  | '[' :: cs => d.readHeader false cs
  | cs => d.readPair cs

/-- The document with the lines of the text. Every line takes a character, so one more than the
length of the text is fuel enough. -/
def readLines : Nat → Document → List Char → Option Document
  | 0, _, _ => none
  | fuel + 1, d, cs =>
    match skipSpaces cs with
    | [] => some d
    | '\n' :: rest => readLines fuel d rest
    | cs =>
      match d.readLine cs with
      | none => none
      | some (d, rest) => (lineEnd rest).bind (readLines fuel d)

end Document

/-- The document that the text is, as an object. A byte order mark may stand in front. -/
def ofText (text : String) : Option Json :=
  let cs := match text.toList with
    | '\ufeff' :: cs => cs
    | cs => cs
  (Document.readLines (cs.length + 1) ⟨.empty, []⟩ (unixBreaks cs)).map fun d => d.root.finish

end SpeechRelay.Toml
