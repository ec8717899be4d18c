import SpeechRelay.Json.Value

/-!
# Tables of TOML

A table may be written in several places, but it may be defined only once. So each table under
construction knows how it came about: a header that names a table defines it; tables on the way to
it come about by implication and may still be defined; a key with dots makes tables that other keys
with dots may go on with, and no header may define them.
-/

set_option autoImplicit false

namespace SpeechRelay.Toml

mutual

/-- What a key of a table under construction holds. -/
inductive Node where
  /-- A finished value. -/
  | value (v : Json)
  | table (t : Table)
  /-- A list of tables that may still grow, the last first. -/
  | tables (items : List Table)

/-- A table under construction. -/
inductive Table where
  | mk (implied dotted : Bool) (entries : List (String × Node))

end

namespace Table

/-- Whether the table has come about only on the way to another one. -/
def implied : Table → Bool
  | .mk i _ _ => i

/-- Whether the table has come about by a key with dots. -/
def dotted : Table → Bool
  | .mk _ d _ => d

/-- The keys of the table with what they hold. -/
def entries : Table → List (String × Node)
  | .mk _ _ es => es

/-- A table that has been defined and is empty. -/
def empty : Table := .mk false false []

/-- What the key holds. -/
def find? (t : Table) (key : String) : Option Node :=
  (t.entries.find? (·.1 = key)).map Prod.snd

/-- The table with a key that holds something else or something at all. -/
def set (t : Table) (key : String) (n : Node) : Table :=
  .mk t.implied t.dotted
    (if (t.find? key).isSome then t.entries.map fun e => if e.1 = key then (key, n) else e
    else t.entries ++ [(key, n)])

/-- The table in which the table at the end of a path is changed. Tables that are not there come
about by implication. A path of a key with dots leads through no table that a header has defined. -/
def update (byDots : Bool) (change : Table → Option Table) : List String → Table → Option Table
  | [], t => change t
  | key :: path, t =>
    match t.find? key with
    | none => (update byDots change path (.mk true byDots [])).map fun child =>
        t.set key (.table child)
    | some (.value _) => none
    | some (.table child) =>
      if byDots && !child.implied then none
      else (update byDots change path child).map fun child => t.set key (.table child)
    | some (.tables []) => none
    | some (.tables (last :: items)) =>
      (update byDots change path last).map fun last => t.set key (.tables (last :: items))

/-- The table with a value under a key with dots, its last part apart. -/
def insert (path : List String) (key : String) (v : Json) (t : Table) : Option Table :=
  t.update true (fun t =>
    if t.dotted = path.isEmpty then none
    else if (t.find? key).isSome then none
    else some (t.set key (.value v))) path

/-- The table in which a header has defined the table at the path. -/
def define (path : List String) (key : String) (t : Table) : Option Table :=
  t.update false (fun t =>
    match t.find? key with
    | none => some (t.set key (.table empty))
    | some (.table child) =>
      if child.implied && !child.dotted then some (t.set key (.table (.mk false false child.entries)))
      else none
    | some _ => none) path

/-- The table in which a header has added a table to the list at the path. -/
def extend (path : List String) (key : String) (t : Table) : Option Table :=
  t.update false (fun t =>
    match t.find? key with
    | none => some (t.set key (.tables [empty]))
    | some (.tables items) => some (t.set key (.tables (empty :: items)))
    | some _ => none) path

end Table

mutual

/-- The finished value of a key. -/
def Node.finish : Node → Json
  | .value v => v
  | .table t => t.finish
  | .tables items => .list (finishItems items).reverse

/-- The finished tables of a list. -/
def finishItems : List Table → List Json
  | [] => []
  | t :: ts => t.finish :: finishItems ts

/-- The finished table. -/
def Table.finish : Table → Json
  | .mk _ _ entries => .object (finishEntries entries)

/-- The finished values of keys. -/
def finishEntries : List (String × Node) → List (String × Json)
  | [] => []
  | e :: es => finishEntry e :: finishEntries es

/-- The finished value of a key, with the key. -/
def finishEntry : String × Node → String × Json
  | (key, n) => (key, n.finish)

end

end SpeechRelay.Toml
