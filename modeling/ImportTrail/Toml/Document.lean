import ImportTrail.Toml.Value

/-!
Documents of TOML: lines with a key and a value, and headers of tables. A table is defined once; a
header may complete a table that only deeper headers have mentioned, and dotted keys extend only
tables that dotted keys have made.
-/

namespace ImportTrail.Toml

open Text

/-- A part of a document: a value, a table, or the tables of a repeated header. A table knows
whether it is only mentioned and whether dotted keys made it. -/
inductive Node where
  | value (v : Value)
  | table (mentioned dotted : Bool) (entries : List (Text × Node))
  | tables (all : List Node)

/-- The entries of a table. -/
abbrev Entries := List (Text × Node)

/-- Change the table at the end of a path. Missing tables on the way are mentioned; the last of
repeated tables is taken; with dotted keys a table on the way may not be defined by a header. -/
def changeAt (dotted : Bool) (change : Node → Option Node) : List Text → Node → Option Node
  | [], t => change t
  | k :: ks, .table m d es =>
    match es.lookup k with
    | none => do
      let child ← changeAt dotted change ks (.table true dotted [])
      some (.table m d (setEntry k child es))
    | some (.value _) => none
    | some (.tables all) =>
      match all.getLast? with
      | none => none
      | some last => do
        let child ← changeAt dotted change ks last
        some (.table m d (setEntry k (.tables (all.dropLast ++ [child])) es))
    | some (.table m' d' es') =>
      if dotted && !m' then none
      else do
        let child ← changeAt dotted change ks (.table m' d' es')
        some (.table m d (setEntry k child es))
  | _ :: _, _ => none

/-- Put a value into the table at hand under the last part of its key. A single key belongs to a
table of a header, a dotted one to a table of dotted keys. -/
def putValue (isDotted : Bool) (k : Text) (v : Value) : Node → Option Node
  | .table m d es =>
    if d != isDotted || (es.lookup k).isSome then none
    else some (.table m d (setEntry k (.value v) es))
  | _ => none

/-- Define a table by its header. -/
def defineTable (k : Text) : Node → Option Node
  | .table m d es =>
    match es.lookup k with
    | none => some (.table m d (setEntry k (.table false false []) es))
    | some (.table true false inner) => some (.table m d (setEntry k (.table false false inner) es))
    | some _ => none
  | _ => none

/-- Add a table to those of a repeated header. -/
def addTable (k : Text) : Node → Option Node
  | .table m d es =>
    let new := Node.table false false []
    match es.lookup k with
    | none => some (.table m d (setEntry k (.tables [new]) es))
    | some (.tables all) => some (.table m d (setEntry k (.tables (all ++ [new])) es))
    | some _ => none
  | _ => none

/-- The rest of a line after its content: blanks, a comment, and its end or that of the text. -/
def afterLine? (s : Text) : Option Text :=
  match afterComment (s.dropWhile isSpaceTab) with
  | [] => some []
  | r => afterNewline? r

/-- A header: whether it repeats, its key, and the rest. -/
def header? (s : Text) : Option (Bool × List Text × Text) :=
  match s with
  | '[' :: '[' :: r => do
    let (k, r) ← key? r.length r
    some (true, k, ← after? "]]".toList r)
  | '[' :: r => do
    let (k, r) ← key? r.length r
    some (false, k, ← after? [']'] r)
  | _ => none

/-- The document after the lines of a text, where `under` is the key of the header at hand. -/
def readLines : Nat → Node → List Text → Text → Option Node
  | 0, _, _, _ => none
  | n + 1, root, under, s =>
    let s := s.dropWhile isSpaceTab
    match s, afterNewline? s with
    | [], _ => some root
    | '#' :: _, _ => do readLines n root under (← afterLine? s)
    | _, some r => readLines n root under r
    | '[' :: _, none => do
      let (repeated, k, r) ← header? s
      let r ← afterLine? r
      let last ← k.getLast?
      let root ← changeAt false (if repeated then addTable last else defineTable last) k.dropLast root
      readLines n root k r
    | _, none => do
      let (k, r) ← key? s.length s
      let r ← after? ['='] r
      let r := r.dropWhile isSpaceTab
      let (v, r) ← value? (2 * r.length + 2) r
      let r ← afterLine? r
      let last ← k.getLast?
      let way := k.dropLast
      let put := changeAt true (putValue (!way.isEmpty) last v) way
      let root ← changeAt false put under root
      readLines n root under r

mutual

/-- A part of a document as a value. -/
def Node.toValue : Node → Value
  | .value v => v
  | .table _ _ es => .table (nodeEntries es)
  | .tables all => .array (nodeValues all)

/-- Some parts as values. -/
def nodeValues : List Node → List Value
  | [] => []
  | x :: xs => x.toValue :: nodeValues xs

/-- The entries of a part as values. -/
def nodeEntries : List (Text × Node) → List (Text × Value)
  | [] => []
  | (k, x) :: es => (k, x.toValue) :: nodeEntries es

end

/-- The entries of a document. A byte order mark may stand in front. -/
def parse? (s : Text) : Option (List (Text × Value)) :=
  let s := match s with
    | '\ufeff' :: r => r
    | _ => s
  match readLines (s.length + 1) (.table false false []) [] s with
  | some (.table _ _ es) => some (nodeEntries es)
  | _ => none

end ImportTrail.Toml
