import ImportTrail.Text.CharClass

/-!
Import statements of Python, found by scanning. Lines lose their comments; an import that is
continued by a backslash or an open parenthesis is put on one line; a line holds statements
between semicolons. A relative `from` import names one specifier for each imported name, an
absolute one its module.
-/

namespace ImportTrail.Scan.Python

open Text

/-! ### Logical lines -/

/-- An import statement on its way: the text so far, empty if there is none, and how many
parentheses are open. -/
structure Pending where
  text : Text
  depth : Int

/-- No statement on its way. -/
def Pending.none : Pending := ⟨[], 0⟩

/-- A line that begins an import statement. -/
def beginsImport (line : Text) : Bool :=
  let t := trimStart line
  startsWith t "from ".toList || startsWith t "import ".toList

/-- One more line, without its comment: the statement on its way, and the line that is complete. -/
def Pending.push (p : Pending) (raw : Text) : Pending × Option Text :=
  let line := trimEnd (upTo '#' raw)
  if p.text.isEmpty && !beginsImport line then (p, some line)
  else
    let continued := line.getLast? == some '\\'
    let glue := if p.text.isEmpty then [] else [' ']
    let text := p.text ++ glue ++ dropEndWhile (· == '\\') line
    let depth := p.depth + (line.count '(' : Int) - (line.count ')' : Int)
    if depth > 0 || continued then (⟨text, depth⟩, Option.none) else (⟨[], 0⟩, some text)

/-- The complete lines from a statement on its way on. What is left at the end is complete. -/
def joinLines (p : Pending) : List Text → List Text
  | [] => if p.text.isEmpty then [] else [p.text]
  | raw :: rest =>
    match p.push raw with
    | (q, some line) => line :: joinLines q rest
    | (q, Option.none) => joinLines q rest

/-- The logical lines of a source text. -/
def logicalLines (s : Text) : List Text := joinLines .none (lines s)

/-! ### Statements -/

/-- The first word between commas, with parentheses taken for blanks. -/
def importedNames (list : Text) : List Text :=
  let flat := list.map fun c => if c = '(' ∨ c = ')' then ' ' else c
  (splitOn ',' flat).filterMap fun part => (words part).head?

/-- The specifiers of `from module import names`. -/
def fromSpecifiers (module : Text) (names : List Text) : List Text :=
  if !startsWith module ['.'] then [module]
  else if names.isEmpty || names.contains ['*'] then [module]
  else if module.all (· == '.') then names.map fun n => module ++ n
  else names.map fun n => module ++ '.' :: n

/-- What follows at least one blank and all others. -/
def afterBlanks? : Text → Option Text
  | c :: s => if isBlank c then some (s.dropWhile isBlank) else none
  | [] => none

/-- The list after the word `import`: a blank and at least one character more. -/
def importList? (s : Text) : Option Text := do
  match ← after? "import".toList s with
  | b :: c :: rest => if isBlank b then some (b :: c :: rest) else none
  | _ => none

/-- A module name in front of a text: dots or an identifier first, then word characters and dots. -/
def moduleName? (s : Text) : Option Text :=
  match s with
  | c :: _ =>
    if c == '.' || c == '_' || isLetter c then some (s.takeWhile fun c => isWord c || c == '.')
    else none
  | [] => none

/-- The module and the list of a `from` statement. -/
def fromStatement? (s : Text) : Option (Text × Text) := do
  let r ← after? "from".toList (trimStart s)
  let r ← afterBlanks? r
  let module ← moduleName? r
  let r ← afterBlanks? (r.drop module.length)
  let list ← importList? r
  some (module, list)

/-- The specifiers of a statement, none if it is no import. -/
def statementImports (s : Text) : List Text :=
  match fromStatement? s with
  | some (module, list) => fromSpecifiers module (importedNames list)
  | none => match importList? (trimStart s) with
    | some list => importedNames list
    | none => []

/-- All specifiers in the order of the text. -/
def specifiers (s : Text) : List Text :=
  (logicalLines s).flatMap fun line => (splitOn ';' line).flatMap statementImports

end ImportTrail.Scan.Python
