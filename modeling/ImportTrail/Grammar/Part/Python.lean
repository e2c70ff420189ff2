import ImportTrail.Grammar.Layout
import ImportTrail.Grammar.Rule

/-!
The names of the recursive parts of Python's grammar, and rules for single lexemes. A word is a
keyword only where that keyword may stand; everywhere else it is a name.
-/

namespace ImportTrail.Grammar.Python

open Text Rule

/-- The parts of the grammar that contain each other. -/
inductive Part where
  | statement
  /-- The body of a compound statement. -/
  | suite
  | expression
  /-- An expression without `and`, `or` and what binds weaker. -/
  | clause
  /-- An expression without binary operators. -/
  | operand
  /-- An expression without operators, calls, attributes and subscripts. -/
  | atom
  /-- Something that can be assigned to. -/
  | pattern
  | assignment
  /-- The pattern of a case. -/
  | casePattern
  /-- An expression in a string. -/
  | field

/-- A rule of Python's grammar. -/
abbrev PythonRule := Rule Cursor Part

/-! ### Lexemes -/

/-- What follows a word that satisfies `p`. -/
def afterWord? (p : Text → Bool) (s : Text) : Option Text :=
  match word? s with
  | some (w, r) => if p w then some r else none
  | none => none

/-- A keyword that needs something after it. -/
def keyword (w : String) : PythonRule := step (Cursor.take (afterWord? (· == w.toList)) .more)

/-- A keyword that can stand last. -/
def lastKeyword (w : String) : PythonRule :=
  step (Cursor.take (afterWord? (· == w.toList)) .nothing)

/-- A name, other than the given words. -/
def nameExcept (words : List Text) : PythonRule :=
  step (Cursor.take (afterWord? fun w => !words.contains w) .nothing)

/-- A name. -/
def name : PythonRule := nameExcept []

/-- A sign that needs something after it. -/
def sign (s : String) : PythonRule := step (Cursor.take (afterSign? s.toList) .more)

/-- A sign that can stand last. -/
def lastSign (s : String) : PythonRule := step (Cursor.take (afterSign? s.toList) .nothing)

/-- A comma, which can stand last. -/
def comma : PythonRule := lastSign ","

/-- A number. -/
def number : PythonRule := step (Cursor.take afterNumber? .nothing)

/-- The end of a statement. -/
def endOfStatement : PythonRule := step Cursor.endStatement

/-! ### Enclosures -/

/-- A rule in brackets. -/
def bracketed (opening : String) (r : PythonRule) (closing : String) : PythonRule :=
  all [lastSign opening, step (Cursor.enter .bracket), r, lastSign closing, step Cursor.leave]

/-- A rule inside of which the statement cannot end. -/
def phrase (r : PythonRule) : PythonRule :=
  all [step (Cursor.enter .phrase), r, step Cursor.leave]

/-- The rule with commas between and possibly after. -/
def commaList (r : PythonRule) : PythonRule := listOf comma r

/-! ### Reports -/

/-- Report the text of a rule. -/
def reportText (r : PythonRule) : PythonRule := report (fun c d _ => [c.textTo d]) r

end ImportTrail.Grammar.Python
