import ImportTrail.Grammar.Statement.Python

/-!
The import specifiers of a Python source text that is a sentence of the grammar.
-/

namespace ImportTrail.Grammar.Python

open Rule

/-- The rule of each part. -/
def grammar : Part → PythonRule
  | .statement => statementRule
  | .suite => suiteRule
  | .expression => expressionRule
  | .clause => clauseRule
  | .operand => operandRule
  | .atom => atomRule
  | .pattern => patternRule
  | .assignment => assignmentRule
  | .casePattern => casePatternRule
  | .field => fieldRule

/-- A source text: statements and nothing else. -/
def source : PythonRule := seq (many (part .statement)) (step Cursor.atEnd)

/-- How deep references nest in a text: no part begins with itself, so between two characters no
part is called twice, and a repetition reads a character each time. -/
def depth (s : Text) : Nat := 16 * (s.length + 1)

/-- The specifiers of a source text that the grammar accepts, in the order of the text. A NUL is
part of no lexeme and of no comment. -/
def specifiers? (s : Text) : Option (List Text) :=
  if s.contains '\x00' then none else (run grammar (depth s) source (Cursor.start s)).found?

end ImportTrail.Grammar.Python
