import ImportTrail.Grammar.Statement.Rust

/-!
The import specifiers of a Rust source text that is a sentence of the grammar.
-/

namespace ImportTrail.Grammar.Rust

open Text Rule

/-- The rule of each part. -/
def grammar : Part → RustRule
  | .statement => statementRule
  | .declaration => declarationRule
  | .useTree => useTreeRule
  | .tokenTree => tokenTreeRule
  | .type => typeRule
  | .plainType => plainTypeRule
  | .pattern => patternRule
  | .expression braces => expressionRule braces
  | .operand braces => operandRule braces
  | .blockExpression => blockExpressionRule

/-- A source text: statements and nothing else. -/
def source : RustRule := seq (many (part .statement)) endOfText

/-- What follows a first line that names a program to run the text. -/
def afterShebang (s : Text) : Text :=
  match s with
  | '#' :: '!' :: r =>
    match r.dropWhile fun c => isSpace c && c != '\n' with
    | '[' :: _ => s
    | t => t.dropWhile (· != '\n')
  | _ => s

/-- How deep references nest in a text: no part begins with itself, so between two characters no
part is called twice, and a repetition reads a character each time. -/
def depth (s : Text) : Nat := 16 * (s.length + 1)

/-- The specifiers of a source text that the grammar accepts, in the order of the text. -/
def specifiers? (s : Text) : Option (List Text) :=
  (run grammar (depth s) source (afterShebang (dropMark s))).found?

end ImportTrail.Grammar.Rust
