import ImportTrail.Grammar.Rule
import ImportTrail.Grammar.Lexeme.Rust

/-!
The names of the recursive parts of Rust's grammar, and rules for single lexemes and for token
trees. A word is a keyword only where that keyword may stand; everywhere else it is a name.
-/

namespace ImportTrail.Grammar.Rust

open Text Rule

/-- The parts of the grammar that contain each other. Where a block follows an expression, the
expression has no braces of its own (`braces` is false). -/
inductive Part where
  | statement
  /-- A statement of a module or an implementation. -/
  | declaration
  | useTree
  | tokenTree
  | type
  /-- A type that is not a sum of bounds. -/
  | plainType
  | pattern
  | expression (braces : Bool)
  /-- An expression without binary operators. -/
  | operand (braces : Bool)
  /-- An expression that ends with a block. -/
  | blockExpression

/-- A rule of Rust's grammar. -/
abbrev RustRule := Rule Text Part

/-! ### Lexemes -/

/-- A lexeme after a gap. -/
def lexeme (read : Text → Option Text) : RustRule := step fun s => (afterGap? s).bind read

/-- A keyword. -/
def keyword (w : String) : RustRule := lexeme (afterWord? (· == w.toList))

/-- A name, other than the given words. -/
def nameExcept (words : List Text) : RustRule := lexeme (afterWord? fun w => !words.contains w)

/-- A name. -/
def name : RustRule := nameExcept []

/-- A sign. -/
def sign (s : String) : RustRule := lexeme (after? s.toList)

/-- The first of some signs that is there. -/
def signIn (l : List String) : RustRule := any (l.map sign)

/-- A comma. -/
def comma : RustRule := sign ","

/-- A lifetime or a label. -/
def lifetime : RustRule := lexeme afterLifetime?

/-- A literal. -/
def literal : RustRule := lexeme afterLiteral?

/-- The end of the text. -/
def endOfText : RustRule := lexeme fun s => if s.isEmpty then some s else none

/-- A rule in brackets. -/
def bracketed (opening : String) (r : RustRule) (closing : String) : RustRule :=
  all [sign opening, r, sign closing]

/-- A rule in braces. -/
def braced (r : RustRule) : RustRule := bracketed "\x7b" r "\x7d"

/-- A list with commas in brackets, possibly empty, possibly with a comma at the end. -/
def bracketedList (opening : String) (r : RustRule) (closing : String) : RustRule :=
  bracketed opening (seq (opt (sepBy comma r)) (opt comma)) closing

/-- A list with commas, not empty, in angle brackets. -/
def angledList (r : RustRule) : RustRule := bracketed "<" (listOf comma r) ">"

/-- A list with commas in braces, possibly empty, possibly with a comma at the end. -/
def bracedList (r : RustRule) : RustRule := bracketedList "\x7b" r "\x7d"

/-- The text from the first lexeme after one place up to another. -/
def textTo (s t : Text) : Text :=
  let r := (afterGap? s).getD s
  r.take (r.length - t.length)

/-- Report the text of a rule. -/
def reportText (r : RustRule) : RustRule := report (fun s t _ => [textTo s t]) r

/-! ### Token trees -/

/-- The signs that can stand between the brackets of a macro call. -/
def isTokenSign (c : Char) : Bool := "+-*/%^!&|<>=@.,;:#?$'".toList.contains c

/-- What follows such a sign. -/
def afterTokenSign? : Text → Option Text
  | c :: s => if isTokenSign c then some s else none
  | [] => none

/-- What can stand between the brackets of a macro call. -/
def token : RustRule := any [part .tokenTree, literal, name, lexeme afterTokenSign?]

/-- Tokens in brackets of any kind. -/
def treeOf (r : RustRule) : RustRule :=
  any [bracketed "(" (many r) ")", bracketed "[" (many r) "]", braced (many r)]

/-- Tokens in brackets. -/
def tokenTreeRule : RustRule := treeOf token

end ImportTrail.Grammar.Rust
