import ImportTrail.Family
import ImportTrail.Grammar.Python
import ImportTrail.Grammar.Rust
import ImportTrail.Scan.Include
import ImportTrail.Scan.JavaScript
import ImportTrail.Scan.Python
import ImportTrail.Scan.Rust

/-!
The import specifiers of a source text, in the order of the text, each where it stands first. The
grammar strategy falls back to scanning where a family has no grammar here and where the text is
not a sentence of it.
-/

namespace ImportTrail

/-- The specifiers that a family's source text imports. -/
def Family.imports (f : Family) (strategy : Strategy) (source : Text) : List Text :=
  match f, strategy with
  | .javaScript, _ => Scan.JavaScript.imports source
  | .c, _ => Scan.Include.imports source
  | .python, .scan => Text.distinct (Scan.Python.specifiers source)
  | .python, .grammar =>
    Text.distinct ((Grammar.Python.specifiers? source).getD (Scan.Python.specifiers source))
  | .rust, .scan => Text.distinct (Scan.Rust.specifiers source)
  | .rust, .grammar =>
    Text.distinct ((Grammar.Rust.specifiers? source).getD (Scan.Rust.specifiers source))

end ImportTrail
