import ImportTrail.Text.Basic

/-!
The language families whose imports are followed, told apart by file extension, and the two ways
of finding imports in a source text.
-/

namespace ImportTrail

/-- A family of languages with one kind of import. -/
inductive Family where
  | javaScript
  | c
  | python
  | rust
  deriving DecidableEq, Repr

namespace Family

/-- The name of a family. -/
def label : Family → Text
  | javaScript => "JavaScript".toList
  | c => "C".toList
  | python => "Python".toList
  | rust => "Rust".toList

/-- The file extensions of a family, with their dots. -/
def extensions : Family → List Text
  | javaScript => [".ts".toList, ".tsx".toList, ".js".toList, ".jsx".toList, ".mjs".toList,
      ".cjs".toList]
  | c => [".c".toList, ".h".toList, ".cc".toList, ".cpp".toList, ".cxx".toList, ".hpp".toList,
      ".hh".toList, ".hxx".toList]
  | python => [".py".toList]
  | rust => [".rs".toList]

/-- The family of an extension. Case counts. -/
def ofExtension? (ext : Text) : Option Family :=
  [javaScript, c, python, rust].find? fun f => f.extensions.contains ext

end Family

/-- How imports are found: by scanning the text, or by reading the grammar where there is one. -/
inductive Strategy where
  | scan
  | grammar
  deriving DecidableEq, Repr

namespace Strategy

/-- The text of a strategy. -/
def label : Strategy → Text
  | scan => "regex".toList
  | grammar => "syntax-tree".toList

/-- The strategy with exactly this text. -/
def ofLabel? (s : Text) : Option Strategy := [scan, grammar].find? fun x => x.label == s

/-- The strategy that a setting names, in any case and with two more spellings of the second. -/
def ofSetting? (s : Text) : Option Strategy :=
  let low := Text.toLowerAscii s
  if low = "regex".toList then some scan
  else if low = "syntax-tree".toList ∨ low = "syntax_tree".toList ∨ low = "tree-sitter".toList then
    some grammar
  else none

end Strategy

end ImportTrail
