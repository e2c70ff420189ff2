import ImportTrail.Scan.Pattern

/-!
Imports of JavaScript and TypeScript, found by scanning: `import … from`, bare `import`,
`export … from` and `require`. Between the keyword and the quoted specifier no quote and no
semicolon stands, so the specifier is the first thing in quotes after the keyword. Only specifiers
that begin with a dot are kept.
-/

namespace ImportTrail.Scan.JavaScript

open Text

/-- The text up to a quote or the end of a line, after an opening quote; a quote has to close it. -/
def quotedSpecifier? (s : Text) : Option Text :=
  let spec := s.takeWhile fun c => !isQuote c && c != '\n'
  match s.drop spec.length with
  | q :: _ => if isQuote q && !spec.isEmpty then some spec else none
  | [] => none

/-- The text between a keyword and its specifier begins with a blank and ends with the word `from`
and blanks. -/
def endsWithFrom (gap : Text) : Bool :=
  match gap with
  | c :: _ => isBlank c && match before? "from".toList (trimEnd gap) with
    | some r => atWordStart r.getLast?
    | none => false
  | [] => false

/-- The text between `import` and the specifier of an import without names: blanks. -/
def isBlankGap (gap : Text) : Bool := !gap.isEmpty && gap.all isBlank

/-- A keyword, a gap that satisfies `ok`, and a specifier in quotes. -/
def clause (keyword : Text) (ok : Text → Bool) : Pattern := fun prev s =>
  if !atWordStart prev then none else do
    let r ← after? keyword s
    let gap := r.takeWhile fun c => !isQuote c && c != ';'
    match r.drop gap.length with
    | q :: rest =>
      if isQuote q && ok gap then
        (quotedSpecifier? rest).map fun spec => ⟨keyword.length + gap.length + 1, spec, 1⟩
      else none
    | [] => none

/-- `import … from '…'` and `import '…'`. -/
def importClause : Pattern :=
  clause "import".toList fun gap => isBlankGap gap || endsWithFrom gap

/-- `export … from '…'`. -/
def exportClause : Pattern := clause "export".toList endsWithFrom

/-- `require('…')`. -/
def requireCall : Pattern := fun prev s =>
  if !atWordStart prev then none else do
    let r ← after? "require(".toList s
    let blanks := r.takeWhile isBlank
    match r.drop blanks.length with
    | q :: rest =>
      if isQuote q then do
        let spec ← quotedSpecifier? rest
        let tail := rest.drop (spec.length + 1)
        let blanks' := tail.takeWhile isBlank
        match tail.drop blanks'.length with
        | ')' :: _ =>
          some ⟨"require(".length + blanks.length + 1, spec, 1 + blanks'.length + 1⟩
        | _ => none
      else none
    | [] => none

/-- All specifiers in the order of the text. -/
def specifiers (s : Text) : List Text :=
  (inOrder (find importClause s ++ find requireCall s ++ find exportClause s)).map (·.2)

/-- The relative specifiers of a source text, each where it stands first. -/
def imports (s : Text) : List Text :=
  distinct ((specifiers s).filter fun spec => startsWith spec ['.'])

end ImportTrail.Scan.JavaScript
