import ImportTrail.Scan.Pattern

/-!
Include directives of C and C++, found by scanning: a line of spaces, `#`, spaces, `include`,
spaces and a name between angle brackets or double quotes.
-/

namespace ImportTrail.Scan.Include

open Text

/-- An include directive at the beginning of a line. -/
def directive : Pattern := fun prev s =>
  if !atLineStart prev then none else do
    let r ← after? ['#'] (s.dropWhile isSpaceTab)
    let r ← after? "include".toList (r.dropWhile isSpaceTab)
    match r.dropWhile isSpaceTab with
    | o :: rest =>
      if o == '<' || o == '"' then
        let name := rest.takeWhile fun c => c != '"' && c != '>' && c != '\n'
        match rest.drop name.length with
        | q :: _ =>
          if q != '\n' && !name.isEmpty then some ⟨s.length - rest.length, name, 1⟩ else none
        | [] => none
      else none
    | [] => none

/-- The included names of a source text, each where it stands first. -/
def imports (s : Text) : List Text := distinct ((find directive s).map fun f => trim f.2)

end ImportTrail.Scan.Include
