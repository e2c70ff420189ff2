import ImportTrail.Scan.Pattern
import ImportTrail.UseTree

/-!
Module declarations, includes and local `use` declarations of Rust, found by scanning. A specifier
is the name of a module, an include in its own spelling, or a path from `crate`, `self` or
`super`.
-/

namespace ImportTrail.Scan.Rust

open Text

/-- The specifier of an included path, unlike any name of a module. -/
def includeSpecifier (path : Text) : Text := "include!(\"".toList ++ path ++ "\")".toList

/-- The path of an include specifier. -/
def includedPath? (spec : Text) : Option Text := do
  before? "\")".toList (← after? "include!(\"".toList spec)

/-- A character that may start a name, ASCII only. -/
def isNameStart (c : Char) : Bool := isLetter c || c == '_'

/-- A character that may continue a name, ASCII only. -/
def isNameRest (c : Char) : Bool := isNameStart c || isDigit c

/-- A name in ASCII. -/
def isName : Text → Bool
  | c :: s => isNameStart c && s.all isNameRest
  | [] => false

/-- What follows the attributes in front, each with the spaces after it. -/
def afterAttributes (s : Text) : Text :=
  match s with
  | '#' :: '[' :: r =>
    match h : r.dropWhile (· != ']') with
    | _ :: t =>
      have : (t.dropWhile isSpaceTab).length < r.length := by
        have h₁ := length_dropWhile_le isSpaceTab t
        have h₂ := length_dropWhile_le (· != ']') r
        rw [h, List.length_cons] at h₂
        omega
      afterAttributes (t.dropWhile isSpaceTab)
    | [] => s
  | _ => s
termination_by s.length

/-- What follows a visibility in front and its spaces, all if there is none. -/
def afterVisibility? (s : Text) : Option Text :=
  match after? "pub".toList s with
  | none => some s
  | some ('(' :: r) =>
    match r.dropWhile (· != ')') with
    | _ :: t => afterSpaces? t
    | [] => none
  | some r => afterSpaces? r

/-- `mod name;` at the beginning of a line, with attributes and a visibility in front. -/
def moduleItem : Pattern := fun prev s =>
  if !atLineStart prev then none else do
    let r ← afterVisibility? (afterAttributes (s.dropWhile isSpaceTab))
    let r ← afterSpaces? (← after? "mod".toList r)
    match r with
    | c :: _ =>
      if isNameStart c then
        let name := r.takeWhile isNameRest
        let tail := r.drop name.length
        match tail.dropWhile isSpaceTab with
        | ';' :: rest => some ⟨s.length - r.length, name, tail.length - rest.length⟩
        | _ => none
      else none
    | [] => none

/-- `include!("path")`. -/
def includeCall : Pattern := fun prev s =>
  if !atWordStart prev then none else do
    let r ← after? "include!".toList s
    let r ← after? ['('] (r.dropWhile isBlank)
    let r ← after? ['"'] (r.dropWhile isBlank)
    let path := r.takeWhile (· != '"')
    match r.drop path.length with
    | _ :: tail =>
      match tail.dropWhile isBlank with
      | ')' :: rest =>
        if path.isEmpty then none
        else some ⟨s.length - r.length, path, tail.length + 1 - rest.length⟩
      | _ => none
    | [] => none

/-- What follows `crate::`, `self::` or `super::` in front. -/
def afterLocalRoot? (s : Text) : Option Text :=
  (after? "crate::".toList s).orElse fun _ =>
    (after? "self::".toList s).orElse fun _ => after? "super::".toList s

/-- A path from `crate`, `self` or `super`. -/
def isLocalPath (s : Text) : Bool := (afterLocalRoot? s).isSome

/-- `use tree;` at the beginning of a line, with a visibility in front, for a local tree. -/
def useItem : Pattern := fun prev s =>
  if !atLineStart prev then none else do
    let r ← afterVisibility? (s.dropWhile isSpaceTab)
    let r ← afterSpaces? (← after? "use".toList r)
    let rest ← afterLocalRoot? r
    match rest with
    | [] | ';' :: _ => none
    | _ =>
      let tree := r.takeWhile (· != ';')
      if tree.length < r.length then some ⟨s.length - r.length, tree, 1⟩ else none

/-- All specifiers in the order of the text; those of one `use` keep the order of its tree. -/
def specifiers (s : Text) : List Text :=
  let modules := find moduleItem s
  let includes := (find includeCall s).map fun f => (f.1, includeSpecifier f.2)
  let uses := (find useItem s).flatMap fun f => (UseTree.expand f.2).map fun p => (f.1, p)
  (inOrder (modules ++ includes ++ uses)).map (·.2)

end ImportTrail.Scan.Rust
