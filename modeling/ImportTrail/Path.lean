import ImportTrail.Text.Basic

/-!
Written paths and the canonical project-relative form. A path is read as its components; cleaning
resolves `.` and `..` by the text alone; a path has a project-relative form when nothing absolute
and no climb is left over. The canonical form joins plain names with single slashes.
-/

namespace ImportTrail.Path

open Text

/-! ### Components -/

/-- A component of a written path. A `.` counts only in front of a relative path. -/
inductive Component where
  | root
  | here
  | up
  | name (n : Text)
  deriving DecidableEq, Repr

/-- The component that a piece between slashes stands for; empty pieces and dots stand for none. -/
def Component.ofPiece? (piece : Text) : Option Component :=
  if piece = [] ∨ piece = ['.'] then none
  else if piece = ['.', '.'] then some .up
  else some (.name piece)

/-- A path that begins at the root of the disk. -/
def isAbsolute : Text → Bool
  | '/' :: _ => true
  | _ => false

/-- The components of a written path. -/
def components (p : Text) : List Component :=
  let pieces := splitOn '/' p
  let rest := pieces.filterMap Component.ofPiece?
  if isAbsolute p then .root :: rest
  else if pieces.head? = some ['.'] then .here :: rest
  else rest

/-- The path `p` seen from `base`. An absolute `p` stays as it is. -/
def append (base p : Text) : Text :=
  if isAbsolute p || base.isEmpty then p
  else if endsWith base ['/'] then base ++ p
  else base ++ '/' :: p

/-! ### Cleaning -/

/-- One more component on a stack of clean ones, the last on top. A climb takes the name below it
away, is lost at the root and stays where there is nothing to take. -/
def cleanStep : List Component → Component → List Component
  | st, .here => st
  | .root :: st, .up => .root :: st
  | .name _ :: st, .up => st
  | st, c => c :: st

/-- The components with `.` and `..` resolved by the text alone. -/
def clean (cs : List Component) : List Component := (cs.foldl cleanStep []).reverse

/-- The names of a path that has nothing but names and dots. -/
def names? : List Component → Option (List Text)
  | [] => some []
  | .here :: cs => names? cs
  | .name n :: cs => (names? cs).map (n :: ·)
  | .root :: _ => none
  | .up :: _ => none

/-- Names joined with single slashes. -/
def ofNames (ns : List Text) : Text := joinWith ['/'] ns

/-- A path without root and climbs, its empty pieces and dots dropped. -/
def relative? (p : Text) : Option Text := (names? (components p)).map ofNames

/-- The path `p` written in the directory `base`, in canonical form. There is none when `p` or `base`
is absolute or when the path climbs above the project. -/
def resolve? (base p : Text) : Option Text :=
  (names? (clean (components (append base p)))).map ofNames

/-- A path given by a user, in canonical form, with backslashes taken for slashes. -/
def normalize? (p : Text) : Option Text := resolve? [] (replace '\\' '/' p)

/-! ### Parts -/

/-- The directory of a path: what stands before its last slash. -/
def parent (p : Text) : Text := ((p.reverse.dropWhile (· != '/')).drop 1).reverse

/-- The part after the last slash. -/
def fileName (p : Text) : Text := (p.reverse.takeWhile (· != '/')).reverse

/-- The extension of a path with its dot. A name whose only dot is in front has none. -/
def extension? (p : Text) : Option Text :=
  let r := (fileName p).reverse
  match r.dropWhile (· != '.') with
  | '.' :: _ :: _ => some ('.' :: (r.takeWhile (· != '.')).reverse)
  | _ => none

/-! ### Start files -/

/-- What is left of a list after a beginning. -/
def stripComponents : List Component → List Component → Option (List Component)
  | [], cs => some cs
  | _ :: _, [] => none
  | b :: bs, c :: cs => if b = c then stripComponents bs cs else none

/-- A start file in canonical form. An absolute path is taken relative to the root of the project;
the root itself and what lies outside have no form. -/
def projectForm? (root start : Text) : Option Text :=
  let form :=
    if isAbsolute start then do
      let rest ← stripComponents (components root) (components start)
      (names? (clean rest)).map ofNames
    else normalize? start
  form.filter (!·.isEmpty)

/-- Two written paths with the same components. -/
def same (p q : Text) : Bool := components p == components q

/-! ### Ancestors -/

/-- A piece between slashes that names nothing. -/
def isIdle (piece : Text) : Bool := piece.isEmpty || piece == ['.']

/-- From the pieces of a directory, the last first, the pieces of each directory above it. -/
def above : List Text → List (List Text)
  | [] => []
  | piece :: rest => if isIdle piece then above rest else rest.dropWhile isIdle :: above rest

/-- The path of a first piece and some more. With nothing in front of its first slash it is absolute. -/
def ofPieces (first : Text) (more : List Text) : Text :=
  if first.isEmpty then '/' :: ofNames more else ofNames (first :: more)

/-- A directory and the directories above it by its text, the deepest first. The first piece of a
relative path counts even if it is a dot, and the empty path lies above it. -/
def ancestors (dir : Text) : List Text :=
  match splitOn '/' dir with
  | [] => [dir]
  | first :: more =>
    dir :: ((above more.reverse).map fun up => ofPieces first up.reverse) ++
      if first.isEmpty then [] else [[]]

end ImportTrail.Path
