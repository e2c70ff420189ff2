import ImportTrail.Text.Basic

/-!
The parts of a glob and the paths they match. A glob is matched against the bytes of a whole path.
Each part takes a piece off the front of what is left of the path; the pieces it may leave are
listed, and a glob matches when its parts can leave nothing.
-/

namespace ImportTrail.Glob

/-- A part of a glob. -/
inductive Token where
  /-- A character that stands for itself. -/
  | literal (c : Char)
  /-- One byte other than a slash. -/
  | any
  /-- Any bytes without a slash. -/
  | run
  /-- Any directories in front of a path, or none. -/
  | leading
  /-- Everything below a directory. -/
  | trailing
  /-- A slash, or any directories between two slashes. -/
  | middle
  /-- One byte inside or, if negated, outside of some ranges of characters. -/
  | oneOf (negated : Bool) (ranges : List (Char × Char))
  /-- One of some globs. -/
  | choice (branches : List (List Token))

/-- The bytes of a path, or what is left of them. -/
abbrev Bytes := List UInt8

/-- The byte of the slash. -/
def slash : UInt8 := 47

/-! ### What a part leaves of a path -/

/-- What is left after given bytes. -/
def afterBytes : Bytes → Bytes → List Bytes
  | [], s => [s]
  | _ :: _, [] => []
  | a :: p, b :: s => if a = b then afterBytes p s else []

/-- What is left after any bytes without a slash. -/
def afterRun : Bytes → List Bytes
  | [] => [[]]
  | b :: s => (b :: s) :: if b = slash then [] else afterRun s

/-- What is left after any bytes. -/
def tails : Bytes → List Bytes
  | [] => [[]]
  | b :: s => (b :: s) :: tails s

/-- What is left after each slash. -/
def afterSlashes : Bytes → List Bytes
  | [] => []
  | b :: s => if b = slash then s :: afterSlashes s else afterSlashes s

/-- A byte that a range admits. A character of several bytes counts as its bytes, and a range runs
from the last byte of its first character to the first byte of its last. -/
def inRange (b : UInt8) (r : Char × Char) : Bool :=
  let lo := String.utf8EncodeChar r.1
  let hi := String.utf8EncodeChar r.2
  if r.1 = r.2 then lo.contains b
  else lo.contains b || hi.contains b ||
    match lo.getLast?, hi.head? with
    | some x, some y => x ≤ b && b ≤ y
    | _, _ => false

mutual

/-- The part adds nothing to a glob: a choice without anything to choose. -/
def Token.isVoid : Token → Bool
  | .choice branches => allVoid branches
  | _ => false

/-- All parts add nothing. -/
def isVoidSeq : List Token → Bool
  | [] => true
  | t :: ts => t.isVoid && isVoidSeq ts

/-- All branches add nothing. -/
def allVoid : List (List Token) → Bool
  | [] => true
  | b :: bs => isVoidSeq b && allVoid bs

end

mutual

/-- What a part may leave of a path. -/
def Token.rests : Token → Bytes → List Bytes
  | .literal c, s => afterBytes (String.utf8EncodeChar c) s
  | .any, b :: s => if b = slash then [] else [s]
  | .any, [] => []
  | .run, s => afterRun s
  | .leading, s => s :: afterSlashes s
  | .trailing, b :: s => if b = slash then tails s else []
  | .trailing, [] => []
  | .middle, b :: s => if b = slash then s :: afterSlashes s else []
  | .middle, [] => []
  | .oneOf negated ranges, b :: s => if ranges.any (inRange b) != negated then [s] else []
  | .oneOf _ _, [] => []
  | .choice branches, s => if allVoid branches then [s] else choiceRests branches s

/-- What some parts in a row may leave of a path. -/
def seqRests : List Token → Bytes → List Bytes
  | [], s => [s]
  | t :: ts, s => (t.rests s).eraseDups.flatMap (seqRests ts)

/-- What one of some globs may leave of a path; one that adds nothing is not chosen. -/
def choiceRests : List (List Token) → Bytes → List Bytes
  | [], _ => []
  | b :: bs, s => (if isVoidSeq b then [] else seqRests b s) ++ choiceRests bs s

end

end ImportTrail.Glob
