import ImportTrail.Glob.Parser

/-!
Ignore patterns. A pattern stands for globs: a leading slash ties it to the root of the project, a
trailing slash asks for something below it, and a pattern without a slash inside floats to any
depth. What lies below an ignored path is ignored.
-/

namespace ImportTrail

open Text

/-- The globs of a pattern without blanks around it. -/
def Glob.ofPattern (pattern : Text) : List Text :=
  let body := dropEndWhile (· == '/') (pattern.dropWhile (· == '/'))
  let anchored := startsWith pattern ['/']
  let below := endsWith pattern ['/']
  let floating := !anchored && !body.contains '/'
  let deep := "/**".toList
  let anywhere := "**/".toList
  (if below then [] else [body]) ++ [body ++ deep] ++
    if floating then
      (if below then [] else [anywhere ++ body]) ++ [anywhere ++ body ++ deep]
    else []

/-- A set of globs whose matches are ignored. -/
structure IgnoreSet where
  globs : List (List Glob.Token) := []

namespace IgnoreSet

/-- The globs of some patterns in order; blank patterns have none. -/
def globTexts (patterns : List Text) : List Text :=
  ((patterns.map trim).filter (!·.isEmpty)).flatMap Glob.ofPattern

/-- The parts of a glob, or its fault with its text. -/
def compile (glob : Text) : Except Glob.Error (List Glob.Token) :=
  (Glob.parse glob).mapError (⟨glob, ·⟩)

/-- The set of some patterns. The first faulty glob is the error. -/
def ofPatterns (patterns : List Text) : Except Glob.Error IgnoreSet := do
  return ⟨← (globTexts patterns).mapM compile⟩

/-- The set ignores a path. -/
def ignores (set : IgnoreSet) (path : Text) : Bool := set.globs.any fun g => Glob.isMatch g path

end IgnoreSet

end ImportTrail
