import ImportTrail.Text.CharClass

/-!
Patterns that are sought in a whole text. A pattern is tried at every character with the one
before it in view; a match captures a part of the text, and the search goes on after the match. The
captures of several patterns are put in the order of the text.
-/

namespace ImportTrail.Scan

open Text

/-- A match: how many characters stand before the captured part, that part, and how many after. -/
structure Match where
  before : Nat
  capture : Text
  after : Nat
  deriving DecidableEq, Repr

/-- The number of characters of a match. -/
def Match.length (m : Match) : Nat := m.before + m.capture.length + m.after

/-- A pattern sees the character before a place and the text from there on. -/
abbrev Pattern := Option Char → Text → Option Match

/-- A captured text with its position. -/
abbrev Finding := Nat × Text

/-- The findings from position `pos` on, where `skip` characters still belong to the last match. -/
def findFrom (pat : Pattern) : Option Char → Nat → Nat → Text → List Finding
  | _, _, _, [] => []
  | _, pos, skip + 1, c :: s => findFrom pat (some c) (pos + 1) skip s
  | prev, pos, 0, c :: s =>
    match pat prev (c :: s) with
    | some m => (pos + m.before, m.capture) :: findFrom pat (some c) (pos + 1) (m.length - 1) s
    | none => findFrom pat (some c) (pos + 1) 0 s

/-- The findings of a pattern in a text. -/
def find (pat : Pattern) (s : Text) : List Finding := findFrom pat none 0 0 s

/-- Findings in the order of their positions; those at one position keep their order. -/
def inOrder (fs : List Finding) : List Finding := fs.mergeSort fun a b => a.1 ≤ b.1

/-! ### Places -/

/-- No word character stands before the place. -/
def atWordStart : Option Char → Bool
  | none => true
  | some c => !isWord c

/-- The place begins a line. -/
def atLineStart : Option Char → Bool
  | none => true
  | some c => c == '\n'

/-- Either kind of quote. -/
def isQuote (c : Char) : Bool := c == '\'' || c == '"'

/-- What follows at least one space or tab and all others. -/
def afterSpaces? : Text → Option Text
  | c :: s => if isSpaceTab c then some (s.dropWhile isSpaceTab) else none
  | [] => none

end ImportTrail.Scan
