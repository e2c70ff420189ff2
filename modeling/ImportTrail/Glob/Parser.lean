import ImportTrail.Glob.Token
import ImportTrail.Text.Quoted

/-!
Globs as they are written. The text is read character by character; two stars wait for the
character after them, since they mean any directories only as a whole component of the path.
-/

namespace ImportTrail.Glob

open Text

/-- Why a text is no glob. -/
inductive Fault where
  | unclosedClass
  | invalidRange (first last : Char)
  | unopenedChoice
  | unclosedChoice
  | danglingEscape
  deriving DecidableEq, Repr

/-- The words for a fault. -/
def Fault.message : Fault → Text
  | unclosedClass => "unclosed character class; missing ']'".toList
  | invalidRange first last =>
    "invalid range; ".toList ++ quotedChar first ++ " > ".toList ++ quotedChar last
  | unopenedChoice =>
    "unopened alternate group; missing '\x7b' (maybe escape '\x7d' with '[\x7d]'?)".toList
  | unclosedChoice =>
    "unclosed alternate group; missing '\x7d' (maybe escape '\x7b' with '[\x7b]'?)".toList
  | danglingEscape => "dangling '\\'".toList

/-- A text that is no glob, and why. -/
structure Error where
  glob : Text
  fault : Fault
  deriving DecidableEq, Repr

/-- The words for a text that is no glob. -/
def Error.message (e : Error) : Text :=
  "error parsing glob '".toList ++ e.glob ++ "': ".toList ++ e.fault.message

/-! ### Reading -/

/-- What the reader is in the middle of. The character before a place matters to stars. -/
inductive Mode where
  | plain (prev : Option Char)
  | star (prev : Option Char)
  | stars (prev : Option Char)
  | escape
  | classStart
  | inClass (negated isFirst isRange : Bool) (ranges : List (Char × Char))

/-- A choice that is not closed yet: the parts before it, the last first, and its finished
branches, the last first. -/
structure OpenChoice where
  before : List Token
  branches : List (List Token)

/-- The state of the reader: the parts of the branch at hand, the last first, and the choices
around it, the innermost first. -/
structure State where
  parts : List Token := []
  opened : List OpenChoice := []
  mode : Mode := .plain none

namespace State

/-- One more part. -/
def push (st : State) (t : Token) : State := ⟨t :: st.parts, st.opened, st.mode⟩

/-- The reader in another mode. -/
def inMode (st : State) (m : Mode) : State := ⟨st.parts, st.opened, m⟩

/-- Two stars as a component of a path, in place of the slash before them. A part of the kind that
goes over directories is kept if it stands there. -/
def recurse (st : State) (t : Token) : State :=
  match st.parts with
  | .leading :: ts => ⟨.leading :: ts, st.opened, st.mode⟩
  | .trailing :: ts => ⟨.trailing :: ts, st.opened, st.mode⟩
  | _ :: ts => ⟨t :: ts, st.opened, st.mode⟩
  | [] => st.push t

/-- Two stars, by the characters before and after them, and whether the one after is used up. -/
def twoStars (st : State) (prev next : Option Char) : State × Bool :=
  let plain := ((st.push .run).push .run, false)
  if st.parts.isEmpty then
    match next with
    | none => (st.push .leading, false)
    | some '/' => (st.push .leading, true)
    | some _ => plain
  else if prev != some '/' &&
      (st.opened.isEmpty || (prev != some ',' && prev != some '\x7b')) then plain
  else match next with
    | none => (st.recurse .trailing, false)
    | some '/' => (st.recurse .middle, true)
    | some c =>
      if (c == ',' || c == '\x7d') && !st.opened.isEmpty then (st.recurse .trailing, false)
      else plain

/-- A character outside of classes and escapes, after any stars before it are settled. -/
def readPlain (st : State) (prev : Option Char) (c : Char) : Except Fault State :=
  let next := Mode.plain (some c)
  if c = '?' then .ok ((st.push .any).inMode next)
  else if c = '*' then .ok (st.inMode (.star prev))
  else if c = '[' then .ok (st.inMode .classStart)
  else if c = '\x7b' then .ok ⟨[], ⟨st.parts, []⟩ :: st.opened, next⟩
  else if c = '\x7d' then
    match st.opened with
    | [] => .error .unopenedChoice
    | o :: os =>
      .ok ⟨.choice (st.parts.reverse :: o.branches).reverse :: o.before, os, next⟩
  else if c = ',' then
    match st.opened with
    | [] => .ok ((st.push (.literal ',')).inMode next)
    | o :: os => .ok ⟨[], ⟨o.before, st.parts.reverse :: o.branches⟩ :: os, next⟩
  else if c = '\\' then .ok (st.inMode .escape)
  else .ok ((st.push (.literal c)).inMode next)

/-- A range that is given its last character. -/
def closeRange (c : Char) : List (Char × Char) → Except Fault (List (Char × Char))
  | (first, _) :: rs => if c < first then .error (.invalidRange first c) else .ok ((first, c) :: rs)
  | [] => .ok [(c, c)]

/-- A character of a class. -/
def readClass (st : State) (negated isFirst isRange : Bool) (ranges : List (Char × Char))
    (c : Char) : Except Fault State :=
  if c = ']' ∧ !isFirst then
    let all := if isRange then ('-', '-') :: ranges else ranges
    .ok ((st.push (.oneOf negated all.reverse)).inMode (.plain (some c)))
  else if c = '-' ∧ !isFirst ∧ !isRange then .ok (st.inMode (.inClass negated false true ranges))
  else if isRange then do
    let ranges ← closeRange c ranges
    .ok (st.inMode (.inClass negated false false ranges))
  else .ok (st.inMode (.inClass negated false false ((c, c) :: ranges)))

/-- One more character. -/
def read (st : State) (c : Char) : Except Fault State :=
  match st.mode with
  | .plain prev => st.readPlain prev c
  | .star prev =>
    if c = '*' then .ok (st.inMode (.stars prev)) else (st.push .run).readPlain (some '*') c
  | .stars prev =>
    match st.twoStars prev (some c) with
    | (st', true) => .ok (st'.inMode (.plain (some c)))
    | (st', false) => st'.readPlain (some '*') c
  | .escape => .ok ((st.push (.literal c)).inMode (.plain (some c)))
  | .classStart =>
    if c = '!' ∨ c = '^' then .ok (st.inMode (.inClass true true false []))
    else st.readClass false true false [] c
  | .inClass negated isFirst isRange ranges => st.readClass negated isFirst isRange ranges c

/-- The end of the text. -/
def finish (st : State) : Except Fault (List Token) := do
  let st ← match st.mode with
    | .plain _ => pure st
    | .star _ => pure (st.push .run)
    | .stars prev => pure (st.twoStars prev none).1
    | .escape => .error .danglingEscape
    | .classStart => .error .unclosedClass
    | .inClass _ _ _ _ => .error .unclosedClass
  if st.opened.isEmpty then .ok st.parts.reverse else .error .unclosedChoice

end State

/-- The parts of a glob. -/
def parse (glob : Text) : Except Fault (List Token) := do
  (← glob.foldlM State.read {}).finish

/-- A glob matches a path. One that is nothing but leading directories matches every path. -/
def isMatch (glob : List Token) (path : Text) : Bool :=
  match glob with
  | [.leading] => true
  | _ => (seqRests glob (Text.bytes path)).contains []

end ImportTrail.Glob
