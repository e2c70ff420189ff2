import ImportTrail.Grammar.Lexeme.Python

/-!
Layout of Python: blanks, ends of lines and indentation between lexemes. An end of line ends a
statement only where the statement may end; elsewhere it is a blank, unless the next line stands
left of the block that it is in. Deeper lines open a block only where one is due, and a line left
of a block closes it.
-/

namespace ImportTrail.Grammar.Python

open Text

/-- What stands between two lexemes. -/
structure Gap where
  /-- The text from the next lexeme on. -/
  rest : Text
  /-- An end of line stands between. The end of the text is one. -/
  endsLine : Bool
  /-- The width of the blanks in front of the lexeme on its line. -/
  indent : Nat

/-- A blank that does not count as indentation. -/
def isThinBlank (c : Char) : Bool :=
  c == '\x0b' || c == '\u200b' || c == '\u2060' || c == '\ufeff'

/-- The gap in front of a text, given whether a comment is being read and what is known of the gap
so far. A backslash at the end of a line hides the end. -/
def gapFrom : Bool → Bool → Nat → Text → Gap
  | _, _, _, [] => ⟨[], true, 0⟩
  | comment, endsLine, indent, c :: s =>
    if c == '\n' then gapFrom false true 0 s
    else if comment then gapFrom true endsLine indent s
    else if c == ' ' then gapFrom false endsLine (indent + 1) s
    else if c == '\t' then gapFrom false endsLine (indent + 8) s
    else if c == '\r' || c == '\x0c' then gapFrom false endsLine 0 s
    else if isThinBlank c then gapFrom false endsLine indent s
    else if c == '#' then gapFrom true endsLine indent s
    else if c == '\\' then
      match s with
      | '\n' :: r | '\r' :: '\n' :: r => gapFrom false endsLine indent r
      | [] => ⟨[], true, 0⟩
      | _ => ⟨c :: s, endsLine, indent⟩
    else ⟨c :: s, endsLine, indent⟩

/-- The gap in front of a text. -/
def gap (s : Text) : Gap := gapFrom false false 0 s

/-- What a lexeme stands in. -/
inductive Enclosure where
  /-- Between brackets, where ends of lines are blanks. -/
  | bracket
  /-- In a phrase that has to be completed, where the statement cannot end. -/
  | phrase
  /-- In a string with expressions. -/
  | quoted (q : Quote)

/-- What the last lexeme says about the next one. -/
inductive Expectation where
  /-- A statement is complete, and another one may begin. -/
  | statement
  /-- Something has to follow. -/
  | more
  /-- Nothing has to follow. -/
  | nothing
deriving DecidableEq

/-- A place in a source text. -/
structure Cursor where
  rest : Text
  /-- The indentations of the blocks around, the innermost first. -/
  blocks : List Nat
  /-- The brackets, phrases and strings around, the innermost first. -/
  within : List Enclosure
  expects : Expectation

namespace Cursor

/-- The beginning of a text. -/
def start (s : Text) : Cursor := ⟨s, [], [], .statement⟩

/-- The indentation of the innermost block. -/
def margin (c : Cursor) : Nat := c.blocks.headD 0

/-- A string begins here. -/
def beginsString (s : Text) : Bool := s.head?.any fun c => c == '"' || c == '\'' || c == '`'

/-- The gap can stand between two lexemes of one statement. -/
def admits (c : Cursor) (g : Gap) : Bool :=
  !g.endsLine ||
    match c.expects, c.within with
    | .statement, _ => c.margin ≤ g.indent
    | .more, _ => c.margin ≤ g.indent || beginsString g.rest
    | .nothing, .bracket :: _ => true
    | .nothing, .phrase :: _ => c.margin ≤ g.indent
    | .nothing, _ => false

/-- Read a lexeme after a gap. -/
def take (read : Text → Option Text) (expects : Expectation) (c : Cursor) : Option Cursor :=
  let g := gap c.rest
  if c.admits g then (read g.rest).map fun r => { c with rest := r, expects } else none

/-- Read on without a gap. -/
def takeTight (read : Text → Option Text) (c : Cursor) : Option Cursor :=
  (read c.rest).map fun r => { c with rest := r, expects := .nothing }

/-- Go into an enclosure. -/
def enter (e : Enclosure) (c : Cursor) : Option Cursor := some { c with within := e :: c.within }

/-- Go out of the innermost enclosure. -/
def leave (c : Cursor) : Option Cursor := some { c with within := c.within.tail }

/-- The end of a statement. -/
def endStatement (c : Cursor) : Option Cursor :=
  if (gap c.rest).endsLine then some { c with expects := .statement } else none

/-- The beginning of a block: a deeper line. -/
def openBlock (c : Cursor) : Option Cursor :=
  let g := gap c.rest
  if g.endsLine && c.margin < g.indent then
    some { c with blocks := g.indent :: c.blocks, expects := .statement }
  else none

/-- The end of a line in place of a block: a block without statements. -/
def skipBlock (c : Cursor) : Option Cursor :=
  let g := gap c.rest
  if g.endsLine && g.indent ≤ c.margin then some { c with expects := .statement } else none

/-- The end of a block: a line left of it. -/
def closeBlock (c : Cursor) : Option Cursor :=
  let g := gap c.rest
  if g.endsLine && g.indent < c.margin then
    some { c with blocks := c.blocks.tail, expects := .statement }
  else none

/-- The end of the text. -/
def atEnd (c : Cursor) : Option Cursor := if (gap c.rest).rest.isEmpty then some c else none

/-- Open a string with expressions. -/
def openFormat (c : Cursor) : Option Cursor :=
  let g := gap c.rest
  if c.admits g then
    match openQuote? g.rest with
    | some (q, r) =>
      if q.format then some { c with rest := r, within := .quoted q :: c.within } else none
    | none => none
  else none

/-- The text of a string with expressions, up to the next expression or the closing marks. -/
def formatText (c : Cursor) : Option Cursor :=
  match c.within with
  | .quoted q :: _ => (q.skipText true c.rest).map fun r => { c with rest := r }
  | _ => none

/-- Close a string with expressions. -/
def closeFormat (c : Cursor) : Option Cursor :=
  match c.within with
  | .quoted q :: outer =>
    (q.afterClose? c.rest).map fun r => { c with rest := r, within := outer, expects := .nothing }
  | _ => none

/-- The text from the first lexeme after one cursor up to another. -/
def textTo (c d : Cursor) : Text :=
  let s := (gap c.rest).rest
  s.take (s.length - d.rest.length)

end Cursor

end ImportTrail.Grammar.Python
