import ImportTrail.Text.CharClass

/-!
Gaps, words and literals of Rust. Each reader takes a lexeme from the front of a text and gives
what is left.
-/

namespace ImportTrail.Grammar.Rust

open Text

/-! ### Gaps -/

/-- A blank between lexemes. -/
def isSpace (c : Char) : Bool := c == ' ' || ('\t' ≤ c && c ≤ '\r')

/-- Where a gap is being read. -/
inductive GapState where
  /-- Outside of comments. -/
  | blank
  /-- In a comment up to the end of the line. -/
  | line
  /-- In a comment that so many other comments enclose. -/
  | block (outer : Nat)

/-- The text after a gap. A comment in a comment ends first, and one that never ends is no gap. -/
def afterGapFrom? : GapState → Text → Option Text
  | .block _, [] => none
  | _, [] => some []
  | .line, c :: s => afterGapFrom? (if c == '\n' then .blank else .line) s
  | .block n, '/' :: '*' :: s => afterGapFrom? (.block (n + 1)) s
  | .block 0, '*' :: '/' :: s => afterGapFrom? .blank s
  | .block (n + 1), '*' :: '/' :: s => afterGapFrom? (.block n) s
  | .block n, _ :: s => afterGapFrom? (.block n) s
  | .blank, '/' :: '/' :: s => afterGapFrom? .line s
  | .blank, '/' :: '*' :: s => afterGapFrom? (.block 0) s
  | .blank, c :: s => if isSpace c then afterGapFrom? .blank s else some (c :: s)

/-- The text after the gap in front. -/
def afterGap? (s : Text) : Option Text := afterGapFrom? .blank s

/-! ### Words -/

/-- An identifier in front of a text. -/
def identifier? : Text → Option (Text × Text)
  | c :: s =>
    if isIdentStart c then some (c :: s.takeWhile isIdentRest, s.dropWhile isIdentRest) else none
  | [] => none

/-- A word in front of a text: an identifier, possibly marked as a name. -/
def word? (s : Text) : Option (Text × Text) :=
  match s with
  | 'r' :: '#' :: r =>
    match identifier? r with
    | some (w, rest) => some ('r' :: '#' :: w, rest)
    | none => identifier? s
  | _ => identifier? s

/-- What follows a word that satisfies `p`. -/
def afterWord? (p : Text → Bool) (s : Text) : Option Text :=
  match word? s with
  | some (w, r) => if p w then some r else none
  | none => none

/-- What follows a lifetime or a label: a quote and an identifier. -/
def afterLifetime? : Text → Option Text
  | '\'' :: s => (identifier? s).map (·.2)
  | _ => none

/-! ### Numbers -/

/-- What follows the digits of an index. -/
def afterIndex? (s : Text) : Option Text :=
  let r := s.dropWhile isDigit
  if r.length < s.length then some r else none

/-- A digit in base sixteen. -/
def isHexDigit (c : Char) : Bool :=
  isDigit c || ('a' ≤ c && c ≤ 'f') || ('A' ≤ c && c ≤ 'F')

/-- What follows an exponent in front, all if there is none. -/
def afterExponent (s : Text) : Text :=
  match s with
  | e :: r =>
    if e == 'e' || e == 'E' then
      let d := match r with
        | '+' :: d | '-' :: d => d
        | d => d
      if (d.dropWhile (· == '_')).head?.any isDigit then d.dropWhile fun c => isDigit c || c == '_'
      else s
    else s
  | [] => s

/-- What follows a fraction in front, all if there is none. A dot before a name or another dot
begins no fraction. -/
def afterFraction (s : Text) : Text :=
  match s with
  | '.' :: r =>
    if r.head?.any fun c => c == '.' || isIdentStart c then s
    else r.dropWhile fun c => isDigit c || c == '_'
  | _ => s

/-- The types that a number can name at its end. -/
def numberTypes : List Text :=
  ["u8", "i8", "u16", "i16", "u32", "i32", "u64", "i64", "u128", "i128", "isize", "usize", "f32",
    "f64"].map String.toList

/-- What follows the type of a number, all if there is none. -/
def afterNumberType (s : Text) : Text := (numberTypes.findSome? (after? · s)).getD s

/-- What follows digits of another base, after the letter of the base. -/
def afterBased? (digit : Char → Bool) (s : Text) : Option Text :=
  let r := s.dropWhile fun c => digit c || c == '_'
  if r.length < s.length then some r else none

/-- What follows a number in front of a text. -/
def afterNumber? (s : Text) : Option Text :=
  let based := match s with
    | '0' :: 'x' :: r => afterBased? isHexDigit r
    | '0' :: 'o' :: r => afterBased? (fun c => '0' ≤ c && c ≤ '7') r
    | '0' :: 'b' :: r => afterBased? (fun c => c == '0' || c == '1') r
    | _ => none
  let decimal := if s.head?.any isDigit then
      some (afterExponent (afterFraction (s.dropWhile fun c => isDigit c || c == '_')))
    else none
  (based.orElse fun _ => decimal).map afterNumberType

/-! ### Strings and characters -/

/-- What stands after a backslash begins with an escape. -/
def isEscape : Text → Bool
  | 'x' :: a :: b :: _ => isHexDigit a && isHexDigit b
  | 'x' :: _ => false
  | 'u' :: '{' :: s =>
    let r := s.dropWhile isHexDigit
    r.length < s.length && r.head? == some '}'
  | 'u' :: s => (s.take 4).length == 4 && (s.take 4).all isHexDigit
  | _ :: _ => true
  | [] => false

/-- What follows the closing mark of a string. -/
def afterStringEnd? : Text → Option Text
  | [] => none
  | c :: s =>
    if c == '"' then some s
    else if c == '\\' then
      match s with
      | d :: r => if isEscape (d :: r) then afterStringEnd? r else none
      | [] => none
    else afterStringEnd? s

/-- What follows the letter of a string of bytes, all if there is none. -/
def afterKind (s : Text) : Text :=
  match s with
  | 'b' :: r | 'c' :: r => r
  | _ => s

/-- What follows a string with escapes. -/
def afterString? (s : Text) : Option Text :=
  match afterKind s with
  | '"' :: r => afterStringEnd? r
  | _ => none

/-- What follows the closing mark and hashes of a raw string. -/
def afterRawEnd? (closing : Text) : Text → Option Text
  | [] => none
  | c :: s => (after? closing (c :: s)).orElse fun _ => afterRawEnd? closing s

/-- What follows a string without escapes. -/
def afterRawString? (s : Text) : Option Text :=
  match afterKind s with
  | 'r' :: r =>
    match r.dropWhile (· == '#') with
    | '"' :: t => afterRawEnd? ('"' :: r.takeWhile (· == '#')) t
    | _ => none
  | _ => none

/-- What follows an escape, after its backslash. -/
def afterEscape? (s : Text) : Option Text :=
  if isEscape s then
    match s with
    | 'x' :: r => some (r.drop 2)
    | 'u' :: '{' :: r => some ((r.dropWhile isHexDigit).drop 1)
    | 'u' :: r => some (r.drop 4)
    | _ => some (s.drop 1)
  else none

/-- What follows a character in quotes. -/
def afterCharacter? (s : Text) : Option Text :=
  let r := match s with
    | 'b' :: r => r
    | _ => s
  match r with
  | '\'' :: '\'' :: t => some t
  | '\'' :: '\\' :: t => (afterEscape? t).bind (after? ['\''])
  | '\'' :: _ :: '\'' :: t => some t
  | _ => none

/-- What follows a literal. -/
def afterLiteral? (s : Text) : Option Text :=
  [afterRawString?, afterString?, afterCharacter?, afterNumber?].findSome? fun read => read s

end ImportTrail.Grammar.Rust
