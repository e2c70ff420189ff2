import ImportTrail.Text.CharClass

/-!
Words, numbers, signs and strings of Python. Each reader takes a lexeme from the front of a text
and gives what is left.
-/

namespace ImportTrail.Grammar.Python

open Text

/-! ### Words, signs and numbers -/

/-- A word in front of a text: an identifier, whether or not it means something by itself. -/
def word? : Text → Option (Text × Text)
  | c :: s =>
    if isIdentStart c then some (c :: s.takeWhile isIdentRest, s.dropWhile isIdentRest) else none
  | [] => none

/-- The signs, longer ones first. Dots count one by one. -/
def signs : List Text :=
  ["**=", "//=", ">>=", "<<=", "**", "//", ">>", "<<", "<=", ">=", "==", "!=", "<>", "->", ":=",
    "+=", "-=", "*=", "/=", "%=", "@=", "&=", "|=", "^=", "+", "-", "*", "/", "%", "@", "&", "|",
    "^", "~", "<", ">", "=", ".", ",", ":", ";", "(", ")", "[", "]", "\x7b",
    "\x7d"].map String.toList

/-- What follows a sign that is the longest one in front of a text. -/
def afterSign? (sign s : Text) : Option Text :=
  if signs.find? (startsWith s ·) == some sign then after? sign s else none

/-- What follows decimal digits and underscores. -/
def afterDigits (s : Text) : Text := s.dropWhile fun c => isDigit c || c == '_'

/-- The text begins with a decimal digit. -/
def digitFirst (s : Text) : Bool := s.head?.any isDigit

/-- What follows an exponent in front, all if there is none. -/
def afterExponent (s : Text) : Text :=
  match s with
  | e :: r =>
    if e == 'e' || e == 'E' then
      let d := match r with
        | '+' :: d | '-' :: d => d
        | d => d
      if digitFirst d then afterDigits d else s
    else s
  | [] => s

/-- What follows one of the given characters, all if another one is in front. -/
def afterOneOf (cs : Text) (s : Text) : Text :=
  match s with
  | c :: r => if cs.contains c then r else s
  | [] => s

/-- What follows digits of another base, after the letter of the base. -/
def afterBased? (digit : Char → Bool) (s : Text) : Option Text :=
  match s.dropWhile (· == '_') with
  | c :: r =>
    if digit c then some (afterOneOf ['l', 'L'] (r.dropWhile fun c => digit c || c == '_'))
    else none
  | [] => none

/-- A digit in base sixteen. -/
def isHexDigit (c : Char) : Bool :=
  isDigit c || ('a' ≤ c && c ≤ 'f') || ('A' ≤ c && c ≤ 'F')

/-- What follows a decimal number, whole or not, with the mark of a long or imaginary one. -/
def afterDecimal? (s : Text) : Option Text :=
  if digitFirst s then
    match afterDigits s with
    | '.' :: r => some (afterOneOf ['j', 'J'] (afterExponent (afterDigits r)))
    | r => some (afterOneOf ['j', 'J', 'l', 'L'] (afterExponent r))
  else match s with
    | '.' :: r =>
      if digitFirst r then some (afterOneOf ['j', 'J'] (afterExponent (afterDigits r))) else none
    | _ => none

/-- What follows a number in front of a text. -/
def afterNumber? (s : Text) : Option Text :=
  let based := match s with
    | '0' :: b :: r =>
      if b == 'x' || b == 'X' then afterBased? isHexDigit r
      else if b == 'o' || b == 'O' then afterBased? (fun c => '0' ≤ c && c ≤ '7') r
      else if b == 'b' || b == 'B' then afterBased? (fun c => c == '0' || c == '1') r
      else none
    | _ => none
  based.orElse fun _ => afterDecimal? s

/-! ### Strings -/

/-- How a string is quoted. -/
structure Quote where
  mark : Char
  /-- Ended by three marks, so it may run over lines. -/
  triple : Bool
  /-- A backslash stands for itself. -/
  raw : Bool
  /-- Braces hold expressions. -/
  format : Bool

/-- The opening of a string: letters that say how to read it, and one mark or three. -/
def openQuote? (s : Text) : Option (Quote × Text) :=
  let isFlag (c : Char) : Bool := "fFrRbBuU".toList.contains c
  let flags := s.takeWhile isFlag
  let raw := flags.any fun c => c == 'r' || c == 'R'
  let format := flags.any fun c => c == 'f' || c == 'F'
  match s.dropWhile isFlag with
  | '`' :: r => some (⟨'`', false, raw, format⟩, r)
  | '"' :: '"' :: '"' :: r => some (⟨'"', true, raw, format⟩, r)
  | '\'' :: '\'' :: '\'' :: r => some (⟨'\'', true, raw, format⟩, r)
  | '"' :: r => some (⟨'"', false, raw, format⟩, r)
  | '\'' :: r => some (⟨'\'', false, raw, format⟩, r)
  | _ => none

/-- What follows the closing marks of a string. -/
def Quote.afterClose? (q : Quote) (s : Text) : Option Text :=
  after? (if q.triple then [q.mark, q.mark, q.mark] else [q.mark]) s

/-- The rest of a string from its closing marks on, or from the brace on that opens an expression.
A string with single marks runs over an end of line only at its beginning or after a
backslash (`fresh`). Doubled braces stand for themselves and single closing ones nowhere. -/
def Quote.skipText (q : Quote) : Bool → Text → Option Text
  | _, [] => none
  | fresh, c :: s =>
    if (q.afterClose? (c :: s)).isSome then some (c :: s)
    else if c == '\\' then
      match s with
      | '\r' :: '\n' :: r => q.skipText true r
      | d :: r =>
        if d == '\n' || d == '\\' || (if q.raw then d == q.mark else d == '"' || d == '\'') then
          q.skipText true r
        else q.skipText true (d :: r)
      | [] => none
    else if c == '\n' && !fresh && !q.triple then none
    else if q.format && (c == '{' || c == '}') then
      match s with
      | d :: r => if d == c then q.skipText true r else if c == '{' then some (c :: s) else none
      | [] => none
    else q.skipText false s

/-- What follows a string without expressions. -/
def afterString? (s : Text) : Option Text :=
  match openQuote? s with
  | some (q, r) => if q.format then none else (q.skipText true r).bind q.afterClose?
  | none => none

end ImportTrail.Grammar.Python
