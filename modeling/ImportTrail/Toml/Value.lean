import ImportTrail.Decimal
import ImportTrail.Text.CharClass

/-!
Values of TOML and their spelling: strings in four kinds of quotes, numbers, dates, arrays and
inline tables. A reader takes a text to a value and the rest of the text. Nested values are read
with fuel that the length of the text supplies.
-/

namespace ImportTrail.Toml

open Text

/-- A value. A date is a table with one entry, its text. -/
inductive Value where
  | string (s : Text)
  | integer (i : Int)
  | float (x : Decimal.Floating)
  | boolean (b : Bool)
  | array (items : List Value)
  | table (entries : List (Text × Value))

/-- A reader: a value in front of a text and the rest. -/
abbrev Reader (α : Type) := Text → Option (α × Text)

/-! ### Blanks and comments -/

/-- What follows an end of line in front: a line feed, with or without a carriage return. -/
def afterNewline? : Text → Option Text
  | '\n' :: s => some s
  | '\r' :: '\n' :: s => some s
  | _ => none

/-- A character that may stand in a comment or between quotes: no control but the tab. -/
def isTextual (c : Char) : Bool := c == '\t' || (32 ≤ c.toNat && c.toNat != 127)

/-- What follows a comment in front, up to the end of its line. -/
def afterComment (s : Text) : Text :=
  match s with
  | '#' :: r => r.dropWhile isTextual
  | _ => s

/-- What follows blanks, comments and ends of lines. -/
def afterTrivia : Nat → Text → Text
  | 0, s => s
  | n + 1, s =>
    let r := afterComment (s.dropWhile isSpaceTab)
    match afterNewline? r with
    | some t => afterTrivia n t
    | none => r

/-! ### Strings -/

/-- The number of some hexadecimal digits. -/
def hexNumber? (s : Text) : Option Nat :=
  s.foldlM (fun n c =>
    if isDigit c then some (16 * n + (c.toNat - 48))
    else if 'a' ≤ c ∧ c ≤ 'f' then some (16 * n + (c.toNat - 87))
    else if 'A' ≤ c ∧ c ≤ 'F' then some (16 * n + (c.toNat - 55))
    else none) 0

/-- The character of `n` hexadecimal digits in front. -/
def hexChar? (n : Nat) (s : Text) : Option (Char × Text) := do
  let digits := s.take n
  if digits.length = n then
    let v ← hexNumber? digits
    if v.isValidChar then some (Char.ofNat v, s.drop n) else none
  else none

/-- The character that an escape stands for, read after its backslash. -/
def escaped? : Reader Char
  | 'b' :: s => some ('\x08', s)
  | 't' :: s => some ('\t', s)
  | 'n' :: s => some ('\n', s)
  | 'f' :: s => some ('\x0c', s)
  | 'r' :: s => some ('\r', s)
  | '"' :: s => some ('"', s)
  | '\\' :: s => some ('\\', s)
  | 'u' :: s => hexChar? 4 s
  | 'U' :: s => hexChar? 8 s
  | _ => none

/-- The rest of a string in double quotes on one line. -/
def basicString? : Nat → Text → Reader Text
  | 0, _, _ => none
  | _ + 1, _, [] => none
  | n + 1, acc, c :: s =>
    if c = '"' then some (acc.reverse, s)
    else if c = '\\' then do
      let (e, r) ← escaped? s
      basicString? n (e :: acc) r
    else if isTextual c then basicString? n (c :: acc) s
    else none

/-- The rest of a string in single quotes on one line. -/
def literalString? (acc : Text) : Reader Text
  | [] => none
  | c :: s =>
    if c = '\'' then some (acc.reverse, s)
    else if isTextual c then literalString? (c :: acc) s
    else none

/-- The end of a string of several lines: three quotes, with up to two more that belong to it. -/
def closing? (q : Char) (s : Text) : Option (Text × Text) :=
  let quotes := s.takeWhile (· == q)
  if quotes.length < 3 then none
  else if quotes.length ≤ 5 then some (List.replicate (quotes.length - 3) q, s.drop quotes.length)
  else some ([q, q], s.drop 5)

/-- What follows a backslash at the end of a line, with all blanks and lines after it. -/
def afterLineBreak? (s : Text) : Option Text := do
  let r ← afterNewline? (s.dropWhile isSpaceTab)
  some (skip r.length r)
where
  /-- What follows blanks and ends of lines. -/
  skip : Nat → Text → Text
    | 0, s => s
    | n + 1, s =>
      let r := s.dropWhile isSpaceTab
      match afterNewline? r with
      | some t => skip n t
      | none => r

/-- The rest of a string in double quotes over several lines. -/
def longBasicString? : Nat → Text → Reader Text
  | 0, _, _ => none
  | _ + 1, _, [] => none
  | n + 1, acc, c :: s =>
    match closing? '"' (c :: s), afterNewline? (c :: s) with
    | some (extra, r), _ => some (acc.reverse ++ extra, r)
    | none, some r => longBasicString? n ('\n' :: acc) r
    | none, none =>
      if c = '\\' then
        match afterLineBreak? s with
        | some r => longBasicString? n acc r
        | none => do
          let (e, r) ← escaped? s
          longBasicString? n (e :: acc) r
      else if isTextual c then longBasicString? n (c :: acc) s
      else none

/-- The rest of a string in single quotes over several lines. -/
def longLiteralString? : Nat → Text → Reader Text
  | 0, _, _ => none
  | _ + 1, _, [] => none
  | n + 1, acc, c :: s =>
    match closing? '\'' (c :: s), afterNewline? (c :: s) with
    | some (extra, r), _ => some (acc.reverse ++ extra, r)
    | none, some r => longLiteralString? n ('\n' :: acc) r
    | none, none => if isTextual c then longLiteralString? n (c :: acc) s else none

/-- A string of one line in either kind of quotes. -/
def shortString? : Reader Text
  | '"' :: s => basicString? (s.length + 1) [] s
  | '\'' :: s => literalString? [] s
  | _ => none

/-- A string. An end of line right after three quotes is not part of it. -/
def string? (s : Text) : Option (Text × Text) :=
  match s with
  | '"' :: '"' :: '"' :: r =>
    let r := (afterNewline? r).getD r
    longBasicString? (r.length + 1) [] r
  | '\'' :: '\'' :: '\'' :: r =>
    let r := (afterNewline? r).getD r
    longLiteralString? (r.length + 1) [] r
  | _ => shortString? s

/-! ### Numbers -/

/-- Digits in front, single underscores between them left out. -/
def digits (ok : Char → Bool) : Text → Text × Text
  | [] => ([], [])
  | [c] => if ok c then ([c], []) else ([], [c])
  | c :: d :: s =>
    if !ok c then ([], c :: d :: s)
    else if d = '_' then
      match digits ok s with
      | ([], _) => ([c], d :: s)
      | (ds, r) => (c :: ds, r)
    else
      match digits ok (d :: s) with
      | (ds, r) => (c :: ds, r)

/-- The value of digits in a base up to sixteen. -/
def digitsValue (base : Nat) (ds : Text) : Nat :=
  ds.foldl (fun n c => base * n +
    (if isDigit c then c.toNat - 48 else if 'a' ≤ c then c.toNat - 87 else c.toNat - 55)) 0

/-- A sign in front, and the rest. -/
def sign : Text → Bool × Text
  | '-' :: s => (true, s)
  | '+' :: s => (false, s)
  | s => (false, s)

/-- Digits of a decimal number without a needless zero in front. -/
def decimalDigits? (s : Text) : Option (Text × Text) :=
  match s with
  | '0' :: r => some (['0'], r)
  | _ => match digits isDigit s with
    | ([], _) => none
    | x => some x

/-- A hexadecimal digit. -/
def isHexDigit (c : Char) : Bool := isDigit c || ('a' ≤ c && c ≤ 'f') || ('A' ≤ c && c ≤ 'F')

/-- An integer of 64 bits with a sign. -/
def inRange (i : Int) : Bool := -(Nat.pow 2 63 : Int) ≤ i && i < (Nat.pow 2 63 : Int)

/-- An integer in a base that is named in front. -/
def basedInteger? (base : Nat) (ok : Char → Bool) (s : Text) : Option (Value × Text) :=
  match digits ok s with
  | ([], _) => none
  | (ds, r) =>
    let i : Int := digitsValue base ds
    if inRange i then some (.integer i, r) else none

/-- An integer. -/
def integer? (s : Text) : Option (Value × Text) :=
  match s with
  | '0' :: 'x' :: r => basedInteger? 16 isHexDigit r
  | '0' :: 'o' :: r => basedInteger? 8 (fun c => '0' ≤ c && c ≤ '7') r
  | '0' :: 'b' :: r => basedInteger? 2 (fun c => c == '0' || c == '1') r
  | _ => do
    let (negative, r) := sign s
    let (ds, r) ← decimalDigits? r
    let n : Int := digitsValue 10 ds
    let i := if negative then -n else n
    if inRange i then some (.integer i, r) else none

/-- The exponent of a number, after its `e`. -/
def exponent? (s : Text) : Option (Int × Text) :=
  let (negative, r) := sign s
  match digits isDigit r with
  | ([], _) => none
  | (ds, r) =>
    let n : Int := digitsValue 10 ds
    some (if negative then -n else n, r)

/-- An exponent if there is one; zero if there is none. -/
def exponentOrZero? (s : Text) : Option (Int × Text) :=
  match s with
  | 'e' :: r => exponent? r
  | 'E' :: r => exponent? r
  | _ => some (0, s)

/-- A number with a fraction or an exponent, or one of the special words. One that is too large is
not accepted. -/
def float? (s : Text) : Option (Value × Text) := do
  let (negative, r) := sign s
  match after? "inf".toList r, after? "nan".toList r with
  | some t, _ => some (.float (.infinite negative), t)
  | none, some t => some (.float .notANumber, t)
  | none, none =>
    let (whole, r) ← decimalDigits? r
    let (fraction, r, pointed) ← match r with
      | '.' :: t => match digits isDigit t with
        | ([], _) => none
        | (ds, t) => some (ds, t, true)
      | _ => some ([], r, false)
    let (e, t) ← exponentOrZero? r
    if !pointed ∧ t.length = r.length then none
    else
      let x := Decimal.toFloating negative (digitsValue 10 (whole ++ fraction)) (e - fraction.length)
      if x = .infinite false then none else some (.float x, t)

/-! ### Dates -/

/-- A number of exactly `n` digits between two bounds. -/
def fixedNumber? (n low high : Nat) (s : Text) : Option (Nat × Text) :=
  let ds := s.take n
  if ds.length = n ∧ ds.all isDigit then
    let v := digitsValue 10 ds
    if low ≤ v ∧ v ≤ high then some (v, s.drop n) else none
  else none

/-- The number of days of a month. -/
def daysOf (year month : Nat) : Nat :=
  if month = 2 then if (year % 4 = 0 ∧ year % 100 ≠ 0) ∨ year % 400 = 0 then 29 else 28
  else if month = 4 ∨ month = 6 ∨ month = 9 ∨ month = 11 then 30 else 31

/-- What follows a day in front. -/
def afterDay? (s : Text) : Option Text := do
  let (year, r) ← fixedNumber? 4 0 9999 s
  let (month, r) ← fixedNumber? 2 1 12 (← after? ['-'] r)
  let (_, r) ← fixedNumber? 2 1 (daysOf year month) (← after? ['-'] r)
  some r

/-- What follows a time of day in front. -/
def afterTime? (s : Text) : Option Text := do
  let (_, r) ← fixedNumber? 2 0 23 s
  let (_, r) ← fixedNumber? 2 0 59 (← after? [':'] r)
  let (_, r) ← fixedNumber? 2 0 60 (← after? [':'] r)
  match r with
  | '.' :: c :: t => if isDigit c then some (t.dropWhile isDigit) else some r
  | _ => some r

/-- What follows the offset of a time if there is one. -/
def afterOffset (s : Text) : Text :=
  let clock (t : Text) : Option Text := do
    let (_, r) ← fixedNumber? 2 0 23 t
    let (_, r) ← fixedNumber? 2 0 59 (← after? [':'] r)
    some r
  match s with
  | 'Z' :: t => t
  | 'z' :: t => t
  | '+' :: t => (clock t).getD s
  | '-' :: t => (clock t).getD s
  | _ => s

/-- A date, a time or both. -/
def date? (s : Text) : Option (Value × Text) := do
  let rest ← match afterDay? s with
    | some r => match r with
      | c :: t =>
        if c = 'T' ∨ c = 't' ∨ c = ' ' then some (((afterTime? t).map afterOffset).getD r)
        else some r
      | [] => some r
    | none => afterTime? s
  let written := s.take (s.length - rest.length)
  some (.table [("$__toml_private_datetime".toList, .string written)], rest)

/-! ### Keys -/

/-- A character of a key without quotes. -/
def isKeyChar (c : Char) : Bool := isLetter c || isDigit c || c == '_' || c == '-'

/-- One part of a key. -/
def keyPart? (s : Text) : Option (Text × Text) :=
  match s with
  | '"' :: _ => shortString? s
  | '\'' :: _ => shortString? s
  | _ =>
    let k := s.takeWhile isKeyChar
    if k.isEmpty then none else some (k, s.drop k.length)

/-- A key of parts between points, with blanks around each. -/
def key? : Nat → Text → Option (List Text × Text)
  | 0, _ => none
  | n + 1, s => do
    let (k, r) ← keyPart? (s.dropWhile isSpaceTab)
    let r := r.dropWhile isSpaceTab
    match r with
    | '.' :: t => do
      let (ks, t) ← key? n t
      some (k :: ks, t)
    | _ => some ([k], r)

/-! ### Tables within a value -/

/-- A table that is being filled in a value: it may be extended by dotted keys while it came from
one. -/
inductive Inline where
  | value (v : Value)
  | table (dotted : Bool) (entries : List (Text × Inline))

/-- Give the entry of a key a new content. -/
def setEntry {α : Type} (k : Text) (x : α) : List (Text × α) → List (Text × α)
  | [] => [(k, x)]
  | (k', y) :: es => if k' = k then (k, x) :: es else (k', y) :: setEntry k x es

/-- A value under a key of several parts in the entries of a table. A part that is there already
has to be a table that came from dotted keys, and the last must be new. -/
def insertInline (v : Value) : List Text → List (Text × Inline) → Option (List (Text × Inline))
  | [], _ => none
  | [k], es => if (es.lookup k).isSome then none else some (setEntry k (.value v) es)
  | k :: ks, es =>
    match es.lookup k with
    | none => (insertInline v ks []).map fun inner => setEntry k (.table true inner) es
    | some (.table true inner) =>
      (insertInline v ks inner).map fun inner => setEntry k (.table true inner) es
    | some _ => none

mutual

/-- A filled table as a value. -/
def Inline.toValue : Inline → Value
  | .value v => v
  | .table _ es => .table (inlineEntries es)

/-- The entries of a filled table as values. -/
def inlineEntries : List (Text × Inline) → List (Text × Value)
  | [] => []
  | (k, x) :: es => (k, x.toValue) :: inlineEntries es

end

/-! ### Values -/

/-- A value that is no string, array or table. -/
def atom? (s : Text) : Option (Value × Text) :=
  match s with
  | [] => none
  | c :: _ =>
    if c = 't' then (after? "true".toList s).map fun r => (.boolean true, r)
    else if c = 'f' then (after? "false".toList s).map fun r => (.boolean false, r)
    else (date? s).orElse fun _ => (float? s).orElse fun _ => integer? s

mutual

/-- A value in front of a text. -/
def value? : Nat → Reader Value
  | 0, _ => none
  | n + 1, s =>
    match s with
    | '"' :: _ => (string? s).map fun (t, r) => (.string t, r)
    | '\'' :: _ => (string? s).map fun (t, r) => (.string t, r)
    | '[' :: r => (items? n r).map fun (vs, t) => (.array vs, t)
    | '\x7b' :: r =>
      match r.dropWhile isSpaceTab with
      | '\x7d' :: t => some (.table [], t)
      | t => (entries? n [] t).map fun (es, t) => (.table (inlineEntries es), t)
    | _ => atom? s

/-- The items of an array after its bracket. A comma may stand after the last. -/
def items? : Nat → Reader (List Value)
  | 0, _ => none
  | n + 1, s => do
    let r := afterTrivia s.length s
    match r with
    | ']' :: t => some ([], t)
    | _ =>
      let (v, r) ← value? n r
      match afterTrivia r.length r with
      | ',' :: t => do
        let (vs, t) ← items? n t
        some (v :: vs, t)
      | ']' :: t => some ([v], t)
      | _ => none

/-- The entries of a table between braces, on one line and without a comma after the last. -/
def entries? : Nat → List (Text × Inline) → Reader (List (Text × Inline))
  | 0, _, _ => none
  | n + 1, es, s => do
    let (k, r) ← key? s.length s
    let r ← after? ['='] r
    let (v, r) ← value? n (r.dropWhile isSpaceTab)
    let es ← insertInline v k es
    match r.dropWhile isSpaceTab with
    | ',' :: t => entries? n es t
    | '\x7d' :: t => some (es, t)
    | _ => none

end

end ImportTrail.Toml
