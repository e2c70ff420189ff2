/-!
Texts. A text is its list of characters, so every function of the library that reads text is a
recursion on a list. This module holds blanks, trimming, cutting into pieces and gluing them
together again, and the bytes of a text.
-/

namespace ImportTrail

/-- A text is its list of characters. -/
abbrev Text := List Char

namespace Text

/-! ### Blanks -/

/-- White space, the 25 characters of the Unicode property of that name. -/
def isBlank (c : Char) : Bool :=
  let n := c.toNat
  (9 ≤ n && n ≤ 13) || n == 32 ||
    (0x80 ≤ n && (n == 0x85 || n == 0xa0 || n == 0x1680 || (0x2000 ≤ n && n ≤ 0x200a) ||
      n == 0x2028 || n == 0x2029 || n == 0x202f || n == 0x205f || n == 0x3000))

/-- A space or a tab. -/
def isSpaceTab (c : Char) : Bool := c == ' ' || c == '\t'

/-- Drop the blanks in front. -/
def trimStart (s : Text) : Text := s.dropWhile isBlank

/-- Drop what satisfies `p` at the end. -/
def dropEndWhile (p : Char → Bool) (s : Text) : Text := (s.reverse.dropWhile p).reverse

/-- Drop the blanks at the end. -/
def trimEnd (s : Text) : Text := dropEndWhile isBlank s

/-- Drop the blanks at both ends. -/
def trim (s : Text) : Text := trimEnd (trimStart s)

theorem length_dropWhile_le {α : Type} (p : α → Bool) (l : List α) :
    (l.dropWhile p).length ≤ l.length := (List.dropWhile_sublist p).length_le

theorem length_trim_le (s : Text) : (trim s).length ≤ s.length := by
  unfold trim trimEnd dropEndWhile trimStart
  rw [List.length_reverse]
  refine Nat.le_trans (length_dropWhile_le _ _) ?_
  rw [List.length_reverse]
  exact length_dropWhile_le _ _

/-! ### Beginnings and ends -/

/-- What follows `p` in a text that begins with `p`. -/
def after? : Text → Text → Option Text
  | [], s => some s
  | _ :: _, [] => none
  | a :: p, c :: s => if a = c then after? p s else none

/-- The text begins with `p`. -/
def startsWith (s p : Text) : Bool := (after? p s).isSome

/-- What precedes `e` in a text that ends with `e`. -/
def before? (e s : Text) : Option Text := (after? e.reverse s.reverse).map List.reverse

/-- The text ends with `e`. -/
def endsWith (s e : Text) : Bool := (before? e s).isSome

theorem after?_eq_some {p s r : Text} : after? p s = some r ↔ s = p ++ r := by
  induction p generalizing s with
  | nil => simp [after?, eq_comm]
  | cons a p ih =>
    cases s with
    | nil => simp [after?]
    | cons c s =>
      by_cases h : a = c
      · simp [after?, h, ih]
      · simp [after?, h, Ne.symm h]

theorem before?_eq_some {e s r : Text} : before? e s = some r ↔ s = r ++ e := by
  unfold before?
  rw [Option.map_eq_some_iff]
  constructor
  · rintro ⟨t, ht, rfl⟩
    have := congrArg List.reverse (after?_eq_some.1 ht)
    simpa using this
  · rintro rfl
    exact ⟨r.reverse, after?_eq_some.2 (by simp), by simp⟩

/-! ### Pieces -/

/-- The pieces between the occurrences of a character, one more than there are occurrences. -/
def splitOn (sep : Char) : Text → List Text
  | [] => [[]]
  | c :: s =>
    if c = sep then [] :: splitOn sep s
    else match splitOn sep s with
      | [] => [[c]]
      | p :: ps => (c :: p) :: ps

/-- The pieces glued together with a separator. -/
def joinWith (sep : Text) (ps : List Text) : Text := List.intercalate sep ps

/-- The maximal runs without blanks. -/
def words : Text → List Text
  | [] => []
  | c :: s =>
    if isBlank c then words s
    else match s, words s with
      | [], ws => [c] :: ws
      | d :: _, ws => if isBlank d then [c] :: ws else match ws with
        | [] => [[c]]
        | w :: ws => (c :: w) :: ws

/-- The lines of a text: a line ends with a line feed or with a carriage return and a line feed,
and nothing stands after the last end. -/
def lines (s : Text) : List Text :=
  let pieces := splitOn '\n' s
  let ended := pieces.dropLast.map fun l => (before? ['\r'] l).getD l
  match pieces.getLast? with
  | none | some [] => ended
  | some l => ended ++ [l]

/-- What stands before the first occurrence of `sep`, and the whole text if there is none. -/
def beforeFirst (sep : Text) : Text → Text
  | [] => []
  | c :: s => if startsWith (c :: s) sep then [] else c :: beforeFirst sep s

/-- The characters up to the first `c`. -/
def upTo (c : Char) (s : Text) : Text := s.takeWhile (· != c)

/-- Every `a` written as `b`. -/
def replace (a b : Char) (s : Text) : Text := s.map fun c => if c = a then b else c

/-- Each text where it stands first. -/
def distinct (l : List Text) : List Text := l.eraseDups

/-- A text without the byte order mark that may stand in front of it. -/
def dropMark : Text → Text
  | '\ufeff' :: s => s
  | s => s

/-! ### Bytes -/

/-- The bytes of a text in UTF-8. -/
def bytes (s : Text) : List UInt8 := s.flatMap String.utf8EncodeChar

/-- The number of bytes of a text. -/
def byteSize (s : Text) : Nat := s.foldl (fun n c => n + c.utf8Size) 0

/-- The text with the capital ASCII letters made small. -/
def toLowerAscii (s : Text) : Text := s.map Char.toLower

/-- A decimal number as text. -/
def ofNat (n : Nat) : Text := (toString n).toList

end Text

end ImportTrail
