import ImportTrail.Text.Basic

/-!
Use trees of Rust as text, and the plain paths they stand for. A tree is a path, or a path in front
of a list of trees between braces. Aliases are dropped; a star and `self` stand for the path in
front of them.
-/

namespace ImportTrail.UseTree

open Text

/-- Drop pairs of colons in front of a reversed path. -/
def dropColonsRev : Text → Text
  | ':' :: ':' :: s => dropColonsRev s
  | s => s

/-- Drop `::*` in front of a reversed path. -/
def dropStarsRev : Text → Text
  | '*' :: ':' :: ':' :: s => dropStarsRev s
  | s => s

/-- A path without pairs of colons at its end. -/
def dropColons (s : Text) : Text := (dropColonsRev s.reverse).reverse

/-- A path without `::*` at its end. -/
def dropStars (s : Text) : Text := (dropStarsRev s.reverse).reverse

/-- A path followed by another. -/
def append (path item : Text) : Text :=
  if path.isEmpty then item else if item.isEmpty then path else path ++ "::".toList ++ item

/-- The pieces between the commas outside of braces, with `depth` braces open. -/
def splitTop (depth : Nat) : Text → List Text
  | [] => [[]]
  | c :: s =>
    if c = ',' ∧ depth = 0 then [] :: splitTop 0 s
    else
      let depth' := if c = '\x7b' then depth + 1 else if c = '\x7d' then depth - 1 else depth
      match splitTop depth' s with
      | [] => [[c]]
      | p :: ps => (c :: p) :: ps

/-- What stands before the first opening brace, and between it and the last closing one. -/
def braces? (t : Text) : Option (Text × Text) :=
  let head := t.takeWhile (· != '\x7b')
  match t.drop head.length with
  | [] => none
  | _ :: rest =>
    if rest.contains '\x7d' then
      some (head, ((rest.reverse.dropWhile (· != '\x7d')).drop 1).reverse)
    else if head.contains '\x7d' then some (head, [])
    else some (head, rest)

/-- The path of a leaf under a path. -/
def leaf (path tree : Text) : List Text :=
  let item := dropColons (dropStars (trim (beforeFirst " as ".toList tree)))
  if item = [] ∨ item = ['*'] ∨ item = "self".toList then
    if path.isEmpty then [] else [path]
  else [append path item]

theorem length_of_mem_splitTop {depth : Nat} {s item : Text} (h : item ∈ splitTop depth s) :
    item.length ≤ s.length := by
  induction s generalizing depth item with
  | nil => simp [splitTop] at h; simp [h]
  | cons c s ih =>
    rw [splitTop] at h
    split at h
    · rcases List.mem_cons.1 h with rfl | h
      · simp
      · have := ih h; simp; omega
    · dsimp only at h
      split at h
      · simp at h; simp [h]
      · rename_i p ps hp
        rcases List.mem_cons.1 h with rfl | h
        · have := ih (hp ▸ List.mem_cons_self : p ∈ _); simpa using this
        · have := ih (hp ▸ List.mem_cons_of_mem _ h : item ∈ _); simp; omega

theorem length_braces {t head inner : Text} (h : braces? t = some (head, inner)) :
    inner.length < t.length := by
  unfold braces? at h
  have hlen : ∀ {x rest}, t.drop (t.takeWhile (· != '\x7b')).length = x :: rest →
      rest.length < t.length := by
    intro x rest hx
    have := congrArg List.length hx
    simp at this
    omega
  dsimp only at h
  split at h
  · simp at h
  · rename_i x rest hx
    have := hlen hx
    split at h
    · simp only [Option.some.injEq, Prod.mk.injEq] at h
      rw [← h.2, List.length_reverse, List.length_drop]
      have := length_dropWhile_le (· != '\x7d') rest.reverse
      rw [List.length_reverse] at this
      omega
    · split at h <;> simp only [Option.some.injEq, Prod.mk.injEq] at h
      · rw [← h.2]; simp; omega
      · rw [← h.2]; omega

/-- The paths of a tree under a path. -/
def expandUnder (path tree : Text) : List Text :=
  if (trim tree).isEmpty then []
  else match h : braces? (trim tree) with
    | none => leaf path (trim tree)
    | some (head, inner) =>
      have shorter : inner.length < tree.length :=
        Nat.lt_of_lt_of_le (length_braces h) (length_trim_le tree)
      let next := append path (dropColons (trim head))
      (splitTop 0 inner).attach.flatMap fun ⟨item, mem⟩ =>
        have : item.length < tree.length := Nat.lt_of_le_of_lt (length_of_mem_splitTop mem) shorter
        expandUnder next item
termination_by tree.length

/-- The plain paths of a use tree, from left to right, with runs of blanks read as one space. -/
def expand (tree : Text) : List Text := expandUnder [] (joinWith [' '] (words tree))

end ImportTrail.UseTree
