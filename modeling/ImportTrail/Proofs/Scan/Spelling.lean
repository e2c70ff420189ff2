import ImportTrail.Scan.Rust
import Mathlib.Data.List.Basic

/-!
How the three kinds of specifiers of Rust are told apart by their spelling: a name has no colon, an include gives its
path back, and a local path begins with `crate::`, `self::` or `super::`, so it is neither.
-/

namespace ImportTrail.Scan.Rust

open Text

/-- The words that a local path begins with. -/
def localRoots : List Text := ["crate".toList, "self".toList, "super".toList]

theorem localRoots_chars : ∀ root ∈ localRoots, root.all isNameStart = true := by decide

theorem isLocalPath_iff {s : Text} :
    isLocalPath s = true ↔ ∃ root ∈ localRoots, ∃ rest, s = root ++ ':' :: ':' :: rest := by
  have cut : ∀ root : Text, (after? (root ++ [':', ':']) s).isSome = true ↔ ∃ rest, s = root ++ ':' :: ':' :: rest := by
    intro root
    rw [Option.isSome_iff_exists]
    simp only [after?_eq_some, List.append_assoc]
    rfl
  have hcrate := cut "crate".toList
  have hself := cut "self".toList
  have hsuper := cut "super".toList
  simp only [localRoots, List.mem_cons, List.not_mem_nil, or_false, exists_eq_or_imp, exists_eq_left, ← hcrate, ← hself,
    ← hsuper]
  unfold isLocalPath afterLocalRoot?
  rw [Option.orElse_eq_or, Option.orElse_eq_or, Option.isSome_or, Option.isSome_or, Bool.or_eq_true, Bool.or_eq_true]
  rfl

/-- Cutting a text where a character fails keeps a local path local, if the roots and their colons pass. -/
theorem isLocalPath_takeWhile {q : Char → Bool} (hq : ∀ root ∈ localRoots, (root ++ [':', ':']).all q = true) {s : Text}
    (h : isLocalPath s = true) : isLocalPath (s.takeWhile q) = true := by
  obtain ⟨root, hroot, rest, rfl⟩ := isLocalPath_iff.1 h
  refine isLocalPath_iff.2 ⟨root, hroot, rest.takeWhile q, ?_⟩
  have hcut : (root ++ [':', ':'] ++ rest).takeWhile q = root ++ [':', ':'] ++ rest.takeWhile q :=
    List.takeWhile_append_of_pos (List.all_eq_true.1 (hq root hroot))
  rwa [List.append_assoc, List.append_assoc] at hcut

theorem isName_chars {s : Text} (h : isName s = true) : s ≠ [] ∧ ∀ c ∈ s, isNameRest c = true := by
  cases s with
  | nil => cases h
  | cons c s =>
    obtain ⟨hc, hs⟩ := Bool.and_eq_true_iff.1 h
    refine ⟨by simp, fun d hd => ?_⟩
    rcases List.mem_cons.1 hd with rfl | hd
    · simp [isNameRest, hc]
    · exact List.all_eq_true.1 hs d hd

theorem isName_of_isLocalPath {s : Text} (h : isLocalPath s = true) : isName s = false := by
  obtain ⟨root, -, rest, rfl⟩ := isLocalPath_iff.1 h
  rw [Bool.eq_false_iff]
  intro hn
  have := (isName_chars hn).2 ':' (by simp)
  revert this
  decide

theorem includedPath?_of_isLocalPath {s : Text} (h : isLocalPath s = true) : includedPath? s = none := by
  obtain ⟨root, hroot, rest, rfl⟩ := isLocalPath_iff.1 h
  simp only [localRoots, List.mem_cons, List.not_mem_nil, or_false] at hroot
  rcases hroot with rfl | rfl | rfl <;> rfl

theorem includedPath?_includeSpecifier (path : Text) : includedPath? (includeSpecifier path) = some path := by
  unfold includedPath? includeSpecifier
  rw [List.append_assoc, after?_eq_some.2 rfl]
  exact before?_eq_some.2 rfl

end ImportTrail.Scan.Rust
