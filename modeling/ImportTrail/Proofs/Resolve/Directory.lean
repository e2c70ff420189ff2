import ImportTrail.Resolve
import ImportTrail.Proofs.Path.Canonical
import Mathlib.Data.List.DropRight

/-!
Directories of a project as the names that lead to them, so that a specifier can be followed name by name.

* `Directory`, `Directory.below` — a directory, and the path of what some names lead to from there;
* `exists_path_eq_iff` — the paths of directories are the canonical paths and the empty one;
* `resolve?_below` — names written in a directory are cleaned to the path of these names below it;
* `climb?_path` — climbing takes names away from the end, as long as there are any.
-/

namespace ImportTrail.Path

open Text

/-! ### Paths of names -/

/-- A name in a path. -/
def IsName (n : Text) : Prop := IsPlain n ∧ '/' ∉ n

instance (n : Text) : Decidable (IsName n) := inferInstanceAs (Decidable (_ ∧ _))

variable {as bs ns : List Text} {n s : Text}

theorem ofNames_append (has : as ≠ []) (hbs : bs ≠ []) : ofNames (as ++ bs) = ofNames as ++ '/' :: ofNames bs := by
  rw [ofNames, joinWith_append has hbs, List.append_assoc]
  rfl

theorem ofNames_singleton (n : Text) : ofNames [n] = n := by simp [ofNames, joinWith, List.intercalate_singleton]

theorem components_ofNames (h : ∀ n ∈ ns, IsName n) : components (ofNames ns) = ns.map .name := by
  rcases eq_or_ne ns [] with rfl | hne
  · rfl
  · have hpieces : splitOn '/' (ofNames ns) = ns := splitOn_joinWith hne fun n hn => (h n hn).2
    have habs : isAbsolute (ofNames ns) = false := (isCanonical_ofNames hne h).2.1
    have hhead : ns.head? ≠ some ['.'] := by
      intro hhere
      exact (h ['.'] (List.mem_of_mem_head? hhere)).1.2.1 rfl
    have hbody : ns.filterMap Component.ofPiece? = ns.map .name := by
      rw [← List.filterMap_eq_map]
      refine List.filterMap_congr fun n hn => ?_
      exact ofPiece?_eq_name.2 ⟨rfl, (h n hn).1⟩
    simp only [components, hpieces, habs, hbody, if_neg hhead]
    rfl

theorem clean_names (ns : List Text) : clean (ns.map .name) = ns.map .name := by
  rw [clean, foldl_cleanStep_of_names]
  · simp
  · intro x hx
    obtain ⟨n, -, rfl⟩ := List.mem_map.1 hx
    exact ⟨n, rfl⟩

/-- No slash stands at the end of a canonical path, so one is put between it and what follows. -/
theorem append_of_canonical (hs : IsCanonical s) (hn : isAbsolute n = false) : append s n = s ++ '/' :: n := by
  have hend : endsWith s ['/'] = false := by
    rw [Bool.eq_false_iff]
    intro hslash
    obtain ⟨r, hr⟩ := Option.isSome_iff_exists.1 hslash
    rw [before?_eq_some.1 hr, isCanonical_append_slash] at hs
    exact hs.2.1 rfl
  have hemp : s.isEmpty = false := by simpa using hs.1
  rw [append, hn, hemp, hend]
  rfl

theorem append_ofNames (has : ∀ n ∈ as, IsName n) (hbs : ∀ n ∈ bs, IsName n) (hne : bs ≠ []) :
    append (ofNames as) (ofNames bs) = ofNames (as ++ bs) := by
  rcases eq_or_ne as [] with rfl | hne'
  · rw [append, List.nil_append]
    exact if_pos (by simp [ofNames, joinWith])
  · rw [append_of_canonical (isCanonical_ofNames hne' has) (isCanonical_ofNames hne hbs).2.1, ofNames_append hne' hne]

theorem ne_slash_of_mem_reverse (hn : '/' ∉ n) : ∀ c ∈ n.reverse, (c != '/') = true := by
  intro c hc
  rw [bne_iff_ne]
  rintro rfl
  exact hn (List.mem_reverse.1 hc)

theorem parent_append (hn : '/' ∉ n) (s : Text) : parent (s ++ '/' :: n) = s := by
  simp [parent, List.dropWhile_append_of_pos (ne_slash_of_mem_reverse hn)]

theorem parent_of_notMem (hn : '/' ∉ n) : parent n = [] := by
  simp [parent, List.dropWhile_eq_nil_iff.2 (ne_slash_of_mem_reverse hn)]

theorem parent_ofNames (hn : '/' ∉ n) : parent (ofNames (ns ++ [n])) = ofNames ns := by
  rcases eq_or_ne ns [] with rfl | hne
  · rw [List.nil_append, ofNames_singleton, parent_of_notMem hn]
    rfl
  · rw [ofNames_append hne (by simp), ofNames_singleton, parent_append hn]

/-! ### Directories -/

/-- A directory of the project: the names from the root of the project down to it. -/
structure Directory where
  names : List Text
  proper : ∀ n ∈ names, IsName n

namespace Directory

/-- How many names lead to a directory. -/
def depth (d : Directory) : ℕ := d.names.length

/-- The path of a directory. That of the root is empty. -/
def path (d : Directory) : Text := ofNames d.names

/-- The path of what some names lead to from a directory. -/
def below (d : Directory) (ns : List Text) : Text := ofNames (d.names ++ ns)

/-- The directory some levels up: its last names are removed. -/
def up (d : Directory) (levels : ℕ) : Directory :=
  ⟨d.names.rdrop levels, fun n hn => d.proper n (List.mem_of_mem_take hn)⟩

/-- The root of the project. -/
def root : Directory := ⟨[], by simp⟩

variable {d : Directory}

/-- The paths of directories are the canonical ones, and the empty path of the root. -/
theorem exists_path_eq_iff {dir : Text} : (∃ d : Directory, d.path = dir) ↔ dir = [] ∨ IsCanonical dir := by
  constructor
  · rintro ⟨d, rfl⟩
    rcases eq_or_ne d.names [] with hnil | hne
    · exact Or.inl (by rw [path, hnil]; rfl)
    · exact Or.inr (isCanonical_ofNames hne d.proper)
  · rintro (rfl | hcan)
    · exact ⟨root, rfl⟩
    · refine ⟨⟨splitOn '/' dir, fun n hn => ?_⟩, joinWith_splitOn '/' dir⟩
      exact ⟨isCanonical_iff.1 hcan n hn, notMem_of_mem_splitOn hn⟩

theorem below_concat (hne : ns ≠ []) (n : Text) : d.below (ns ++ [n]) = d.below ns ++ '/' :: n := by
  rw [below, ← List.append_assoc, ofNames_append (by simp [hne]) (by simp), ofNames_singleton, below]

theorem resolve?_below (d : Directory) (hns : ∀ n ∈ ns, IsName n) (hne : ns ≠ []) :
    resolve? d.path (ofNames ns) = some (d.below ns) := by
  have hall : ∀ n ∈ d.names ++ ns, IsName n := by
    intro n hn
    exact (List.mem_append.1 hn).elim (d.proper n) (hns n)
  rw [resolve?, path, append_ofNames d.proper hns hne, components_ofNames hall, clean_names, names?_names]
  rfl

end Directory

end ImportTrail.Path

namespace ImportTrail.Resolve

open Text ImportTrail.Path

theorem climb?_ofNames {ns : List Text} (hns : ∀ n ∈ ns, IsName n) (levels : ℕ) :
    climb? levels (ofNames ns) = if levels ≤ ns.length then some (ofNames (ns.rdrop levels)) else none := by
  induction levels generalizing ns with
  | zero => simp [climb?]
  | succ levels ih =>
    rcases List.eq_nil_or_concat' ns with rfl | ⟨above, n, rfl⟩
    · rfl
    · have hname : IsName n := hns n (by simp)
      have hne : (ofNames (above ++ [n])).isEmpty = false := by
        simpa using (isCanonical_ofNames (by simp) hns).1
      rw [climb?, hne, if_neg Bool.false_ne_true, parent_ofNames hname.2, ih fun m hm => hns m (List.mem_append_left _ hm),
        List.rdrop_concat_succ, List.length_append, List.length_singleton]
      simp only [Nat.add_le_add_iff_right]

/-- Climbing from a directory removes its last names, and fails where there are not enough of them. -/
theorem climb?_path (levels : ℕ) (d : Directory) :
    climb? levels d.path = if levels ≤ d.depth then some (d.up levels).path else none :=
  climb?_ofNames d.proper levels

end ImportTrail.Resolve
