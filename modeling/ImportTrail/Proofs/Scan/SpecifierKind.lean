import ImportTrail.Imports
import ImportTrail.Proofs.Resolve.Containment
import ImportTrail.Proofs.UseTree.Roots

/-!
The kinds of the specifiers that a scan finds in a source text of Rust.

* `declared`, `included`, `used` — the names, paths and trees that the three patterns capture;
* `mem_imports` — every specifier comes from one of them;
* `KindsSurvive` — its spelling still says from which, so that it is resolved as what it is;
* `kindsSurvive_iff` — this holds exactly when no use tree of the text collapses to its root.
-/

namespace ImportTrail.Scan

open Text

/-- What is found was captured by a match somewhere in the text. -/
theorem exists_match_of_mem_findFrom {pat : Pattern} {prev : Option Char} {pos skip : ℕ} {s : Text} {f : Finding}
    (h : f ∈ findFrom pat prev pos skip s) : ∃ before t m, pat before t = some m ∧ f.2 = m.capture := by
  induction s generalizing prev pos skip with
  | nil => cases h
  | cons c s ih =>
    cases skip with
    | succ skip => exact ih h
    | zero =>
      rw [findFrom] at h
      split at h
      · rename_i m hm
        rcases List.mem_cons.1 h with rfl | h
        · exact ⟨prev, c :: s, m, hm, rfl⟩
        · exact ih h
      · exact ih h

theorem mem_inOrder {fs : List Finding} {f : Finding} : f ∈ inOrder fs ↔ f ∈ fs := List.mem_mergeSort

end ImportTrail.Scan

namespace ImportTrail.Scan.Rust

open Text

variable {source spec tree name : Text}

/-! ### Captures -/

/-- The captures of a pattern in a text, in order. -/
def captures (pat : Pattern) (source : Text) : List Text := (find pat source).map (·.2)

/-- The names of the module declarations of a text. -/
def declared (source : Text) : List Text := captures moduleItem source

/-- The paths of its includes. -/
def included (source : Text) : List Text := captures includeCall source

/-- The trees of its local use declarations. -/
def used (source : Text) : List Text := captures useItem source

theorem exists_match_of_mem_captures {pat : Pattern} (h : spec ∈ captures pat source) :
    ∃ prev t m, pat prev t = some m ∧ spec = m.capture := by
  obtain ⟨f, hf, rfl⟩ := List.mem_map.1 h
  exact exists_match_of_mem_findFrom hf

theorem isName_of_mem_declared (h : name ∈ declared source) : isName name = true := by
  obtain ⟨prev, t, m, hm, rfl⟩ := exists_match_of_mem_captures h
  unfold moduleItem at hm
  split at hm
  · cases hm
  · obtain ⟨r, -, hm⟩ := Option.bind_eq_some_iff.1 hm
    obtain ⟨r, -, hm⟩ := Option.bind_eq_some_iff.1 hm
    obtain ⟨r, -, hm⟩ := Option.bind_eq_some_iff.1 hm
    split at hm
    · rename_i c r
      split at hm
      · rename_i hc
        dsimp only at hm
        split at hm
        · cases hm
          have hrest : isNameRest c = true := by simp [isNameRest, hc]
          rw [List.takeWhile_cons_of_pos hrest, isName, hc, Bool.true_and]
          exact List.all_takeWhile
        · cases hm
      · cases hm
    · cases hm

theorem isLocalPath_of_mem_used (h : tree ∈ used source) : isLocalPath tree = true := by
  obtain ⟨prev, t, m, hm, rfl⟩ := exists_match_of_mem_captures h
  unfold useItem at hm
  split at hm
  · cases hm
  · obtain ⟨r, -, hm⟩ := Option.bind_eq_some_iff.1 hm
    obtain ⟨r, -, hm⟩ := Option.bind_eq_some_iff.1 hm
    obtain ⟨r, -, hm⟩ := Option.bind_eq_some_iff.1 hm
    obtain ⟨rest, hrest, hm⟩ := Option.bind_eq_some_iff.1 hm
    have hlocal : isLocalPath r = true := by simp [isLocalPath, hrest]
    have hcut : isLocalPath (r.takeWhile (· != ';')) = true := isLocalPath_takeWhile (by decide) hlocal
    split at hm
    · cases hm
    · cases hm
    · dsimp only at hm
      split at hm
      · cases hm
        exact hcut
      · cases hm

/-- Every specifier is a declared name, an included path in its own spelling or a path of a use tree. -/
theorem mem_imports : spec ∈ Family.rust.imports .scan source ↔ spec ∈ declared source ∨
    (∃ path ∈ included source, spec = includeSpecifier path) ∨ ∃ tree ∈ used source, spec ∈ UseTree.expand tree := by
  have hdistinct : spec ∈ Family.rust.imports .scan source ↔ spec ∈ specifiers source := List.mem_eraseDups
  rw [hdistinct]
  simp only [specifiers, declared, included, used, captures, List.mem_map, mem_inOrder, List.mem_append,
    List.mem_flatMap]
  constructor
  · rintro ⟨f, (hf | ⟨g, hg, rfl⟩) | ⟨g, hg, path, hpath, rfl⟩, rfl⟩
    · exact Or.inl ⟨f, hf, rfl⟩
    · exact Or.inr (Or.inl ⟨g.2, ⟨g, hg, rfl⟩, rfl⟩)
    · exact Or.inr (Or.inr ⟨g.2, ⟨g, hg, rfl⟩, hpath⟩)
  · rintro (⟨f, hf, rfl⟩ | ⟨path, ⟨g, hg, rfl⟩, rfl⟩ | ⟨tree, ⟨g, hg, rfl⟩, hpath⟩)
    · exact ⟨f, Or.inl (Or.inl hf), rfl⟩
    · exact ⟨(g.1, includeSpecifier g.2), Or.inl (Or.inr ⟨g, hg, rfl⟩), rfl⟩
    · exact ⟨(g.1, spec), Or.inr ⟨g, hg, spec, hpath, rfl⟩, rfl⟩

/-! ### Kinds -/

theorem isName_includeSpecifier (path : Text) : isName (includeSpecifier path) = false := rfl

/-- The spelling of every specifier of a text says what it was: a declared name, an include that gives its path back or
a local path. A use declaration comes to no name, so it is never resolved as a module declaration, and a name is
resolved as one only if it is declared. -/
structure KindsSurvive (source : Text) : Prop where
  kind : ∀ spec ∈ Family.rust.imports .scan source, spec ∈ declared source ∧ isName spec = true ∨
    (∃ path ∈ included source, spec = includeSpecifier path ∧ includedPath? spec = some path) ∨ isLocalPath spec = true
  name_declared : ∀ spec ∈ Family.rust.imports .scan source, isName spec = true → spec ∈ declared source
  use_not_name : ∀ tree ∈ used source, ∀ spec ∈ UseTree.expand tree, isName spec = false
  use_as_path : ∀ tree ∈ used source, ∀ spec ∈ UseTree.expand tree, ∀ (p : Project) (dir : Text),
    Resolve.rust? p spec dir = Resolve.pathFile? p spec dir

/-- A bare root is none of the three kinds, unless it is a declared name. -/
theorem not_kind_of_bareRoot (hbare : spec ∈ UseTree.bareRoots) (hname : isName spec = false) :
    ¬ (spec ∈ declared source ∧ isName spec = true ∨
      (∃ path ∈ included source, spec = includeSpecifier path ∧ includedPath? spec = some path) ∨
      isLocalPath spec = true) := by
  have hinclude : ∀ spec ∈ UseTree.bareRoots, includedPath? spec = none := by decide
  rintro (⟨-, h⟩ | ⟨path, -, -, h⟩ | h)
  · rw [hname] at h
    cases h
  · rw [hinclude spec hbare] at h
    cases h
  · rw [UseTree.not_isLocalPath_of_bareRoot spec hbare] at h
    cases h

/-- **The kinds of specifiers survive extraction exactly when no use tree of the text collapses to its root.** -/
theorem kindsSurvive_iff (source : Text) : KindsSurvive source ↔ ∀ tree ∈ used source, ¬ UseTree.Collapses tree := by
  constructor
  · intro h tree htree hcollapses
    obtain ⟨spec, hspec, hbare⟩ :=
      UseTree.exists_bareRoot_of_collapses (isLocalPath_of_mem_used htree) hcollapses
    -- it is no name, so it is none of the three kinds
    have hname := h.use_not_name tree htree spec hspec
    exact not_kind_of_bareRoot hbare hname (h.kind spec (mem_imports.2 (Or.inr (Or.inr ⟨tree, htree, hspec⟩))))
  · intro h
    have hlocal : ∀ tree ∈ used source, ∀ spec ∈ UseTree.expand tree, isLocalPath spec = true := by
      intro tree htree spec hspec
      rcases UseTree.isLocalPath_of_mem_expand (isLocalPath_of_mem_used htree) hspec with hl | ⟨-, hc⟩
      · exact hl
      · exact absurd hc (h tree htree)
    refine ⟨?_, ?_, ?_, ?_⟩
    · intro spec hspec
      rcases mem_imports.1 hspec with hd | ⟨path, hpath, rfl⟩ | ⟨tree, htree, hs⟩
      · exact Or.inl ⟨hd, isName_of_mem_declared hd⟩
      · exact Or.inr (Or.inl ⟨path, hpath, rfl, includedPath?_includeSpecifier path⟩)
      · exact Or.inr (Or.inr (hlocal tree htree spec hs))
    · intro spec hspec hname
      rcases mem_imports.1 hspec with hd | ⟨path, -, rfl⟩ | ⟨tree, htree, hs⟩
      · exact hd
      · rw [isName_includeSpecifier] at hname
        cases hname
      · rw [isName_of_isLocalPath (hlocal tree htree spec hs)] at hname
        cases hname
    · intro tree htree spec hs
      exact isName_of_isLocalPath (hlocal tree htree spec hs)
    · intro tree htree spec hs p dir
      exact Resolve.rust?_of_isLocalPath (hlocal tree htree spec hs)

/-- A star behind `super` alone leaves the bare word, which is resolved like a declared module. -/
theorem imports_super_star :
    declared "use super::*;\n".toList = [] ∧ Family.rust.imports .scan "use super::*;\n".toList = ["super".toList] ∧
      isName "super".toList = true ∧ (∃ p : Project, Resolve.rust? p "super".toList [] = some "super.rs".toList) ∧
      ¬ KindsSurvive "use super::*;\n".toList := by
  have hdeclared : declared "use super::*;\n".toList = [] := by decide +kernel
  have himports : Family.rust.imports .scan "use super::*;\n".toList = ["super".toList] := by decide +kernel
  refine ⟨hdeclared, himports, by decide, ⟨⟨⟨[([['p']], .directory), ([['p'], "super.rs".toList], .file ⟨#[]⟩)]⟩,
    "/p".toList⟩, by decide⟩, fun h => ?_⟩
  have := h.name_declared "super".toList (by rw [himports]; exact List.mem_singleton_self _) (by decide)
  rw [hdeclared] at this
  cases this

end ImportTrail.Scan.Rust
