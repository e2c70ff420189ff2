import ImportTrail.Proofs.Path.Canonical

/-!
What a written path denotes, read piece by piece on a stack of names, and the two spellings of a start file.

* `follow` — the pieces from left to right: a name is put on the stack, a climb takes one off;
* `names?_clean_body` — cleaning a path and reading its names is this machine;
* `denoted?` — the path below the root of a project that a text denotes;
* `projectForm?_relative`, `projectForm?_absolute` — a start file under its relative spelling, where backslashes are
  taken for slashes, and under its absolute one, where they are not;
* `oneNode_iff` — the two spellings are one start file exactly if reading backslashes as slashes changes nothing.
-/

namespace ImportTrail.Path

open Text

variable {root s q : Text} {st ns pieces : List Text}

/-! ### Pieces on a stack -/

/-- The names that are left of some pieces, read from left to right with the last name on top of the stack. Empty pieces
and dots are skipped. There is no answer when a climb finds the stack empty. -/
def follow : List Text → List Text → Option (List Text)
  | st, [] => some st.reverse
  | st, piece :: pieces =>
    if piece = [] ∨ piece = ['.'] then follow st pieces
    else if piece = ['.', '.'] then st.tail?.bind fun st => follow st pieces
    else follow (piece :: st) pieces

theorem names?_eq_none {cs : List Component} (h : .up ∈ cs) : names? cs = none := by
  induction cs with
  | nil => cases h
  | cons x cs ih =>
    cases x with
    | up | root => rfl
    | here => exact ih (by simpa using h)
    | name n => rw [names?, ih (by simpa using h), Option.map_none]

/-- A climb for which there was no name to take stays. -/
theorem up_mem_foldl_cleanStep (cs : List Component) {st : List Component} (h : .up ∈ st) :
    .up ∈ cs.foldl cleanStep st := by
  induction cs generalizing st with
  | nil => exact h
  | cons x cs ih =>
    refine ih ?_
    unfold cleanStep
    split
    · exact h
    · exact h
    · simpa using h
    · exact List.mem_cons_of_mem _ h

theorem names?_foldl_cleanStep (st pieces : List Text) :
    names? ((pieces.filterMap Component.ofPiece?).foldl cleanStep (st.map .name)).reverse = follow st pieces := by
  induction pieces generalizing st with
  | nil =>
    rw [List.filterMap_nil, List.foldl_nil, ← List.map_reverse, names?_names]
    rfl
  | cons piece pieces ih =>
    rw [follow]
    by_cases hidle : piece = [] ∨ piece = ['.']
    · have hpiece : Component.ofPiece? piece = none := if_pos hidle
      rw [if_pos hidle, List.filterMap_cons_none hpiece]
      exact ih st
    · by_cases hup : piece = ['.', '.']
      · have hpiece : Component.ofPiece? piece = some .up := by rw [Component.ofPiece?, if_neg hidle, if_pos hup]
        rw [if_neg hidle, if_pos hup, List.filterMap_cons_some hpiece, List.foldl_cons]
        cases st with
        | nil => exact names?_eq_none (List.mem_reverse.2 (up_mem_foldl_cleanStep _ List.mem_cons_self))
        | cons n st => exact ih st
      · have hpiece : Component.ofPiece? piece = some (.name piece) := ofPiece?_eq_name.2
          ⟨rfl, fun h => hidle (Or.inl h), fun h => hidle (Or.inr h), hup⟩
        rw [if_neg hidle, if_neg hup, List.filterMap_cons_some hpiece, List.foldl_cons, cleanStep_name]
        exact ih (piece :: st)

/-- **Cleaning a path and reading its names is the stack machine.** -/
theorem names?_clean_body (s : Text) : names? (clean (body s)) = follow [] (splitOn '/' s) :=
  names?_foldl_cleanStep [] (splitOn '/' s)

theorem follow_subset (h : follow st pieces = some ns) : ns ⊆ st ++ pieces := by
  induction pieces generalizing st with
  | nil =>
    obtain rfl := Option.some.inj h
    simp
  | cons piece pieces ih =>
    rw [follow] at h
    intro n hn
    rw [List.mem_append, List.mem_cons]
    split at h
    · exact (List.mem_append.1 (ih h hn)).imp_right Or.inr
    · split at h
      · cases st with
        | nil => cases h
        | cons m st =>
          have h : follow st pieces = some ns := h
          rcases List.mem_append.1 (ih h hn) with hst | hpieces
          exacts [Or.inl (List.mem_cons_of_mem _ hst), Or.inr (Or.inr hpieces)]
      · have := ih h hn
        rw [List.cons_append, List.mem_cons, List.mem_append] at this
        rcases this with rfl | hst | hpieces
        exacts [Or.inr (Or.inl rfl), Or.inl hst, Or.inr (Or.inr hpieces)]

/-- Without climbs, all names are left. -/
theorem mem_of_follow (st : List Text) (hup : ['.', '.'] ∉ pieces) {n : Text} (hn : n ∈ st ∨ n ∈ pieces ∧ IsPlain n) :
    ∃ ns, follow st pieces = some ns ∧ n ∈ ns := by
  induction pieces generalizing st with
  | nil => exact ⟨st.reverse, rfl, by simpa using hn⟩
  | cons piece pieces ih =>
    rw [List.mem_cons, not_or] at hup
    rw [follow, if_neg (Ne.symm hup.1)]
    split
    · refine ih st hup.2 (hn.imp_right ?_)
      rintro ⟨hmem, hplain⟩
      refine ⟨(List.mem_cons.1 hmem).resolve_left ?_, hplain⟩
      rintro rfl
      rename_i hidle
      exact hidle.elim hplain.1 hplain.2.1
    · refine ih (piece :: st) hup.2 ?_
      rcases hn with hst | ⟨hmem, hplain⟩
      · exact Or.inl (List.mem_cons_of_mem _ hst)
      · rcases List.mem_cons.1 hmem with rfl | hmem
        exacts [Or.inl List.mem_cons_self, Or.inr ⟨hmem, hplain⟩]

/-! ### What a text denotes -/

/-- The path below the root of a project that a text denotes. There is none for an absolute text, for one that climbs
above the root and for the root itself. -/
def denoted? (s : Text) : Option Text :=
  if isAbsolute s then none else ((follow [] (splitOn '/' s)).map ofNames).filter (!·.isEmpty)

theorem denoted?_eq (h : isAbsolute s = false) :
    denoted? s = ((follow [] (splitOn '/' s)).map ofNames).filter (!·.isEmpty) := by
  rw [denoted?, h]
  rfl

theorem mem_of_denoted? {c : Char} (h : denoted? s = some q) (hc : c ∈ q) (hslash : c ≠ '/') : c ∈ s := by
  unfold denoted? at h
  split at h
  · cases h
  · obtain ⟨ns, hns, rfl⟩ := Option.map_eq_some_iff.1 (Option.filter_eq_some_iff.1 h).1
    obtain ⟨n, hn, hcn⟩ := (mem_joinWith hslash).1 hc
    exact mem_of_mem_splitOn (follow_subset hns hn) hcn

/-- Without climbs, all characters but those of dots are left. -/
theorem mem_denoted? {c : Char} (hs : isAbsolute s = false) (hup : ['.', '.'] ∉ splitOn '/' s) (hc : c ∈ s)
    (hslash : c ≠ '/') (hdot : c ≠ '.') : ∃ q, denoted? s = some q ∧ c ∈ q := by
  rw [← joinWith_splitOn '/' s, mem_joinWith hslash] at hc
  obtain ⟨n, hn, hc⟩ := hc
  have hplain : IsPlain n := by
    refine ⟨?_, ?_, ?_⟩ <;>
    · rintro rfl
      simp [hdot] at hc
  obtain ⟨ns, hns, hmem⟩ := mem_of_follow [] hup (Or.inr ⟨hn, hplain⟩)
  have hq : c ∈ ofNames ns := (mem_joinWith hslash).2 ⟨n, hmem, hc⟩
  have hne : (!(ofNames ns).isEmpty) = true := by
    rw [Bool.not_eq_true', List.isEmpty_eq_false_iff]
    exact List.ne_nil_of_mem hq
  refine ⟨ofNames ns, ?_, hq⟩
  rw [denoted?_eq hs, hns, Option.map_some, Option.filter_some, if_pos hne]

/-! ### Start files -/

theorem components_of_isAbsolute (h : isAbsolute s = true) : components s = .root :: body s := by
  rw [components, if_pos h]
  rfl

theorem clean_components (h : isAbsolute s = false) : clean (components s) = clean (body s) := by
  have hcomponents : components s = .here :: body s ∨ components s = body s := by
    unfold components
    dsimp only
    rw [if_neg (Bool.eq_false_iff.1 h)]
    split
    exacts [Or.inl rfl, Or.inr rfl]
  rcases hcomponents with hs | hs
  · rw [hs, clean, List.foldl_cons]
    rfl
  · rw [hs]

theorem stripComponents_append (bs cs : List Component) : stripComponents bs (bs ++ cs) = some cs := by
  induction bs with
  | nil => rfl
  | cons b bs ih => rw [List.cons_append, stripComponents, if_pos rfl, ih]

/-- A relative spelling, in which backslashes are taken for slashes. -/
theorem projectForm?_relative (root : Text) (hs : isAbsolute s = false) :
    projectForm? root s = denoted? (replace '\\' '/' s) := by
  have hform : projectForm? root s = (resolve? [] (replace '\\' '/' s)).filter (!·.isEmpty) := by
    simp only [projectForm?, hs]
    rfl
  rw [hform, denoted?]
  split
  · rename_i habs
    rw [resolve?_of_isAbsolute habs]
    rfl
  · rename_i hrel
    rw [Bool.not_eq_true] at hrel
    have happend : append [] (replace '\\' '/' s) = replace '\\' '/' s := by simp [append]
    rw [resolve?, happend, clean_components hrel, names?_clean_body]

/-- An absolute spelling, in which backslashes stay as they are. -/
theorem projectForm?_absolute (hroot : isAbsolute root = true) (hs : isAbsolute s = false) :
    projectForm? root (root ++ '/' :: s) = denoted? s := by
  obtain ⟨r, rfl⟩ := isAbsolute_iff.1 hroot
  have hstart : isAbsolute ('/' :: r ++ '/' :: s) = true := rfl
  have hbody : body ('/' :: r ++ '/' :: s) = body ('/' :: r) ++ body s := by
    rw [body, splitOn_append_sep, List.filterMap_append, body, body]
  have hstrip : stripComponents (components ('/' :: r)) (components ('/' :: r ++ '/' :: s)) = some (body s) := by
    rw [components_of_isAbsolute hroot, components_of_isAbsolute hstart, hbody, ← List.cons_append,
      stripComponents_append]
  simp only [projectForm?, hstart, if_true, hstrip, Option.bind_eq_bind, Option.bind_some, names?_clean_body, denoted?_eq hs]

/-- A start file and the same file below the root of the project have one form: what the relative spelling denotes with
its backslashes taken for slashes. -/
structure OneNode (root s : Text) : Prop where
  absolute : projectForm? root (root ++ '/' :: s) = denoted? (replace '\\' '/' s)
  relative : projectForm? root s = denoted? (replace '\\' '/' s)

/-- The text denotes another path, or none, when its backslashes are taken for slashes. -/
def Misread (s : Text) : Prop := denoted? s ≠ denoted? (replace '\\' '/' s)

theorem replace_of_notMem {a b : Char} (h : a ∉ s) : replace a b s = s := by
  have hid : ∀ c ∈ s, (if c = a then b else c) = c := by
    intro c hc
    refine if_neg ?_
    rintro rfl
    exact h hc
  rw [replace, List.map_congr_left hid, List.map_id']

theorem notMem_replace {a b : Char} (h : b ≠ a) (s : Text) : a ∉ replace a b s := by
  intro hmem
  obtain ⟨c, -, hc⟩ := List.mem_map.1 hmem
  split at hc
  · exact h hc
  · rename_i hne
    exact hne hc

/-- **Both spellings of a start file are one node exactly if backslashes do not matter.** They never matter in a text that
has none, and they always do in one that has some and does not climb. -/
theorem oneNode_iff (hroot : isAbsolute root = true) (hs : isAbsolute s = false) :
    (OneNode root s ↔ ¬ Misread s) ∧ (Misread s → '\\' ∈ s) ∧
      ('\\' ∈ s → ['.', '.'] ∉ splitOn '/' s → Misread s) := by
  have habsolute := projectForm?_absolute hroot hs
  refine ⟨⟨fun h hne => hne ?_, fun h => ⟨?_, projectForm?_relative root hs⟩⟩, fun h => ?_, fun hback hup h => ?_⟩
  · rw [← habsolute, h.absolute]
  · rw [habsolute, not_ne_iff.1 h]
  · by_contra hnot
    exact h (by rw [replace_of_notMem hnot])
  · obtain ⟨q, hq, hmem⟩ := mem_denoted? hs hup hback (by decide) (by decide)
    rw [hq] at h
    exact notMem_replace (by decide) s (mem_of_denoted? h.symm hmem (by decide))

theorem oneNode_scripts :
    isAbsolute "/p/./q".toList = true ∧ isAbsolute "./a//b/../c.js".toList = false ∧
      projectForm? "/p/./q".toList "/p/./q/./a//b/../c.js".toList = some "a/c.js".toList ∧
      OneNode "/p/./q".toList "./a//b/../c.js".toList := by
  have hroot : isAbsolute "/p/./q".toList = true := rfl
  have hs : isAbsolute "./a//b/../c.js".toList = false := rfl
  refine ⟨hroot, hs, by decide, (oneNode_iff hroot hs).1.2 fun h => ?_⟩
  exact absurd ((oneNode_iff hroot hs).2.1 h) (by decide)

/-- A backslash stays in the absolute spelling of a start file. -/
theorem projectForm?_keeps_backslash :
    projectForm? "/p".toList "/p/d\\a.c".toList = some "d\\a.c".toList ∧
      projectForm? "/p".toList "d\\a.c".toList = some "d/a.c".toList ∧ ¬ OneNode "/p".toList "d\\a.c".toList := by
  have habsolute : projectForm? "/p".toList "/p/d\\a.c".toList = some "d\\a.c".toList := by decide
  have hrelative : projectForm? "/p".toList "d\\a.c".toList = some "d/a.c".toList := by decide
  refine ⟨habsolute, hrelative, fun h => ?_⟩
  have : projectForm? "/p".toList "/p/d\\a.c".toList = projectForm? "/p".toList "d\\a.c".toList :=
    h.absolute.trans h.relative.symm
  rw [habsolute, hrelative] at this
  exact absurd this (by decide)

end ImportTrail.Path
