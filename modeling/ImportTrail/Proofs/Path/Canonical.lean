import ImportTrail.Path
import ImportTrail.Proofs.Text.Pieces

/-!
Canonical project-relative paths: not empty, not absolute, and every piece between slashes is a name.

* `isCanonical_iff` — the pieces decide alone;
* `isCanonical_append_slash`, `IsCanonical.append_text` — what writing more behind a path does to it;
* `resolve?_canonical`, `projectForm?_canonical` — what cleaning a written path gives is canonical, or empty;
* `resolve?_ne_nil` — it is not empty when the path ends in names.
-/

namespace ImportTrail.Path

open Text

/-! ### Canonical paths -/

/-- A piece between slashes that names something. -/
def IsPlain (piece : Text) : Prop := piece ≠ [] ∧ piece ≠ ['.'] ∧ piece ≠ ['.', '.']

instance (piece : Text) : Decidable (IsPlain piece) := inferInstanceAs (Decidable (_ ∧ _))

/-- A path in canonical form: not empty, not absolute, and without empty pieces, dots and climbs. -/
def IsCanonical (p : Text) : Prop := p ≠ [] ∧ isAbsolute p = false ∧ ∀ piece ∈ splitOn '/' p, IsPlain piece

instance (p : Text) : Decidable (IsCanonical p) := inferInstanceAs (Decidable (_ ∧ _))

theorem isAbsolute_iff {p : Text} : isAbsolute p = true ↔ ∃ r, p = '/' :: r := by
  unfold isAbsolute
  split
  · exact ⟨fun _ => ⟨_, rfl⟩, fun _ => rfl⟩
  · rename_i h
    simp only [Bool.false_eq_true, false_iff]
    rintro ⟨r, rfl⟩
    exact h r rfl

theorem isAbsolute_append_text {s : Text} (hs : s ≠ []) (t : Text) : isAbsolute (s ++ t) = isAbsolute s := by
  obtain ⟨c, s, rfl⟩ := List.exists_cons_of_ne_nil hs
  rw [Bool.eq_iff_iff, isAbsolute_iff, isAbsolute_iff]
  simp

theorem isCanonical_iff {p : Text} : IsCanonical p ↔ ∀ piece ∈ splitOn '/' p, IsPlain piece := by
  constructor
  · intro h
    exact h.2.2
  · intro h
    refine ⟨?_, ?_, h⟩
    · rintro rfl
      exact (h [] (by simp [splitOn])).1 rfl
    · rw [Bool.eq_false_iff]
      intro ha
      obtain ⟨r, rfl⟩ := isAbsolute_iff.1 ha
      exact (h [] (by simp [splitOn])).1 rfl

theorem isCanonical_append_slash {p q : Text} : IsCanonical (p ++ '/' :: q) ↔ IsCanonical p ∧ IsCanonical q := by
  simp only [isCanonical_iff, splitOn_append_sep, List.mem_append, or_imp, forall_and]

theorem isCanonical_of_isPlain {p : Text} (h : IsPlain p) (hp : '/' ∉ p) : IsCanonical p := by
  rw [isCanonical_iff, splitOn_of_notMem hp]
  simpa using h

theorem isCanonical_ofNames {ns : List Text} (hne : ns ≠ []) (h : ∀ n ∈ ns, IsPlain n ∧ '/' ∉ n) :
    IsCanonical (ofNames ns) := by
  rw [isCanonical_iff, ofNames, splitOn_joinWith hne fun n hn => (h n hn).2]
  exact fun n hn => (h n hn).1

/-- A longer name is a name: only a dot or two dots are none. -/
theorem IsPlain.append {piece : Text} (h : IsPlain piece) (t : Text) : IsPlain (piece ++ t) := by
  obtain ⟨h0, h1, h2⟩ := h
  refine ⟨by simp [h0], ?_, ?_⟩
  · intro e
    rcases List.append_eq_singleton_iff.1 e with ⟨rfl, -⟩ | ⟨rfl, -⟩
    · exact h0 rfl
    · exact h1 rfl
  · intro e
    rcases piece with _ | ⟨a, _ | ⟨b, r⟩⟩
    · exact h0 rfl
    · simp only [List.cons_append, List.cons.injEq] at e
      exact h1 (by rw [e.1])
    · simp only [List.cons_append, List.cons.injEq, List.append_eq_nil_iff] at e
      exact h2 (by rw [e.1, e.2.1, e.2.2.1])

/-- Three characters make a name. -/
theorem isPlain_of_length {s : Text} (h : 3 ≤ s.length) : IsPlain s := by
  refine ⟨?_, ?_, ?_⟩ <;>
  · rintro rfl
    simp at h

theorem IsCanonical.append_text {p t : Text} (h : IsCanonical p) (ht : '/' ∉ t) : IsCanonical (p ++ t) := by
  obtain ⟨init, last, hp, hpt⟩ := splitOn_append_of_notMem ht p
  rw [isCanonical_iff] at h ⊢
  rw [hp] at h
  rw [hpt]
  intro piece hpiece
  rcases List.mem_append.1 hpiece with hi | hl
  · exact h piece (List.mem_append_left _ hi)
  · rw [List.mem_singleton.1 hl]
    exact (h last (by simp)).append t

/-! ### File names -/

/-- A path without slashes is its file name; any other has its file name behind its last slash. -/
theorem eq_fileName_or_append (s : Text) : s = fileName s ∨ ∃ r, s = r ++ '/' :: fileName s := by
  have hs : s = (s.reverse.dropWhile (· != '/')).reverse ++ fileName s := by
    rw [fileName, ← List.reverse_append, List.takeWhile_append_dropWhile, List.reverse_reverse]
  cases hd : s.reverse.dropWhile (· != '/') with
  | nil =>
    left
    rw [hd] at hs
    exact hs
  | cons c r =>
    right
    have hc : c = '/' := by
      have := List.head_dropWhile_not (· != '/') (l := s.reverse) (by simp [hd])
      simpa [hd] using this
    refine ⟨r.reverse, ?_⟩
    rw [hd, hc, List.reverse_cons, List.append_assoc] at hs
    exact hs

theorem slash_notMem_fileName (s : Text) : '/' ∉ fileName s := by
  intro h
  rw [fileName, List.mem_reverse] at h
  have := List.all_takeWhile (p := (· != '/')) (l := s.reverse)
  simpa using List.all_eq_true.1 this '/' h

theorem splitOn_eq_concat_fileName (s : Text) : ∃ init, splitOn '/' s = init ++ [fileName s] := by
  rcases eq_fileName_or_append s with h | ⟨r, h⟩
  · have hs : '/' ∉ s := by
      rw [h]
      exact slash_notMem_fileName s
    exact ⟨[], by rw [splitOn_of_notMem hs, ← h]; rfl⟩
  · refine ⟨splitOn '/' r, ?_⟩
    rw [← splitOn_of_notMem (slash_notMem_fileName s), ← splitOn_append_sep, ← h]

theorem fileName_eq_nil_iff {s : Text} : fileName s = [] ↔ s = [] ∨ endsWith s ['/'] = true := by
  constructor
  · intro h
    rcases eq_fileName_or_append s with hs | ⟨r, hs⟩
    · exact Or.inl (hs.trans h)
    · rw [h] at hs
      exact Or.inr (Option.isSome_iff_exists.2 ⟨r, before?_eq_some.2 hs⟩)
  · rintro (rfl | h)
    · rfl
    · obtain ⟨r, hr⟩ := Option.isSome_iff_exists.1 h
      simp [before?_eq_some.1 hr, fileName]

/-! ### What cleaning leaves -/

/-- The components that the pieces of a text stand for. -/
def body (p : Text) : List Component := (splitOn '/' p).filterMap Component.ofPiece?

theorem ofPiece?_eq_name {piece n : Text} : Component.ofPiece? piece = some (.name n) ↔ piece = n ∧ IsPlain n := by
  unfold Component.ofPiece? IsPlain
  by_cases h0 : piece = [] ∨ piece = ['.']
  · rw [if_pos h0]
    simp only [reduceCtorEq, false_iff]
    rintro ⟨rfl, h1, h2, -⟩
    exact h0.elim h1 h2
  · rw [if_neg h0]
    by_cases h2 : piece = ['.', '.']
    · rw [if_pos h2]
      simp only [Option.some.injEq, reduceCtorEq, false_iff]
      rintro ⟨rfl, -, -, h⟩
      exact h h2
    · rw [if_neg h2]
      simp only [Option.some.injEq, Component.name.injEq]
      exact ⟨fun h => ⟨h, h ▸ fun e => h0 (Or.inl e), h ▸ fun e => h0 (Or.inr e), h ▸ h2⟩, And.left⟩

theorem isPlain_of_name_mem_body {p n : Text} (h : .name n ∈ body p) : IsPlain n ∧ '/' ∉ n := by
  obtain ⟨piece, hpiece, hn⟩ := List.mem_filterMap.1 h
  obtain ⟨rfl, hplain⟩ := ofPiece?_eq_name.1 hn
  exact ⟨hplain, notMem_of_mem_splitOn hpiece⟩

theorem isPlain_of_name_mem_components {p n : Text} (h : .name n ∈ components p) : IsPlain n ∧ '/' ∉ n := by
  apply isPlain_of_name_mem_body (p := p)
  unfold components at h
  dsimp only at h
  split at h
  · simpa [body] using h
  · split at h
    · simpa [body] using h
    · exact h

/-- Cleaning makes no names up. -/
theorem name_mem_foldl_cleanStep {cs st : List Component} {n : Text} (h : .name n ∈ cs.foldl cleanStep st) :
    .name n ∈ st ∨ .name n ∈ cs := by
  induction cs generalizing st with
  | nil => exact Or.inl h
  | cons x cs ih =>
    rw [List.foldl_cons] at h
    rcases ih h with h | h
    · have hstep : .name n ∈ st ∨ x = .name n := by
        unfold cleanStep at h
        split at h
        · exact Or.inl h
        · exact Or.inl h
        · exact Or.inl (List.mem_cons_of_mem _ h)
        · exact (List.mem_cons.1 h).symm.imp_right Eq.symm
      rcases hstep with h | rfl
      · exact Or.inl h
      · exact Or.inr List.mem_cons_self
    · exact Or.inr (List.mem_cons_of_mem _ h)

theorem name_mem_of_mem_clean {cs : List Component} {n : Text} (h : .name n ∈ clean cs) : .name n ∈ cs := by
  rw [clean, List.mem_reverse] at h
  exact (name_mem_foldl_cleanStep h).resolve_left List.not_mem_nil

theorem name_mem_of_names? {cs : List Component} {ns : List Text} (h : names? cs = some ns) {n : Text} (hn : n ∈ ns) :
    .name n ∈ cs := by
  induction cs generalizing ns with
  | nil =>
    cases h
    simp at hn
  | cons x cs ih =>
    cases x with
    | here => exact List.mem_cons_of_mem _ (ih h hn)
    | name m =>
      obtain ⟨ms, hms, rfl⟩ := Option.map_eq_some_iff.1 h
      rcases List.mem_cons.1 hn with rfl | hn
      · exact List.mem_cons_self
      · exact List.mem_cons_of_mem _ (ih hms hn)
    | root | up => cases h

theorem names?_names (ns : List Text) : names? (ns.map .name) = some ns := by
  induction ns with
  | nil => rfl
  | cons n ns ih => simp [names?, ih]

/-- Names that are read off cleaned components make a canonical path, or an empty one. -/
theorem canonical_of_names_clean {p q : Text} {cs : List Component} (hcs : cs ⊆ components p)
    (h : (names? (clean cs)).map ofNames = some q) : q = [] ∨ IsCanonical q := by
  obtain ⟨ns, hns, rfl⟩ := Option.map_eq_some_iff.1 h
  rcases eq_or_ne ns [] with rfl | hne
  · exact Or.inl rfl
  · refine Or.inr (isCanonical_ofNames hne fun n hn => ?_)
    exact isPlain_of_name_mem_components (hcs (name_mem_of_mem_clean (name_mem_of_names? hns hn)))

theorem resolve?_canonical {base p q : Text} (h : resolve? base p = some q) : q = [] ∨ IsCanonical q :=
  canonical_of_names_clean (fun _ h => h) h

theorem stripComponents_subset {bs cs rest : List Component} (h : stripComponents bs cs = some rest) : rest ⊆ cs := by
  induction bs generalizing cs with
  | nil =>
    cases h
    exact fun _ h => h
  | cons b bs ih =>
    cases cs with
    | nil => cases h
    | cons x cs =>
      rw [stripComponents] at h
      split at h
      · exact fun y hy => List.mem_cons_of_mem _ (ih h hy)
      · cases h

/-- Start files are canonical: the root itself has been left out. -/
theorem projectForm?_canonical {root start q : Text} (h : projectForm? root start = some q) : IsCanonical q := by
  obtain ⟨hform, hne⟩ := Option.filter_eq_some_iff.1 h
  have hq : q = [] ∨ IsCanonical q := by
    split at hform
    · obtain ⟨rest, hrest, hq⟩ := Option.bind_eq_some_iff.1 hform
      exact canonical_of_names_clean (stripComponents_subset hrest) hq
    · exact resolve?_canonical hform
  rcases hq with rfl | hq
  · simp at hne
  · exact hq

/-! ### Names at the end -/

theorem cleanStep_name (st : List Component) (n : Text) : cleanStep st (.name n) = .name n :: st := by
  unfold cleanStep
  split <;> simp_all

theorem foldl_cleanStep_of_names {cs st : List Component} (h : ∀ x ∈ cs, ∃ n, x = .name n) :
    cs.foldl cleanStep st = cs.reverse ++ st := by
  induction cs generalizing st with
  | nil => rfl
  | cons x cs ih =>
    obtain ⟨n, rfl⟩ := h x List.mem_cons_self
    rw [List.foldl_cons, cleanStep_name, ih fun y hy => h y (List.mem_cons_of_mem _ hy)]
    simp

/-- The components of a path seen from a base end with its own. -/
theorem components_append (base p : Text) : ∃ front, components (append base p) = front ++ body p := by
  have whole : ∀ q, ∃ front, components q = front ++ body q := by
    intro q
    unfold components
    dsimp only
    split
    · exact ⟨[.root], rfl⟩
    · split
      · exact ⟨[.here], rfl⟩
      · exact ⟨[], rfl⟩
  have behind : ∀ b, ∃ front, components (b ++ '/' :: p) = front ++ body p := by
    intro b
    obtain ⟨front, h⟩ := whole (b ++ '/' :: p)
    refine ⟨front ++ body b, ?_⟩
    rw [h, body, splitOn_append_sep, List.filterMap_append, List.append_assoc, body, body]
  unfold append
  split
  · exact whole p
  · split
    · rename_i he
      obtain ⟨b, hb⟩ := Option.isSome_iff_exists.1 he
      rw [before?_eq_some.1 hb, List.append_assoc]
      exact behind b
    · exact behind base

theorem names?_append {as bs : List Component} {ns : List Text} (h : names? (as ++ bs) = some ns) :
    ∃ ms, names? bs = some ms ∧ ms <:+ ns := by
  induction as generalizing ns with
  | nil => exact ⟨ns, h, List.suffix_refl _⟩
  | cons x as ih =>
    cases x with
    | here => exact ih h
    | name n =>
      obtain ⟨ms, hms, rfl⟩ := Option.map_eq_some_iff.1 h
      obtain ⟨ks, hks, hsuf⟩ := ih hms
      exact ⟨ks, hks, hsuf.trans (List.suffix_cons _ _)⟩
    | root | up => cases h

/-- The root of the disk stays below all that is cleaned. -/
theorem foldl_cleanStep_root (cs st : List Component) :
    ∃ st', cs.foldl cleanStep (st ++ [.root]) = st' ++ [.root] := by
  induction cs generalizing st with
  | nil => exact ⟨st, rfl⟩
  | cons x cs ih =>
    have hstep : ∃ st', cleanStep (st ++ [.root]) x = st' ++ [.root] := by
      unfold cleanStep
      split
      · exact ⟨st, rfl⟩
      · rename_i h
        exact ⟨st, h.symm⟩
      · rename_i n st' h
        cases st with
        | nil => simp at h
        | cons y st =>
          rw [List.cons_append, List.cons.injEq] at h
          exact ⟨st, h.2.symm⟩
      · exact ⟨_ :: st, rfl⟩
    obtain ⟨st', hst'⟩ := hstep
    rw [List.foldl_cons, hst']
    exact ih st'

theorem resolve?_of_isAbsolute {base p : Text} (h : isAbsolute p = true) : resolve? base p = none := by
  obtain ⟨st, hst⟩ := foldl_cleanStep_root (body p) []
  have hcomp : components (append base p) = .root :: body p := by
    rw [append, h, Bool.true_or, if_pos rfl, components, if_pos h, body]
  have hclean : clean (components (append base p)) = .root :: st.reverse := by
    rw [hcomp, clean, List.foldl_cons]
    exact (congrArg List.reverse hst).trans (by simp)
  rw [resolve?, hclean]
  rfl

/-- A path of names does not vanish, wherever it is written. -/
theorem resolve?_ne_nil {base p q : Text} (hup : ['.', '.'] ∉ splitOn '/' p) (hname : ∃ n ∈ splitOn '/' p, IsPlain n)
    (h : resolve? base p = some q) : q ≠ [] := by
  obtain ⟨ns, hns, rfl⟩ := Option.map_eq_some_iff.1 h
  obtain ⟨front, hfront⟩ := components_append base p
  have hbody : ∀ x ∈ body p, ∃ n, x = .name n := by
    intro x hx
    obtain ⟨piece, hpiece, hx⟩ := List.mem_filterMap.1 hx
    unfold Component.ofPiece? at hx
    split at hx
    · cases hx
    · split at hx
      · rename_i e
        exact absurd (e ▸ hpiece) hup
      · exact ⟨piece, (Option.some.inj hx).symm⟩
  -- names take nothing back, so they stand behind whatever is left of the base
  have hclean : clean (components (append base p)) = clean front ++ body p := by
    rw [hfront, clean, List.foldl_append, foldl_cleanStep_of_names hbody, clean]
    simp
  rw [hclean] at hns
  obtain ⟨ms, hms, hsuf⟩ := names?_append hns
  obtain ⟨n, hn, hplain⟩ := hname
  have hmem : .name n ∈ body p := List.mem_filterMap.2 ⟨n, hn, ofPiece?_eq_name.2 ⟨rfl, hplain⟩⟩
  have hns' : ns ≠ [] := by
    rintro rfl
    rw [List.suffix_nil.1 hsuf] at hms
    cases hb : body p with
    | nil => simp [hb] at hmem
    | cons x cs =>
      obtain ⟨m, rfl⟩ := hbody x (by simp [hb])
      simp [hb, names?] at hms
  have hplain' : ∀ m ∈ ns, IsPlain m ∧ '/' ∉ m := fun m hm =>
    isPlain_of_name_mem_components (name_mem_of_mem_clean (hclean ▸ name_mem_of_names? hns hm))
  exact (isCanonical_ofNames hns' hplain').1

/-- A text without dots is a path of names, or absolute. -/
theorem resolve?_canonical_of_noDots {base p q : Text} (hne : p ≠ []) (hdot : '.' ∉ p) (h : resolve? base p = some q) :
    IsCanonical q := by
  have hup : ['.', '.'] ∉ splitOn '/' p := fun hmem => hdot (mem_of_mem_splitOn hmem (by simp))
  obtain ⟨c, s, rfl⟩ := List.exists_cons_of_ne_nil hne
  by_cases hc : c = '/'
  · rw [resolve?_of_isAbsolute (by simp [hc, isAbsolute])] at h
    cases h
  · have hname : ∃ n ∈ splitOn '/' (c :: s), IsPlain n := by
      obtain ⟨piece, pieces, hs⟩ := List.exists_cons_of_ne_nil (splitOn_ne_nil '/' s)
      have hcs : splitOn '/' (c :: s) = (c :: piece) :: pieces := by rw [splitOn, if_neg hc, hs]
      have hdot' : c ≠ '.' := fun e => hdot (e ▸ List.mem_cons_self)
      refine ⟨c :: piece, hcs ▸ List.mem_cons_self, by simp, ?_, ?_⟩
      · intro e
        exact hdot' (List.cons.inj e).1
      · intro e
        exact hdot' (List.cons.inj e).1
    exact (resolve?_canonical h).resolve_left (resolve?_ne_nil hup hname h)

end ImportTrail.Path
