import ImportTrail.Scan.Pattern
import Mathlib.Data.List.Basic

/-!
Finding patterns piece by piece, and putting findings in order.

* `findFrom_skip`, `findFrom_append`, `findFrom_match` — the findings in a text whose first piece is skipped, has no
  match, or begins with one;
* `FindsOver` — what a pattern finds in a piece of a text, put together from what it finds in smaller pieces;
* `findings_ge`, `map_findFrom` — nothing is found before the place where the search begins, and the place does not matter
  for what is captured;
* `inOrder_cut` — findings that all stand before others are put in order apart from them.
-/

namespace ImportTrail.Scan

open Text

variable {pat : Pattern} {prev : Option Char} {pos n : ℕ} {x y r w w' : Text} {c : Char} {f : Finding} {fs fs' : List Finding}

/-! ### Pieces of a text -/

/-- The character in front of a place behind a piece of text. -/
def charBefore (prev : Option Char) (x : Text) : Option Char := x.foldl (fun _ c => some c) prev

theorem charBefore_mem (prev : Option Char) (hne : x ≠ []) : ∃ d ∈ x, charBefore prev x = some d := by
  induction x generalizing prev with
  | nil => exact absurd rfl hne
  | cons c x ih =>
    rcases eq_or_ne x [] with rfl | hx
    · exact ⟨c, by simp, rfl⟩
    · obtain ⟨d, hd, h⟩ := ih (some c) hx
      exact ⟨d, List.mem_cons_of_mem _ hd, h⟩

/-- The rest of the last match is skipped. -/
theorem findFrom_skip (prev : Option Char) (pos : ℕ) (x r : Text) :
    findFrom pat prev pos x.length (x ++ r) = findFrom pat (charBefore prev x) (pos + x.length) 0 r := by
  induction x generalizing prev pos with
  | nil => rfl
  | cons c x ih =>
    rw [List.cons_append, List.length_cons, findFrom, ih]
    congr 1
    omega

/-- A piece in which the pattern matches nowhere. -/
theorem findFrom_append (h : ∀ u c v, x = u ++ c :: v → pat (charBefore prev u) (c :: v ++ r) = none) :
    findFrom pat prev pos 0 (x ++ r) = findFrom pat (charBefore prev x) (pos + x.length) 0 r := by
  induction x generalizing prev pos with
  | nil => rfl
  | cons c x ih =>
    have hc := h [] c x rfl
    have hx := @ih (some c) (pos + 1) fun u d v hv => h (c :: u) d v (by rw [hv, List.cons_append])
    rw [List.cons_append, findFrom, show pat prev (c :: (x ++ r)) = none from hc]
    simp only [hx, List.length_cons]
    congr 1
    omega

/-- A piece that begins with a match. -/
theorem findFrom_match {m : Match} (hm : pat prev (c :: x ++ r) = some m) (hlen : m.length = x.length + 1) :
    findFrom pat prev pos 0 (c :: x ++ r) =
      (pos + m.before, m.capture) :: findFrom pat (charBefore prev (c :: x)) (pos + x.length + 1) 0 r := by
  rw [List.cons_append] at hm ⊢
  rw [findFrom, hm]
  simp only [hlen, Nat.add_sub_cancel]
  rw [findFrom_skip]
  congr 2
  omega

/-- What a pattern finds in a piece of a text, with `r` behind it. -/
def FindsOver (pat : Pattern) (prev : Option Char) (pos : ℕ) (w r : Text) (fs : List Finding) : Prop :=
  findFrom pat prev pos 0 (w ++ r) = fs ++ findFrom pat (charBefore prev w) (pos + w.length) 0 r

theorem charBefore_append (prev : Option Char) (w w' : Text) :
    charBefore prev (w ++ w') = charBefore (charBefore prev w) w' :=
  List.foldl_append

theorem FindsOver.append (h : FindsOver pat prev pos w (w' ++ r) fs)
    (h' : FindsOver pat (charBefore prev w) (pos + w.length) w' r fs') :
    FindsOver pat prev pos (w ++ w') r (fs ++ fs') := by
  rw [FindsOver] at h h' ⊢
  rw [List.append_assoc, h, h', List.append_assoc, charBefore_append, List.length_append, Nat.add_assoc]

theorem findsOver_none (h : ∀ u c v, w = u ++ c :: v → pat (charBefore prev u) (c :: v ++ r) = none) :
    FindsOver pat prev pos w r [] := findFrom_append h

theorem findsOver_single (h : pat prev (c :: r) = none) : FindsOver pat prev pos [c] r [] := by
  rw [FindsOver, List.singleton_append, findFrom, h]
  rfl

theorem findsOver_match {m : Match} (hm : pat prev (w ++ r) = some m) (hlen : m.length = w.length) (hne : w ≠ []) :
    FindsOver pat prev pos w r [(pos + m.before, m.capture)] := by
  obtain ⟨c, x, rfl⟩ := List.exists_cons_of_ne_nil hne
  exact findFrom_match hm hlen

theorem findings_ge {skip : ℕ} (h : f ∈ findFrom pat prev pos skip x) : pos ≤ f.1 := by
  induction x generalizing prev pos skip with
  | nil => cases h
  | cons c x ih =>
    cases skip with
    | succ skip => exact Nat.le_of_succ_le (ih h)
    | zero =>
      rw [findFrom] at h
      split at h
      · rcases List.mem_cons.1 h with rfl | h
        · exact Nat.le_add_right _ _
        · exact Nat.le_of_succ_le (ih h)
      · exact Nat.le_of_succ_le (ih h)

/-- Where a search begins to count does not matter for what is captured. -/
theorem map_findFrom {α : Type} (g : Text → α) (prev : Option Char) (pos pos' skip : ℕ) (s : Text) :
    ((findFrom pat prev pos skip s).map fun f => g f.2) = (findFrom pat prev pos' skip s).map fun f => g f.2 := by
  induction s generalizing prev pos pos' skip with
  | nil => rfl
  | cons c s ih =>
    cases skip with
    | succ skip => exact ih _ _ _ _
    | zero =>
      rw [findFrom, findFrom]
      split
      · rw [List.map_cons, List.map_cons, ih]
      · exact ih _ _ _ _

/-! ### Order -/

theorem earlier_trans (a b c : Finding) (hab : decide (a.1 ≤ b.1) = true) (hbc : decide (b.1 ≤ c.1) = true) :
    decide (a.1 ≤ c.1) = true := by
  simp only [decide_eq_true_eq] at hab hbc ⊢
  omega

theorem earlier_total (a b : Finding) : (decide (a.1 ≤ b.1) || decide (b.1 ≤ a.1)) = true := by
  simp only [Bool.or_eq_true, decide_eq_true_eq]
  omega

theorem pairwise_inOrder (fs : List Finding) : (inOrder fs).Pairwise fun a b => a.1 ≤ b.1 := by
  have h : (inOrder fs).Pairwise fun a b => decide (a.1 ≤ b.1) = true :=
    List.pairwise_mergeSort earlier_trans earlier_total fs
  exact h.imp fun h => by simpa using h

/-- Findings at one position keep their order. -/
theorem filter_inOrder (fs : List Finding) (k : ℕ) : (inOrder fs).filter (·.1 == k) = fs.filter (·.1 == k) := by
  have hsame : (fs.filter (·.1 == k)).Pairwise fun a b => decide (a.1 ≤ b.1) = true := by
    refine List.pairwise_of_forall_mem_list fun a ha b hb => ?_
    have ha := (List.mem_filter.1 ha).2
    have hb := (List.mem_filter.1 hb).2
    simp only [beq_iff_eq] at ha hb
    simp [ha, hb]
  have hsub : List.Sublist (fs.filter (·.1 == k)) (inOrder fs) :=
    List.sublist_mergeSort earlier_trans earlier_total hsame List.filter_sublist
  have hsub' := hsub.filter (·.1 == k)
  rw [List.filter_filter] at hsub'
  simp only [Bool.and_self] at hsub'
  have hperm := (List.mergeSort_perm fs fun a b => decide (a.1 ≤ b.1)).filter (·.1 == k)
  exact (hsub'.eq_of_length hperm.length_eq.symm).symm

theorem eq_of_pairwise {l l' : List Finding} (hl : l.Pairwise fun a b => a.1 ≤ b.1) (hl' : l'.Pairwise fun a b => a.1 ≤ b.1)
    (h : ∀ k, l.filter (·.1 == k) = l'.filter (·.1 == k)) : l = l' := by
  have hmem : ∀ f, f ∈ l ↔ f ∈ l' := by
    intro f
    have := congrArg (f ∈ ·) (h f.1)
    simpa using this
  induction l generalizing l' with
  | nil =>
    cases l' with
    | nil => rfl
    | cons b l' => exact absurd ((hmem b).2 List.mem_cons_self) (by simp)
  | cons a l ih =>
    cases l' with
    | nil => exact absurd ((hmem a).1 List.mem_cons_self) (by simp)
    | cons b l' =>
      -- Both first positions are the least one, and the first finding there is the same.
      have hab : a.1 ≤ b.1 := by
        rcases List.mem_cons.1 ((hmem b).2 List.mem_cons_self) with rfl | hb
        · exact Nat.le_refl _
        · exact List.rel_of_pairwise_cons hl hb
      have hba : b.1 ≤ a.1 := by
        rcases List.mem_cons.1 ((hmem a).1 List.mem_cons_self) with rfl | ha
        · exact Nat.le_refl _
        · exact List.rel_of_pairwise_cons hl' ha
      have heq : a.1 = b.1 := Nat.le_antisymm hab hba
      have hfirst := h a.1
      rw [List.filter_cons_of_pos (by simp), List.filter_cons_of_pos (by simp [heq]), List.cons.injEq] at hfirst
      obtain ⟨rfl, -⟩ := hfirst
      have hrest : ∀ k, l.filter (·.1 == k) = l'.filter (·.1 == k) := by
        intro k
        have hk := h k
        by_cases hak : a.1 = k
        · rwa [List.filter_cons_of_pos (by simp [hak]), List.filter_cons_of_pos (by simp [hak]), List.cons.injEq,
            eq_self_iff_true, true_and] at hk
        · rwa [List.filter_cons_of_neg (by simp [hak]), List.filter_cons_of_neg (by simp [hak])] at hk
      rw [ih hl.of_cons hl'.of_cons hrest fun f => ?_]
      have := congrArg (f ∈ ·) (hrest f.1)
      simpa using this

theorem filter_eq_nil {fs : List Finding} {k : ℕ} (h : ∀ f ∈ fs, f.1 ≠ k) : fs.filter (·.1 == k) = [] := by
  refine List.filter_eq_nil_iff.2 fun f hf => ?_
  simpa using h f hf

/-- Three lists of findings, each cut at the same position, are put in order on the two sides of the cut. -/
theorem inOrder_cut {a a' b b' c c' : List Finding} (hearly : ∀ f ∈ a ++ b ++ c, f.1 < n)
    (hlate : ∀ f ∈ a' ++ b' ++ c', n ≤ f.1) :
    inOrder ((a ++ a') ++ (b ++ b') ++ (c ++ c')) = inOrder (a ++ b ++ c) ++ inOrder (a' ++ b' ++ c') := by
  refine eq_of_pairwise (pairwise_inOrder _) ?_ fun k => ?_
  · refine List.pairwise_append.2 ⟨pairwise_inOrder _, pairwise_inOrder _, fun f hf g hg => ?_⟩
    have hf := hearly f (List.mem_mergeSort.1 hf)
    have hg := hlate g (List.mem_mergeSort.1 hg)
    omega
  · rw [List.filter_append, filter_inOrder, filter_inOrder, filter_inOrder]
    simp only [List.mem_append] at hearly hlate
    by_cases hk : k < n
    · have none_late : ∀ l : List Finding, (∀ f ∈ l, n ≤ f.1) → l.filter (·.1 == k) = [] :=
        fun l hl => filter_eq_nil fun f hf => by have := hl f hf; omega
      simp [none_late a' fun f hf => hlate f (by simp [hf]), none_late b' fun f hf => hlate f (by simp [hf]),
        none_late c' fun f hf => hlate f (by simp [hf])]
    · have none_early : ∀ l : List Finding, (∀ f ∈ l, f.1 < n) → l.filter (·.1 == k) = [] :=
        fun l hl => filter_eq_nil fun f hf => by have := hl f hf; omega
      simp [none_early a fun f hf => hearly f (by simp [hf]), none_early b fun f hf => hearly f (by simp [hf]),
        none_early c fun f hf => hearly f (by simp [hf])]

/-- Findings at one position are in order. -/
theorem inOrder_same (k : ℕ) (xs : List Text) : inOrder (xs.map fun x => (k, x)) = xs.map fun x => (k, x) := by
  refine List.mergeSort_of_pairwise (List.pairwise_map.2 ?_)
  exact List.pairwise_of_forall fun _ _ => by simp

end ImportTrail.Scan
