import ImportTrail.Crawl
import Mathlib.Data.List.Nodup
import Mathlib.Order.Lattice.Nat
import Mathlib.Data.Prod.Lex

/-!
A crawl is the breadth-first closure of its start files, cut off at a depth.

* `leads` — the paths that the imports of one file lead to, said without visits and counters;
* `Hops`, `Reached` — chains of imports of a given length, and what they reach from the start;
* `within` — the files within a number of hops, in the order of discovery, by one equation: the start files, then
  what the files within one hop less lead to, each path where it stands first;
* `append_crawl_files` — the level recursion of a crawl computes `within`;
* `crawl_files_breadthFirst` — a file is found exactly when a chain of at most the maximal depth leads to it, it is
  found once, and the files come by distance, then by their first parent, then by their place among its imports.
-/

namespace ImportTrail.Crawler

/-! ### What has not been seen -/

theorem fresh_eq_eraseDups (seen l : List Text) :
    fresh seen l = (l.filter fun v => !seen.contains v).eraseDups := by
  induction l generalizing seen with
  | nil => rfl
  | cons p ps ih =>
    rw [fresh]
    by_cases hp : p ∈ seen
    · simp [hp, ih]
    · have hps : (ps.filter fun v => !(p :: seen).contains v) =
          (ps.filter fun v => !seen.contains v).filter fun v => !v == p := by
        rw [List.filter_filter]
        refine List.filter_congr fun v _ => ?_
        by_cases hv : v = p <;> simp [hv]
      rw [List.contains_eq_mem, decide_eq_false hp, if_neg Bool.false_ne_true, ih, hps,
        List.filter_cons_of_pos (by simp [hp]), List.eraseDups_cons]

theorem mem_fresh {seen l : List Text} {v : Text} : v ∈ fresh seen l ↔ v ∈ l ∧ v ∉ seen := by
  simp [fresh_eq_eraseDups]

theorem fresh_congr {s t : List Text} (h : ∀ v, v ∈ s ↔ v ∈ t) (l : List Text) : fresh s l = fresh t l := by
  simp [fresh_eq_eraseDups, h]

theorem fresh_nil_left (l : List Text) : fresh [] l = Text.distinct l := by
  simp [fresh_eq_eraseDups, Text.distinct]

theorem fresh_append (seen a b : List Text) :
    fresh seen (a ++ b) = fresh seen a ++ fresh (seen ++ fresh seen a) b := by
  induction a generalizing seen with
  | nil => simp [fresh]
  | cons p ps ih =>
    rw [List.cons_append, fresh, fresh]
    by_cases hp : p ∈ seen
    · simp [hp, ih]
    · simp only [List.contains_eq_mem, hp, decide_false, Bool.false_eq_true, if_false, ih, List.cons_append]
      congr 2
      apply fresh_congr
      intro v
      simp [or_left_comm]

/-- What is new comes in the order of the list. -/
theorem fresh_pairwise (seen l : List Text) :
    (fresh seen l).Pairwise fun v w => l.idxOf v < l.idxOf w := by
  induction l generalizing seen with
  | nil => simp [fresh]
  | cons p ps ih =>
    -- everything kept from the tail differs from `p`, so its position moves on by one
    have later : ∀ s, p ∈ s → (fresh s ps).Pairwise fun v w => (p :: ps).idxOf v < (p :: ps).idxOf w := by
      intro s hs
      refine (List.Pairwise.and_mem.1 (ih s)).imp ?_
      rintro v w ⟨hv, hw, hvw⟩
      have hpv : p ≠ v := fun h => (mem_fresh.1 hv).2 (h ▸ hs)
      have hpw : p ≠ w := fun h => (mem_fresh.1 hw).2 (h ▸ hs)
      simpa [List.idxOf_cons_ne _ hpv, List.idxOf_cons_ne _ hpw] using hvw
    rw [fresh]
    by_cases hp : p ∈ seen
    · simpa [hp] using later seen hp
    · simp only [List.contains_eq_mem, hp, decide_false, Bool.false_eq_true, if_false]
      refine List.pairwise_cons.2 ⟨fun w hw => ?_, later (p :: seen) (by simp)⟩
      have hpw : p ≠ w := fun h => (mem_fresh.1 hw).2 (h ▸ by simp)
      rw [List.idxOf_cons_self, List.idxOf_cons_ne _ hpw]
      omega

theorem nodup_fresh (seen l : List Text) : (fresh seen l).Nodup :=
  (fresh_pairwise seen l).imp fun h e => absurd (e ▸ h) (lt_irrefl _)

/-! ### Where a file leads -/

/-- The paths that the imports of a file lead to, in the order of its text: its specifiers, resolved from its
directory, without those that are ignored. A file of no family and a file without content lead nowhere. -/
def leads (c : Crawler) (u : Text) : List Text :=
  match (Path.extension? u).bind Family.ofExtension?, c.read u with
  | some f, some (x :: source) =>
    ((f.imports c.strategy (x :: source)).filterMap fun spec =>
      f.resolve? c.project spec (Path.parent u)).filter fun path => !c.ignores path
  | _, _ => []

theorem paths_targets (c : Crawler) (f : Family) (dir : Text) (specs : List Text) (asked : Bool) :
    (Visit.mk asked (some (specs.map (c.target f dir)))).paths =
      (specs.filterMap fun spec => f.resolve? c.project spec dir).filter fun path => !c.ignores path := by
  induction specs with
  | nil => rfl
  | cons spec specs ih =>
    simp only [Visit.paths, Option.getD_some, List.map_cons] at ih ⊢
    cases hr : f.resolve? c.project spec dir with
    | none => simp [target, hr, ih]
    | some path => by_cases hi : c.ignores path <;> simp [target, hr, hi, ih]

theorem paths_visit (c : Crawler) (u : Text) : (c.visit u).paths = c.leads u := by
  unfold visit leads
  cases (Path.extension? u).bind Family.ofExtension? with
  | none => rfl
  | some f =>
    cases c.read u with
    | none => rfl
    | some source =>
      cases source with
      | nil => rfl
      | cons x source => exact paths_targets c f (Path.parent u) _ true

/-! ### Chains of imports -/

/-- A chain of `k` imports leads from `u` to a path. -/
inductive Hops (c : Crawler) (u : Text) : ℕ → Text → Prop
  | refl : Hops c u 0 u
  | tail {k : ℕ} {v w : Text} : Hops c u k v → w ∈ c.leads v → Hops c u (k + 1) w

/-- A chain of `k` imports leads from one of the start files to a path. -/
def Reached (c : Crawler) (start : List Text) (k : ℕ) (v : Text) : Prop := ∃ s ∈ start, c.Hops s k v

theorem reached_zero {c : Crawler} {start : List Text} {v : Text} : c.Reached start 0 v ↔ v ∈ start := by
  constructor
  · rintro ⟨s, hs, h⟩
    cases h
    exact hs
  · intro h
    exact ⟨v, h, .refl⟩

theorem reached_succ {c : Crawler} {start : List Text} {k : ℕ} {w : Text} :
    c.Reached start (k + 1) w ↔ ∃ v, c.Reached start k v ∧ w ∈ c.leads v := by
  constructor
  · rintro ⟨s, hs, h⟩
    cases h with
    | tail h hw => exact ⟨_, ⟨s, hs, h⟩, hw⟩
  · rintro ⟨v, ⟨s, hs, h⟩, hw⟩
    exact ⟨s, hs, .tail h hw⟩

/-- The files within `k` hops of the start files, in the order of discovery. -/
def within (c : Crawler) (start : List Text) : ℕ → List Text
  | 0 => start
  | k + 1 => start ++ fresh start ((c.within start k).flatMap c.leads)

variable {c : Crawler} {start : List Text}

theorem mem_within {k : ℕ} {v : Text} : v ∈ c.within start k ↔ ∃ j ≤ k, c.Reached start j v := by
  induction k generalizing v with
  | zero => simp [within, reached_zero]
  | succ k ih =>
    rw [within, List.mem_append, mem_fresh, List.mem_flatMap]
    constructor
    · rintro (hv | ⟨⟨u, hu, hv⟩, -⟩)
      · exact ⟨0, by omega, reached_zero.2 hv⟩
      · obtain ⟨j, hj, h⟩ := ih.1 hu
        exact ⟨j + 1, by omega, reached_succ.2 ⟨u, h, hv⟩⟩
    · rintro ⟨j, hj, h⟩
      by_cases hs : v ∈ start
      · exact Or.inl hs
      · cases j with
        | zero => exact absurd (reached_zero.1 h) hs
        | succ j =>
          obtain ⟨u, hu, hv⟩ := reached_succ.1 h
          exact Or.inr ⟨⟨u, ih.2 ⟨j, by omega, hu⟩, hv⟩, hs⟩

theorem nodup_within (h : start.Nodup) (k : ℕ) : (c.within start k).Nodup := by
  cases k with
  | zero => exact h
  | succ k =>
    rw [within]
    exact h.append (nodup_fresh _ _) fun v hv hf => (mem_fresh.1 hf).2 hv

/-- One hop more only adds files at the end. -/
theorem within_prefix_succ (c : Crawler) (start : List Text) (k : ℕ) :
    c.within start k <+: c.within start (k + 1) := by
  induction k with
  | zero => exact ⟨_, rfl⟩
  | succ k ih =>
    obtain ⟨t, ht⟩ := ih
    refine ⟨fresh (start ++ fresh start ((c.within start k).flatMap c.leads)) (t.flatMap c.leads), ?_⟩
    rw [within, within, ← ht, List.flatMap_append, fresh_append, List.append_assoc]

/-! ### The level recursion -/

theorem levels_zero_files (c : Crawler) (seen level : List Text) : (c.levels 0 seen level).files = [] := by
  cases level <;> rfl

theorem levels_succ_files (c : Crawler) (d : ℕ) (seen level : List Text) :
    (c.levels (d + 1) seen level).files = fresh seen (level.flatMap c.leads) ++
      (c.levels d (seen ++ fresh seen (level.flatMap c.leads)) (fresh seen (level.flatMap c.leads))).files := by
  cases level with
  | nil => cases d <;> rfl
  | cons p ps =>
    have hv : ((p :: ps).map fun q => (q, c.visit q)).flatMap (·.2.paths) = (p :: ps).flatMap c.leads := by
      rw [List.flatMap_map]
      simp only [paths_visit]
    rw [levels]
    simp only [hv]
    simp

/-- From the files within `k` hops on, of which those in `level` are still to be visited, `d` more levels add the files
within `k + d` hops. -/
theorem append_levels_files (d : ℕ) {k : ℕ} {done level : List Text} (hl : c.within start k = done ++ level)
    (hd : c.within start k = start ++ fresh start (done.flatMap c.leads)) :
    c.within start k ++ (c.levels d (c.within start k) level).files = c.within start (k + d) := by
  induction d generalizing k done level with
  | zero => simp [levels_zero_files]
  | succ d ih =>
    set next := fresh (c.within start k) (level.flatMap c.leads) with hnext
    have hk : c.within start (k + 1) = c.within start k ++ next := by
      rw [within, hl, List.flatMap_append, fresh_append, ← hd, ← List.append_assoc, ← hd, ← hl]
    have := ih hk (by rw [within])
    rw [hk, List.append_assoc] at this
    rw [levels_succ_files, ← hnext, this, Nat.add_right_comm, Nat.add_assoc]

theorem startLevel_eq_distinct (c : Crawler) (starts : List Text) :
    c.startLevel starts = Text.distinct (starts.filterMap (Path.projectForm? c.project.root)) :=
  fresh_nil_left _

theorem append_crawl_files (c : Crawler) (starts : List Text) :
    c.startLevel starts ++ (c.crawl starts).files = c.within (c.startLevel starts) c.maxDepth := by
  have hl : c.within (c.startLevel starts) 0 = [] ++ c.startLevel starts := rfl
  have := append_levels_files c.maxDepth hl (by simp [within, fresh])
  simpa [within, crawl] using this

theorem nodup_startLevel (c : Crawler) (starts : List Text) : (c.startLevel starts).Nodup := nodup_fresh _ _

theorem mem_crawl_files {starts : List Text} {v : Text} :
    v ∈ (c.crawl starts).files ↔
      v ∉ c.startLevel starts ∧ ∃ k ≤ c.maxDepth, c.Reached (c.startLevel starts) k v := by
  rw [← mem_within, ← append_crawl_files, List.mem_append]
  have hd := (List.nodup_append.1 (append_crawl_files c starts ▸
    nodup_within (nodup_startLevel c starts) c.maxDepth)).2.2
  constructor
  · intro h
    exact ⟨fun hs => hd v hs v h rfl, Or.inr h⟩
  · rintro ⟨hs, h | h⟩
    · exact absurd h hs
    · exact h

/-! ### The order of discovery -/

/-- The number of hops of a shortest chain from the start files to a path. -/
noncomputable def distance (c : Crawler) (start : List Text) (v : Text) : ℕ := sInf {k | c.Reached start k v}

/-- The position in `order` of the first file that leads to `v`. -/
def parentIndex (c : Crawler) (order : List Text) (v : Text) : ℕ :=
  order.findIdx fun u => (c.leads u).contains v

/-- The position of `v` among the paths that the first such file leads to. -/
def siblingIndex (c : Crawler) (order : List Text) (v : Text) : ℕ :=
  ((order.find? fun u => (c.leads u).contains v).elim [] c.leads).idxOf v

/-- Distance first, then the first parent, then the place among its imports. -/
noncomputable def rank (c : Crawler) (start order : List Text) (v : Text) : ℕ ×ₗ ℕ ×ₗ ℕ :=
  toLex (c.distance start v, toLex (c.parentIndex order v, c.siblingIndex order v))

theorem distance_le_iff {k : ℕ} {v : Text} (h : ∃ j, c.Reached start j v) :
    c.distance start v ≤ k ↔ v ∈ c.within start k := by
  rw [mem_within]
  constructor
  · intro hk
    exact ⟨_, hk, Nat.sInf_mem h⟩
  · rintro ⟨j, hj, hr⟩
    exact (Nat.sInf_le hr).trans hj

/-- The files within some hops come by distance: what one hop more adds is exactly that far away. -/
theorem within_pairwise_distance (c : Crawler) (start : List Text) (hs : start.Nodup) (k : ℕ) :
    (c.within start k).Pairwise fun v w => c.distance start v ≤ c.distance start w := by
  have reached : ∀ {j v}, v ∈ c.within start j → ∃ i, c.Reached start i v := fun hv =>
    let ⟨i, _, h⟩ := mem_within.1 hv
    ⟨i, h⟩
  induction k with
  | zero =>
    have zero : ∀ v ∈ start, c.distance start v ≤ 0 := fun v hv =>
      (distance_le_iff (reached (j := 0) hv)).2 hv
    refine (List.Pairwise.and_mem.1 hs).imp ?_
    rintro v w ⟨hv, hw, -⟩
    exact (zero v hv).trans (Nat.zero_le _)
  | succ k ih =>
    obtain ⟨t, ht⟩ := within_prefix_succ c start k
    have hn : (c.within start k ++ t).Nodup := ht ▸ nodup_within hs (k + 1)
    have ht' : ∀ v ∈ t, k < c.distance start v := by
      intro v hv
      have hr := reached (j := k + 1) (ht ▸ List.mem_append_right _ hv)
      by_contra hle
      exact (List.nodup_append.1 hn).2.2 v ((distance_le_iff hr).1 (by omega)) v hv rfl
    have hle : ∀ v ∈ c.within start (k + 1), c.distance start v ≤ k + 1 := fun v hv =>
      (distance_le_iff (reached hv)).2 hv
    rw [← ht, List.pairwise_append]
    refine ⟨ih, ?_, ?_⟩
    · refine (List.Pairwise.and_mem.1 (List.nodup_append.1 hn).2.1).imp ?_
      rintro v w ⟨hv, hw, -⟩
      have := hle v (ht ▸ List.mem_append_right _ hv)
      have := ht' w hw
      omega
    · intro v hv w hw
      have := (distance_le_iff (reached hv)).2 hv
      have := ht' w hw
      omega

/-- The order of the first occurrences in all imports of some files, put in a row, is the order of first parents and of
places among their imports. -/
theorem place_lt_of_idxOf_lt {order : List Text} {v w : Text}
    (h : (order.flatMap c.leads).idxOf v < (order.flatMap c.leads).idxOf w) :
    c.parentIndex order v < c.parentIndex order w ∨
      c.parentIndex order v = c.parentIndex order w ∧ c.siblingIndex order v < c.siblingIndex order w := by
  induction order with
  | nil => simp at h
  | cons u us ih =>
    rw [List.flatMap_cons, List.idxOf_append, List.idxOf_append] at h
    simp only [parentIndex, siblingIndex, List.findIdx_cons, List.find?_cons, List.contains_eq_mem] at ih ⊢
    by_cases hv : v ∈ c.leads u
    · by_cases hw : w ∈ c.leads u
      · right
        simpa [hv, hw] using h
      · left
        simp [hv, hw]
    · by_cases hw : w ∈ c.leads u
      · have := List.idxOf_lt_length_of_mem hw
        simp only [hv, hw, if_true, if_false] at h
        omega
      · simp only [hv, hw, if_false, Nat.add_lt_add_iff_right] at h
        simpa [hv, hw] using ih h

/-- Files after the first parent do not matter. -/
theorem place_append {order : List Text} (more : List Text) {v : Text} (hv : v ∈ order.flatMap c.leads) :
    c.parentIndex (order ++ more) v = c.parentIndex order v ∧
      c.siblingIndex (order ++ more) v = c.siblingIndex order v := by
  obtain ⟨u, hu, hvu⟩ := List.mem_flatMap.1 hv
  have hlt : order.findIdx (fun u => (c.leads u).contains v) < order.length :=
    List.findIdx_lt_length_of_exists ⟨u, hu, by simpa using hvu⟩
  have hsome : (order.find? fun u => (c.leads u).contains v).isSome :=
    List.find?_isSome.2 ⟨u, hu, by simpa using hvu⟩
  constructor
  · rw [parentIndex, List.findIdx_append, if_pos hlt, parentIndex]
  · rw [siblingIndex, List.find?_append, Option.or_of_isSome hsome, siblingIndex]

theorem crawl_files_pairwise_rank (c : Crawler) (starts : List Text) :
    (c.crawl starts).files.Pairwise fun v w =>
      c.rank (c.startLevel starts) (c.startLevel starts ++ (c.crawl starts).files) v <
        c.rank (c.startLevel starts) (c.startLevel starts ++ (c.crawl starts).files) w := by
  have hall := append_crawl_files c starts
  have hdist := hall ▸ within_pairwise_distance c _ (nodup_startLevel c starts) c.maxDepth
  set start := c.startLevel starts
  cases hd : c.maxDepth with
  | zero =>
    rw [hd, within] at hall
    rw [List.append_right_eq_self.1 hall]
    exact List.Pairwise.nil
  | succ d =>
    -- the files are what is new among the imports of the files within one hop less
    rw [hd, within] at hall
    have hfiles := List.append_cancel_left hall
    obtain ⟨more, hmore⟩ := within_prefix_succ c start d
    have horder : start ++ (c.crawl starts).files = c.within start d ++ more := by rw [hmore, within, hfiles]
    have hplace := List.Pairwise.and_mem.1 (fresh_pairwise start ((c.within start d).flatMap c.leads))
    rw [← hfiles] at hplace
    refine (hplace.and (List.pairwise_append.1 hdist).2.1).imp ?_
    rintro v w ⟨⟨hv, hw, hvw⟩, hle⟩
    rw [hfiles] at hv hw
    obtain ⟨hpv, hsv⟩ := place_append more (mem_fresh.1 hv).1
    obtain ⟨hpw, hsw⟩ := place_append more (mem_fresh.1 hw).1
    rw [horder, rank, rank, hpv, hsv, hpw, hsw, Prod.Lex.toLex_lt_toLex, Prod.Lex.toLex_lt_toLex]
    rcases Nat.lt_or_eq_of_le hle with hlt | heq
    · exact Or.inl hlt
    · exact Or.inr ⟨heq, place_lt_of_idxOf_lt hvw⟩

/-- **A crawl is the breadth-first closure of its start files up to the maximal depth.** A file is found when it is no
start file and some chain of at least one and at most `maxDepth` imports leads to it; it is found once; and the files
come by the length of a shortest chain, then by the earliest parent in the order of processing, then by the place among
the imports of that parent. -/
theorem crawl_files_breadthFirst (c : Crawler) (starts : List Text) :
    let start := Text.distinct (starts.filterMap (Path.projectForm? c.project.root))
    let files := (c.crawl starts).files
    (∀ v, v ∈ files ↔ v ∉ start ∧ ∃ s ∈ start, ∃ k, 1 ≤ k ∧ k ≤ c.maxDepth ∧ c.Hops s k v) ∧
      files.Nodup ∧ files.Pairwise fun v w => c.rank start (start ++ files) v < c.rank start (start ++ files) w := by
  intro start files
  have hstart : start = c.startLevel starts := (startLevel_eq_distinct c starts).symm
  have hrank := crawl_files_pairwise_rank c starts
  rw [hstart]
  refine ⟨fun v => ?_, hrank.imp fun h e => absurd (e ▸ h) (lt_irrefl _), hrank⟩
  rw [mem_crawl_files]
  refine and_congr_right fun hv => ⟨?_, ?_⟩
  · rintro ⟨k, hk, s, hs, h⟩
    cases k with
    | zero => exact absurd (reached_zero.1 ⟨s, hs, h⟩) hv
    | succ k => exact ⟨s, hs, k + 1, by omega, hk, h⟩
  · rintro ⟨s, hs, k, -, hk, h⟩
    exact ⟨k, hk, s, hs, h⟩

end ImportTrail.Crawler
