import ImportTrail.Proofs.Crawl.Expansion

/-!
Where the files and the specifiers of a crawl go.

Every file that a crawl starts with or finds is read with content or skipped (`tally_visited`), and every specifier of
a file that is read is unresolved, ignored, new or met again (`tally_specifiers`, `length_fresh_add_revisits`). The
reader is asked for the files below the maximal depth that have a family, in the order of discovery
(`expanded_eq_filter`). `crawl_accounts` puts the books together.
-/

namespace ImportTrail.Crawler

variable {c : Crawler} {start : List Text} {k : ℕ} {v : Text}

/-! ### Paths that are met again -/

/-- How many paths of a list are met again, the paths in `seen` having been met before. -/
def revisits (seen : List Text) : List Text → ℕ
  | [] => 0
  | p :: ps => (if p ∈ seen then 1 else 0) + revisits (p :: seen) ps

theorem length_fresh_add_revisits (seen l : List Text) :
    (fresh seen l).length + revisits seen l = l.length := by
  induction l generalizing seen with
  | nil => rfl
  | cons p ps ih =>
    have htail := ih (p :: seen)
    rw [fresh, revisits, List.length_cons]
    by_cases hp : p ∈ seen
    · have hsame : fresh (p :: seen) ps = fresh seen ps := by
        refine fresh_congr (fun v => ?_) ps
        rw [List.mem_cons]
        constructor
        · rintro (rfl | hv)
          · exact hp
          · exact hv
        · exact Or.inr
      rw [hsame] at htail
      rw [if_pos hp, if_pos (by simpa using hp)]
      omega
    · rw [if_neg hp, if_neg (by simpa using hp), List.length_cons]
      omega

example : revisits ["a.h".toList] ["b.h".toList, "a.h".toList, "b.h".toList, "c.h".toList] = 2 := by decide

/-! ### The visit of one file -/

/-- The reader has a text for the file, and it is not empty. -/
def hasContent (c : Crawler) (v : Text) : Bool := (c.read v).any fun source => !source.isEmpty

/-- The specifiers of a file, in the order of its text. A file of no family and a file without content have none. -/
def specifiers (c : Crawler) (v : Text) : List Text :=
  match (Path.extension? v).bind Family.ofExtension?, c.read v with
  | some f, some (x :: source) => f.imports c.strategy (x :: source)
  | _, _ => []

theorem count_targets (asked : Bool) (ts : List Target) :
    ts.count .unresolved + ts.count .ignored + (Visit.mk asked (some ts)).paths.length = ts.length := by
  induction ts with
  | nil => rfl
  | cons t ts ih =>
    simp only [Visit.paths, Option.getD_some] at ih ⊢
    cases t <;> simp <;> omega

/-- The three ways a visit can go: the reader is not asked, it has nothing, or the specifiers are followed. -/
theorem visit_cases (c : Crawler) (v : Text) :
    c.visit v = {} ∧ c.specifiers v = [] ∨
    c.visit v = ⟨true, none⟩ ∧ c.specifiers v = [] ∧ c.hasContent v = false ∨
    ∃ f, c.visit v = ⟨true, some ((c.specifiers v).map (c.target f (Path.parent v)))⟩ ∧ c.hasContent v = true := by
  unfold visit specifiers hasContent
  cases (Path.extension? v).bind Family.ofExtension? with
  | none => exact Or.inl ⟨rfl, rfl⟩
  | some f =>
    cases c.read v with
    | none => exact Or.inr (Or.inl ⟨rfl, rfl, rfl⟩)
    | some source =>
      cases source with
      | nil => exact Or.inr (Or.inl ⟨rfl, rfl, rfl⟩)
      | cons x source => exact Or.inr (Or.inr ⟨f, rfl, rfl⟩)

theorem visit_read_or_skipped (c : Crawler) (v : Text) :
    (c.visit v).stats.filesRead + (c.visit v).stats.nodesSkipped = 1 := by
  rcases visit_cases c v with ⟨h, -⟩ | ⟨h, -⟩ | ⟨f, h, -⟩ <;> rw [h] <;> rfl

theorem visit_filesRead (c : Crawler) (v : Text) :
    (c.visit v).stats.filesRead = if c.hasContent v && (c.visit v).asked then 1 else 0 := by
  rcases visit_cases c v with ⟨h, -⟩ | ⟨h, -, hc⟩ | ⟨f, h, hc⟩
  · rw [h, Bool.and_false]
    rfl
  · rw [h, hc]
    rfl
  · rw [h, hc]
    rfl

theorem visit_specifiers (c : Crawler) (v : Text) :
    (c.visit v).stats.unresolvedImports + (c.visit v).stats.ignoredImports + (c.leads v).length =
      (c.specifiers v).length := by
  rw [← paths_visit]
  rcases visit_cases c v with ⟨h, hs⟩ | ⟨h, hs, -⟩ | ⟨f, h, -⟩
  · rw [h, hs]
    rfl
  · rw [h, hs]
    rfl
  · have hcount := count_targets true ((c.specifiers v).map (c.target f (Path.parent v)))
    rw [List.length_map] at hcount
    rw [h]
    exact hcount

/-- Nothing is found in a file for which the reader is not asked. -/
theorem specifiers_eq_nil_of_not_asked (h : (c.visit v).asked = false) : c.specifiers v = [] ∧ c.leads v = [] := by
  have hs : c.specifiers v = [] := by
    rcases visit_cases c v with ⟨-, hs⟩ | ⟨-, hs, -⟩ | ⟨f, hv, -⟩
    · exact hs
    · exact hs
    · rw [hv] at h
      cases h
  have hlen := visit_specifiers c v
  rw [hs, List.length_nil] at hlen
  exact ⟨hs, List.length_eq_zero_iff.1 (by omega)⟩

/-! ### The visits of some files -/

/-- Every file that is visited is read or skipped. -/
theorem tally_visited (c : Crawler) (l : List Text) : (c.tally l).filesRead + (c.tally l).nodesSkipped = l.length := by
  induction l with
  | nil => rfl
  | cons p l ih =>
    have := visit_read_or_skipped c p
    simp only [tally_cons, Stats.add_filesRead, Stats.add_nodesSkipped, List.length_cons]
    omega

theorem tally_filesRead (c : Crawler) (l : List Text) : (c.tally l).filesRead = (c.asked l).countP c.hasContent := by
  rw [asked, List.countP_filter]
  induction l with
  | nil => rfl
  | cons p l ih => rw [tally_cons, Stats.add_filesRead, ih, visit_filesRead, List.countP_cons, Nat.add_comm]

/-- Every specifier is unresolved, ignored or leads to a path. -/
theorem tally_specifiers (c : Crawler) (l : List Text) :
    (c.tally l).unresolvedImports + (c.tally l).ignoredImports + (l.flatMap c.leads).length =
      (l.flatMap c.specifiers).length := by
  induction l with
  | nil => rfl
  | cons p l ih =>
    have := visit_specifiers c p
    simp only [tally_cons, Stats.add_unresolvedImports, Stats.add_ignoredImports, List.flatMap_cons,
      List.length_append]
    omega

theorem flatMap_asked {f : Text → List Text} (h : ∀ v, (c.visit v).asked = false → f v = []) (l : List Text) :
    (c.asked l).flatMap f = l.flatMap f := by
  induction l with
  | nil => rfl
  | cons p l ih =>
    rw [asked, List.filter_cons, List.flatMap_cons, ← ih]
    cases hp : (c.visit p).asked with
    | false =>
      rw [h p hp]
      rfl
    | true => rfl

/-! ### The files that are followed -/

/-- The files that are followed are those below the depth. -/
theorem expanded_eq_filter (hs : start.Nodup) (d : ℕ) :
    c.expanded start d = (c.within start d).filter fun v => decide (c.distance start v < d) := by
  have hreach : ∀ v ∈ c.within start d, (v ∈ c.expanded start d ↔ c.distance start v < d) := by
    intro v hv
    obtain ⟨j, -, hj⟩ := mem_within.1 hv
    cases d with
    | zero => simp
    | succ d => rw [expanded, ← distance_le_iff ⟨j, hj⟩, Nat.lt_succ_iff]
  have hn := nodup_within (c := c) hs d
  rw [← expanded_append_level] at hn hreach ⊢
  rw [List.filter_append, List.filter_eq_self.2, List.filter_eq_nil_iff.2, List.append_nil]
  · intro v hv hlt
    have hmem := (hreach v (List.mem_append_right _ hv)).2 (of_decide_eq_true hlt)
    exact (List.nodup_append.1 hn).2.2 v hmem v hv rfl
  · intro v hv
    exact decide_eq_true ((hreach v (List.mem_append_left _ hv)).1 hv)

/-! ### The books of an outcome -/

theorem outcome_visited (c : Crawler) (start : List Text) (d : ℕ) :
    (c.outcome start d).stats.filesRead + (c.outcome start d).stats.nodesSkipped =
      start.length + (c.outcome start d).files.length := by
  have hvisited := tally_visited c (c.expanded start d)
  have hlength := length_expanded_add_level c start d
  rw [← append_outcome_files, List.length_append] at hlength
  -- what is followed is read or skipped, and the last level is skipped
  calc (c.outcome start d).stats.filesRead + (c.outcome start d).stats.nodesSkipped
      = (c.expanded start d).length + (c.level start d).length := by
        simp only [outcome, Stats.skips, Stats.add_filesRead, Stats.add_nodesSkipped]
        omega
    _ = start.length + (c.outcome start d).files.length := hlength

theorem outcome_reads (c : Crawler) {start : List Text} (hs : start.Nodup) (d : ℕ) :
    (c.outcome start d).reads = (c.within start d).filter fun v =>
      decide (c.distance start v < d) && ((Path.extension? v).bind Family.ofExtension?).isSome := by
  simp only [outcome, asked, asked_visit, expanded_eq_filter hs, List.filter_filter, Bool.and_comm]

theorem outcome_filesRead (c : Crawler) (start : List Text) (d : ℕ) :
    (c.outcome start d).stats.filesRead = (c.outcome start d).reads.countP c.hasContent :=
  tally_filesRead c (c.expanded start d)

/-- What the specifiers come to: those that lead to a path either bring a new file or meet one again. -/
theorem outcome_specifiers (c : Crawler) (start : List Text) (d : ℕ) :
    let o := c.outcome start d
    (o.reads.flatMap c.specifiers).length = o.stats.unresolvedImports + o.stats.ignoredImports + o.files.length +
      revisits start (o.reads.flatMap c.leads) := by
  intro o
  have hspecs := tally_specifiers c (c.expanded start d)
  have hfresh := length_fresh_add_revisits start ((c.expanded start d).flatMap c.leads)
  have hskips : o.stats.unresolvedImports + o.stats.ignoredImports =
      (c.tally (c.expanded start d)).unresolvedImports + (c.tally (c.expanded start d)).ignoredImports := rfl
  have hfiles : o.files = fresh start ((c.expanded start d).flatMap c.leads) := rfl
  have hreads : o.reads = c.asked (c.expanded start d) := rfl
  rw [hskips, hfiles, hreads, flatMap_asked fun v h => (specifiers_eq_nil_of_not_asked h).1,
    flatMap_asked fun v h => (specifiers_eq_nil_of_not_asked h).2]
  omega

/-- **The books of a crawl.** Every start file and every file that is found is read or skipped. The reader is asked once
for each of them that is fewer than `maxDepth` hops away and has a family, in the order of processing; the files read are
those for which it has a text that is not empty. Every specifier of a file that is read is unresolved, ignored, the first
to lead to a file, or leads to a path that the crawl has met before. -/
theorem crawl_accounts (c : Crawler) (starts : List Text) :
    let start := Text.distinct (starts.filterMap (Path.projectForm? c.project.root))
    let o := c.crawl starts
    o.stats.filesRead + o.stats.nodesSkipped = start.length + o.files.length ∧
      o.reads.Nodup ∧
      o.reads = (start ++ o.files).filter (fun v => decide (c.distance start v < c.maxDepth) &&
        ((Path.extension? v).bind Family.ofExtension?).isSome) ∧
      o.stats.filesRead = o.reads.countP c.hasContent ∧
      (o.reads.flatMap c.specifiers).length = o.stats.unresolvedImports + o.stats.ignoredImports + o.files.length +
        revisits start (o.reads.flatMap c.leads) := by
  intro start o
  have hstart : start = c.startLevel starts := (startLevel_eq_distinct c starts).symm
  have hs : start.Nodup := hstart ▸ nodup_startLevel c starts
  have ho : o = c.outcome start c.maxDepth := hstart ▸ crawl_eq_outcome c starts
  rw [ho, append_outcome_files]
  refine ⟨outcome_visited c start _, ?_, outcome_reads c hs _, outcome_filesRead c start _, outcome_specifiers c start _⟩
  rw [outcome_reads c hs]
  exact (nodup_within hs _).filter _

end ImportTrail.Crawler
