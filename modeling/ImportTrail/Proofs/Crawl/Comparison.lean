import ImportTrail.Proofs.Crawl.Containment
import ImportTrail.Proofs.Crawl.Expansion
import Mathlib.Data.Finset.Dedup

/-!
Two crawls that differ in one respect.

* `crawl_prefix_of_depth_le` — a deeper crawl finds and reads the same files first and then more, and a depth that adds
  nothing is the last that could;
* `crawl_start_set` — what is found and counted depends on the set of the start files, and a crawl from two lists of
  start files finds what the two crawls find;
* `crawl_unread_content` — what is not read does not matter;
* `crawl_ignoring_more` — ignoring more adds no file and no read.
-/

namespace ImportTrail.Crawler

variable {c : Crawler} {start starts : List Text} {d e k : ℕ} {v : Text}

/-- Three headers in `/p`: `a.h` includes itself and `b.h`, `b.h` includes `c.h`, and `c.h` includes `a.h`. -/
def headers : Crawler where
  project := ⟨⟨[([['p']], .directory), ([['p'], "a.h".toList], .file ⟨#[]⟩), ([['p'], "b.h".toList], .file ⟨#[]⟩),
    ([['p'], "c.h".toList], .file ⟨#[]⟩)]⟩, "/p".toList⟩
  read := fun path =>
    if path = "a.h".toList then some "#include \"./a.h\"\n#include \"./b.h\"\n".toList
    else if path = "b.h".toList then some "#include \"./c.h\"\n".toList
    else if path = "c.h".toList then some "#include \"./a.h\"\n".toList
    else none

/-! ### The depth -/

theorem crawl_atDepth (c : Crawler) (starts : List Text) (d : ℕ) :
    { c with maxDepth := d }.crawl starts = c.outcome (c.startLevel starts) d := by
  rw [crawl_eq_outcome]
  exact outcome_congr fun _ _ => rfl

theorem within_prefix_of_le (c : Crawler) (start : List Text) (h : d ≤ e) :
    c.within start d <+: c.within start e := by
  induction e, h using Nat.le_induction with
  | base => exact List.prefix_refl _
  | succ e _ ih => exact ih.trans (within_prefix_succ c start e)

theorem expanded_prefix_of_le (c : Crawler) (start : List Text) (h : d ≤ e) :
    c.expanded start d <+: c.expanded start e := by
  cases d with
  | zero => exact List.nil_prefix
  | succ d =>
    obtain ⟨e, rfl⟩ : ∃ n, e = n + 1 := ⟨e - 1, by omega⟩
    exact within_prefix_of_le c start (by omega)

/-- A hop that adds nothing is the last that could. -/
theorem within_stable (hstop : c.within start d = c.within start (d + 1)) (h : d ≤ e) :
    c.within start e = c.within start d := by
  induction e, h using Nat.le_induction with
  | base => rfl
  | succ e _ ih =>
    calc c.within start (e + 1) = start ++ fresh start ((c.within start d).flatMap c.leads) := by rw [within, ih]
      _ = c.within start d := hstop.symm

/-- **A deeper crawl only goes on.** Its files and its reads begin with those of the crawl that stops earlier; and when
one level more adds no file, no number of levels does. -/
theorem crawl_prefix_of_depth_le (c : Crawler) (starts : List Text) {d e : ℕ} (h : d ≤ e) :
    let run n := { c with maxDepth := n }.crawl starts
    (run d).files <+: (run e).files ∧ (run d).reads <+: (run e).reads ∧
      ((run d).files = (run (d + 1)).files → (run e).files = (run d).files) := by
  intro run
  have hrun : ∀ n, run n = c.outcome (c.startLevel starts) n := crawl_atDepth c starts
  -- the start files in front of the files of a run are the files within its depth
  have hwithin : ∀ n, c.startLevel starts ++ (run n).files = c.within (c.startLevel starts) n := by
    intro n
    rw [hrun, append_outcome_files]
  refine ⟨?_, ?_, ?_⟩
  · rw [← List.prefix_append_right_inj (c.startLevel starts), hwithin, hwithin]
    exact within_prefix_of_le c _ h
  · rw [hrun, hrun]
    exact (expanded_prefix_of_le c _ h).filter _
  · intro hstop
    have hstop : c.within (c.startLevel starts) d = c.within (c.startLevel starts) (d + 1) := by
      rw [← hwithin, ← hwithin, hstop]
    refine List.append_cancel_left (?_ : c.startLevel starts ++ _ = c.startLevel starts ++ _)
    rw [hwithin, hwithin, within_stable hstop h]

theorem headers_prefix_of_depth :
    let run n := { headers with maxDepth := n }.crawl ["a.h".toList]
    2 ≤ 4 ∧ (run 2).files = (run 3).files ∧ (run 2).reads ≠ (run 4).reads ∧ (run 2).reads <+: (run 4).reads ∧
      (run 4).files = (run 2).files := by
  intro run
  have hstop : (run 2).files = (run 3).files := by decide +kernel
  have hreads : (run 2).reads ≠ (run 4).reads := by decide +kernel
  obtain ⟨-, hprefix, hsame⟩ := crawl_prefix_of_depth_le headers ["a.h".toList] (show 2 ≤ 4 by decide)
  exact ⟨by decide, hstop, hreads, hprefix, hsame hstop⟩

/-! ### The start files -/

theorem mem_startLevel : v ∈ c.startLevel starts ↔ v ∈ starts.filterMap (Path.projectForm? c.project.root) := by
  rw [startLevel, mem_fresh]
  simp

theorem reached_of_mem_iff {a b : List Text} (h : ∀ v, v ∈ start ↔ v ∈ a ∨ v ∈ b) :
    c.Reached start k v ↔ c.Reached a k v ∨ c.Reached b k v := by
  constructor
  · rintro ⟨s, hs, hops⟩
    rcases (h s).1 hs with hs | hs
    · exact Or.inl ⟨s, hs, hops⟩
    · exact Or.inr ⟨s, hs, hops⟩
  · rintro (⟨s, hs, hops⟩ | ⟨s, hs, hops⟩)
    · exact ⟨s, (h s).2 (Or.inl hs), hops⟩
    · exact ⟨s, (h s).2 (Or.inr hs), hops⟩

/-- The order of the start files changes the order of discovery and nothing else. -/
theorem within_perm {a b : List Text} (h : a.Perm b) (hn : a.Nodup) (k : ℕ) :
    (c.within a k).Perm (c.within b k) := by
  refine (List.perm_ext_iff_of_nodup (nodup_within hn k) (nodup_within (h.nodup_iff.1 hn) k)).2 fun v => ?_
  have hreach : ∀ j, c.Reached a j v ↔ c.Reached b j v := by
    intro j
    rw [reached_of_mem_iff (a := b) (b := b) fun v => by rw [h.mem_iff, or_self], or_self]
  simp only [mem_within, hreach]

theorem expanded_perm {a b : List Text} (h : a.Perm b) (hn : a.Nodup) (k : ℕ) :
    (c.expanded a k).Perm (c.expanded b k) := by
  cases k with
  | zero => exact List.Perm.refl _
  | succ k => exact within_perm h hn k

theorem outcome_stats_of_perm {a b : List Text} (h : a.Perm b) (hn : a.Nodup) (k : ℕ) :
    (c.outcome a k).stats = (c.outcome b k).stats := by
  have hdone := expanded_perm (c := c) h hn k
  have htally : c.tally (c.expanded a k) = c.tally (c.expanded b k) := (hdone.map _).sum_eq
  have hlevel : (c.level a k).length = (c.level b k).length := by
    have ha := length_expanded_add_level c a k
    have hb := length_expanded_add_level c b k
    have := hdone.length_eq
    have := (within_perm (c := c) h hn k).length_eq
    omega
  simp only [outcome, htally, hlevel]

/-- The files of a crawl from two lists of start files. -/
theorem mem_crawl_files_append {a b : List Text} :
    v ∈ (c.crawl (a ++ b)).files ↔ (v ∈ (c.crawl a).files ∨ v ∈ (c.crawl b).files) ∧
      v ∉ c.startLevel a ∧ v ∉ c.startLevel b := by
  have hstart : ∀ v, v ∈ c.startLevel (a ++ b) ↔ v ∈ c.startLevel a ∨ v ∈ c.startLevel b := by
    intro v
    rw [mem_startLevel, mem_startLevel, mem_startLevel, List.filterMap_append, List.mem_append]
  simp only [mem_crawl_files, hstart, reached_of_mem_iff hstart, not_or]
  constructor
  · rintro ⟨⟨ha, hb⟩, k, hk, h | h⟩
    · exact ⟨Or.inl ⟨ha, k, hk, h⟩, ha, hb⟩
    · exact ⟨Or.inr ⟨hb, k, hk, h⟩, ha, hb⟩
  · rintro ⟨⟨-, k, hk, h⟩ | ⟨-, k, hk, h⟩, ha, hb⟩
    · exact ⟨⟨ha, hb⟩, k, hk, Or.inl h⟩
    · exact ⟨⟨ha, hb⟩, k, hk, Or.inr h⟩

/-- **What a crawl finds and counts depends on the set of its start files.** From two lists together it finds what it
finds from each, without the start files; and lists with the same canonical start files, in whatever order, number and
spelling, give the same files and the same counters. -/
theorem crawl_start_set (c : Crawler) (a b : List Text) :
    let start l := (l.filterMap (Path.projectForm? c.project.root)).toFinset
    let files l := (c.crawl l).files.toFinset
    files (a ++ b) = (files a ∪ files b) \ (start a ∪ start b) ∧
      (start a = start b → files a = files b ∧ (c.crawl a).stats = (c.crawl b).stats) := by
  intro start files
  constructor
  · ext v
    simp only [files, start, Finset.mem_sdiff, Finset.mem_union, List.mem_toFinset, ← mem_startLevel, not_or]
    exact mem_crawl_files_append
  · intro h
    have hmem : ∀ v, v ∈ c.startLevel a ↔ v ∈ c.startLevel b := by
      intro v
      have := Finset.ext_iff.1 h v
      rwa [List.mem_toFinset, List.mem_toFinset, ← mem_startLevel, ← mem_startLevel] at this
    have hperm : (c.startLevel a).Perm (c.startLevel b) :=
      (List.perm_ext_iff_of_nodup (nodup_startLevel c a) (nodup_startLevel c b)).2 hmem
    constructor
    · ext v
      have hwithin := (within_perm (c := c) hperm (nodup_startLevel c a) c.maxDepth).mem_iff (a := v)
      simp only [files, List.mem_toFinset, mem_crawl_files, ← mem_within, hmem, hwithin]
    · rw [crawl_eq_outcome, crawl_eq_outcome]
      exact outcome_stats_of_perm hperm (nodup_startLevel c a) c.maxDepth

theorem headers_start_set :
    let a := ["a.h".toList, "c.h".toList]
    let b := ["./c.h".toList, "/p/a.h".toList, "x/../a.h".toList]
    headers.startLevel a ≠ headers.startLevel b ∧
      (a.filterMap (Path.projectForm? headers.project.root)).toFinset =
        (b.filterMap (Path.projectForm? headers.project.root)).toFinset ∧
      (headers.crawl a).files.toFinset = (headers.crawl b).files.toFinset ∧
      (headers.crawl a).stats = (headers.crawl b).stats := by
  intro a b
  have horder : headers.startLevel a ≠ headers.startLevel b := by decide +kernel
  have hset : (a.filterMap (Path.projectForm? headers.project.root)).toFinset =
      (b.filterMap (Path.projectForm? headers.project.root)).toFinset := by decide +kernel
  exact ⟨horder, hset, (crawl_start_set headers a b).2 hset⟩

/-! ### The reader -/

/-- The visit of a file depends on the reader at that file only, and not even there when it is not asked. -/
theorem visit_read_eq {read : Text → Option Text} (h : (c.visit v).asked = true → read v = c.read v) :
    { c with read := read }.visit v = c.visit v := by
  rw [asked_visit] at h
  unfold visit
  cases hf : (Path.extension? v).bind Family.ofExtension? with
  | none => rfl
  | some f =>
    simp only [h (by rw [hf]; rfl)]
    rfl

theorem mem_expanded : v ∈ c.expanded start k ↔ ∃ j < k, c.Reached start j v := by
  cases k with
  | zero => simp
  | succ k => simp only [expanded, mem_within, Nat.lt_succ_iff]

theorem mem_crawl_reads_iff : v ∈ (c.crawl starts).reads ↔
    (∃ k < c.maxDepth, c.Reached (c.startLevel starts) k v) ∧
      ((Path.extension? v).bind Family.ofExtension?).isSome = true := by
  rw [crawl_eq_outcome]
  simp only [outcome, asked, List.mem_filter, mem_expanded, asked_visit]

/-- An import that is ignored is not followed. -/
theorem mem_start_of_reached_ignored (hi : c.ignores v = true) (h : c.Reached start k v) : v ∈ start := by
  cases k with
  | zero => exact reached_zero.1 h
  | succ k =>
    obtain ⟨u, -, hv⟩ := reached_succ.1 h
    obtain ⟨-, -, -, -, -, -, -, -, hnot⟩ := mem_leads.1 hv
    rw [hi] at hnot
    cases hnot

/-- A crawl has no use for the content of a file: the file is ignored (a start file is followed all the same), it is of
no family, or no chain of fewer imports than the maximal depth leads to it, be it that deep or out of reach. -/
def Unread (c : Crawler) (starts : List Text) (v : Text) : Prop :=
  c.ignores v = true ∧ v ∉ c.startLevel starts ∨ (Path.extension? v).bind Family.ofExtension? = none ∨
    ∀ k < c.maxDepth, ¬ c.Reached (c.startLevel starts) k v

theorem not_mem_reads_of_unread (h : c.Unread starts v) : v ∉ (c.crawl starts).reads := by
  rw [mem_crawl_reads_iff]
  rintro ⟨⟨k, hk, hreach⟩, hfamily⟩
  rcases h with ⟨hi, hstart⟩ | hnone | hfar
  · exact hstart (mem_start_of_reached_ignored hi hreach)
  · rw [hnone] at hfamily
    cases hfamily
  · exact hfar k hk hreach

theorem crawl_eq_of_reads_agree {read : Text → Option Text}
    (h : ∀ v ∈ (c.crawl starts).reads, read v = c.read v) :
    { c with read := read }.crawl starts = c.crawl starts := by
  rw [crawl_eq_outcome, crawl_eq_outcome]
  refine outcome_congr fun v hv => visit_read_eq fun hasked => h v ?_
  rw [crawl_eq_outcome]
  exact List.mem_filter.2 ⟨hv, hasked⟩

/-- **Content that is not read has no influence.** A reader that gives the same answers to what a crawl asks is asked
the same in the same order, and the crawl finds and counts the same; so the content of files that are ignored, of no
family, too deep or out of reach may be anything. -/
theorem crawl_unread_content (c : Crawler) (read : Text → Option Text) (starts : List Text) :
    ((∀ v ∈ (c.crawl starts).reads, read v = c.read v) →
        { c with read := read }.crawl starts = c.crawl starts) ∧
      ((∀ v, read v ≠ c.read v → c.Unread starts v) →
        { c with read := read }.crawl starts = c.crawl starts) := by
  refine ⟨crawl_eq_of_reads_agree, fun h => crawl_eq_of_reads_agree fun v hv => ?_⟩
  by_contra hne
  exact not_mem_reads_of_unread (h v hne) hv

theorem headers_unread_content :
    let c := { headers with ignores := fun v => v == "b.h".toList }
    let starts := ["a.h".toList]
    let without u := fun v => if v = u then none else c.read v
    (∀ v ∈ (c.crawl starts).reads, without "c.h".toList v = c.read v) ∧
      { c with read := without "c.h".toList }.crawl starts = c.crawl starts ∧
      (∀ v, without "b.h".toList v ≠ c.read v → c.Unread starts v) ∧
      { c with read := without "b.h".toList }.crawl starts = c.crawl starts := by
  intro c starts without
  have hreads : ∀ v ∈ (c.crawl starts).reads, without "c.h".toList v = c.read v := by decide +kernel
  have hignored : c.ignores "b.h".toList = true ∧ "b.h".toList ∉ c.startLevel starts := by decide +kernel
  have hunread : ∀ v, without "b.h".toList v ≠ c.read v → c.Unread starts v := by
    intro v hne
    by_cases hv : v = "b.h".toList
    · exact hv ▸ Or.inl hignored
    · exact absurd (if_neg hv) hne
  exact ⟨hreads, (crawl_unread_content c _ starts).1 hreads, hunread, (crawl_unread_content c _ starts).2 hunread⟩

/-! ### The ignored files -/

/-- Fewer imports make fewer chains, of whatever length. -/
theorem reached_mono {c c' : Crawler} (h : ∀ u, c'.leads u ⊆ c.leads u) (hreach : c'.Reached start k v) :
    c.Reached start k v := by
  induction k generalizing v with
  | zero => exact reached_zero.2 (reached_zero.1 hreach)
  | succ k ih =>
    obtain ⟨u, hu, hv⟩ := reached_succ.1 hreach
    exact reached_succ.2 ⟨u, ih hu, h u hv⟩

theorem leads_ignoring {ignores : Text → Bool} (h : ∀ p, c.ignores p = true → ignores p = true) (u : Text) :
    { c with ignores := ignores }.leads u ⊆ c.leads u := by
  intro v hv
  obtain ⟨f, source, spec, hf, hread, hne, hspec, hresolved, hnot⟩ := mem_leads.1 hv
  refine mem_leads.2 ⟨f, source, spec, hf, hread, hne, hspec, hresolved, ?_⟩
  rw [Bool.eq_false_iff]
  intro hignored
  exact absurd (h v hignored) (Bool.eq_false_iff.1 hnot)

/-- **Ignoring more never adds anything.** A crawler that ignores at least the same paths finds and reads only what the
other finds and reads, and it finds nothing that it ignores. -/
theorem crawl_ignoring_more (c : Crawler) (ignores : Text → Bool) (starts : List Text)
    (h : ∀ p, c.ignores p = true → ignores p = true) :
    let more := { c with ignores := ignores }
    (more.crawl starts).files ⊆ (c.crawl starts).files ∧ (more.crawl starts).reads ⊆ (c.crawl starts).reads ∧
      ∀ v ∈ (more.crawl starts).files, ignores v = false := by
  intro more
  -- what is ignored may lie on the shortest chain to a file, so the two runs are compared by their chains
  have hreach : ∀ {k v}, more.Reached (c.startLevel starts) k v → c.Reached (c.startLevel starts) k v :=
    reached_mono (leads_ignoring h)
  refine ⟨fun v hv => ?_, fun v hv => ?_, fun v hv => ?_⟩
  · obtain ⟨hstart, k, hk, hv⟩ := mem_crawl_files.1 hv
    exact mem_crawl_files.2 ⟨hstart, k, hk, hreach hv⟩
  · obtain ⟨⟨k, hk, hv⟩, hfamily⟩ := mem_crawl_reads_iff.1 hv
    exact mem_crawl_reads_iff.2 ⟨⟨k, hk, hreach hv⟩, hfamily⟩
  · obtain ⟨hstart, k, hk, hv⟩ := mem_crawl_files.1 hv
    rw [Bool.eq_false_iff]
    intro hignored
    exact hstart (mem_start_of_reached_ignored (c := more) hignored hv)

theorem headers_ignoring_more :
    let less := { headers with ignores := fun v => v == "d.h".toList }
    let ignores : Text → Bool := fun v => v == "d.h".toList || v == "c.h".toList
    let more := { less with ignores := ignores }
    let starts := ["a.h".toList]
    (∀ p, less.ignores p = true → ignores p = true) ∧ (less.crawl starts).files = ["b.h".toList, "c.h".toList] ∧
      (more.crawl starts).files = ["b.h".toList] ∧ (more.crawl starts).files ⊆ (less.crawl starts).files ∧
      (more.crawl starts).reads ⊆ (less.crawl starts).reads ∧ ∀ v ∈ (more.crawl starts).files, ignores v = false := by
  intro less ignores more starts
  have himp : ∀ p, less.ignores p = true → ignores p = true := fun p hp => Bool.or_eq_true_iff.2 (Or.inl hp)
  have hless : (less.crawl starts).files = ["b.h".toList, "c.h".toList] := by decide +kernel
  have hmore : (more.crawl starts).files = ["b.h".toList] := by decide +kernel
  exact ⟨himp, hless, hmore, crawl_ignoring_more less ignores starts himp⟩

end ImportTrail.Crawler
