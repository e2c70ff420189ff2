import ImportTrail.Proofs.Crawl.BreadthFirst
import Mathlib.Algebra.BigOperators.Group.List.Basic

/-!
The whole outcome of a crawl, read off the order of discovery.

A crawl with `d` levels to follow visits the files within fewer than `d` hops (`expanded`) and skips those that are
exactly `d` hops away (`level`). Its three parts are then

* the files: what is new among the paths that the visited files lead to;
* the reads: the visited files for which the reader is asked, in the order of discovery;
* the counters: one visit after the other (`tally`), and one skip for each file of the last level.

`outcome` says so by equations, and `crawl_eq_outcome` is the level recursion of a crawl against them. Nothing but the
visits of the expanded files enters, which is `outcome_congr`.
-/

namespace ImportTrail

/-! ### Counters add up -/

attribute [ext] Stats

namespace Stats

variable (a b : Stats)

instance : Zero Stats := ⟨{}⟩

@[simp] theorem zero_filesRead : (0 : Stats).filesRead = 0 := rfl
@[simp] theorem zero_nodesSkipped : (0 : Stats).nodesSkipped = 0 := rfl
@[simp] theorem zero_unresolvedImports : (0 : Stats).unresolvedImports = 0 := rfl
@[simp] theorem zero_ignoredImports : (0 : Stats).ignoredImports = 0 := rfl

@[simp] theorem add_filesRead : (a + b).filesRead = a.filesRead + b.filesRead := rfl
@[simp] theorem add_nodesSkipped : (a + b).nodesSkipped = a.nodesSkipped + b.nodesSkipped := rfl
@[simp] theorem add_unresolvedImports : (a + b).unresolvedImports = a.unresolvedImports + b.unresolvedImports := rfl
@[simp] theorem add_ignoredImports : (a + b).ignoredImports = a.ignoredImports + b.ignoredImports := rfl

instance : AddCommMonoid Stats where
  add_assoc a b c := by ext <;> simp [Nat.add_assoc]
  zero_add a := by ext <;> simp
  add_zero a := by ext <;> simp
  add_comm a b := by ext <;> simp [Nat.add_comm]
  nsmul := nsmulRec

/-- The count of `n` files that are not followed. -/
def skips (n : ℕ) : Stats := ⟨0, n, 0, 0⟩

end Stats

namespace Crawler

variable {c c' : Crawler} {start : List Text} {k : ℕ} {v : Text}

/-! ### The files that are followed -/

/-- The files within fewer than `k` hops of the start files, in the order of discovery. -/
def expanded (c : Crawler) (start : List Text) : ℕ → List Text
  | 0 => []
  | k + 1 => c.within start k

/-- The files that are exactly `k` hops away. -/
def level (c : Crawler) (start : List Text) (k : ℕ) : List Text :=
  (c.within start k).drop (c.expanded start k).length

@[simp] theorem expanded_zero : c.expanded start 0 = [] := rfl

theorem within_eq (c : Crawler) (start : List Text) (k : ℕ) :
    c.within start k = start ++ fresh start ((c.expanded start k).flatMap c.leads) := by
  cases k with
  | zero => simp [within, expanded, fresh]
  | succ k => rfl

theorem expanded_append_level (c : Crawler) (start : List Text) (k : ℕ) :
    c.expanded start k ++ c.level start k = c.within start k := by
  have hpre : c.expanded start k <+: c.within start k := by
    cases k with
    | zero => exact List.nil_prefix
    | succ k => exact within_prefix_succ c start k
  rw [level]
  exact List.prefix_iff_eq_append.1 hpre

theorem length_expanded_add_level (c : Crawler) (start : List Text) (k : ℕ) :
    (c.expanded start k).length + (c.level start k).length = (c.within start k).length := by
  rw [← expanded_append_level, List.length_append]

/-- The next level is what the current one leads to and has not been seen. -/
theorem level_succ (c : Crawler) (start : List Text) (k : ℕ) :
    c.level start (k + 1) = fresh (c.within start k) ((c.level start k).flatMap c.leads) := by
  have hsplit : c.within start (k + 1) =
      c.within start k ++ fresh (c.within start k) ((c.level start k).flatMap c.leads) := by
    rw [within, ← expanded_append_level c start k, List.flatMap_append, fresh_append, expanded_append_level,
      ← within_eq, ← List.append_assoc, ← within_eq]
  rw [level, hsplit, expanded, List.drop_left]

theorem within_append_level (c : Crawler) (start : List Text) (k : ℕ) :
    c.within start k ++ c.level start (k + 1) = c.within start (k + 1) :=
  expanded_append_level c start (k + 1)

/-! ### One level of a crawl -/

/-- What the visits of some files add to the counters. -/
def tally (c : Crawler) (l : List Text) : Stats := (l.map fun v => (c.visit v).stats).sum

/-- The files among some for which the reader is asked. -/
def asked (c : Crawler) (l : List Text) : List Text := l.filter fun v => (c.visit v).asked

@[simp] theorem tally_nil : c.tally [] = 0 := rfl

@[simp] theorem tally_cons (p : Text) (l : List Text) : c.tally (p :: l) = (c.visit p).stats + c.tally l := by
  simp [tally]

theorem tally_append (l m : List Text) : c.tally (l ++ m) = c.tally l + c.tally m := by
  simp [tally]

@[simp] theorem asked_nil : c.asked [] = [] := rfl

@[simp] theorem asked_append (l m : List Text) : c.asked (l ++ m) = c.asked l ++ c.asked m :=
  List.filter_append ..

theorem asked_visit (c : Crawler) (v : Text) :
    (c.visit v).asked = ((Path.extension? v).bind Family.ofExtension?).isSome := by
  unfold visit
  cases (Path.extension? v).bind Family.ofExtension? with
  | none => rfl
  | some f =>
    cases c.read v with
    | none => rfl
    | some source => cases source <;> rfl

theorem foldr_stats (l : List Text) (s : Stats) :
    (l.map fun p => (p, c.visit p)).foldr (fun v s => v.2.stats + s) s = c.tally l + s := by
  induction l with
  | nil => simp
  | cons p l ih => simp [ih, add_assoc]

theorem levels_zero (c : Crawler) (seen l : List Text) : c.levels 0 seen l = ⟨[], [], Stats.skips l.length⟩ := by
  cases l <;> rfl

theorem levels_succ (c : Crawler) (d : ℕ) (seen l : List Text) :
    c.levels (d + 1) seen l =
      let next := fresh seen (l.flatMap c.leads)
      let rest := c.levels d (seen ++ next) next
      ⟨next ++ rest.files, c.asked l ++ rest.reads, c.tally l + rest.stats⟩ := by
  cases l with
  | nil => cases d <;> rfl
  | cons p ps =>
    have hpaths : ((p :: ps).map fun q => (q, c.visit q)).flatMap (·.2.paths) = (p :: ps).flatMap c.leads := by
      rw [List.flatMap_map]
      simp only [paths_visit]
    have hasked : (((p :: ps).map fun q => (q, c.visit q)).filter (·.2.asked)).map (·.1) = c.asked (p :: ps) := by
      rw [List.filter_map, List.map_map]
      exact List.map_id _
    rw [levels]
    · simp only [hpaths, hasked, foldr_stats]
    · simp

/-! ### The outcome -/

/-- The outcome of a crawl from `start` with `d` levels to follow. -/
def outcome (c : Crawler) (start : List Text) (d : ℕ) : Outcome where
  files := fresh start ((c.expanded start d).flatMap c.leads)
  reads := c.asked (c.expanded start d)
  stats := c.tally (c.expanded start d) + Stats.skips (c.level start d).length

theorem append_outcome_files (c : Crawler) (start : List Text) (d : ℕ) :
    start ++ (c.outcome start d).files = c.within start d :=
  (within_eq c start d).symm

/-- From the `k`-th level on, `d` more levels turn what has been read and counted so far into what is read and counted
within `k + d` hops. -/
theorem levels_reads_stats (c : Crawler) (start : List Text) (d k : ℕ) :
    c.asked (c.expanded start k) ++ (c.levels d (c.within start k) (c.level start k)).reads =
        c.asked (c.expanded start (k + d)) ∧
      c.tally (c.expanded start k) + (c.levels d (c.within start k) (c.level start k)).stats =
        c.tally (c.expanded start (k + d)) + Stats.skips (c.level start (k + d)).length := by
  induction d generalizing k with
  | zero => simp [levels_zero]
  | succ d ih =>
    -- the visits of the `k`-th level join the books, and the rest is the crawl from the next level on
    have hdone : c.expanded start (k + 1) = c.expanded start k ++ c.level start k :=
      (expanded_append_level c start k).symm
    obtain ⟨hreads, hstats⟩ := ih (k + 1)
    rw [hdone, asked_append, List.append_assoc, Nat.add_right_comm] at hreads
    rw [hdone, tally_append, add_assoc, Nat.add_right_comm] at hstats
    rw [levels_succ]
    simp only [← level_succ, within_append_level]
    exact ⟨hreads, hstats⟩

/-- **A crawl in closed form.** -/
theorem crawl_eq_outcome (c : Crawler) (starts : List Text) :
    c.crawl starts = c.outcome (c.startLevel starts) c.maxDepth := by
  have hfiles := append_crawl_files c starts
  rw [within_eq] at hfiles
  have hfiles := List.append_cancel_left hfiles
  -- before the first level nothing has been read or counted
  obtain ⟨hreads, hstats⟩ := levels_reads_stats c (c.startLevel starts) c.maxDepth 0
  rw [Nat.zero_add, expanded_zero, asked_nil, List.nil_append] at hreads
  rw [Nat.zero_add, expanded_zero, tally_nil, zero_add] at hstats
  rw [outcome, ← hfiles, ← hreads, ← hstats]
  rfl

/-! ### What an outcome depends on -/

theorem leads_eq_of_visit_eq (h : c'.visit v = c.visit v) : c'.leads v = c.leads v := by
  rw [← paths_visit, ← paths_visit, h]

theorem flatMap_leads_congr {l : List Text} (h : ∀ v ∈ l, c'.visit v = c.visit v) :
    l.flatMap c'.leads = l.flatMap c.leads :=
  List.flatMap_congr fun v hv => leads_eq_of_visit_eq (h v hv)

theorem mem_expanded_succ (h : v ∈ c.expanded start k) : v ∈ c.expanded start (k + 1) := by
  rw [expanded, ← expanded_append_level]
  exact List.mem_append_left _ h

theorem within_congr (h : ∀ v ∈ c.expanded start k, c'.visit v = c.visit v) :
    c'.within start k = c.within start k ∧ c'.expanded start k = c.expanded start k := by
  induction k with
  | zero => exact ⟨rfl, rfl⟩
  | succ k ih =>
    obtain ⟨hwithin, -⟩ := ih fun v hv => h v (mem_expanded_succ hv)
    have hdone : c'.expanded start (k + 1) = c.expanded start (k + 1) := hwithin
    refine ⟨?_, hdone⟩
    rw [within_eq, within_eq, hdone, flatMap_leads_congr h]

/-- Crawlers that make the same visits of the files they follow have the same outcome. -/
theorem outcome_congr (h : ∀ v ∈ c.expanded start k, c'.visit v = c.visit v) :
    c'.outcome start k = c.outcome start k := by
  obtain ⟨hwithin, hdone⟩ := within_congr h
  have hlevel : c'.level start k = c.level start k := by rw [level, level, hwithin, hdone]
  have hasked : c'.asked (c.expanded start k) = c.asked (c.expanded start k) :=
    List.filter_congr fun v hv => by rw [h v hv]
  have htally : c'.tally (c.expanded start k) = c.tally (c.expanded start k) := by
    unfold tally
    rw [List.map_congr_left fun v hv => by rw [h v hv]]
  rw [outcome, outcome, hdone, hlevel, hasked, htally, flatMap_leads_congr h]

end Crawler

end ImportTrail
