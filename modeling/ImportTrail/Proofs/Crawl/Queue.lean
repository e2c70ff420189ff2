import ImportTrail.Proofs.Crawl.Expansion
import Mathlib.Logic.Function.Iterate

/-!
A crawl as a loop over a queue.

`Search` is the state of the loop: the files that wait, each with its depth, the paths that have been met, and what has
been found, read and counted. A path is marked as met when it joins the queue (`enqueue`), and one pass of the loop
(`step`) takes the file that has waited longest: it skips the file or follows its specifiers, one after the other
(`follow`).

* `follow_specifiers` — what all specifiers of a file add to the state;
* `handle_of_le`, `handle_of_lt` — what a file adds, at the maximal depth and below it;
* `steps_behind` — the files that wait in front are handled one after the other, whatever they add at the end;
* `steps_eq_levels` — from a queue of one depth on, the loop is the level recursion;
* `run_eq_crawl` — after one pass for each start file and each file found the queue is empty, and the outcome is that
  of the crawl.
-/

namespace ImportTrail

/-! ### The loop -/

/-- A file that waits, and how many imports have led to it. -/
structure Node where
  path : Text
  depth : ℕ
  deriving DecidableEq, Repr

/-- The state of the loop. -/
structure Search where
  /-- The files that wait. The first has waited longest. -/
  queue : List Node := []
  /-- The paths that have been met. -/
  visited : List Text := []
  outcome : Outcome := {}
  deriving DecidableEq, Repr

namespace Search

/-- A path joins the queue and is marked as met. -/
def enqueue (s : Search) (node : Node) : Search :=
  { s with queue := s.queue ++ [node], visited := s.visited ++ [node.path] }

/-- A path is found. -/
def report (s : Search) (path : Text) : Search :=
  { s with outcome.files := s.outcome.files ++ [path] }

/-- The reader is asked for a path. -/
def ask (s : Search) (path : Text) : Search :=
  { s with outcome.reads := s.outcome.reads ++ [path] }

/-- Something is counted. -/
def count (s : Search) (stats : Stats) : Search :=
  { s with outcome.stats := s.outcome.stats + stats }

/-- A start file in canonical form joins the queue, unless it has been met. -/
def accept (s : Search) (path : Text) : Search :=
  if s.visited.contains path then s else s.enqueue ⟨path, 0⟩

end Search

namespace Crawler

/-- One specifier of the file `node`, which is of the family `f`. -/
def follow (c : Crawler) (f : Family) (node : Node) (s : Search) (spec : Text) : Search :=
  match f.resolve? c.project spec (Path.parent node.path) with
  | none => s.count ⟨0, 0, 1, 0⟩
  | some path =>
    if c.ignores path then s.count ⟨0, 0, 0, 1⟩
    else if s.visited.contains path then s
    else (s.report path).enqueue ⟨path, node.depth + 1⟩

/-- What is done with the file that has been taken from the queue. -/
def handle (c : Crawler) (node : Node) (s : Search) : Search :=
  if c.maxDepth ≤ node.depth then s.count ⟨0, 1, 0, 0⟩
  else match Path.extension? node.path with
    | none => s.count ⟨0, 1, 0, 0⟩
    | some ext =>
      match Family.ofExtension? ext with
      | none => s.count ⟨0, 1, 0, 0⟩
      | some f =>
        match c.read node.path with
        | none | some [] => (s.ask node.path).count ⟨0, 1, 0, 0⟩
        | some source =>
          (f.imports c.strategy source).foldl (c.follow f node) ((s.ask node.path).count ⟨1, 0, 0, 0⟩)

/-- One pass of the loop. An empty queue stays as it is. -/
def step (c : Crawler) (s : Search) : Search :=
  match s.queue with
  | [] => s
  | node :: rest => c.handle node { s with queue := rest }

/-- The state before the first pass: the start files wait at depth 0, those outside the project left out. -/
def begin (c : Crawler) (starts : List Text) : Search :=
  (starts.filterMap (Path.projectForm? c.project.root)).foldl Search.accept {}

end Crawler

/-! ### What passes add to a state -/

namespace Search

/-- The state with more files found and waiting at one depth, more reads and more counted. -/
def grow (s : Search) (depth : ℕ) (found reads : List Text) (stats : Stats) : Search where
  queue := s.queue ++ found.map (⟨·, depth⟩)
  visited := s.visited ++ found
  outcome := ⟨s.outcome.files ++ found, s.outcome.reads ++ reads, s.outcome.stats + stats⟩

variable (s : Search) (d : ℕ)

theorem grow_visited (found reads : List Text) (stats : Stats) :
    (s.grow d found reads stats).visited = s.visited ++ found := rfl

theorem grow_nil : s.grow d [] [] 0 = s := by
  simp [grow]

theorem grow_grow (found found' reads reads' : List Text) (stats stats' : Stats) :
    (s.grow d found reads stats).grow d found' reads' stats' =
      s.grow d (found ++ found') (reads ++ reads') (stats + stats') := by
  simp [grow, add_assoc]

/-- The state with more files that wait in front. -/
def behind (front : List Node) : Search := { s with queue := front ++ s.queue }

theorem behind_grow (front : List Node) (found reads : List Text) (stats : Stats) :
    (s.behind front).grow d found reads stats = (s.grow d found reads stats).behind front := by
  simp [grow, behind]

theorem count_eq_grow (stats : Stats) : s.count stats = s.grow d [] [] stats := by
  simp [grow, count]

theorem report_enqueue_eq_grow (path : Text) : (s.report path).enqueue ⟨path, d⟩ = s.grow d [path] [] 0 := by
  simp [grow, report, enqueue]

theorem ask_count_eq_grow (path : Text) (stats : Stats) :
    (s.ask path).count stats = s.grow d [] [path] stats := by
  simp [grow, ask, count]

end Search

namespace Crawler

open Search

variable (c : Crawler)

/-! ### One file -/

/-- One specifier adds what it comes to. -/
theorem follow_eq (f : Family) (node : Node) (s : Search) (spec : Text) :
    let t := c.target f (Path.parent node.path) spec
    c.follow f node s spec = s.grow (node.depth + 1) (fresh s.visited (Visit.mk true (some [t])).paths) []
      ⟨0, 0, [t].count .unresolved, [t].count .ignored⟩ := by
  intro t
  unfold follow t target
  cases f.resolve? c.project spec (Path.parent node.path) with
  | none => exact s.count_eq_grow _ _
  | some path =>
    cases hi : c.ignores path with
    | true =>
      simp only [hi, if_true]
      exact s.count_eq_grow _ _
    | false =>
      simp only [hi, Bool.false_eq_true, if_false, Visit.paths, Option.getD_some, List.filterMap_cons, fresh]
      by_cases hv : s.visited.contains path
      · rw [if_pos hv, if_pos hv]
        exact (s.grow_nil _).symm
      · rw [if_neg hv, if_neg hv]
        exact s.report_enqueue_eq_grow _ path

/-- The specifiers of a file, followed one after the other, add what its visit says. -/
theorem follow_specifiers (f : Family) (node : Node) (s : Search) (specs : List Text) :
    let ts := specs.map (c.target f (Path.parent node.path))
    specs.foldl (c.follow f node) s = s.grow (node.depth + 1) (fresh s.visited (Visit.mk true (some ts)).paths) []
      ⟨0, 0, ts.count .unresolved, ts.count .ignored⟩ := by
  intro ts
  induction specs generalizing s with
  | nil => exact (s.grow_nil _).symm
  | cons spec specs ih =>
    have hpaths : ∀ (t : Target) (l : List Target), (Visit.mk true (some (t :: l))).paths =
        (Visit.mk true (some [t])).paths ++ (Visit.mk true (some l)).paths := fun t l => by
      simp only [Visit.paths, Option.getD_some, ← List.filterMap_append, List.singleton_append]
    rw [List.foldl_cons, ih, follow_eq, grow_grow, grow_visited, ← fresh_append, ← hpaths]
    congr 1
    ext <;> simp [ts, List.count_cons, Nat.add_comm]

/-! ### One pass -/

variable {c} {node : Node} {s : Search} {d : ℕ}

/-- At the maximal depth a file is skipped. -/
theorem handle_of_le (hd : c.maxDepth ≤ node.depth) :
    c.handle node s = s.grow (node.depth + 1) [] [] (Stats.skips 1) := by
  rw [handle, if_pos hd]
  exact s.count_eq_grow _ _

/-- Below the maximal depth a file is visited. -/
theorem handle_of_lt (hd : node.depth < c.maxDepth) :
    c.handle node s = s.grow (node.depth + 1) (fresh s.visited (c.leads node.path)) (c.asked [node.path])
      (c.visit node.path).stats := by
  rw [handle, if_neg (not_le.2 hd), ← paths_visit, asked, List.filter_singleton, visit]
  cases Path.extension? node.path with
  | none => exact s.count_eq_grow _ _
  | some ext =>
    simp only [Option.bind_some]
    cases Family.ofExtension? ext with
    | none => exact s.count_eq_grow _ _
    | some f =>
      simp only
      cases c.read node.path with
      | none => exact s.ask_count_eq_grow _ _ _
      | some source =>
        cases source with
        | nil => exact s.ask_count_eq_grow _ _ _
        | cons x source =>
          simp only [follow_specifiers, s.ask_count_eq_grow (node.depth + 1), grow_grow, grow_visited, List.append_nil,
            List.nil_append]
          congr 1
          ext <;> simp [Visit.stats]

/-! ### The files that wait in front -/

/-- What a file adds does not depend on the files that wait in front of it. -/
theorem handle_behind (node : Node) (s : Search) (front : List Node) :
    c.handle node (s.behind front) = (c.handle node s).behind front := by
  rcases le_or_gt c.maxDepth node.depth with hd | hd
  · rw [handle_of_le hd, handle_of_le hd, behind_grow]
  · rw [handle_of_lt hd, handle_of_lt hd, behind_grow]
    rfl

theorem step_behind (node : Node) (front : List Node) (s : Search) :
    c.step (s.behind (node :: front)) = (c.handle node s).behind front :=
  handle_behind node s front

/-- The files that wait in front are handled one after the other. -/
theorem steps_behind (front : List Node) (s : Search) :
    c.step^[front.length] (s.behind front) = front.foldl (fun s node => c.handle node s) s := by
  induction front generalizing s with
  | nil => rfl
  | cons node front ih => rw [List.length_cons, Function.iterate_succ_apply, step_behind, ih, List.foldl_cons]

/-! ### The files of one depth -/

theorem foldl_handle_of_le (hd : c.maxDepth ≤ d) (l : List Text) (s : Search) :
    (l.map (⟨·, d⟩)).foldl (fun s node => c.handle node s) s = s.grow (d + 1) [] [] (Stats.skips l.length) := by
  induction l generalizing s with
  | nil => exact (s.grow_nil _).symm
  | cons p l ih =>
    rw [List.map_cons, List.foldl_cons, ih, handle_of_le hd, grow_grow]
    congr 1
    ext <;> simp [Stats.skips, Nat.add_comm]

theorem foldl_handle_of_lt (hd : d < c.maxDepth) (l : List Text) (s : Search) :
    (l.map (⟨·, d⟩)).foldl (fun s node => c.handle node s) s =
      s.grow (d + 1) (fresh s.visited (l.flatMap c.leads)) (c.asked l) (c.tally l) := by
  induction l generalizing s with
  | nil => exact (s.grow_nil _).symm
  | cons p l ih =>
    rw [List.map_cons, List.foldl_cons, ih, handle_of_lt hd, grow_grow, grow_visited, ← fresh_append,
      ← List.flatMap_cons, ← asked_append, ← tally_cons, List.singleton_append]

/-- The passes for a queue of one depth. -/
theorem steps_eq_foldl (c : Crawler) (l : List Text) (k : ℕ) (seen : List Text) (o : Outcome) :
    c.step^[l.length] ⟨l.map (⟨·, k⟩), seen, o⟩ =
      (l.map (⟨·, k⟩)).foldl (fun s node => c.handle node s) ⟨[], seen, o⟩ := by
  have hsteps := steps_behind (c := c) (l.map (⟨·, k⟩)) ⟨[], seen, o⟩
  rwa [List.length_map, behind, List.append_nil] at hsteps

/-! ### The whole loop -/

/-- From a queue of one depth on the loop is the level recursion. -/
theorem steps_eq_levels (c : Crawler) {d k : ℕ} (hk : k + d = c.maxDepth) (seen l : List Text) (o : Outcome) :
    let rest := c.levels d seen l
    c.step^[l.length + rest.files.length] ⟨l.map (⟨·, k⟩), seen, o⟩ =
      ⟨[], seen ++ rest.files, ⟨o.files ++ rest.files, o.reads ++ rest.reads, o.stats + rest.stats⟩⟩ := by
  induction d generalizing k seen l o with
  | zero =>
    intro rest
    rw [show rest = _ from levels_zero c seen l, List.length_nil, Nat.add_zero, steps_eq_foldl,
      foldl_handle_of_le (by omega)]
    rfl
  | succ d ih =>
    intro rest
    -- the passes for this depth leave the next level in the queue
    have hpass := steps_eq_foldl c l k seen o
    rw [foldl_handle_of_lt (by omega)] at hpass
    have hnext := ih (k := k + 1) (by omega) (seen ++ fresh seen (l.flatMap c.leads)) (fresh seen (l.flatMap c.leads))
      ⟨o.files ++ fresh seen (l.flatMap c.leads), o.reads ++ c.asked l, o.stats + c.tally l⟩
    rw [show rest = _ from levels_succ c d seen l, List.length_append, Nat.add_comm, Function.iterate_add_apply, hpass]
    simp only [List.append_assoc, add_assoc] at hnext
    exact hnext

theorem foldl_accept (paths : List Text) (s : Search) :
    paths.foldl accept s =
      ⟨s.queue ++ (fresh s.visited paths).map (⟨·, 0⟩), s.visited ++ fresh s.visited paths, s.outcome⟩ := by
  induction paths generalizing s with
  | nil => simp [fresh]
  | cons p paths ih =>
    rw [List.foldl_cons, ih, accept, fresh]
    by_cases hp : s.visited.contains p
    · rw [if_pos hp, if_pos hp]
    · have hseen : fresh (s.visited ++ [p]) paths = fresh (p :: s.visited) paths :=
        fresh_congr (fun v => by simp [or_comm]) paths
      rw [if_neg hp, if_neg hp]
      simp [enqueue, hseen]

/-- Before the first pass the start level waits. -/
theorem begin_eq (c : Crawler) (starts : List Text) :
    c.begin starts = ⟨(c.startLevel starts).map (⟨·, 0⟩), c.startLevel starts, ⟨[], [], 0⟩⟩ := by
  rw [begin, foldl_accept]
  rfl

/-- **The loop ends with what the crawl finds, reads and counts.** It takes one pass for each start file and each file
that is found, and leaves an empty queue. -/
theorem run_eq_crawl (c : Crawler) (starts : List Text) :
    c.step^[(c.startLevel starts).length + (c.crawl starts).files.length] (c.begin starts) =
      ⟨[], c.startLevel starts ++ (c.crawl starts).files, c.crawl starts⟩ := by
  rw [begin_eq, crawl, steps_eq_levels c (Nat.zero_add _)]
  simp only [List.nil_append, zero_add]

end Crawler

end ImportTrail
