import ImportTrail.Imports
import ImportTrail.Resolve

/-!
Following imports breadth first. A visit of a file depends on the file alone: whether the reader is
asked for it, what it counts and where its imports lead. A crawl visits the start files, then the
files they lead to, level by level until the depth is used up; a file is visited once. The start
files are not part of the result. A loop that takes the files from a queue, one by one, comes to the
same (`Crawler.run_eq_crawl`).
-/

namespace ImportTrail

/-- The counters of a crawl. -/
structure Stats where
  /-- Files whose content was read. -/
  filesRead : Nat := 0
  /-- Files that were not followed: too deep, of no family, unreadable or empty. -/
  nodesSkipped : Nat := 0
  /-- Specifiers that lead to no file. -/
  unresolvedImports : Nat := 0
  /-- Specifiers that lead to an ignored file. -/
  ignoredImports : Nat := 0
  deriving DecidableEq, Repr

/-- Two counts taken together. -/
def Stats.add (a b : Stats) : Stats :=
  ⟨a.filesRead + b.filesRead, a.nodesSkipped + b.nodesSkipped,
    a.unresolvedImports + b.unresolvedImports, a.ignoredImports + b.ignoredImports⟩

instance : Add Stats := ⟨Stats.add⟩

/-- What a crawl finds: the files in the order of discovery, the paths that the reader was asked
for, and the counters. -/
structure Outcome where
  files : List Text := []
  reads : List Text := []
  stats : Stats := {}
  deriving DecidableEq, Repr

/-- Import hops that are followed when nothing else is said. -/
def defaultDepth : Nat := 3

/-- Bytes of a source file that are accepted when nothing else is said. -/
def defaultFileSize : Nat := 50 * 1024 * 1024

/-- A crawler: a project and how its files are read, followed and ignored. -/
structure Crawler where
  project : Project
  maxDepth : Nat := defaultDepth
  strategy : Strategy := .scan
  /-- The text of a project file. -/
  read : Text → Option Text := fun p => project.disk.source? defaultFileSize (project.onDisk p)
  ignores : Text → Bool := fun _ => false

/-- What a specifier comes to. -/
inductive Target where
  | unresolved
  | ignored
  | found (path : Text)
  deriving DecidableEq, Repr

/-- What the visit of a file comes to. -/
structure Visit where
  /-- The reader is asked for the file. -/
  asked : Bool := false
  /-- What its specifiers come to, if it has content. -/
  targets? : Option (List Target) := none
  deriving DecidableEq, Repr

namespace Visit

/-- The paths that a visit leads to. -/
def paths (v : Visit) : List Text :=
  (v.targets?.getD []).filterMap fun
    | .found path => some path
    | _ => none

/-- What a visit adds to the counters. -/
def stats (v : Visit) : Stats :=
  match v.targets? with
  | none => ⟨0, 1, 0, 0⟩
  | some ts => ⟨1, 0, ts.count .unresolved, ts.count .ignored⟩

end Visit

namespace Crawler

/-- What a specifier of a file in the directory `dir` comes to. -/
def target (c : Crawler) (f : Family) (dir spec : Text) : Target :=
  match f.resolve? c.project spec dir with
  | none => .unresolved
  | some path => if c.ignores path then .ignored else .found path

/-- The visit of a file. Empty content counts as none. -/
def visit (c : Crawler) (path : Text) : Visit :=
  match (Path.extension? path).bind Family.ofExtension? with
  | none => {}
  | some f =>
    match c.read path with
    | none | some [] => ⟨true, none⟩
    | some source =>
      ⟨true, some ((f.imports c.strategy source).map (c.target f (Path.parent path)))⟩

/-- The paths that have not been seen, each where it stands first. -/
def fresh (seen : List Text) : List Text → List Text
  | [] => []
  | p :: ps => if seen.contains p then fresh seen ps else p :: fresh (p :: seen) ps

/-- The crawl from the files of one level on, with `depth` levels to follow. -/
def levels (c : Crawler) : Nat → List Text → List Text → Outcome
  | _, _, [] => {}
  | 0, _, level => ⟨[], [], ⟨0, level.length, 0, 0⟩⟩
  | depth + 1, seen, level =>
    let visits := level.map fun p => (p, c.visit p)
    let next := fresh seen (visits.flatMap (·.2.paths))
    let rest := c.levels depth (seen ++ next) next
    ⟨next ++ rest.files, (visits.filter (·.2.asked)).map (·.1) ++ rest.reads,
      visits.foldr (fun v s => v.2.stats + s) rest.stats⟩

/-- The start files in canonical form, each where it stands first; those outside the project are
left out. -/
def startLevel (c : Crawler) (starts : List Text) : List Text :=
  fresh [] (starts.filterMap (Path.projectForm? c.project.root))

/-- The crawl from some start files. -/
def crawl (c : Crawler) (starts : List Text) : Outcome :=
  let level := c.startLevel starts
  c.levels c.maxDepth level level

/-! ### What the disk is asked for -/

/-- The paths that the specifiers of a file may have looked up. -/
def probes (c : Crawler) (path : Text) : List Text :=
  match (Path.extension? path).bind Family.ofExtension?, c.read path with
  | some f, some source =>
    (f.imports c.strategy source).flatMap fun spec => f.probes spec (Path.parent path)
  | _, _ => []

/-- The paths that a crawl may look up: the start files and what the files that it reads have looked
up. -/
def wanted (c : Crawler) (starts : List Text) : List Text :=
  c.startLevel starts ++ (c.crawl starts).reads.flatMap c.probes

end Crawler

end ImportTrail
