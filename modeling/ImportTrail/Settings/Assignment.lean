import ImportTrail.Crawl
import ImportTrail.Settings.Source

/-!
What a crawl is told, key by key, and assignments to the keys. A later assignment to a key decides,
but patterns are added to those before them.
-/

namespace ImportTrail.Settings

open Text

/-- A key of the settings. -/
inductive Key where
  | enabled
  | maxDepth
  | maxFileSize
  | strategy
  | ignore
  deriving DecidableEq, Repr

/-- The text of a key. -/
def Key.text : Key → Text
  | enabled => "imports.enabled".toList
  | maxDepth => "imports.max_depth".toList
  | maxFileSize => "imports.max_file_size".toList
  | strategy => "imports.strategy".toList
  | ignore => "imports.ignore".toList

/-- All keys. -/
def Key.all : List Key := [.enabled, .maxDepth, .maxFileSize, .strategy, .ignore]

/-- What a crawl is told. -/
structure Values where
  enabled : Bool := true
  maxDepth : Nat := defaultDepth
  maxFileSize : Nat := defaultFileSize
  strategy : Strategy := .scan
  ignore : List Text := []
  deriving DecidableEq, Repr

/-- A value for a key; patterns are added to those before. -/
inductive Assignment where
  | enabled (b : Bool)
  | maxDepth (n : Nat)
  | maxFileSize (n : Nat)
  | strategy (s : Strategy)
  | ignore (patterns : List Text)
  deriving DecidableEq, Repr

namespace Assignment

/-- The key of an assignment. -/
def key : Assignment → Key
  | enabled _ => .enabled
  | maxDepth _ => .maxDepth
  | maxFileSize _ => .maxFileSize
  | strategy _ => .strategy
  | ignore _ => .ignore

/-- The values after an assignment. -/
def apply (v : Values) : Assignment → Values
  | enabled b => { v with enabled := b }
  | maxDepth n => { v with maxDepth := n }
  | maxFileSize n => { v with maxFileSize := n }
  | strategy s => { v with strategy := s }
  | ignore ps => { v with ignore := v.ignore ++ ps }

end Assignment

/-- Assignments with their sources, in the order in which they are made. -/
abbrev Layer := List (Assignment × Source)

/-- The settings of a run, where they came from, and the files that were read for them. -/
structure Resolved where
  values : Values := {}
  provenance : Provenance := {}
  loadedFiles : List Text := []
  deriving DecidableEq, Repr

end ImportTrail.Settings
