import ImportTrail.Path

/-!
Where a setting came from, and the record of it for every key. The record is kept in the order of
its keys.
-/

namespace ImportTrail.Settings

open Text

/-- Where a value came from. -/
inductive Source where
  | builtIn
  | userFile (path : Text)
  | projectFile (path : Text)
  | ignoreFile (path : Text)
  | environment (name : Text)
  | flag (name : Text)
  deriving DecidableEq, Repr

/-- The words for a source. -/
def Source.text : Source → Text
  | builtIn => "default".toList
  | userFile path => "user config (".toList ++ path ++ [')']
  | projectFile path => "project config (".toList ++ path ++ [')']
  | ignoreFile path => "ignore file (".toList ++ path ++ [')']
  | environment name => "env var (".toList ++ name ++ [')']
  | flag name => "CLI flag (".toList ++ name ++ [')']

/-- Two sources are the same; files are compared by the components of their paths. -/
def Source.same : Source → Source → Bool
  | builtIn, builtIn => true
  | userFile p, userFile q => Path.same p q
  | projectFile p, projectFile q => Path.same p q
  | ignoreFile p, ignoreFile q => Path.same p q
  | environment a, environment b => a == b
  | flag a, flag b => a == b
  | _, _ => false

/-- One text comes before another, by their code points. -/
def comesBefore : Text → Text → Bool
  | _, [] => false
  | [], _ :: _ => true
  | a :: s, b :: t => if a = b then comesBefore s t else a < b

/-- The source of each key, in the order of the keys. -/
structure Provenance where
  entries : List (Text × Source) := []
  deriving DecidableEq, Repr

namespace Provenance

/-- Put a key where it belongs, or give it a new source. -/
def insert (key : Text) (source : Source) : List (Text × Source) → List (Text × Source)
  | [] => [(key, source)]
  | (k, s) :: es =>
    if k = key then (key, source) :: es
    else if comesBefore key k then (key, source) :: (k, s) :: es
    else (k, s) :: insert key source es

/-- Record the source of a key. -/
def set (p : Provenance) (key : Text) (source : Source) : Provenance :=
  ⟨insert key source p.entries⟩

/-- The source of a key. -/
def get? (p : Provenance) (key : Text) : Option Source := p.entries.lookup key

/-- Two keys have the same source, or none. -/
def sameSource (p : Provenance) (a b : Text) : Bool :=
  match p.get? a, p.get? b with
  | none, none => true
  | some x, some y => x.same y
  | _, _ => false

end Provenance

end ImportTrail.Settings
