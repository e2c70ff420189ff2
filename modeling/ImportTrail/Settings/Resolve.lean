import ImportTrail.Disk
import ImportTrail.Settings.Layer

/-!
The settings of a run. Layers are applied from the bottom up: what is built in, the user's file,
the nearest project file, the environment, the command line, and the nearest ignore file, which
only adds patterns. The last assignment to a key decides, and its source is on record. A faulty
layer is an error even if a later one would decide.
-/

namespace ImportTrail.Settings

open Text

/-! ### Files -/

/-- The name of a project file. -/
def projectFileName : Text := ".importcrawl.toml".toList

/-- The name of an ignore file. -/
def ignoreFileName : Text := ".importcrawlignore".toList

/-- The file of a name in a directory or the nearest one above it. -/
def nearestFile? (d : Disk) (name dir : Text) : Option Text :=
  ((Path.ancestors dir).map fun up => Path.append up name).find? d.hasFile

/-- The patterns of an ignore file: its lines without the blanks around them, but for empty ones and
comments. -/
def ignorePatterns (s : Text) : List Text :=
  ((lines s).map trim).filter fun l => !l.isEmpty && !startsWith l ['#']

/-- The nearest ignore file that can be read, and its patterns. -/
def nearestIgnoreFile? (d : Disk) (dir : Text) : Option (Text × List Text) :=
  ((Path.ancestors dir).map fun up => Path.append up ignoreFileName).findSome? fun path =>
    (d.text? path).map fun s => (path, ignorePatterns s)

/-- The layer of a settings file that is there. -/
def readLayer (d : Disk) (kind : FileKind) (path : Text) : Except Fault Layer :=
  match d.text? path with
  | none => .error (.unreadable kind path)
  | some s =>
    match FileSettings.ofText s with
    | .error e => .error (.invalid kind path e)
    | .ok f => fileLayer (kind.source path) f

/-- The layer of a settings file if there is one. -/
def optionalLayer (d : Disk) (kind : FileKind) (path? : Option Text) : Except Fault Layer :=
  match path? with
  | none => .ok []
  | some path => readLayer d kind path

/-! ### All layers -/

/-- The layer of what is built in: the values are there already, their source is put on record. -/
def builtInProvenance : Provenance :=
  Key.all.foldl (fun p k => p.set k.text .builtIn) {}

/-- The settings after one assignment. -/
def Resolved.assign (r : Resolved) (a : Assignment × Source) : Resolved :=
  { r with values := a.1.apply r.values, provenance := r.provenance.set a.1.key.text a.2 }

/-- The settings for a working directory. -/
def resolve (d : Disk) (dir : Text) (overrides : Overrides) (userFile? : Option Text)
    (env : Environment) : Except Fault Resolved := do
  let user? := userFile?.filter d.hasFile
  let project? := nearestFile? d projectFileName dir
  let user ← optionalLayer d .user user?
  let project ← optionalLayer d .project project?
  let environment ← environmentLayer env
  let commandLine ← overrideLayer overrides
  let ignore? := nearestIgnoreFile? d dir
  let ignore := match ignore? with
    | some (path, patterns) => patternLayer (.ignoreFile path) patterns
    | none => []
  let start : Resolved :=
    ⟨{}, builtInProvenance, user?.toList ++ project?.toList ++ (ignore?.map (·.1)).toList⟩
  return (user ++ project ++ environment ++ commandLine ++ ignore).foldl Resolved.assign start

end ImportTrail.Settings
