import ImportTrail.Disk
import ImportTrail.Family
import ImportTrail.Scan.Rust

/-!
From a specifier and the directory of the file that holds it to a file of the project. Every family
names candidates in order, and the first that is a file is the answer. Nothing but what stands at
some paths (`Family.probes`), which do not depend on the project, enters the answer.
-/

namespace ImportTrail.Resolve

open Text

/-- The directory `n` levels above; there is none above the root of the project. -/
def climb? : Nat → Text → Option Text
  | 0, dir => some dir
  | n + 1, dir => if dir.isEmpty then none else climb? n (Path.parent dir)

/-! ### JavaScript -/

/-- The extensions that a specifier may leave out, in the order in which they are tried. -/
def scriptExtensions : List Text :=
  [".ts".toList, ".tsx".toList, ".js".toList, ".jsx".toList, ".mjs".toList, ".cjs".toList,
    ".json".toList]

/-- A path with each extension. -/
def withExtensions (path : Text) : List Text := scriptExtensions.map fun ext => path ++ ext

/-- The index files of a directory. -/
def indexFiles (dir : Text) : List Text :=
  withExtensions (if dir.isEmpty then "index".toList else dir ++ "/index".toList)

/-- A path without the extension at its end, when something is left of its file name. -/
def stem? (path : Text) : Option Text :=
  (scriptExtensions.findSome? fun ext => before? ext path).filter fun s =>
    !s.isEmpty && !endsWith s ['/']

/-- The candidates for a path: as it is written, with an extension, as a directory, and the same
for its stem. -/
def scriptCandidates (path : Text) : List Text :=
  path :: withExtensions path ++ indexFiles path ++
    match stem? path with
    | some s => withExtensions s ++ withExtensions (s ++ "/index".toList)
    | none => []

/-- The file of a JavaScript specifier. -/
def script? (p : Project) (spec dir : Text) : Option Text :=
  if startsWith spec ['.'] then
    (Path.resolve? dir spec).bind fun path => p.firstFile? (scriptCandidates path)
  else none

/-! ### C -/

/-- The file of an included name. Only names that begin with a dot are looked for. -/
def include? (p : Project) (spec dir : Text) : Option Text :=
  if startsWith spec ['.'] then
    (Path.resolve? dir spec).bind fun path => p.firstFile? [path]
  else none

/-! ### Python -/

/-- The non-empty parts of a dotted name. -/
def dottedParts (s : Text) : List Text := (splitOn '.' s).filter (!·.isEmpty)

/-- The file of a module under a directory; without a name, the file of the package itself. -/
def pythonModule? (p : Project) (dir : Text) (parts : List Text) : Option Text :=
  if parts.isEmpty then
    (Path.resolve? dir "__init__.py".toList).bind fun path => p.firstFile? [path]
  else
    (Path.resolve? dir (Path.ofNames parts)).bind fun path =>
      p.firstFile? [path ++ ".py".toList, path ++ "/__init__.py".toList]

/-- The file of a relative specifier. Its last part may name something inside a module. -/
def pythonRelative? (p : Project) (spec dir : Text) : Option Text := do
  let dots := spec.takeWhile (· == '.')
  let base ← climb? (dots.length - 1) dir
  let parts := dottedParts (spec.drop dots.length)
  (pythonModule? p base parts).orElse fun _ =>
    if parts.isEmpty then none else pythonModule? p base parts.dropLast

/-- The file of an absolute specifier, sought only if its first part is known to the project. -/
def pythonAbsolute? (p : Project) (spec : Text) : Option Text :=
  match dottedParts spec with
  | [] => none
  | first :: rest =>
    if p.has first || p.has (first ++ ".py".toList) then pythonModule? p [] (first :: rest) else none

/-- The file of a Python specifier. -/
def python? (p : Project) (spec dir : Text) : Option Text :=
  if startsWith spec ['.'] then pythonRelative? p spec dir else pythonAbsolute? p spec

/-! ### Rust -/

/-- The pieces between pairs of colons. -/
def splitColons : Text → List Text
  | ':' :: ':' :: s => [] :: splitColons s
  | c :: s => match splitColons s with
    | [] => [[c]]
    | p :: ps => (c :: p) :: ps
  | [] => [[]]

/-- The parts of a path that name modules or items. -/
def pathParts (s : Text) : List Text :=
  (splitColons s).filter fun x => !x.isEmpty && x != ['*'] && x != "self".toList

/-- How many `super::` stand in front, and the rest. -/
def superDepth : Text → Nat × Text
  | 's' :: 'u' :: 'p' :: 'e' :: 'r' :: ':' :: ':' :: s =>
    let (n, rest) := superDepth s
    (n + 1, rest)
  | s => (0, s)

/-- The two files of a module. -/
def moduleFiles (path : Text) : List Text := [path ++ ".rs".toList, path ++ "/mod.rs".toList]

/-- The module file for the first `n` parts of a path under a directory, or for fewer of them. -/
def longestModule? (p : Project) (dir : Text) (parts : List Text) : Nat → Option Text
  | 0 => none
  | n + 1 => do
    let path ← Path.resolve? dir (Path.ofNames (parts.take (n + 1)))
    (p.firstFile? (moduleFiles path)).orElse fun _ => longestModule? p dir parts n

/-- The directories where a local path starts, and its parts. A crate starts at the root of the
project or in `src`. -/
def pathStart? (spec dir : Text) : Option (List Text × List Text) :=
  match after? "crate::".toList spec, after? "self::".toList spec with
  | some rest, _ => some ([[], "src".toList], pathParts rest)
  | none, some rest => some ([dir], pathParts rest)
  | none, none =>
    let (n, rest) := superDepth spec
    if n = 0 then none else (climb? n dir).map fun base => ([base], pathParts rest)

/-- The file of a Rust specifier: an included path, the module of a declaration, or the longest
part of a local path that is a module. -/
def rust? (p : Project) (spec dir : Text) : Option Text :=
  match Scan.Rust.includedPath? spec with
  | some path => (Path.resolve? dir path).bind fun path => p.firstFile? [path]
  | none =>
    if Scan.Rust.isName spec then
      (Path.resolve? dir spec).bind fun path => p.firstFile? (moduleFiles path)
    else do
      let (starts, parts) ← pathStart? spec dir
      starts.findSome? fun base => longestModule? p base parts parts.length

/-! ### What the project is asked for -/

/-- The paths that a JavaScript specifier may have looked up. -/
def scriptProbes (spec dir : Text) : List Text :=
  if startsWith spec ['.'] then (Path.resolve? dir spec).elim [] scriptCandidates else []

/-- The path that an included name may have looked up. -/
def includeProbes (spec dir : Text) : List Text :=
  if startsWith spec ['.'] then (Path.resolve? dir spec).toList else []

/-- The paths that a Python module may have looked up. -/
def pythonModuleProbes (dir : Text) (parts : List Text) : List Text :=
  if parts.isEmpty then (Path.resolve? dir "__init__.py".toList).toList
  else
    (Path.resolve? dir (Path.ofNames parts)).elim [] fun path =>
      [path ++ ".py".toList, path ++ "/__init__.py".toList]

/-- The paths of an absolute specifier's first part, one of which has to be there. -/
def packageProbes (spec : Text) : List Text :=
  if startsWith spec ['.'] then []
  else
    match dottedParts spec with
    | [] => []
    | first :: _ => [first, first ++ ".py".toList]

/-- The paths that may be the answer to a Python specifier. -/
def pythonProbes (spec dir : Text) : List Text :=
  if startsWith spec ['.'] then
    let dots := spec.takeWhile (· == '.')
    let parts := dottedParts (spec.drop dots.length)
    (climb? (dots.length - 1) dir).elim [] fun base =>
      pythonModuleProbes base parts ++ pythonModuleProbes base parts.dropLast
  else
    match dottedParts spec with
    | [] => []
    | parts => pythonModuleProbes [] parts

/-- The paths that the first `n` parts of a path, or fewer of them, may have looked up. -/
def longestModuleProbes (dir : Text) (parts : List Text) : Nat → List Text
  | 0 => []
  | n + 1 =>
    (Path.resolve? dir (Path.ofNames (parts.take (n + 1)))).elim [] fun path =>
      moduleFiles path ++ longestModuleProbes dir parts n

/-- The paths that a Rust specifier may have looked up. -/
def rustProbes (spec dir : Text) : List Text :=
  match Scan.Rust.includedPath? spec with
  | some path => (Path.resolve? dir path).toList
  | none =>
    if Scan.Rust.isName spec then (Path.resolve? dir spec).elim [] moduleFiles
    else
      (pathStart? spec dir).elim [] fun (starts, parts) =>
        starts.flatMap fun base => longestModuleProbes base parts parts.length

end ImportTrail.Resolve

namespace ImportTrail

/-- The project file that a specifier in a file of the directory `dir` leads to. -/
def Family.resolve? (f : Family) (p : Project) (spec dir : Text) : Option Text :=
  match f with
  | .javaScript => Resolve.script? p spec dir
  | .c => Resolve.include? p spec dir
  | .python => Resolve.python? p spec dir
  | .rust => Resolve.rust? p spec dir

/-- The paths that a specifier in a file of the directory `dir` may have looked up. -/
def Family.probes (f : Family) (spec dir : Text) : List Text :=
  match f with
  | .javaScript => Resolve.scriptProbes spec dir
  | .c => Resolve.includeProbes spec dir
  | .python => Resolve.packageProbes spec ++ Resolve.pythonProbes spec dir
  | .rust => Resolve.rustProbes spec dir

end ImportTrail
