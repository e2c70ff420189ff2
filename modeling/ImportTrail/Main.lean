import ImportTrail.CommandLine

/-!
The program. It takes down what a command looks up on the disk, runs the command on that and prints
what comes of it. Links are followed: what stands at a path is what they lead to. A crawl depends
only on what stands at the paths that it may look up, wherever they are
(`CommandLine.collectFiles_eq_of_agree`); so these are taken, one level of the crawl after the other.
-/

namespace ImportTrail

/-! ### Taking a path -/

/-- The places that the way along an absolute path goes through, from the root of the disk on. -/
def placesAlong (path : Text) : List Location :=
  (Path.components path).scanl (fun place c =>
    match c with
    | .name n => place ++ [n]
    | .up => place.dropLast
    | .root | .here => place) []

/-- The content of a file that is there. One that cannot be read is no text. -/
def takeContent (path : Text) : IO ByteArray := do
  try IO.FS.readBinFile (String.ofList path)
  catch _ => return ⟨#[0xFF]⟩

/-- What stands at an absolute path, with the directories on the way to it. A file that is not wanted
as a whole is taken without its content; what is neither file nor directory is like a directory with
nothing in it. -/
def takePath (path : Text) (whole : Bool) : IO (List (Location × Entry)) := do
  let places := placesAlong path
  if !Disk.isAcceptable path then return []
  try
    let known ← IO.FS.realPath (String.ofList path)
    let entry ← match (← known.symlinkMetadata).type with
      | .file => Entry.file <$> if whole then takeContent path else pure .empty
      | _ => pure .directory
    return (places.getLastD [], entry) :: places.dropLast.map (·, .directory)
  catch _ => return []

/-- A disk with more on it. -/
def extended (d : Disk) (entries : List (Location × Entry)) : Disk := ⟨entries ++ d.entries⟩

/-! ### Taking what a crawl looks up -/

/-- The disk with what stands at those of the paths of a project that name nothing on it. The content
of sources is taken. -/
def takeMissing (p : Project) (paths : List Text) : IO Disk :=
  paths.foldlM (fun d path => do
    if (⟨d, p.root⟩ : Project).has path then return d
    let isSource := ((Path.extension? path).bind Family.ofExtension?).isSome
    return extended d (← takePath (p.onDisk path) isSource)) p.disk

/-- The disk with what a crawl from some start files may look up. In every round the files of one
more level are there to be read; when nothing new has come there is nothing left to read. -/
def takeWanted (v : Settings.Values) (starts : List Text) : Nat → Project → IO Disk
  | 0, p => return p.disk
  | rounds + 1, p =>
    match CommandLine.crawlerOf p v with
    | .error _ => return p.disk
    | .ok c => do
      let disk ← takeMissing p (c.wanted starts)
      if disk.entries.length = p.disk.entries.length then return disk
      takeWanted v starts rounds ⟨disk, p.root⟩

/-! ### Taking the surroundings -/

/-- The files that settings are read from, for a directory. -/
def settingsFiles (dir : Text) (userFile? : Option Text) : List Text :=
  userFile?.toList ++ (Path.ancestors dir).flatMap fun up =>
    [Path.append up Settings.projectFileName, Path.append up Settings.ignoreFileName]

/-- The variables that matter. -/
def variableNames : List Text :=
  [Settings.depthVariable, Settings.enabledVariable, Settings.strategyVariable,
    "HOME".toList, "XDG_CONFIG_HOME".toList]

/-- The environment, as far as it matters. -/
def takeEnvironment : IO Settings.Environment := do
  let known ← variableNames.mapM fun name => do
    return (name, (← IO.getEnv (String.ofList name)).map String.toList)
  return fun name => (known.lookup name).join

/-- The command about another directory. -/
def CommandLine.Command.about (c : CommandLine.Command) (dir : Text) : CommandLine.Command :=
  match c with
  | .collect c => .collect { c with root := dir }
  | .showSettings _ => .showSettings (some dir)

/-- The surroundings of a run of a command, and the command with the directory that its own really
is. Without such a directory there is nothing to take. -/
def takeSurroundings (c : CommandLine.Command) :
    IO (CommandLine.Command × CommandLine.Surroundings) := do
  let here := (← IO.currentDir).toString.toList
  let bare : CommandLine.Surroundings := ⟨{}, here, ← takeEnvironment⟩
  let named := String.ofList (Path.append here c.directory)
  let .ok root ← (IO.FS.realPath named).toBaseIO | return (c, bare)
  let dir := root.toString.toList
  let settings ← (settingsFiles dir bare.userFile?).mapM (takePath · true)
  let s := { bare with disk := ⟨(← takePath dir false) ++ settings.flatten⟩ }
  match c with
  | .showSettings _ => return (c.about dir, s)
  | .collect collect =>
    match s.settings dir collect.overrides with
    | .error _ => return (c.about dir, s)
    | .ok settings =>
      let v := settings.values
      if !v.enabled then return (c.about dir, s)
      let disk ← takeWanted v collect.files (v.maxDepth + 1) ⟨s.disk, dir⟩
      return (c.about dir, { s with disk := disk })

end ImportTrail

open ImportTrail in
/-- Run the command that the arguments make. Wrong usage ends with 2, another failure with 1. -/
def main (args : List String) : IO UInt32 := do
  match CommandLine.parse (args.map String.toList) with
  | .error .help | .error .version => return 0
  | .error f =>
    IO.eprintln (String.ofList f.kind)
    return 2
  | .ok c =>
    let (c, s) ← takeSurroundings c
    match c.run s with
    | .ok output =>
      IO.print (String.ofList output)
      return 0
    | .error f =>
      IO.eprintln (String.ofList f.message)
      return 1
