import ImportTrail.Path

/-!
A disk is a finite tree of directories and files, given by what stands at each location. Paths are
walked component by component on the disk itself: `..` leaves an existing directory, a file is
never walked through, and a name with a NUL, a name of more than 255 bytes or a path of more than
4095 bytes names nothing. A source file is read when it is small enough, holds no NUL in its
beginning and is valid UTF-8.
-/

namespace ImportTrail

/-- What stands at a location. -/
inductive Entry where
  | file (content : ByteArray)
  | directory

/-- A place on the disk: the names on the way from its root. -/
abbrev Location := List Text

/-- A disk: its entries, the latest word on a location first. The root is a directory. -/
structure Disk where
  entries : List (Location × Entry) := []

namespace Disk

/-- What stands at a location. -/
def entry? (d : Disk) (l : Location) : Option Entry :=
  if l = [] then some .directory else d.entries.lookup l

/-- A directory stands at the location. -/
def isDirectory (d : Disk) (l : Location) : Bool :=
  match d.entry? l with
  | some .directory => true
  | _ => false

/-! ### Changing a disk -/

/-- Put an entry at a location, in place of what stood there. -/
def put (d : Disk) (l : Location) (e : Entry) : Disk :=
  ⟨(l, e) :: d.entries.filter fun x => x.1 != l⟩

/-- Make a directory and those above it. -/
def makeDirectory (d : Disk) (l : Location) : Disk :=
  (List.range l.length).foldl (fun d i =>
    let up := l.take (i + 1)
    if d.isDirectory up then d else d.put up .directory) d

/-- Write a file, and make the directories above it. -/
def writeFile (d : Disk) (l : Location) (content : ByteArray) : Disk :=
  (d.makeDirectory l.dropLast).put l (.file content)

/-- Remove what stands at a location and below it. -/
def remove (d : Disk) (l : Location) : Disk :=
  ⟨d.entries.filter fun x => !l.isPrefixOf x.1⟩

/-! ### Walking -/

/-- Where a walk over pieces between slashes ends. Every piece is left from a directory. -/
def walk (d : Disk) : Location → List Text → Option Location
  | at_, [] => some at_
  | at_, piece :: rest =>
    if !d.isDirectory at_ then none
    else if piece = [] ∨ piece = ['.'] then walk d at_ rest
    else if piece = ['.', '.'] then walk d at_.dropLast rest
    else if 255 < Text.byteSize piece then none
    else walk d (at_ ++ [piece]) rest

/-- A path that the system accepts at all. -/
def isAcceptable (path : Text) : Bool :=
  Path.isAbsolute path && !path.contains '\x00' && Text.byteSize path ≤ 4095

/-- The location that an absolute path leads to, if something stands there. -/
def locate? (d : Disk) (path : Text) : Option Location :=
  if isAcceptable path then
    (d.walk [] (Text.splitOn '/' path)).filter fun l => (d.entry? l).isSome
  else none

/-- What an absolute path names. -/
def find? (d : Disk) (path : Text) : Option Entry := (d.locate? path).bind d.entry?

/-- The path names something. -/
def has (d : Disk) (path : Text) : Bool := (d.find? path).isSome

/-- The path names a regular file. -/
def hasFile (d : Disk) (path : Text) : Bool :=
  match d.find? path with
  | some (.file _) => true
  | _ => false

/-- The absolute path without detours to what a path names. -/
def canonical? (d : Disk) (path : Text) : Option Text :=
  (d.locate? path).map fun l => '/' :: Path.ofNames l

/-! ### Reading -/

/-- The content of a file that is valid UTF-8. -/
def text? (d : Disk) (path : Text) : Option Text :=
  match d.find? path with
  | some (.file content) => (String.fromUTF8? content).map String.toList
  | _ => none

/-- How many bytes in front are searched for a NUL. -/
def sniffLength : Nat := 8192

/-- Content with a NUL near its beginning. -/
def isBinary (content : ByteArray) : Bool :=
  (content.data.toList.take sniffLength).contains 0

/-- The text of a source file of at most `limit` bytes. -/
def source? (d : Disk) (limit : Nat) (path : Text) : Option Text :=
  match d.find? path with
  | some (.file content) =>
    if limit < content.size || isBinary content then none
    else (String.fromUTF8? content).map fun s => Text.dropMark s.toList
  | _ => none

end Disk

/-- A project: a directory of a disk, the root of all its paths. -/
structure Project where
  disk : Disk
  root : Text

namespace Project

/-- The path of a project file on the disk. -/
def onDisk (p : Project) (path : Text) : Text := Path.append p.root path

/-- The path names something under the root. -/
def has (p : Project) (path : Text) : Bool := p.disk.has (p.onDisk path)

/-- The path names a regular file under the root. -/
def hasFile (p : Project) (path : Text) : Bool := p.disk.hasFile (p.onDisk path)

/-- The first of some candidates that is a file. -/
def firstFile? (p : Project) (candidates : List Text) : Option Text := candidates.find? p.hasFile

end Project

end ImportTrail
