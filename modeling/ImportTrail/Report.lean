import ImportTrail.Crawl

/-!
Reports of a crawl: one path per line, or an object in JSON over several lines with two blanks for
each level.
-/

namespace ImportTrail

open Text

/-- The form of a report. -/
inductive Report.Format where
  | text
  | json
  deriving DecidableEq, Repr

namespace Report

/-- The text of a form. -/
def Format.label : Format → Text
  | text => "text".toList
  | json => "json".toList

/-- The form with exactly this text. -/
def Format.ofLabel? (s : Text) : Option Format := [Format.text, .json].find? fun f => f.label == s

/-- What a report says. Without counters the crawl was turned off. -/
structure Content where
  root : Text
  startFiles : List Text
  maxDepth : Nat
  files : List Text
  stats? : Option Stats

/-- Lines, each with its end. -/
def lines (ls : List Text) : Text := ls.flatMap fun l => l ++ ['\n']

/-! ### JSON -/

/-- A value of the kinds that reports use. -/
inductive Json where
  | string (s : Text)
  | number (n : Nat)
  | strings (l : List Text)
  | numbers (fields : List (Text × Nat))

/-- A control character by its code in four digits. -/
def controlCode (c : Char) : Text :=
  let ds := Nat.toDigits 16 c.toNat
  "\\u".toList ++ List.replicate (4 - ds.length) '0' ++ ds

/-- A character between the quotes of a string. -/
def escapeJson (c : Char) : Text :=
  if c = '"' ∨ c = '\\' then ['\\', c]
  else if c = '\n' then ['\\', 'n']
  else if c = '\r' then ['\\', 'r']
  else if c = '\t' then ['\\', 't']
  else if c = '\x08' then ['\\', 'b']
  else if c = '\x0c' then ['\\', 'f']
  else if c.toNat < 32 then controlCode c
  else [c]

/-- A string in quotes. -/
def jsonString (s : Text) : Text := ['"'] ++ s.flatMap escapeJson ++ ['"']

/-- The blanks of a level. -/
def indent (level : Nat) : Text := List.replicate (2 * level) ' '

/-- Parts of a list or an object, each on a line of its own one level deeper; nothing between the
brackets if there are none. -/
def bracketed (level : Nat) (opening closing : Char) (parts : List Text) : Text :=
  if parts.isEmpty then [opening, closing]
  else
    let sep := ',' :: '\n' :: indent (level + 1)
    [opening, '\n'] ++ indent (level + 1) ++ joinWith sep parts ++ ['\n'] ++ indent level ++
      [closing]

/-- A field of an object. -/
def jsonField (key value : Text) : Text := jsonString key ++ [':', ' '] ++ value

/-- A value at a level. -/
def Json.text (level : Nat) : Json → Text
  | .string s => jsonString s
  | .number n => ofNat n
  | .strings l => bracketed level '[' ']' (l.map jsonString)
  | .numbers fs => bracketed level '\x7b' '\x7d' (fs.map fun (k, n) => jsonField k (ofNat n))

/-- The counters as fields. -/
def statsFields (s : Stats) : List (Text × Nat) :=
  [("files_read".toList, s.filesRead), ("nodes_skipped".toList, s.nodesSkipped),
    ("unresolved_imports".toList, s.unresolvedImports), ("ignored_imports".toList, s.ignoredImports)]

/-- The fields of a report. -/
def Content.fields (c : Content) : List (Text × Json) :=
  [("root".toList, .string c.root), ("start_files".toList, .strings c.startFiles),
    ("max_depth".toList, .number c.maxDepth), ("files".toList, .strings c.files)] ++
    (c.stats?.map fun s => ("stats".toList, Json.numbers (statsFields s))).toList

/-- A report in a form. -/
def Content.render (c : Content) : Format → Text
  | .text => lines c.files
  | .json =>
    bracketed 0 '\x7b' '\x7d' (c.fields.map fun (k, v) => jsonField k (v.text 1)) ++ ['\n']

end Report

end ImportTrail
