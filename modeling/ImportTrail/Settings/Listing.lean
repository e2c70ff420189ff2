import ImportTrail.Settings.Resolve

/-!
The listing of settings: the files that were read, and each key with its value and its source.
-/

namespace ImportTrail.Settings

open Text

/-- The value of a key as it is listed. -/
def valueText (v : Values) (key : Text) : Text :=
  if key = Key.enabled.text then (toString v.enabled).toList
  else if key = Key.maxDepth.text then ofNat v.maxDepth
  else if key = Key.maxFileSize.text then ofNat v.maxFileSize
  else if key = Key.strategy.text then v.strategy.label
  else if key = Key.ignore.text then quotedList v.ignore
  else "(unknown)".toList

/-- The files that were read, numbered from one. -/
def fileLines (files : List Text) : List Text :=
  (files.zipIdx 1).map fun (path, i) => "  ".toList ++ ofNat i ++ ". ".toList ++ path

/-- The listing of all settings with their sources. -/
def Resolved.listing (r : Resolved) : Text :=
  let files :=
    if r.loadedFiles.isEmpty then ["Loaded config files: (none)".toList]
    else "Loaded config files:".toList :: fileLines r.loadedFiles
  let settings := r.provenance.entries.map fun (key, source) =>
    "  ".toList ++ key ++ ": ".toList ++ valueText r.values key ++ " <- ".toList ++ source.text
  (files ++ [[]] ++ ["Resolved settings:".toList] ++ settings).flatMap fun l => l ++ ['\n']

end ImportTrail.Settings
