import ImportTrail.Toml.Document
import ImportTrail.Text.Quoted

/-!
Settings as a file gives them. A file is a TOML document whose one table holds some of five keys;
anything else is an error that says what was found and what was expected.
-/

namespace ImportTrail.Settings

open Text Toml

/-- The settings of a file, each one present or not. -/
structure FileSettings where
  enabled? : Option Bool := none
  maxDepth? : Option Nat := none
  maxFileSize? : Option Nat := none
  strategy? : Option Text := none
  ignore : List Text := []
  deriving DecidableEq, Repr

/-- Why a text gives no settings. -/
inductive FileFault where
  /-- The text is no document. -/
  | malformed
  /-- A list stands for the table and is too short. -/
  | tooShort
  /-- A key at the top level other than the one table. -/
  | unknownTable (key : Text)
  /-- A key of the table other than the five. -/
  | unknownKey (key : Text)
  /-- A value of the wrong type. -/
  | wrongType (found wanted : Text)
  /-- A negative number. -/
  | negative (number : Int) (wanted : Text)
  deriving DecidableEq, Repr

/-- A word in backquotes. -/
def backquoted (s : Text) : Text := '\x60' :: s ++ ['\x60']

/-- The name of the table. -/
def tableName : Text := "imports".toList

/-- The keys of the table. -/
def fileKeys : List Text :=
  ["enabled".toList, "max_depth".toList, "max_file_size".toList, "strategy".toList,
    "ignore".toList]

/-- The words for a fault; there are none where the text is no document. -/
def FileFault.message? : FileFault → Option Text
  | malformed => none
  | tooShort => none
  | unknownTable key =>
    some ("unknown field ".toList ++ backquoted key ++ ", expected ".toList ++ backquoted tableName)
  | unknownKey key =>
    some ("unknown field ".toList ++ backquoted key ++ ", expected one of ".toList ++
      joinWith [',', ' '] (fileKeys.map backquoted))
  | wrongType found wanted =>
    some ("invalid type: ".toList ++ found ++ ", expected ".toList ++ wanted)
  | negative number wanted =>
    some ("invalid value: integer ".toList ++ backquoted (toString number).toList ++
      ", expected ".toList ++ wanted)

/-- The words for a value that was found. -/
def describe : Value → Text
  | .string s => "string ".toList ++ quoted s
  | .integer i => "integer ".toList ++ backquoted (toString i).toList
  | .float x => "floating point ".toList ++ backquoted x.text
  | .boolean b => "boolean ".toList ++ backquoted (toString b).toList
  | .array _ => "sequence".toList
  | .table _ => "map".toList

/-- A boolean. -/
def asBool : Value → Except FileFault Bool
  | .boolean b => .ok b
  | v => .error (.wrongType (describe v) "a boolean".toList)

/-- A natural number, `wanted` being the name of its type. -/
def asNat (wanted : Text) : Value → Except FileFault Nat
  | .integer (.ofNat n) => .ok n
  | .integer i => .error (.negative i wanted)
  | v => .error (.wrongType (describe v) wanted)

/-- A text. -/
def asText : Value → Except FileFault Text
  | .string s => .ok s
  | v => .error (.wrongType (describe v) "a string".toList)

/-- A list of texts. -/
def asTexts : Value → Except FileFault (List Text)
  | .array vs => vs.mapM asText
  | v => .error (.wrongType (describe v) "a sequence".toList)

/-- The settings with the value of one more key. -/
def FileSettings.put (f : FileSettings) (key : Text) (v : Value) : Except FileFault FileSettings :=
  if key = "enabled".toList then do return { f with enabled? := some (← asBool v) }
  else if key = "max_depth".toList then do
    return { f with maxDepth? := some (← asNat "usize".toList v) }
  else if key = "max_file_size".toList then do
    return { f with maxFileSize? := some (← asNat "u64".toList v) }
  else if key = "strategy".toList then do return { f with strategy? := some (← asText v) }
  else if key = "ignore".toList then do return { f with ignore := ← asTexts v }
  else .error (.unknownKey key)

/-- The settings of the table. A list gives the values of the keys in order. -/
def FileSettings.ofValue : Value → Except FileFault FileSettings
  | .table es => es.foldlM (fun f (k, v) => f.put k v) {}
  | .array vs => do
    let f ← (fileKeys.zip vs).foldlM (fun f (k, v) => f.put k v) {}
    if vs.length < 4 then .error .tooShort else .ok f
  | v => .error (.wrongType (describe v) "struct ImportsFileConfig".toList)

/-- The settings of a text. -/
def FileSettings.ofText (s : Text) : Except FileFault FileSettings :=
  match Toml.parse? s with
  | none => .error .malformed
  | some es => es.foldlM (fun _ (k, v) =>
      if k = tableName then FileSettings.ofValue v else (.error (.unknownTable k) : Except _ _)) {}

end ImportTrail.Settings
