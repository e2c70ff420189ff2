import ImportTrail.Settings.Assignment
import ImportTrail.Settings.Fault

/-!
The layers of the settings: a file, the environment and the command line, each a list of assignments
with their sources. A value that cannot be read makes the whole layer an error.
-/

namespace ImportTrail.Settings

open Text

/-! ### Reading values -/

/-- A natural number below 2 ^ 64: digits, with a plus sign in front or not. -/
def number? (s : Text) : Option Nat :=
  let ds := match s with
    | '+' :: r => r
    | _ => s
  if ds.isEmpty || !ds.all isDigit then none
  else
    let n := Toml.digitsValue 10 ds
    if n < Nat.pow 2 64 then some n else none

/-- A word for true or false, in any case and with blanks around it. -/
def flag? (s : Text) : Option Bool :=
  let low := toLowerAscii (trim s)
  if ["1".toList, "true".toList, "yes".toList, "on".toList].contains low then some true
  else if ["0".toList, "false".toList, "no".toList, "off".toList].contains low then some false
  else none

/-- A depth has to be positive. -/
def checkDepth (source : Source) (n : Nat) : Except Fault Nat :=
  if n = 0 then .error (.zeroDepth source) else .ok n

/-- A strategy has to be known. -/
def checkStrategy (source : Source) (s : Text) : Except Fault Strategy :=
  match Strategy.ofSetting? s with
  | some x => .ok x
  | none => .error (.unknownStrategy source s)

/-- What an option gives, or nothing. -/
def fromOption {α : Type} (x : Option α) (f : α → Except Fault (Assignment × Source)) :
    Except Fault Layer :=
  match x with
  | none => .ok []
  | some a => do return [← f a]

/-! ### Layers -/

/-- The layer of some patterns; no patterns make no assignment. -/
def patternLayer (source : Source) (patterns : List Text) : Layer :=
  if patterns.isEmpty then [] else [(.ignore patterns, source)]

/-- The layer of a file. -/
def fileLayer (source : Source) (f : FileSettings) : Except Fault Layer := do
  let enabled ← fromOption f.enabled? fun b => .ok (.enabled b, source)
  let depth ← fromOption f.maxDepth? fun n => do return (.maxDepth (← checkDepth source n), source)
  let size ← fromOption f.maxFileSize? fun n => .ok (.maxFileSize n, source)
  let strategy ← fromOption f.strategy? fun s => do
    return (.strategy (← checkStrategy source s), source)
  return enabled ++ depth ++ size ++ strategy ++ patternLayer source f.ignore

/-- The variables of the environment. -/
abbrev Environment := Text → Option Text

/-- The variable for the depth. -/
def depthVariable : Text := "IMPORTCRAWL_MAX_DEPTH".toList

/-- The variable that turns the crawl on or off. -/
def enabledVariable : Text := "IMPORTCRAWL_ENABLED".toList

/-- The variable for the strategy. -/
def strategyVariable : Text := "IMPORTCRAWL_STRATEGY".toList

/-- The layer of the environment. -/
def environmentLayer (env : Environment) : Except Fault Layer := do
  let depth ← fromOption (env depthVariable) fun s =>
    let source := Source.environment depthVariable
    match number? (trim s) with
    | none => .error (.noNumber source s)
    | some n => do return (.maxDepth (← checkDepth source n), source)
  let enabled ← fromOption (env enabledVariable) fun s =>
    let source := Source.environment enabledVariable
    match flag? s with
    | none => .error (.noFlag source s)
    | some b => .ok (.enabled b, source)
  let strategy ← fromOption (env strategyVariable) fun s =>
    let source := Source.environment strategyVariable
    do return (.strategy (← checkStrategy source s), source)
  return depth ++ enabled ++ strategy

/-- What the command line sets. -/
structure Overrides where
  maxDepth? : Option Nat := none
  strategy? : Option Strategy := none
  noImports : Bool := false
  ignore : List Text := []
  deriving DecidableEq, Repr

/-- The layer of the command line. It can only turn the crawl off. -/
def overrideLayer (o : Overrides) : Except Fault Layer := do
  let depth ← fromOption o.maxDepth? fun n =>
    let source := Source.flag "--max-depth".toList
    do return (.maxDepth (← checkDepth source n), source)
  let strategy ← fromOption o.strategy? fun s => .ok (.strategy s, .flag "--strategy".toList)
  let off : Layer := if o.noImports then [(.enabled false, .flag "--no-imports".toList)] else []
  return depth ++ strategy ++ off ++ patternLayer (.flag "--ignore".toList) o.ignore

end ImportTrail.Settings
