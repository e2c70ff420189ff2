import ImportTrail.IgnoreSet
import ImportTrail.Report
import ImportTrail.Settings.Listing

/-!
The command line. Words are read from left to right: flags with or without a value, positional
arguments, and the names of commands. The value of a flag and positional arguments are checked when
the next word begins something else, so a later fault may be found first. After a command has been
read its parts are checked for completeness, and it is run on a disk.
-/

namespace ImportTrail.CommandLine

open Text

/-! ### Faults of usage -/

/-- Why words are no command, or a wish for help. -/
inductive UsageFault where
  | help
  | version
  | helpForMissing
  | missingCommand
  | unknownCommand
  | missingArgument
  | unknownArgument
  | invalidValue
  | unparsedValue
  | conflict
  | tooManyValues
  deriving DecidableEq, Repr

/-- The name of a fault of usage. -/
def UsageFault.kind : UsageFault → Text
  | help => "DisplayHelp".toList
  | version => "DisplayVersion".toList
  | helpForMissing => "DisplayHelpOnMissingArgumentOrSubcommand".toList
  | missingCommand => "MissingSubcommand".toList
  | unknownCommand => "InvalidSubcommand".toList
  | missingArgument => "MissingRequiredArgument".toList
  | unknownArgument => "UnknownArgument".toList
  | invalidValue => "InvalidValue".toList
  | unparsedValue => "ValueValidation".toList
  | conflict => "ArgumentConflict".toList
  | tooManyValues => "TooManyValues".toList

/-! ### Words -/

/-- A flag. -/
inductive Flag where
  | verbose
  | help
  | version
  | maxDepth
  | ignore
  | strategy
  | format
  | noImports
  deriving DecidableEq, Repr

namespace Flag

/-- The long name of a flag. -/
def long : Flag → Text
  | verbose => "verbose".toList
  | help => "help".toList
  | version => "version".toList
  | maxDepth => "max-depth".toList
  | ignore => "ignore".toList
  | strategy => "strategy".toList
  | format => "format".toList
  | noImports => "no-imports".toList

/-- The letter of a flag that has one. -/
def short? : Flag → Option Char
  | verbose => some 'v'
  | help => some 'h'
  | version => some 'V'
  | _ => none

/-- The flag takes a value. -/
def takesValue : Flag → Bool
  | maxDepth | ignore | strategy | format => true
  | _ => false

/-- The flag may be given more than once. -/
def isRepeatable (f : Flag) : Bool := f == ignore

/-- What is wrong with a value of a flag. -/
def check (f : Flag) (value : Text) : Except UsageFault Unit :=
  match f with
  | maxDepth => if (Settings.number? value).isSome then .ok () else .error .unparsedValue
  | strategy => if (Strategy.ofLabel? value).isSome then .ok () else .error .invalidValue
  | format => if (Report.Format.ofLabel? value).isSome then .ok () else .error .invalidValue
  | _ => .ok ()

end Flag

/-- How many positional arguments a command takes. -/
inductive Positionals where
  | none
  /-- One path. -/
  | path
  /-- A path, then any number of texts. -/
  | pathAndTexts
  deriving DecidableEq, Repr

/-- What a command understands. -/
structure Vocabulary where
  flags : List Flag
  positionals : Positionals := .none
  commands : List Text := []

/-- A flag that waits for its value, or values that wait to be checked. -/
inductive Pending where
  | flag (f : Flag) (value? : Option Text)
  | path (value : Text)
  | texts (values : List Text)
  deriving DecidableEq, Repr

/-- What has been read of a command. -/
structure Words where
  flags : List (Flag × Text) := []
  path? : Option Text := none
  texts : List Text := []
  pending? : Option Pending := none

namespace Words

/-- Take a flag down. One that may not be repeated conflicts with itself. -/
def addFlag (w : Words) (f : Flag) (value : Text) : Except UsageFault Words :=
  if w.flags.any (·.1 == f) && !f.isRepeatable then .error .conflict
  else do
    f.check value
    return { w with flags := w.flags ++ [(f, value)], pending? := none }

/-- Check what is waiting. A path may not be empty. -/
def settle (w : Words) : Except UsageFault Words :=
  match w.pending? with
  | none => .ok w
  | some (.flag _ none) => .error .invalidValue
  | some (.flag f (some value)) => w.addFlag f value
  | some (.path value) =>
    if value.isEmpty then .error .invalidValue
    else .ok { w with path? := some value, pending? := none }
  | some (.texts values) => .ok { w with texts := w.texts ++ values, pending? := none }

/-- A flag without a value. -/
def switch (w : Words) (f : Flag) : Except UsageFault Words := do
  let w ← w.settle
  match f with
  | .help => .error .help
  | .version => .error .version
  | _ => w.addFlag f []

/-- A flag by its long name, with the value that is attached to it. -/
def longFlag (g : Vocabulary) (w : Words) (name : Text) (value? : Option Text) :
    Except UsageFault Words :=
  match g.flags.find? fun f => f.long == name with
  | none => .error .unknownArgument
  | some f =>
    if f.takesValue then do
      let w ← w.settle
      match value? with
      | some value => w.addFlag f value
      | none => return { w with pending? := some (.flag f none) }
    else if value?.isSome then .error .tooManyValues
    else w.switch f

/-- Flags by their letters. -/
def shortFlags (g : Vocabulary) (w : Words) : Text → Except UsageFault Words
  | [] => .ok w
  | c :: cs =>
    match g.flags.find? fun f => f.short? == some c with
    | none => .error .unknownArgument
    | some f => do shortFlags g (← w.switch f) cs

/-- A positional argument. -/
def positional (g : Vocabulary) (w : Words) (word : Text) : Except UsageFault Words :=
  let begun := w.path?.isSome || match w.pending? with
    | some (.path _) => true
    | _ => false
  match g.positionals, begun with
  | .none, _ => .error (if g.commands.isEmpty then .unknownArgument else .unknownCommand)
  | .path, true => .error .unknownArgument
  | .pathAndTexts, true =>
    match w.pending? with
    | some (.texts values) => .ok { w with pending? := some (.texts (values ++ [word])) }
    | _ => do
      let w ← w.settle
      return { w with pending? := some (.texts [word]) }
  | _, false => do
    let w ← w.settle
    return { w with pending? := some (.path word) }

/-- The flag at the end waits for its value. -/
def wantsValue? (w : Words) : Option Flag :=
  match w.pending? with
  | some (.flag f none) => some f
  | _ => none

end Words

/-- What stands before and after the first equals sign; nothing after it if there is none. -/
def cutValue (s : Text) : Text × Option Text :=
  let name := upTo '=' s
  match s.drop name.length with
  | _ :: value => (name, some value)
  | [] => (name, none)

/-- Where reading a command ends: with its last word, or with the name of a command in it. -/
inductive Ending where
  | complete (w : Words)
  | command (w : Words) (name : Text) (rest : List Text)

/-- Read the words of a command. After `--` all words are positional. -/
def readWords (g : Vocabulary) (w : Words) (onlyPositional : Bool) :
    List Text → Except UsageFault Ending
  | [] => do return .complete (← w.settle)
  | word :: rest =>
    if onlyPositional then
      if w.path?.isNone && w.pending?.isNone && g.commands.contains word then
        .error .unknownArgument
      else do readWords g (← w.positional g word) true rest
    else if w.wantsValue?.isNone && g.commands.contains word then .ok (.command w word rest)
    else match word with
      | ['-', '-'] => readWords g w true rest
      | '-' :: '-' :: flag =>
        let (name, value?) := cutValue flag
        do readWords g (← w.longFlag g name value?) false rest
      | '-' :: c :: cs => do readWords g (← w.shortFlags g (c :: cs)) false rest
      | _ =>
        match w.wantsValue? with
        | some f => readWords g { w with pending? := some (.flag f (some word)) } false rest
        | none => do readWords g (← w.positional g word) false rest

/-! ### Commands -/

/-- A collection: the project, the start files and what the flags say. -/
structure Collect where
  root : Text
  files : List Text
  overrides : Settings.Overrides
  format : Report.Format

/-- A command. -/
inductive Command where
  | collect (c : Collect)
  | showSettings (root? : Option Text)

/-- The directory that a command is about, as it is given. -/
def Command.directory : Command → Text
  | collect c => c.root
  | showSettings root? => root?.getD ['.']

/-- The words of the whole program. -/
def programVocabulary : Vocabulary :=
  { flags := [.verbose, .help, .version]
    commands := ["collect".toList, "config".toList, "help".toList] }

/-- The words of a collection. -/
def collectVocabulary : Vocabulary :=
  { flags := [.verbose, .help, .maxDepth, .ignore, .strategy, .format, .noImports]
    positionals := .pathAndTexts }

/-- The words about settings. -/
def configVocabulary : Vocabulary :=
  { flags := [.verbose, .help], commands := ["show".toList, "help".toList] }

/-- The words for the listing of settings. -/
def showVocabulary : Vocabulary := { flags := [.verbose, .help], positionals := .path }

/-- The commands below a command, by its name. -/
def subcommands (name : Text) : List Text :=
  if name = "config".toList then configVocabulary.commands else []

/-- A wish for help on a command has to name one. -/
def helpOn (known : List Text) : List Text → UsageFault
  | [] => .help
  | name :: rest => if known.contains name then helpOn (subcommands name) rest else .unknownCommand

/-- A command that consists of commands has not been given one. -/
def withoutCommand (w : Words) : UsageFault :=
  if w.flags.isEmpty then .helpForMissing else .missingCommand

/-- The value of a flag. -/
def Words.value? (w : Words) (f : Flag) : Option Text := (w.flags.find? (·.1 == f)).map (·.2)

/-- A collection from its words. -/
def collectOf (w : Words) : Except UsageFault Command :=
  match w.path?, w.texts with
  | some root, file :: files =>
    let overrides : Settings.Overrides :=
      { maxDepth? := (w.value? .maxDepth).bind Settings.number?
        strategy? := (w.value? .strategy).bind Strategy.ofLabel?
        noImports := (w.value? .noImports).isSome
        ignore := (w.flags.filter (·.1 == Flag.ignore)).map (·.2) }
    let format := ((w.value? .format).bind Report.Format.ofLabel?).getD .text
    .ok (.collect ⟨root, file :: files, overrides, format⟩)
  | _, _ => .error .missingArgument

/-- A command about settings from its words. -/
def configOf (words : List Text) : Except UsageFault Command := do
  match ← readWords configVocabulary {} false words with
  | .complete w => .error (withoutCommand w)
  | .command _ name rest =>
    if name = "help".toList then .error (helpOn configVocabulary.commands rest)
    else match ← readWords showVocabulary {} false rest with
      | .complete w => return .showSettings w.path?
      | .command _ _ _ => .error .unknownCommand

/-- The command that some words make. -/
def parse (words : List Text) : Except UsageFault Command := do
  match ← readWords programVocabulary {} false words with
  | .complete w => .error (withoutCommand w)
  | .command _ name rest =>
    if name = "help".toList then .error (helpOn programVocabulary.commands rest)
    else if name = "config".toList then configOf rest
    else match ← readWords collectVocabulary {} false rest with
      | .complete w => collectOf w
      | .command _ _ _ => .error .unknownCommand

/-! ### Running -/

/-- Why a run ends without output. -/
inductive Failure where
  | usage (f : UsageFault)
  | settings (f : Settings.Fault)
  | glob (e : Glob.Error)

/-- The words for a failure. -/
def Failure.message : Failure → Text
  | usage f => f.kind
  | settings f => f.message
  | glob e => e.message

/-- The surroundings of a run: the disk, the working directory and the environment. -/
structure Surroundings where
  disk : Disk
  directory : Text
  environment : Settings.Environment

namespace Surroundings

/-- The user's settings file: in the directory for settings if that is absolute, else below home. -/
def userFile? (s : Surroundings) : Option Text :=
  let file := "importcrawl/config.toml".toList
  match (s.environment "XDG_CONFIG_HOME".toList).filter Path.isAbsolute with
  | some dir => some (Path.append dir file)
  | none => (s.environment "HOME".toList).map fun home =>
      Path.append (Path.append home ".config".toList) file

/-- The absolute path of a directory that is named from the working directory. -/
def directory? (s : Surroundings) (path : Text) : Except Settings.Fault Text :=
  match s.disk.canonical? (Path.append s.directory path) with
  | some dir => .ok dir
  | none => .error (.noDirectory path)

/-- The settings for a directory. -/
def settings (s : Surroundings) (dir : Text) (o : Settings.Overrides) :
    Except Settings.Fault Settings.Resolved :=
  Settings.resolve s.disk dir o s.userFile? s.environment

end Surroundings

/-- A crawler with given settings. -/
def crawlerOf (p : Project) (v : Settings.Values) : Except Glob.Error Crawler := do
  let set ← IgnoreSet.ofPatterns v.ignore
  return { project := p, maxDepth := v.maxDepth, strategy := v.strategy,
           read := fun path => p.disk.source? v.maxFileSize (p.onDisk path),
           ignores := set.ignores }

/-- The files that are reached from some start files under given settings, and the counters. A
crawl that is turned off reaches nothing and does not look at the patterns. -/
def collectFiles (p : Project) (v : Settings.Values) (starts : List Text) :
    Except Glob.Error (List Text × Option Stats) :=
  if v.enabled then do
    let o := (← crawlerOf p v).crawl starts
    return (o.files, some o.stats)
  else .ok ([], none)

/-- The output of a collection. -/
def Collect.run (c : Collect) (s : Surroundings) : Except Failure Text := do
  let root ← (s.directory? c.root).mapError .settings
  let settings ← (s.settings root c.overrides).mapError .settings
  let (files, stats?) ← (collectFiles ⟨s.disk, root⟩ settings.values c.files).mapError .glob
  return (⟨root, c.files, settings.values.maxDepth, files, stats?⟩ : Report.Content).render c.format

/-- The output of a command. -/
def Command.run (c : Command) (s : Surroundings) : Except Failure Text :=
  match c with
  | .collect c => c.run s
  | .showSettings _ => do
    let dir ← (s.directory? c.directory).mapError .settings
    return (← (s.settings dir {}).mapError .settings).listing

/-- The output of the program for some words. -/
def run (words : List Text) (s : Surroundings) : Except Failure Text := do
  let c ← (parse words).mapError .usage
  c.run s

end ImportTrail.CommandLine
