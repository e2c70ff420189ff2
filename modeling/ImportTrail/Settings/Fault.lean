import ImportTrail.Settings.File
import ImportTrail.Settings.Source

/-!
Why there are no settings, and the words for it.
-/

namespace ImportTrail.Settings

open Text

/-- The two kinds of settings files. -/
inductive FileKind where
  | user
  | project
  deriving DecidableEq, Repr

/-- The word for a kind of file. -/
def FileKind.text : FileKind → Text
  | user => "user".toList
  | project => "project".toList

/-- The source that a file of a kind is. -/
def FileKind.source : FileKind → Text → Source
  | user => .userFile
  | project => .projectFile

/-- Why there are no settings. -/
inductive Fault where
  | unreadable (kind : FileKind) (path : Text)
  | invalid (kind : FileKind) (path : Text) (fault : FileFault)
  | zeroDepth (source : Source)
  | unknownStrategy (source : Source) (text : Text)
  | noNumber (source : Source) (text : Text)
  | noFlag (source : Source) (text : Text)
  | noDirectory (path : Text)
  deriving DecidableEq, Repr

/-- The words for an unknown strategy. -/
def unknownStrategyMessage (s : Text) : Text := "unsupported extraction strategy: ".toList ++ s

/-- What is said of a fault. -/
def Fault.words : Fault → Text
  | unreadable kind path => "Could not read ".toList ++ kind.text ++ " config: ".toList ++ path
  | invalid kind path _ => "Invalid ".toList ++ kind.text ++ " config ".toList ++ path
  | zeroDepth source => source.text ++ ": max_depth must be at least 1".toList
  | unknownStrategy source s => source.text ++ ": ".toList ++ unknownStrategyMessage s
  | noNumber source s => source.text ++ ": expected a positive integer, got ".toList ++ quoted s
  | noFlag source s => source.text ++ ": expected true or false, got ".toList ++ quoted s
  | noDirectory path => "Invalid path: ".toList ++ path

/-- What is wrong inside a file, as far as there are words for it. -/
def Fault.reason? : Fault → Option Text
  | invalid _ _ fault => fault.message?
  | _ => none

/-- The message of a fault without what is wrong inside a file. -/
def Fault.summary (f : Fault) : Text := "Configuration error: ".toList ++ f.words

/-- The message of a fault. -/
def Fault.message (f : Fault) : Text :=
  f.summary ++ match f.reason? with
    | some reason => ": ".toList ++ reason
    | none => []

namespace Fault

variable (f : Fault)

theorem summary_prefix_message : f.summary <+: f.message := List.prefix_append _ _

/-- Every message says first that it is about the configuration. -/
theorem heading_prefix_message : "Configuration error: ".toList <+: f.message :=
  (List.prefix_append _ _).trans f.summary_prefix_message

/-- Of a file that is no settings file the message ends with what is wrong inside. -/
theorem reason_suffix_message {reason : Text} (h : f.reason? = some reason) : reason <:+ f.message := by
  rw [message, h]
  exact (List.suffix_append _ _).trans (List.suffix_append _ _)

/-- What a fault is said to be about stands in the message, behind the heading. -/
theorem message_of_infix_words {s : Text} (h : s <:+: f.words) :
    ∃ before after, f.message = "Configuration error: ".toList ++ before ++ s ++ after := by
  obtain ⟨before, after, hwords⟩ := h
  obtain ⟨rest, hrest⟩ := f.summary_prefix_message
  have hsummary : f.summary = "Configuration error: ".toList ++ (before ++ s ++ after) := by
    rw [hwords]
    rfl
  refine ⟨before, after ++ rest, ?_⟩
  rw [← hrest, hsummary]
  simp only [List.append_assoc]

example : (invalid .project "a.toml".toList (.unknownTable "crawl".toList)).message =
    "Configuration error: Invalid project config a.toml: unknown field `crawl`, expected `imports`".toList := by
  decide +kernel

end Fault

end ImportTrail.Settings
