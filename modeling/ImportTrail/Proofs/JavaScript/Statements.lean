import ImportTrail.Imports
import ImportTrail.Proofs.Text.Pieces

/-!
Statements of JavaScript that import something, each on lines of its own.

* `Imported`, `Exported` — what may stand between `import` or `export` and `from`;
* `Statement`, `Source` — the texts of a statement and of a sequence of statements, with the specifiers that they import;
* `Quiet` — texts without quotes, semicolons and parentheses, as all these are;
* `OpensWord` — texts behind which a word begins, as the ones before `from` are.
-/

namespace ImportTrail.JavaScript

open Text Scan

/-! ### Statements -/

/-- A character of a name. -/
def isNameChar (c : Char) : Bool := isLetter c || isDigit c || c == '_' || c == '$'

/-- A name. Words of the language count, too. -/
def IsName (n : Text) : Prop := n ≠ [] ∧ ∀ c ∈ n, isNameChar c = true

instance : DecidablePred IsName := fun n =>
  decidable_of_iff (n ≠ [] ∧ n.all isNameChar = true) (and_congr_right fun _ => List.all_eq_true)

/-- A blank between words: a space, a tab, an end of a line or one from beyond ASCII. That it is no character of a word
is said here, for the table of these is long. -/
def isSpacing (c : Char) : Bool := isBlank c && !isWord c

/-- A text of blanks. -/
def Spacing (b : Text) : Prop := ∀ c ∈ b, isSpacing c = true

instance : DecidablePred Spacing := fun b => decidable_of_iff (b.all isSpacing = true) List.all_eq_true

/-- Blanks that keep two words apart. -/
def Break (b : Text) : Prop := Spacing b ∧ b ≠ []

/-- A name in braces, with the name that it is given or not. -/
inductive Member : Text → Prop
  | plain {n : Text} : IsName n → Member n
  | renamed {n b b' m : Text} : IsName n → Break b → Break b' → IsName m →
      Member (n ++ (b ++ ("as".toList ++ (b' ++ m))))

/-- What stands in braces: names with commas between them. A comma may stand behind the last one. -/
inductive Members : Text → Prop
  | none {b : Text} : Spacing b → Members b
  | last {b e b' : Text} : Spacing b → Member e → Spacing b' → Members (b ++ (e ++ b'))
  | more {b e b' s : Text} : Spacing b → Member e → Spacing b' → Members s → Members (b ++ (e ++ (b' ++ ',' :: s)))

/-- Names in braces. -/
inductive Braced : Text → Prop
  | mk {e : Text} : Members e → Braced ('\x7b' :: (e ++ ['\x7d']))

/-- Everything under one name, with the blanks behind it. -/
inductive Namespace : Text → Prop
  | mk {b₁ b₂ n b₃ : Text} : Spacing b₁ → Break b₂ → IsName n → Break b₃ →
      Namespace ('*' :: (b₁ ++ ("as".toList ++ (b₂ ++ (n ++ b₃)))))

/-- What an import names, with the blanks behind it. -/
inductive Imported : Text → Prop
  | default {n b : Text} : IsName n → Break b → Imported (n ++ b)
  | named {s b : Text} : Braced s → Spacing b → Imported (s ++ b)
  | all {s : Text} : Namespace s → Imported s
  | both {n b₁ b₂ s b₃ : Text} : IsName n → Spacing b₁ → Spacing b₂ → Braced s → Spacing b₃ →
      Imported (n ++ (b₁ ++ ',' :: (b₂ ++ (s ++ b₃))))
  | types {b₁ s b₂ : Text} : Spacing b₁ → Braced s → Spacing b₂ → Imported ("type".toList ++ (b₁ ++ (s ++ b₂)))

/-- What an export names, with the blanks behind it. -/
inductive Exported : Text → Prop
  | all {b : Text} : Spacing b → Exported ('*' :: b)
  | under {s : Text} : Namespace s → Exported s
  | named {s b : Text} : Braced s → Spacing b → Exported (s ++ b)

/-- A specifier: not empty, without quotes and blanks. -/
def IsSpecifier (x : Text) : Prop := x ≠ [] ∧ ∀ c ∈ x, isQuote c = false ∧ isBlank c = false

instance : DecidablePred IsSpecifier := fun x =>
  decidable_of_iff (x ≠ [] ∧ x.all (fun c => !isQuote c && !isBlank c) = true)
    (and_congr_right fun _ => by simp only [List.all_eq_true, Bool.and_eq_true, Bool.not_eq_true'])

/-- A specifier in quotes of either kind. -/
inductive InQuotes (x : Text) : Text → Prop
  | mk {q : Char} : IsSpecifier x → isQuote q = true → InQuotes x (q :: (x ++ [q]))

/-- A specifier, and the text of a statement that imports it. -/
inductive Statement (x : Text) : Text → Prop
  | imported {b t b' s : Text} : Break b → Imported t → Spacing b' → InQuotes x s →
      Statement x ("import".toList ++ (b ++ (t ++ ("from".toList ++ (b' ++ s)))))
  | bare {b s : Text} : Break b → InQuotes x s → Statement x ("import".toList ++ (b ++ s))
  | required {b n b₁ b₂ b₃ s b₄ : Text} : Break b → IsName n → Spacing b₁ → Spacing b₂ → Spacing b₃ → InQuotes x s →
      Spacing b₄ → Statement x
        ("const".toList ++ (b ++ (n ++ (b₁ ++ '=' :: (b₂ ++ ("require(".toList ++ (b₃ ++ (s ++ (b₄ ++ [')'])))))))))
  | exported {b t b' s : Text} : Break b → Exported t → Spacing b' → InQuotes x s →
      Statement x ("export".toList ++ (b ++ (t ++ ("from".toList ++ (b' ++ s)))))

/-- The specifiers of some statements in their order, and a text of the statements. Each ends with a semicolon and the
line; it may be indented, and empty lines may stand before it. -/
inductive Source : List Text → Text → Prop
  | nil {b : Text} : Spacing b → Source [] b
  | cons {b x s r : Text} {xs : List Text} : Spacing b → Statement x s → Source xs r →
      Source (x :: xs) (b ++ (s ++ ';' :: '\n' :: r))

/-! ### Quiet texts -/

variable {b e n s t : Text} {c : Char}

/-- The characters that end the search for a specifier or begin one. -/
def loud : List Char := ['\'', '"', ';', '(']

/-- A text without these characters. -/
def Quiet (s : Text) : Prop := ∀ c ∈ s, c ∉ loud

instance : DecidablePred Quiet := fun s =>
  decidable_of_iff (s.all (fun c => !loud.contains c) = true)
    (by simp only [Quiet, List.all_eq_true, Bool.not_eq_true', List.contains_eq_mem, decide_eq_false_iff_not])

theorem quiet_nil : Quiet [] := by simp [Quiet]

theorem Quiet.append (hs : Quiet s) (ht : Quiet t) : Quiet (s ++ t) :=
  fun c hc => (List.mem_append.1 hc).elim (hs c) (ht c)

theorem Quiet.cons (hc : c ∉ loud) (hs : Quiet s) : Quiet (c :: s) := List.forall_mem_cons.2 ⟨hc, hs⟩

theorem quiet_of_forall {p : Char → Bool} (hp : loud.any p = false) (hs : ∀ c ∈ s, p c = true) : Quiet s := by
  intro c hc hloud
  exact List.any_eq_false.1 hp c hloud (hs c hc)

theorem quiet_of_spacing (hb : Spacing b) : Quiet b := quiet_of_forall rfl hb

theorem IsName.quiet (hn : IsName n) : Quiet n := quiet_of_forall rfl hn.2

theorem Member.quiet (he : Member e) : Quiet e := by
  cases he with
  | plain hn => exact hn.quiet
  | renamed hn hb hb' hm =>
    exact hn.quiet.append ((quiet_of_spacing hb.1).append
      ((by decide : Quiet "as".toList).append ((quiet_of_spacing hb'.1).append hm.quiet)))

theorem Members.quiet (he : Members e) : Quiet e := by
  induction he with
  | none hb => exact quiet_of_spacing hb
  | last hb he hb' => exact (quiet_of_spacing hb).append (he.quiet.append (quiet_of_spacing hb'))
  | more hb he hb' _ ih =>
    exact (quiet_of_spacing hb).append (he.quiet.append ((quiet_of_spacing hb').append (.cons (by decide) ih)))

theorem Braced.quiet (hs : Braced s) : Quiet s := by
  cases hs with
  | mk he => exact .cons (by decide) (he.quiet.append (.cons (by decide) quiet_nil))

theorem Namespace.quiet (hs : Namespace s) : Quiet s := by
  cases hs with
  | mk hb₁ hb₂ hn hb₃ =>
    exact .cons (by decide) ((quiet_of_spacing hb₁).append ((by decide : Quiet "as".toList).append
      ((quiet_of_spacing hb₂.1).append (hn.quiet.append (quiet_of_spacing hb₃.1)))))

theorem Imported.quiet (ht : Imported t) : Quiet t := by
  cases ht with
  | default hn hb => exact hn.quiet.append (quiet_of_spacing hb.1)
  | named hs hb => exact hs.quiet.append (quiet_of_spacing hb)
  | all hs => exact hs.quiet
  | both hn hb₁ hb₂ hs hb₃ =>
    exact hn.quiet.append ((quiet_of_spacing hb₁).append (.cons (by decide) ((quiet_of_spacing hb₂).append
      (hs.quiet.append (quiet_of_spacing hb₃)))))
  | types hb₁ hs hb₂ =>
    exact (by decide : Quiet "type".toList).append ((quiet_of_spacing hb₁).append (hs.quiet.append (quiet_of_spacing hb₂)))

theorem Exported.quiet (ht : Exported t) : Quiet t := by
  cases ht with
  | all hb => exact .cons (by decide) (quiet_of_spacing hb)
  | under hs => exact hs.quiet
  | named hs hb => exact hs.quiet.append (quiet_of_spacing hb)

/-! ### Where a word begins -/

theorem isBlank_of_isSpacing (h : isSpacing c = true) : isBlank c = true := (Bool.and_eq_true_iff.1 h).1

theorem Spacing.blank (hb : Spacing b) : Blank b := fun c hc => isBlank_of_isSpacing (hb c hc)

theorem isWord_of_isSpacing (h : isSpacing c = true) : isWord c = false := by
  simpa using (Bool.and_eq_true_iff.1 h).2

/-- A word may begin behind the text. -/
def OpensWord (t : Text) : Prop := ∃ u c, t = u ++ [c] ∧ isWord c = false

theorem OpensWord.append (ht : OpensWord t) (s : Text) : OpensWord (s ++ t) := by
  obtain ⟨u, c, rfl, hc⟩ := ht
  exact ⟨s ++ u, c, (List.append_assoc _ _ _).symm, hc⟩

theorem opensWord_concat (hc : isWord c = false) (s : Text) : OpensWord (s ++ [c]) := ⟨s, c, rfl, hc⟩

theorem Break.opensWord (hb : Break b) : OpensWord b := by
  obtain ⟨hspacing, hne⟩ := hb
  obtain ⟨u, c, rfl⟩ := (List.eq_nil_or_concat' b).resolve_left hne
  exact opensWord_concat (isWord_of_isSpacing (hspacing c (by simp))) u

theorem OpensWord.append_spacing (hs : OpensWord s) (hb : Spacing b) : OpensWord (s ++ b) := by
  by_cases hne : b = []
  · rwa [hne, List.append_nil]
  · exact (Break.opensWord ⟨hb, hne⟩).append s

theorem Braced.opensWord (hs : Braced s) : OpensWord s := by
  cases hs with
  | mk _ => exact opensWord_concat (by decide) (_ :: _)

theorem Namespace.opensWord (hs : Namespace s) : OpensWord s := by
  cases hs with
  | @mk b₁ b₂ n b₃ hb₁ hb₂ hn hb₃ =>
    exact (((hb₃.opensWord.append n).append b₂).append "as".toList).append ('*' :: b₁)

theorem Imported.opensWord (ht : Imported t) : OpensWord t := by
  cases ht with
  | default hn hb => exact hb.opensWord.append _
  | named hs hb => exact hs.opensWord.append_spacing hb
  | all hs => exact hs.opensWord
  | @both n b₁ b₂ s b₃ hn hb₁ hb₂ hs hb₃ =>
    exact ((((hs.opensWord.append_spacing hb₃).append b₂).append [',']).append b₁).append n
  | types hb₁ hs hb₂ => exact ((hs.opensWord.append_spacing hb₂).append _).append _

theorem Exported.opensWord (ht : Exported t) : OpensWord t := by
  cases ht with
  | all hb => exact (opensWord_concat (by decide) []).append_spacing hb
  | under hs => exact hs.opensWord
  | named hs hb => exact hs.opensWord.append_spacing hb

end ImportTrail.JavaScript
