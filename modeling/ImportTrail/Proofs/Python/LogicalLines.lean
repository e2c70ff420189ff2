import ImportTrail.Proofs.Python.Statements

/-!
Logical lines of Python that hold import statements: semicolons may stand between statements, and a backslash or an open
parenthesis lets a statement go on to the next line.

* `Gap` — blanks and lines that are continued, and between parentheses also comments and ends of lines;
* `Spells`, `Chain` — the texts of a statement and of statements with semicolons between, for the gaps that they may have;
* `LogicalLine`, `Program` — the texts of a logical line and of a sequence of logical lines;
* `Source.program` — statements that each begin on a line of their own are such a sequence.
-/

namespace ImportTrail.Python

open Text UseTree

/-- What may stand between two lexemes of a logical line: blanks, and backslashes with the ends of their lines. Inside of
parentheses, it may also be comments and other ends of lines. -/
inductive Gap : Bool → Text → Prop
  | nil {inside : Bool} : Gap inside []
  | blank {inside : Bool} {c : Char} {w : Text} : isLineBlank c = true → Gap inside w → Gap inside (c :: w)
  | continued {inside : Bool} {b w : Text} : Layout false b → Gap inside w → Gap inside ('\\' :: (b ++ '\n' :: w))
  | line {w : Text} : Gap true w → Gap true ('\n' :: w)
  | comment {x w : Text} : '\n' ∉ x → Gap true w → Gap true ('#' :: (x ++ '\n' :: w))

/-- The texts of a statement, for the gaps outside and inside of parentheses. -/
inductive Spells (gap : Bool → Text → Prop) : Import → Text → Prop
  | modules {xs : List ImportEntry} {w s : Text} : gap false w → EntriesIn (gap false) xs s →
      Spells gap (.modules xs) ("import ".toList ++ (w ++ s))
  | everything (o : Origin) {g w : Text} : gap false g → g ≠ [] → gap false w →
      Spells gap (.everything o) ("from ".toList ++ (o.text ++ (g ++ ("import ".toList ++ (w ++ ['*'])))))
  | bare (o : Origin) {xs : List ImportEntry} {g w s : Text} : gap false g → g ≠ [] → gap false w →
      EntriesIn (gap false) xs s →
      Spells gap (.members o xs) ("from ".toList ++ (o.text ++ (g ++ ("import ".toList ++ (w ++ s)))))
  | enclosed (o : Origin) {xs : List ImportEntry} {g w w' s e : Text} : gap false g → g ≠ [] → gap false w → gap true w' →
      EntriesIn (gap true) xs s → Ending (gap true) e →
      Spells gap (.members o xs)
        ("from ".toList ++ (o.text ++ (g ++ ("import ".toList ++ (w ++ '(' :: (w' ++ (s ++ (e ++ [')']))))))))

/-- Statements with semicolons between, and possibly one behind the last. -/
inductive Chain (gap : Bool → Text → Prop) : List Import → Text → Prop
  | one {x : Import} {s : Text} : Spells gap x s → Chain gap [x] s
  | ended {x : Import} {s w : Text} : Spells gap x s → gap false w → Chain gap [x] (s ++ (w ++ [';']))
  | cons {x : Import} {xs : List Import} {s w w' r : Text} : Spells gap x s → gap false w → gap false w' → Chain gap xs r →
      Chain gap (x :: xs) (s ++ (w ++ ';' :: (w' ++ r)))

/-- Statements with the rest of their last line, or a line without a statement. -/
inductive LogicalLine : List Import → Text → Prop
  | blank {e : Text} : Trailing e → LogicalLine [] e
  | statements {xs : List Import} {b s e : Text} : Layout false b → Chain Gap xs s → Trailing e →
      LogicalLine xs (b ++ (s ++ e))

/-- The texts of some logical lines. The last one may end or not. -/
inductive Program : List Import → Text → Prop
  | last {xs : List Import} {s : Text} : LogicalLine xs s → Program xs s
  | cons {xs ys : List Import} {s r : Text} : LogicalLine xs s → Program ys r → Program (xs ++ ys) (s ++ '\n' :: r)

/-! ### Statements on lines of their own -/

variable {w s : Text} {inside : Bool}

theorem Layout.gap (h : Layout inside w) : Gap inside w := by
  induction h with
  | nil => exact .nil
  | blank hc _ ih => exact .blank hc ih
  | line _ ih => exact .line ih
  | comment hx _ ih => exact .comment hx ih

theorem Written.spells {x : Statement} (h : Written x s) : Spells Gap x.toImport s := by
  have hgaps : ∀ {inside : Bool} {xs : List ImportEntry} {s : Text}, EntriesIn (Layout inside) xs s →
      EntriesIn (Gap inside) xs s := fun h => h.mono fun _ hw => hw.gap
  have hspace : Gap false [' '] := .blank rfl .nil
  cases h with
  | modules h => exact .modules (w := []) .nil (hgaps h)
  | everything m => exact .everything m.origin (g := [' ']) (w := []) hspace (by simp) .nil
  | bare m h => exact .bare m.origin (g := [' ']) (w := []) hspace (by simp) .nil (hgaps h)
  | enclosed m hw h he =>
    exact .enclosed m.origin (g := [' ']) (w := []) hspace (by simp) .nil hw.gap (hgaps h) (he.mono fun _ hw => hw.gap)

/-- Statements that each begin on a line of their own are logical lines. -/
theorem Source.program {xs : List Statement} (h : Source xs s) : Program (xs.map Statement.toImport) s := by
  have hline : ∀ {xs : List Statement} {s : Text}, Line xs s → LogicalLine (xs.map Statement.toImport) s := by
    intro xs s h
    cases h with
    | blank he => exact .blank he
    | statement h he => exact .statements (b := []) .nil (.one h.spells) he
  induction h with
  | last h => exact .last (hline h)
  | cons h _ ih =>
    rw [List.map_append]
    exact .cons (hline h) ih

/-! ### Ends of logical lines -/

section Ends

variable {gap : Bool → Text → Prop} {x : Import} {xs : List Import} {e : Text}

theorem Spells.exists_concat (h : Spells gap x s) : ∃ u c, s = u ++ [c] ∧ isBlank c = false := by
  have hentries : ∀ {i : Bool} {q : Text} {ys : List ImportEntry} (r : Text), EntriesIn (gap i) ys q →
      ∃ u c, r ++ q = u ++ [c] ∧ isBlank c = false := by
    intro i q ys r h
    obtain ⟨u, c, rfl, hc⟩ := h.exists_concat
    exact ⟨r ++ u, c, by simp, isBlank_of_isNameChar hc⟩
  cases h with
  | @modules ys w q _ h =>
    have := hentries ("import ".toList ++ w) h
    simpa using this
  | @everything o g w => exact ⟨"from ".toList ++ (o.text ++ (g ++ ("import ".toList ++ w))), '*', by simp, rfl⟩
  | @bare o ys g w q _ _ _ h =>
    have := hentries ("from ".toList ++ (o.text ++ (g ++ ("import ".toList ++ w)))) h
    simpa using this
  | @enclosed o ys g w w' q e =>
    exact ⟨"from ".toList ++ (o.text ++ (g ++ ("import ".toList ++ (w ++ '(' :: (w' ++ (q ++ e)))))), ')', by simp, rfl⟩

theorem Chain.exists_concat (h : Chain gap xs s) : ∃ u c, s = u ++ [c] ∧ isBlank c = false := by
  induction h with
  | one h => exact h.exists_concat
  | @ended x s w => exact ⟨s ++ w, ';', by simp, rfl⟩
  | @cons x xs s w w' r _ _ _ _ ih =>
    obtain ⟨u, c, rfl, hc⟩ := ih
    exact ⟨s ++ (w ++ ';' :: (w' ++ u)), c, by simp, hc⟩

theorem Trailing.notMem (he : Trailing e) : '\n' ∉ e := by
  cases he with
  | blanks hb => exact hb.notMem rfl
  | comment hb hx =>
    have := hb.notMem (c := '\n') rfl
    simp [this, hx]

/-- A logical line does not end with a line feed. -/
theorem LogicalLine.exists_concat (h : LogicalLine xs s) : s = [] ∧ xs = [] ∨ ∃ t c, s = t ++ [c] ∧ c ≠ '\n' := by
  have htrailing : ∀ {e : Text} (s : Text), Trailing e → e ≠ [] → ∃ t c, s ++ e = t ++ [c] ∧ c ≠ '\n' := by
    intro e s he hne
    rcases List.eq_nil_or_concat e with rfl | ⟨t, c, rfl⟩
    · exact absurd rfl hne
    · refine ⟨s ++ t, c, by simp, ?_⟩
      rintro rfl
      exact he.notMem (by simp)
  cases h with
  | blank he =>
    by_cases hne : s = []
    · exact .inl ⟨hne, rfl⟩
    · exact .inr (htrailing [] he hne)
  | @statements xs b s e _ h he =>
    by_cases hne : e = []
    · obtain ⟨u, c, rfl, hc⟩ := h.exists_concat
      refine .inr ⟨b ++ u, c, by simp [hne], ?_⟩
      rintro rfl
      cases hc
    · have := htrailing (b ++ s) he hne
      exact .inr (by simpa using this)

end Ends

end ImportTrail.Python
