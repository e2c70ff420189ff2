import ImportTrail.Proofs.Python.Scan

/-!
Scanning Python text after text. Where no statement is on its way at the end of a text, nothing of it reaches what follows.

* `Pending.after`, `completed` — the statement on its way behind some lines, and the lines that are complete by then;
* `push_cases` — what one more line can do;
* `Pending.Settled`, `Settled.push`, `settled_after` — parentheses are open only in a statement that is on its way;
* `joinLines_append`, `map_clean_splitOn` — lines are put together part by part, and which lines a text in front gives;
* `Closed`, `specifiers_append` — behind a text that leaves nothing on its way, scanning begins anew;
* `specifiers_compose` — so a statement is found whatever complete text precedes it.
-/

namespace ImportTrail.Scan.Python

open Text ImportTrail.Python

variable {p : Pending} {a s : Text}

/-! ### The state behind some lines -/

/-- The statement on its way behind some lines. -/
def Pending.after (p : Pending) (raws : List Text) : Pending := raws.foldl (fun p raw => (p.push raw).1) p

/-- The lines that are complete behind some lines. -/
def completed (p : Pending) : List Text → List Text
  | [] => []
  | raw :: raws => (p.push raw).2.toList ++ completed (p.push raw).1 raws

/-- One more line is complete by itself, or goes on with a statement, or completes one. -/
theorem push_cases (p : Pending) (x : Text) :
    (p.text = [] ∧ p.push x = (p, some (clean x))) ∨ (∃ q, q.text ≠ [] ∧ p.push x = (q, none)) ∨
      ∃ line, p.push x = (.none, some line) := by
  by_cases hbegins : p.text.isEmpty = false ∨ beginsImport (clean x) = true
  · right
    rw [push_eq hbegins]
    dsimp only
    split
    · refine Or.inl ⟨_, ?_, rfl⟩
      -- a line that begins an import is not empty, even without its backslashes
      rcases hbegins with htext | hbegins
      · simp [List.isEmpty_eq_false_iff.1 htext]
      · simp [bare_ne_nil hbegins]
    · exact Or.inr ⟨_, rfl⟩
  · rw [not_or, Bool.not_eq_false, Bool.not_eq_true] at hbegins
    obtain ⟨htext, hbegins⟩ := hbegins
    have hnew : (p.text.isEmpty && !beginsImport (clean x)) = true := by rw [htext, hbegins]; rfl
    refine Or.inl ⟨List.isEmpty_iff.1 htext, ?_⟩
    rw [clean] at hnew ⊢
    simp only [Pending.push, hnew, if_true]

/-- Parentheses are open only in a statement that is on its way. -/
def Pending.Settled (p : Pending) : Prop := p.text = [] → p.depth = 0

theorem Pending.Settled.push (h : p.Settled) (x : Text) : (p.push x).1.Settled := by
  rcases push_cases p x with ⟨-, hpush⟩ | ⟨q, hq, hpush⟩ | ⟨line, hpush⟩
  · rw [hpush]
    exact h
  · rw [hpush]
    exact fun hnil => absurd hnil hq
  · rw [hpush]
    exact fun _ => rfl

theorem Pending.Settled.after (h : p.Settled) (raws : List Text) : (p.after raws).Settled := by
  induction raws generalizing p with
  | nil => exact h
  | cons raw raws ih => exact ih (h.push raw)

/-- **After every line of a text**, parentheses are open only in a statement that is on its way. -/
theorem settled_after (raws : List Text) : (Pending.none.after raws).Settled :=
  Pending.Settled.after (fun _ => rfl) raws

theorem after_eq_none {raws : List Text} (h : (Pending.none.after raws).text = []) :
    Pending.none.after raws = .none := by
  have hdepth := settled_after raws h
  generalize Pending.none.after raws = q at h hdepth
  obtain ⟨text, depth⟩ := q
  obtain rfl : text = [] := h
  obtain rfl : depth = 0 := hdepth
  rfl

/-! ### Lines part by part -/

theorem joinLines_append (p : Pending) (xs ys : List Text) :
    joinLines p (xs ++ ys) = completed p xs ++ joinLines (p.after xs) ys := by
  induction xs generalizing p with
  | nil => rfl
  | cons x xs ih =>
    have hafter : p.after (x :: xs) = (p.push x).1.after xs := rfl
    rw [List.cons_append, joinLines, completed, hafter]
    split
    · rename_i q line hpush
      rw [hpush, ih q]
      rfl
    · rename_i q hpush
      rw [hpush, ih q]
      rfl

theorem joinLines_eq_completed {xs : List Text} (h : (p.after xs).text = []) : joinLines p xs = completed p xs := by
  have happend := joinLines_append p xs []
  rw [List.append_nil] at happend
  rw [happend, joinLines, h]
  exact List.append_nil _

/-- Without its comments, a text has the lines that lie between its line feeds, but for an empty one at the end. -/
theorem map_clean_splitOn (s : Text) :
    (splitOn '\n' s).map clean = (lines s).map clean ∨ (splitOn '\n' s).map clean = (lines s).map clean ++ [[]] := by
  have hreturn : ∀ xs : List Text, (xs.map withoutReturn).map clean = xs.map clean := by
    intro xs
    rw [List.map_map]
    exact List.map_congr_left fun x _ => clean_withoutReturn x
  rcases List.eq_nil_or_concat s with rfl | ⟨t, c, rfl⟩
  · exact Or.inr rfl
  · rw [List.concat_eq_append]
    by_cases hc : c = '\n'
    · subst hc
      have hlast : lines [] = [] := rfl
      refine Or.inr ?_
      rw [splitOn_append_sep, lines_append, hlast, List.append_nil, List.map_append, hreturn]
      rfl
    · obtain ⟨init, last, hpieces, hlines⟩ := lines_concat hc t
      refine Or.inl ?_
      rw [hpieces, hlines, List.map_append, List.map_append, hreturn]

/-! ### Texts one after the other -/

/-- No statement is on its way at the end of a text: none is left open by a parenthesis or by a backslash. -/
def Closed (s : Text) : Prop := (Pending.none.after (lines s)).text = []

instance : DecidablePred Closed := fun s => inferInstanceAs (Decidable ((Pending.none.after (lines s)).text = []))

theorem specifiers_eq (s : Text) : specifiers s = (joinLines .none (lines s)).flatMap lineImports := rfl

/-- The lines of a closed text, with an empty line behind them or not. -/
theorem joinLines_closed {xs : List Text} (h : (Pending.none.after xs).text = []) {tail : List Text}
    (htail : tail = [] ∨ tail = [[]]) (ys : List Text) :
    (joinLines .none (xs ++ tail ++ ys)).flatMap lineImports =
      (joinLines .none xs).flatMap lineImports ++ (joinLines .none ys).flatMap lineImports := by
  rw [List.append_assoc, joinLines_append, after_eq_none h, joinLines_eq_completed h, List.flatMap_append]
  rcases htail with rfl | rfl
  · rfl
  · have hempty : joinLines .none ([[]] ++ ys) = [] :: joinLines .none ys := rfl
    have hnone : lineImports [] = [] := rfl
    rw [hempty, List.flatMap_cons, hnone, List.nil_append]

/-- **Behind a text that leaves nothing on its way, scanning begins anew.** -/
theorem specifiers_append (h : Closed a) (b : Text) : specifiers (a ++ '\n' :: b) = specifiers a ++ specifiers b := by
  have hpieces : ∃ tail, (tail = [] ∨ tail = [[]]) ∧
      (splitOn '\n' a).map clean = (lines a ++ tail).map clean := by
    rcases map_clean_splitOn a with hmap | hmap
    · exact ⟨[], Or.inl rfl, by rw [hmap, List.append_nil]⟩
    · exact ⟨[[]], Or.inr rfl, by rw [hmap, List.map_append]; rfl⟩
  obtain ⟨tail, htail, hmap⟩ := hpieces
  have hlines : joinLines .none (splitOn '\n' a ++ lines b) = joinLines .none (lines a ++ tail ++ lines b) :=
    joinLines_congr (by rw [List.map_append, hmap, ← List.map_append]) .none
  rw [specifiers_eq, joinLines_lines_append, hlines, joinLines_closed h htail, specifiers_eq, specifiers_eq]

theorem specifiers_logicalLine {xs : List Import} (h : LogicalLine xs s) (r : Text) :
    specifiers (s ++ '\n' :: r) = xs.flatMap Import.specifiers ++ specifiers r := by
  obtain ⟨line, hjoin, hline⟩ := joinLines_logicalLine h (lines r)
  rw [specifiers_eq, joinLines_lines_append, hjoin, List.flatMap_cons, hline, specifiers_eq]

/-- **Scanning goes statement by statement.** A text that leaves nothing on its way gives its own specifiers, whatever
follows, and what follows gives its own. After every line, parentheses are open only in a statement that is on its way. So
statements are found whatever complete text precedes them, at the end of a text and with any text behind them. -/
theorem specifiers_compose :
    (∀ a b, Closed a → specifiers (a ++ '\n' :: b) = specifiers a ++ specifiers b) ∧
    (∀ raws, (Pending.none.after raws).text = [] → (Pending.none.after raws).depth = 0) ∧
    (∀ a s xs, Closed a → Program xs s → specifiers (a ++ '\n' :: s) = specifiers a ++ xs.flatMap Import.specifiers) ∧
    (∀ a s xs r, Closed a → LogicalLine xs s → specifiers (a ++ '\n' :: (s ++ '\n' :: r)) =
      specifiers a ++ (xs.flatMap Import.specifiers ++ specifiers r)) := by
  refine ⟨fun a b h => specifiers_append h b, settled_after, fun a s xs ha h => ?_, fun a s xs r ha h => ?_⟩
  · rw [specifiers_append ha, specifiers_program h]
  · rw [specifiers_append ha, specifiers_logicalLine h]

/-- A text with an open parenthesis and a backslash that belong to no import, an import on two lines that closes more
parentheses than it opens, and a carriage return at the end. -/
def closedSample : Text := "x = f(\nimport a, \\\r\n b # (\nfrom . import (c,\n d)) # \\\ny = \\\r".toList

theorem specifiers_compose_sample :
    Closed closedSample ∧ specifiers (closedSample ++ '\n' :: sampleProgram) =
      ["a", "b", ".c", ".d", "g", "h", ".", "..j.k", "..j.l", "__future__", "h"].map String.toList := by
  have hclosed : Closed closedSample := by decide
  have hfound : specifiers closedSample = ["a", "b", ".c", ".d"].map String.toList := by decide
  refine ⟨hclosed, ?_⟩
  rw [specifiers_compose.2.2.1 _ _ _ hclosed sampleProgram_spelled, hfound]
  decide

end ImportTrail.Scan.Python
