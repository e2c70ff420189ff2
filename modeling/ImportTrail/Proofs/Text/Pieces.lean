import ImportTrail.Proofs.Text.Blanks

/-!
Texts cut into pieces and lines.

* `splitOn_append_sep`, `splitOn_joinWith` — cutting a text that is put together from pieces;
* `splitOn_eq_append` — the pieces of a text taken apart again;
* `splitOn_append_of_notMem`, `splitOn_front` — what is written at an end of a text goes to the last or first piece;
* `prefix_append_sep_iff` — a text without separators stands in front of the first of them, if in front at all;
* `lines_append`, `lines_joinWith` — the lines of a text are the pieces between line feeds, each without a carriage return
  at its end;
* `distinct_append` — leaving out what stands in a list before can be done part by part.
-/

namespace ImportTrail.Text

theorem splitOn_eq_list (sep : Char) (s : Text) : splitOn sep s = List.splitOn sep s := by
  induction s with
  | nil => rfl
  | cons c s ih =>
    rw [splitOn, ih, List.splitOn_cons_eq_if_modifyHead]
    by_cases h : c = sep
    · simp [h]
    · rw [if_neg h, if_neg (by simpa using h)]
      cases hs : List.splitOn sep s with
      | nil => exact absurd hs (List.splitOn_ne_nil sep s)
      | cons p ps => rfl

theorem splitOn_ne_nil (sep : Char) (s : Text) : splitOn sep s ≠ [] := by
  rw [splitOn_eq_list]
  exact List.splitOn_ne_nil sep s

theorem splitOn_append_sep (sep : Char) (s t : Text) :
    splitOn sep (s ++ sep :: t) = splitOn sep s ++ splitOn sep t := by
  simp only [splitOn_eq_list, List.splitOn_append_cons_self]

theorem splitOn_of_notMem {sep : Char} {s : Text} (h : sep ∉ s) : splitOn sep s = [s] := by
  rw [splitOn_eq_list]
  exact List.splitOn_eq_singleton h

theorem joinWith_splitOn (sep : Char) (s : Text) : joinWith [sep] (splitOn sep s) = s := by
  rw [joinWith, splitOn_eq_list]
  exact List.intercalate_splitOn sep

theorem eq_of_splitOn_singleton {sep : Char} {s p : Text} (h : splitOn sep s = [p]) : s = p := by
  rw [← joinWith_splitOn sep s, h]
  exact List.intercalate_singleton

theorem splitOn_joinWith {sep : Char} {ps : List Text} (hne : ps ≠ []) (h : ∀ p ∈ ps, sep ∉ p) :
    splitOn sep (joinWith [sep] ps) = ps := by
  rw [joinWith, splitOn_eq_list]
  exact List.splitOn_intercalate sep h hne

/-- But for the separator, the characters of a text are those of its pieces. -/
theorem mem_joinWith {sep c : Char} (hc : c ≠ sep) {ps : List Text} : c ∈ joinWith [sep] ps ↔ ∃ p ∈ ps, c ∈ p := by
  induction ps with
  | nil => simp [joinWith]
  | cons p ps ih =>
    cases ps with
    | nil => simp [joinWith, List.intercalate_singleton]
    | cons q ps =>
      rw [joinWith] at ih ⊢
      rw [List.intercalate_cons_cons, List.append_assoc, List.mem_append, List.mem_append, ih]
      simp [hc]

theorem notMem_of_mem_splitOn {sep : Char} {s piece : Text} (h : piece ∈ splitOn sep s) : sep ∉ piece := by
  induction s generalizing piece with
  | nil =>
    rw [splitOn, List.mem_singleton] at h
    simp [h]
  | cons c s ih =>
    rw [splitOn] at h
    by_cases hc : c = sep
    · rw [if_pos hc] at h
      rcases List.mem_cons.1 h with rfl | h
      · simp
      · exact ih h
    · rw [if_neg hc] at h
      obtain ⟨p, ps, hs⟩ := List.exists_cons_of_ne_nil (splitOn_ne_nil sep s)
      rw [hs] at h ih
      rcases List.mem_cons.1 h with rfl | h
      · have := ih List.mem_cons_self
        simp [this, Ne.symm hc]
      · exact ih (List.mem_cons_of_mem _ h)

theorem mem_of_mem_splitOn {sep c : Char} {s piece : Text} (hpiece : piece ∈ splitOn sep s) (hc : c ∈ piece) :
    c ∈ s := by
  induction s generalizing piece with
  | nil => simp_all [splitOn]
  | cons d s ih =>
    rw [splitOn] at hpiece
    split at hpiece
    · rcases List.mem_cons.1 hpiece with rfl | hpiece
      · cases hc
      · exact List.mem_cons_of_mem _ (ih hpiece hc)
    · obtain ⟨x, xs, hs⟩ := List.exists_cons_of_ne_nil (splitOn_ne_nil sep s)
      rw [hs] at hpiece ih
      rcases List.mem_cons.1 hpiece with rfl | hpiece
      · rcases List.mem_cons.1 hc with rfl | hc
        · exact List.mem_cons_self
        · exact List.mem_cons_of_mem _ (ih List.mem_cons_self hc)
      · exact List.mem_cons_of_mem _ (ih (List.mem_cons_of_mem _ hpiece) hc)

/-- Between two of the pieces stands a separator, and each side has its own pieces. -/
theorem splitOn_eq_append {sep : Char} {s : Text} {init rest : List Text} (h : splitOn sep s = init ++ rest)
    (hinit : init ≠ []) (hrest : rest ≠ []) :
    ∃ a b, s = a ++ sep :: b ∧ splitOn sep a = init ∧ splitOn sep b = rest := by
  have hpieces : ∀ p ∈ init ++ rest, sep ∉ p := fun p hp => notMem_of_mem_splitOn (h ▸ hp)
  refine ⟨joinWith [sep] init, joinWith [sep] rest, ?_, ?_, ?_⟩
  · rw [← joinWith_splitOn sep s, h, joinWith_append hinit hrest]
    simp
  · exact splitOn_joinWith hinit fun p hp => hpieces p (List.mem_append_left _ hp)
  · exact splitOn_joinWith hrest fun p hp => hpieces p (List.mem_append_right _ hp)

/-- A text without separators goes to the last piece. -/
theorem splitOn_append_of_notMem {sep : Char} {t : Text} (ht : sep ∉ t) (s : Text) :
    ∃ init last, splitOn sep s = init ++ [last] ∧ splitOn sep (s ++ t) = init ++ [last ++ t] := by
  induction s with
  | nil => exact ⟨[], [], rfl, splitOn_of_notMem ht⟩
  | cons c s ih =>
    obtain ⟨init, last, hs, hst⟩ := ih
    rw [List.cons_append, splitOn, splitOn, hs, hst]
    by_cases hc : c = sep
    · exact ⟨[] :: init, last, by simp [hc], by simp [hc]⟩
    · cases init with
      | nil => exact ⟨[], c :: last, by simp [hc], by simp [hc]⟩
      | cons p ps => exact ⟨(c :: p) :: ps, last, by simp [hc], by simp [hc]⟩

/-- A text without separators goes to the first piece. -/
theorem splitOn_front {sep : Char} {t : Text} (ht : sep ∉ t) (s : Text) :
    ∃ first rest, splitOn sep s = first :: rest ∧ splitOn sep (t ++ s) = (t ++ first) :: rest := by
  obtain ⟨first, rest, hs⟩ := List.exists_cons_of_ne_nil (splitOn_ne_nil sep s)
  refine ⟨first, rest, hs, ?_⟩
  induction t with
  | nil => exact hs
  | cons c t ih =>
    rw [List.mem_cons, not_or] at ht
    rw [List.cons_append, splitOn, if_neg (Ne.symm ht.1), ih ht.2]
    rfl

/-- The first piece is what stands in front of the first separator. -/
theorem splitOn_eq_cons (sep : Char) (s : Text) : ∃ rest, splitOn sep s = upTo sep s :: rest := by
  induction s with
  | nil => exact ⟨[], rfl⟩
  | cons c s ih =>
    obtain ⟨rest, hs⟩ := ih
    rw [splitOn, upTo]
    by_cases hc : c = sep
    · exact ⟨splitOn sep s, by simp [hc]⟩
    · exact ⟨rest, by simp [hc, hs, upTo]⟩

/-- Which texts without the separator stand in front does not depend on what is behind a separator. -/
theorem prefix_append_sep_iff {sep : Char} {x a b : Text} (hx : sep ∉ x) : x <+: a ++ sep :: b ↔ x <+: a := by
  constructor
  · rintro ⟨r, h⟩
    rcases List.append_eq_append_iff.1 h with ⟨a', rfl, -⟩ | ⟨y, rfl, hy⟩
    · exact List.prefix_append x a'
    · cases y with
      | nil => simp
      | cons d y =>
        obtain ⟨rfl, -⟩ := List.cons.inj hy
        exact absurd (List.mem_append_right a List.mem_cons_self) hx
  · intro h
    exact h.trans (List.prefix_append a _)

/-! ### Ends of texts -/

variable {c : Char} {s t : Text} {p : Char → Bool}

theorem dropEndWhile_eq_self (h : ∀ c ∈ s.getLast?, p c = false) : dropEndWhile p s = s := by
  rcases List.eq_nil_or_concat s with rfl | ⟨t, c, rfl⟩
  · rfl
  · have hc : p c = false := h c (by simp)
    simp [dropEndWhile, hc]

theorem dropEndWhile_append (h : ∀ c ∈ t.getLast?, p c = false) (s : Text) :
    dropEndWhile p (t ++ s) = t ++ dropEndWhile p s := by
  rcases List.eq_nil_or_concat t with rfl | ⟨t, c, rfl⟩
  · rfl
  · have hc : p c = false := h c (by simp)
    simp only [dropEndWhile, List.concat_eq_append, List.reverse_append, List.reverse_singleton]
    rw [List.dropWhile_append]
    split
    · rename_i hempty
      simp [List.isEmpty_iff.1 hempty, hc]
    · simp

theorem trimEnd_append_blank {b : Text} (hb : Blank b) (s : Text) : trimEnd (s ++ b) = trimEnd s := by
  rw [trimEnd, trimEnd, dropEndWhile, dropEndWhile, List.reverse_append,
    List.dropWhile_append_of_pos fun c hc => hb c (List.mem_reverse.1 hc)]

theorem trimEnd_blank (h : Blank s) : trimEnd s = [] := trimEnd_append_blank h []

theorem trimEnd_cons (hc : isBlank c = true) (s : Text) : trimEnd (c :: s) = if trimEnd s = [] then [] else c :: trimEnd s := by
  rw [trimEnd, trimEnd, dropEndWhile, dropEndWhile, List.reverse_cons, List.dropWhile_append]
  by_cases h : s.reverse.dropWhile isBlank = []
  · simp [h, hc]
  · simp [h]

/-- The characters up to a mark that stands behind a text without the mark. -/
theorem upTo_append {mark : Char} (ht : mark ∉ t) (s : Text) : upTo mark (t ++ s) = t ++ upTo mark s := by
  rw [upTo, List.takeWhile_append_of_pos]
  · rfl
  · intro c hc
    simp only [bne_iff_ne, ne_eq]
    rintro rfl
    exact ht hc

/-! ### Lines -/

/-- A line without the carriage return that may stand at its end. -/
def withoutReturn (s : Text) : Text := (before? ['\r'] s).getD s

theorem withoutReturn_cases (s : Text) : withoutReturn s = s ∨ s = withoutReturn s ++ ['\r'] := by
  rw [withoutReturn]
  cases h : before? ['\r'] s with
  | none => exact .inl rfl
  | some t => exact .inr (before?_eq_some.1 h)

theorem lines_append (s t : Text) : lines (s ++ '\n' :: t) = (splitOn '\n' s).map withoutReturn ++ lines t := by
  have hne := splitOn_ne_nil '\n' t
  rw [lines, splitOn_append_sep, List.dropLast_append_of_ne_nil hne, List.getLast?_append_of_ne_nil _ hne, List.map_append]
  simp only [lines]
  cases (splitOn '\n' t).getLast? with
  | none => rfl
  | some l =>
    cases l with
    | nil => rfl
    | cons c l => simp only [List.append_assoc]; rfl

/-- A text that does not end with a line feed. -/
theorem lines_concat (hc : c ≠ '\n') (s : Text) :
    ∃ init last, splitOn '\n' (s ++ [c]) = init ++ [last] ∧ lines (s ++ [c]) = init.map withoutReturn ++ [last] := by
  have hline : '\n' ∉ [c] := by simpa using Ne.symm hc
  obtain ⟨init, last, -, hlast⟩ := splitOn_append_of_notMem hline s
  refine ⟨init, last ++ [c], hlast, ?_⟩
  rw [lines, hlast]
  simp only [List.dropLast_concat, List.getLast?_concat]
  cases h : last ++ [c] with
  | nil => simp at h
  | cons d l => rfl

theorem withoutReturn_of_solid (h : Solid s) : withoutReturn s = s := by
  refine (withoutReturn_cases s).resolve_right fun hs => ?_
  obtain ⟨t, d, ht, hd⟩ := h.last
  have hlast := congrArg List.getLast? (ht.symm.trans hs)
  rw [List.getLast?_concat, List.getLast?_concat, Option.some.injEq] at hlast
  rw [hlast] at hd
  cases hd

/-- No line feed stands in a line. -/
theorem notMem_of_mem_lines (h : t ∈ lines s) : '\n' ∉ t := by
  have hpiece : ∀ p ∈ splitOn '\n' s, '\n' ∉ p := fun p hp => notMem_of_mem_splitOn hp
  have hended : ∀ l ∈ (splitOn '\n' s).dropLast.map withoutReturn, '\n' ∉ l := by
    intro l hl
    obtain ⟨p, hp, rfl⟩ := List.mem_map.1 hl
    have hmem := hpiece p (List.dropLast_subset _ hp)
    rcases withoutReturn_cases p with hp | hp
    · rwa [hp]
    · intro hline
      exact hmem (hp ▸ List.mem_append_left _ hline)
  rw [lines] at h
  split at h
  · exact hended t h
  · exact hended t h
  · rename_i l _ hl
    rcases List.mem_append.1 h with h | h
    · exact hended t h
    · rw [List.mem_singleton.1 h]
      exact hpiece l (List.mem_of_getLast? hl)

/-- Texts without line feeds, on a line each, are the lines of what they make together. -/
theorem lines_joinWith {ps : List Text} (hsolid : ∀ p ∈ ps, Solid p) (hline : ∀ p ∈ ps, '\n' ∉ p) :
    lines (joinWith ['\n'] ps) = ps := by
  rcases List.eq_nil_or_concat ps with rfl | ⟨init, last, rfl⟩
  · rfl
  · rw [List.concat_eq_append] at hsolid hline ⊢
    have hreturn : init.map withoutReturn = init := by
      refine (List.map_congr_left fun p hp => ?_).trans (List.map_id init)
      exact withoutReturn_of_solid (hsolid p (List.mem_append_left _ hp))
    obtain ⟨c, t, hlast, -⟩ := (hsolid last (by simp)).first
    have hended : (init.map fun l => (before? ['\r'] l).getD l) = init := hreturn
    rw [lines, splitOn_joinWith (by simp) hline]
    simp only [List.dropLast_concat, List.getLast?_concat, hlast, hended]

/-! ### Members where they stand first -/

theorem distinct_cons (x : Text) (xs : List Text) : distinct (x :: xs) = x :: distinct (xs.filter fun y => !y == x) :=
  List.eraseDups_cons

theorem distinct_filter (p : Text → Bool) (xs : List Text) : distinct (xs.filter p) = (distinct xs).filter p := by
  induction xs generalizing p with
  | nil => rfl
  | cons x xs ih =>
    rw [distinct_cons, ih]
    by_cases hx : p x = true
    · rw [List.filter_cons_of_pos hx, List.filter_cons_of_pos hx, distinct_cons, List.filter_filter, ih, List.filter_filter]
      simp only [Bool.and_comm]
    · -- What passes is not `x`, so it makes no difference that `x` is left out.
      rw [List.filter_cons_of_neg hx, List.filter_cons_of_neg hx, ih, List.filter_filter]
      refine List.filter_congr fun y _ => ?_
      by_cases hy : y = x <;> simp [hy, hx]

theorem distinct_distinct (xs : List Text) : distinct (distinct xs) = distinct xs := by
  induction xs with
  | nil => rfl
  | cons x xs ih =>
    have hcons : distinct (x :: xs) = x :: (distinct xs).filter fun y => !y == x := by rw [distinct_cons, distinct_filter]
    rw [hcons, distinct_cons, List.filter_filter, distinct_filter, ih]
    simp only [Bool.and_self]

/-- Which members stand first can be found in two parts. -/
theorem distinct_append (xs ys : List Text) : distinct (distinct xs ++ distinct ys) = distinct (xs ++ ys) := by
  have hcut : ∀ us vs : List Text, distinct (us ++ vs) = distinct us ++ distinct (vs.filter fun v => !us.elem v) :=
    fun us vs => List.eraseDups_append
  have hsame : ∀ v, (distinct xs).elem v = xs.elem v := by
    intro v
    simp [distinct]
  rw [hcut, hcut, distinct_distinct]
  simp only [hsame]
  rw [distinct_filter, distinct_distinct, distinct_filter]

end ImportTrail.Text
