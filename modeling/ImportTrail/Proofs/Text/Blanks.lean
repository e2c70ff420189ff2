import ImportTrail.Text.Basic
import Mathlib.Data.List.Basic
import Mathlib.Data.List.TakeWhile

/-!
Blanks in texts: what trimming leaves, and what becomes of the words of a text that is put together from pieces.

* `takeWhile_append_cons`, `dropWhile_append_cons`, `eq_append_of_dropWhile` — a run of characters in front of one of another kind;
* `trim_solid`, `trim_eq_nil_or_solid` — trimming undoes what blanks at both ends do, and leaves none of them;
* `words_append_blank_append` — a run of blanks keeps the words on its two sides apart;
* `compact_append_append` — reading runs of blanks as one space goes piece by piece.
-/

namespace ImportTrail.Text

/-! ### Text behind a word -/

variable {a s b x y : Text} {c d : Char}

theorem exists_words_cons {c : Char} (hc : isBlank c = false) (s : Text) : ∃ w ws, words (c :: s) = (c :: w) :: ws := by
  rw [words.eq_def]
  simp only [hc, Bool.false_eq_true, if_false]
  cases s with
  | nil => exact ⟨[], _, rfl⟩
  | cons d s =>
    by_cases hd : isBlank d = true
    · exact ⟨[], words (d :: s), by simp only [hd, if_true]⟩
    · simp only [hd]
      cases words (d :: s) with
      | nil => exact ⟨[], [], rfl⟩
      | cons w ws => exact ⟨w, ws, rfl⟩

theorem words_cons_cons {c d : Char} {w : Text} {ws : List Text} (hc : isBlank c = false) (hd : isBlank d = false)
    (h : words (d :: s) = w :: ws) : words (c :: d :: s) = (c :: w) :: ws := by
  rw [words.eq_def]
  simp only [hc, hd, h, Bool.false_eq_true, if_false]

theorem words_append (ha : ∀ c ∈ a, isBlank c = false) (hne : a ≠ []) (s : Text) :
    ∃ w ws, words (a ++ s) = (a ++ w) :: ws := by
  induction a with
  | nil => exact absurd rfl hne
  | cons c a ih =>
    have hc := ha c List.mem_cons_self
    cases a with
    | nil => exact exists_words_cons hc s
    | cons d a =>
      obtain ⟨w, ws, hw⟩ := ih (fun x hx => ha x (List.mem_cons_of_mem _ hx)) (by simp)
      exact ⟨w, ws, words_cons_cons hc (ha d (by simp)) hw⟩

/-- Gluing the words of a text together keeps what it begins with. -/
theorem joinWith_words_append (ha : ∀ c ∈ a, isBlank c = false) (hne : a ≠ []) (s : Text) :
    ∃ t, joinWith [' '] (words (a ++ s)) = a ++ t := by
  obtain ⟨w, ws, hw⟩ := words_append ha hne s
  rw [hw, joinWith]
  cases ws with
  | nil => exact ⟨w, by simp [List.intercalate_singleton]⟩
  | cons v ws => exact ⟨w ++ [' '] ++ List.intercalate [' '] (v :: ws), by simp [List.intercalate_cons_cons]⟩

theorem trim_append (ha : ∀ c ∈ a, isBlank c = false) (hne : a ≠ []) (s : Text) : ∃ t, trim (a ++ s) = a ++ t := by
  have hstart : trimStart (a ++ s) = a ++ s := by
    obtain ⟨c, a, rfl⟩ := List.exists_cons_of_ne_nil hne
    rw [trimStart, List.cons_append, List.dropWhile_cons_of_neg]
    simp [ha c List.mem_cons_self]
  have hall : ∀ t : Text, (t ++ a.reverse).dropWhile isBlank = t.dropWhile isBlank ++ a.reverse := by
    intro t
    rw [List.dropWhile_append]
    split
    · rename_i hnil
      rw [List.isEmpty_iff.1 hnil, List.nil_append]
      cases hr : a.reverse with
      | nil => rfl
      | cons c r =>
        rw [List.dropWhile_cons_of_neg]
        simp [ha c (by rw [← List.mem_reverse, hr]; exact List.mem_cons_self)]
    · rfl
  refine ⟨(s.reverse.dropWhile isBlank).reverse, ?_⟩
  rw [trim, hstart, trimEnd, dropEndWhile, List.reverse_append, hall, List.reverse_append, List.reverse_reverse]

theorem beforeFirst_append {b : Char} {sep : Text} (ha : b ∉ a) (s : Text) :
    beforeFirst (b :: sep) (a ++ s) = a ++ beforeFirst (b :: sep) s := by
  induction a with
  | nil => rfl
  | cons c a ih =>
    rw [List.mem_cons, not_or] at ha
    rw [List.cons_append, beforeFirst, if_neg, ih ha.2, List.cons_append]
    simp [startsWith, after?, ha.1]

/-- What stands in front of a text is taken no further if the text begins with a character of another kind. -/
theorem takeWhile_append_of_head {p : Char → Bool} {r : Text} (hr : ∀ c ∈ r.head?, p c = false) (x : Text) :
    (x ++ r).takeWhile p = x.takeWhile p := by
  have hnone : r.takeWhile p = [] := by
    cases r with
    | nil => rfl
    | cons c r => exact List.takeWhile_cons_of_neg (by simp [hr c rfl])
  rw [List.takeWhile_append, hnone, List.append_nil]
  split
  · rename_i hlen
    exact ((List.takeWhile_sublist p).eq_of_length hlen).symm
  · rfl

/-- A run of characters that pass goes up to one that does not. -/
theorem takeWhile_append_cons {p : Char → Bool} (hx : ∀ d ∈ x, p d = true) (hc : p c = false) (r : Text) :
    (x ++ c :: r).takeWhile p = x := by
  rw [List.takeWhile_append_of_pos hx, List.takeWhile_cons_of_neg (by simp [hc]), List.append_nil]

theorem dropWhile_append_cons {p : Char → Bool} (hx : ∀ d ∈ x, p d = true) (hc : p c = false) (r : Text) :
    (x ++ c :: r).dropWhile p = c :: r := by
  rw [List.dropWhile_append_of_pos hx, List.dropWhile_cons_of_neg (by simp [hc])]

theorem eq_append_of_dropWhile {p : Char → Bool} {r : Text} (h : s.dropWhile p = r) :
    ∃ x, s = x ++ r ∧ s.takeWhile p = x ∧ ∀ d ∈ x, p d = true :=
  ⟨s.takeWhile p, by rw [← h, List.takeWhile_append_dropWhile], rfl, fun _ hd => List.mem_takeWhile_imp hd⟩

theorem drop_length_takeWhile (p : Char → Bool) (s : Text) : s.drop (s.takeWhile p).length = s.dropWhile p := by
  have hsplit : (s.takeWhile p ++ s.dropWhile p).drop (s.takeWhile p).length = s.dropWhile p := List.drop_left
  rwa [List.takeWhile_append_dropWhile] at hsplit

/-! ### Runs of blanks -/

/-- Nothing but blanks. -/
def Blank (b : Text) : Prop := ∀ c ∈ b, isBlank c = true

instance : DecidablePred Blank := fun b => decidable_of_iff (b.all isBlank = true) List.all_eq_true

theorem blank_nil : Blank [] := by simp [Blank]

theorem Blank.notMem (hb : Blank b) (hc : isBlank c = false) : c ∉ b := by
  intro hmem
  rw [hb c hmem] at hc
  cases hc

/-- A text that neither begins nor ends with a blank, and is not empty. -/
structure Solid (s : Text) : Prop where
  first : ∃ c t, s = c :: t ∧ isBlank c = false
  last : ∃ t c, s = t ++ [c] ∧ isBlank c = false

theorem Solid.ne_nil (h : Solid x) : x ≠ [] := by
  obtain ⟨c, t, rfl, -⟩ := h.first
  simp

theorem solid_of_forall (hne : x ≠ []) (h : ∀ c ∈ x, isBlank c = false) : Solid x := by
  refine ⟨?_, ?_⟩
  · obtain ⟨c, t, rfl⟩ := List.exists_cons_of_ne_nil hne
    exact ⟨c, t, rfl, h c List.mem_cons_self⟩
  · refine ⟨x.dropLast, x.getLast hne, (List.dropLast_append_getLast hne).symm, h _ (List.getLast_mem hne)⟩

theorem Solid.append_append (hx : Solid x) (hy : Solid y) (m : Text) : Solid (x ++ m ++ y) := by
  obtain ⟨c, t, rfl, hc⟩ := hx.first
  obtain ⟨u, d, rfl, hd⟩ := hy.last
  exact ⟨⟨c, t ++ m ++ (u ++ [d]), by simp, hc⟩, ⟨c :: t ++ m ++ u, d, by simp, hd⟩⟩

theorem trim_solid {b' : Text} (hb : Blank b) (hx : Solid x) (hb' : Blank b') : trim (b ++ x ++ b') = x := by
  obtain ⟨c, t, ht, hc⟩ := hx.first
  obtain ⟨u, d, hu, hd⟩ := hx.last
  have hstart : trimStart (b ++ x ++ b') = x ++ b' := by
    rw [trimStart, List.append_assoc, ht, List.cons_append, dropWhile_append_cons hb hc]
  have hend : (b'.reverse ++ d :: u.reverse).dropWhile isBlank = d :: u.reverse :=
    dropWhile_append_cons (fun a ha => hb' a (List.mem_reverse.1 ha)) hd _
  rw [trim, hstart, trimEnd, dropEndWhile, hu, List.reverse_append, List.reverse_append, List.reverse_singleton,
    List.singleton_append, hend]
  simp

theorem mem_of_mem_trim (h : c ∈ trim s) : c ∈ s := by
  rw [trim, trimEnd, dropEndWhile, List.mem_reverse] at h
  have hstart := List.mem_reverse.1 ((List.dropWhile_suffix isBlank).subset h)
  exact (List.dropWhile_suffix isBlank).subset hstart

/-- Trimming leaves nothing, or a text without blanks at its ends. -/
theorem trim_eq_nil_or_solid (s : Text) : trim s = [] ∨ Solid (trim s) := by
  have hhead : ∀ (t r : Text) (c : Char), t.dropWhile isBlank = c :: r → isBlank c = false := by
    intro t r c h
    have := List.head?_dropWhile_not isBlank t
    rw [h] at this
    simpa using this
  rw [trim, trimEnd, dropEndWhile]
  cases hend : (trimStart s).reverse.dropWhile isBlank with
  | nil => exact Or.inl rfl
  | cons d r =>
    refine Or.inr ⟨?_, r.reverse, d, by simp, hhead _ _ _ hend⟩
    -- what is left at the end begins as the text does without the blanks in front
    obtain ⟨t, ht⟩ := List.dropWhile_suffix (l := (trimStart s).reverse) isBlank
    have hstart : trimStart s = (d :: r).reverse ++ t.reverse := by
      rw [← List.reverse_append, ← hend, ht, List.reverse_reverse]
    cases hrev : (d :: r).reverse with
    | nil => simp at hrev
    | cons c u =>
      rw [hrev, List.cons_append] at hstart
      exact ⟨c, u, rfl, hhead s _ _ hstart⟩

theorem trim_of_solid (h : Solid x) : trim x = x := by
  have := trim_solid blank_nil h blank_nil
  rwa [List.nil_append, List.append_nil] at this

/-- The words of a text with one space between them. -/
def compact (s : Text) : Text := joinWith [' '] (words s)

/-- What is left of a run of blanks between two words. -/
def glue (b : Text) : Text := if b.isEmpty then [] else [' ']

theorem words_cons_blank (hc : isBlank c = true) (s : Text) : words (c :: s) = words s := by
  rw [words.eq_def]
  simp [hc]

theorem words_blank_append (hb : Blank b) (s : Text) : words (b ++ s) = words s := by
  induction b with
  | nil => rfl
  | cons c b ih =>
    rw [List.cons_append, words_cons_blank (hb c List.mem_cons_self), ih fun d hd => hb d (List.mem_cons_of_mem _ hd)]

/-- A run of blanks keeps the words on its two sides apart. -/
theorem words_append_blank_append (hb : Blank b) (hne : b ≠ []) (x y : Text) :
    words (x ++ b ++ y) = words x ++ words y := by
  induction x with
  | nil => rw [List.nil_append, words_blank_append hb]; rfl
  | cons c x ih =>
    by_cases hc : isBlank c = true
    · rw [List.cons_append, List.cons_append, words_cons_blank hc, words_cons_blank hc, ih]
    · have hc : isBlank c = false := by simpa using hc
      have before_blank : ∀ {d : Char} (s : Text), isBlank d = true → words (c :: d :: s) = [c] :: words (d :: s) := by
        intro d s hd
        rw [words.eq_def]
        simp [hc, hd]
      cases x with
      | nil =>
        obtain ⟨d, b, rfl⟩ := List.exists_cons_of_ne_nil hne
        rw [List.nil_append] at ih
        rw [List.singleton_append, List.cons_append, List.cons_append, before_blank _ (hb d List.mem_cons_self),
          ← List.cons_append, ih]
        simp [words, hc]
      | cons d x =>
        by_cases hd : isBlank d = true
        · rw [List.cons_append, List.cons_append, List.cons_append, List.cons_append, before_blank _ hd,
            before_blank _ hd, ← List.cons_append, ← List.cons_append, ih]
          rfl
        · have hd : isBlank d = false := by simpa using hd
          obtain ⟨w, ws, hw⟩ := exists_words_cons hd x
          rw [hw] at ih
          rw [words_cons_cons hc hd hw]
          exact words_cons_cons hc hd ih

theorem compact_blank_append (hb : Blank b) (s : Text) : compact (b ++ s) = compact s := by
  rw [compact, words_blank_append hb, compact]

theorem compact_append_blank (hb : Blank b) (s : Text) : compact (s ++ b) = compact s := by
  by_cases hne : b = []
  · rw [hne, List.append_nil]
  · have h := words_append_blank_append hb hne s []
    rw [List.append_nil, words, List.append_nil] at h
    rw [compact, h, compact]

theorem words_of_forall (hne : x ≠ []) (h : ∀ c ∈ x, isBlank c = false) : words x = [x] := by
  induction x with
  | nil => exact absurd rfl hne
  | cons c x ih =>
    have hc := h c List.mem_cons_self
    cases x with
    | nil => simp [words, hc]
    | cons d x =>
      have hx := ih (by simp) fun e he => h e (List.mem_cons_of_mem _ he)
      exact words_cons_cons hc (h d (by simp)) hx

theorem compact_of_forall (h : ∀ c ∈ x, isBlank c = false) : compact x = x := by
  rcases eq_or_ne x [] with rfl | hne
  · rfl
  · rw [compact, words_of_forall hne h, joinWith, List.intercalate_singleton]

theorem joinWith_append {sep : Text} {l m : List Text} (hl : l ≠ []) (hm : m ≠ []) :
    joinWith sep (l ++ m) = joinWith sep l ++ sep ++ joinWith sep m := by
  obtain ⟨v, m, rfl⟩ := List.exists_cons_of_ne_nil hm
  induction l with
  | nil => exact absurd rfl hl
  | cons w l ih =>
    cases l with
    | nil => simp [joinWith, List.intercalate_cons_cons, List.intercalate_singleton]
    | cons u l =>
      have ih := ih (by simp)
      simp only [joinWith, List.cons_append, List.intercalate_cons_cons, List.append_assoc] at ih ⊢
      rw [ih]

theorem words_ne_nil_of_mem (hc : isBlank c = false) (h : c ∈ x) : words x ≠ [] := by
  induction x with
  | nil => cases h
  | cons d x ih =>
    by_cases hd : isBlank d = true
    · rw [words_cons_blank hd]
      refine ih ((List.mem_cons.1 h).resolve_left ?_)
      rintro rfl
      rw [hc] at hd
      cases hd
    · obtain ⟨w, ws, hw⟩ := exists_words_cons (by simpa using hd) x
      simp [hw]

theorem compact_cons_blank (hc : isBlank c = true) (s : Text) : compact (c :: s) = compact s := by
  rw [compact, words_cons_blank hc, compact]

theorem compact_cons_cons (hc : isBlank c = false) (hd : isBlank d = false) (s : Text) :
    compact (c :: d :: s) = c :: compact (d :: s) := by
  obtain ⟨w, ws, hw⟩ := exists_words_cons hd s
  rw [compact, compact, words_cons_cons hc hd hw, hw, joinWith, joinWith]
  cases ws with
  | nil => simp [List.intercalate_singleton]
  | cons v ws => simp [List.intercalate_cons_cons]

theorem compact_cons_cons_blank (hc : isBlank c = false) (hd : isBlank d = true) {s : Text} (hs : words s ≠ []) :
    compact (c :: d :: s) = c :: ' ' :: compact s := by
  have h := words_append_blank_append (b := [d]) (by simpa [Blank] using hd) (by simp) [c] s
  have hw : words [c] = [[c]] := words_of_forall (by simp) (by simpa using hc)
  rw [hw] at h
  rw [compact, show c :: d :: s = [c] ++ [d] ++ s from rfl, h, joinWith_append (by simp) hs, compact]
  simp [joinWith, List.intercalate_singleton]

/-- Where no blank stands between them, the last word before and the first word behind become one. -/
theorem compact_append (hc : isBlank c = false) (hd : isBlank d = false) (x y : Text) :
    compact (x ++ c :: d :: y) = compact (x ++ [c]) ++ compact (d :: y) := by
  induction x with
  | nil =>
    have hw : words [c] = [[c]] := words_of_forall (by simp) (by simpa using hc)
    rw [List.nil_append, List.nil_append, compact_cons_cons hc hd, compact.eq_1 [c], hw, joinWith,
      List.intercalate_singleton]
    rfl
  | cons e x ih =>
    by_cases he : isBlank e = true
    · simpa only [List.cons_append, compact_cons_blank he] using ih
    · have he : isBlank e = false := by simpa using he
      cases x with
      | nil => simpa only [List.cons_append, List.nil_append, compact_cons_cons he hc] using congrArg (e :: ·) ih
      | cons f x =>
        by_cases hf : isBlank f = true
        · have h₁ : words (x ++ [c]) ≠ [] := words_ne_nil_of_mem hc (by simp)
          have h₂ : words (x ++ c :: d :: y) ≠ [] := words_ne_nil_of_mem hc (by simp)
          simp only [List.cons_append, compact_cons_blank hf] at ih
          simp only [List.cons_append, compact_cons_cons_blank he hf h₁, compact_cons_cons_blank he hf h₂, ih]
        · have hf : isBlank f = false := by simpa using hf
          simpa only [List.cons_append, compact_cons_cons he hf] using congrArg (e :: ·) ih

theorem compact_append_append (hb : Blank b) (hx : Solid x) (hy : Solid y) :
    compact (x ++ b ++ y) = compact x ++ glue b ++ compact y := by
  obtain ⟨x, c, rfl, hc⟩ := hx.last
  obtain ⟨d, y, rfl, hd⟩ := hy.first
  rcases eq_or_ne b [] with rfl | hne
  · rw [List.append_nil, List.append_assoc, List.singleton_append, compact_append hc hd]
    simp [glue]
  · have hx' : words (x ++ [c]) ≠ [] := words_ne_nil_of_mem hc (by simp)
    have hy' : words (d :: y) ≠ [] := words_ne_nil_of_mem hd List.mem_cons_self
    rw [compact, words_append_blank_append hb hne, joinWith_append hx' hy', glue, if_neg (by simpa using hne), compact,
      compact]

end ImportTrail.Text
