import ImportTrail.Proofs.UseTree.Roots
import Mathlib.Data.List.TakeWhile

/-!
Use trees as data, their spellings, and what expanding a spelling gives.

* `Tree`, `Tree.flatten` — a use tree and the paths of its leaves, from left to right;
* `Spelled` — the texts of a tree, with gaps after commas, around braces and around `as`;
* `Spelled.compact` — reading runs of blanks as one space gives a spelling of the same tree;
* `splitTop_spelled`, `braces?_group` — cutting a spelling at its braces and commas finds the tree again;
* `expand_eq_flatten` — a spelling is expanded to the paths of its tree.
-/

namespace ImportTrail.UseTree

open Text

/-! ### Trees -/

/-- A character of a name in a path: no blank, and nothing that trees are put together with. -/
def isSegmentChar (c : Char) : Bool := !isBlank c && !([':', '\x7b', '\x7d', ',', '*'].contains c)

/-- A name in a path, a keyword or not. -/
structure Segment where
  text : Text
  proper : (!text.isEmpty && text.all isSegmentChar) = true
  deriving DecidableEq

/-- A word as a segment. -/
def Segment.word (s : String) (h : (!s.toList.isEmpty && s.toList.all isSegmentChar) = true := by rfl) : Segment :=
  ⟨s.toList, h⟩

/-- The word that stands for the path in front of it. -/
def Segment.self : Segment := .word "self"

/-- The text of a path. -/
def pathText (path : List Segment) : Text := joinWith [':', ':'] (path.map Segment.text)

/-- A use tree. -/
inductive Tree where
  /-- A path, possibly under another name. -/
  | path (first : Segment) (rest : List Segment) (alias? : Option Segment)
  /-- All of a path. -/
  | glob (first : Segment) (rest : List Segment)
  /-- All of the path in front. -/
  | star
  /-- Some trees under a path, which may be empty. -/
  | group (path : List Segment) (items : List Tree)

/-- What a leaf stands for under a path: the path itself if it names nothing or `self` alone, and nothing at all if
there is no path then. -/
def leafPaths (above path : List Segment) : List (List Segment) :=
  if path = [] ∨ path = [.self] then (if above = [] then [] else [above]) else [above ++ path]

mutual
/-- The paths of the leaves of a tree under a path, from left to right. -/
def Tree.flatten (above : List Segment) : Tree → List (List Segment)
  | .path first rest _ => leafPaths above (first :: rest)
  | .glob first rest => leafPaths above (first :: rest)
  | .star => leafPaths above []
  | .group path items => flattenAll (above ++ path) items
/-- The paths of the leaves of some trees. -/
def flattenAll (above : List Segment) : List Tree → List (List Segment)
  | [] => []
  | t :: ts => t.flatten above ++ flattenAll above ts
end

/-- What may stand between the last tree of a group and the closing brace. -/
inductive Ending (gap : Text → Prop) : Text → Prop
  | blank {b : Text} : gap b → Ending gap b
  | comma {b e : Text} : gap b → gap e → Ending gap (b ++ ',' :: e)

mutual
/-- The texts of a tree, for the gaps that may stand between its parts. -/
inductive Spelled (gap : Text → Prop) : Tree → Text → Prop
  | path (first : Segment) (rest : List Segment) : Spelled gap (.path first rest none) (pathText (first :: rest))
  | renamed (first : Segment) (rest : List Segment) (name : Segment) {b e : Text} : gap b → b ≠ [] → gap e → e ≠ [] →
      Spelled gap (.path first rest (some name)) (pathText (first :: rest) ++ b ++ ['a', 's'] ++ e ++ name.text)
  | glob (first : Segment) (rest : List Segment) :
      Spelled gap (.glob first rest) (pathText (first :: rest) ++ [':', ':', '*'])
  | star : Spelled gap .star ['*']
  | bareGroup {items : List Tree} {s : Text} : SpelledItems gap items s →
      Spelled gap (.group [] items) ('\x7b' :: s ++ ['\x7d'])
  | group (first : Segment) (rest : List Segment) {items : List Tree} {b s : Text} : gap b → SpelledItems gap items s →
      Spelled gap (.group (first :: rest) items)
        (pathText (first :: rest) ++ [':', ':'] ++ b ++ ('\x7b' :: s ++ ['\x7d']))
/-- The texts between the braces of a group. -/
inductive SpelledItems (gap : Text → Prop) : List Tree → Text → Prop
  | nil {e : Text} : Ending gap e → SpelledItems gap [] e
  | last {t : Tree} {b s e : Text} : gap b → Spelled gap t s → Ending gap e → SpelledItems gap [t] (b ++ s ++ e)
  | cons {t u : Tree} {ts : List Tree} {b s e r : Text} : gap b → Spelled gap t s → gap e →
      SpelledItems gap (u :: ts) r → SpelledItems gap (t :: u :: ts) (b ++ s ++ e ++ ',' :: r)
end

variable {t : Tree} {ts : List Tree} {gap : Text → Prop} {s b b' : Text}

theorem Ending.mono {gap' : Text → Prop} (h : ∀ b, gap b → gap' b) {e : Text} (he : Ending gap e) : Ending gap' e := by
  cases he with
  | blank hb => exact .blank (h _ hb)
  | comma hb hb' => exact .comma (h _ hb) (h _ hb')

/-! ### Paths -/

theorem Segment.ne_nil (x : Segment) : x.text ≠ [] := by
  have := (Bool.and_eq_true_iff.1 x.proper).1
  simpa using this

theorem Segment.chars (x : Segment) : ∀ c ∈ x.text, isSegmentChar c = true :=
  List.all_eq_true.1 (Bool.and_eq_true_iff.1 x.proper).2

theorem Segment.solid (x : Segment) : ∀ c ∈ x.text, isBlank c = false := by
  intro c hc
  have := x.chars c hc
  simp only [isSegmentChar, Bool.and_eq_true, Bool.not_eq_true'] at this
  exact this.1

theorem Segment.notMem {x : Segment} {c : Char} (h : isSegmentChar c = false) : c ∉ x.text := by
  intro hc
  rw [x.chars c hc] at h
  cases h

@[simp] theorem pathText_nil : pathText [] = [] := rfl

@[simp] theorem pathText_singleton (x : Segment) : pathText [x] = x.text := by
  simp [pathText, joinWith, List.intercalate_singleton]

theorem pathText_cons_cons (x y : Segment) (path : List Segment) :
    pathText (x :: y :: path) = x.text ++ [':', ':'] ++ pathText (y :: path) := by
  simp [pathText, joinWith, List.intercalate_cons_cons]

theorem mem_pathText {path : List Segment} {c : Char} (h : c ∈ pathText path) : c = ':' ∨ isSegmentChar c = true := by
  induction path with
  | nil => cases h
  | cons x path ih =>
    cases path with
    | nil => exact Or.inr (x.chars c (by simpa using h))
    | cons y path =>
      rw [pathText_cons_cons, List.mem_append, List.mem_append] at h
      rcases h with (h | h) | h
      · exact Or.inr (x.chars c h)
      · exact Or.inl (by simpa using h)
      · exact ih h

theorem pathText_ne_nil (x : Segment) (path : List Segment) : pathText (x :: path) ≠ [] := by
  cases path with
  | nil => simpa using x.ne_nil
  | cons y path => simp [pathText_cons_cons]

theorem isBlank_of_mem_pathText {path : List Segment} {c : Char} (hc : c ∈ pathText path) : isBlank c = false := by
  rcases mem_pathText hc with rfl | h
  · decide
  · simp only [isSegmentChar, Bool.and_eq_true, Bool.not_eq_true'] at h
    exact h.1

theorem pathText_solid (x : Segment) (path : List Segment) : Solid (pathText (x :: path)) :=
  solid_of_forall (pathText_ne_nil x path) fun _ hc => isBlank_of_mem_pathText hc

/-- The last character of a path belongs to its last name. -/
theorem pathText_eq_concat (x : Segment) (path : List Segment) :
    ∃ p c, pathText (x :: path) = p ++ [c] ∧ isSegmentChar c = true := by
  induction path generalizing x with
  | nil =>
    have h := List.dropLast_append_getLast x.ne_nil
    exact ⟨_, _, by rw [pathText_singleton]; exact h.symm, x.chars _ (List.getLast_mem x.ne_nil)⟩
  | cons y path ih =>
    obtain ⟨p, c, h, hc⟩ := ih y
    exact ⟨x.text ++ [':', ':'] ++ p, c, by rw [pathText_cons_cons, h]; simp, hc⟩

theorem pathText_append (above : List Segment) (x : Segment) (path : List Segment) :
    append (pathText above) (pathText (x :: path)) = pathText (above ++ x :: path) := by
  cases above with
  | nil => rfl
  | cons y above =>
    rw [append, if_neg (by simpa using pathText_ne_nil y above), if_neg (by simpa using pathText_ne_nil x path)]
    induction above generalizing y with
    | nil => rw [pathText_singleton]; exact (pathText_cons_cons y x path).symm
    | cons z above ih =>
      rw [List.cons_append, List.cons_append, pathText_cons_cons, pathText_cons_cons, ← List.cons_append, ← ih z]
      simp

theorem pathText_eq_self_iff (x : Segment) (path : List Segment) :
    pathText (x :: path) = "self".toList ↔ x :: path = [.self] := by
  constructor
  · intro h
    cases path with
    | nil =>
      obtain ⟨text, proper⟩ := x
      rw [pathText_singleton] at h
      simp only at h
      subst h
      rfl
    | cons y path =>
      have : ':' ∈ "self".toList := by rw [← h, pathText_cons_cons]; simp
      exact absurd this (by decide)
  · intro h
    rw [h, pathText_singleton]
    rfl

/-! ### Blanks -/

/-- At most one space. -/
def Tight (b : Text) : Prop := b = [] ∨ b = [' ']

theorem Tight.blank (h : Tight b) : Blank b := by
  rcases h with rfl | rfl
  · simp [Blank]
  · simp only [Blank, List.mem_singleton]
    rintro c rfl
    rfl

theorem tight_glue (b : Text) : Tight (glue b) := by
  unfold glue
  split
  · exact Or.inl rfl
  · exact Or.inr rfl

theorem glue_ne_nil (h : b ≠ []) : glue b ≠ [] := by
  simp [glue, h]

theorem braces_solid (s : Text) : Solid ('\x7b' :: s ++ ['\x7d']) :=
  ⟨⟨_, _, rfl, rfl⟩, ⟨_, _, rfl, rfl⟩⟩

theorem Spelled.solid (h : Spelled gap t s) : Solid s := by
  cases h with
  | path first rest => exact pathText_solid first rest
  | renamed first rest name _ _ _ _ =>
    have hname : Solid name.text := solid_of_forall name.ne_nil name.solid
    simpa using (pathText_solid first rest).append_append hname (_ ++ ['a', 's'] ++ _)
  | glob first rest =>
    have hstar : Solid [':', ':', '*'] := ⟨⟨_, _, rfl, rfl⟩, ⟨[':', ':'], _, rfl, rfl⟩⟩
    simpa using (pathText_solid first rest).append_append hstar []
  | star => exact ⟨⟨_, _, rfl, rfl⟩, ⟨[], _, rfl, rfl⟩⟩
  | bareGroup _ => exact braces_solid _
  | group first rest _ _ => simpa using (pathText_solid first rest).append_append (braces_solid _) ([':', ':'] ++ _)

theorem solid_singleton {c : Char} (h : isBlank c = false) : Solid [c] := ⟨⟨c, [], rfl, h⟩, ⟨[], c, rfl, h⟩⟩

theorem compact_singleton {c : Char} (h : isBlank c = false) : compact [c] = [c] :=
  compact_of_forall (by simpa using h)

/-- A path holds no blanks, nor do colons or stars behind it. -/
theorem compact_pathText_append (path : List Segment) {e : Text} (h : e.any isBlank = false) :
    compact (pathText path ++ e) = pathText path ++ e := by
  refine compact_of_forall fun c hc => ?_
  rcases List.mem_append.1 hc with hc | hc
  · exact isBlank_of_mem_pathText hc
  · simpa using List.any_eq_false.1 h c hc

theorem compact_pathText (path : List Segment) : compact (pathText path) = pathText path :=
  compact_of_forall fun _ hc => isBlank_of_mem_pathText hc

theorem Ending.compact {x e : Text} (h : Ending Blank e) (hx : Solid x) :
    ∃ e', Ending Tight e' ∧ compact (x ++ e ++ ['\x7d']) = compact x ++ e' ++ ['\x7d'] := by
  have hbrace : Solid ['\x7d'] := solid_singleton rfl
  have hcomma : Solid [','] := solid_singleton rfl
  cases h with
  | blank hb =>
    refine ⟨glue e, .blank (tight_glue e), ?_⟩
    rw [compact_append_append hb hx hbrace, compact_singleton rfl]
  | @comma b b' hb hb' =>
    refine ⟨glue b ++ ',' :: glue b', .comma (tight_glue _) (tight_glue _), ?_⟩
    have e : x ++ (b ++ ',' :: b') ++ ['\x7d'] = x ++ b ++ ([','] ++ b' ++ ['\x7d']) := by simp
    rw [e, compact_append_append hb hx (hcomma.append_append hbrace b'), compact_append_append hb' hcomma hbrace,
      compact_singleton rfl, compact_singleton rfl]
    simp

mutual
theorem Spelled.compact : ∀ {t : Tree} {s : Text}, Spelled Blank t s → Spelled Tight t (compact s)
  | _, _, .path first rest => by
    rw [compact_pathText]
    exact .path first rest
  | _, _, @Spelled.renamed _ first rest name b b' hb hne hb' hne' => by
    have hname : Solid name.text := solid_of_forall name.ne_nil name.solid
    have has : Solid ['a', 's'] := ⟨⟨_, _, rfl, rfl⟩, ⟨['a'], _, rfl, rfl⟩⟩
    have e : pathText (first :: rest) ++ b ++ ['a', 's'] ++ b' ++ name.text =
        pathText (first :: rest) ++ b ++ (['a', 's'] ++ b' ++ name.text) := by simp
    rw [e, compact_append_append hb (pathText_solid first rest) (has.append_append hname b'), compact_pathText,
      compact_append_append hb' has hname, compact_of_forall name.solid, ← List.append_assoc, ← List.append_assoc]
    exact .renamed first rest name (tight_glue b) (glue_ne_nil hne) (tight_glue b') (glue_ne_nil hne')
  | _, _, .glob first rest => by
    rw [compact_pathText_append _ rfl]
    exact .glob first rest
  | _, _, .star => by
    rw [compact_singleton rfl]
    exact .star
  | _, _, .bareGroup h => by
    obtain ⟨s', h', e⟩ := SpelledItems.compact h '\x7b' rfl
    rw [e]
    exact .bareGroup h'
  | _, _, .group first rest hb h => by
    obtain ⟨s', h', e⟩ := SpelledItems.compact h '\x7b' rfl
    have hcolons : Solid [':', ':'] := ⟨⟨_, _, rfl, rfl⟩, ⟨[':'], _, rfl, rfl⟩⟩
    have hhead := (pathText_solid first rest).append_append hcolons []
    rw [List.append_nil] at hhead
    rw [compact_append_append hb hhead (braces_solid _), compact_pathText_append _ rfl, e]
    exact .group first rest (tight_glue _) h'
/-- Between braces, and behind a comma. -/
theorem SpelledItems.compact : ∀ {ts : List Tree} {s : Text}, SpelledItems Blank ts s → ∀ o, isBlank o = false →
    ∃ s', SpelledItems Tight ts s' ∧ Text.compact (o :: s ++ ['\x7d']) = o :: s' ++ ['\x7d']
  | _, _, .nil h, o, ho => by
    obtain ⟨e', he', e⟩ := h.compact (solid_singleton ho)
    rw [compact_singleton ho] at e
    exact ⟨e', .nil he', e⟩
  | _, _, @SpelledItems.last _ t b s r hb h he, o, ho => by
    have hs := Spelled.compact h
    obtain ⟨e', he', e⟩ := he.compact h.solid
    refine ⟨glue b ++ Text.compact s ++ e', .last (tight_glue b) hs he', ?_⟩
    have hsplit : o :: (b ++ s ++ r) ++ ['\x7d'] = [o] ++ b ++ (s ++ r ++ ['\x7d']) := by simp
    rw [hsplit, compact_append_append hb (solid_singleton ho) (h.solid.append_append (solid_singleton rfl) r), e,
      compact_singleton ho]
    simp
  | _, _, @SpelledItems.cons _ t u ts b s b' r hb h hb' hr, o, ho => by
    have hs := Spelled.compact h
    obtain ⟨r', hr', e⟩ := SpelledItems.compact hr ',' rfl
    refine ⟨glue b ++ Text.compact s ++ glue b' ++ ',' :: r', .cons (tight_glue b) hs (tight_glue b') hr', ?_⟩
    have hrest : Solid (',' :: r ++ ['\x7d']) := ⟨⟨_, _, rfl, rfl⟩, ⟨_, _, rfl, rfl⟩⟩
    have hsplit : o :: (b ++ s ++ b' ++ ',' :: r) ++ ['\x7d'] = [o] ++ b ++ (s ++ b' ++ (',' :: r ++ ['\x7d'])) := by
      simp
    rw [hsplit, compact_append_append hb (solid_singleton ho) (h.solid.append_append hrest b'),
      compact_append_append hb' h.solid hrest, e, compact_singleton ho]
    simp
end

/-! ### Cutting at braces and commas -/

/-- A text in front of the first piece. -/
def prepend (x : Text) : List Text → List Text
  | [] => [x]
  | p :: ps => (x ++ p) :: ps

theorem prepend_prepend (x y : Text) (l : List Text) : prepend x (prepend y l) = prepend (x ++ y) l := by
  cases l <;> simp [prepend]

theorem splitTop_cons (d' : Nat) {c : Char} {d : Nat} (hcomma : c ≠ ',' ∨ d ≠ 0)
    (hd : d' = if c = '\x7b' then d + 1 else if c = '\x7d' then d - 1 else d) (s : Text) :
    splitTop d (c :: s) = prepend [c] (splitTop d' s) := by
  have hneg : ¬ (c = ',' ∧ d = 0) := by tauto
  rw [splitTop, if_neg hneg, ← hd]
  dsimp only
  cases splitTop d' s <;> rfl

/-- A text without commas and braces. -/
def Plain (x : Text) : Prop := ∀ c ∈ x, c ≠ ',' ∧ c ≠ '\x7b' ∧ c ≠ '\x7d'

theorem Plain.append {x y : Text} (hx : Plain x) (hy : Plain y) : Plain (x ++ y) := by
  intro c hc
  rcases List.mem_append.1 hc with hc | hc
  · exact hx c hc
  · exact hy c hc

/-- Such a text is part of one piece. -/
theorem splitTop_plain {x : Text} (hx : Plain x) (d : Nat) (s : Text) :
    splitTop d (x ++ s) = prepend x (splitTop d s) := by
  induction x with
  | nil => cases h : splitTop d s with
    | nil =>
      cases s with
      | nil => simp [splitTop] at h
      | cons c s =>
        rw [splitTop] at h
        split at h
        · cases h
        · dsimp only at h
          split at h <;> cases h
    | cons p ps => simp [prepend, h]
  | cons c x ih =>
    obtain ⟨h₁, h₂, h₃⟩ := hx c List.mem_cons_self
    rw [List.cons_append, splitTop_cons d (Or.inl h₁) (by simp [h₂, h₃]),
      ih fun e he => hx e (List.mem_cons_of_mem _ he), prepend_prepend]
    rfl

theorem Tight.plain (h : Tight b) : Plain b := by
  rcases h with rfl | rfl <;> simp [Plain]

theorem Segment.plain (x : Segment) : Plain x.text := by
  intro c hc
  have := x.chars c hc
  simp only [isSegmentChar, Bool.and_eq_true, Bool.not_eq_true', List.contains_cons, Bool.or_eq_false_iff,
    beq_eq_false_iff_ne] at this
  tauto

theorem pathText_plain (path : List Segment) : Plain (pathText path) := by
  intro c hc
  rcases mem_pathText hc with rfl | h
  · decide
  · simp only [isSegmentChar, Bool.and_eq_true, Bool.not_eq_true', List.contains_cons, Bool.or_eq_false_iff,
      beq_eq_false_iff_ne] at h
    tauto

theorem marks_plain : Plain [':', ':'] ∧ Plain [':', ':', '*'] ∧ Plain ['*'] ∧ Plain ['a', 's'] := by
  simp [Plain]

/-- What stands between braces is part of one piece. -/
theorem splitTop_braces {x : Text} {d : Nat} (h : ∀ s, splitTop (d + 1) (x ++ s) = prepend x (splitTop (d + 1) s))
    (s : Text) : splitTop d ('\x7b' :: x ++ ['\x7d'] ++ s) = prepend ('\x7b' :: x ++ ['\x7d']) (splitTop d s) := by
  rw [List.cons_append, List.cons_append, splitTop_cons (d + 1) (Or.inl (by decide)) (by simp), List.append_assoc,
    h, List.singleton_append, splitTop_cons d (Or.inl (by decide)) (by simp), prepend_prepend, prepend_prepend]
  simp

theorem splitTop_ending {e : Text} (h : Ending Tight e) (d : Nat) (s : Text) :
    splitTop (d + 1) (e ++ s) = prepend e (splitTop (d + 1) s) := by
  cases h with
  | blank hb => exact splitTop_plain hb.plain _ s
  | comma hb hb' =>
    rw [List.append_assoc, splitTop_plain hb.plain, List.cons_append,
      splitTop_cons (d + 1) (Or.inr (by simp)) (by simp), splitTop_plain hb'.plain, prepend_prepend,
      prepend_prepend]
    simp

mutual
theorem splitTop_spelled : ∀ {t : Tree} {s : Text}, Spelled Tight t s → ∀ (d : Nat) (r : Text),
    splitTop d (s ++ r) = prepend s (splitTop d r)
  | _, _, .path first rest, d, r => splitTop_plain (pathText_plain _) d r
  | _, _, .renamed first rest name hb _ hb' _, d, r =>
    splitTop_plain (((((pathText_plain _).append hb.plain).append marks_plain.2.2.2).append hb'.plain).append
      name.plain) d r
  | _, _, .glob first rest, d, r => splitTop_plain ((pathText_plain _).append marks_plain.2.1) d r
  | _, _, .star, d, r => splitTop_plain marks_plain.2.2.1 d r
  | _, _, .bareGroup h, d, r => splitTop_braces (splitTop_items h d) r
  | _, _, .group first rest hb h, d, r => by
    have hhead := ((pathText_plain (first :: rest)).append marks_plain.1).append hb.plain
    rw [List.append_assoc, splitTop_plain hhead, splitTop_braces (splitTop_items h d), prepend_prepend]
theorem splitTop_items : ∀ {ts : List Tree} {s : Text}, SpelledItems Tight ts s → ∀ (d : Nat) (r : Text),
    splitTop (d + 1) (s ++ r) = prepend s (splitTop (d + 1) r)
  | _, _, .nil h, d, r => splitTop_ending h d r
  | _, _, .last hb h he, d, r => by
    rw [List.append_assoc, List.append_assoc, splitTop_plain hb.plain, splitTop_spelled h, splitTop_ending he,
      prepend_prepend, prepend_prepend, List.append_assoc]
  | _, _, .cons hb h hb' hr, d, r => by
    simp only [List.append_assoc, List.cons_append]
    rw [splitTop_plain hb.plain, splitTop_spelled h, splitTop_plain hb'.plain,
      splitTop_cons (d + 1) (Or.inr (by simp)) (by simp), splitTop_items hr, prepend_prepend, prepend_prepend,
      prepend_prepend, prepend_prepend]
    simp
end

/-- The first opening and the last closing brace are those of the group itself. -/
theorem braces?_group {head : Text} (h : '\x7b' ∉ head) (s : Text) :
    braces? (head ++ ('\x7b' :: s ++ ['\x7d'])) = some (head, s) := by
  have hhead : (head ++ ('\x7b' :: s ++ ['\x7d'])).takeWhile (· != '\x7b') = head := by
    have hpos : ∀ c ∈ head, (c != '\x7b') = true := by
      intro c hc
      simp only [bne_iff_ne]
      rintro rfl
      exact h hc
    rw [List.takeWhile_append_of_pos hpos]
    simp
  have hdrop : (head ++ ('\x7b' :: s ++ ['\x7d'])).drop head.length = '\x7b' :: s ++ ['\x7d'] := List.drop_left
  unfold braces?
  simp only [hhead, hdrop]
  simp

theorem braces?_eq_none (h : '\x7b' ∉ s) : braces? s = none := by
  have hhead : s.takeWhile (· != '\x7b') = s := by
    rw [List.takeWhile_eq_self_iff]
    intro c hc
    simp only [bne_iff_ne]
    rintro rfl
    exact h hc
  unfold braces?
  simp [hhead]

/-! ### Leaves -/

theorem dropColons_append {p : Text} {c : Char} (hc : c ≠ ':') : dropColons (p ++ [c]) = p ++ [c] := by
  rw [dropColons, List.reverse_append, List.reverse_singleton, List.singleton_append, dropColonsRev]
  · simp
  · intro s h
    exact hc (List.cons.inj h).1

theorem dropStars_append {p : Text} {c : Char} (hc : c ≠ '*') : dropStars (p ++ [c]) = p ++ [c] := by
  rw [dropStars, List.reverse_append, List.reverse_singleton, List.singleton_append, dropStarsRev]
  · simp
  · intro s h
    exact hc (List.cons.inj h).1

theorem dropColons_pathText (x : Segment) (path : List Segment) :
    dropColons (pathText (x :: path)) = pathText (x :: path) := by
  obtain ⟨p, c, e, hc⟩ := pathText_eq_concat x path
  rw [e]
  exact dropColons_append (by rintro rfl; exact absurd hc (by decide))

theorem dropColons_pathText_colons (x : Segment) (path : List Segment) :
    dropColons (pathText (x :: path) ++ [':', ':']) = pathText (x :: path) := by
  have := dropColons_pathText x path
  rw [dropColons] at this ⊢
  rw [List.reverse_append]
  exact this

theorem dropStars_pathText (x : Segment) (path : List Segment) :
    dropStars (pathText (x :: path)) = pathText (x :: path) := by
  obtain ⟨p, c, e, hc⟩ := pathText_eq_concat x path
  rw [e]
  exact dropStars_append (by rintro rfl; exact absurd hc (by decide))

theorem dropStars_pathText_star (x : Segment) (path : List Segment) :
    dropStars (pathText (x :: path) ++ [':', ':', '*']) = pathText (x :: path) := by
  have := dropStars_pathText x path
  rw [dropStars] at this ⊢
  rw [List.reverse_append]
  exact this

/-- A leaf names the path that is left of it without blanks and alias. -/
theorem leafItem_of_front {x y : Text} (hx : Solid x) (hspace : ' ' ∉ x) (hy : beforeFirst " as ".toList y = []) :
    leafItem (x ++ y) = dropColons (dropStars x) := by
  have htrim := trim_solid blank_nil hx blank_nil
  rw [List.nil_append, List.append_nil] at htrim
  rw [leafItem, show " as ".toList = ' ' :: "as ".toList from rfl, beforeFirst_append hspace,
    show ' ' :: "as ".toList = " as ".toList from rfl, hy, List.append_nil, htrim]

theorem expandUnder_leaf {x : Text} (hs : Solid s) (hbrace : '\x7b' ∉ s) (hx : leafItem s = x) (hb : Blank b)
    (hb' : Blank b') (path : Text) : expandUnder path (b ++ s ++ b') =
      if x ∈ emptyItems then (if path.isEmpty then [] else [path]) else [append path x] := by
  have htrim := trim_solid hb hs hb'
  rw [expandUnder_of_leaf (by rw [htrim]; exact hs.ne_nil) (by rw [htrim]; exact braces?_eq_none hbrace), htrim, hx]

theorem expandUnder_path (above : List Segment) (x : Segment) (path : List Segment) (hs : Solid s) (hbrace : '\x7b' ∉ s)
    (hitem : leafItem s = pathText (x :: path)) (hb : Blank b) (hb' : Blank b') :
    expandUnder (pathText above) (b ++ s ++ b') = (leafPaths above (x :: path)).map pathText := by
  have hempty : pathText (x :: path) ∈ emptyItems ↔ x :: path = [.self] := by
    rw [← pathText_eq_self_iff]
    have hstar : pathText (x :: path) ≠ ['*'] := by
      obtain ⟨p, c, e, hc⟩ := pathText_eq_concat x path
      intro h
      have hmem : '*' ∈ pathText (x :: path) := by rw [h]; simp
      rcases mem_pathText hmem with h | h <;> exact absurd h (by decide)
    simp [emptyItems, pathText_ne_nil, hstar]
  have habove : (pathText above).isEmpty = true ↔ above = [] := by
    cases above with
    | nil => simp
    | cons y above => simpa using pathText_ne_nil y above
  rw [expandUnder_leaf hs hbrace hitem hb hb', leafPaths]
  by_cases hself : x :: path = [.self]
  · rw [if_pos (hempty.2 hself), if_pos (Or.inr hself)]
    by_cases h : above = []
    · simp [h]
    · rw [if_neg (mt habove.1 h), if_neg h]
      rfl
  · rw [if_neg (mt hempty.1 hself), if_neg (by simpa using hself), pathText_append]
    rfl

/-! ### Trees -/

theorem expandUnder_blank (hb : Blank b) (path : Text) : expandUnder path b = [] := by
  refine expandUnder_of_blank ?_ path
  have h : b.dropWhile isBlank = [] := List.dropWhile_eq_nil_iff.2 hb
  rw [trim, trimStart, h]
  rfl

theorem expandUnder_group {x : Text} (hx : Plain x) (hs : Solid (x ++ ('\x7b' :: s ++ ['\x7d']))) (hb : Blank b)
    (hb' : Blank b') (path : Text) : expandUnder path (b ++ (x ++ ('\x7b' :: s ++ ['\x7d'])) ++ b') =
      (splitTop 0 s).flatMap (expandUnder (append path (dropColons (trim x)))) :=
  expandUnder_of_braces (by rw [trim_solid hb hs hb', braces?_group fun h => (hx _ h).2.1 rfl]) path

/-- The first piece ends where its text does. -/
theorem splitTop_comma {x : Text} (h : ∀ r, splitTop 0 (x ++ r) = prepend x (splitTop 0 r)) (r : Text) :
    splitTop 0 (x ++ ',' :: r) = x :: splitTop 0 r := by
  rw [h, splitTop, if_pos ⟨rfl, rfl⟩]
  simp [prepend]

theorem splitTop_end {x : Text} (h : ∀ r, splitTop 0 (x ++ r) = prepend x (splitTop 0 r)) : splitTop 0 x = [x] := by
  have := h []
  rw [List.append_nil, splitTop] at this
  rw [this, prepend, List.append_nil]

/-- A tree between gaps is part of one piece. -/
theorem splitTop_between (hb : Tight b) (h : Spelled Tight t s) (hb' : Tight b') (r : Text) :
    splitTop 0 (b ++ s ++ b' ++ r) = prepend (b ++ s ++ b') (splitTop 0 r) := by
  rw [List.append_assoc, List.append_assoc, splitTop_plain hb.plain, splitTop_spelled h, splitTop_plain hb'.plain,
    prepend_prepend, prepend_prepend, List.append_assoc]

mutual
theorem expandUnder_spelled : ∀ {t : Tree} {s : Text}, Spelled Tight t s → ∀ (above : List Segment) {b b' : Text},
    Blank b → Blank b' → expandUnder (pathText above) (b ++ s ++ b') = (t.flatten above).map pathText
  | _, _, .path first rest, above, b, b', hb, hb' => by
    have hspace : ' ' ∉ pathText (first :: rest) := fun h => absurd (isBlank_of_mem_pathText h) (by decide)
    have hitem := leafItem_of_front (y := []) (pathText_solid first rest) hspace rfl
    rw [List.append_nil, dropStars_pathText, dropColons_pathText] at hitem
    exact expandUnder_path above first rest (pathText_solid first rest) (fun h => (pathText_plain _ _ h).2.1 rfl) hitem
      hb hb'
  | _, _, @Spelled.renamed _ first rest name c c' hc hne hc' hne', above, b, b', hb, hb' => by
    have hspace : ' ' ∉ pathText (first :: rest) := fun h => absurd (isBlank_of_mem_pathText h) (by decide)
    obtain rfl : c = [' '] := hc.resolve_left hne
    obtain rfl : c' = [' '] := hc'.resolve_left hne'
    have hs : Spelled Tight (.path first rest (some name)) _ := .renamed first rest name hc hne hc' hne'
    have hplain : Plain (pathText (first :: rest) ++ [' '] ++ ['a', 's'] ++ [' '] ++ name.text) :=
      ((((pathText_plain _).append hc.plain).append marks_plain.2.2.2).append hc'.plain).append name.plain
    have hitem := leafItem_of_front (y := " as ".toList ++ name.text) (pathText_solid first rest) hspace rfl
    rw [dropStars_pathText, dropColons_pathText] at hitem
    refine expandUnder_path above first rest hs.solid (fun h => (hplain _ h).2.1 rfl) ?_ hb hb'
    simpa using hitem
  | _, _, .glob first rest, above, b, b', hb, hb' => by
    have hs : Spelled Tight (.glob first rest) _ := .glob first rest
    have hplain := (pathText_plain (first :: rest)).append marks_plain.2.1
    have hspace : ' ' ∉ pathText (first :: rest) ++ [':', ':', '*'] := by
      intro h
      rcases List.mem_append.1 h with h | h
      · exact absurd (isBlank_of_mem_pathText h) (by decide)
      · exact absurd h (by decide)
    have hitem := leafItem_of_front (y := []) hs.solid hspace rfl
    rw [List.append_nil, dropStars_pathText_star, dropColons_pathText] at hitem
    exact expandUnder_path above first rest hs.solid (fun h => (hplain _ h).2.1 rfl) hitem hb hb'
  | _, _, .star, above, b, b', hb, hb' => by
    rw [expandUnder_leaf (solid_singleton rfl) (by decide) (x := ['*']) (by decide) hb hb', if_pos (by decide)]
    cases above with
    | nil => rfl
    | cons x above =>
      rw [if_neg (by simpa using pathText_ne_nil x above)]
      rfl
  | _, _, @Spelled.bareGroup _ items s h, above, b, b', hb, hb' => by
    have hgroup := expandUnder_group (x := []) (by simp [Plain]) (braces_solid s) hb hb' (pathText above)
    have hsame : append (pathText above) (dropColons (trim [])) = pathText above := by
      have hnil : dropColons (trim []) = [] := rfl
      rw [hnil]
      cases above <;> simp [append]
    rw [List.nil_append, hsame] at hgroup
    rw [hgroup, Tree.flatten, List.append_nil]
    exact expandUnder_items h above
  | _, _, .group first rest hg h, above, b, b', hb, hb' => by
    have hs : Spelled Tight (.group (first :: rest) _) _ := .group first rest hg h
    have hcolons : Solid [':', ':'] := ⟨⟨_, _, rfl, rfl⟩, ⟨[':'], _, rfl, rfl⟩⟩
    have hsolid := (pathText_solid first rest).append_append hcolons []
    rw [List.append_nil] at hsolid
    have htrim := trim_solid blank_nil hsolid hg.blank
    rw [List.nil_append] at htrim
    have hhead := ((pathText_plain (first :: rest)).append marks_plain.1).append hg.plain
    rw [expandUnder_group hhead hs.solid hb hb', htrim, dropColons_pathText_colons, pathText_append, Tree.flatten]
    exact expandUnder_items h (above ++ first :: rest)
theorem expandUnder_items : ∀ {ts : List Tree} {s : Text}, SpelledItems Tight ts s → ∀ (above : List Segment),
    (splitTop 0 s).flatMap (expandUnder (pathText above)) = (flattenAll above ts).map pathText
  | _, _, .nil h, above => by
    cases h with
    | blank hb => simp [splitTop_end (splitTop_plain hb.plain 0), expandUnder_blank hb.blank, flattenAll]
    | comma hb hb' =>
      simp [splitTop_comma (splitTop_plain hb.plain 0), splitTop_end (splitTop_plain hb'.plain 0),
        expandUnder_blank hb.blank, expandUnder_blank hb'.blank, flattenAll]
  | _, _, .last hb h he, above => by
    cases he with
    | blank he =>
      rw [splitTop_end (splitTop_between hb h he), List.flatMap_cons, expandUnder_spelled h above hb.blank he.blank]
      simp [flattenAll]
    | comma he he' =>
      rw [← List.append_assoc, splitTop_comma (splitTop_between hb h he), splitTop_end (splitTop_plain he'.plain 0),
        List.flatMap_cons, List.flatMap_cons, expandUnder_spelled h above hb.blank he.blank,
        expandUnder_blank he'.blank]
      simp [flattenAll]
  | _, _, .cons hb h hb' hr, above => by
    rw [splitTop_comma (splitTop_between hb h hb'), List.flatMap_cons, expandUnder_spelled h above hb.blank hb'.blank,
      expandUnder_items hr above, ← List.map_append]
    rfl
end

/-- **Expanding a use tree gives the paths of its leaves**, however blanks stand after its commas, around its braces and
around `as`. -/
theorem expand_eq_flatten (h : Spelled Blank t s) (hb : Blank b) (hb' : Blank b') :
    expand (b ++ s ++ b') = (t.flatten []).map pathText := by
  have hcompact : joinWith [' '] (words (b ++ s ++ b')) = compact s := by
    change compact (b ++ s ++ b') = compact s
    rw [compact_append_blank hb', compact_blank_append hb]
  have hspelled := expandUnder_spelled h.compact [] blank_nil blank_nil
  rw [List.nil_append, List.append_nil] at hspelled
  rw [expand, hcompact]
  exact hspelled

theorem expand_nested_group : ∃ t : Tree,
    Spelled Blank t "crate::a:: \x7bb,\n  c::\x7bd as\te , self::*,\x7d,\x7b\x7d,* \x7d".toList ∧
      (t.flatten []).map pathText = ["crate::a::b", "crate::a::c::d", "crate::a::c", "crate::a"].map String.toList ∧
      expand (['\n'] ++ "crate::a:: \x7bb,\n  c::\x7bd as\te , self::*,\x7d,\x7b\x7d,* \x7d".toList ++ [' ']) =
        ["crate::a::b", "crate::a::c::d", "crate::a::c", "crate::a"].map String.toList := by
  have inner : SpelledItems Blank [.path (.word "d") [] (some (.word "e")), .glob .self []]
      "d as\te , self::*,".toList :=
    .cons (b := []) (e := [' ']) (by decide)
      (.renamed (.word "d") [] (.word "e") (b := [' ']) (e := ['\t']) (by decide) (by decide) (by decide) (by decide))
      (by decide) (.last (b := [' ']) (by decide) (.glob .self []) (.comma (b := []) (e := []) (by decide) (by decide)))
  have outer : SpelledItems Blank
      [.path (.word "b") [] none, .group [.word "c"] [.path (.word "d") [] (some (.word "e")), .glob .self []],
        .group [] [], .star] "b,\n  c::\x7bd as\te , self::*,\x7d,\x7b\x7d,* ".toList :=
    .cons (b := []) (e := []) (by decide) (.path (.word "b") []) (by decide)
      (.cons (b := "\n  ".toList) (e := []) (by decide) (.group (.word "c") [] (b := []) (by decide) inner) (by decide)
        (.cons (b := []) (e := []) (by decide) (.bareGroup (.nil (.blank (b := []) (by decide)))) (by decide)
          (.last (b := []) (by decide) .star (.blank (b := [' ']) (by decide)))))
  have tree : Spelled Blank (.group [.word "crate", .word "a"] _)
      "crate::a:: \x7bb,\n  c::\x7bd as\te , self::*,\x7d,\x7b\x7d,* \x7d".toList :=
    .group (.word "crate") [.word "a"] (b := [' ']) (by decide) outer
  exact ⟨_, tree, rfl, expand_eq_flatten tree (by decide) (by decide)⟩

end ImportTrail.UseTree
