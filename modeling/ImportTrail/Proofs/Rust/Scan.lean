import ImportTrail.Proofs.Rust.Declarations
import ImportTrail.Proofs.Scan.Find

/-!
What scanning finds in items that each begin on a line of their own.

* `FindsOn` — what a pattern finds on some lines, wherever they stand;
* `ItemPattern` — a pattern that is bound to the beginning of a line and to a word of an item;
* `ItemPattern.findsOn_none`, `ItemPattern.findsOn_match`, `findsOn_include` — what such a pattern finds, and the one for
  includes;
* `chunk_found` — the three patterns find on the lines of an item what the item stands for, at one position;
* `specifiers_program`, `imports_declarations` — scanning finds the specifiers of a sequence of items, in their order.
-/

namespace ImportTrail.Scan

open Text

variable {pat : Pattern} {prev : Option Char} {pos : ℕ} {x r : Text} {c : Char} {fs : ℕ → List Finding}

/-! ### Lines -/

/-- A line ends in front of this text. -/
def EndsLine (r : Text) : Prop := ∀ c ∈ r.head?, c = '\n'

/-- What a pattern finds on the lines that follow. -/
def findBelow (pat : Pattern) (pos : ℕ) : Text → List Finding
  | [] => []
  | c :: r => findFrom pat (some c) (pos + 1) 0 r

/-- What a pattern finds on some lines, wherever they stand. -/
def FindsOn (pat : Pattern) (x : Text) (fs : ℕ → List Finding) : Prop :=
  ∀ prev pos r, atLineStart prev = true → EndsLine r →
    findFrom pat prev pos 0 (x ++ r) = fs pos ++ findBelow pat (pos + x.length) r

/-- A pattern that does not match at the end of a line. -/
theorem findsOn_of_findsOver (hend : ∀ prev r, pat prev ('\n' :: r) = none)
    (h : ∀ prev pos r, atLineStart prev = true → EndsLine r → FindsOver pat prev pos x r (fs pos)) : FindsOn pat x fs := by
  intro prev pos r hprev hr
  have hbelow : findFrom pat (charBefore prev x) (pos + x.length) 0 r = findBelow pat (pos + x.length) r := by
    cases r with
    | nil => rfl
    | cons c r =>
      obtain rfl : c = '\n' := hr c rfl
      rw [findFrom, hend]
      rfl
  rw [← hbelow]
  exact h prev pos r hprev hr

theorem charBefore_eq_some (h : x.getLast? = some c) (prev : Option Char) : charBefore prev x = some c := by
  obtain ⟨y, rfl⟩ := List.getLast?_eq_some_iff.1 h
  rw [charBefore_append]
  rfl

theorem atLineStart_charBefore (prev : Option Char) (hne : x ≠ []) (hx : '\n' ∉ x) :
    atLineStart (charBefore prev x) = false := by
  obtain ⟨d, hd, h⟩ := charBefore_mem prev hne
  rw [h, atLineStart, beq_eq_false_iff_ne]
  rintro rfl
  exact hx hd

theorem atWordStart_of_atLineStart (h : atLineStart prev = true) : atWordStart prev = true := by
  cases prev with
  | none => rfl
  | some c =>
    simp only [atLineStart, beq_iff_eq] at h
    subst h
    rfl

end ImportTrail.Scan

namespace ImportTrail.Scan.Rust

open Text UseTree ImportTrail.Rust

variable {pat : Pattern} {prev : Option Char} {pos : ℕ} {b e v w x y q r s : Text} {c : Char}

/-! ### Words of items -/

/-- The first word on a line is not one of an item, and no attribute stands there. -/
structure BeginsNoItem (s : Text) : Prop where
  word : (s.dropWhile isSpaceTab).takeWhile isNameChar ∉ itemWords
  unmarked : ∀ q, s.dropWhile isSpaceTab ≠ '#' :: '[' :: q

/-- No line of a settled text begins an item. -/
theorem beginsNoItem_of_settled {u : Text} (hy : Settled (u ++ v)) (hu : ∀ c ∈ u.getLast?, isNameChar c = false)
    (hr : EndsLine r) : BeginsNoItem (v ++ r) := by
  have hspace : ∀ {c}, isSpaceTab c = true → isNameChar c = false := fun hc =>
    isNameChar_of_isBlank (isBlank_of_isSpaceTab hc)
  have hdrop : (v ++ r).dropWhile isSpaceTab = v.dropWhile isSpaceTab ++ r := by
    rw [List.dropWhile_append]
    split
    · rename_i hnil
      rw [List.isEmpty_iff.1 hnil, List.nil_append]
      cases r with
      | nil => rfl
      | cons c r => exact List.dropWhile_cons_of_neg (by rw [hr c rfl]; decide)
    · rfl
  have hv : u ++ v = (u ++ v.takeWhile isSpaceTab) ++ v.dropWhile isSpaceTab := by
    rw [List.append_assoc, List.takeWhile_append_dropWhile]
  -- Spaces are no characters of names, so a word may begin behind them as well.
  refine ⟨?_, fun q hq => ?_⟩
  · rw [hdrop, takeWhile_append_of_head fun c hc => by rw [hr c hc]; rfl]
    refine hy.word _ _ hv fun c hc => ?_
    rcases List.eq_nil_or_concat (v.takeWhile isSpaceTab) with hnil | ⟨z, d, hz⟩
    · exact hu c (by simpa [hnil] using hc)
    · rw [hz, List.concat_eq_append, ← List.append_assoc, List.getLast?_concat] at hc
      obtain rfl := Option.some.inj hc
      exact hspace (List.mem_takeWhile_imp (l := v) (by simp [hz]))
  · rw [hdrop] at hq
    have hbracket : '[' ∉ v.dropWhile isSpaceTab := fun h => hy.bracket (by rw [hv]; exact List.mem_append_right _ h)
    rcases hd : v.dropWhile isSpaceTab with _ | ⟨c, _ | ⟨d, z⟩⟩
    · rw [hd, List.nil_append] at hq
      exact absurd (hr '#' (by simp [hq])) (by decide)
    · rw [hd] at hq
      have hrest : r = '[' :: q := (List.cons.inj hq).2
      exact absurd (hr '[' (by simp [hrest])) (by decide)
    · rw [hd] at hq hbracket
      obtain ⟨rfl, -⟩ := List.cons.inj (List.cons.inj hq).2
      exact hbracket (by simp)

/-- Where the first word is not one of an item but begins like one, it goes on. -/
theorem word_goes_on (hx : x ∈ itemWords) (hs : s.takeWhile isNameChar ∉ itemWords) (h : after? x s = some r) :
    ∃ c q, r = c :: q ∧ isNameChar c = true := by
  have hname : itemWords.all (·.all isNameChar) = true := rfl
  obtain rfl := after?_eq_some.1 h
  rw [List.takeWhile_append_of_pos (List.all_eq_true.1 (List.all_eq_true.1 hname x hx))] at hs
  cases r with
  | nil => exact absurd (by simpa using hx) hs
  | cons c q =>
    refine ⟨c, q, rfl, ?_⟩
    by_contra hc
    rw [List.takeWhile_cons_of_neg hc, List.append_nil] at hs
    exact hs hx

theorem afterSpaces?_of_isNameChar (hc : isNameChar c = true) (r : Text) : afterSpaces? (c :: r) = none := by
  refine if_neg fun h => ?_
  rw [isNameChar_of_isBlank (isBlank_of_isSpaceTab h)] at hc
  cases hc

theorem afterVisibility?_of_notMem (hs : s.takeWhile isNameChar ∉ itemWords) (h : afterVisibility? s = some r) : r = s := by
  unfold afterVisibility? at h
  split at h
  · exact (Option.some.inj h).symm
  · rename_i hpub
    obtain ⟨c, q, hq, hc⟩ := word_goes_on (by decide) hs hpub
    obtain ⟨rfl, -⟩ := List.cons.inj hq
    cases hc
  · rename_i hpub
    obtain ⟨c, q, rfl, hc⟩ := word_goes_on (by decide) hs hpub
    rw [afterSpaces?_of_isNameChar hc] at h
    cases h

theorem afterAttributes_eq_self (h : ∀ q, s ≠ '#' :: '[' :: q) : afterAttributes s = s := by
  rw [afterAttributes.eq_def]
  split
  · exact absurd rfl (h _)
  · rfl

/-- A pattern that is bound to the beginning of a line and to a word of an item. -/
structure ItemPattern (pat : Pattern) : Prop where
  anchored : ∀ prev s, atLineStart prev = false → pat prev s = none
  worded : ∀ prev s, BeginsNoItem s → pat prev s = none

theorem itemPattern_moduleItem : ItemPattern moduleItem := by
  refine ⟨fun prev s h => by simp [moduleItem, h], fun prev s hs => ?_⟩
  rw [moduleItem]
  split
  · rfl
  · simp only [Option.bind_eq_bind, afterAttributes_eq_self hs.unmarked, Option.bind_eq_none_iff]
    intro y hy z hz a ha
    obtain rfl := afterVisibility?_of_notMem hs.word hy
    obtain ⟨c, q, rfl, hc⟩ := word_goes_on (by decide) hs.word hz
    rw [afterSpaces?_of_isNameChar hc] at ha
    cases ha

theorem itemPattern_useItem : ItemPattern useItem := by
  refine ⟨fun prev s h => by simp [useItem, h], fun prev s hs => ?_⟩
  rw [useItem]
  split
  · rfl
  · simp only [Option.bind_eq_bind, Option.bind_eq_none_iff]
    intro y hy z hz a ha
    obtain rfl := afterVisibility?_of_notMem hs.word hy
    obtain ⟨c, q, rfl, hc⟩ := word_goes_on (by decide) hs.word hz
    rw [afterSpaces?_of_isNameChar hc] at ha
    cases ha

section ItemPattern

variable (hpat : ItemPattern pat)

include hpat

theorem ItemPattern.newline (prev : Option Char) (r : Text) : pat prev ('\n' :: r) = none :=
  hpat.worded prev _ (beginsNoItem_of_settled (u := []) (v := []) settled_nil (by simp) (by simp [EndsLine]))

theorem ItemPattern.findsOver_settled (hy : Settled y) (hr : EndsLine r) : FindsOver pat prev pos y r [] := by
  refine findsOver_none fun u c v hv => ?_
  cases hline : atLineStart (charBefore prev u) with
  | false => exact hpat.anchored _ _ hline
  | true =>
    rw [hv] at hy
    refine hpat.worded _ _ (beginsNoItem_of_settled hy (fun d hd => ?_) hr)
    rw [charBefore_eq_some hd, atLineStart, beq_iff_eq] at hline
    subst hline
    rfl

/-- A line on which the pattern does not match, with settled text behind. -/
theorem ItemPattern.findsOn_none (hx : '\n' ∉ x) (hy : Settled y)
    (h : ∀ prev r, EndsLine r → pat prev (x ++ (y ++ r)) = none) : FindsOn pat (x ++ y) fun _ => [] := by
  refine findsOn_of_findsOver hpat.newline fun prev pos r _ hr => ?_
  change FindsOver pat prev pos (x ++ y) r ([] ++ [])
  refine (findsOver_none fun u c v hv => ?_).append (hpat.findsOver_settled hy hr)
  cases u with
  | nil =>
    rw [List.nil_append] at hv
    rw [← hv]
    exact h _ r hr
  | cons d u =>
    refine hpat.anchored _ _ (atLineStart_charBefore prev (by simp) fun hmem => hx ?_)
    rw [hv]
    exact List.mem_append_left _ hmem

/-- A match at the beginning of a line, with settled text behind. -/
theorem ItemPattern.findsOn_match {m : Match} (hne : x ≠ []) (hlen : m.length = x.length) (hy : Settled y)
    (h : ∀ prev r, atLineStart prev = true → pat prev (x ++ r) = some m) :
    FindsOn pat (x ++ y) fun pos => [(pos + m.before, m.capture)] := by
  refine findsOn_of_findsOver hpat.newline fun prev pos r hprev hr => ?_
  exact (findsOver_match (h prev (y ++ r) hprev) hlen hne).append (hpat.findsOver_settled hy hr)

end ItemPattern

/-! ### What stands in front of an item -/

theorem isSpaceTab_of_isNameStart (h : isNameStart c = true) : isSpaceTab c = false := by
  rw [Bool.eq_false_iff]
  intro hc
  simp only [isSpaceTab, Bool.or_eq_true, beq_iff_eq] at hc
  rcases hc with rfl | rfl <;> exact absurd h (by decide)

theorem afterSpaces?_append (hb : Spaces b) (hne : b ≠ []) (hc : isSpaceTab c = false) (r : Text) :
    afterSpaces? (b ++ c :: r) = some (c :: r) := by
  obtain ⟨d, b', rfl, hd, hb'⟩ := hb.exists_cons hne
  rw [List.cons_append, afterSpaces?, if_pos (by rcases hd with rfl | rfl <;> rfl), dropWhile_spaces hb' hc]

theorem afterVisibility?_lead (hv : Lead v) (hc : isSpaceTab c = false) (hp : c ≠ 'p') (r : Text) :
    afterVisibility? ((v ++ c :: r).dropWhile isSpaceTab) = some (c :: r) := by
  cases hv with
  | own hb =>
    have hpub : after? "pub".toList (c :: r) = none := by simp [after?, Ne.symm hp]
    rw [dropWhile_spaces hb hc, afterVisibility?, hpub]
  | @all b b' hb hb' hne =>
    have hdrop : (b ++ ("pub".toList ++ b') ++ c :: r).dropWhile isSpaceTab = "pub".toList ++ (b' ++ c :: r) := by
      have := dropWhile_spaces (c := 'p') hb rfl ('u' :: 'b' :: (b' ++ c :: r))
      simpa using this
    have hspaces := afterSpaces?_append hb' hne hc r
    have hafter : after? "pub".toList ("pub".toList ++ (b' ++ c :: r)) = some (b' ++ c :: r) := after?_eq_some.2 rfl
    obtain ⟨d, b'', rfl, hd, -⟩ := hb'.exists_cons hne
    rw [hdrop, afterVisibility?, hafter]
    rcases hd with rfl | rfl <;> exact hspaces
  | @within b scope b' hb hscope hb' hne =>
    have hdrop : (b ++ ("pub(".toList ++ (scope ++ ')' :: b')) ++ c :: r).dropWhile isSpaceTab =
        "pub".toList ++ '(' :: (scope ++ ')' :: (b' ++ c :: r)) := by
      have := dropWhile_spaces (c := 'p') hb rfl ('u' :: 'b' :: '(' :: (scope ++ ')' :: (b' ++ c :: r)))
      simpa using this
    have hafter : after? "pub".toList ("pub".toList ++ '(' :: (scope ++ ')' :: (b' ++ c :: r))) =
        some ('(' :: (scope ++ ')' :: (b' ++ c :: r))) := after?_eq_some.2 rfl
    have hclose : (scope ++ ')' :: (b' ++ c :: r)).dropWhile (· != ')') = ')' :: (b' ++ c :: r) := by
      refine dropWhile_append_cons (fun d hd => ?_) (by simp) _
      have := List.all_eq_true.1 hscope d hd
      simp only [isScopeChar, Bool.and_eq_true] at this
      exact this.1.1
    rw [hdrop, afterVisibility?, hafter]
    simp only [hclose]
    exact afterSpaces?_append hb' hne hc r

/-- No attributes stand in front of an item. -/
theorem afterAttributes_lead (hv : Lead v) (hc : isSpaceTab c = false) (hh : c ≠ '#') (r : Text) :
    afterAttributes ((v ++ c :: r).dropWhile isSpaceTab) = (v ++ c :: r).dropWhile isSpaceTab := by
  have hpub : ∀ {b : Text} (z : Text), Spaces b → ∀ q, (b ++ 'p' :: z).dropWhile isSpaceTab ≠ '#' :: '[' :: q := by
    intro b z hb q
    rw [dropWhile_spaces hb rfl]
    simp
  refine afterAttributes_eq_self fun q => ?_
  cases hv with
  | own hb =>
    rw [dropWhile_spaces hb hc]
    exact fun h => hh (List.cons.inj h).1
  | @all b b' hb =>
    have := hpub ('u' :: 'b' :: (b' ++ c :: r)) hb q
    simpa using this
  | @within b scope b' hb =>
    have := hpub ('u' :: 'b' :: '(' :: (scope ++ ')' :: (b' ++ c :: r))) hb q
    simpa using this

/-- Neither a new line nor an exclamation mark stands in front of an item. -/
theorem notMem_lead (hv : Lead v) (hc : c = '\n' ∨ c = '!') : c ∉ v := by
  have hspaces : ∀ {b : Text}, Spaces b → c ∉ b := by
    intro b hb
    rcases hc with rfl | rfl <;> exact hb.notMem rfl
  cases hv with
  | own hb => exact hspaces hb
  | all hb hb' => rcases hc with rfl | rfl <;> simp [hspaces hb, hspaces hb']
  | @within b scope b' hb hscope hb' =>
    have hnone : c ∉ scope := by
      intro h
      have := List.all_eq_true.1 hscope c h
      rcases hc with rfl | rfl <;> cases this
    rcases hc with rfl | rfl <;> simp [hspaces hb, hspaces hb', hnone]

/-! ### Modules -/

theorem takeWhile_name (hx : isName x = true) (hr : ∀ d ∈ r.head?, isNameRest d = false) :
    (x ++ r).takeWhile isNameRest = x := by
  rw [takeWhile_append_of_head hr, List.takeWhile_eq_self_iff.2 (isName_chars hx).2]

theorem not_isNameRest_of_spaces (hb : Spaces b) (hc : isNameRest c = false) (r : Text) :
    ∀ d ∈ (b ++ c :: r).head?, isNameRest d = false := by
  intro d hd
  cases b with
  | nil =>
    obtain rfl : c = d := by simpa using hd
    exact hc
  | cons d' b =>
    obtain rfl : d' = d := by simpa using hd
    have := hb d' List.mem_cons_self
    simp only [isSpaceTab, Bool.or_eq_true, beq_iff_eq] at this
    rcases this with rfl | rfl <;> rfl

/-- What the pattern sees of a module, up to the spaces behind its name. -/
theorem moduleItem_module (hprev : atLineStart prev = true) (hv : Lead v) (hx : isName x = true) (hb : Spaces b)
    (hne : b ≠ []) (he : Spaces e) (hc : isSpaceTab c = false) (hrest : isNameRest c = false) (r : Text) :
    moduleItem prev (v ++ ("mod".toList ++ (b ++ (x ++ (e ++ c :: r))))) =
      if c = ';' then some ⟨v.length + b.length + 3, x, e.length + 1⟩ else none := by
  have hattributes := afterAttributes_lead (c := 'm') hv rfl (by decide) ('o' :: 'd' :: (b ++ (x ++ (e ++ c :: r))))
  have hvisibility := afterVisibility?_lead (c := 'm') hv rfl (by decide) ('o' :: 'd' :: (b ++ (x ++ (e ++ c :: r))))
  have hname := takeWhile_name hx (not_isNameRest_of_spaces he hrest r)
  have htail := dropWhile_spaces he hc r
  have hmod : after? "mod".toList ('m' :: 'o' :: 'd' :: (b ++ (x ++ (e ++ c :: r)))) = some (b ++ (x ++ (e ++ c :: r))) :=
    after?_eq_some.2 rfl
  obtain ⟨d, x', rfl, hstart, -⟩ := exists_cons_of_isName hx
  have hspaces := afterSpaces?_append hb hne (isSpaceTab_of_isNameStart hstart) (x' ++ (e ++ c :: r))
  have hbehind : (d :: (x' ++ (e ++ c :: r))).drop (d :: x').length = e ++ c :: r := List.drop_left
  rw [List.cons_append] at hattributes hvisibility hname hmod
  change moduleItem prev (v ++ 'm' :: 'o' :: 'd' :: (b ++ d :: (x' ++ (e ++ c :: r)))) = _
  simp only [moduleItem, hprev, hattributes, hvisibility, hmod, hspaces, hstart, hname, hbehind, htail,
    Option.bind_eq_bind, Option.bind_some, Bool.not_true, Bool.false_eq_true, if_false, if_true]
  by_cases hsemi : c = ';'
  · subst hsemi
    simp only [if_true, Option.some.injEq, Match.mk.injEq, true_and]
    simp only [List.length_append, List.length_cons]
    omega
  · rw [if_neg hsemi]
    split
    · rename_i h
      exact absurd (List.cons.inj h).1 hsemi
    · rfl

theorem moduleItem_other (prev : Option Char) (hv : Lead v) (hc : isSpaceTab c = false) (hh : c ≠ '#')
    (hp : c ≠ 'p') (hm : c ≠ 'm') (r : Text) :
    moduleItem prev (v ++ c :: r) = none := by
  have hattributes := afterAttributes_lead hv hc hh r
  have hvisibility := afterVisibility?_lead hv hc hp r
  have hmod : after? "mod".toList (c :: r) = none := by simp [after?, Ne.symm hm]
  simp only [moduleItem, hattributes, hvisibility, hmod, Option.bind_eq_bind, Option.bind_some, Option.bind_none, ite_self]

/-! ### Uses -/

theorem useItem_other (prev : Option Char) (hv : Lead v) (hc : isSpaceTab c = false) (hp : c ≠ 'p')
    (hu : c ≠ 'u') (r : Text) : useItem prev (v ++ c :: r) = none := by
  have hvisibility := afterVisibility?_lead hv hc hp r
  have huse : after? "use".toList (c :: r) = none := by simp [after?, Ne.symm hu]
  simp only [useItem, hvisibility, huse, Option.bind_eq_bind, Option.bind_some, Option.bind_none, ite_self]

theorem afterLocalRoot?_append (hx : x ∈ localRoots) (r : Text) : afterLocalRoot? (x ++ ':' :: ':' :: r) = some r := by
  simp only [localRoots, List.mem_cons, List.not_mem_nil, or_false] at hx
  rcases hx with rfl | rfl | rfl <;> rfl

theorem useItem_foreign (prev : Option Char) (hv : Lead v) (hb : Spaces b) (hne : b ≠ []) (hc : isSpaceTab c = false)
    (h : isLocalPath (c :: r) = false) : useItem prev (v ++ ("use".toList ++ (b ++ c :: r))) = none := by
  have hvisibility := afterVisibility?_lead (c := 'u') hv rfl (by decide) ('s' :: 'e' :: (b ++ c :: r))
  have huse : after? "use".toList ('u' :: 's' :: 'e' :: (b ++ c :: r)) = some (b ++ c :: r) := after?_eq_some.2 rfl
  have hspaces := afterSpaces?_append hb hne hc r
  have hroot : afterLocalRoot? (c :: r) = none := by simpa [isLocalPath] using h
  change useItem prev (v ++ 'u' :: 's' :: 'e' :: (b ++ c :: r)) = _
  simp only [useItem, hvisibility, huse, hspaces, hroot, Option.bind_eq_bind, Option.bind_some, Option.bind_none, ite_self]

theorem useItem_local {q : Text} (hprev : atLineStart prev = true) (hv : Lead v) (hb : Spaces b) (hne : b ≠ [])
    (hx : x ∈ localRoots) (hq : q ≠ []) (hsemi : ';' ∉ q) (r : Text) :
    useItem prev (v ++ ("use".toList ++ (b ++ (x ++ ':' :: ':' :: (q ++ ';' :: r))))) =
      some ⟨v.length + b.length + 3, x ++ ':' :: ':' :: q, 1⟩ := by
  have hchars : ∀ c ∈ x, isNameStart c = true := List.all_eq_true.1 (localRoots_chars x hx)
  have hroot := afterLocalRoot?_append hx (q ++ ';' :: r)
  have htree : (x ++ ':' :: ':' :: (q ++ ';' :: r)).takeWhile (· != ';') = x ++ ':' :: ':' :: q := by
    have hnone : ∀ c ∈ x ++ ':' :: ':' :: q, (c != ';') = true := by
      intro c hc
      rw [bne_iff_ne]
      rintro rfl
      simp only [List.mem_append, List.mem_cons] at hc
      rcases hc with hc | hc | hc | hc
      · exact absurd (hchars _ hc) (by decide)
      · cases hc
      · cases hc
      · exact hsemi hc
    have hsplit : x ++ ':' :: ':' :: (q ++ ';' :: r) = (x ++ ':' :: ':' :: q) ++ ';' :: r := by simp
    rw [hsplit, takeWhile_append_cons hnone (by simp)]
  obtain ⟨c, x', rfl⟩ : ∃ c x', x = c :: x' := by
    cases x with
    | nil => simp [localRoots] at hx
    | cons c x' => exact ⟨c, x', rfl⟩
  obtain ⟨d, q', rfl⟩ := List.exists_cons_of_ne_nil hq
  have hd : d ≠ ';' := by
    rintro rfl
    exact hsemi List.mem_cons_self
  have hspaces := afterSpaces?_append hb hne (isSpaceTab_of_isNameStart (hchars c List.mem_cons_self))
    (x' ++ ':' :: ':' :: (d :: q' ++ ';' :: r))
  rw [List.cons_append] at hroot htree ⊢
  generalize hy : x' ++ ':' :: ':' :: (d :: q' ++ ';' :: r) = y at hroot htree hspaces ⊢
  have hvisibility := afterVisibility?_lead (c := 'u') hv rfl (by decide) ('s' :: 'e' :: (b ++ c :: y))
  have huse : after? "use".toList ('u' :: 's' :: 'e' :: (b ++ c :: y)) = some (b ++ c :: y) := after?_eq_some.2 rfl
  have hlen : (c :: x' ++ ':' :: ':' :: d :: q').length < (c :: y).length := by
    rw [← hy]
    simp
  have hbefore : (v ++ 'u' :: 's' :: 'e' :: (b ++ c :: y)).length - (c :: y).length = v.length + b.length + 3 := by
    simp only [List.length_append, List.length_cons]
    omega
  change useItem prev (v ++ 'u' :: 's' :: 'e' :: (b ++ c :: y)) = _
  simp only [useItem, hprev, hvisibility, huse, hspaces, hroot, htree, hbefore, if_pos hlen, Option.bind_eq_bind,
    Option.bind_some, Bool.not_true, Bool.false_eq_true, if_false]
  split
  · rename_i h
    cases h
  · rename_i h
    exact absurd (List.cons.inj h).1 hd
  · rfl

/-! ### Includes -/

/-- No call is seen where no exclamation mark is left on the line. -/
theorem includeCall_none (hy : '!' ∉ y) (hr : EndsLine r) : includeCall prev (y ++ r) = none := by
  have hafter : after? "include!".toList (y ++ r) = none := by
    rw [Option.eq_none_iff_forall_not_mem]
    intro z hz
    rcases List.append_eq_append_iff.1 (after?_eq_some.1 hz) with ⟨a, ha, hra⟩ | ⟨a, ha, -⟩
    · -- The word would go on behind the end of the line.
      cases a with
      | nil =>
        rw [List.append_nil] at ha
        exact hy (by rw [← ha]; decide)
      | cons d a =>
        have hd : d = '\n' := hr d (by rw [hra]; rfl)
        have : '\n' ∈ "include!".toList := by rw [ha, hd]; simp
        exact absurd this (by decide)
    · exact hy (by rw [ha]; exact List.mem_append_left _ (by decide))
  simp only [includeCall, hafter, Option.bind_eq_bind, Option.bind_none, ite_self]

theorem findsOver_noInclude (hx : '!' ∉ x) (hr : EndsLine r) : FindsOver includeCall prev pos x r [] := by
  refine findsOver_none fun u c v hv => includeCall_none (fun h => hx ?_) hr
  rw [hv]
  exact List.mem_append_right _ h

theorem includeCall_newline (prev : Option Char) (r : Text) : includeCall prev ('\n' :: r) = none :=
  includeCall_none (y := []) (by simp) (by simp [EndsLine])

theorem findsOn_noInclude (hx : '!' ∉ x) : FindsOn includeCall x fun _ => [] :=
  findsOn_of_findsOver includeCall_newline fun _ _ _ _ hr => findsOver_noInclude hx hr

theorem dropWhile_isBlank (hb : Spaces b) (hc : isBlank c = false) (r : Text) :
    (b ++ c :: r).dropWhile isBlank = c :: r := dropWhile_append_cons hb.blank hc r

/-- The word of a call. -/
def includeWord : Text := "include!".toList

/-- The text of a call up to its closing bracket. -/
def callText (path b₁ b₂ b₃ : Text) : Text :=
  includeWord ++ (b₁ ++ '(' :: (b₂ ++ '"' :: (path ++ '"' :: (b₃ ++ [')']))))

theorem length_callText (path b₁ b₂ b₃ : Text) :
    (callText path b₁ b₂ b₃).length = b₁.length + b₂.length + 10 + path.length + (b₃.length + 2) := by
  have : includeWord.length = 8 := rfl
  simp only [callText, List.length_append, List.length_cons, List.length_nil, this]
  omega

theorem includeCall_call {path b₁ b₂ b₃ : Text} (hword : atWordStart prev = true) (hne : path ≠ []) (hpath : '"' ∉ path)
    (hb₁ : Spaces b₁) (hb₂ : Spaces b₂) (hb₃ : Spaces b₃) (r : Text) :
    includeCall prev (callText path b₁ b₂ b₃ ++ r) = some ⟨b₁.length + b₂.length + 10, path, b₃.length + 2⟩ := by
  have hquote : (path ++ '"' :: (b₃ ++ ')' :: r)).takeWhile (· != '"') = path := by
    have hchars : ∀ c ∈ path, (c != '"') = true := by
      intro c hc
      rw [bne_iff_ne]
      rintro rfl
      exact hpath hc
    exact takeWhile_append_cons hchars (by simp) _
  have hdrop : (path ++ '"' :: (b₃ ++ ')' :: r)).drop path.length = '"' :: (b₃ ++ ')' :: r) := List.drop_left
  have h₁ := dropWhile_isBlank (c := '(') hb₁ rfl (b₂ ++ '"' :: (path ++ '"' :: (b₃ ++ ')' :: r)))
  have h₂ := dropWhile_isBlank (c := '"') hb₂ rfl (path ++ '"' :: (b₃ ++ ')' :: r))
  have h₃ := dropWhile_isBlank (c := ')') hb₃ rfl r
  have hcall : callText path b₁ b₂ b₃ ++ r =
      includeWord ++ (b₁ ++ '(' :: (b₂ ++ '"' :: (path ++ '"' :: (b₃ ++ ')' :: r)))) := by
    simp only [callText, List.append_assoc, List.cons_append, List.nil_append]
  have hinclude : after? "include!".toList (callText path b₁ b₂ b₃ ++ r) = some _ := after?_eq_some.2 hcall
  have hopen : ∀ s, after? ['('] ('(' :: s) = some s := fun _ => after?_eq_some.2 rfl
  have hmark : ∀ s, after? ['"'] ('"' :: s) = some s := fun _ => after?_eq_some.2 rfl
  have hsome : path.isEmpty = false := by simpa using hne
  have hlen : (callText path b₁ b₂ b₃ ++ r).length - (path ++ '"' :: (b₃ ++ ')' :: r)).length =
      b₁.length + b₂.length + 10 := by
    have := length_callText path b₁ b₂ b₃
    simp only [List.length_append, List.length_cons] at this ⊢
    omega
  have hlen' : (b₃ ++ ')' :: r).length + 1 - r.length = b₃.length + 2 := by
    simp only [List.length_append, List.length_cons]
    omega
  simp only [includeCall, hword, hinclude, h₁, hopen, h₂, hmark, hquote, hdrop, h₃, hsome, hlen, hlen', Option.bind_eq_bind,
    Option.bind_some, Bool.not_true, Bool.false_eq_true, if_false]

/-- Spaces in front of a word. -/
theorem atWordStart_charBefore (hprev : atLineStart prev = true) (hb : Spaces b) :
    atWordStart (charBefore prev b) = true := by
  rcases eq_or_ne b [] with rfl | hne
  · exact atWordStart_of_atLineStart hprev
  · obtain ⟨d, hd, h⟩ := charBefore_mem prev hne
    have := hb d hd
    simp only [isSpaceTab, Bool.or_eq_true, beq_iff_eq] at this
    rw [h]
    rcases this with rfl | rfl <;> rfl

theorem findsOver_spaces (hb : Spaces b) : FindsOver includeCall prev pos b r [] := by
  refine findsOver_none fun u c v hv => ?_
  have hc : 'i' ≠ c := by
    rintro rfl
    cases hb 'i' (by simp [hv])
  have hafter : after? "include!".toList (c :: v ++ r) = none := by simp [after?, hc]
  simp only [includeCall, hafter, Option.bind_eq_bind, Option.bind_none, ite_self]

theorem findsOn_include {path b₁ b₂ b₃ : Text} (hb : Spaces b) (hne : path ≠ []) (hpath : '"' ∉ path) (hb₁ : Spaces b₁)
    (hb₂ : Spaces b₂) (hb₃ : Spaces b₃) (hy : '!' ∉ y) :
    FindsOn includeCall (b ++ (callText path b₁ b₂ b₃ ++ y))
      fun pos => [(pos + b.length + (b₁.length + b₂.length + 10), path)] := by
  refine findsOn_of_findsOver includeCall_newline fun prev pos r hprev hr => ?_
  have hcall := includeCall_call (atWordStart_charBefore hprev hb) hne hpath hb₁ hb₂ hb₃ (y ++ r)
  have hlen := length_callText path b₁ b₂ b₃
  have hne : callText path b₁ b₂ b₃ ≠ [] := by simp [callText]
  change FindsOver includeCall prev pos (b ++ (callText path b₁ b₂ b₃ ++ y)) r ([] ++ ([_] ++ []))
  exact (findsOver_spaces hb).append ((findsOver_match hcall hlen.symm hne).append (findsOver_noInclude hy hr))

/-! ### Items -/

/-- What the three patterns have found. -/
def merged (modules includes uses : List Finding) : List Finding :=
  modules ++ includes.map (fun f => (f.1, includeSpecifier f.2)) ++
    uses.flatMap fun f => (UseTree.expand f.2).map fun p => (f.1, p)

/-- The patterns find these specifiers on some lines, all at one position. -/
def Found (specs : List Text) (x : Text) : Prop :=
  ∃ k modules includes uses, k ≤ x.length ∧ FindsOn moduleItem x modules ∧ FindsOn includeCall x includes ∧
    FindsOn useItem x uses ∧ ∀ pos, merged (modules pos) (includes pos) (uses pos) = specs.map fun s => (pos + k, s)

theorem notMem_module (hv : Lead v) (hx : isName x = true) (hb : Spaces b) (he : Spaces e) (hc : c = '\n' ∨ c = '!') :
    c ∉ v ++ ("mod".toList ++ (b ++ (x ++ e))) := by
  have hname : ∀ d, isNameRest d = false → d ∉ x := by
    intro d hd hmem
    rw [(isName_chars hx).2 d hmem] at hd
    cases hd
  have hlead := notMem_lead hv hc
  rcases hc with rfl | rfl
  · simp [hlead, hb.notMem (c := '\n') rfl, hname '\n' rfl, he.notMem (c := '\n') rfl]
  · simp [hlead, hb.notMem (c := '!') rfl, hname '!' rfl, he.notMem (c := '!') rfl]

theorem blank_found (hw : Blank w) : Found [] w := by
  have hsettled := settled_blank hw
  have hnone : ∀ {pat}, ItemPattern pat → FindsOn pat w fun _ => [] := fun hpat =>
    findsOn_of_findsOver hpat.newline fun _ _ _ _ hr => hpat.findsOver_settled hsettled hr
  exact ⟨0, _, _, _, Nat.zero_le _, hnone itemPattern_moduleItem, findsOn_noInclude (hw.notMem rfl),
    hnone itemPattern_useItem, fun _ => rfl⟩

theorem file_found (hv : Lead v) (hx : isName x = true) (hb : Spaces b) (hne : b ≠ []) (he : Spaces e) (hw : Blank w) :
    Found [x] (v ++ ("mod".toList ++ (b ++ (x ++ (e ++ [';'])))) ++ w) := by
  have hline : '\n' ∉ v ++ ("mod".toList ++ (b ++ (x ++ (e ++ [';'])))) := by
    simpa using notMem_module hv hx hb he (.inl rfl)
  have hmark : '!' ∉ v ++ ("mod".toList ++ (b ++ (x ++ (e ++ [';'])))) ++ w := by
    simpa [hw.notMem (c := '!') rfl] using notMem_module hv hx hb he (.inr rfl)
  have hmodule := itemPattern_moduleItem.findsOn_match (x := v ++ ("mod".toList ++ (b ++ (x ++ (e ++ [';'])))))
    (m := ⟨v.length + b.length + 3, x, e.length + 1⟩) (by simp) (by simp [Match.length]; omega) (settled_blank hw)
    fun prev r hprev => by
      have := moduleItem_module hprev hv hx hb hne he (c := ';') rfl rfl r
      simpa using this
  have huse := itemPattern_useItem.findsOn_none hline (settled_blank hw) fun prev r _ => by
    have := useItem_other prev (c := 'm') hv rfl (by decide) (by decide) ('o' :: 'd' :: (b ++ (x ++ (e ++ ';' :: (w ++ r)))))
    simpa using this
  refine ⟨v.length + b.length + 3, _, _, _, ?_, hmodule, findsOn_noInclude hmark, huse, fun pos => rfl⟩
  simp
  omega

theorem inner_found {e' : Text} (hv : Lead v) (hx : isName x = true) (hb : Spaces b) (hne : b ≠ []) (he : Spaces e)
    (he' : Blank e') (hw : Blank w) :
    Found [] (v ++ ("mod".toList ++ (b ++ (x ++ (e ++ '\x7b' :: (e' ++ ['\x7d']))))) ++ w) := by
  have hline : '\n' ∉ v ++ ("mod".toList ++ (b ++ (x ++ (e ++ ['\x7b'])))) := by
    simpa using notMem_module hv hx hb he (.inl rfl)
  have hmark : '!' ∉ v ++ ("mod".toList ++ (b ++ (x ++ (e ++ ['\x7b'])))) ++ (e' ++ '\x7d' :: w) := by
    simpa [he'.notMem (c := '!') rfl, hw.notMem (c := '!') rfl] using notMem_module hv hx hb he (.inr rfl)
  have hbody : Settled (e' ++ '\x7d' :: w) := ((settled_blank hw).cons (c := '\x7d') rfl (by decide)).blank he'
  have htext : v ++ ("mod".toList ++ (b ++ (x ++ (e ++ '\x7b' :: (e' ++ ['\x7d']))))) ++ w =
      v ++ ("mod".toList ++ (b ++ (x ++ (e ++ ['\x7b'])))) ++ (e' ++ '\x7d' :: w) := by simp
  rw [htext]
  have hmodule := itemPattern_moduleItem.findsOn_none hline hbody fun prev r _ => by
    cases hprev : atLineStart prev with
    | false => exact itemPattern_moduleItem.anchored _ _ hprev
    | true =>
      have := moduleItem_module hprev hv hx hb hne he (c := '\x7b') rfl rfl (e' ++ '\x7d' :: (w ++ r))
      simpa using this
  have huse := itemPattern_useItem.findsOn_none hline hbody fun prev r _ => by
    have := useItem_other prev (c := 'm') hv rfl (by decide) (by decide)
      ('o' :: 'd' :: (b ++ (x ++ (e ++ '\x7b' :: (e' ++ '\x7d' :: (w ++ r))))))
    simpa using this
  exact ⟨0, _, _, _, Nat.zero_le _, hmodule, findsOn_noInclude hmark, huse, fun pos => rfl⟩

theorem head_of_blank (he : Blank e) (r : Text) : ∀ c ∈ (e ++ ';' :: r).head?, c = ';' ∨ isBlank c = true := by
  intro c hc
  cases e with
  | nil => exact .inl (by simpa [eq_comm] using hc)
  | cons d e =>
    obtain rfl : d = c := by simpa using hc
    exact .inr (he d List.mem_cons_self)

section Use

variable (hv : Lead v) (hs : Usable s) (hb : Spaces b) (he : Blank e) (hw : Blank w)

include hv hs hb he hw

/-- Behind the first line of a use, or behind its tree if that stands on one line, no line begins an item. -/
theorem use_cut : ∃ x y, v ++ ("use".toList ++ (b ++ (s ++ (e ++ [';'])))) ++ w = x ++ y ∧ '\n' ∉ x ∧ Settled y := by
  have hend : Settled (e ++ ';' :: w) := ((settled_blank hw).cons (c := ';') rfl (by decide)).blank he
  have hfront : '\n' ∉ v ++ ("use".toList ++ b) := by
    simp [notMem_lead hv (.inl rfl), hb.notMem (c := '\n') rfl]
  by_cases hline : '\n' ∈ s
  · refine ⟨v ++ ("use".toList ++ b), s ++ (e ++ ';' :: w), by simp, hfront, ?_⟩
    refine (hs.settled hline).append hend fun c hc => ?_
    rcases head_of_blank he w c hc with rfl | hc
    · rfl
    · exact isNameChar_of_isBlank hc
  · refine ⟨v ++ ("use".toList ++ b) ++ s, e ++ ';' :: w, by simp, ?_, hend⟩
    rw [List.mem_append, not_or]
    exact ⟨hfront, hline⟩

theorem use_findsOn_none (hpat : ItemPattern pat)
    (h : ∀ prev r, pat prev (v ++ ("use".toList ++ (b ++ (s ++ (e ++ ';' :: (w ++ r)))))) = none) :
    FindsOn pat (v ++ ("use".toList ++ (b ++ (s ++ (e ++ [';'])))) ++ w) fun _ => [] := by
  obtain ⟨x, y, htext, hx, hy⟩ := use_cut hv hs hb he hw
  rw [htext]
  refine hpat.findsOn_none hx hy fun prev r _ => ?_
  rw [← List.append_assoc, ← htext]
  simpa using h prev r

/-- On the lines of a use only the pattern for uses can find anything. -/
theorem used_found_of {specs : List Text} {k : ℕ} {uses : ℕ → List Finding} (hk : k ≤ v.length + b.length + 3)
    (huses : FindsOn useItem (v ++ ("use".toList ++ (b ++ (s ++ (e ++ [';'])))) ++ w) uses)
    (h : ∀ pos, (uses pos).flatMap (fun f => (UseTree.expand f.2).map fun p => (f.1, p)) = specs.map fun s => (pos + k, s)) :
    Found specs (v ++ ("use".toList ++ (b ++ (s ++ (e ++ [';'])))) ++ w) := by
  have hmark : '!' ∉ v ++ ("use".toList ++ (b ++ (s ++ (e ++ [';'])))) ++ w := by
    simp [notMem_lead hv (.inr rfl), hb.notMem (c := '!') rfl, hs.notMem (c := '!') rfl rfl (by decide),
      he.notMem (c := '!') rfl, hw.notMem (c := '!') rfl]
  have hmodule := use_findsOn_none hv hs hb he hw itemPattern_moduleItem fun prev r =>
    moduleItem_other prev (c := 'u') hv rfl (by decide) (by decide) (by decide)
      ('s' :: 'e' :: (b ++ (s ++ (e ++ ';' :: (w ++ r)))))
  refine ⟨k, _, _, _, ?_, hmodule, findsOn_noInclude hmark, huses, h⟩
  simp
  omega

end Use

/-- Blanks or a semicolon behind a text make no local path of it. -/
theorem isLocalPath_append (h : isLocalPath s = false) (hr : ∀ c ∈ r.head?, c = ';' ∨ isBlank c = true) :
    isLocalPath (s ++ r) = false := by
  have hchars : localRoots.all (fun root => (root ++ [':', ':']).all fun c => c != ';' && !isBlank c) = true := rfl
  rw [Bool.eq_false_iff] at h ⊢
  intro hlocal
  obtain ⟨root, hroot, q, hq⟩ := isLocalPath_iff.1 hlocal
  have hsplit : s ++ r = root ++ [':', ':'] ++ q := by simpa using hq
  rcases List.append_eq_append_iff.1 hsplit with ⟨a, ha, rfl⟩ | ⟨a, rfl, -⟩
  · cases a with
    | nil => exact h (isLocalPath_iff.2 ⟨root, hroot, [], by simpa using ha.symm⟩)
    | cons c a =>
      have hc := List.all_eq_true.1 (List.all_eq_true.1 hchars root hroot) c (by simp [ha])
      rcases hr c rfl with rfl | hblank
      · cases hc
      · simp [hblank] at hc
  · exact h (isLocalPath_iff.2 ⟨root, hroot, a, by simp⟩)

theorem used_found (hv : Lead v) (hs : Usable s) (hb : Spaces b) (hne : b ≠ []) (he : Blank e) (hw : Blank w) :
    Found (Declaration.used s).specifiers (v ++ ("use".toList ++ (b ++ (s ++ (e ++ [';'])))) ++ w) := by
  rw [Declaration.specifiers]
  split
  · rename_i hlocal
    obtain ⟨root, hroot, q, hq, hqne⟩ := hs.exists_root hlocal
    have hsemi : ';' ∉ q ++ e := by
      have : ';' ∉ s := hs.notMem rfl rfl (by decide)
      rw [hq] at this
      simp only [List.mem_append, List.mem_cons, not_or] at this
      simp [this, he.notMem (c := ';') rfl]
    have huses := itemPattern_useItem.findsOn_match (x := v ++ ("use".toList ++ (b ++ (s ++ (e ++ [';'])))))
      (m := ⟨v.length + b.length + 3, s ++ e, 1⟩) (by simp) (by simp [Match.length]; omega) (settled_blank hw)
      fun prev r hprev => by
        have := useItem_local hprev hv hb hne hroot (by simp [hqne]) hsemi r
        simpa [hq] using this
    refine used_found_of hv hs hb he hw le_rfl huses fun pos => ?_
    rw [List.flatMap_singleton, expand_append_blank he]
  · rename_i hforeign
    have huses := use_findsOn_none hv hs hb he hw itemPattern_useItem fun prev r => by
      have hbehind := isLocalPath_append (by simpa using hforeign) (head_of_blank he (w ++ r))
      obtain ⟨c, s', rfl, hc⟩ := hs.first
      have hspace : isSpaceTab c = false := by
        rw [Bool.eq_false_iff]
        intro h
        rw [isBlank_of_isSpaceTab h] at hc
        cases hc
      exact useItem_foreign prev hv hb hne hspace hbehind
    exact used_found_of hv hs hb he hw (Nat.zero_le _) huses fun _ => rfl

theorem included_found {path b₁ b₂ b₃ b₄ : Text} (hb : Spaces b) (hne : path ≠ []) (hpath : '"' ∉ path) (hline : '\n' ∉ path)
    (hb₁ : Spaces b₁) (hb₂ : Spaces b₂) (hb₃ : Spaces b₃) (hb₄ : Spaces b₄) (hw : Blank w) :
    Found [includeSpecifier path] (b ++ (callText path b₁ b₂ b₃ ++ (b₄ ++ [';'])) ++ w) := by
  have hspaces : ∀ {b : Text}, Spaces b → '\n' ∉ b := fun hb => hb.notMem rfl
  have hword : '\n' ∉ includeWord := by decide
  have hfirst : '\n' ∉ b ++ (callText path b₁ b₂ b₃ ++ (b₄ ++ [';'])) := by
    simp [callText, hword, hspaces hb, hspaces hb₁, hspaces hb₂, hspaces hb₃, hspaces hb₄, hline]
  have hfront : ∀ r, ∃ y, b ++ (callText path b₁ b₂ b₃ ++ (b₄ ++ [';'])) ++ (w ++ r) = b ++ 'i' :: y := by
    intro r
    obtain ⟨y, hy⟩ : ∃ y, callText path b₁ b₂ b₃ ++ (b₄ ++ [';']) = 'i' :: y := ⟨_, rfl⟩
    exact ⟨y ++ (w ++ r), by rw [hy]; simp⟩
  have hmodule := itemPattern_moduleItem.findsOn_none hfirst (settled_blank hw) fun prev r _ => by
    obtain ⟨y, hy⟩ := hfront r
    rw [hy]
    exact moduleItem_other prev (.own hb) rfl (by decide) (by decide) (by decide) y
  have huse := itemPattern_useItem.findsOn_none hfirst (settled_blank hw) fun prev r _ => by
    obtain ⟨y, hy⟩ := hfront r
    rw [hy]
    exact useItem_other prev (.own hb) rfl (by decide) (by decide) y
  have hmark : '!' ∉ b₄ ++ ';' :: w := by simp [hb₄.notMem (c := '!') rfl, hw.notMem (c := '!') rfl]
  have hinclude := findsOn_include hb hne hpath hb₁ hb₂ hb₃ hmark
  have htext : b ++ (callText path b₁ b₂ b₃ ++ (b₄ ++ ';' :: w)) =
      b ++ (callText path b₁ b₂ b₃ ++ (b₄ ++ [';'])) ++ w := by simp
  rw [htext] at hinclude
  refine ⟨b.length + (b₁.length + b₂.length + 10), fun _ => [], _, fun _ => [], ?_, hmodule, hinclude, huse, fun pos => ?_⟩
  · have := length_callText path b₁ b₂ b₃
    simp only [List.length_append]
    omega
  · simp [merged, Nat.add_assoc]

/-- **The patterns find on the lines of an item what the item stands for.** -/
theorem chunk_found {ds : List Declaration} (h : Chunk ds x) : Found (ds.flatMap Declaration.specifiers) x := by
  cases h with
  | blank hw => exact blank_found hw
  | @declared d s w h hw =>
    rw [List.flatMap_singleton]
    cases h with
    | file hv hx hb hne he => exact file_found hv hx hb hne he hw
    | inner hv hx hb hne he he' => exact inner_found hv hx hb hne he he' hw
    | @included b path b₁ b₂ b₃ b₄ hb hne hpath hline hb₁ hb₂ hb₃ hb₄ =>
      have hfound := included_found hb hne hpath hline hb₁ hb₂ hb₃ hb₄ hw
      have htext : callText path b₁ b₂ b₃ ++ (b₄ ++ [';']) =
          includeWord ++ (b₁ ++ '(' :: (b₂ ++ '"' :: (path ++ '"' :: (b₃ ++ ')' :: (b₄ ++ [';']))))) := by
        simp only [callText, List.append_assoc, List.cons_append, List.nil_append]
      rwa [htext] at hfound
    | used hv hs hb hne he => exact used_found hv hs hb hne he hw

/-! ### Sequences of items -/

/-- All findings from a place on. -/
def scanFrom (prev : Option Char) (pos : ℕ) (s : Text) : List Finding :=
  merged (findFrom moduleItem prev pos 0 s) (findFrom includeCall prev pos 0 s) (findFrom useItem prev pos 0 s)

theorem scanFrom_ge (prev : Option Char) {f : Finding} (h : f ∈ scanFrom prev pos s) : pos ≤ f.1 := by
  simp only [scanFrom, merged, List.mem_append, List.mem_map, List.mem_flatMap] at h
  rcases h with (h | ⟨g, hg, rfl⟩) | ⟨g, hg, p, -, rfl⟩
  · exact findings_ge h
  · have := findings_ge hg
    exact this
  · have := findings_ge hg
    exact this

/-- The findings on some lines stand before those on the lines below. -/
theorem inOrder_scanFrom {specs : List Text} (pos : ℕ) (h : Found specs x) (hprev : atLineStart prev = true) (r : Text) :
    ∃ k, inOrder (scanFrom prev pos (x ++ '\n' :: r)) =
      specs.map (fun s => (k, s)) ++ inOrder (scanFrom (some '\n') (pos + x.length + 1) r) := by
  obtain ⟨k, modules, includes, uses, hk, hmodules, hincludes, huses, hmerged⟩ := h
  refine ⟨pos + k, ?_⟩
  have hr : EndsLine ('\n' :: r) := by simp [EndsLine]
  have hearly : ∀ f ∈ merged (modules pos) (includes pos) (uses pos), f.1 < pos + x.length + 1 := by
    rw [hmerged pos]
    intro f hf
    obtain ⟨s, -, rfl⟩ := List.mem_map.1 hf
    simp only
    omega
  have hcut := inOrder_cut hearly fun f hf => scanFrom_ge (some '\n') (s := r) hf
  rw [← inOrder_same, ← hmerged pos, scanFrom, hmodules prev pos _ hprev hr, hincludes prev pos _ hprev hr,
    huses prev pos _ hprev hr, merged, List.map_append, List.flatMap_append]
  exact hcut

theorem map_snd_map (k : ℕ) (xs : List Text) : (xs.map fun x => (k, x)).map Prod.snd = xs := by
  simp [Function.comp_def]

/-- **Scanning finds the specifiers of a sequence of items**, in their order. -/
theorem specifiers_program {ds : List Declaration} (h : Program ds s) :
    specifiers s = ds.flatMap Declaration.specifiers := by
  -- Of the text in front of an item, it matters only that a line ends there.
  have hfrom : ∀ {prev pos}, atLineStart prev = true →
      (inOrder (scanFrom prev pos s)).map Prod.snd = ds.flatMap Declaration.specifiers := by
    induction h with
    | last h =>
      intro prev pos hprev
      obtain ⟨k, modules, includes, uses, hk, hmodules, hincludes, huses, hmerged⟩ := chunk_found h
      have hr : EndsLine [] := by simp [EndsLine]
      have h₁ := hmodules prev pos [] hprev hr
      have h₂ := hincludes prev pos [] hprev hr
      have h₃ := huses prev pos [] hprev hr
      simp only [List.append_nil, findBelow] at h₁ h₂ h₃
      rw [scanFrom, h₁, h₂, h₃, hmerged pos, inOrder_same, map_snd_map]
    | @cons ds es s r h hr ih =>
      intro prev pos hprev
      obtain ⟨k, hk⟩ := inOrder_scanFrom pos (chunk_found h) hprev r
      rw [hk, List.map_append, ih rfl, List.flatMap_append, map_snd_map]
  exact hfrom rfl

/-- In particular, the specifiers of items that stand one on a line. -/
theorem specifiers_source {is : List Item} (h : Source is s) : specifiers s = is.flatMap Item.specifiers := by
  obtain ⟨ds, hds, hspecifiers⟩ := h.program
  rw [specifiers_program hds, hspecifiers]

/-- **Scanning finds the specifiers of a sequence of items**, each once and in the order of the text. -/
theorem imports_declarations {ds : List Declaration} (h : Program ds s) :
    Family.rust.imports .scan s = distinct (ds.flatMap Declaration.specifiers) := by
  rw [Family.imports, specifiers_program h]

/-- The tree of a use on some lines. -/
def sampleLines : Text := "crate::d::\x7b\n\te as f,\n\tself,\n\x7d".toList

theorem sampleLines_spelled : Spelled Blank
    (.group [.word "crate", .word "d"] [.path (.word "e") [] (some (.word "f")), .path .self [] none]) sampleLines :=
  .group (.word "crate") [.word "d"] (b := []) (by decide)
    (.cons (b := "\n\t".toList) (e := []) (by decide)
      (.renamed (.word "e") [] (.word "f") (b := [' ']) (e := [' ']) (by decide) (by decide) (by decide) (by decide))
      (by decide)
      (.last (b := "\n\t".toList) (by decide) (.path .self []) (.comma (b := []) (e := ['\n']) (by decide) (by decide))))

/-- The tree of a use from elsewhere, with a raw name and one beyond ASCII. -/
def sampleForeign : Text := "std::\x7bé, r#mod\n\x7d".toList

theorem sampleForeign_spelled :
    Spelled Blank (.group [.word "std"] [.path (.word "é") [] none, .path (.word "r#mod") [] none]) sampleForeign :=
  .group (.word "std") [] (b := []) (by decide)
    (.cons (b := []) (e := []) (by decide) (.path (.word "é") []) (by decide)
      (.last (b := [' ']) (by decide) (.path (.word "r#mod") []) (.blank (b := ['\n']) (by decide))))

/-- An item of each kind, with an empty line. -/
def sampleProgram : Text :=
  " pub(super) mod a; \r".toList ++ '\n' :: ("mod b \x7b \x7d\n".toList ++ '\n' :: ("include!(\"x\\y\");".toList ++ '\n' ::
    ("pub(in crate::c) ".toList ++ ("use ".toList ++ (sampleLines ++ [';'])) ++ [' '] ++ '\n' ::
      ("use ".toList ++ (sampleForeign ++ [';']) ++ ['\n']))))

theorem sampleProgram_written :
    Program [.file ['a'], .inner ['b'], .included "x\\y".toList, .used sampleLines, .used sampleForeign] sampleProgram := by
  have hspace : Spaces [' '] := by decide
  have hnone : Spaces [] := by decide
  have hsuper : Lead " pub(super) ".toList :=
    .within hspace (rfl : "super".toList.all isScopeChar = true) hspace (by decide)
  have hwithin : Lead "pub(in crate::c) ".toList :=
    .within hnone (rfl : "in crate::c".toList.all isScopeChar = true) hspace (by decide)
  have hmodule : Chunk [.file ['a']] " pub(super) mod a; \r".toList :=
    .declared (.file (b := [' ']) (e := []) hsuper rfl hspace (by decide) hnone) (w := " \r".toList) (by decide)
  have hinner : Chunk [.inner ['b']] "mod b \x7b \x7d\n".toList :=
    .declared (.inner (b := [' ']) (e := [' ']) (.own hnone) rfl hspace (by decide) hspace hspace.blank) (w := ['\n'])
      (by decide)
  have hinclude : Chunk [.included "x\\y".toList] "include!(\"x\\y\");".toList :=
    .declared (.included (b := []) hnone (by decide) (by decide) (by decide) hnone hnone hnone hnone) blank_nil
  have huse : ∀ {v s : Text}, Lead v → Usable s → Declared (.used s) (v ++ ("use ".toList ++ (s ++ [';']))) :=
    fun hv hs => .used hv hs hspace (by decide) blank_nil
  have hlines := huse hwithin (usable_of_spelled sampleLines_spelled (by decide) fun _ => by decide)
  have hforeign := huse (.own hnone) (usable_of_spelled sampleForeign_spelled (by decide) fun _ => by decide)
  have huses := Program.cons (.declared hlines (by decide : Blank [' '])) (.last (.declared hforeign (by decide : Blank ['\n'])))
  exact .cons hmodule (.cons hinner (.cons hinclude huses))

theorem imports_sampleDeclarations :
    Family.rust.imports .scan sampleProgram = ["a", "include!(\"x\\y\")", "crate::d::e", "crate::d"].map String.toList := by
  have hexpand : expand sampleLines = ["crate::d::e", "crate::d"].map String.toList :=
    expand_eq_flatten sampleLines_spelled blank_nil blank_nil
  rw [imports_declarations sampleProgram_written]
  simp only [List.flatMap_cons, Declaration.specifiers, hexpand]
  decide

end ImportTrail.Scan.Rust
