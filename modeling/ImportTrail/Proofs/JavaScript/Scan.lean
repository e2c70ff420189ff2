import ImportTrail.Proofs.JavaScript.Statements
import ImportTrail.Proofs.Scan.Find

/-!
What scanning finds in statements that stand on lines of their own.

* `clause_quoted` — a clause matches where its keyword stands, by the text between the keyword and the quote;
* `clause_finds` — over a statement, a clause finds the specifier of the statement or nothing;
* `requireCall_finds`, `requireCall_finds_none` — a call finds the specifier of its own statement only;
* `findsSpecifier_statement` — the three patterns together find the specifier, once or more, at one position;
* `imports_source` — scanning finds the relative specifiers of a sequence of statements, in their order.
-/

namespace ImportTrail.Scan.JavaScript

open Text ImportTrail.JavaScript

variable {kw g gap t u x y r s : Text} {ok : Text → Bool} {prev : Option Char} {pos : ℕ} {c q : Char}

/-! ### Quotes -/

/-- A text without quotes and semicolons. -/
def Unquoted (g : Text) : Prop := ∀ c ∈ g, isQuote c = false ∧ c ≠ ';'

theorem Unquoted.append (hg : Unquoted g) (ht : Unquoted t) : Unquoted (g ++ t) :=
  fun c hc => (List.mem_append.1 hc).elim (hg c) (ht c)

theorem unquoted_of_quiet (hg : Quiet g) : Unquoted g := by
  intro c hc
  have hloud := hg c hc
  simp only [loud, List.mem_cons, List.not_mem_nil, or_false, not_or] at hloud
  simp [isQuote, hloud]

theorem quotedSpecifier?_eq (hx : IsSpecifier x) (hq : isQuote q = true) (t : Text) :
    quotedSpecifier? (x ++ q :: t) = some x := by
  have htake : (x ++ q :: t).takeWhile (fun c => !isQuote c && c != '\n') = x := by
    rw [List.takeWhile_append_of_pos]
    · simp [hq]
    · intro c hc
      obtain ⟨hquote, hblank⟩ := hx.2 c hc
      have hline : c ≠ '\n' := by
        rintro rfl
        cases hblank
      simp [hquote, hline]
  have hne : x.isEmpty = false := by simpa using hx.1
  simp [quotedSpecifier?, htake, hq, hne]

/-- A beginning without the quote stands before the quote. -/
theorem exists_gap (h : g ++ q :: t = kw ++ r) (hkw : q ∉ kw) : ∃ gap, g = kw ++ gap ∧ r = gap ++ q :: t := by
  rcases List.append_eq_append_iff.1 h with ⟨z, rfl, hz⟩ | ⟨gap, rfl, hr⟩
  · cases z with
    | nil => exact ⟨[], by simp, hz.symm⟩
    | cons d z =>
      obtain ⟨rfl, -⟩ := List.cons.inj hz
      exact absurd (by simp) hkw
  · exact ⟨gap, rfl, hr⟩

/-- A place is before the end of a piece, at the quote behind it or later. -/
theorem place_cases (h : g ++ q :: t = u ++ c :: s) : (∃ z, g = u ++ z ∧ c :: s = z ++ q :: t) ∨ ∃ z, t = z ++ c :: s := by
  rcases List.append_eq_append_iff.1 h with ⟨z, rfl, hz⟩ | ⟨z, rfl, hz⟩
  · cases z with
    | nil => exact .inl ⟨[], by simp, hz.symm⟩
    | cons d z => exact .inr ⟨z, (List.cons.inj hz).2⟩
  · exact .inl ⟨z, rfl, hz⟩

/-! ### Clauses -/

/-- A clause matches where its keyword stands, if the text up to the quote will do. -/
theorem clause_quoted (hgap : Unquoted gap) (hx : IsSpecifier x) (hq : isQuote q = true) (t : Text) :
    clause kw ok prev (kw ++ (gap ++ q :: (x ++ q :: t))) =
      if atWordStart prev = true ∧ ok gap = true then some ⟨kw.length + gap.length + 1, x, 1⟩ else none := by
  have hafter : after? kw (kw ++ (gap ++ q :: (x ++ q :: t))) = some (gap ++ q :: (x ++ q :: t)) := after?_eq_some.2 rfl
  have htake : (gap ++ q :: (x ++ q :: t)).takeWhile (fun c => !isQuote c && c != ';') = gap := by
    rw [List.takeWhile_append_of_pos]
    · simp [hq]
    · intro c hc
      simp [hgap c hc]
  cases hprev : atWordStart prev with
  | false => simp [clause, hprev]
  | true => cases hok : ok gap <;> simp [clause, hprev, hafter, htake, hq, hok, quotedSpecifier?_eq hx hq]

/-- A match of a clause captures the specifier. -/
theorem clause_eq_some {m : Match} (hkw : q ∉ kw) (hg : Unquoted g) (hx : IsSpecifier x) (hq : isQuote q = true)
    (h : clause kw ok prev (g ++ q :: (x ++ q :: t)) = some m) : m = ⟨g.length + 1, x, 1⟩ := by
  cases hafter : after? kw (g ++ q :: (x ++ q :: t)) with
  | none => simp [clause, hafter] at h
  | some r =>
    obtain ⟨gap, rfl, -⟩ := exists_gap (after?_eq_some.1 hafter) hkw
    rw [List.append_assoc, clause_quoted (fun c hc => hg c (List.mem_append_right _ hc)) hx hq] at h
    split at h
    · rw [← Option.some.inj h, List.length_append]
    · cases h

/-- A word of letters. -/
def Keyword (kw : Text) : Prop := kw ≠ [] ∧ ∀ c ∈ kw, isLetter c = true

theorem not_mem_keyword (hkw : Keyword kw) (hc : isLetter c = false) : c ∉ kw := by
  intro h
  rw [hkw.2 c h] at hc
  cases hc

theorem isLetter_of_isQuote (hq : isQuote q = true) : isLetter q = false := by
  simp only [isQuote, Bool.or_eq_true, beq_iff_eq] at hq
  rcases hq with rfl | rfl <;> rfl

/-- A clause begins with a letter. -/
theorem clause_cons (hkw : Keyword kw) (hc : isLetter c = false) (t : Text) : clause kw ok prev (c :: t) = none := by
  have hafter : after? kw (c :: t) = none := by
    rw [Option.eq_none_iff_forall_ne_some]
    intro r hr
    obtain ⟨d, k, rfl⟩ := List.exists_cons_of_ne_nil hkw.1
    obtain ⟨rfl, -⟩ := List.cons.inj (after?_eq_some.1 hr)
    exact not_mem_keyword hkw hc List.mem_cons_self
  simp [clause, hafter]

/-- What a clause may take for its gap begins with a blank. -/
def BlankFirst (ok : Text → Bool) : Prop := ∀ gap, ok gap = true → ∃ c s, gap = c :: s ∧ isBlank c = true

/-- In what is left of a specifier no clause matches. -/
theorem clause_specifier (hkw : Keyword kw) (hok : BlankFirst ok) (hx : ∀ c ∈ x, isBlank c = false)
    (hq : isQuote q = true) (t : Text) : clause kw ok prev (x ++ q :: t) = none := by
  cases hafter : after? kw (x ++ q :: t) with
  | none => simp [clause, hafter]
  | some r =>
    obtain ⟨gap, rfl, rfl⟩ := exists_gap (after?_eq_some.1 hafter) (not_mem_keyword hkw (isLetter_of_isQuote hq))
    have hgap : ok ((gap ++ q :: t).takeWhile fun c => !isQuote c && c != ';') = false := by
      rw [Bool.eq_false_iff]
      intro h
      obtain ⟨c, s, hcs, hc⟩ := hok _ h
      cases gap with
      | nil => simp [hq] at hcs
      | cons d gap =>
        rw [List.cons_append, List.takeWhile_cons] at hcs
        split at hcs
        · obtain ⟨rfl, -⟩ := List.cons.inj hcs
          rw [hx d (by simp)] at hc
          cases hc
        · cases hcs
    unfold clause
    split
    · rfl
    · rw [hafter, Option.bind_eq_bind, Option.bind_some]
      dsimp only
      split
      · rw [hgap, Bool.and_false, if_neg Bool.false_ne_true]
      · rfl

/-- From a quote on, over what is left of a specifier, no clause matches up to a letter. -/
theorem clause_finds_none (hkw : Keyword kw) (hok : BlankFirst ok) (hx : ∀ c ∈ x, isBlank c = false)
    (hq : isQuote q = true) (hy : ∀ c ∈ y, isLetter c = false) : FindsOver (clause kw ok) prev pos (x ++ q :: y) r [] := by
  refine findsOver_none fun u c v h => ?_
  rcases place_cases h with ⟨z, hz, hv⟩ | ⟨z, hz⟩
  · rw [hv, List.append_assoc]
    exact clause_specifier hkw hok (fun c hc => hx c (by simp [hz, hc])) hq _
  · exact clause_cons hkw (hy c (by simp [hz])) _

/-- Over a text before a specifier in quotes and behind it a clause finds the specifier or nothing. It finds the
specifier if the keyword stands where a word begins, with a gap that will do behind it. -/
theorem clause_finds (hkw : Keyword kw) (hok : BlankFirst ok) (hg : Unquoted g) (hx : IsSpecifier x)
    (hq : isQuote q = true) (hy : ∀ c ∈ y, isLetter c = false) (prev : Option Char) (pos : ℕ) (r : Text) :
    ∃ n, (∀ u gap, g = u ++ (kw ++ gap) → atWordStart (charBefore prev u) = true → ok gap = true → 1 ≤ n) ∧
      FindsOver (clause kw ok) prev pos (g ++ q :: (x ++ q :: y)) r (List.replicate n (pos + (g.length + 1), x)) := by
  have hquote : isLetter q = false := isLetter_of_isQuote hq
  induction g generalizing prev pos with
  | nil =>
    refine ⟨0, fun u gap h => ?_, ?_⟩
    · simp [hkw.1] at h
    · have hopen : FindsOver (clause kw ok) prev pos [q] (x ++ q :: y ++ r) [] := findsOver_single (clause_cons hkw hquote _)
      exact hopen.append (clause_finds_none hkw hok (fun c hc => (hx.2 c hc).2) hq hy)
  | cons c g ih =>
    have htext : c :: g ++ q :: (x ++ q :: y) ++ r = c :: g ++ q :: (x ++ q :: (y ++ r)) := by simp
    cases hm : clause kw ok prev (c :: g ++ q :: (x ++ q :: y) ++ r) with
    | none =>
      obtain ⟨n, hn, hfind⟩ := ih (fun d hd => hg d (List.mem_cons_of_mem c hd)) (some c) (pos + 1)
      refine ⟨n, fun u gap h hprev hgap => ?_, ?_⟩
      · cases u with
        | nil =>
          have hgap' : Unquoted gap := fun d hd => hg d (by rw [h]; simp [hd])
          rw [htext, h, List.nil_append, List.append_assoc, clause_quoted hgap' hx hq, if_pos ⟨hprev, hgap⟩] at hm
          cases hm
        | cons d u =>
          obtain ⟨rfl, h'⟩ := List.cons.inj h
          exact hn u gap h' hprev hgap
      · have hhead : FindsOver (clause kw ok) prev pos [c] (g ++ q :: (x ++ q :: y) ++ r) [] := findsOver_single hm
        have hstep := hhead.append hfind
        rwa [Nat.add_assoc, Nat.add_comm 1] at hstep
    | some m =>
      obtain rfl := clause_eq_some (not_mem_keyword hkw hquote) hg hx hq (htext ▸ hm)
      refine ⟨1, fun _ _ _ _ _ => Nat.le_refl 1, ?_⟩
      have hm' : clause kw ok prev (c :: (g ++ q :: (x ++ [q])) ++ (y ++ r)) = some ⟨(c :: g).length + 1, x, 1⟩ := by
        rw [← hm]
        simp
      have hlen : Match.length ⟨(c :: g).length + 1, x, 1⟩ = (c :: (g ++ q :: (x ++ [q]))).length := by
        simp only [Match.length, List.length_append, List.length_cons, List.length_nil]
        omega
      have hmatch : FindsOver (clause kw ok) prev pos (c :: (g ++ q :: (x ++ [q]))) (y ++ r)
          [(pos + ((c :: g).length + 1), x)] := findsOver_match hm' hlen (by simp)
      have htail : FindsOver (clause kw ok) (charBefore prev (c :: (g ++ q :: (x ++ [q]))))
          (pos + (c :: (g ++ q :: (x ++ [q]))).length) y r [] :=
        findsOver_none fun u d v h => clause_cons hkw (hy d (by simp [h])) _
      simpa using hmatch.append htail

/-! ### Calls -/

/-- What a call begins with. -/
def callHead : Text := "require(".toList

/-- The match of a call by what stands behind its parenthesis. -/
def argument? (r : Text) : Option Match :=
  let blanks := r.takeWhile isBlank
  match r.drop blanks.length with
  | q :: rest =>
    if isQuote q then do
      let spec ← quotedSpecifier? rest
      let tail := rest.drop (spec.length + 1)
      let blanks' := tail.takeWhile isBlank
      match tail.drop blanks'.length with
      | ')' :: _ => some ⟨callHead.length + blanks.length + 1, spec, 1 + blanks'.length + 1⟩
      | _ => none
    else none
  | [] => none

theorem requireCall_eq (prev : Option Char) (s : Text) :
    requireCall prev s = if atWordStart prev then (after? callHead s).bind argument? else none := by
  unfold requireCall
  cases atWordStart prev <;> rfl

theorem requireCall_of_after? (h : after? callHead s = none) : requireCall prev s = none := by
  rw [requireCall_eq, h]
  exact ite_self _

theorem requireCall_cons (hc : c ≠ 'r') (t : Text) : requireCall prev (c :: t) = none := by
  refine requireCall_of_after? (Option.eq_none_iff_forall_ne_some.2 fun r hr => ?_)
  exact hc (List.cons.inj (after?_eq_some.1 hr)).1

theorem unquoted_callHead : Unquoted callHead := by
  have hall : callHead.all (fun c => !isQuote c && c != ';') = true := rfl
  intro c hc
  simpa only [Bool.and_eq_true, Bool.not_eq_true', bne_iff_ne] using List.all_eq_true.1 hall c hc

theorem not_mem_callHead (hq : isQuote q = true) : q ∉ callHead := by
  intro h
  rw [(unquoted_callHead q h).1] at hq
  exact Bool.false_ne_true hq

/-- No call begins in a text without a parenthesis before a quote. -/
theorem requireCall_quiet (hg : Quiet g) (hq : isQuote q = true) (t : Text) : requireCall prev (g ++ q :: t) = none := by
  refine requireCall_of_after? (Option.eq_none_iff_forall_ne_some.2 fun r hr => ?_)
  obtain ⟨gap, rfl, -⟩ := exists_gap (after?_eq_some.1 hr) (not_mem_callHead hq)
  exact hg '(' (List.mem_append_left _ (by decide)) (by decide)

theorem isBlank_of_isQuote (hq : isQuote q = true) : isBlank q = false := by
  simp only [isQuote, Bool.or_eq_true, beq_iff_eq] at hq
  rcases hq with rfl | rfl <;> rfl

theorem argument?_cons (hc : isQuote c = false ∧ isBlank c = false) (t : Text) : argument? (c :: t) = none := by
  simp [argument?, hc]

theorem argument?_line (hq : isQuote q = true) (t : Text) : argument? (q :: ';' :: '\n' :: t) = none := by
  have hspec : quotedSpecifier? (';' :: '\n' :: t) = none := rfl
  simp [argument?, isBlank_of_isQuote hq, hq, hspec]

/-- In what is left of a specifier no call begins, for no quote stands on the rest of its line. -/
theorem requireCall_specifier (hx : ∀ c ∈ x, isQuote c = false ∧ isBlank c = false) (hq : isQuote q = true) (t : Text) :
    requireCall prev (x ++ q :: ';' :: '\n' :: t) = none := by
  cases hafter : after? callHead (x ++ q :: ';' :: '\n' :: t) with
  | none => exact requireCall_of_after? hafter
  | some r =>
    obtain ⟨gap, rfl, rfl⟩ := exists_gap (after?_eq_some.1 hafter) (not_mem_callHead hq)
    have harg : argument? (gap ++ q :: ';' :: '\n' :: t) = none := by
      cases gap with
      | nil => exact argument?_line hq t
      | cons d gap => exact argument?_cons (hx d (by simp)) _
    rw [requireCall_eq, hafter, Option.bind_some, harg]
    exact ite_self _

theorem requireCall_end : FindsOver requireCall prev pos [';', '\n'] r [] := by
  refine findsOver_none fun u c v h => requireCall_cons ?_ _
  have hc : c ∈ [';', '\n'] := by simp [h]
  rintro rfl
  exact absurd hc (by decide)

/-- Over a statement that is no call nothing is found. -/
theorem requireCall_finds_none (hg : Quiet g) (hx : IsSpecifier x) (hq : isQuote q = true) :
    FindsOver requireCall prev pos (g ++ q :: (x ++ q :: [';', '\n'])) r [] := by
  rw [show g ++ q :: (x ++ q :: [';', '\n']) = g ++ q :: (x ++ [q]) ++ [';', '\n'] by simp]
  refine FindsOver.append (findsOver_none fun u c v h => ?_) requireCall_end
  rcases place_cases h with ⟨z, rfl, hv⟩ | ⟨z, hz⟩
  · rw [hv, List.append_assoc]
    exact requireCall_quiet (fun d hd => hg d (List.mem_append_right u hd)) hq _
  · rcases place_cases hz with ⟨z', rfl, hv⟩ | ⟨z', hz'⟩
    · rw [hv, List.append_assoc]
      exact requireCall_specifier (fun d hd => hx.2 d (List.mem_append_right z hd)) hq r
    · simp at hz'

theorem takeWhile_blank {b : Text} (hb : Blank b) (hc : isBlank c = false) (t : Text) :
    (b ++ c :: t).takeWhile isBlank = b := takeWhile_append_cons hb hc t

/-- An argument with blanks around it. -/
theorem argument?_quoted {b b' : Text} (hb : Blank b) (hx : IsSpecifier x) (hq : isQuote q = true) (hb' : Blank b')
    (t : Text) : argument? (b ++ q :: (x ++ q :: (b' ++ ')' :: t))) =
      some ⟨callHead.length + b.length + 1, x, 1 + b'.length + 1⟩ := by
  have htail : (x ++ q :: (b' ++ ')' :: t)).drop (x.length + 1) = b' ++ ')' :: t := by simp
  unfold argument?
  simp only [takeWhile_blank hb (isBlank_of_isQuote hq), List.drop_left, hq, if_true, quotedSpecifier?_eq hx hq,
    Option.bind_eq_bind, Option.bind_some, htail, takeWhile_blank hb' (show isBlank ')' = false from rfl)]

/-- In front of a call no other call begins: its parenthesis would come too late. -/
theorem requireCall_front (hg : Quiet g) (t : Text) : FindsOver requireCall prev pos g (callHead ++ t) [] := by
  refine findsOver_none fun u c v h => requireCall_of_after? (Option.eq_none_iff_forall_ne_some.2 fun r hr => ?_)
  have hparen : ∀ d ∈ c :: v, (d != '(') = true := by
    intro d hd
    have hloud := hg d (by rw [h]; exact List.mem_append_right u hd)
    rw [bne_iff_ne]
    rintro rfl
    exact hloud (by decide)
  have htake : ∀ t, (callHead ++ t).takeWhile (· != '(') = "require".toList := fun t => rfl
  have hlen := congrArg (fun s => (s.takeWhile (· != '(')).length) (after?_eq_some.1 hr)
  simp only [List.takeWhile_append_of_pos hparen, htake, List.length_append, List.length_cons] at hlen
  omega

/-- Over a statement that is a call its argument is found. -/
theorem requireCall_finds {b b' : Text} (hg : Quiet g) (hword : atWordStart (charBefore prev g) = true) (hb : Blank b)
    (hx : IsSpecifier x) (hq : isQuote q = true) (hb' : Blank b') :
    FindsOver requireCall prev pos (g ++ (callHead ++ b) ++ q :: (x ++ q :: (b' ++ [')', ';', '\n']))) r
      [(pos + ((g ++ (callHead ++ b)).length + 1), x)] := by
  have htext : g ++ (callHead ++ b) ++ q :: (x ++ q :: (b' ++ [')', ';', '\n'])) =
      g ++ (callHead ++ (b ++ q :: (x ++ q :: (b' ++ [')'])))) ++ [';', '\n'] := by simp
  have hpos : pos + ((g ++ (callHead ++ b)).length + 1) = pos + g.length + (callHead.length + b.length + 1) := by
    simp only [List.length_append]
    omega
  have hfront : FindsOver requireCall prev pos g
      (callHead ++ (b ++ q :: (x ++ q :: (b' ++ [')']))) ++ ([';', '\n'] ++ r)) [] := by
    rw [List.append_assoc]
    exact requireCall_front hg _
  have hcall : FindsOver requireCall (charBefore prev g) (pos + g.length)
      (callHead ++ (b ++ q :: (x ++ q :: (b' ++ [')'])))) ([';', '\n'] ++ r)
      [(pos + g.length + (callHead.length + b.length + 1), x)] := by
    refine findsOver_match (m := ⟨callHead.length + b.length + 1, x, 1 + b'.length + 1⟩) ?_ ?_
      (List.append_ne_nil_of_left_ne_nil (by decide) _)
    · rw [requireCall_eq, if_pos hword, List.append_assoc, after?_eq_some.2 rfl, Option.bind_some]
      simpa using argument?_quoted hb hx hq hb' (';' :: '\n' :: r)
    · simp only [Match.length, List.length_append, List.length_cons, List.length_nil]
      omega
  rw [htext, hpos]
  exact (hfront.append hcall).append requireCall_end

/-! ### Statements -/

theorem blankFirst_endsWithFrom : BlankFirst endsWithFrom := by
  intro gap h
  cases gap with
  | nil => cases h
  | cons c s =>
    rw [endsWithFrom, Bool.and_eq_true] at h
    exact ⟨c, s, rfl, h.1⟩

/-- The gap of an import. -/
def isImportGap (gap : Text) : Bool := isBlankGap gap || endsWithFrom gap

theorem blankFirst_isImportGap : BlankFirst isImportGap := by
  intro gap h
  rw [isImportGap, Bool.or_eq_true] at h
  rcases h with h | h
  · cases gap with
    | nil => cases h
    | cons c s =>
      simp only [isBlankGap, List.isEmpty_cons, List.all_cons, Bool.not_false, Bool.true_and, Bool.and_eq_true] at h
      exact ⟨c, s, rfl, h.1⟩
  · exact blankFirst_endsWithFrom gap h

theorem isBlankGap_of_break {b : Text} (hb : Break b) : isBlankGap b = true := by
  rw [isBlankGap, Bool.and_eq_true, List.all_eq_true]
  exact ⟨by simpa using hb.2, hb.1.blank⟩

theorem endsWithFrom_gap {b b' : Text} (hb : Break b) (ht : OpensWord t) (hb' : Spacing b') :
    endsWithFrom (b ++ (t ++ ("from".toList ++ b'))) = true := by
  obtain ⟨c, s, rfl⟩ := List.exists_cons_of_ne_nil hb.2
  obtain ⟨u, d, rfl, hd⟩ := ht
  have htrim : trimEnd (c :: (s ++ (u ++ [d] ++ ("from".toList ++ b')))) = c :: (s ++ (u ++ [d])) ++ "from".toList := by
    rw [show c :: (s ++ (u ++ [d] ++ ("from".toList ++ b'))) = c :: (s ++ (u ++ [d])) ++ "from".toList ++ b' by simp,
      trimEnd_append_blank hb'.blank]
    refine dropEndWhile_eq_self fun e he => ?_
    rw [List.getLast?_append_of_ne_nil _ (by decide)] at he
    obtain rfl : 'm' = e := Option.some.inj he
    rfl
  have hlast : (c :: (s ++ (u ++ [d]))).getLast? = some d := by
    rw [← List.append_assoc, ← List.cons_append, List.getLast?_concat]
  rw [List.cons_append, endsWithFrom, htrim, before?_eq_some.2 rfl]
  simp [hb.1.blank c List.mem_cons_self, hlast, atWordStart, hd]

theorem atWordStart_spacing {b : Text} (hprev : atWordStart prev = true) (hb : Spacing b) :
    atWordStart (charBefore prev b) = true := by
  by_cases hne : b = []
  · rwa [hne]
  · obtain ⟨d, hd, h⟩ := charBefore_mem prev hne
    rw [h, atWordStart, isWord_of_isSpacing (hb d hd)]
    rfl

/-- Over a text the three patterns together find a specifier, once or more, at one position. -/
def FindsSpecifier (x w : Text) : Prop :=
  ∀ prev pos r, atWordStart prev = true → ∃ k n₁ n₂ n₃, k < w.length ∧ 1 ≤ n₁ + n₂ + n₃ ∧
    FindsOver importClause prev pos w r (List.replicate n₁ (pos + k, x)) ∧
    FindsOver requireCall prev pos w r (List.replicate n₂ (pos + k, x)) ∧
    FindsOver exportClause prev pos w r (List.replicate n₃ (pos + k, x))

theorem isLetter_of_isSpacing (hc : isSpacing c = true) : isLetter c = false := by
  have hword := isWord_of_isSpacing hc
  simp only [isWord, Bool.or_eq_false_iff] at hword
  exact hword.1.1.1

theorem keyword_import : Keyword "import".toList := ⟨by decide, List.all_eq_true.1 rfl⟩

theorem keyword_export : Keyword "export".toList := ⟨by decide, List.all_eq_true.1 rfl⟩

/-- An import or an export. -/
theorem findsSpecifier_keyword (hg : Quiet g) (hx : IsSpecifier x) (hq : isQuote q = true)
    (hkey : ∃ b gap, Spacing b ∧ (g = b ++ ("import".toList ++ gap) ∧ isImportGap gap = true ∨
      g = b ++ ("export".toList ++ gap) ∧ endsWithFrom gap = true)) :
    FindsSpecifier x (g ++ q :: (x ++ q :: [';', '\n'])) := by
  intro prev pos r hprev
  have hend : ∀ c ∈ [';', '\n'], isLetter c = false := by simp [isLetter]
  have hopen := unquoted_of_quiet hg
  obtain ⟨n₁, hn₁, himport⟩ := clause_finds keyword_import blankFirst_isImportGap hopen hx hq hend prev pos r
  obtain ⟨n₃, hn₃, hexport⟩ := clause_finds keyword_export blankFirst_endsWithFrom hopen hx hq hend prev pos r
  refine ⟨g.length + 1, n₁, 0, n₃, ?_, ?_, himport, requireCall_finds_none hg hx hq, hexport⟩
  · simp only [List.length_append, List.length_cons]
    omega
  · obtain ⟨b, gap, hb, ⟨h, hgap⟩ | ⟨h, hgap⟩⟩ := hkey
    · have := hn₁ b gap h (atWordStart_spacing hprev hb) hgap
      omega
    · have := hn₃ b gap h (atWordStart_spacing hprev hb) hgap
      omega

/-- A call. -/
theorem findsSpecifier_call {b b' : Text} (hg : Quiet g) (hword : OpensWord g) (hb : Spacing b) (hx : IsSpecifier x)
    (hq : isQuote q = true) (hb' : Spacing b') :
    FindsSpecifier x (g ++ (callHead ++ b) ++ q :: (x ++ q :: (b' ++ [')', ';', '\n']))) := by
  intro prev pos r _
  have hopen : Unquoted (g ++ (callHead ++ b)) :=
    (unquoted_of_quiet hg).append (unquoted_callHead.append (unquoted_of_quiet (quiet_of_spacing hb)))
  have hend : ∀ c ∈ b' ++ [')', ';', '\n'], isLetter c = false := by
    rw [List.forall_mem_append]
    exact ⟨fun c hc => isLetter_of_isSpacing (hb' c hc), by simp [isLetter]⟩
  have hbefore : atWordStart (charBefore prev g) = true := by
    obtain ⟨u, c, rfl, hc⟩ := hword
    rw [charBefore_append]
    simp [charBefore, atWordStart, hc]
  obtain ⟨n₁, -, himport⟩ := clause_finds keyword_import blankFirst_isImportGap hopen hx hq hend prev pos r
  obtain ⟨n₃, -, hexport⟩ := clause_finds keyword_export blankFirst_endsWithFrom hopen hx hq hend prev pos r
  refine ⟨(g ++ (callHead ++ b)).length + 1, n₁, 1, n₃, ?_, by omega, himport, ?_, hexport⟩
  · simp only [List.length_append, List.length_cons]
    omega
  · exact requireCall_finds hg hbefore hb.blank hx hq hb'.blank

/-- Over a statement with blanks in front of it its specifier is found. -/
theorem findsSpecifier_statement {b : Text} (hb : Spacing b) (hs : Statement x s) :
    FindsSpecifier x (b ++ (s ++ [';', '\n'])) := by
  have hfrom : Quiet "from".toList := by decide
  cases hs with
  | @imported b₁ t b₂ s hb₁ ht hb₂ hs =>
    obtain ⟨hx, hq⟩ := hs
    have hg : Quiet (b ++ ("import".toList ++ (b₁ ++ (t ++ ("from".toList ++ b₂))))) :=
      (quiet_of_spacing hb).append ((by decide : Quiet "import".toList).append ((quiet_of_spacing hb₁.1).append
        (ht.quiet.append (hfrom.append (quiet_of_spacing hb₂)))))
    have hgap : isImportGap (b₁ ++ (t ++ ("from".toList ++ b₂))) = true := by
      rw [isImportGap, endsWithFrom_gap hb₁ ht.opensWord hb₂, Bool.or_true]
    have hfound := findsSpecifier_keyword hg hx hq ⟨b, _, hb, .inl ⟨rfl, hgap⟩⟩
    simpa only [List.append_assoc, List.cons_append, List.nil_append] using hfound
  | @bare b₁ s hb₁ hs =>
    obtain ⟨hx, hq⟩ := hs
    have hg : Quiet (b ++ ("import".toList ++ b₁)) :=
      (quiet_of_spacing hb).append ((by decide : Quiet "import".toList).append (quiet_of_spacing hb₁.1))
    have hgap : isImportGap b₁ = true := by
      rw [isImportGap, isBlankGap_of_break hb₁, Bool.true_or]
    have hfound := findsSpecifier_keyword hg hx hq ⟨b, _, hb, .inl ⟨rfl, hgap⟩⟩
    simpa only [List.append_assoc, List.cons_append, List.nil_append] using hfound
  | @required b₀ n b₁ b₂ b₃ s b₄ hb₀ hn hb₁ hb₂ hb₃ hs hb₄ =>
    obtain ⟨hx, hq⟩ := hs
    have hg : Quiet (b ++ ("const".toList ++ (b₀ ++ (n ++ (b₁ ++ '=' :: b₂))))) :=
      (quiet_of_spacing hb).append ((by decide : Quiet "const".toList).append ((quiet_of_spacing hb₀.1).append
        (hn.quiet.append ((quiet_of_spacing hb₁).append (.cons (by decide) (quiet_of_spacing hb₂))))))
    have hword : OpensWord (b ++ ("const".toList ++ (b₀ ++ (n ++ (b₁ ++ '=' :: b₂))))) := by
      have hassign : OpensWord ['='] := ⟨[], '=', rfl, by decide⟩
      exact (((((hassign.append_spacing hb₂).append b₁).append n).append b₀).append "const".toList).append b
    have hfound := findsSpecifier_call hg hword hb₃ hx hq hb₄
    rw [show "require(".toList = callHead from rfl]
    simpa only [List.append_assoc, List.cons_append, List.nil_append] using hfound
  | @exported b₁ t b₂ s hb₁ ht hb₂ hs =>
    obtain ⟨hx, hq⟩ := hs
    have hg : Quiet (b ++ ("export".toList ++ (b₁ ++ (t ++ ("from".toList ++ b₂))))) :=
      (quiet_of_spacing hb).append ((by decide : Quiet "export".toList).append ((quiet_of_spacing hb₁.1).append
        (ht.quiet.append (hfrom.append (quiet_of_spacing hb₂)))))
    have hgap := endsWithFrom_gap hb₁ ht.opensWord hb₂
    have hfound := findsSpecifier_keyword hg hx hq ⟨b, _, hb, .inr ⟨rfl, hgap⟩⟩
    simpa only [List.append_assoc, List.cons_append, List.nil_append] using hfound

/-! ### Sources -/

/-- A list with its entries written once or more on the spot. -/
inductive Repeats : List Text → List Text → Prop
  | nil : Repeats [] []
  | cons {x : Text} {xs ys : List Text} {n : ℕ} (hn : 1 ≤ n) (h : Repeats xs ys) :
      Repeats (x :: xs) (List.replicate n x ++ ys)

/-- Members where they stand first do not tell how often they are written. -/
theorem Repeats.distinct_filter {xs ys : List Text} (h : Repeats xs ys) (p : Text → Bool) :
    distinct (ys.filter p) = distinct (xs.filter p) := by
  induction h generalizing p with
  | nil => rfl
  | @cons x xs ys n hn h ih =>
    obtain ⟨m, rfl⟩ := Nat.exists_eq_add_of_le' hn
    by_cases hx : p x = true
    · have hone : ∀ l : List Text, distinct (List.replicate (m + 1) x ++ l) = x :: distinct (l.filter fun y => !y == x) := by
        intro l
        rw [distinct, List.replicate_succ, List.cons_append, List.eraseDups_cons]
        simp [distinct]
      rw [List.filter_append, List.filter_replicate_of_pos hx, hone, List.filter_cons_of_pos hx, List.filter_filter,
        ih, ← List.filter_filter]
      exact List.eraseDups_cons.symm
    · rw [List.filter_append, List.filter_replicate_of_neg hx, List.filter_cons_of_neg hx]
      exact ih p

/-- In blanks nothing is found. -/
theorem findFrom_spacing {b : Text} (hb : Spacing b) (pat : Pattern)
    (hpat : ∀ prev c t, isLetter c = false → pat prev (c :: t) = none) : findFrom pat prev pos 0 b = [] := by
  have hnone : FindsOver pat prev pos b [] [] :=
    findsOver_none fun u c v h => hpat _ c _ (isLetter_of_isSpacing (hb c (by simp [h])))
  rwa [FindsOver, List.append_nil] at hnone

/-- Scanning a source finds its specifiers in their order, each once or more. -/
theorem findings_source {xs : List Text} (h : Source xs s) (prev : Option Char) (pos : ℕ) (hprev : atWordStart prev = true) :
    Repeats xs ((inOrder (findFrom importClause prev pos 0 s ++ findFrom requireCall prev pos 0 s ++
      findFrom exportClause prev pos 0 s)).map (·.2)) := by
  induction h generalizing prev pos with
  | nil hb =>
    have hcall : ∀ prev c t, isLetter c = false → requireCall prev (c :: t) = none := by
      intro prev c t hc
      refine requireCall_cons ?_ t
      rintro rfl
      cases hc
    rw [findFrom_spacing hb importClause fun _ _ t hc => clause_cons keyword_import hc t,
      findFrom_spacing hb requireCall hcall, findFrom_spacing hb exportClause fun _ _ t hc => clause_cons keyword_export hc t]
    rw [List.append_nil, List.append_nil, inOrder, List.mergeSort_nil]
    exact .nil
  | @cons b x s r xs hb hs _ ih =>
    obtain ⟨k, n₁, n₂, n₃, hk, hn, h₁, h₂, h₃⟩ := findsSpecifier_statement hb hs prev pos r hprev
    have htext : b ++ (s ++ ';' :: '\n' :: r) = b ++ (s ++ [';', '\n']) ++ r := by simp
    have hline : charBefore prev (b ++ (s ++ [';', '\n'])) = some '\n' := by
      rw [charBefore_append, charBefore_append]
      rfl
    rw [FindsOver, hline] at h₁ h₂ h₃
    have hearly : ∀ f ∈ List.replicate n₁ (pos + k, x) ++ List.replicate n₂ (pos + k, x) ++ List.replicate n₃ (pos + k, x),
        f.1 < pos + (b ++ (s ++ [';', '\n'])).length := by
      simp only [List.replicate_append_replicate, List.mem_replicate]
      rintro f ⟨-, rfl⟩
      exact Nat.add_lt_add_left hk pos
    rw [htext, h₁, h₂, h₃, inOrder_cut hearly, List.map_append, List.replicate_append_replicate,
      List.replicate_append_replicate, ← List.map_replicate, inOrder_same, List.map_map]
    · rw [show ((fun f : Finding => f.2) ∘ fun y => (pos + k, y)) = id from rfl, List.map_id]
      exact .cons hn (ih (some '\n') _ rfl)
    · intro f hf
      simp only [List.mem_append] at hf
      rcases hf with (hf | hf) | hf <;> exact findings_ge hf

/-- Scanning a sequence of statements gives the relative ones of their specifiers, in their order and each where it
stands first. -/
theorem imports_source {xs : List Text} (h : Source xs s) (strategy : Strategy) :
    Family.javaScript.imports strategy s = distinct (xs.filter fun x => startsWith x ['.']) :=
  (findings_source h none 0 rfl).distinct_filter _

/-- A list of names over some lines, a call, and the first specifier once more. -/
theorem imports_source_lines :
    Family.javaScript.imports .scan ("import \x7b\n  a as $b,\n\x7d from './m'".toList ++ ';' :: '\n' ::
      ("const x = require( \"../n\")".toList ++ ';' :: '\n' :: ("export * from './m'".toList ++ ';' :: '\n' :: []))) =
      ["./m".toList, "../n".toList] := by
  have hspace : Break [' '] := ⟨by decide, by decide⟩
  have hnothing : Spacing [] := by decide
  have hname : IsName ['a'] ∧ IsName ['$', 'b'] ∧ IsName ['x'] := by decide
  have hm : IsSpecifier "./m".toList := by decide
  have hn : IsSpecifier "../n".toList := by decide
  have hentries : Members "\n  a as $b,\n".toList := by
    have hrenamed : Member "a as $b".toList := .renamed hname.1 hspace hspace hname.2.1
    exact .more (by decide : Spacing "\n  ".toList) hrenamed hnothing (.none (by decide : Spacing ['\n']))
  have hlines : Statement "./m".toList "import \x7b\n  a as $b,\n\x7d from './m'".toList :=
    .imported hspace (.named (.mk hentries) hspace.1) hspace.1 (.mk hm rfl)
  have hcall : Statement "../n".toList "const x = require( \"../n\")".toList :=
    .required hspace hname.2.2 hspace.1 hspace.1 hspace.1 (.mk hn rfl) hnothing
  have hall : Statement "./m".toList "export * from './m'".toList :=
    .exported hspace (.all hspace.1) hspace.1 (.mk hm rfl)
  exact imports_source (.cons hnothing hlines (.cons hnothing hcall (.cons hnothing hall (.nil hnothing)))) .scan

end ImportTrail.Scan.JavaScript
