import ImportTrail.Glob.Token
import Mathlib.Data.List.Basic

/-!
What the parts of a glob leave of a path.

* `mem_afterBytes`, `mem_afterRun`, `mem_tails`, `mem_afterSlashes` — what single parts leave, as a cut of the path;
* `mem_seqRests_append` — parts in a row, one after the other;
* `mem_seqRests_trailing`, `mem_seqRests_leading` — a part for any directories behind the others or before them;
* `rests_append`, `seqRests_append` — a part does not look behind the piece it takes: of a longer path it may leave the
  same rest with the addition behind it.
-/

namespace ImportTrail.Glob

variable {s m r p e : Bytes} {t : Token} {ts us : List Token}

/-! ### Single parts -/

theorem mem_afterBytes : m ∈ afterBytes p s ↔ s = p ++ m := by
  induction p generalizing s with
  | nil => simp [afterBytes, eq_comm]
  | cons a p ih =>
    cases s with
    | nil => simp [afterBytes]
    | cons b s =>
      by_cases h : a = b
      · simp [afterBytes, h, ih]
      · simp [afterBytes, h, Ne.symm h]

theorem mem_afterRun : m ∈ afterRun s ↔ ∃ x, slash ∉ x ∧ s = x ++ m := by
  induction s with
  | nil => simp [afterRun, eq_comm]
  | cons b s ih =>
    rw [afterRun, List.mem_cons]
    constructor
    · rintro (rfl | h)
      · exact ⟨[], by simp, rfl⟩
      · split at h
        · cases h
        · rename_i hb
          obtain ⟨x, hx, rfl⟩ := ih.1 h
          exact ⟨b :: x, by simp [hx, Ne.symm hb], rfl⟩
    · rintro ⟨x, hx, h⟩
      cases x with
      | nil => exact Or.inl h.symm
      | cons c x =>
        obtain ⟨rfl, rfl⟩ := List.cons.inj h
        rw [List.mem_cons, not_or] at hx
        rw [if_neg (Ne.symm hx.1)]
        exact Or.inr (ih.2 ⟨x, hx.2, rfl⟩)

theorem mem_tails : m ∈ tails s ↔ ∃ x, s = x ++ m := by
  induction s with
  | nil => simp [tails, eq_comm]
  | cons b s ih =>
    rw [tails, List.mem_cons, ih]
    constructor
    · rintro (rfl | ⟨x, rfl⟩)
      · exact ⟨[], rfl⟩
      · exact ⟨b :: x, rfl⟩
    · rintro ⟨x, h⟩
      cases x with
      | nil => exact Or.inl h.symm
      | cons c x => exact Or.inr ⟨x, (List.cons.inj h).2⟩

theorem mem_afterSlashes : m ∈ afterSlashes s ↔ ∃ x, s = x ++ slash :: m := by
  induction s with
  | nil => simp [afterSlashes]
  | cons b s ih =>
    have hcons : (∃ x, b :: s = x ++ slash :: m) ↔ (b = slash ∧ m = s) ∨ ∃ x, s = x ++ slash :: m := by
      constructor
      · rintro ⟨x, h⟩
        cases x with
        | nil =>
          obtain ⟨hb, rfl⟩ := List.cons.inj h
          exact Or.inl ⟨hb, rfl⟩
        | cons c x => exact Or.inr ⟨x, (List.cons.inj h).2⟩
      · rintro (⟨rfl, rfl⟩ | ⟨x, rfl⟩)
        · exact ⟨[], rfl⟩
        · exact ⟨b :: x, rfl⟩
    rw [afterSlashes, hcons]
    by_cases hb : b = slash
    · rw [if_pos hb, List.mem_cons, ih]
      simp [hb]
    · rw [if_neg hb, ih]
      simp [hb]

theorem mem_rests_leading : m ∈ Token.leading.rests s ↔ m = s ∨ ∃ x, s = x ++ slash :: m := by
  rw [Token.rests, List.mem_cons, mem_afterSlashes]

theorem mem_rests_trailing : m ∈ Token.trailing.rests s ↔ ∃ x, s = slash :: (x ++ m) := by
  cases s with
  | nil => simp [Token.rests]
  | cons b s =>
    rw [Token.rests]
    by_cases hb : b = slash
    · simp [hb, mem_tails]
    · simp [hb]

theorem mem_rests_middle : m ∈ Token.middle.rests s ↔ ∃ s', s = slash :: s' ∧ m ∈ Token.leading.rests s' := by
  cases s with
  | nil => simp [Token.rests]
  | cons b s =>
    rw [Token.rests]
    by_cases hb : b = slash
    · simp [hb, Token.rests]
    · simp [hb]

theorem mem_rests_any : m ∈ Token.any.rests s ↔ ∃ b, b ≠ slash ∧ s = b :: m := by
  cases s with
  | nil => simp [Token.rests]
  | cons b s =>
    rw [Token.rests]
    by_cases hb : b = slash
    · simp only [hb, if_true, List.not_mem_nil, List.cons.injEq, false_iff]
      rintro ⟨c, hc, rfl, -⟩
      exact hc rfl
    · simp only [hb, if_false, List.mem_singleton, List.cons.injEq]
      exact ⟨fun h => ⟨b, hb, rfl, h.symm⟩, fun ⟨_, _, _, h⟩ => h.symm⟩

theorem mem_rests_oneOf {negated : Bool} {ranges : List (Char × Char)} :
    m ∈ (Token.oneOf negated ranges).rests s ↔ ∃ b, ranges.any (inRange b) ≠ negated ∧ s = b :: m := by
  cases s with
  | nil => simp [Token.rests]
  | cons b s =>
    rw [Token.rests]
    by_cases hb : ranges.any (inRange b) = negated
    · simp only [hb, bne_self_eq_false, Bool.false_eq_true, if_false, List.not_mem_nil, List.cons.injEq, false_iff]
      rintro ⟨c, hc, rfl, -⟩
      exact hc hb
    · rw [if_pos (by simpa using hb), List.mem_singleton]
      simp only [List.cons.injEq]
      exact ⟨fun h => ⟨b, hb, rfl, h.symm⟩, fun ⟨_, _, _, h⟩ => h.symm⟩

/-! ### Parts in a row -/

theorem mem_seqRests_nil : r ∈ seqRests [] s ↔ r = s := by simp [seqRests]

theorem mem_seqRests_cons : r ∈ seqRests (t :: ts) s ↔ ∃ m ∈ t.rests s, r ∈ seqRests ts m := by
  simp [seqRests]

theorem mem_seqRests_append : r ∈ seqRests (ts ++ us) s ↔ ∃ m ∈ seqRests ts s, r ∈ seqRests us m := by
  induction ts generalizing s with
  | nil => simp [seqRests]
  | cons t ts ih =>
    rw [List.cons_append, mem_seqRests_cons]
    simp only [ih, mem_seqRests_cons]
    constructor
    · rintro ⟨m, hm, n, hn, hr⟩
      exact ⟨n, ⟨m, hm, hn⟩, hr⟩
    · rintro ⟨n, ⟨m, hm, hn⟩, hr⟩
      exact ⟨m, hm, n, hn, hr⟩

/-- Trailing parts leave nothing of a rest that begins with a slash. -/
theorem mem_seqRests_trailing : [] ∈ seqRests (ts ++ [.trailing]) s ↔ ∃ x, slash :: x ∈ seqRests ts s := by
  rw [mem_seqRests_append]
  simp only [mem_seqRests_cons, mem_seqRests_nil, mem_rests_trailing]
  constructor
  · rintro ⟨m, hm, r, ⟨x, rfl⟩, rfl⟩
    exact ⟨x ++ [], hm⟩
  · rintro ⟨x, hx⟩
    exact ⟨slash :: x, hx, [], ⟨x, by rw [List.append_nil]⟩, rfl⟩

/-- Leading parts leave a path, or what stands behind one of its slashes. -/
theorem mem_seqRests_leading :
    r ∈ seqRests (.leading :: ts) s ↔ r ∈ seqRests ts s ∨ ∃ x m, s = x ++ slash :: m ∧ r ∈ seqRests ts m := by
  simp only [mem_seqRests_cons, mem_rests_leading, or_and_right, exists_or, exists_eq_left]
  rw [exists_comm]
  simp only [exists_and_right]

/-! ### Longer paths -/

theorem leading_append (e : Bytes) (h : m ∈ Token.leading.rests s) :
    m ++ e ∈ Token.leading.rests (s ++ e) := by
  rw [mem_rests_leading] at h ⊢
  rcases h with rfl | ⟨x, rfl⟩
  · exact Or.inl rfl
  · exact Or.inr ⟨x, by simp⟩

mutual
/-- What a part leaves of a path, with an addition behind it, it leaves of the path with the addition. -/
theorem rests_append : ∀ (t : Token) {s m : Bytes} (e : Bytes), m ∈ t.rests s → m ++ e ∈ t.rests (s ++ e)
  | .literal c, s, m, e, h => by
    rw [Token.rests, mem_afterBytes] at h ⊢
    rw [h, List.append_assoc]
  | .any, s, m, e, h => by
    obtain ⟨b, hb, rfl⟩ := mem_rests_any.1 h
    exact mem_rests_any.2 ⟨b, hb, rfl⟩
  | .run, s, m, e, h => by
    rw [Token.rests, mem_afterRun] at h ⊢
    obtain ⟨x, hx, rfl⟩ := h
    exact ⟨x, hx, List.append_assoc _ _ _⟩
  | .leading, s, m, e, h => leading_append e h
  | .trailing, s, m, e, h => by
    obtain ⟨x, rfl⟩ := mem_rests_trailing.1 h
    exact mem_rests_trailing.2 ⟨x, by simp⟩
  | .middle, s, m, e, h => by
    obtain ⟨s, rfl, hm⟩ := mem_rests_middle.1 h
    exact mem_rests_middle.2 ⟨s ++ e, rfl, leading_append e hm⟩
  | .oneOf negated ranges, s, m, e, h => by
    obtain ⟨b, hb, rfl⟩ := mem_rests_oneOf.1 h
    exact mem_rests_oneOf.2 ⟨b, hb, rfl⟩
  | .choice branches, s, m, e, h => by
    rw [Token.rests] at h ⊢
    by_cases hvoid : allVoid branches = true
    · rw [if_pos hvoid, List.mem_singleton] at h ⊢
      rw [h]
    · rw [if_neg hvoid] at h ⊢
      exact choiceRests_append branches e h
theorem seqRests_append : ∀ (ts : List Token) {s r : Bytes} (e : Bytes), r ∈ seqRests ts s → r ++ e ∈ seqRests ts (s ++ e)
  | [], s, r, e, h => by
    rw [mem_seqRests_nil] at h ⊢
    rw [h]
  | t :: ts, s, r, e, h => by
    obtain ⟨m, hm, hr⟩ := mem_seqRests_cons.1 h
    exact mem_seqRests_cons.2 ⟨m ++ e, rests_append t e hm, seqRests_append ts e hr⟩
theorem choiceRests_append : ∀ (bs : List (List Token)) {s m : Bytes} (e : Bytes), m ∈ choiceRests bs s →
    m ++ e ∈ choiceRests bs (s ++ e)
  | [], s, m, e, h => by simp [choiceRests] at h
  | b :: bs, s, m, e, h => by
    rw [choiceRests, List.mem_append] at h ⊢
    refine h.imp (fun h => ?_) (choiceRests_append bs e)
    by_cases hvoid : isVoidSeq b = true
    · rw [if_pos hvoid] at h
      cases h
    · rw [if_neg hvoid] at h ⊢
      exact seqRests_append b e h
end

end ImportTrail.Glob
