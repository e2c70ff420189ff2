import ImportTrail.Text.Basic

/-!
Grammars as data. A rule reads from a cursor: it fails, or it moves the cursor on and reports
texts, those of its parts in the order of the source. A choice takes its first alternative that
does not fail, a repetition takes as much as it can. Rules refer to each other through the names
of a grammar, and `Rule.run` bounds how deep the references nest, so it is total; a run that meets
its bound says so, apart from failure, and more depth keeps every other outcome
(`Rule.run_refines`).
-/

namespace ImportTrail.Grammar

/-- A rule over cursors `σ` that refers to other rules by names `ν`. -/
inductive Rule (σ ν : Type) where
  /-- Reads nothing. -/
  | empty
  /-- Moves the cursor on by one lexeme, or fails. -/
  | step (read : σ → Option σ)
  /-- The rule of that name. -/
  | part (name : ν)
  /-- The first rule, then the second. -/
  | seq (a b : Rule σ ν)
  /-- The first rule, or the second where the first fails. -/
  | alt (a b : Rule σ ν)
  /-- The rule as often as it does not fail. -/
  | many (a : Rule σ ν)
  /-- Reads nothing, and fails where the rule does not. -/
  | absent (a : Rule σ ν)
  /-- Replaces what the rule reports, given the cursor before and after it. -/
  | report (f : σ → σ → List Text → List Text) (a : Rule σ ν)

/-- What comes of running a rule. -/
inductive Outcome (σ : Type) where
  /-- The references nest deeper than allowed. -/
  | deep
  /-- The text is not of that form. -/
  | fail
  /-- The text is read up to the cursor, and these texts are reported. -/
  | ok (next : σ) (found : List Text)

namespace Outcome

variable {σ : Type}

/-- Continue from where a rule ended, adding to what it reported. -/
def andThen (o : Outcome σ) (next : σ → Outcome σ) : Outcome σ :=
  match o with
  | ok s found =>
    match next s with
    | ok t more => ok t (found ++ more)
    | deep => deep
    | fail => fail
  | deep => deep
  | fail => fail

/-- Another outcome in place of a failure. -/
def orElse (o : Outcome σ) (other : Unit → Outcome σ) : Outcome σ :=
  match o with
  | fail => other ()
  | _ => o

/-- What a rule reported that read its text. -/
def found? : Outcome σ → Option (List Text)
  | ok _ found => some found
  | _ => none

/-- The outcome met its bound, or it is the other one. -/
def Refines (o o' : Outcome σ) : Prop := o = .deep ∨ o = o'

theorem Refines.andThen {o o' : Outcome σ} {f f' : σ → Outcome σ}
    (h : o.Refines o') (hf : ∀ s, (f s).Refines (f' s)) :
    (o.andThen f).Refines (o'.andThen f') := by
  rcases h with rfl | rfl
  · exact .inl rfl
  · cases o with
    | deep => exact .inl rfl
    | fail => exact .inr rfl
    | ok s found =>
      rcases hf s with h | h
      · exact .inl (by simp [Outcome.andThen, h])
      · exact .inr (by simp [Outcome.andThen, h])

end Outcome

namespace Rule

variable {σ ν : Type}

/-- Run a rule, given how to run the rules that it refers to and the rest of a repetition. -/
def runWith (call : Rule σ ν → σ → Outcome σ) (grammar : ν → Rule σ ν) :
    Rule σ ν → σ → Outcome σ
  | empty, s => .ok s []
  | step read, s =>
    match read s with
    | some t => .ok t []
    | none => .fail
  | part n, s => call (grammar n) s
  | seq a b, s => (runWith call grammar a s).andThen (runWith call grammar b)
  | alt a b, s => (runWith call grammar a s).orElse fun _ => runWith call grammar b s
  | many a, s =>
    match runWith call grammar a s with
    | .ok t found => (Outcome.ok t found).andThen (call (many a))
    | .fail => .ok s []
    | .deep => .deep
  | absent a, s =>
    match runWith call grammar a s with
    | .ok _ _ => .fail
    | .fail => .ok s []
    | .deep => .deep
  | report f a, s =>
    match runWith call grammar a s with
    | .ok t found => .ok t (f s t found)
    | .fail => .fail
    | .deep => .deep

/-- Run a rule of a grammar with references nested at most so deep. -/
def run (grammar : ν → Rule σ ν) : Nat → Rule σ ν → σ → Outcome σ
  | 0, _, _ => .deep
  | depth + 1, r, s => runWith (run grammar depth) grammar r s

/-! ### More depth -/

theorem runWith_refines {call call' : Rule σ ν → σ → Outcome σ} (grammar : ν → Rule σ ν)
    (h : ∀ r s, (call r s).Refines (call' r s)) (r : Rule σ ν) (s : σ) :
    (runWith call grammar r s).Refines (runWith call' grammar r s) := by
  induction r generalizing s with
  | empty => exact .inr rfl
  | step read => exact .inr rfl
  | part n => exact h _ _
  | seq a b iha ihb => exact (iha s).andThen ihb
  | alt a b iha ihb =>
    rcases iha s with ha | ha
    · exact .inl (by simp [runWith, ha, Outcome.orElse])
    · simp only [runWith, ha]
      cases runWith call' grammar a s with
      | deep => exact .inl rfl
      | fail => exact ihb s
      | ok t found => exact .inr rfl
  | many a iha =>
    rcases iha s with ha | ha
    · exact .inl (by simp [runWith, ha])
    · simp only [runWith, ha]
      cases runWith call' grammar a s with
      | deep => exact .inl rfl
      | fail => exact .inr rfl
      | ok t found => exact Outcome.Refines.andThen (.inr rfl) fun u => h _ u
  | absent a iha =>
    rcases iha s with ha | ha
    · exact .inl (by simp [runWith, ha])
    · exact .inr (by simp [runWith, ha])
  | report f a iha =>
    rcases iha s with ha | ha
    · exact .inl (by simp [runWith, ha])
    · exact .inr (by simp [runWith, ha])

/-- More depth keeps every outcome that did not meet the bound. -/
theorem run_refines (grammar : ν → Rule σ ν) {m n : Nat} (h : m ≤ n) (r : Rule σ ν) (s : σ) :
    (run grammar m r s).Refines (run grammar n r s) := by
  induction m generalizing n r s with
  | zero => exact .inl rfl
  | succ m ih =>
    obtain ⟨k, rfl⟩ := Nat.exists_eq_add_of_le h
    rw [Nat.add_right_comm]
    exact runWith_refines grammar (fun r s => ih (Nat.le_add_right m k) r s) r s

/-! ### Combinations -/

/-- All rules, one after the other. -/
def all : List (Rule σ ν) → Rule σ ν
  | [] => empty
  | [a] => a
  | a :: as => seq a (all as)

/-- The first of the rules that does not fail. -/
def any : List (Rule σ ν) → Rule σ ν
  | [] => step fun _ => none
  | [a] => a
  | a :: as => alt a (any as)

/-- The rule, or nothing. -/
def opt (a : Rule σ ν) : Rule σ ν := alt a empty

/-- The rule at least once. -/
def many1 (a : Rule σ ν) : Rule σ ν := seq a (many a)

/-- Reads nothing, and fails where the rule does. -/
def ahead (a : Rule σ ν) : Rule σ ν := absent (absent a)

/-- The rule at least once, with a separator between. -/
def sepBy (sep a : Rule σ ν) : Rule σ ν := seq a (many (seq sep a))

/-- The rule at least once, with a separator between and possibly after. -/
def listOf (sep a : Rule σ ν) : Rule σ ν := seq (sepBy sep a) (opt sep)

end Rule

end ImportTrail.Grammar
