import ImportTrail.Grammar.Rule

/-!
Runs of rules put together from the runs of their parts.

* `Reads`, `Fails` — a rule reads up to a place, or does not read, with the given depth;
* `Reads.more`, `Fails.more` — more depth changes neither;
* one lemma for every way in which a rule made from others reads or fails. A reference and another round of a
  repetition each take one more of the depth;
* `Lexemes` — what holds of all lexemes of a rule, with one equivalence for every way in which a rule is made;
* `run_alike` — where all lexemes of a grammar are read the same, so are its rules.
-/

namespace ImportTrail.Grammar.Rule

variable {σ ν : Type} {g : ν → Rule σ ν} {n m : Nat} {a b : Rule σ ν} {s s' t u : σ} {found found' : List Text}

/-- With this depth the rule reads from one place to another and reports these texts. -/
def Reads (g : ν → Rule σ ν) (n : Nat) (a : Rule σ ν) (s t : σ) (found : List Text) : Prop := run g n a s = .ok t found

/-- With this depth the rule fails. -/
def Fails (g : ν → Rule σ ν) (n : Nat) (a : Rule σ ν) (s : σ) : Prop := run g n a s = .fail

/-! ### Depth -/

theorem Reads.more (h : Reads g n a s t found) (hn : n ≤ m) : Reads g m a s t found := by
  have hm := run_refines g hn a s
  rw [Outcome.Refines, h] at hm
  exact (hm.resolve_left (by simp)).symm

theorem Fails.more (h : Fails g n a s) (hn : n ≤ m) : Fails g m a s := by
  have hm := run_refines g hn a s
  rw [Outcome.Refines, h] at hm
  exact (hm.resolve_left (by simp)).symm

/-! ### Single steps and references -/

theorem Reads.empty : Reads g (n + 1) .empty s s [] := rfl

theorem Reads.step {read : σ → Option σ} (h : read s = some t) : Reads g (n + 1) (.step read) s t [] := by
  simp [Reads, run, runWith, h]

theorem Fails.step {read : σ → Option σ} (h : read s = none) : Fails g (n + 1) (.step read) s := by
  simp [Fails, run, runWith, h]

theorem Reads.part {p : ν} (h : Reads g n (g p) s t found) : Reads g (n + 1) (.part p) s t found := h

theorem Fails.part {p : ν} (h : Fails g n (g p) s) : Fails g (n + 1) (.part p) s := h

/-! ### Sequences and choices -/

theorem Reads.seq (ha : Reads g n a s t found) (hb : Reads g n b t u found') :
    Reads g n (.seq a b) s u (found ++ found') := by
  cases n with
  | zero => cases ha
  | succ n =>
    simp only [Reads, run] at ha hb
    simp [Reads, run, runWith, Outcome.andThen, ha, hb]

theorem Fails.seq (ha : Fails g n a s) : Fails g n (.seq a b) s := by
  cases n with
  | zero => cases ha
  | succ n =>
    simp only [Fails, run] at ha
    simp [Fails, run, runWith, Outcome.andThen, ha]

theorem Reads.seq_fails (ha : Reads g n a s t found) (hb : Fails g n b t) : Fails g n (.seq a b) s := by
  cases n with
  | zero => cases ha
  | succ n =>
    simp only [Reads, Fails, run] at ha hb
    simp [Fails, run, runWith, Outcome.andThen, ha, hb]

theorem Reads.alt (ha : Reads g n a s t found) : Reads g n (.alt a b) s t found := by
  cases n with
  | zero => cases ha
  | succ n =>
    simp only [Reads, run] at ha
    simp [Reads, run, runWith, Outcome.orElse, ha]

theorem Fails.alt_reads (ha : Fails g n a s) (hb : Reads g n b s t found) : Reads g n (.alt a b) s t found := by
  cases n with
  | zero => cases ha
  | succ n =>
    simp only [Reads, Fails, run] at ha hb
    simp [Reads, run, runWith, Outcome.orElse, ha, hb]

theorem Fails.alt (ha : Fails g n a s) (hb : Fails g n b s) : Fails g n (.alt a b) s := by
  cases n with
  | zero => cases ha
  | succ n =>
    simp only [Fails, run] at ha hb
    simp [Fails, run, runWith, Outcome.orElse, ha, hb]

theorem Reads.opt (ha : Reads g n a s t found) : Reads g n (opt a) s t found := ha.alt

theorem Fails.opt (ha : Fails g n a s) : Reads g n (opt a) s s [] := by
  cases n with
  | zero => cases ha
  | succ n => exact ha.alt_reads .empty

theorem Fails.any {l : List (Rule σ ν)} (h : ∀ a ∈ l, Fails g (n + 1) a s) : Fails g (n + 1) (any l) s := by
  induction l with
  | nil => exact .step rfl
  | cons a l ih =>
    have ha := h a List.mem_cons_self
    cases l with
    | nil => exact ha
    | cons b l => exact ha.alt (ih fun x hx => h x (List.mem_cons_of_mem _ hx))

/-! ### Repetitions -/

theorem Fails.many (ha : Fails g n a s) : Reads g n (.many a) s s [] := by
  cases n with
  | zero => cases ha
  | succ n =>
    simp only [Fails, run] at ha
    simp [Reads, run, runWith, ha]

/-- One round of a repetition, and the others with less depth. -/
theorem Reads.many (ha : Reads g (n + 1) a s t found) (hmany : Reads g n (.many a) t u found') :
    Reads g (n + 1) (.many a) s u (found ++ found') := by
  simp only [Reads, run] at ha hmany
  simp [Reads, run, runWith, Outcome.andThen, ha, hmany]

/-! ### Looking ahead and reports -/

theorem Fails.absent (ha : Fails g n a s) : Reads g n (.absent a) s s [] := by
  cases n with
  | zero => cases ha
  | succ n =>
    simp only [Fails, run] at ha
    simp [Reads, run, runWith, ha]

theorem Reads.absent (ha : Reads g n a s t found) : Fails g n (.absent a) s := by
  cases n with
  | zero => cases ha
  | succ n =>
    simp only [Reads, run] at ha
    simp [Fails, run, runWith, ha]

theorem Reads.report (f : σ → σ → List Text → List Text) (ha : Reads g n a s t found) :
    Reads g n (.report f a) s t (f s t found) := by
  cases n with
  | zero => cases ha
  | succ n =>
    simp only [Reads, run] at ha
    simp [Reads, run, runWith, ha]

theorem Fails.report (f : σ → σ → List Text → List Text) (ha : Fails g n a s) : Fails g n (.report f a) s := by
  cases n with
  | zero => cases ha
  | succ n =>
    simp only [Fails, run] at ha
    simp [Fails, run, runWith, ha]

/-! ### All lexemes of a rule -/

/-- All lexemes that a rule reads by itself, not through others, satisfy `p`. -/
def Lexemes (p : (σ → Option σ) → Prop) : Rule σ ν → Prop
  | .empty | .part _ => True
  | .step read => p read
  | .seq a b | .alt a b => Lexemes p a ∧ Lexemes p b
  | .many a | .absent a | .report _ a => Lexemes p a

section Lexemes

variable {p : (σ → Option σ) → Prop} {l : List (Rule σ ν)}

@[simp] theorem lexemes_empty : Lexemes p (.empty : Rule σ ν) := trivial

@[simp] theorem lexemes_part (x : ν) : Lexemes p (.part x : Rule σ ν) := trivial

@[simp] theorem lexemes_step (read : σ → Option σ) : Lexemes p (.step read : Rule σ ν) ↔ p read := .rfl

@[simp] theorem lexemes_seq : Lexemes p (.seq a b) ↔ Lexemes p a ∧ Lexemes p b := .rfl

@[simp] theorem lexemes_alt : Lexemes p (.alt a b) ↔ Lexemes p a ∧ Lexemes p b := .rfl

@[simp] theorem lexemes_many : Lexemes p (.many a) ↔ Lexemes p a := .rfl

@[simp] theorem lexemes_absent : Lexemes p (.absent a) ↔ Lexemes p a := .rfl

@[simp] theorem lexemes_report (f : σ → σ → List Text → List Text) : Lexemes p (.report f a) ↔ Lexemes p a := .rfl

@[simp] theorem lexemes_all : Lexemes p (all l) ↔ ∀ a ∈ l, Lexemes p a := by
  induction l with
  | nil => simp [all]
  | cons a l ih => cases l <;> simp_all [all]

theorem lexemes_any (hnone : p fun _ => none) : Lexemes p (any l) ↔ ∀ a ∈ l, Lexemes p a := by
  induction l with
  | nil => simpa [any] using hnone
  | cons a l ih => cases l <;> simp_all [any]

@[simp] theorem lexemes_opt : Lexemes p (opt a) ↔ Lexemes p a := by simp [opt]

@[simp] theorem lexemes_ahead : Lexemes p (ahead a) ↔ Lexemes p a := by simp [ahead]

@[simp] theorem lexemes_sepBy : Lexemes p (sepBy a b) ↔ Lexemes p b ∧ Lexemes p a := by
  simp only [sepBy, lexemes_seq, lexemes_many]
  exact ⟨fun h => ⟨h.1, h.2.1⟩, fun h => ⟨h.1, h.2, h.1⟩⟩

@[simp] theorem lexemes_listOf : Lexemes p (listOf a b) ↔ Lexemes p b ∧ Lexemes p a := by
  simp [listOf]

end Lexemes

/-! ### Places that look alike -/

/-- Outcomes of one kind at two places, with the same place reached if anything was read. -/
inductive Alike (s s' : σ) : Outcome σ → Outcome σ → Prop
  | deep : Alike s s' .deep .deep
  | fail : Alike s s' .fail .fail
  | read (t : σ) (found found' : List Text) : Alike s s' (.ok t found) (.ok t found')
  | stay (found found' : List Text) : Alike s s' (.ok s found) (.ok s' found')

/-- What is read next is the same from a place that both have reached, and alike where both have stayed. -/
theorem Alike.andThen {o o' : Outcome σ} {f : σ → Outcome σ} (ho : Alike s s' o o') (hf : Alike s s' (f s) (f s')) :
    Alike s s' (o.andThen f) (o'.andThen f) := by
  cases ho with
  | deep => exact .deep
  | fail => exact .fail
  | read t found found' =>
    simp only [Outcome.andThen]
    cases f t with
    | deep => exact .deep
    | fail => exact .fail
    | ok u more => exact .read u _ _
  | stay found found' =>
    simp only [Outcome.andThen]
    generalize f s = o at hf ⊢
    generalize f s' = o' at hf ⊢
    cases hf with
    | deep => exact .deep
    | fail => exact .fail
    | read t more more' => exact .read t _ _
    | stay more more' => exact .stay _ _

/-- Where all lexemes are read the same, so are rules. The induction is on the depth, for the rest of a repetition, and
within one depth on the rule. -/
theorem run_alike {p : (σ → Option σ) → Prop} (hp : ∀ read, p read → read s = read s') (hg : ∀ x, Lexemes p (g x))
    (ha : Lexemes p a) : Alike s s' (run g n a s) (run g n a s') := by
  induction n generalizing a with
  | zero => exact .deep
  | succ n hcall =>
    simp only [run]
    induction a with
    | empty => exact .stay [] []
    | step read =>
      simp only [runWith, hp read ha]
      cases read s' with
      | none => exact .fail
      | some t => exact .read t [] []
    | part x => exact hcall (hg x)
    | seq a b iha ihb => exact (iha ha.1).andThen (ihb ha.2)
    | alt a b iha ihb =>
      have hfirst := iha ha.1
      simp only [runWith]
      generalize runWith (run g n) g a s = o at hfirst ⊢
      generalize runWith (run g n) g a s' = o' at hfirst ⊢
      cases hfirst with
      | deep => exact .deep
      | fail => exact ihb ha.2
      | read t found found' => exact .read t found found'
      | stay found found' => exact .stay found found'
    | many a iha =>
      have hround := iha ha
      simp only [runWith]
      generalize runWith (run g n) g a s = o at hround ⊢
      generalize runWith (run g n) g a s' = o' at hround ⊢
      cases hround with
      | deep => exact .deep
      | fail => exact .stay [] []
      | read t found found' => exact (Alike.read t found found').andThen (hcall ha)
      | stay found found' => exact (Alike.stay found found').andThen (hcall ha)
    | absent a iha =>
      have hinner := iha ha
      simp only [runWith]
      generalize runWith (run g n) g a s = o at hinner ⊢
      generalize runWith (run g n) g a s' = o' at hinner ⊢
      cases hinner with
      | deep => exact .deep
      | fail => exact .stay [] []
      | read => exact .fail
      | stay => exact .fail
    | report f a iha =>
      have hinner := iha ha
      simp only [runWith]
      generalize runWith (run g n) g a s = o at hinner ⊢
      generalize runWith (run g n) g a s' = o' at hinner ⊢
      cases hinner with
      | deep => exact .deep
      | fail => exact .fail
      | read t => exact .read t _ _
      | stay => exact .stay _ _

theorem Fails.alike {p : (σ → Option σ) → Prop} (h : Fails g n a s') (hp : ∀ read, p read → read s = read s')
    (hg : ∀ x, Lexemes p (g x)) (ha : Lexemes p a) : Fails g n a s := by
  have := run_alike (n := n) hp hg ha
  rw [h] at this
  generalize ho : run g n a s = o at this
  cases this
  exact ho

end ImportTrail.Grammar.Rule
