import ImportTrail.Glob.Parser
import Mathlib.Data.List.Basic

/-!
Globs with directories written in front of them or behind them. The reader is a machine that takes one character after
the other, so more text behind a glob goes on where the glob has ended, and more text in front of it starts it in another
state. Stars at an end of the glob are the reason that it does not just add a part.

* `parse_deep`, `parse_deep_ends` — what `/**` behind a glob does;
* `State.over`, `over_read`, `parse_anywhere` — what `**/` in front of a glob does.
-/

namespace ImportTrail.Glob

open Text State

/-! ### Reading on -/

variable {st st' : State} {prev next : Option Char} {c : Char} {g h : Text} {ts : List Token} {t : Token}

/-- The parts of a glob of which the reader has got to a state. -/
def readFrom (st : State) (g : Text) : Except Fault (List Token) := g.foldlM State.read st >>= State.finish

theorem parse_eq_readFrom (g : Text) : parse g = readFrom {} g := rfl

theorem readFrom_nil (st : State) : readFrom st [] = st.finish := rfl

theorem readFrom_cons (st : State) (c : Char) (g : Text) : readFrom st (c :: g) = st.read c >>= (readFrom · g) := by
  rw [readFrom, List.foldlM_cons, bind_assoc]
  rfl

theorem readFrom_cons_of_ok (hr : st.read c = .ok st') (g : Text) : readFrom st (c :: g) = readFrom st' g := by
  rw [readFrom_cons, hr]
  rfl

theorem readFrom_append (st : State) (g h : Text) : readFrom st (g ++ h) = g.foldlM State.read st >>= (readFrom · h) := by
  rw [readFrom, List.foldlM_append, bind_assoc]
  rfl

@[simp] theorem push_parts (st : State) (t : Token) : (st.push t).parts = t :: st.parts := rfl
@[simp] theorem inMode_parts (st : State) (m : Mode) : (st.inMode m).parts = st.parts := rfl
@[simp] theorem inMode_mode (st : State) (m : Mode) : (st.inMode m).mode = m := rfl

theorem read_stars_used (hm : st.mode = .stars prev) (h : st.twoStars prev (some c) = (st', true)) :
    st.read c = .ok (st'.inMode (.plain (some c))) := by
  simp only [State.read, hm, h]

theorem read_stars_left (hm : st.mode = .stars prev) (h : st.twoStars prev (some c) = (st', false)) :
    st.read c = st'.readPlain (some '*') c := by
  simp only [State.read, hm, h]

/-- The end of a text with the choices closed. -/
def close (st : State) : Except Fault (List Token) :=
  if st.opened.isEmpty then .ok st.parts.reverse else .error .unclosedChoice

theorem finish_plain (hm : st.mode = .plain prev) : st.finish = close st := by
  simp only [State.finish, hm]
  rfl

theorem finish_star (hm : st.mode = .star prev) : st.finish = close (st.push .run) := by
  simp only [State.finish, hm]
  rfl

theorem finish_stars (hm : st.mode = .stars prev) : st.finish = close (st.twoStars prev none).1 := by
  simp only [State.finish, hm]
  rfl

/-! ### What a character does -/

/-- The reader is inside of a class. -/
def Mode.isInside : Mode → Bool
  | .classStart => true
  | .inClass _ _ _ _ => true
  | _ => false

/-- The reader is in the middle of a part: in a class or behind a backslash. -/
def Mode.isPending (m : Mode) : Bool :=
  match m with
  | .escape => true
  | _ => m.isInside

theorem readPlain_cases (hr : st.readPlain prev c = .ok st') :
    (c = '*' ∧ st' = st.inMode (.star prev)) ∨ (∃ m, m.isPending = true ∧ st' = st.inMode m) ∨
      (st'.parts = [] ∧ st'.opened ≠ []) ∨ ∃ t ps, t ≠ .leading ∧ st'.parts = t :: ps := by
  unfold State.readPlain at hr
  split_ifs at hr with _ hstar
  · obtain rfl := Except.ok.inj hr
    exact .inr (.inr (.inr ⟨.any, _, by simp, rfl⟩))
  · exact .inl ⟨hstar, (Except.ok.inj hr).symm⟩
  · exact .inr (.inl ⟨.classStart, rfl, (Except.ok.inj hr).symm⟩)
  · obtain rfl := Except.ok.inj hr
    exact .inr (.inr (.inl ⟨rfl, by simp⟩))
  · split at hr
    · cases hr
    · obtain rfl := Except.ok.inj hr
      exact .inr (.inr (.inr ⟨.choice _, _, by simp, rfl⟩))
  · split at hr
    · obtain rfl := Except.ok.inj hr
      exact .inr (.inr (.inr ⟨.literal ',', _, by simp, rfl⟩))
    · obtain rfl := Except.ok.inj hr
      exact .inr (.inr (.inl ⟨rfl, by simp⟩))
  · exact .inr (.inl ⟨.escape, rfl, (Except.ok.inj hr).symm⟩)
  · obtain rfl := Except.ok.inj hr
    exact .inr (.inr (.inr ⟨.literal c, _, by simp, rfl⟩))

theorem readClass_cases {negated isFirst isRange : Bool} {ranges : List (Char × Char)}
    (hr : st.readClass negated isFirst isRange ranges c = .ok st') :
    (c = ']' ∧ ∃ t, t ≠ .leading ∧ st'.parts = t :: st.parts) ∨ ∃ m, m.isInside = true ∧ st' = st.inMode m := by
  rw [State.readClass] at hr
  split at hr
  · rename_i hend
    obtain rfl := Except.ok.inj hr
    exact .inl ⟨hend.1, .oneOf _ _, by simp, rfl⟩
  · refine .inr ?_
    split_ifs at hr
    · exact ⟨.inClass _ _ _ _, rfl, (Except.ok.inj hr).symm⟩
    · cases hclose : closeRange c ranges with
      | error f => rw [hclose] at hr; cases hr
      | ok rs =>
        rw [hclose] at hr
        exact ⟨.inClass _ _ _ _, rfl, (Except.ok.inj hr).symm⟩
    · exact ⟨.inClass _ _ _ _, rfl, (Except.ok.inj hr).symm⟩

theorem twoStars_cases (st : State) (prev next : Option Char) :
    (st.parts = [] ∧ (st.twoStars prev next).1 = st.push .leading) ∨
      (st.twoStars prev next).1 = (st.push .run).push .run ∨
      (st.parts ≠ [] ∧ ∃ t, t ≠ .leading ∧ (st.twoStars prev next).1 = st.recurse t) := by
  unfold State.twoStars
  dsimp only
  split_ifs with hps
  · rw [List.isEmpty_iff] at hps
    split
    · exact .inl ⟨hps, rfl⟩
    · exact .inl ⟨hps, rfl⟩
    · exact .inr (.inl rfl)
  · exact .inr (.inl rfl)
  · rw [List.isEmpty_iff] at hps
    split
    · exact .inr (.inr ⟨hps, .trailing, by simp, rfl⟩)
    · exact .inr (.inr ⟨hps, .middle, by simp, rfl⟩)
    · split_ifs
      · exact .inr (.inr ⟨hps, .trailing, by simp, rfl⟩)
      · exact .inr (.inl rfl)

/-- The stars keep a part of their own kind that stands before them, and take the place of any other. -/
theorem recurse_cases (hne : st.parts ≠ []) (t : Token) :
    (st.recurse t = st ∧ ∃ u ps, (u = .leading ∨ u = .trailing) ∧ st.parts = u :: ps) ∨
      ∃ u ps, u ≠ .leading ∧ st.parts = u :: ps ∧ st.recurse t = ⟨t :: ps, st.opened, st.mode⟩ := by
  obtain ⟨ps, os, m⟩ := st
  cases ps with
  | nil => exact absurd rfl hne
  | cons u ps =>
    cases u with
    | leading => exact .inl ⟨rfl, _, _, .inl rfl, rfl⟩
    | trailing => exact .inl ⟨rfl, _, _, .inr rfl, rfl⟩
    | _ => exact .inr ⟨_, _, by simp, rfl, rfl⟩

theorem recurse_inMode (st : State) (t : Token) (m : Mode) : (st.inMode m).recurse t = (st.recurse t).inMode m := by
  obtain ⟨ps, os, m⟩ := st
  cases ps with
  | nil => rfl
  | cons u ps => cases u <;> rfl

theorem recurse_parts_ne_nil (hne : st.parts ≠ []) : (st.recurse t).parts ≠ [] := by
  rcases recurse_cases hne t with ⟨h, -⟩ | ⟨u, ps, -, -, h⟩
  · rwa [h]
  · simp [h]

/-! ### Directories behind a glob -/

/-- Leading directories that were read last are all that was read. -/
def Lone (st : State) : Prop := ∀ ps, st.parts = .leading :: ps → ps = []

theorem lone_of_cons {ps : List Token} (ht : t ≠ .leading) (h : st.parts = t :: ps) : Lone st := by
  intro qs hq
  rw [h] at hq
  exact absurd (List.cons.inj hq).1 ht

theorem lone_of_nil (h : st.parts = []) : Lone st := by
  intro qs hq
  rw [h] at hq
  cases hq

theorem Lone.readPlain (hl : Lone st) (hr : st.readPlain prev c = .ok st') : Lone st' := by
  rcases readPlain_cases hr with ⟨-, rfl⟩ | ⟨m, -, rfl⟩ | ⟨hnil, -⟩ | ⟨t, ps, ht, hps⟩
  · exact hl
  · exact hl
  · exact lone_of_nil hnil
  · exact lone_of_cons ht hps

theorem Lone.readClass {negated isFirst isRange : Bool} {ranges : List (Char × Char)} (hl : Lone st)
    (hr : st.readClass negated isFirst isRange ranges c = .ok st') : Lone st' := by
  rcases readClass_cases hr with ⟨-, t, ht, hps⟩ | ⟨m, -, rfl⟩
  · exact lone_of_cons ht hps
  · exact hl

theorem Lone.twoStars (hl : Lone st) (prev next : Option Char) : Lone (st.twoStars prev next).1 := by
  rcases twoStars_cases st prev next with ⟨hnil, h⟩ | h | ⟨hne, t, ht, h⟩
  · rw [h]
    intro ps hps
    rw [push_parts, hnil] at hps
    exact (List.cons.inj hps).2.symm
  · rw [h]
    exact lone_of_cons (by simp) (push_parts _ _)
  · rw [h]
    rcases recurse_cases hne t with ⟨h, -⟩ | ⟨u, ps, -, -, h⟩
    · rwa [h]
    · rw [h]
      exact lone_of_cons ht rfl

theorem Lone.read (hl : Lone st) (hr : st.read c = .ok st') : Lone st' := by
  unfold State.read at hr
  split at hr
  · exact hl.readPlain hr
  · split_ifs at hr
    · obtain rfl := Except.ok.inj hr
      exact hl
    · exact (lone_of_cons (by simp) (push_parts st .run)).readPlain hr
  · rename_i prev _
    have hstars := hl.twoStars prev (some c)
    split at hr
    · rename_i h
      rw [h] at hstars
      obtain rfl := Except.ok.inj hr
      exact hstars
    · rename_i h
      rw [h] at hstars
      exact hstars.readPlain hr
  · obtain rfl := Except.ok.inj hr
    exact lone_of_cons (by simp) (push_parts st _)
  · split_ifs at hr
    · obtain rfl := Except.ok.inj hr
      exact hl
    · exact hl.readClass hr
  · exact hl.readClass hr

theorem Lone.foldlM (hl : Lone st) (hr : g.foldlM State.read st = .ok st') : Lone st' := by
  induction g generalizing st with
  | nil =>
    obtain rfl := Except.ok.inj hr
    exact hl
  | cons c g ih =>
    rw [List.foldlM_cons] at hr
    cases hc : st.read c with
    | error f => rw [hc] at hr; cases hr
    | ok st₁ =>
      rw [hc] at hr
      exact ih (hl.read hc) hr

/-- Two stars at the end of a text and before a slash are settled alike. -/
theorem twoStars_end_slash (st : State) (prev : Option Char) :
    (st.parts = [] ∧ st.twoStars prev none = (st.push .leading, false) ∧
      st.twoStars prev (some '/') = (st.push .leading, true)) ∨
    (st.twoStars prev none = ((st.push .run).push .run, false) ∧
      st.twoStars prev (some '/') = ((st.push .run).push .run, false)) ∨
    (st.parts ≠ [] ∧ st.twoStars prev none = (st.recurse .trailing, false) ∧
      st.twoStars prev (some '/') = (st.recurse .middle, true)) := by
  obtain ⟨ps, os, m⟩ := st
  cases ps with
  | nil => exact .inl ⟨rfl, rfl, rfl⟩
  | cons t ps =>
    by_cases h : (prev != some '/' && (os.isEmpty || (prev != some ',' && prev != some '\x7b'))) = true
    · exact .inr (.inl ⟨by simp [State.twoStars, h], by simp [State.twoStars, h]⟩)
    · exact .inr (.inr ⟨by simp, by simp [State.twoStars, h], by simp [State.twoStars, h]⟩)

theorem recurse_recurse (hne : st.parts ≠ []) : (st.recurse .middle).recurse .trailing = st.recurse .trailing := by
  obtain ⟨ps, os, m⟩ := st
  cases ps with
  | nil => exact absurd rfl hne
  | cons t ps => cases t <;> rfl

/-- Outside of classes a slash is read as a part or belongs to the stars in front of it. -/
theorem read_slash (hm : st.mode.isInside = false) :
    ∃ st', st.read '/' = .ok st' ∧ st'.mode = .plain (some '/') ∧ st'.parts ≠ [] := by
  obtain ⟨ps, os, m⟩ := st
  cases m with
  | plain prev => exact ⟨_, rfl, rfl, by simp⟩
  | star prev => exact ⟨_, rfl, rfl, by simp⟩
  | stars prev =>
    rcases twoStars_end_slash ⟨ps, os, .stars prev⟩ prev with ⟨-, -, h⟩ | ⟨-, h⟩ | ⟨hne, -, h⟩
    · exact ⟨_, read_stars_used rfl h, rfl, by simp⟩
    · exact ⟨_, (read_stars_left rfl h).trans rfl, rfl, by simp⟩
    · exact ⟨_, read_stars_used rfl h, rfl, recurse_parts_ne_nil hne⟩
  | escape => exact ⟨_, rfl, rfl, by simp⟩
  | classStart => cases hm
  | inClass _ _ _ _ => cases hm

theorem read_inside (hm : st.mode.isInside = true) (hc : c ≠ ']') (hr : st.read c = .ok st') :
    st'.mode.isInside = true := by
  have hclass : ∀ {negated isFirst isRange ranges}, st.readClass negated isFirst isRange ranges c = .ok st' →
      st'.mode.isInside = true := by
    intro _ _ _ _ h
    rcases readClass_cases h with ⟨rfl, -⟩ | ⟨m, hm, rfl⟩
    · exact absurd rfl hc
    · exact hm
  unfold State.read at hr
  split at hr
  · simp_all [Mode.isInside]
  · simp_all [Mode.isInside]
  · simp_all [Mode.isInside]
  · simp_all [Mode.isInside]
  · split_ifs at hr
    · obtain rfl := Except.ok.inj hr
      rfl
    · exact hclass hr
  · exact hclass hr

/-- A class that nothing closes. -/
theorem readFrom_inside (hm : st.mode.isInside = true) (hg : ']' ∉ g) : ∃ f, readFrom st g = .error f := by
  induction g generalizing st with
  | nil =>
    obtain ⟨ps, os, m⟩ := st
    cases m with
    | classStart => exact ⟨.unclosedClass, rfl⟩
    | inClass _ _ _ _ => exact ⟨.unclosedClass, rfl⟩
    | _ => cases hm
  | cons c g ih =>
    rw [List.mem_cons, not_or] at hg
    cases hr : st.read c with
    | error f => exact ⟨f, by rw [readFrom_cons, hr]; rfl⟩
    | ok st' =>
      rw [readFrom_cons_of_ok hr]
      exact ih (read_inside hm (Ne.symm hg.1) hr) hg.2

/-- Everything below. -/
def deep : Text := "/**".toList

/-- The stars settle what the slash has left. -/
theorem readFrom_deep (hr : st.read '/' = .ok st') (hm : st'.mode = .plain (some '/')) (hne : st'.parts ≠ []) :
    readFrom st deep = close (st'.recurse .trailing) := by
  obtain ⟨ps, os, m⟩ := st'
  obtain rfl : m = .plain (some '/') := hm
  cases ps with
  | nil => exact absurd rfl hne
  | cons t ps =>
    have hstars : readFrom ⟨t :: ps, os, .plain (some '/')⟩ ['*', '*'] =
        close (recurse ⟨t :: ps, os, .stars (some '/')⟩ .trailing) := rfl
    rw [show deep = ['/', '*', '*'] from rfl, readFrom_cons_of_ok hr, hstars]
    cases t <;> rfl

theorem close_push (hs : close st = .ok ts) (hps : st'.parts = t :: st.parts) (hos : st'.opened = st.opened) :
    close st' = .ok (ts ++ [t]) := by
  unfold close at hs ⊢
  rw [hos]
  split_ifs at hs ⊢ with h
  obtain rfl := Except.ok.inj hs
  rw [hps, List.reverse_cons]

/-- Everything below a glob is one more part, or is in the glob already. -/
theorem readFrom_deep_of_finish (hs : st.finish = .ok ts) :
    readFrom st deep = .ok (ts ++ [.trailing]) ∨ readFrom st deep = .ok ts := by
  obtain ⟨ps, os, m⟩ := st
  cases m with
  | plain prev => exact .inl ((readFrom_deep rfl rfl (by simp)).trans (close_push hs rfl rfl))
  | star prev => exact .inl ((readFrom_deep rfl rfl (by simp)).trans (close_push hs rfl rfl))
  | stars prev =>
    rw [finish_stars rfl] at hs
    rcases twoStars_end_slash ⟨ps, os, .stars prev⟩ prev with ⟨hnil, hend, h⟩ | ⟨hend, h⟩ | ⟨hne, hend, h⟩
    · rw [hend] at hs
      exact .inr ((readFrom_deep (read_stars_used rfl h) rfl (by simp)).trans hs)
    · rw [hend] at hs
      exact .inl ((readFrom_deep ((read_stars_left rfl h).trans rfl) rfl (by simp)).trans (close_push hs rfl rfl))
    · rw [hend, ← recurse_recurse hne] at hs
      refine .inr ((readFrom_deep (read_stars_used rfl h) rfl (recurse_parts_ne_nil hne)).trans ?_)
      rw [recurse_inMode]
      exact hs
  | escape => cases hs
  | classStart => cases hs
  | inClass _ _ _ _ => cases hs

theorem parse_deep (hg : parse g = .ok ts) : parse (g ++ deep) = .ok (ts ++ [.trailing]) ∨ parse (g ++ deep) = .ok ts := by
  rw [parse_eq_readFrom] at hg
  rw [parse_eq_readFrom, readFrom_append]
  unfold readFrom at hg
  cases hr : g.foldlM State.read {} with
  | error f => rw [hr] at hg; cases hg
  | ok st =>
    rw [hr] at hg
    exact readFrom_deep_of_finish hg

/-- A glob for everything below ends with that, or is for everything. -/
theorem parse_deep_ends (hg : parse (g ++ deep) = .ok ts) : ts = [.leading] ∨ ∃ us, ts = us ++ [.trailing] := by
  rw [parse_eq_readFrom, readFrom_append] at hg
  cases hr : g.foldlM State.read {} with
  | error f => rw [hr] at hg; cases hg
  | ok st =>
    rw [hr] at hg
    replace hg : readFrom st deep = .ok ts := hg
    have hlone : Lone st := (lone_of_nil rfl).foldlM hr
    cases hm : st.mode.isInside with
    | true =>
      obtain ⟨f, hf⟩ := readFrom_inside hm (g := deep) (by decide)
      rw [hf] at hg
      cases hg
    | false =>
      obtain ⟨st', hslash, hmode, hne⟩ := read_slash hm
      rw [readFrom_deep hslash hmode hne, close] at hg
      split_ifs at hg
      obtain rfl := Except.ok.inj hg
      rcases recurse_cases hne .trailing with ⟨h, u, ps, rfl | rfl, hps⟩ | ⟨u, ps, -, -, h⟩
      · rw [h, hps, hlone.read hslash ps hps]
        exact .inl rfl
      · exact .inr ⟨ps.reverse, by rw [h, hps, List.reverse_cons]⟩
      · exact .inr ⟨ps.reverse, by rw [h, List.reverse_cons]⟩

/-! ### Directories in front of a glob -/

/-- Choices with some parts below the outermost one, the last part first. -/
def overOpened (us : List Token) : List OpenChoice → List OpenChoice
  | [] => []
  | [o] => [⟨o.before ++ us, o.branches⟩]
  | o :: os => o :: overOpened us os

/-- A state with some parts before all that was read, the last part first. -/
def State.over (us : List Token) : State → State
  | ⟨ps, [], m⟩ => ⟨ps ++ us, [], m⟩
  | ⟨ps, os, m⟩ => ⟨ps, overOpened us os, m⟩

variable {us : List Token}

@[simp] theorem over_mode (st : State) : (st.over us).mode = st.mode := by
  obtain ⟨ps, os, m⟩ := st
  cases os <;> rfl

theorem over_push (st : State) (t : Token) : (st.over us).push t = (st.push t).over us := by
  obtain ⟨ps, os, m⟩ := st
  cases os <;> rfl

theorem over_inMode (st : State) (m : Mode) : (st.over us).inMode m = (st.inMode m).over us := by
  obtain ⟨ps, os, m⟩ := st
  cases os <;> rfl

theorem over_readPlain (st : State) (prev : Option Char) (c : Char) :
    (st.over us).readPlain prev c = (st.readPlain prev c).map (State.over us) := by
  unfold State.readPlain
  split_ifs
  · simp only [over_push, over_inMode, Except.map]
  · simp only [over_inMode, Except.map]
  · simp only [over_inMode, Except.map]
  · obtain ⟨ps, os, m⟩ := st
    cases os <;> rfl
  · obtain ⟨ps, os, m⟩ := st
    rcases os with _ | ⟨o, _ | ⟨o', os⟩⟩ <;> rfl
  · obtain ⟨ps, os, m⟩ := st
    rcases os with _ | ⟨o, _ | ⟨o', os⟩⟩ <;> rfl
  · simp only [over_inMode, Except.map]
  · simp only [over_push, over_inMode, Except.map]

theorem over_readClass (st : State) (negated isFirst isRange : Bool) (ranges : List (Char × Char)) (c : Char) :
    (st.over us).readClass negated isFirst isRange ranges c =
      (st.readClass negated isFirst isRange ranges c).map (State.over us) := by
  unfold State.readClass
  split_ifs
  · simp only [over_push, over_inMode, Except.map]
  · simp only [over_push, over_inMode, Except.map]
  · simp only [over_inMode, Except.map]
  · cases closeRange c ranges with
    | error f => rfl
    | ok rs => exact congrArg _ (over_inMode st _)
  · simp only [over_inMode, Except.map]

/-- Something was read. -/
def HasRead (st : State) : Prop := st.parts ≠ [] ∨ st.opened ≠ []

theorem over_recurse (hst : HasRead st) (t : Token) : (st.over us).recurse t = (st.recurse t).over us := by
  obtain ⟨ps, os, m⟩ := st
  cases ps with
  | nil =>
    cases os with
    | nil => exact absurd hst (by simp [HasRead])
    | cons o os => rfl
  | cons u ps => cases os <;> cases u <;> rfl

theorem over_twoStars (hst : HasRead st) (prev next : Option Char) :
    (st.over us).twoStars prev next = ((st.twoStars prev next).1.over us, (st.twoStars prev next).2) := by
  have hparts : (st.over us).parts.isEmpty = st.parts.isEmpty := by
    obtain ⟨ps, os, m⟩ := st
    cases os with
    | nil => cases ps <;> simp_all [State.over, HasRead]
    | cons o os => rfl
  have hopened : (st.over us).opened.isEmpty = st.opened.isEmpty := by
    obtain ⟨ps, os, m⟩ := st
    rcases os with _ | ⟨o, _ | ⟨o', os⟩⟩ <;> rfl
  unfold State.twoStars
  simp only [hparts, hopened, over_push, over_recurse hst]
  split_ifs
  · split <;> rfl
  · rfl
  · split
    · rfl
    · rfl
    · split_ifs <;> rfl

/-- The parts in front do not change what a character does. Stars are settled only behind something. -/
theorem over_read (hst : HasRead st ∨ ∀ prev, st.mode ≠ .stars prev) (c : Char) :
    (st.over us).read c = (st.read c).map (State.over us) := by
  unfold State.read
  rw [over_mode]
  split
  · exact over_readPlain _ _ _
  · split_ifs
    · rw [over_inMode]
      rfl
    · rw [over_push, over_readPlain]
  · rename_i prev hm
    rw [over_twoStars (hst.resolve_right fun h => h prev hm)]
    obtain ⟨st₁, used⟩ := st.twoStars prev (some c)
    cases used with
    | true => exact congrArg _ (over_inMode st₁ _)
    | false => exact over_readPlain _ _ _
  · rw [over_push, over_inMode]
    rfl
  · split_ifs
    · rw [over_inMode]
      rfl
    · exact over_readClass _ _ _ _ _ _
  · exact over_readClass _ _ _ _ _ _

theorem over_close (st : State) : close (st.over us) = (close st).map (us.reverse ++ ·) := by
  obtain ⟨ps, os, m⟩ := st
  rcases os with _ | ⟨o, _ | ⟨o', os⟩⟩
  · exact congrArg Except.ok List.reverse_append
  · rfl
  · rfl

theorem over_finish (hst : HasRead st ∨ ∀ prev, st.mode ≠ .stars prev) :
    (st.over us).finish = st.finish.map (us.reverse ++ ·) := by
  have hover : (st.over us).mode = st.mode := over_mode st
  cases hm : st.mode with
  | plain prev => rw [finish_plain hm, finish_plain (hover.trans hm), over_close]
  | star prev => rw [finish_star hm, finish_star (hover.trans hm), over_push, over_close]
  | stars prev =>
    rw [finish_stars hm, finish_stars (hover.trans hm), over_twoStars (hst.resolve_right fun h => h prev hm), over_close]
  | escape => simp only [State.finish, hover, hm]; rfl
  | classStart => simp only [State.finish, hover, hm]; rfl
  | inClass _ _ _ _ => simp only [State.finish, hover, hm]; rfl

/-- Something was read, if only the beginning of a part. -/
def Begun (st : State) : Prop := HasRead st ∨ st.mode.isPending = true

theorem Begun.settles (hst : Begun st) : HasRead st ∨ ∀ prev, st.mode ≠ .stars prev := by
  refine hst.imp_right fun h prev hm => ?_
  rw [hm] at h
  cases h

theorem begun_readPlain (hst : HasRead st ∨ c ≠ '*') (hr : st.readPlain prev c = .ok st') : Begun st' := by
  rcases readPlain_cases hr with ⟨hc, rfl⟩ | ⟨m, hm, rfl⟩ | ⟨-, hne⟩ | ⟨t, ps, -, hps⟩
  · exact .inl (hst.resolve_right fun h => h hc)
  · exact .inr hm
  · exact .inl (.inr hne)
  · exact .inl (.inl (by simp [hps]))

theorem begun_readClass {negated isFirst isRange : Bool} {ranges : List (Char × Char)}
    (hr : st.readClass negated isFirst isRange ranges c = .ok st') : Begun st' := by
  rcases readClass_cases hr with ⟨-, t, -, hps⟩ | ⟨m, hm, rfl⟩
  · exact .inl (.inl (by simp [hps]))
  · refine .inr ?_
    cases m <;> simp_all [Mode.isPending, Mode.isInside]

theorem hasRead_push (st : State) (t : Token) : HasRead (st.push t) := .inl (by simp)

theorem hasRead_twoStars (st : State) (prev next : Option Char) : HasRead (st.twoStars prev next).1 := by
  rcases twoStars_cases st prev next with ⟨-, h⟩ | h | ⟨hne, t, -, h⟩
  · exact h ▸ hasRead_push _ _
  · exact h ▸ hasRead_push _ _
  · exact h ▸ .inl (recurse_parts_ne_nil hne)

theorem Begun.read (hst : Begun st) (hr : st.read c = .ok st') : Begun st' := by
  unfold State.read at hr
  split at hr
  · rename_i hm
    rw [Begun, hm] at hst
    exact begun_readPlain (.inl (hst.resolve_right (by simp [Mode.isPending, Mode.isInside]))) hr
  · rename_i hm
    split_ifs at hr
    · obtain rfl := Except.ok.inj hr
      rw [Begun, hm] at hst
      exact .inl (hst.resolve_right (by simp [Mode.isPending, Mode.isInside]))
    · exact begun_readPlain (.inl (hasRead_push _ _)) hr
  · rename_i prev _
    have hstars := hasRead_twoStars st prev (some c)
    split at hr
    · rename_i h
      rw [h] at hstars
      obtain rfl := Except.ok.inj hr
      exact .inl hstars
    · rename_i h
      rw [h] at hstars
      exact begun_readPlain (.inl hstars) hr
  · obtain rfl := Except.ok.inj hr
    exact .inl (hasRead_push _ _)
  · split_ifs at hr
    · obtain rfl := Except.ok.inj hr
      exact .inr rfl
    · exact begun_readClass hr
  · exact begun_readClass hr

/-- Once something was read, the parts in front of it are just that. -/
theorem readFrom_over (hst : Begun st) (g : Text) : readFrom (st.over us) g = (readFrom st g).map (us.reverse ++ ·) := by
  induction g generalizing st with
  | nil => exact over_finish hst.settles
  | cons c g ih =>
    rw [readFrom_cons, readFrom_cons, over_read hst.settles]
    cases hr : st.read c with
    | error f => rfl
    | ok st' => exact ih (hst.read hr)

/-- Anywhere below the root. -/
def anywhere : Text := "**/".toList

/-- The state behind leading directories. -/
def afterLeading : State := ⟨[.leading], [], .plain (some '/')⟩

theorem parse_anywhere_eq (g : Text) : parse (anywhere ++ g) = readFrom afterLeading g := rfl

/-- Stars behind leading directories alone leave them where they are. -/
theorem exists_over_twoStars (st : State) (prev next : Option Char) :
    ∃ st₀ : State, ((st.over [.leading]).twoStars prev next).1 = st₀.over [.leading] := by
  by_cases hst : HasRead st
  · exact ⟨_, congrArg Prod.fst (over_twoStars hst prev next)⟩
  · obtain ⟨ps, os, m⟩ := st
    obtain ⟨rfl, rfl⟩ : ps = [] ∧ os = [] := by simpa [HasRead] using hst
    rcases twoStars_cases (State.over [.leading] ⟨[], [], m⟩) prev next with ⟨h, -⟩ | h | ⟨-, t, -, h⟩
    · cases h
    · exact ⟨⟨[.run, .run], [], m⟩, h⟩
    · exact ⟨⟨[], [], m⟩, h⟩

theorem exists_over_read (hr : (st.over [.leading]).read c = .ok st') : ∃ st₀ : State, st' = st₀.over [.leading] := by
  have of_map : ∀ {x : Except Fault State}, x.map (State.over [.leading]) = .ok st' →
      ∃ st₀ : State, st' = st₀.over [.leading] := by
    intro x hx
    cases x with
    | error f => cases hx
    | ok st₀ => exact ⟨st₀, (Except.ok.inj hx).symm⟩
  by_cases hst : HasRead st ∨ ∀ prev, st.mode ≠ .stars prev
  · rw [over_read hst] at hr
    exact of_map hr
  · simp only [not_or, not_forall, not_not] at hst
    obtain ⟨prev, hm⟩ := hst.2
    have hm' : (st.over [.leading]).mode = .stars prev := (over_mode st).trans hm
    obtain ⟨st₀, h⟩ := exists_over_twoStars st prev (some c)
    cases htwo : (st.over [.leading]).twoStars prev (some c) with
    | mk st₁ used =>
      obtain rfl : st₁ = st₀.over [.leading] := by rw [← h, htwo]
      cases used with
      | true =>
        rw [read_stars_used hm' htwo, over_inMode] at hr
        exact ⟨_, (Except.ok.inj hr).symm⟩
      | false =>
        rw [read_stars_left hm' htwo, over_readPlain] at hr
        exact of_map hr

theorem head?_of_close (st : State) (hs : close (st.over [.leading]) = .ok ts) : ts.head? = some .leading := by
  rw [over_close] at hs
  cases h : close st with
  | error f => rw [h] at hs; cases hs
  | ok us =>
    rw [h] at hs
    rw [← Except.ok.inj hs]
    rfl

/-- Leading directories stay in front, whatever is read behind them. -/
theorem head?_of_readFrom_over (hg : readFrom (st.over [.leading]) g = .ok ts) : ts.head? = some .leading := by
  induction g generalizing st with
  | nil =>
    rw [readFrom_nil] at hg
    have hover : (st.over [.leading]).mode = st.mode := over_mode st
    cases hm : st.mode with
    | plain prev =>
      rw [finish_plain (hover.trans hm)] at hg
      exact head?_of_close st hg
    | star prev =>
      rw [finish_star (hover.trans hm), over_push] at hg
      exact head?_of_close _ hg
    | stars prev =>
      obtain ⟨st₀, h⟩ := exists_over_twoStars st prev none
      rw [finish_stars (hover.trans hm), h] at hg
      exact head?_of_close st₀ hg
    | escape => simp only [State.finish, hover, hm] at hg; cases hg
    | classStart => simp only [State.finish, hover, hm] at hg; cases hg
    | inClass _ _ _ _ => simp only [State.finish, hover, hm] at hg; cases hg
  | cons c g ih =>
    rw [readFrom_cons] at hg
    cases hr : (st.over [.leading]).read c with
    | error f => rw [hr] at hg; cases hg
    | ok st' =>
      rw [hr] at hg
      obtain ⟨st₀, rfl⟩ := exists_over_read hr
      exact ih hg

/-- Only a star looks at the character before it. -/
theorem readPlain_prev (hc : c ≠ '*') (st : State) (prev prev' : Option Char) :
    st.readPlain prev c = st.readPlain prev' c := by
  simp only [State.readPlain, hc, if_false]

/-- Two readers that go on from a plain character alike, one of them with parts in front. -/
theorem readFrom_over_plain (us : List Token) (st : State) (prev : Option Char) {st₁ st₂ : State}
    (h₁ : st₁.read c = st.readPlain prev c) (h₂ : st₂.read c = (st.over us).readPlain prev c)
    (hst : HasRead st ∨ c ≠ '*') (g : Text) :
    readFrom st₂ (c :: g) = (readFrom st₁ (c :: g)).map (us.reverse ++ ·) := by
  rw [readFrom_cons, readFrom_cons, h₁, h₂, over_readPlain]
  cases hr : st.readPlain prev c with
  | error f => rfl
  | ok st' => exact readFrom_over (begun_readPlain hst hr) g

/-- What a plain character does depends on the character before it, not on the mode. -/
theorem readPlain_mode (ps : List Token) (os : List OpenChoice) (m m' : Mode) (prev : Option Char) (c : Char) :
    readPlain ⟨ps, os, m⟩ prev c = readPlain ⟨ps, os, m'⟩ prev c := rfl

/-- Outside of choices two stars in front of anything but a slash are two stars. -/
theorem twoStars_of_ne (hst : st.opened = []) (prev : Option Char) (hc : c ≠ '/') :
    st.twoStars prev (some c) = ((st.push .run).push .run, false) := by
  simp [State.twoStars, hst]

-- Behind one star, or two that stay two stars, the readers are at the same place but for the part in front.
theorem readFrom_afterStar (hc : c ≠ '*') (g : Text) :
    readFrom ⟨[.leading], [], .star (some '/')⟩ (c :: g) =
      (readFrom ⟨[], [], .star none⟩ (c :: g)).map ([.leading] ++ ·) := by
  refine readFrom_over_plain [.leading] ⟨[.run], [], .star none⟩ (some '*') ?_ ?_ (.inr hc) g
  · simp only [State.read, if_neg hc]
    rfl
  · simp only [State.read, if_neg hc]
    exact readPlain_mode _ _ _ _ _ _

theorem readFrom_afterStars (hc : c ≠ '/') (g : Text) :
    readFrom ⟨[.leading], [], .stars (some '/')⟩ (c :: g) =
      (readFrom ⟨[], [], .stars none⟩ (c :: g)).map ([.leading] ++ ·) := by
  refine readFrom_over_plain [.leading] ⟨[.run, .run], [], .stars none⟩ (some '*') ?_ ?_ (.inl (.inl (by simp))) g
  · exact read_stars_left rfl (twoStars_of_ne rfl none hc)
  · exact (read_stars_left rfl (twoStars_of_ne rfl (some '/') hc)).trans (readPlain_mode _ _ _ _ _ _)

theorem readFrom_star_one (ps : List Token) (prev : Option Char) (g : Text) :
    readFrom ⟨ps, [], .plain prev⟩ ('*' :: g) = readFrom ⟨ps, [], .star prev⟩ g := readFrom_cons_of_ok rfl g

theorem readFrom_star_two (ps : List Token) (prev : Option Char) (g : Text) :
    readFrom ⟨ps, [], .star prev⟩ ('*' :: g) = readFrom ⟨ps, [], .stars prev⟩ g := readFrom_cons_of_ok rfl g

/-- A glob anywhere below the root has one more part in front, unless it begins with that part. -/
theorem parse_anywhere (hg : parse g = .ok ts) :
    parse (anywhere ++ g) = .ok (.leading :: ts) ∨ parse (anywhere ++ g) = .ok ts ∧ ts.head? = some .leading := by
  rw [parse_anywhere_eq]
  rw [parse_eq_readFrom] at hg
  rcases g with _ | ⟨c, g⟩
  · obtain rfl := Except.ok.inj hg
    exact .inl rfl
  by_cases hc : c = '*'
  · subst hc
    rw [readFrom_star_one] at hg
    rw [afterLeading, readFrom_star_one]
    rcases g with _ | ⟨c, g⟩
    · obtain rfl := Except.ok.inj hg
      exact .inl rfl
    by_cases hc : c = '*'
    · subst hc
      rw [readFrom_star_two] at hg
      rw [readFrom_star_two]
      rcases g with _ | ⟨c, g⟩
      · obtain rfl := Except.ok.inj hg
        exact .inr ⟨rfl, rfl⟩
      by_cases hc : c = '/'
      · subst hc
        have hover : readFrom (State.over [.leading] ⟨[], [], .plain (some '/')⟩) g = .ok ts := hg
        exact .inr ⟨hg, head?_of_readFrom_over hover⟩
      · rw [readFrom_afterStars hc, hg]
        exact .inl rfl
    · rw [readFrom_afterStar hc, hg]
      exact .inl rfl
  · have hplain : readFrom afterLeading (c :: g) = (readFrom {} (c :: g)).map ([.leading] ++ ·) := by
      refine readFrom_over_plain [.leading] {} none rfl ?_ (.inr hc) g
      exact readPlain_prev hc _ _ _
    rw [hplain, hg]
    exact .inl rfl

end ImportTrail.Glob
