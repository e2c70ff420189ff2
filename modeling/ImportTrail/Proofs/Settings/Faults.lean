import ImportTrail.Proofs.Settings.Precedence

/-!
When there are no settings for a run, and which fault is reported.

* `Place`, `FaultAt` — the places where a fault can stand, in the order in which they are read, and what is wrong there;
* `Reports`, `Reports.bind` — a computation reports the first fault of some places, one after the other;
* `resolve_reports` — so does the reading of all layers;
* `foldl_pos` — assignments of positive depths keep the depth positive;
* `FaultAt.named` — what is said of a fault names the place where it stands;
* `resolve_faults` — there are no settings exactly if there is a fault, and the first one is the reason.
-/

namespace ImportTrail.Settings

open Text

/-! ### Faults and where they stand -/

/-- Where a fault can stand: in a settings file as a whole or in one of its values, in a variable, in a flag. -/
inductive Place where
  | file (kind : FileKind)
  | fileDepth (kind : FileKind)
  | fileStrategy (kind : FileKind)
  | depthVariable
  | enabledVariable
  | strategyVariable
  | depthFlag
  deriving DecidableEq, Repr

/-- The places of a settings file in the order in which they are read. -/
def Place.inFile (kind : FileKind) : List Place := [.file kind, .fileDepth kind, .fileStrategy kind]

/-- The places of the environment in the order in which they are read. -/
def Place.inEnvironment : List Place := [.depthVariable, .enabledVariable, .strategyVariable]

/-- All places in the order in which they are read. -/
def Place.all : List Place := inFile .user ++ (inFile .project ++ (inEnvironment ++ [.depthFlag]))

theorem Place.mem_all (place : Place) : place ∈ all := by
  rcases place with (kind | kind | kind | _ | _ | _ | _)
  all_goals first | cases kind <;> decide | decide

/-- The settings file of a kind, if it is there. -/
def settingsFile? (d : Disk) (dir : Text) (userFile? : Option Text) : FileKind → Option Text
  | .user => userFile?.filter d.hasFile
  | .project => nearestFile? d projectFileName dir

section

variable (d : Disk) (dir : Text) (o : Overrides) (userFile? : Option Text) (env : Environment)

/-- What is wrong at a place. -/
inductive FaultAt : Place → Fault → Prop
  | unreadable {kind : FileKind} {path : Text} (hfile : settingsFile? d dir userFile? kind = some path)
      (hs : d.text? path = none) : FaultAt (.file kind) (.unreadable kind path)
  | rejected {kind : FileKind} {path s : Text} {e : FileFault} (hfile : settingsFile? d dir userFile? kind = some path)
      (hs : d.text? path = some s) (he : FileSettings.ofText s = .error e) :
      FaultAt (.file kind) (.invalid kind path e)
  | fileDepth {kind : FileKind} {path : Text} {f : FileSettings} (hfile : settingsFile? d dir userFile? kind = some path)
      (hf : HoldsSettings d (some path) f) (hdepth : f.maxDepth? = some 0) :
      FaultAt (.fileDepth kind) (.zeroDepth (kind.source path))
  | fileStrategy {kind : FileKind} {path s : Text} {f : FileSettings}
      (hfile : settingsFile? d dir userFile? kind = some path) (hf : HoldsSettings d (some path) f)
      (hstrategy : f.strategy? = some s) (hx : Strategy.ofSetting? s = none) :
      FaultAt (.fileStrategy kind) (.unknownStrategy (kind.source path) s)
  | depthText {s : Text} (hs : env depthVariable = some s) (hn : number? (trim s) = none) :
      FaultAt .depthVariable (.noNumber (.environment depthVariable) s)
  | depthZero {s : Text} (hs : env depthVariable = some s) (hn : number? (trim s) = some 0) :
      FaultAt .depthVariable (.zeroDepth (.environment depthVariable))
  | enabledText {s : Text} (hs : env enabledVariable = some s) (hb : flag? s = none) :
      FaultAt .enabledVariable (.noFlag (.environment enabledVariable) s)
  | strategyText {s : Text} (hs : env strategyVariable = some s) (hx : Strategy.ofSetting? s = none) :
      FaultAt .strategyVariable (.unknownStrategy (.environment strategyVariable) s)
  | depthFlag (ho : o.maxDepth? = some 0) : FaultAt .depthFlag (.zeroDepth (.flag "--max-depth".toList))

end

variable {d : Disk} {dir : Text} {o : Overrides} {userFile? : Option Text} {env : Environment}

theorem HoldsSettings.unique {path : Text} {f f' : FileSettings} (h : HoldsSettings d (some path) f)
    (h' : HoldsSettings d (some path) f') : f = f' := by
  obtain ⟨s, hs, hf⟩ := h
  obtain ⟨s', hs', hf'⟩ := h'
  obtain rfl := Option.some.inj (hs.symm.trans hs')
  exact Except.ok.inj (hf.symm.trans hf')

/-- There is no fault in a file that is not there. -/
theorem FaultAt.file_there {kind : FileKind} {place : Place} {e : Fault} (h : FaultAt d dir o userFile? env place e)
    (hplace : place ∈ Place.inFile kind) : ∃ path, settingsFile? d dir userFile? kind = some path := by
  cases h with
  | unreadable hfile | rejected hfile | fileDepth hfile | fileStrategy hfile =>
    simp only [Place.inFile, List.mem_cons, List.not_mem_nil, reduceCtorEq, Place.file.injEq, Place.fileDepth.injEq,
      Place.fileStrategy.injEq, false_or, or_false] at hplace
    exact ⟨_, hplace ▸ hfile⟩
  | depthText | depthZero | enabledText | strategyText | depthFlag => simp [Place.inFile] at hplace

/-! ### Computations that report the first fault -/

/-- The first of some places that holds a fault holds this one. -/
def IsFirst (F : Place → Fault → Prop) (places : List Place) (e : Fault) : Prop :=
  ∃ before place after, places = before ++ place :: after ∧ F place e ∧ ∀ p ∈ before, ∀ e', ¬ F p e'

/-- A computation succeeds if none of some places holds a fault; otherwise its error is the one fault of the first place
that holds any. -/
def Reports {α : Type} (F : Place → Fault → Prop) (places : List Place) : Except Fault α → Prop
  | .ok _ => ∀ p ∈ places, ∀ e, ¬ F p e
  | .error e => ∃ before place after, places = before ++ place :: after ∧ (∀ e', F place e' ↔ e' = e) ∧
      ∀ p ∈ before, ∀ e', ¬ F p e'

namespace Reports

variable {α β : Type} {F : Place → Fault → Prop} {places later : List Place} {x : Except Fault α}

theorem nil (a : α) : Reports F [] (.ok a : Except Fault α) := by
  intro p hp
  cases hp

theorem single {place : Place} (h : ∀ e, x = .error e ↔ F place e) : Reports F [place] x := by
  cases x with
  | ok a =>
    intro p hp e he
    rw [List.mem_singleton.1 hp] at he
    cases (h e).2 he
  | error e => exact ⟨[], place, [], rfl, fun e' => by rw [← h e', Except.error.injEq, eq_comm], by simp⟩

theorem bind {f : α → Except Fault β} (hx : Reports F places x) (hf : ∀ a, x = .ok a → Reports F later (f a)) :
    Reports F (places ++ later) (x >>= f) := by
  cases x with
  | error e =>
    obtain ⟨before, place, after, rfl, he, hbefore⟩ := hx
    exact ⟨before, place, after ++ later, by simp, he, hbefore⟩
  | ok a =>
    have hfa := hf a rfl
    change Reports F (places ++ later) (f a)
    cases hb : f a with
    | ok b =>
      rw [hb] at hfa
      intro p hp
      exact (List.mem_append.1 hp).elim (hx p) (hfa p)
    | error e =>
      rw [hb] at hfa
      obtain ⟨before, place, after, rfl, he, hbefore⟩ := hfa
      refine ⟨places ++ before, place, after, by simp, he, fun p hp => ?_⟩
      exact (List.mem_append.1 hp).elim (hx p) (hbefore p)

theorem map (hx : Reports F places x) (f : α → β) : Reports F places (do return f (← x) : Except Fault β) := by
  cases x with
  | error e => exact hx
  | ok a => exact hx

/-- A step that cannot fail. -/
theorem bind_ok {f : α → Except Fault β} (hx : ∃ a, x = .ok a) (hf : ∀ a, x = .ok a → Reports F places (f a)) :
    Reports F places (x >>= f) := by
  obtain ⟨a, rfl⟩ := hx
  exact hf a rfl

/-- A step that fails with the fault of one place. -/
theorem bind_single {place : Place} {f : α → Except Fault β} (hx : ∀ e, x = .error e ↔ F place e)
    (hf : ∀ a, x = .ok a → Reports F later (f a)) : Reports F (place :: later) (x >>= f) :=
  (single hx).bind hf

theorem error_iff (h : Reports F places x) (e : Fault) : x = .error e ↔ IsFirst F places e := by
  cases x with
  | ok a =>
    refine ⟨nofun, ?_⟩
    rintro ⟨before, place, after, rfl, he, -⟩
    exact absurd he (h place (by simp) e)
  | error e' =>
    obtain ⟨before, place, after, rfl, he', hbefore⟩ := h
    constructor
    · intro h
      exact ⟨before, place, after, rfl, (he' e).2 (Except.error.inj h).symm, hbefore⟩
    · -- Two places that are the first to hold a fault are the same.
      rintro ⟨before', place', after', heq, he, hbefore'⟩
      have hplace : F place e' := (he' e').2 rfl
      rcases List.append_eq_append_iff.1 heq with ⟨_ | ⟨q, mid⟩, rfl, hmid⟩ | ⟨_ | ⟨q, mid⟩, rfl, hmid⟩
      · obtain ⟨rfl, -⟩ := List.cons.inj hmid
        rw [(he' e).1 he]
      · obtain ⟨rfl, -⟩ := List.cons.inj hmid
        exact absurd hplace (hbefore' place (by simp) e')
      · obtain ⟨rfl, -⟩ := List.cons.inj hmid
        rw [(he' e).1 he]
      · obtain ⟨rfl, -⟩ := List.cons.inj hmid
        exact absurd he (hbefore place' (by simp) e)

theorem fails_iff (h : Reports F places x) : (∃ e, x = .error e) ↔ ∃ place ∈ places, ∃ e, F place e := by
  cases x with
  | ok a =>
    refine ⟨nofun, ?_⟩
    rintro ⟨place, hplace, e, he⟩
    exact absurd he (h place hplace e)
  | error e =>
    obtain ⟨before, place, after, rfl, he, -⟩ := h
    exact ⟨fun _ => ⟨place, by simp, e, (he e).2 rfl⟩, fun _ => ⟨e, rfl⟩⟩

end Reports

/-! ### What the layers report -/

theorem fromOption_error {α : Type} {x? : Option α} {f : α → Except Fault (Assignment × Source)} {e : Fault} :
    fromOption x? f = .error e ↔ ∃ x, x? = some x ∧ f x = .error e := by
  cases x? with
  | none => simp [fromOption]
  | some x =>
    simp only [fromOption, Option.some.injEq, exists_eq_left']
    cases f x with
    | error e' => exact ⟨fun h => congrArg _ (Except.error.inj h), fun h => congrArg _ (Except.error.inj h)⟩
    | ok p => exact ⟨nofun, nofun⟩

theorem fromOption_isOk {α : Type} (x? : Option α) (p : α → Assignment × Source) :
    ∃ l, fromOption x? (fun x => .ok (p x)) = .ok l := by
  cases x? with
  | none => exact ⟨[], rfl⟩
  | some x => exact ⟨[p x], rfl⟩

theorem checkDepth_error {α : Type} {source : Source} {n : Nat} {c : Nat → α} {e : Fault} :
    (do return c (← checkDepth source n) : Except Fault α) = .error e ↔ n = 0 ∧ e = .zeroDepth source := by
  unfold checkDepth
  split
  · rename_i hn
    exact ⟨fun h => ⟨hn, (Except.error.inj h).symm⟩, fun h => h.2 ▸ rfl⟩
  · rename_i hn
    exact ⟨nofun, fun h => absurd h.1 hn⟩

theorem checkStrategy_error {α : Type} {source : Source} {s : Text} {c : Strategy → α} {e : Fault} :
    (do return c (← checkStrategy source s) : Except Fault α) = .error e ↔
      Strategy.ofSetting? s = none ∧ e = .unknownStrategy source s := by
  unfold checkStrategy
  split
  · rename_i hs
    exact ⟨nofun, fun h => by rw [hs] at h; cases h.1⟩
  · rename_i hs
    exact ⟨fun h => ⟨hs, (Except.error.inj h).symm⟩, fun h => h.2 ▸ rfl⟩

/-- The layer of a file reports the first fault in its values. -/
theorem fileLayer_reports {kind : FileKind} {path : Text} {f : FileSettings}
    (hfile : settingsFile? d dir userFile? kind = some path) (hf : HoldsSettings d (some path) f) :
    Reports (FaultAt d dir o userFile? env) [.fileDepth kind, .fileStrategy kind] (fileLayer (kind.source path) f) := by
  unfold fileLayer
  refine Reports.bind_ok (fromOption_isOk _ _) fun _ _ => ?_
  refine Reports.bind_single (fun e => ?_) fun _ _ => ?_
  · simp only [fromOption_error, checkDepth_error]
    constructor
    · rintro ⟨n, hn, rfl, rfl⟩
      exact .fileDepth hfile hf hn
    · intro h
      cases h with
      | fileDepth hfile' hf' hn =>
        obtain rfl := Option.some.inj (hfile.symm.trans hfile')
        exact ⟨0, hf.unique hf' ▸ hn, rfl, rfl⟩
  refine Reports.bind_ok (fromOption_isOk _ _) fun _ _ => ?_
  refine Reports.bind_single (fun e => ?_) fun _ _ => Reports.nil _
  · simp only [fromOption_error, checkStrategy_error]
    constructor
    · rintro ⟨s, hs, hx, rfl⟩
      exact .fileStrategy hfile hf hs hx
    · intro h
      cases h with
      | fileStrategy hfile' hf' hs hx =>
        obtain rfl := Option.some.inj (hfile.symm.trans hfile')
        exact ⟨_, hf.unique hf' ▸ hs, hx, rfl⟩

/-- The settings of a file that is there. -/
def readSettings (d : Disk) (kind : FileKind) (path : Text) : Except Fault FileSettings :=
  match d.text? path with
  | none => .error (.unreadable kind path)
  | some s => (FileSettings.ofText s).mapError (.invalid kind path)

theorem readSettings_ok {kind : FileKind} {path : Text} {f : FileSettings} (h : readSettings d kind path = .ok f) :
    HoldsSettings d (some path) f := by
  unfold readSettings at h
  split at h
  · cases h
  · rename_i s hs
    refine ⟨s, hs, ?_⟩
    cases hf : FileSettings.ofText s with
    | error e => rw [hf] at h; cases h
    | ok f' =>
      rw [hf] at h
      rw [Except.ok.inj h]

theorem readLayer_eq (d : Disk) (kind : FileKind) (path : Text) :
    readLayer d kind path = readSettings d kind path >>= fileLayer (kind.source path) := by
  unfold readLayer readSettings
  cases d.text? path with
  | none => rfl
  | some s =>
    dsimp only
    cases FileSettings.ofText s <;> rfl

/-- The layer of a file that may be there reports the first fault in the file. -/
theorem optionalLayer_reports (kind : FileKind) : Reports (FaultAt d dir o userFile? env) (Place.inFile kind)
    (optionalLayer d kind (settingsFile? d dir userFile? kind)) := by
  cases hfile : settingsFile? d dir userFile? kind with
  | none =>
    intro place hplace e h
    obtain ⟨path, hpath⟩ := h.file_there hplace
    rw [hfile] at hpath
    cases hpath
  | some path =>
    rw [optionalLayer, readLayer_eq]
    refine Reports.bind_single (fun e => ?_) fun f hf => ?_
    · unfold readSettings
      constructor
      · intro h
        split at h
        · rename_i hs
          obtain rfl := Except.error.inj h
          exact .unreadable hfile hs
        · rename_i s hs
          cases hf : FileSettings.ofText s with
          | ok f => rw [hf] at h; cases h
          | error e' =>
            rw [hf] at h
            obtain rfl := Except.error.inj h
            exact .rejected hfile hs hf
      · intro h
        cases h with
        | unreadable hfile' hs =>
          obtain rfl := Option.some.inj (hfile.symm.trans hfile')
          rw [hs]
        | rejected hfile' hs hf =>
          obtain rfl := Option.some.inj (hfile.symm.trans hfile')
          rw [hs]
          dsimp only
          rw [hf]
          rfl
    · exact fileLayer_reports hfile (readSettings_ok hf)

/-- The layer of the environment reports its first fault. -/
theorem environmentLayer_reports :
    Reports (FaultAt d dir o userFile? env) Place.inEnvironment (environmentLayer env) := by
  unfold environmentLayer
  refine Reports.bind_single (fun e => ?_) fun _ _ => Reports.bind_single (fun e => ?_) fun _ _ =>
    Reports.bind_single (fun e => ?_) fun _ _ => Reports.nil _
  · rw [fromOption_error]
    constructor
    · rintro ⟨s, hs, h⟩
      dsimp only at h
      split at h
      · rename_i hn
        obtain rfl := Except.error.inj h
        exact .depthText hs hn
      · rename_i n hn
        obtain ⟨rfl, rfl⟩ := checkDepth_error.1 h
        exact .depthZero hs hn
    · intro h
      cases h with
      | depthText hs hn => exact ⟨_, hs, by dsimp only; rw [hn]⟩
      | depthZero hs hn => exact ⟨_, hs, by dsimp only; rw [hn]; exact checkDepth_error.2 ⟨rfl, rfl⟩⟩
  · rw [fromOption_error]
    constructor
    · rintro ⟨s, hs, h⟩
      dsimp only at h
      split at h
      · rename_i hb
        obtain rfl := Except.error.inj h
        exact .enabledText hs hb
      · cases h
    · intro h
      cases h with
      | enabledText hs hb => exact ⟨_, hs, by dsimp only; rw [hb]⟩
  · rw [fromOption_error]
    constructor
    · rintro ⟨s, hs, h⟩
      obtain ⟨hx, rfl⟩ := checkStrategy_error.1 h
      exact .strategyText hs hx
    · intro h
      cases h with
      | strategyText hs hx => exact ⟨_, hs, checkStrategy_error.2 ⟨hx, rfl⟩⟩

/-- The layer of the command line reports its fault. -/
theorem overrideLayer_reports : Reports (FaultAt d dir o userFile? env) [.depthFlag] (overrideLayer o) := by
  unfold overrideLayer
  refine Reports.bind_single (fun e => ?_) fun _ _ => ?_
  · simp only [fromOption_error, checkDepth_error]
    constructor
    · rintro ⟨n, hn, rfl, rfl⟩
      exact .depthFlag hn
    · intro h
      cases h with
      | depthFlag hn => exact ⟨0, hn, rfl, rfl⟩
  · exact Reports.bind_ok (fromOption_isOk _ _) fun _ _ => Reports.nil _

/-- The settings for a working directory report the first fault of all places. -/
theorem resolve_reports : Reports (FaultAt d dir o userFile? env) Place.all (resolve d dir o userFile? env) := by
  unfold resolve
  refine Reports.bind (optionalLayer_reports .user) fun _ _ => ?_
  refine Reports.bind (optionalLayer_reports .project) fun _ _ => ?_
  refine Reports.bind environmentLayer_reports fun _ _ => ?_
  exact Reports.map overrideLayer_reports _

/-! ### Positive depths -/

/-- A layer sets no depth to zero. -/
def Positive (l : Layer) : Prop := ∀ p ∈ l, p.1 ≠ .maxDepth 0

theorem Positive.append {l m : Layer} (hl : Positive l) (hm : Positive m) : Positive (l ++ m) :=
  fun p hp => (List.mem_append.1 hp).elim (hl p) (hm p)

theorem assign_pos {r : Resolved} {p : Assignment × Source} (hp : p.1 ≠ .maxDepth 0) (hr : 1 ≤ r.values.maxDepth) :
    1 ≤ (r.assign p).values.maxDepth := by
  obtain ⟨a, source⟩ := p
  cases a with
  | maxDepth n => exact Nat.one_le_iff_ne_zero.2 fun hn => hp (congrArg _ hn)
  | _ => exact hr

theorem foldl_pos {l : Layer} {r : Resolved} (hl : Positive l) (hr : 1 ≤ r.values.maxDepth) :
    1 ≤ (l.foldl Resolved.assign r).values.maxDepth := by
  induction l generalizing r with
  | nil => exact hr
  | cons p l ih =>
    rw [List.foldl_cons]
    exact ih (fun q hq => hl q (List.mem_cons_of_mem p hq)) (assign_pos (hl p List.mem_cons_self) hr)

/-- Another key than the depth. -/
theorem optional_positive {β : Type} (source : Source) {c : β → Assignment} (hc : ∀ x, c x ≠ .maxDepth 0)
    (x? : Option β) : Positive (optional source c x?) := by
  intro p hp
  cases x? with
  | none => cases hp
  | some x =>
    rw [List.mem_singleton.1 hp]
    exact hc x

theorem optional_maxDepth_positive (source : Source) {n? : Option Nat} (h : n? ≠ some 0) :
    Positive (optional source .maxDepth n?) := by
  intro p hp
  cases n? with
  | none => cases hp
  | some n =>
    rw [List.mem_singleton.1 hp]
    exact fun h0 => h (congrArg some (Assignment.maxDepth.inj h0))

theorem patternLayer_positive (source : Source) (patterns : List Text) : Positive (patternLayer source patterns) := by
  unfold patternLayer
  split <;> simp [Positive]

theorem optionalLayer_positive (kind : FileKind) {l : Layer}
    (h : optionalLayer d kind (settingsFile? d dir userFile? kind) = .ok l)
    (hdepth : ∀ e, ¬ FaultAt d dir o userFile? env (.fileDepth kind) e) : Positive l := by
  cases hfile : settingsFile? d dir userFile? kind with
  | none =>
    rw [hfile] at h
    obtain rfl := Except.ok.inj h
    exact List.forall_mem_nil _
  | some path =>
    rw [hfile, optionalLayer, readLayer_eq] at h
    obtain ⟨f, hf, h⟩ := exists_of_bind_ok h
    obtain ⟨rfl, -⟩ := fileLayer_ok h
    have hpos : f.maxDepth? ≠ some 0 := fun h0 => hdepth _ (.fileDepth hfile (readSettings_ok hf) h0)
    exact ((((optional_positive _ (by simp) _).append (optional_maxDepth_positive _ hpos)).append
      (optional_positive _ (by simp) _)).append (optional_positive _ (by simp) _)).append (patternLayer_positive _ _)

theorem environmentLayer_positive {l : Layer} (h : environmentLayer env = .ok l)
    (hdepth : ∀ e, ¬ FaultAt d dir o userFile? env .depthVariable e) : Positive l := by
  obtain ⟨rfl, -⟩ := environmentLayer_ok h
  have hpos : ((env depthVariable).bind fun s => number? (trim s)) ≠ some 0 := by
    intro h0
    obtain ⟨s, hs, hn⟩ := Option.bind_eq_some_iff.1 h0
    exact hdepth _ (.depthZero hs hn)
  exact ((optional_maxDepth_positive _ hpos).append (optional_positive _ (by simp) _)).append
    (optional_positive _ (by simp) _)

theorem overrideLayer_positive {l : Layer} (h : overrideLayer o = .ok l)
    (hdepth : ∀ e, ¬ FaultAt d dir o userFile? env .depthFlag e) : Positive l := by
  rw [overrideLayer_ok h]
  have hpos : o.maxDepth? ≠ some 0 := fun h0 => hdepth _ (.depthFlag h0)
  exact (((optional_maxDepth_positive _ hpos).append (optional_positive _ (by simp) _)).append
    (optional_positive _ (by simp) _)).append (patternLayer_positive _ _)

theorem ignoreLayer_positive (ignore? : Option (Text × List Text)) : Positive (ignoreLayer ignore?) := by
  cases ignore? with
  | none => exact List.forall_mem_nil _
  | some f => exact patternLayer_positive _ _

/-- Where no place holds a fault, the depth is positive. -/
theorem resolve_pos {r : Resolved} (h : resolve d dir o userFile? env = .ok r) : 1 ≤ r.values.maxDepth := by
  have hclean : ∀ p ∈ Place.all, ∀ e, ¬ FaultAt d dir o userFile? env p e := by
    have hreports : Reports (FaultAt d dir o userFile? env) Place.all (resolve d dir o userFile? env) := resolve_reports
    rwa [h] at hreports
  unfold resolve at h
  obtain ⟨user, huser, h⟩ := exists_of_bind_ok h
  obtain ⟨project, hproject, h⟩ := exists_of_bind_ok h
  obtain ⟨environment, henvironment, h⟩ := exists_of_bind_ok h
  obtain ⟨commandLine, hcommand, h⟩ := exists_of_bind_ok h
  obtain rfl := Except.ok.inj h
  have hu := optionalLayer_positive .user huser (hclean _ (by decide))
  have hp := optionalLayer_positive .project hproject (hclean _ (by decide))
  have he := environmentLayer_positive henvironment (hclean _ (by decide))
  have hc := overrideLayer_positive hcommand (hclean _ (by decide))
  have hstart : 1 ≤ defaultDepth := by decide
  exact foldl_pos ((((hu.append hp).append he).append hc).append (ignoreLayer_positive (nearestIgnoreFile? d dir))) hstart

/-! ### The message names the place -/

/-- What a place is called: a settings file by its path, a variable and a flag by their names. -/
def Place.name? (d : Disk) (dir : Text) (userFile? : Option Text) : Place → Option Text
  | .file kind | .fileDepth kind | .fileStrategy kind => settingsFile? d dir userFile? kind
  | .depthVariable => some Settings.depthVariable
  | .enabledVariable => some Settings.enabledVariable
  | .strategyVariable => some Settings.strategyVariable
  | .depthFlag => some "--max-depth".toList

theorem FileKind.infix_source (kind : FileKind) (path : Text) : path <:+: (kind.source path).text := by
  cases kind with
  | user => exact ⟨"user config (".toList, [')'], rfl⟩
  | project => exact ⟨"project config (".toList, [')'], rfl⟩

theorem Source.infix_environment (name : Text) : name <:+: (Source.environment name).text :=
  ⟨"env var (".toList, [')'], rfl⟩

/-- What is said of a fault holds the name of the place where it stands. -/
theorem FaultAt.named {place : Place} {e : Fault} (h : FaultAt d dir o userFile? env place e) :
    ∃ name, place.name? d dir userFile? = some name ∧ name <:+: e.words := by
  -- the source of a value stands at the start of what is said of the value
  have hfront : ∀ {name source rest : Text}, name <:+: source → name <:+: source ++ rest :=
    fun h => h.trans (List.prefix_append _ _).isInfix
  cases h with
  | @unreadable kind path hfile => exact ⟨path, hfile, (List.suffix_append _ _).isInfix⟩
  | @rejected kind path _ _ hfile => exact ⟨path, hfile, (List.suffix_append _ _).isInfix⟩
  | @fileDepth kind path _ hfile => exact ⟨path, hfile, hfront (kind.infix_source path)⟩
  | @fileStrategy kind path _ _ hfile => exact ⟨path, hfile, hfront (hfront (kind.infix_source path))⟩
  | depthText => exact ⟨_, rfl, hfront (hfront (Source.infix_environment _))⟩
  | depthZero => exact ⟨_, rfl, hfront (Source.infix_environment _)⟩
  | enabledText => exact ⟨_, rfl, hfront (hfront (Source.infix_environment _))⟩
  | strategyText => exact ⟨_, rfl, hfront (hfront (Source.infix_environment _))⟩
  | depthFlag => exact ⟨_, rfl, hfront ⟨"CLI flag (".toList, [')'], rfl⟩⟩

/-! ### All faults -/

/-- **The first fault is the reason**: there are no settings exactly if some place holds a fault, even one whose value a
later layer would decide; the error is the first one in the order of the places; it stands at a place that its message
names, after the words that make it an error of the configuration; and settings have a positive depth. -/
theorem resolve_faults (d : Disk) (dir : Text) (o : Overrides) (userFile? : Option Text) (env : Environment) :
    ((∃ e, resolve d dir o userFile? env = .error e) ↔ ∃ place e, FaultAt d dir o userFile? env place e) ∧
      (∀ e, resolve d dir o userFile? env = .error e ↔ IsFirst (FaultAt d dir o userFile? env) Place.all e) ∧
      (∀ e, resolve d dir o userFile? env = .error e →
        ∃ place name before after, FaultAt d dir o userFile? env place e ∧ place.name? d dir userFile? = some name ∧
          e.message = "Configuration error: ".toList ++ before ++ name ++ after) ∧
      ∀ r, resolve d dir o userFile? env = .ok r → 1 ≤ r.values.maxDepth := by
  have hreports : Reports (FaultAt d dir o userFile? env) Place.all (resolve d dir o userFile? env) := resolve_reports
  refine ⟨?_, hreports.error_iff, ?_, fun r h => resolve_pos h⟩
  · rw [hreports.fails_iff]
    constructor
    · rintro ⟨place, -, e, he⟩
      exact ⟨place, e, he⟩
    · rintro ⟨place, e, he⟩
      exact ⟨place, Place.mem_all place, e, he⟩
  · intro e h
    obtain ⟨_, place, _, -, he, -⟩ := hreports.error_iff e |>.1 h
    obtain ⟨name, hname, hwords⟩ := he.named
    obtain ⟨before, after, hmessage⟩ := e.message_of_infix_words hwords
    exact ⟨place, name, before, after, he, hname, hmessage⟩

/-- A flag does not make up for a variable that it decides over. -/
example : resolve ⟨[]⟩ "/".toList { maxDepth? := some 3 } none
    (fun name => if name = depthVariable then some ['0'] else none) = .error (.zeroDepth (.environment depthVariable)) := by
  decide +kernel

end ImportTrail.Settings
