import ImportTrail.Settings.Resolve
import Mathlib.Data.List.Basic

/-!
Which layer decides a setting, and that the record of sources agrees with it.

* `said?` — what a layer says last about a key;
* `setting_foldl` — after a run of assignments, value and source of a key are those of the last assignment to it;
* `fileLayer_ok`, `environmentLayer_ok`, `overrideLayer_ok` — what each layer assigns;
* `Explained`, `resolve_explained` — the settings of a run, key by key, from the highest layer down.
-/

namespace ImportTrail.Settings

open Text

/-! ### The record of sources -/

theorem lookup_insert_self (key : Text) (source : Source) (es : List (Text × Source)) :
    (Provenance.insert key source es).lookup key = some source := by
  induction es with
  | nil => simp [Provenance.insert]
  | cons e es ih =>
    obtain ⟨k, s⟩ := e
    rw [Provenance.insert]
    split
    · simp
    · rename_i hk
      split
      · simp
      · rw [List.lookup_cons, ih]
        have : (key == k) = false := by simpa using Ne.symm hk
        rw [this]

theorem lookup_insert_of_ne {key other : Text} (h : other ≠ key) (source : Source) (es : List (Text × Source)) :
    (Provenance.insert key source es).lookup other = es.lookup other := by
  have hkey : (other == key) = false := by simpa using h
  induction es with
  | nil => simp [Provenance.insert, h]
  | cons e es ih =>
    obtain ⟨k, s⟩ := e
    rw [Provenance.insert]
    split
    · rename_i hk
      subst hk
      simp [List.lookup_cons, hkey]
    · split
      · rw [List.lookup_cons, hkey]
      · rw [List.lookup_cons, List.lookup_cons, ih]

theorem text_inj {k k' : Key} (h : k.text = k'.text) : k = k' := by
  revert h
  cases k <;> cases k' <;> decide

theorem get?_set (p : Provenance) (k k' : Key) (source : Source) :
    (p.set k.text source).get? k'.text = if k = k' then some source else p.get? k'.text := by
  by_cases h : k = k'
  · subst h
    rw [if_pos rfl]
    exact lookup_insert_self _ _ _
  · rw [if_neg h]
    exact lookup_insert_of_ne (fun e => h (text_inj e.symm)) _ _

/-- The keys of the record, in their order. -/
def keyTexts : List Text := [Key.enabled, .ignore, .maxDepth, .maxFileSize, .strategy].map Key.text

theorem keys_set {p : Provenance} (h : p.entries.map (·.1) = keyTexts) (k : Key) (source : Source) :
    (p.set k.text source).entries.map (·.1) = keyTexts := by
  obtain ⟨es⟩ := p
  simp only [keyTexts, List.map_cons, List.map_nil] at h
  obtain ⟨⟨_, s₁⟩, es₁, rfl, rfl, h₁⟩ := List.map_eq_cons_iff.1 h
  obtain ⟨⟨_, s₂⟩, es₂, rfl, rfl, h₂⟩ := List.map_eq_cons_iff.1 h₁
  obtain ⟨⟨_, s₃⟩, es₃, rfl, rfl, h₃⟩ := List.map_eq_cons_iff.1 h₂
  obtain ⟨⟨_, s₄⟩, es₄, rfl, rfl, h₄⟩ := List.map_eq_cons_iff.1 h₃
  obtain ⟨⟨_, s₅⟩, es₅, rfl, rfl, h₅⟩ := List.map_eq_cons_iff.1 h₄
  obtain rfl := List.map_eq_nil_iff.1 h₅
  cases k <;> rfl

/-! ### Keys that the last assignment decides -/

/-- What the last assignment to a key decides. Patterns are added up, so of them it decides the source only. -/
abbrev Key.Value : Key → Type
  | enabled => Bool
  | maxDepth => Nat
  | maxFileSize => Nat
  | strategy => Strategy
  | ignore => Unit

/-- The value of a key. -/
def Values.at (v : Values) : (k : Key) → k.Value
  | .enabled => v.enabled
  | .maxDepth => v.maxDepth
  | .maxFileSize => v.maxFileSize
  | .strategy => v.strategy
  | .ignore => ()

/-- What an assignment gives to a key. -/
def Assignment.given? : Assignment → (k : Key) → Option k.Value
  | .enabled b, .enabled => some b
  | .maxDepth n, .maxDepth => some n
  | .maxFileSize n, .maxFileSize => some n
  | .strategy s, .strategy => some s
  | .ignore _, .ignore => some ()
  | _, _ => none

/-- The layer of a value that may be there. -/
def optional {β : Type} (source : Source) (c : β → Assignment) (x? : Option β) : Layer :=
  (x?.map fun x => (c x, source)).toList

/-- What a layer says last about a key, and where from. -/
def said? (l : Layer) (k : Key) : Option (k.Value × Source) :=
  l.reverse.findSome? fun p => (p.1.given? k).map (·, p.2)

/-- The value of a key and the source on record for it. -/
def Resolved.setting (r : Resolved) (k : Key) : k.Value × Option Source := (r.values.at k, r.provenance.get? k.text)

@[simp] theorem said?_append (l m : Layer) (k : Key) : said? (l ++ m) k = (said? m k).or (said? l k) := by
  simp [said?, List.findSome?_append]

@[simp] theorem said?_optional {β : Type} (source : Source) (c : β → Assignment) (x? : Option β) (k : Key) :
    said? (optional source c x?) k = (x?.bind fun x => (c x).given? k).map (·, source) := by
  cases x? <;> simp [said?, optional]

theorem at_apply (a : Assignment) (v : Values) (k : Key) : (a.apply v).at k = (a.given? k).getD (v.at k) := by
  cases a <;> cases k <;> rfl

theorem isSome_given? (a : Assignment) (k : Key) : (a.given? k).isSome = decide (a.key = k) := by
  cases a <;> cases k <;> rfl

theorem setting_assign (r : Resolved) (p : Assignment × Source) (k : Key) :
    (r.assign p).setting k = ((said? [p] k).map fun x => (x.1, some x.2)).getD (r.setting k) := by
  obtain ⟨a, source⟩ := p
  have hkey := isSome_given? a k
  have hvalue := at_apply a r.values k
  cases h : a.given? k with
  | none =>
    have hne : a.key ≠ k := by simpa [h] using hkey
    simp [Resolved.setting, Resolved.assign, said?, h, hvalue, get?_set, hne]
  | some x =>
    have heq : a.key = k := by simpa [h] using hkey
    simp [Resolved.setting, Resolved.assign, said?, h, hvalue, get?_set, heq]

/-- After a run of assignments a key has the value and the source of the last one to it. -/
theorem setting_foldl (l : Layer) (r : Resolved) (k : Key) :
    (l.foldl Resolved.assign r).setting k = ((said? l k).map fun x => (x.1, some x.2)).getD (r.setting k) := by
  induction l generalizing r with
  | nil => rfl
  | cons p l ih =>
    have hsplit : said? (p :: l) k = (said? l k).or (said? [p] k) := said?_append [p] l k
    rw [List.foldl_cons, ih, setting_assign, hsplit]
    cases said? l k <;> simp

attribute [simp] Assignment.given?

/-- The patterns that an assignment adds. -/
def Assignment.patterns : Assignment → List Text
  | ignore ps => ps
  | _ => []

theorem ignore_foldl (l : Layer) (r : Resolved) :
    (l.foldl Resolved.assign r).values.ignore = r.values.ignore ++ l.flatMap fun p => p.1.patterns := by
  induction l generalizing r with
  | nil => simp
  | cons p l ih =>
    obtain ⟨a, source⟩ := p
    rw [List.foldl_cons, ih, List.flatMap_cons, ← List.append_assoc]
    congr 1
    cases a <;> simp [Resolved.assign, Assignment.apply, Assignment.patterns]

theorem keys_foldl (l : Layer) {r : Resolved} (h : r.provenance.entries.map (·.1) = keyTexts) :
    (l.foldl Resolved.assign r).provenance.entries.map (·.1) = keyTexts := by
  induction l generalizing r with
  | nil => exact h
  | cons p l ih => exact ih (keys_set h p.1.key p.2)

theorem loadedFiles_foldl (l : Layer) (r : Resolved) : (l.foldl Resolved.assign r).loadedFiles = r.loadedFiles := by
  induction l generalizing r with
  | nil => rfl
  | cons p l ih => exact ih _

/-! ### What the layers assign -/

theorem exists_of_bind_ok {ε α β : Type} {x : Except ε α} {f : α → Except ε β} {b : β} (h : x >>= f = .ok b) :
    ∃ a, x = .ok a ∧ f a = .ok b := by
  cases x with
  | error e => cases h
  | ok a => exact ⟨a, rfl, h⟩

theorem fromOption_ok {α : Type} {x? : Option α} {f : α → Except Fault (Assignment × Source)} {l : Layer}
    (h : fromOption x? f = .ok l) : x? = none ∧ l = [] ∨ ∃ x p, x? = some x ∧ f x = .ok p ∧ l = [p] := by
  cases x? with
  | none =>
    cases h
    exact Or.inl ⟨rfl, rfl⟩
  | some x =>
    obtain ⟨p, hp, h⟩ := exists_of_bind_ok h
    cases h
    exact Or.inr ⟨x, p, rfl, hp, rfl⟩

/-- Every text that is there can be read. -/
def Readable {α : Type} (text? : Option Text) (read : Text → Option α) : Prop := ∀ s, text? = some s → (read s).isSome

theorem checkDepth_ok {source : Source} {n m : Nat} (h : checkDepth source n = .ok m) : n = m := by
  unfold checkDepth at h
  split at h
  · cases h
  · exact Except.ok.inj h

theorem checkStrategy_ok {source : Source} {s : Text} {x : Strategy} (h : checkStrategy source s = .ok x) :
    Strategy.ofSetting? s = some x := by
  unfold checkStrategy at h
  split at h
  · rename_i hs
    rw [hs, Except.ok.inj h]
  · cases h

/-- What an option gives to a layer, where giving it means reading it. -/
theorem fromOption_read {α β : Type} {x? : Option β} {f : β → Except Fault (Assignment × Source)} {l : Layer}
    (read : β → Option α) (c : α → Assignment) (source : Source)
    (hf : ∀ x p, f x = .ok p → ∃ y, read x = some y ∧ p = (c y, source)) (h : fromOption x? f = .ok l) :
    l = optional source c (x?.bind read) ∧ ∀ x, x? = some x → (read x).isSome := by
  rcases fromOption_ok h with ⟨rfl, rfl⟩ | ⟨x, p, rfl, hp, rfl⟩
  · exact ⟨rfl, fun x hx => by cases hx⟩
  · obtain ⟨y, hy, rfl⟩ := hf x p hp
    refine ⟨by simp [optional, hy], fun z hz => ?_⟩
    rw [← Option.some.inj hz, hy]
    rfl

theorem fromOption_plain {α : Type} {x? : Option α} {c : α → Assignment} {source : Source} {l : Layer}
    (h : fromOption x? (fun x => .ok (c x, source)) = .ok l) : l = optional source c x? := by
  have := (fromOption_read some c source (fun x p hp => ⟨x, rfl, (Except.ok.inj hp).symm⟩) h).1
  simpa using this

theorem fromOption_depth {x? : Option Nat} {source : Source} {l : Layer}
    (h : fromOption x? (fun n => do return (.maxDepth (← checkDepth source n), source)) = .ok l) :
    l = optional source .maxDepth x? := by
  have := (fromOption_read some .maxDepth source (fun n p hp => by
    obtain ⟨m, hm, hp⟩ := exists_of_bind_ok hp
    exact ⟨n, rfl, by rw [checkDepth_ok hm]; exact (Except.ok.inj hp).symm⟩) h).1
  simpa using this

theorem fromOption_strategy {x? : Option Text} {source : Source} {l : Layer}
    (h : fromOption x? (fun s => do return (.strategy (← checkStrategy source s), source)) = .ok l) :
    l = optional source .strategy (x?.bind Strategy.ofSetting?) ∧ Readable x? Strategy.ofSetting? :=
  fromOption_read Strategy.ofSetting? .strategy source (fun s p hp => by
    obtain ⟨x, hx, hp⟩ := exists_of_bind_ok hp
    exact ⟨x, checkStrategy_ok hx, (Except.ok.inj hp).symm⟩) h

/-- The assignments of a file, in its order of keys. -/
theorem fileLayer_ok {source : Source} {f : FileSettings} {l : Layer} (h : fileLayer source f = .ok l) :
    l = optional source .enabled f.enabled? ++ optional source .maxDepth f.maxDepth? ++
        optional source .maxFileSize f.maxFileSize? ++
        optional source .strategy (f.strategy?.bind Strategy.ofSetting?) ++ patternLayer source f.ignore ∧ Readable f.strategy? Strategy.ofSetting? := by
  unfold fileLayer at h
  obtain ⟨enabled, henabled, h⟩ := exists_of_bind_ok h
  obtain ⟨depth, hdepth, h⟩ := exists_of_bind_ok h
  obtain ⟨size, hsize, h⟩ := exists_of_bind_ok h
  obtain ⟨strategy, hstrategy, h⟩ := exists_of_bind_ok h
  cases h
  obtain ⟨rfl, hread⟩ := fromOption_strategy hstrategy
  rw [fromOption_plain henabled, fromOption_depth hdepth, fromOption_plain hsize]
  exact ⟨rfl, hread⟩

/-- The assignments of the environment. -/
theorem environmentLayer_ok {env : Environment} {l : Layer} (h : environmentLayer env = .ok l) :
    l = optional (.environment depthVariable) .maxDepth ((env depthVariable).bind fun s => number? (trim s)) ++
        optional (.environment enabledVariable) .enabled ((env enabledVariable).bind flag?) ++
        optional (.environment strategyVariable) .strategy ((env strategyVariable).bind Strategy.ofSetting?) ∧
      Readable (env depthVariable) (fun s => number? (trim s)) ∧ Readable (env enabledVariable) flag? ∧
      Readable (env strategyVariable) Strategy.ofSetting? := by
  unfold environmentLayer at h
  obtain ⟨depth, h₁, h⟩ := exists_of_bind_ok h
  obtain ⟨enabled, h₂, h⟩ := exists_of_bind_ok h
  obtain ⟨strategy, h₃, h⟩ := exists_of_bind_ok h
  cases h
  obtain ⟨rfl, hdepth⟩ := fromOption_read (fun s => number? (trim s)) .maxDepth (.environment depthVariable)
    (fun s p hp => by
      dsimp only at hp
      split at hp
      · cases hp
      · rename_i n hn
        obtain ⟨m, hm, hp⟩ := exists_of_bind_ok hp
        exact ⟨n, hn, by rw [checkDepth_ok hm]; exact (Except.ok.inj hp).symm⟩) h₁
  obtain ⟨rfl, henabled⟩ := fromOption_read flag? .enabled (.environment enabledVariable)
    (fun s p hp => by
      dsimp only at hp
      split at hp
      · cases hp
      · rename_i b hb
        exact ⟨b, hb, (Except.ok.inj hp).symm⟩) h₂
  obtain ⟨rfl, hstrategy⟩ := fromOption_strategy h₃
  exact ⟨rfl, hdepth, henabled, hstrategy⟩

/-- The assignments of the command line. -/
theorem overrideLayer_ok {o : Overrides} {l : Layer} (h : overrideLayer o = .ok l) :
    l = optional (.flag "--max-depth".toList) .maxDepth o.maxDepth? ++
        optional (.flag "--strategy".toList) .strategy o.strategy? ++
        optional (.flag "--no-imports".toList) .enabled (if o.noImports then some false else none) ++
        patternLayer (.flag "--ignore".toList) o.ignore := by
  unfold overrideLayer at h
  obtain ⟨depth, hdepth, h⟩ := exists_of_bind_ok h
  obtain ⟨strategy, hstrategy, h⟩ := exists_of_bind_ok h
  cases h
  rw [fromOption_depth hdepth, fromOption_plain hstrategy]
  cases o.noImports <;> rfl

/-! ### All layers -/

/-- The settings in a file that may be there; where there is none, nothing is set. -/
def HoldsSettings (d : Disk) (path? : Option Text) (f : FileSettings) : Prop :=
  match path? with
  | none => f = {}
  | some path => ∃ s, d.text? path = some s ∧ FileSettings.ofText s = .ok f

/-- What a file sets, with the file as the source. -/
def inFile {α : Type} (kind : FileKind) (path? : Option Text) (value? : Option α) : Option (α × Source) :=
  path?.bind fun path => value?.map (·, kind.source path)

/-- What a variable of the environment sets. -/
def inEnvironment {α : Type} (env : Environment) (name : Text) (read : Text → Option α) : Option (α × Source) :=
  ((env name).bind read).map (·, .environment name)

/-- A source that has patterns to add. -/
def contributes (source : Source) (patterns : List Text) : Option (Unit × Source) :=
  if patterns = [] then none else some ((), source)

@[simp] theorem said?_patternLayer (source : Source) (patterns : List Text) (k : Key) :
    said? (patternLayer source patterns) k =
      if patterns = [] then none else ((Assignment.ignore patterns).given? k).map (·, source) := by
  by_cases h : patterns = [] <;> simp [patternLayer, said?, h]

theorem flatMap_patternLayer (source : Source) (patterns : List Text) :
    (patternLayer source patterns).flatMap (fun p => p.1.patterns) = patterns := by
  by_cases h : patterns = [] <;> simp [patternLayer, Assignment.patterns, h]

/-- What there is to say about the keys. -/
structure Sayings where
  enabled? : Option (Bool × Source) := none
  maxDepth? : Option (Nat × Source) := none
  maxFileSize? : Option (Nat × Source) := none
  strategy? : Option (Strategy × Source) := none
  ignore? : Option (Unit × Source) := none
  patterns : List Text := []

/-- A layer says this, and nothing else. -/
structure Says (l : Layer) (x : Sayings) : Prop where
  enabled : said? l .enabled = x.enabled?
  maxDepth : said? l .maxDepth = x.maxDepth?
  maxFileSize : said? l .maxFileSize = x.maxFileSize?
  strategy : said? l .strategy = x.strategy?
  ignore : said? l .ignore = x.ignore?
  patterns : l.flatMap (fun p => p.1.patterns) = x.patterns

theorem flatMap_optional {β : Type} (source : Source) {c : β → Assignment} (hc : ∀ x, (c x).patterns = [])
    (x? : Option β) : (optional source c x?).flatMap (fun p => p.1.patterns) = [] := by
  cases x? <;> simp [optional, hc]

theorem optionalLayer_says {d : Disk} {kind : FileKind} {path? : Option Text} {l : Layer}
    (h : optionalLayer d kind path? = .ok l) :
    ∃ f, HoldsSettings d path? f ∧ Readable f.strategy? Strategy.ofSetting? ∧
      Says l {
        enabled? := inFile kind path? f.enabled?
        maxDepth? := inFile kind path? f.maxDepth?
        maxFileSize? := inFile kind path? f.maxFileSize?
        strategy? := inFile kind path? (f.strategy?.bind Strategy.ofSetting?)
        ignore? := path?.bind fun path => contributes (kind.source path) f.ignore
        patterns := f.ignore } := by
  cases path? with
  | none =>
    cases h
    exact ⟨{}, rfl, (by simp [Readable]), ⟨rfl, rfl, rfl, rfl, rfl, rfl⟩⟩
  | some path =>
    simp only [optionalLayer, readLayer] at h
    split at h
    · cases h
    · rename_i s hs
      split at h
      · cases h
      · rename_i f hf
        obtain ⟨rfl, hread⟩ := fileLayer_ok h
        refine ⟨f, ⟨s, hs, hf⟩, hread, ?_⟩
        constructor
        · simp [inFile]
        · simp [inFile]
        · simp [inFile]
        · simp [inFile]
        · simp [contributes]
        · simp only [List.flatMap_append, flatMap_patternLayer]
          rw [flatMap_optional _ fun _ => rfl, flatMap_optional _ fun _ => rfl, flatMap_optional _ fun _ => rfl,
            flatMap_optional _ fun _ => rfl]
          rfl

theorem environmentLayer_says {env : Environment} {l : Layer} (h : environmentLayer env = .ok l) :
    Says l {
      enabled? := inEnvironment env enabledVariable flag?
      maxDepth? := inEnvironment env depthVariable fun s => number? (trim s)
      strategy? := inEnvironment env strategyVariable Strategy.ofSetting? } := by
  obtain ⟨rfl, -⟩ := environmentLayer_ok h
  constructor
  · simp [inEnvironment]
  · simp [inEnvironment]
  · simp
  · simp [inEnvironment]
  · simp
  · simp only [List.flatMap_append]
    rw [flatMap_optional _ fun _ => rfl, flatMap_optional _ fun _ => rfl, flatMap_optional _ fun _ => rfl]
    rfl

-- The sources are variables here: with the texts of the flags in place the simplifier computes them.
theorem flags_say (depth strategy off ignore : Source) (o : Overrides) :
    Says (optional depth .maxDepth o.maxDepth? ++ optional strategy .strategy o.strategy? ++
        optional off .enabled (if o.noImports then some false else none) ++ patternLayer ignore o.ignore) {
      enabled? := if o.noImports then some (false, off) else none
      maxDepth? := o.maxDepth?.map (·, depth)
      strategy? := o.strategy?.map (·, strategy)
      ignore? := contributes ignore o.ignore
      patterns := o.ignore } := by
  constructor
  · cases hoff : o.noImports <;> simp
  · simp
  · simp
  · simp
  · simp [contributes]
  · simp only [List.flatMap_append, flatMap_patternLayer]
    rw [flatMap_optional _ fun _ => rfl, flatMap_optional _ fun _ => rfl, flatMap_optional _ fun _ => rfl]
    rfl

/-- The layer of an ignore file that may be there. -/
def ignoreLayer (ignore? : Option (Text × List Text)) : Layer :=
  match ignore? with
  | some (path, patterns) => patternLayer (.ignoreFile path) patterns
  | none => []

theorem ignoreLayer_says (ignore? : Option (Text × List Text)) :
    Says (ignoreLayer ignore?) {
      ignore? := ignore?.bind fun f => contributes (.ignoreFile f.1) f.2
      patterns := (ignore?.map (·.2)).getD [] } := by
  cases ignore? with
  | none => exact ⟨rfl, rfl, rfl, rfl, rfl, rfl⟩
  | some f =>
    constructor
    · simp [ignoreLayer]
    · simp [ignoreLayer]
    · simp [ignoreLayer]
    · simp [ignoreLayer]
    · simp [ignoreLayer, contributes]
    · exact flatMap_patternLayer _ _

/-- The first of some places that sets a value, and what is built in if none does. -/
def topmost {α : Type} (places : List (Option (α × Source))) (builtIn : α) : α × Option Source :=
  match places.findSome? id with
  | some (x, source) => (x, some source)
  | none => (builtIn, some .builtIn)

/-- Where the settings of a run come from. For every key the places that can set it stand in a list, the highest first. -/
structure Explained (d : Disk) (dir : Text) (o : Overrides) (userFile? : Option Text) (env : Environment)
    (user project : FileSettings) (r : Resolved) : Prop where
  user_held : HoldsSettings d (userFile?.filter d.hasFile) user
  project_held : HoldsSettings d (nearestFile? d projectFileName dir) project
  strategies_read : Readable user.strategy? Strategy.ofSetting? ∧ Readable project.strategy? Strategy.ofSetting?
  variables_read : Readable (env depthVariable) (fun s => number? (trim s)) ∧ Readable (env enabledVariable) flag? ∧
    Readable (env strategyVariable) Strategy.ofSetting?
  enabled : (r.values.enabled, r.provenance.get? Key.enabled.text) =
    topmost [if o.noImports then some (false, .flag "--no-imports".toList) else none,
      inEnvironment env enabledVariable flag?, inFile .project (nearestFile? d projectFileName dir) project.enabled?,
      inFile .user (userFile?.filter d.hasFile) user.enabled?] true
  maxDepth : (r.values.maxDepth, r.provenance.get? Key.maxDepth.text) =
    topmost [o.maxDepth?.map (·, .flag "--max-depth".toList),
      inEnvironment env depthVariable fun s => number? (trim s),
      inFile .project (nearestFile? d projectFileName dir) project.maxDepth?,
      inFile .user (userFile?.filter d.hasFile) user.maxDepth?] defaultDepth
  maxFileSize : (r.values.maxFileSize, r.provenance.get? Key.maxFileSize.text) =
    topmost [inFile .project (nearestFile? d projectFileName dir) project.maxFileSize?,
      inFile .user (userFile?.filter d.hasFile) user.maxFileSize?] defaultFileSize
  strategy : (r.values.strategy, r.provenance.get? Key.strategy.text) =
    topmost [o.strategy?.map (·, .flag "--strategy".toList), inEnvironment env strategyVariable Strategy.ofSetting?,
      inFile .project (nearestFile? d projectFileName dir) (project.strategy?.bind Strategy.ofSetting?),
      inFile .user (userFile?.filter d.hasFile) (user.strategy?.bind Strategy.ofSetting?)] .scan
  ignore : r.values.ignore =
    user.ignore ++ project.ignore ++ o.ignore ++ ((nearestIgnoreFile? d dir).map (·.2)).getD []
  ignore_source : ((), r.provenance.get? Key.ignore.text) =
    topmost [(nearestIgnoreFile? d dir).bind fun f => contributes (.ignoreFile f.1) f.2,
      contributes (.flag "--ignore".toList) o.ignore,
      (nearestFile? d projectFileName dir).bind fun path => contributes (.projectFile path) project.ignore,
      (userFile?.filter d.hasFile).bind fun path => contributes (.userFile path) user.ignore] ()
  keys : (r.provenance.entries.map (·.1)).Perm (Key.all.map Key.text)
  loadedFiles : r.loadedFiles = (userFile?.filter d.hasFile).toList ++ (nearestFile? d projectFileName dir).toList ++
    ((nearestIgnoreFile? d dir).map (·.1)).toList

/-- What is built in is on record for every key. -/
theorem setting_start (files : List Text) (k : Key) :
    Resolved.setting ⟨{}, builtInProvenance, files⟩ k = (Values.at {} k, some .builtIn) := by
  cases k <;> rfl

/-- The layers in the order in which they are applied, and what they say about a key, the last one first. -/
theorem setting_layers (user project environment commandLine ignore : Layer) (files : List Text) (k : Key) :
    Resolved.setting ((user ++ project ++ environment ++ commandLine ++ ignore).foldl Resolved.assign
      ⟨{}, builtInProvenance, files⟩) k =
    topmost [said? ignore k, said? commandLine k, said? environment k, said? project k, said? user k]
      (Values.at {} k) := by
  rw [setting_foldl, setting_start, said?_append, said?_append, said?_append, said?_append, topmost]
  cases said? ignore k <;> cases said? commandLine k <;> cases said? environment k <;> cases said? project k <;>
    cases said? user k <;> rfl

/-- **Values and sources never drift apart**: in the settings of a run every key has the value of the highest layer that
sets it and that layer on record, patterns are added up from the user's file to the ignore file, the record has exactly
the five keys, and the files that were read are listed in order. -/
theorem resolve_explained {d : Disk} {dir : Text} {o : Overrides} {userFile? : Option Text} {env : Environment}
    {r : Resolved} (h : resolve d dir o userFile? env = .ok r) :
    ∃ user project, Explained d dir o userFile? env user project r := by
  unfold resolve at h
  obtain ⟨userLayer, huser, h⟩ := exists_of_bind_ok h
  obtain ⟨projectLayer, hproject, h⟩ := exists_of_bind_ok h
  obtain ⟨environment, henvironment, h⟩ := exists_of_bind_ok h
  obtain ⟨commandLine, hcommand, h⟩ := exists_of_bind_ok h
  obtain ⟨user, user_held, user_read, hu⟩ := optionalLayer_says huser
  obtain ⟨project, project_held, project_read, hp⟩ := optionalLayer_says hproject
  have he := environmentLayer_says henvironment
  have hc := flags_say (.flag "--max-depth".toList) (.flag "--strategy".toList) (.flag "--no-imports".toList)
    (.flag "--ignore".toList) o
  rw [← overrideLayer_ok hcommand] at hc
  have hi := ignoreLayer_says (nearestIgnoreFile? d dir)
  obtain rfl := Except.ok.inj h
  have setting := setting_layers userLayer projectLayer environment commandLine
    (ignoreLayer (nearestIgnoreFile? d dir)) ((userFile?.filter d.hasFile).toList ++
      (nearestFile? d projectFileName dir).toList ++ ((nearestIgnoreFile? d dir).map (·.1)).toList)
  refine ⟨user, project, user_held, project_held, ⟨user_read, project_read⟩, (environmentLayer_ok henvironment).2,
    ?_, ?_, ?_, ?_, ?_, ?_, ?_, ?_⟩
  · have := setting .enabled
    rw [hi.enabled, hc.enabled, he.enabled, hp.enabled, hu.enabled] at this
    exact this
  · have := setting .maxDepth
    rw [hi.maxDepth, hc.maxDepth, he.maxDepth, hp.maxDepth, hu.maxDepth] at this
    exact this
  · have := setting .maxFileSize
    rw [hi.maxFileSize, hc.maxFileSize, he.maxFileSize, hp.maxFileSize, hu.maxFileSize] at this
    exact this
  · have := setting .strategy
    rw [hi.strategy, hc.strategy, he.strategy, hp.strategy, hu.strategy] at this
    exact this
  · refine (ignore_foldl _ _).trans ?_
    change [] ++ (userLayer ++ projectLayer ++ environment ++ commandLine ++
      ignoreLayer (nearestIgnoreFile? d dir)).flatMap (fun p => p.1.patterns) = _
    simp only [List.flatMap_append]
    rw [hu.patterns, hp.patterns, he.patterns, hc.patterns, hi.patterns, List.append_nil, List.nil_append]
  · have := setting .ignore
    rw [hi.ignore, hc.ignore, he.ignore, hp.ignore, hu.ignore] at this
    exact this
  · rw [keys_foldl _ rfl]
    decide
  · exact loadedFiles_foldl _ _

/-- Every layer has something to say: a user's file, a project file, an ignore file, and below a variable and two flags. -/
def layeredDisk : Disk :=
  ⟨[([['h']], .directory),
    ([['h'], ['u']], .file "[imports]\nmax_depth = 5\nstrategy = \"syntax-tree\"\nignore = [\"a\"]\n".toUTF8),
    ([['p']], .directory),
    ([['p'], projectFileName], .file "[imports]\nenabled = true\nmax_depth = 7\n".toUTF8),
    ([['p'], ignoreFileName], .file "# none\n\ngen/\n".toUTF8)]⟩

/-- The settings below `/p`: no crawl, as the flag says, and a depth from the environment over those of both files. -/
def layeredSettings : Resolved where
  values := ⟨false, 9, defaultFileSize, .grammar, [['a'], ['x'], "gen/".toList]⟩
  provenance := ⟨[
    (Key.enabled.text, .flag "--no-imports".toList),
    (Key.ignore.text, .ignoreFile "/p/.importcrawlignore".toList),
    (Key.maxDepth.text, .environment depthVariable),
    (Key.maxFileSize.text, .builtIn),
    (Key.strategy.text, .userFile "/h/u".toList)]⟩
  loadedFiles := ["/h/u".toList, "/p/.importcrawl.toml".toList, "/p/.importcrawlignore".toList]

theorem resolve_explained_layered :
    ∃ user project, Explained layeredDisk "/p".toList { noImports := true, ignore := [['x']] } (some "/h/u".toList)
      (fun name => if name = depthVariable then some ['9'] else none) user project layeredSettings :=
  resolve_explained (by decide +kernel)

end ImportTrail.Settings
