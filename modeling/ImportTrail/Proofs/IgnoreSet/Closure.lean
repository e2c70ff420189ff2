import ImportTrail.IgnoreSet
import ImportTrail.Proofs.Glob.Reading
import ImportTrail.Proofs.Glob.Rests

/-!
What lies below an ignored path is ignored, and a set of floating patterns ignores a path wherever it is put.

* `Matches.below`, `Matches.below_of_deep` — a match of a glob, and everything below it;
* `Matches.inside`, `Matches.inside_of_anywhere` — a match of a glob inside any directories;
* `mem_ofPattern`, `ofPattern_below`, `ofPattern_inside` — the globs of a pattern, and the same for them together;
* `ignores_iff` — a set ignores what one of its globs matches;
* `ignores_below_and_inside` — both for a whole set.
-/

namespace ImportTrail

open Text

namespace Glob

variable {g p pattern : Text} {ts us : List Token}

/-! ### Matches -/

theorem bytes_append_slash (p q : Text) : bytes (p ++ '/' :: q) = bytes p ++ slash :: bytes q := by
  simp only [bytes, List.flatMap_append, List.flatMap_cons]
  rfl

theorem isMatch_iff : isMatch ts p = true ↔ ts = [.leading] ∨ [] ∈ seqRests ts (bytes p) := by
  unfold isMatch
  split
  · simp
  · rename_i h
    rw [List.contains_iff_mem]
    exact ⟨.inr, fun hts => hts.resolve_left h⟩

theorem isMatch_trailing_iff : isMatch (us ++ [.trailing]) p = true ↔ ∃ x, slash :: x ∈ seqRests us (bytes p) := by
  rw [isMatch_iff, mem_seqRests_trailing]
  refine or_iff_right fun h => ?_
  exact absurd (congrArg List.getLast? h) (by simp)

/-- A glob begins with any directories, so it matches a match of it below a directory. -/
theorem isMatch_leading (hp : isMatch (.leading :: us) p = true) (q : Text) :
    isMatch (.leading :: us) (q ++ '/' :: p) = true := by
  rw [isMatch_iff] at hp ⊢
  refine hp.imp_right fun h => ?_
  rw [bytes_append_slash, mem_seqRests_leading]
  rcases mem_seqRests_leading.1 h with h | ⟨x, m, hx, h⟩
  · exact .inr ⟨bytes q, bytes p, rfl, h⟩
  · exact .inr ⟨bytes q ++ slash :: x, m, by simp [hx], h⟩

/-- The glob can be read and matches the path. -/
def Matches (g p : Text) : Prop := ∃ ts, parse g = .ok ts ∧ isMatch ts p = true

namespace Matches

/-- A glob for everything below matches below its matches. -/
theorem below_of_deep (h : Matches (g ++ deep) p) (q : Text) : Matches (g ++ deep) (p ++ '/' :: q) := by
  obtain ⟨ts, hts, hp⟩ := h
  refine ⟨ts, hts, ?_⟩
  rcases parse_deep_ends hts with rfl | ⟨us, rfl⟩
  · rfl
  · rw [isMatch_trailing_iff, bytes_append_slash]
    obtain ⟨x, hx⟩ := isMatch_trailing_iff.1 hp
    exact ⟨x ++ slash :: bytes q, seqRests_append us _ hx⟩

/-- Below a match of a glob, the glob for everything below it matches, unless the glob matches everything itself. -/
theorem below (h : Matches g p) (q : Text) : Matches g (p ++ '/' :: q) ∨ Matches (g ++ deep) (p ++ '/' :: q) := by
  obtain ⟨ts, hts, hp⟩ := h
  rcases isMatch_iff.1 hp with rfl | hnil
  · exact .inl ⟨_, hts, rfl⟩
  · rcases parse_deep hts with h | h
    · refine .inr ⟨_, h, isMatch_trailing_iff.2 ⟨bytes q, ?_⟩⟩
      rw [bytes_append_slash]
      exact seqRests_append ts _ hnil
    · exact .inr (below_of_deep ⟨ts, h, hp⟩ q)

/-- Below any directories, a match of a glob is one of the glob anywhere, unless the glob matches everything itself. -/
theorem inside (h : Matches g p) (q : Text) : Matches g (q ++ '/' :: p) ∨ Matches (anywhere ++ g) (q ++ '/' :: p) := by
  obtain ⟨ts, hts, hp⟩ := h
  rcases isMatch_iff.1 hp with rfl | hnil
  · exact .inl ⟨_, hts, rfl⟩
  · rcases parse_anywhere hts with h | ⟨-, hhead⟩
    · refine .inr ⟨_, h, isMatch_iff.2 (.inr (mem_seqRests_leading.2 (.inr ⟨bytes q, bytes p, ?_, hnil⟩)))⟩
      exact bytes_append_slash q p
    · obtain ⟨us, rfl⟩ := List.head?_eq_some_iff.1 hhead
      exact .inl ⟨_, hts, isMatch_leading hp q⟩

/-- Below any directories, a match of a glob anywhere is another one. -/
theorem inside_of_anywhere (hg : parse g = .ok ts) (h : Matches (anywhere ++ g) p) (q : Text) :
    Matches (anywhere ++ g) (q ++ '/' :: p) := by
  obtain ⟨ts', hts', hp⟩ := h
  have hhead : ts'.head? = some .leading := by
    rcases parse_anywhere hg with h | ⟨h, hhead⟩
    · rw [← Except.ok.inj (h.symm.trans hts')]
      rfl
    · rwa [← Except.ok.inj (h.symm.trans hts')]
  obtain ⟨us, rfl⟩ := List.head?_eq_some_iff.1 hhead
  exact ⟨_, hts', isMatch_leading hp q⟩

end Matches

/-! ### The globs of a pattern -/

/-- What stands between the slashes at the ends of a pattern. -/
def body (pattern : Text) : Text := dropEndWhile (· == '/') (pattern.dropWhile (· == '/'))

/-- A pattern that is not tied to the root: no slash in front and none inside. -/
def Floats (pattern : Text) : Prop := startsWith pattern ['/'] = false ∧ '/' ∉ body pattern

/-- A pattern that asks for something below. -/
def AsksBelow (pattern : Text) : Prop := endsWith pattern ['/'] = true

theorem mem_ofPattern : g ∈ ofPattern pattern ↔
    (¬ AsksBelow pattern ∧ g = body pattern) ∨ g = body pattern ++ deep ∨
      Floats pattern ∧ (¬ AsksBelow pattern ∧ g = anywhere ++ body pattern ∨ g = anywhere ++ (body pattern ++ deep)) := by
  have hfloats : Floats pattern ↔ (!startsWith pattern ['/'] && !(body pattern).contains '/') = true := by
    simp [Floats]
  have hbelow : AsksBelow pattern ↔ endsWith pattern ['/'] = true := Iff.rfl
  have hglobs : ofPattern pattern = (if endsWith pattern ['/'] then [] else [body pattern]) ++ [body pattern ++ deep] ++
      if !startsWith pattern ['/'] && !(body pattern).contains '/' then
        (if endsWith pattern ['/'] then [] else [anywhere ++ body pattern]) ++ [anywhere ++ body pattern ++ deep]
      else [] := rfl
  rw [hfloats, hbelow, hglobs]
  generalize (!startsWith pattern ['/'] && !(body pattern).contains '/') = floats
  generalize endsWith pattern ['/'] = below
  cases floats <;> cases below <;> simp

/-- What a pattern matches is closed under descending. -/
theorem ofPattern_below (h : ∃ g ∈ ofPattern pattern, Matches g p) (q : Text) :
    ∃ g ∈ ofPattern pattern, Matches g (p ++ '/' :: q) := by
  obtain ⟨g, hg, hp⟩ := h
  rcases mem_ofPattern.1 hg with ⟨-, rfl⟩ | rfl | ⟨hfloats, ⟨-, rfl⟩ | rfl⟩
  · rcases hp.below q with hq | hq
    · exact ⟨_, hg, hq⟩
    · exact ⟨_, mem_ofPattern.2 (.inr (.inl rfl)), hq⟩
  · exact ⟨_, hg, hp.below_of_deep q⟩
  · rcases hp.below q with hq | hq
    · exact ⟨_, hg, hq⟩
    · exact ⟨_, mem_ofPattern.2 (.inr (.inr ⟨hfloats, .inr (List.append_assoc _ _ _)⟩)), hq⟩
  · rw [← List.append_assoc] at hp hg
    exact ⟨_, hg, hp.below_of_deep q⟩

/-- What a floating pattern matches is closed under nesting. -/
theorem ofPattern_inside (hread : ∀ g ∈ ofPattern pattern, ∃ ts, parse g = .ok ts) (hfloats : Floats pattern)
    (h : ∃ g ∈ ofPattern pattern, Matches g p) (q : Text) : ∃ g ∈ ofPattern pattern, Matches g (q ++ '/' :: p) := by
  obtain ⟨g, hg, hp⟩ := h
  rcases mem_ofPattern.1 hg with ⟨hself, rfl⟩ | rfl | ⟨-, ⟨hself, rfl⟩ | rfl⟩
  · rcases hp.inside q with hq | hq
    · exact ⟨_, hg, hq⟩
    · exact ⟨_, mem_ofPattern.2 (.inr (.inr ⟨hfloats, .inl ⟨hself, rfl⟩⟩)), hq⟩
  · rcases hp.inside q with hq | hq
    · exact ⟨_, hg, hq⟩
    · exact ⟨_, mem_ofPattern.2 (.inr (.inr ⟨hfloats, .inr rfl⟩)), hq⟩
  · obtain ⟨ts, hts⟩ := hread _ (mem_ofPattern.2 (.inl ⟨hself, rfl⟩))
    exact ⟨_, hg, hp.inside_of_anywhere hts q⟩
  · obtain ⟨ts, hts⟩ := hread _ (mem_ofPattern.2 (.inr (.inl rfl)))
    exact ⟨_, hg, hp.inside_of_anywhere hts q⟩

end Glob

namespace IgnoreSet

open Glob

variable {patterns : List Text} {set : IgnoreSet} {g p : Text}

/-! ### Sets -/

theorem mem_globTexts :
    g ∈ globTexts patterns ↔ ∃ pattern ∈ patterns, trim pattern ≠ [] ∧ g ∈ ofPattern (trim pattern) := by
  simp [globTexts, and_assoc]

theorem compile_eq_ok {ts : List Token} : compile g = .ok ts ↔ parse g = .ok ts := by
  unfold compile
  cases parse g <;> simp [Except.mapError]

theorem mem_of_mapM_ok {α β ε : Type} {f : α → Except ε β} {xs : List α} {ys : List β} (h : xs.mapM f = .ok ys) :
    (∀ x ∈ xs, ∃ y ∈ ys, f x = .ok y) ∧ ∀ y ∈ ys, ∃ x ∈ xs, f x = .ok y := by
  induction xs generalizing ys with
  | nil =>
    obtain rfl := Except.ok.inj h
    simp
  | cons x xs ih =>
    rw [List.mapM_cons] at h
    cases hx : f x with
    | error e => rw [hx] at h; cases h
    | ok b =>
      cases hxs : xs.mapM f with
      | error e => rw [hx, hxs] at h; cases h
      | ok bs =>
        rw [hx, hxs] at h
        obtain rfl := Except.ok.inj h
        obtain ⟨hall, hfrom⟩ := ih hxs
        constructor
        · rintro x' (_ | ⟨_, hx'⟩)
          · exact ⟨b, List.mem_cons_self, hx⟩
          · obtain ⟨y, hy, hxy⟩ := hall x' hx'
            exact ⟨y, List.mem_cons_of_mem _ hy, hxy⟩
        · rintro y (_ | ⟨_, hy⟩)
          · exact ⟨x, List.mem_cons_self, hx⟩
          · obtain ⟨x', hx', hxy⟩ := hfrom y hy
            exact ⟨x', List.mem_cons_of_mem _ hx', hxy⟩

/-- The globs of accepted patterns can be read, and their set ignores what one of them matches. -/
theorem ignores_iff (h : ofPatterns patterns = .ok set) :
    (∀ g ∈ globTexts patterns, ∃ ts, parse g = .ok ts) ∧
      ∀ p, set.ignores p = true ↔ ∃ g ∈ globTexts patterns, Matches g p := by
  unfold ofPatterns at h
  cases hglobs : (globTexts patterns).mapM compile with
  | error e => rw [hglobs] at h; cases h
  | ok globs =>
    rw [hglobs] at h
    obtain rfl := Except.ok.inj h
    obtain ⟨hall, hfrom⟩ := mem_of_mapM_ok hglobs
    simp only [compile_eq_ok] at hall hfrom
    refine ⟨fun g hg => (hall g hg).imp fun _ => And.right, fun p => ?_⟩
    rw [ignores, List.any_eq_true]
    constructor
    · rintro ⟨ts, hts, hp⟩
      obtain ⟨g, hg, hread⟩ := hfrom ts hts
      exact ⟨g, hg, ts, hread, hp⟩
    · rintro ⟨g, hg, ts, hread, hp⟩
      obtain ⟨us, hus, hread'⟩ := hall g hg
      obtain rfl := Except.ok.inj (hread.symm.trans hread')
      exact ⟨ts, hus, hp⟩

/-- Everything below an ignored path is ignored; where all patterns float, so is the path inside any directory. -/
theorem ignores_below_and_inside (h : ofPatterns patterns = .ok set) (hp : set.ignores p = true) (q : Text) :
    set.ignores (p ++ '/' :: q) = true ∧
      ((∀ pattern ∈ patterns, Floats (trim pattern)) → set.ignores (q ++ '/' :: p) = true) := by
  obtain ⟨hread, hset⟩ := ignores_iff h
  obtain ⟨g, hg, hmatch⟩ := (hset p).1 hp
  obtain ⟨pattern, hpattern, hne, hg⟩ := mem_globTexts.1 hg
  -- A glob of the same pattern is one of the set.
  have hof : ∀ {p}, (∃ g ∈ ofPattern (trim pattern), Matches g p) → set.ignores p = true := by
    rintro p ⟨g', hg', hp'⟩
    exact (hset p).2 ⟨g', mem_globTexts.2 ⟨pattern, hpattern, hne, hg'⟩, hp'⟩
  refine ⟨hof (ofPattern_below ⟨g, hg, hmatch⟩ q), fun hfloats => hof ?_⟩
  refine ofPattern_inside (fun g' hg' => ?_) (hfloats pattern hpattern) ⟨g, hg, hmatch⟩ q
  exact hread g' (mem_globTexts.2 ⟨pattern, hpattern, hne, hg'⟩)

/-- Here with a class and with alternates that end in two stars. -/
theorem ignores_below_and_inside_alternates :
    ∃ set, ofPatterns [" {[a-c]x,k**}/".toList] = .ok set ∧ set.ignores "bx/y".toList = true ∧
      set.ignores "bx/y/z".toList = true ∧ set.ignores "z/bx/y".toList = true := by
  let tokens : List Token :=
    [.choice [[.oneOf false [('a', 'c')], .literal 'x'], [.literal 'k', .run, .run]], .trailing]
  have hset : ofPatterns [" {[a-c]x,k**}/".toList] = .ok ⟨[tokens, .leading :: tokens]⟩ := by rfl
  have hp : ignores ⟨[tokens, .leading :: tokens]⟩ "bx/y".toList = true := by decide
  have hfloats : ∀ pattern ∈ [" {[a-c]x,k**}/".toList], Floats (trim pattern) := by
    rw [List.forall_mem_singleton]
    exact ⟨by decide, by decide⟩
  obtain ⟨hbelow, hinside⟩ := ignores_below_and_inside hset hp "z".toList
  exact ⟨_, hset, hp, hbelow, hinside hfloats⟩

end IgnoreSet

end ImportTrail
