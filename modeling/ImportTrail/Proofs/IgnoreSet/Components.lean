import ImportTrail.Proofs.IgnoreSet.Closure
import ImportTrail.Proofs.Text.Pieces
import Mathlib.Data.List.Forall2

/-!
Patterns of plain characters, `?` and `*` are matched component by component.

* `Fits` — the bytes that a text with `?` and `*` stands for;
* `parse_simple`, `mem_seqRests_simple` — such a text is read character by character, and its parts take off what it fits;
* `matches_simple`, `matches_simple_deep`, `matches_anywhere` — what the globs of a pattern match;
* `fits_iff_components` — a text with slashes fits a path where its components fit those of the path;
* `exists_mem_ofPattern_iff_selects` — a pattern selects a path by its components;
* `ignores_iff_components` — the paths that a set ignores, by their components.
-/

namespace ImportTrail

open Text

namespace Glob

variable {c : Char} {g h p pattern : Text} {r s x : Bytes} {ts : List Token}

/-! ### What a pattern fits -/

/-- The bytes that a character of a pattern stands for. -/
def Stands (c : Char) (x : Bytes) : Prop :=
  if c = '*' then slash ∉ x else if c = '?' then ∃ b, b ≠ slash ∧ x = [b] else x = String.utf8EncodeChar c

/-- The bytes that the characters of a pattern stand for in a row. -/
inductive Fits : Text → Bytes → Prop
  | nil : Fits [] []
  | cons {c : Char} {g : Text} {x s : Bytes} (hc : Stands c x) (hg : Fits g s) : Fits (c :: g) (x ++ s)

theorem fits_nil : Fits [] s ↔ s = [] := by
  constructor
  · rintro ⟨⟩
    rfl
  · rintro rfl
    exact .nil

theorem fits_cons : Fits (c :: g) s ↔ ∃ x r, s = x ++ r ∧ Stands c x ∧ Fits g r := by
  constructor
  · intro h
    cases h with
    | cons hc hg => exact ⟨_, _, rfl, hc, hg⟩
  · rintro ⟨x, r, rfl, hc, hg⟩
    exact .cons hc hg

theorem fits_append : Fits (g ++ h) s ↔ ∃ x r, s = x ++ r ∧ Fits g x ∧ Fits h r := by
  induction g generalizing s with
  | nil => simp [fits_nil]
  | cons c g ih =>
    rw [List.cons_append, fits_cons]
    constructor
    · rintro ⟨x, r, rfl, hc, hr⟩
      obtain ⟨y, r, rfl, hg, hh⟩ := ih.1 hr
      exact ⟨x ++ y, r, (List.append_assoc _ _ _).symm, .cons hc hg, hh⟩
    · rintro ⟨x, r, rfl, hcg, hh⟩
      obtain ⟨x, y, rfl, hc, hg⟩ := fits_cons.1 hcg
      exact ⟨x, y ++ r, List.append_assoc _ _ _, hc, ih.2 ⟨y, r, rfl, hg, hh⟩⟩

/-- The bytes of other characters are not those of a slash. -/
theorem slash_notMem_utf8EncodeChar (hc : c ≠ '/') : slash ∉ String.utf8EncodeChar c := by
  have hbyte : ∀ n, slash = UInt8.ofNat n → n % 256 = 47 := by
    intro n hn
    simpa [slash, eq_comm] using congrArg UInt8.toNat hn
  have hval : c.val.toNat ≠ 47 := by
    intro h
    exact hc (Char.ext (UInt32.toNat_inj.1 h))
  intro hmem
  unfold String.utf8EncodeChar at hmem
  dsimp only at hmem
  split_ifs at hmem <;> simp only [List.mem_cons, List.not_mem_nil, or_false] at hmem
  · have := hbyte _ hmem
    omega
  · rcases hmem with hmem | hmem <;> have := hbyte _ hmem <;> omega
  · rcases hmem with hmem | hmem | hmem <;> have := hbyte _ hmem <;> omega
  · rcases hmem with hmem | hmem | hmem | hmem <;> have := hbyte _ hmem <;> omega

theorem Stands.slash_notMem (hx : Stands c x) (hc : c ≠ '/') : slash ∉ x := by
  unfold Stands at hx
  split_ifs at hx
  · exact hx
  · obtain ⟨b, hb, rfl⟩ := hx
    simpa using Ne.symm hb
  · rw [hx]
    exact slash_notMem_utf8EncodeChar hc

theorem Fits.slash_notMem (hs : Fits g s) (hg : '/' ∉ g) : slash ∉ s := by
  induction hs with
  | nil => simp
  | cons hc _ ih =>
    rw [List.mem_cons, not_or] at hg
    rw [List.mem_append, not_or]
    exact ⟨hc.slash_notMem (Ne.symm hg.1), ih hg.2⟩

theorem fits_slash : Fits (g ++ '/' :: h) s ↔ ∃ x r, s = x ++ slash :: r ∧ Fits g x ∧ Fits h r := by
  rw [fits_append]
  refine exists_congr fun x => ⟨?_, ?_⟩
  · rintro ⟨_, rfl, hg, hh⟩
    obtain ⟨y, r, rfl, hy, hh⟩ := fits_cons.1 hh
    exact ⟨r, by rw [show y = [slash] from hy]; rfl, hg, hh⟩
  · rintro ⟨r, rfl, hg, hh⟩
    exact ⟨slash :: r, rfl, hg, .cons (x := [slash]) (c := '/') rfl hh⟩

/-! ### How a pattern is read -/

/-- The part that a character of a pattern is read as. -/
def token (c : Char) : Token := if c = '*' then .run else if c = '?' then .any else .literal c

/-- A text without classes, choices and escapes, and with single stars only. -/
structure Simple (g : Text) : Prop where
  plain : ∀ c ∈ g, c ∉ ['[', ']', '\x7b', '\x7d', '\\']
  single : ¬ ['*', '*'] <:+: g

theorem readFrom_star {st : State} {prev : Option Char} (hm : st.mode = .star prev) (hg : ∀ d ∈ g.head?, d ≠ '*') :
    readFrom st g = readFrom ((st.push .run).inMode (.plain (some '*'))) g := by
  cases g with
  | nil =>
    rw [readFrom_nil, readFrom_nil, finish_star hm, finish_plain (inMode_mode _ _)]
    rfl
  | cons d g =>
    have hread : st.read d = ((st.push .run).inMode (.plain (some '*'))).read d := by
      have hd : d ≠ '*' := hg d rfl
      simp only [State.read, hm, hd, if_false, inMode_mode]
      rfl
    rw [readFrom_cons, readFrom_cons, hread]

theorem read_plain {st : State} {prev : Option Char} (hm : st.mode = .plain prev) (ho : st.opened = [])
    (hc : c ∉ ['[', ']', '\x7b', '\x7d', '\\']) (hstar : c ≠ '*') :
    st.read c = .ok ((st.push (token c)).inMode (.plain (some c))) := by
  simp only [List.mem_cons, List.not_mem_nil, or_false, not_or] at hc
  simp only [State.read, hm, State.readPlain, hc, hstar, token, if_false]
  split_ifs with h h
  · rfl
  · rw [ho, h]
  · rfl

/-- A simple text is read character by character. -/
theorem readFrom_simple {st : State} {prev : Option Char} (hm : st.mode = .plain prev) (ho : st.opened = [])
    (hg : Simple g) : readFrom st g = .ok (st.parts.reverse ++ g.map token) := by
  induction g generalizing st prev with
  | nil =>
    rw [readFrom_nil, finish_plain hm, close, ho]
    simp
  | cons c g ih =>
    obtain ⟨hplain, hsingle⟩ := hg
    rw [List.forall_mem_cons] at hplain
    have hg : Simple g := ⟨hplain.2, fun h => hsingle (h.trans (List.suffix_cons c g).isInfix)⟩
    by_cases hc : c = '*'
    · have hread : st.read c = .ok (st.inMode (.star prev)) := by
        simp [State.read, hm, State.readPlain, hc]
      have hnext : ∀ d ∈ g.head?, d ≠ '*' := by
        rintro d hd rfl
        obtain ⟨g, rfl⟩ := List.head?_eq_some_iff.1 hd
        exact hsingle (hc ▸ (List.prefix_append ['*', '*'] g).isInfix)
      rw [readFrom_cons_of_ok hread, readFrom_star (inMode_mode _ _) hnext, ih (inMode_mode _ (.plain _)) (by exact ho) hg]
      simp [token, hc]
    · rw [readFrom_cons_of_ok (read_plain hm ho hplain.1 hc), ih (inMode_mode (st.push _) _) ho hg]
      simp

theorem parse_simple (hg : Simple g) : parse g = .ok (g.map token) := by
  rw [parse_eq_readFrom, readFrom_simple rfl rfl hg]
  rfl

/-- No part goes over directories. -/
theorem ne_of_mem_token {t : Token} (ht : t ∈ g.map token) : t ≠ .leading ∧ t ≠ .trailing := by
  obtain ⟨c, -, rfl⟩ := List.mem_map.1 ht
  unfold token
  split_ifs <;> simp

theorem parse_simple_deep (hg : Simple g) : parse (g ++ deep) = .ok (g.map token ++ [.trailing]) := by
  refine (parse_deep (parse_simple hg)).resolve_right fun h => ?_
  rcases parse_deep_ends h with h | ⟨us, h⟩
  · exact (ne_of_mem_token (h ▸ List.mem_cons_self)).1 rfl
  · exact (ne_of_mem_token (h ▸ List.mem_append_right us List.mem_cons_self)).2 rfl

theorem mem_rests_token : r ∈ (token c).rests s ↔ ∃ x, s = x ++ r ∧ Stands c x := by
  unfold token Stands
  split_ifs
  · simp only [Token.rests, mem_afterRun, and_comm]
  · rw [mem_rests_any]
    constructor
    · rintro ⟨b, hb, rfl⟩
      exact ⟨[b], rfl, b, hb, rfl⟩
    · rintro ⟨_, rfl, b, hb, rfl⟩
      exact ⟨b, hb, rfl⟩
  · simp [Token.rests, mem_afterBytes]

/-- The parts of a simple text take off what it fits. -/
theorem mem_seqRests_simple : r ∈ seqRests (g.map token) s ↔ ∃ x, s = x ++ r ∧ Fits g x := by
  induction g generalizing s with
  | nil => simp [mem_seqRests_nil, fits_nil, eq_comm]
  | cons c g ih =>
    rw [List.map_cons, mem_seqRests_cons]
    simp only [mem_rests_token, ih]
    constructor
    · rintro ⟨_, ⟨x, rfl, hc⟩, y, rfl, hg⟩
      exact ⟨x ++ y, (List.append_assoc _ _ _).symm, .cons hc hg⟩
    · rintro ⟨_, rfl, hcg⟩
      obtain ⟨x, y, rfl, hc, hg⟩ := fits_cons.1 hcg
      exact ⟨y ++ r, ⟨x, List.append_assoc _ _ _, hc⟩, y, rfl, hg⟩

/-! ### What the globs of a pattern match -/

/-- A slash among the bytes of a text is one of its characters. -/
theorem bytes_eq_append_slash (hp : bytes p = x ++ slash :: r) :
    ∃ a b, p = a ++ '/' :: b ∧ x = bytes a ∧ r = bytes b := by
  induction p generalizing x with
  | nil => simp [bytes] at hp
  | cons c p ih =>
    have hcons : bytes (c :: p) = String.utf8EncodeChar c ++ bytes p := rfl
    rw [hcons, List.append_eq_append_iff] at hp
    have hlater : ∀ y, bytes p = y ++ slash :: r → ∃ a b, c :: p = a ++ '/' :: b ∧
        String.utf8EncodeChar c ++ y = bytes a ∧ r = bytes b := by
      intro y hy
      obtain ⟨a, b, rfl, rfl, rfl⟩ := ih hy
      exact ⟨c :: a, b, rfl, rfl, rfl⟩
    rcases hp with ⟨y, rfl, hy⟩ | ⟨z, hz, hr⟩
    · exact hlater y hy
    · cases z with
      | nil =>
        rw [List.append_nil] at hz
        have := hlater [] hr.symm
        rwa [List.append_nil, hz] at this
      | cons b z =>
        obtain ⟨rfl, rfl⟩ := List.cons.inj hr
        have hc : c = '/' := by
          by_contra hc
          exact slash_notMem_utf8EncodeChar hc (by simp [hz])
        obtain rfl := hc
        obtain ⟨rfl, -, rfl⟩ : x = [] ∧ slash = slash ∧ z = [] := by
          rw [show String.utf8EncodeChar '/' = [slash] from rfl, eq_comm, List.append_eq_singleton_iff] at hz
          simpa using hz
        exact ⟨[], p, rfl, rfl, rfl⟩

theorem matches_iff (hg : parse g = .ok ts) : Matches g p ↔ isMatch ts p = true := by
  constructor
  · rintro ⟨us, hus, hp⟩
    rwa [Except.ok.inj (hg.symm.trans hus)]
  · intro hp
    exact ⟨ts, hg, hp⟩

theorem matches_simple (hg : Simple g) : Matches g p ↔ Fits g (bytes p) := by
  rw [matches_iff (parse_simple hg), isMatch_iff, mem_seqRests_simple]
  constructor
  · rintro (h | ⟨x, hx, hfits⟩)
    · exact absurd rfl (ne_of_mem_token (h ▸ List.mem_cons_self)).1
    · rwa [hx, List.append_nil]
  · intro hfits
    exact .inr ⟨bytes p, (List.append_nil _).symm, hfits⟩

theorem matches_simple_deep (hg : Simple g) : Matches (g ++ deep) p ↔ ∃ a b, p = a ++ '/' :: b ∧ Fits g (bytes a) := by
  rw [matches_iff (parse_simple_deep hg), isMatch_trailing_iff]
  simp only [mem_seqRests_simple]
  constructor
  · rintro ⟨r, x, hp, hfits⟩
    obtain ⟨a, b, rfl, rfl, rfl⟩ := bytes_eq_append_slash hp
    exact ⟨a, b, rfl, hfits⟩
  · rintro ⟨a, b, rfl, hfits⟩
    exact ⟨bytes b, bytes a, bytes_append_slash a b, hfits⟩

/-- A glob anywhere matches what the glob matches, in any directory. -/
theorem matches_anywhere (hg : parse g = .ok ts) (hne : ts ≠ []) (hhead : ts.head? ≠ some .leading) :
    Matches (anywhere ++ g) p ↔ Matches g p ∨ ∃ a b, p = a ++ '/' :: b ∧ Matches g b := by
  have hparse : parse (anywhere ++ g) = .ok (.leading :: ts) :=
    (parse_anywhere hg).resolve_right fun h => hhead h.2
  have hmatch : ∀ p, Matches g p ↔ [] ∈ seqRests ts (bytes p) := by
    intro p
    rw [matches_iff hg, isMatch_iff]
    refine or_iff_right ?_
    rintro rfl
    exact hhead rfl
  rw [matches_iff hparse, isMatch_iff, or_iff_right (by simpa using hne), mem_seqRests_leading, hmatch]
  refine or_congr_right ⟨?_, ?_⟩
  · rintro ⟨x, m, hp, hm⟩
    obtain ⟨a, b, rfl, rfl, rfl⟩ := bytes_eq_append_slash hp
    exact ⟨a, b, rfl, (hmatch b).2 hm⟩
  · rintro ⟨a, b, rfl, hb⟩
    exact ⟨bytes a, bytes b, bytes_append_slash a b, (hmatch b).1 hb⟩

/-! ### Components -/

/-- The components of a pattern fit those of a path one by one. -/
def FitsEach : List Text → List Text → Prop := List.Forall₂ fun g c => Fits g (bytes c)

/-- A simple text with slashes fits a path where its components fit those of the path. -/
theorem fits_iff_components (g p : Text) : Fits g (bytes p) ↔ FitsEach (splitOn '/' g) (splitOn '/' p) := by
  have hslash : ∀ {p}, slash ∉ bytes p → '/' ∉ p := by
    intro p hp hmem
    obtain ⟨a, b, rfl⟩ := List.append_of_mem hmem
    exact hp (by simp [bytes_append_slash])
  by_cases hg : '/' ∈ g
  · obtain ⟨a, b, rfl, ha⟩ := List.eq_append_cons_of_mem hg
    rw [splitOn_append_sep, splitOn_of_notMem ha, fits_slash]
    constructor
    · rintro ⟨x, r, hp, hx, hr⟩
      obtain ⟨q, p, rfl, rfl, rfl⟩ := bytes_eq_append_slash hp
      rw [splitOn_append_sep, splitOn_of_notMem (hslash (hx.slash_notMem ha))]
      exact .cons hx ((fits_iff_components b p).1 hr)
    · intro h
      obtain ⟨c, cs, hc, hcs, hp⟩ := List.forall₂_cons_left_iff.1 h
      have hne : cs ≠ [] := by
        rintro rfl
        exact splitOn_ne_nil '/' b (List.forall₂_nil_right_iff.1 hcs)
      obtain ⟨q, p, rfl, hq, rfl⟩ := splitOn_eq_append hp (List.cons_ne_nil c []) hne
      refine ⟨bytes q, bytes p, bytes_append_slash q p, ?_, (fits_iff_components b p).2 hcs⟩
      rwa [eq_of_splitOn_singleton hq]
  · rw [splitOn_of_notMem hg]
    constructor
    · intro hp
      rw [splitOn_of_notMem (hslash (hp.slash_notMem hg))]
      exact .cons hp .nil
    · intro h
      obtain ⟨c, cs, hc, hcs, hp⟩ := List.forall₂_cons_left_iff.1 h
      obtain rfl := List.forall₂_nil_left_iff.1 hcs
      rwa [eq_of_splitOn_singleton hp]
termination_by g.length
decreasing_by all_goals simp_all; omega

/-! ### Patterns -/

theorem body_isInfix (pattern : Text) : body pattern <:+: pattern := by
  have hfront : pattern.dropWhile (· == '/') <:+ pattern := List.dropWhile_suffix _
  have hend : ∀ s : Text, dropEndWhile (· == '/') s <+: s := by
    intro s
    rw [← List.reverse_suffix, dropEndWhile, List.reverse_reverse]
    exact List.dropWhile_suffix _
  exact (hend _).isInfix.trans hfront.isInfix

theorem Simple.body (h : Simple pattern) : Simple (body pattern) where
  plain c hc := h.plain c ((body_isInfix pattern).subset hc)
  single hstars := h.single (hstars.trans (body_isInfix pattern))

/-- A pattern matches from the root of the project on. -/
def MatchesRooted (pattern p : Text) : Prop :=
  ¬ AsksBelow pattern ∧ Matches (body pattern) p ∨ Matches (body pattern ++ deep) p

theorem exists_parse_of_mem_ofPattern (h : Simple pattern) (hg : g ∈ ofPattern pattern) : ∃ ts, parse g = .ok ts := by
  have hanywhere : ∀ {g ts}, parse g = .ok ts → ∃ ts', parse (anywhere ++ g) = .ok ts' := by
    intro g ts hg
    rcases parse_anywhere hg with h | ⟨h, -⟩
    · exact ⟨_, h⟩
    · exact ⟨_, h⟩
  rcases mem_ofPattern.1 hg with ⟨-, rfl⟩ | rfl | ⟨-, ⟨-, rfl⟩ | rfl⟩
  · exact ⟨_, parse_simple h.body⟩
  · exact ⟨_, parse_simple_deep h.body⟩
  · exact hanywhere (parse_simple h.body)
  · exact hanywhere (parse_simple_deep h.body)

/-- The globs of a simple pattern match from the root on, or in any directory if the pattern floats. -/
theorem exists_mem_ofPattern (h : Simple pattern) (hne : body pattern ≠ []) :
    (∃ g ∈ ofPattern pattern, Matches g p) ↔
      MatchesRooted pattern p ∨ Floats pattern ∧ ∃ a b, p = a ++ '/' :: b ∧ MatchesRooted pattern b := by
  have hmap : (body pattern).map token ≠ [] := by simpa using hne
  have hhead : ((body pattern).map token).head? ≠ some .leading := by
    intro hl
    exact (ne_of_mem_token (List.mem_of_head? hl)).1 rfl
  have hanywhere := matches_anywhere (p := p) (parse_simple h.body) hmap hhead
  have hanywhereDeep := matches_anywhere (p := p) (parse_simple_deep h.body) (by simp)
    (by rwa [List.head?_append_of_ne_nil _ hmap])
  constructor
  · rintro ⟨g, hg, hp⟩
    rcases mem_ofPattern.1 hg with ⟨hself, rfl⟩ | rfl | ⟨hfloats, ⟨hself, rfl⟩ | rfl⟩
    · exact .inl (.inl ⟨hself, hp⟩)
    · exact .inl (.inr hp)
    · rcases hanywhere.1 hp with hp | ⟨a, b, hab, hb⟩
      · exact .inl (.inl ⟨hself, hp⟩)
      · exact .inr ⟨hfloats, a, b, hab, .inl ⟨hself, hb⟩⟩
    · rcases hanywhereDeep.1 hp with hp | ⟨a, b, hab, hb⟩
      · exact .inl (.inr hp)
      · exact .inr ⟨hfloats, a, b, hab, .inr hb⟩
  · rintro ((⟨hself, hp⟩ | hp) | ⟨hfloats, a, b, hab, ⟨hself, hb⟩ | hb⟩)
    · exact ⟨_, mem_ofPattern.2 (.inl ⟨hself, rfl⟩), hp⟩
    · exact ⟨_, mem_ofPattern.2 (.inr (.inl rfl)), hp⟩
    · exact ⟨_, mem_ofPattern.2 (.inr (.inr ⟨hfloats, .inl ⟨hself, rfl⟩⟩)), hanywhere.2 (.inr ⟨a, b, hab, hb⟩)⟩
    · exact ⟨_, mem_ofPattern.2 (.inr (.inr ⟨hfloats, .inr rfl⟩)), hanywhereDeep.2 (.inr ⟨a, b, hab, hb⟩)⟩

/-- A simple pattern matches from the root on where its components fit the first ones of the path. -/
theorem matchesRooted_iff (h : Simple pattern) : MatchesRooted pattern p ↔ ∃ init rest, splitOn '/' p = init ++ rest ∧
    FitsEach (splitOn '/' (body pattern)) init ∧ (AsksBelow pattern → rest ≠ []) := by
  rw [MatchesRooted, matches_simple h.body, matches_simple_deep h.body]
  constructor
  · rintro (⟨hself, hp⟩ | ⟨a, b, rfl, ha⟩)
    · exact ⟨_, [], (List.append_nil _).symm, (fits_iff_components _ p).1 hp, fun hbelow => absurd hbelow hself⟩
    · exact ⟨_, _, splitOn_append_sep '/' a b, (fits_iff_components _ a).1 ha, fun _ => splitOn_ne_nil '/' b⟩
  · rintro ⟨init, rest, hp, hinit, hrest⟩
    by_cases hnil : rest = []
    · rw [hnil, List.append_nil] at hp
      exact .inl ⟨fun hbelow => hrest hbelow hnil, (fits_iff_components _ p).2 (hp ▸ hinit)⟩
    · have hne : init ≠ [] := by
        rintro rfl
        exact splitOn_ne_nil '/' _ (List.forall₂_nil_right_iff.1 hinit)
      obtain ⟨a, b, rfl, rfl, -⟩ := splitOn_eq_append hp hne hnil
      exact .inr ⟨a, b, rfl, (fits_iff_components _ a).2 hinit⟩

/-- A pattern selects a path by its components: a floating pattern where one of them fits it, and any other where its
components fit the first ones. A pattern that asks for something below leaves a component over. -/
inductive Selects (pattern : Text) : List Text → Prop
  | floating {front rest : List Text} {c : Text} (hfloats : Floats pattern) (hc : Fits (body pattern) (bytes c))
      (hrest : AsksBelow pattern → rest ≠ []) : Selects pattern (front ++ c :: rest)
  | rooted {init rest : List Text} (hfloats : ¬ Floats pattern) (hinit : FitsEach (splitOn '/' (body pattern)) init)
      (hrest : AsksBelow pattern → rest ≠ []) : Selects pattern (init ++ rest)

theorem fitsEach_floating (h : Floats pattern) {cs : List Text} :
    FitsEach (splitOn '/' (body pattern)) cs ↔ ∃ c, cs = [c] ∧ Fits (body pattern) (bytes c) := by
  rw [splitOn_of_notMem h.2]
  constructor
  · intro hcs
    obtain ⟨c, cs, hc, hnil, rfl⟩ := List.forall₂_cons_left_iff.1 hcs
    obtain rfl := List.forall₂_nil_left_iff.1 hnil
    exact ⟨c, rfl, hc⟩
  · rintro ⟨c, rfl, hc⟩
    exact .cons hc .nil

/-- One of the globs of a simple pattern matches the paths that the pattern selects. -/
theorem exists_mem_ofPattern_iff_selects (h : Simple pattern) (hne : body pattern ≠ []) :
    (∃ g ∈ ofPattern pattern, Matches g p) ↔ Selects pattern (splitOn '/' p) := by
  rw [exists_mem_ofPattern h hne]
  constructor
  · rintro (hp | ⟨hfloats, a, b, rfl, hb⟩)
    · obtain ⟨init, rest, hp, hinit, hrest⟩ := (matchesRooted_iff h).1 hp
      rw [hp]
      by_cases hfloats : Floats pattern
      · obtain ⟨c, rfl, hc⟩ := (fitsEach_floating hfloats).1 hinit
        exact List.nil_append ([c] ++ rest) ▸ .floating hfloats hc hrest
      · exact .rooted hfloats hinit hrest
    · obtain ⟨init, rest, hb, hinit, hrest⟩ := (matchesRooted_iff h).1 hb
      obtain ⟨c, rfl, hc⟩ := (fitsEach_floating hfloats).1 hinit
      rw [splitOn_append_sep, hb]
      exact .floating hfloats hc hrest
  · intro hp
    generalize hcs : splitOn '/' p = cs at hp
    cases hp with
    | @floating front rest c hfloats hc hrest =>
      have hinit := (fitsEach_floating hfloats).2 ⟨c, rfl, hc⟩
      by_cases hfront : front = []
      · rw [hfront] at hcs
        exact .inl ((matchesRooted_iff h).2 ⟨[c], rest, hcs, hinit, hrest⟩)
      · obtain ⟨a, b, rfl, -, hb⟩ := splitOn_eq_append hcs hfront (by simp)
        exact .inr ⟨hfloats, a, b, rfl, (matchesRooted_iff h).2 ⟨[c], rest, hb, hinit, hrest⟩⟩
    | rooted hfloats hinit hrest => exact .inl ((matchesRooted_iff h).2 ⟨_, _, hcs, hinit, hrest⟩)

end Glob

namespace IgnoreSet

open Glob

theorem exists_mapM_ok {α β ε : Type} {f : α → Except ε β} {xs : List α} (h : ∀ x ∈ xs, ∃ y, f x = .ok y) :
    ∃ ys, xs.mapM f = .ok ys := by
  induction xs with
  | nil => exact ⟨[], rfl⟩
  | cons x xs ih =>
    rw [List.forall_mem_cons] at h
    obtain ⟨⟨y, hy⟩, hxs⟩ := h
    obtain ⟨ys, hys⟩ := ih hxs
    exact ⟨y :: ys, by rw [List.mapM_cons, hy, hys]; rfl⟩

/-- Patterns of plain characters, `?` and `*` are accepted, and their set ignores the paths that one of them selects by
its components. -/
theorem ignores_iff_components {patterns : List Text}
    (h : ∀ pattern ∈ patterns, Simple (trim pattern) ∧ body (trim pattern) ≠ []) :
    ∃ set, ofPatterns patterns = .ok set ∧
      ∀ p, set.ignores p = true ↔ ∃ pattern ∈ patterns, Selects (trim pattern) (splitOn '/' p) := by
  have hread : ∀ g ∈ globTexts patterns, ∃ ts, compile g = .ok ts := by
    intro g hg
    obtain ⟨pattern, hpattern, -, hg⟩ := mem_globTexts.1 hg
    obtain ⟨ts, hts⟩ := exists_parse_of_mem_ofPattern (h pattern hpattern).1 hg
    exact ⟨ts, compile_eq_ok.2 hts⟩
  obtain ⟨globs, hglobs⟩ := exists_mapM_ok hread
  have hset : ofPatterns patterns = .ok ⟨globs⟩ := by rw [ofPatterns, hglobs]; rfl
  refine ⟨⟨globs⟩, hset, fun p => ?_⟩
  rw [(ignores_iff hset).2 p]
  constructor
  · rintro ⟨g, hg, hp⟩
    obtain ⟨pattern, hpattern, -, hg⟩ := mem_globTexts.1 hg
    obtain ⟨hsimple, hbody⟩ := h pattern hpattern
    exact ⟨pattern, hpattern, (exists_mem_ofPattern_iff_selects hsimple hbody).1 ⟨g, hg, hp⟩⟩
  · rintro ⟨pattern, hpattern, hp⟩
    obtain ⟨hsimple, hbody⟩ := h pattern hpattern
    obtain ⟨g, hg, hp⟩ := (exists_mem_ofPattern_iff_selects hsimple hbody).2 hp
    have hne : trim pattern ≠ [] := by
      intro hnil
      rw [hnil] at hbody
      exact hbody rfl
    exact ⟨g, mem_globTexts.2 ⟨pattern, hpattern, hne, hg⟩, hp⟩

/-- Here with a floating pattern that asks for something below and with one tied to the root by the slash inside. -/
theorem ignores_iff_components_floating_rooted :
    ∃ set, ofPatterns ["gen?/".toList, " src/*.js".toList] = .ok set ∧
      set.ignores "a/gen1/b.rs".toList = true ∧ set.ignores "src/x.js/y".toList = true := by
  have hsimple : ∀ pattern ∈ ["gen?/".toList, " src/*.js".toList], Simple (trim pattern) ∧ body (trim pattern) ≠ [] := by
    have hgen : Simple "gen?/".toList := ⟨by simp, by simp [List.infix_cons_iff]⟩
    have hsrc : Simple "src/*.js".toList := ⟨by simp, by simp [List.infix_cons_iff]⟩
    rw [List.forall_mem_cons, List.forall_mem_singleton]
    exact ⟨⟨hgen, by decide⟩, hsrc, by decide⟩
  have hgen : Selects "gen?/".toList (["a".toList] ++ "gen1".toList :: ["b.rs".toList]) := by
    refine .floating ⟨by decide, by decide⟩ ?_ (by simp)
    exact .cons rfl (.cons rfl (.cons rfl (.cons ⟨49, by decide, rfl⟩ .nil)))
  have hsrc : Selects "src/*.js".toList (["src".toList, "x.js".toList] ++ ["y".toList]) := by
    refine .rooted (fun h => h.2 (by decide)) (.cons ?_ (.cons ?_ .nil)) (by simp)
    · exact .cons rfl (.cons rfl (.cons rfl .nil))
    · exact .cons (x := [120]) (by decide : slash ∉ [120]) (.cons rfl (.cons rfl (.cons rfl .nil)))
  obtain ⟨set, hset, hignores⟩ := ignores_iff_components hsimple
  exact ⟨set, hset, (hignores _).2 ⟨"gen?/".toList, by simp, hgen⟩,
    (hignores _).2 ⟨" src/*.js".toList, by simp, hsrc⟩⟩

end IgnoreSet

end ImportTrail
