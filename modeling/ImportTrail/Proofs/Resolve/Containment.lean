import ImportTrail.Proofs.Disk.Walk
import ImportTrail.Proofs.Resolve.Probes
import ImportTrail.Proofs.Scan.Spelling

/-!
What a resolved specifier can lead to, for every specifier, every directory and every disk.

* `include?_canonical`, `python?_canonical` — included names and dotted names lead to canonical paths only;
* `ThroughDots` — how a script specifier leaves the canonical form: its file name is a dot or two dots in front of an
  extension, and the stem is taken for a directory with an index file;
* `Collapses` — how a local path leaves it: the directory comes to nothing, and `/mod.rs` is asked for on the disk;
* `resolve?_not_canonical_iff` — there is no other way, in any family;
* `python?_include?_contained` — the answers for dotted and included names stay in the project;
* `rust?_contained_iff` — the answers for a local path stay in the project exactly where it does not collapse.
-/

namespace ImportTrail.Resolve

open Text ImportTrail.Path Project

variable {p : Project} {spec dir path q : Text}

/-! ### First files -/

/-- Candidates that are canonical wherever they are files give way to a first file that is not. -/
theorem firstFile?_append_not_canonical {as bs : List Text} (has : ∀ a ∈ as, p.hasFile a = true → IsCanonical a)
    (hq : ¬ IsCanonical q) :
    p.firstFile? (as ++ bs) = some q ↔ p.firstFile? as = none ∧ p.firstFile? bs = some q := by
  rw [firstFile?_append, Option.or_eq_some_iff]
  constructor
  · rintro (h | h)
    · obtain ⟨hmem, hfile⟩ := mem_of_firstFile? h
      exact absurd (has q hmem hfile) hq
    · exact h
  · exact Or.inr

/-- A path by itself: the root of the project is no file. -/
theorem canonical_of_firstFile?_single (hpath : Path.resolve? dir spec = some path)
    (h : p.firstFile? [path] = some q) : IsCanonical q := by
  obtain ⟨hmem, hfile⟩ := mem_of_firstFile? h
  rw [List.mem_singleton.1 hmem] at hfile ⊢
  rcases resolve?_canonical hpath with rfl | hcan
  · rw [hasFile_nil] at hfile
    cases hfile
  · exact hcan

theorem canonical_of_firstFile?_pair {a b : Text} (ha : '/' ∉ a) (hb : IsCanonical b) (hpath : IsCanonical path)
    (h : p.firstFile? [path ++ a, path ++ '/' :: b] = some q) : IsCanonical q := by
  have hmem := (mem_of_firstFile? h).1
  simp only [List.mem_cons, List.not_mem_nil, or_false] at hmem
  rcases hmem with rfl | rfl
  · exact hpath.append_text ha
  · exact isCanonical_append_slash.2 ⟨hpath, hb⟩

/-! ### C -/

theorem include?_canonical (h : include? p spec dir = some q) : IsCanonical q := by
  unfold include? at h
  split at h
  · obtain ⟨path, hpath, hq⟩ := Option.bind_eq_some_iff.1 h
    exact canonical_of_firstFile?_single hpath hq
  · cases h

/-! ### Python -/

/-- The parts of a dotted name are neither empty nor do they hold dots. -/
theorem mem_dottedParts {s part : Text} (h : part ∈ dottedParts s) : part ≠ [] ∧ '.' ∉ part := by
  obtain ⟨hmem, hne⟩ := List.mem_filter.1 h
  exact ⟨by simpa using hne, notMem_of_mem_splitOn hmem⟩

theorem dot_notMem_ofNames {parts : List Text} (h : ∀ part ∈ parts, '.' ∉ part) : '.' ∉ ofNames parts := by
  intro hmem
  obtain ⟨part, hpart, hdot⟩ := (mem_joinWith (by decide)).1 hmem
  exact h part hpart hdot

theorem pythonModule?_canonical {parts : List Text} (hparts : ∀ part ∈ parts, part ≠ [] ∧ '.' ∉ part)
    (h : pythonModule? p dir parts = some q) : IsCanonical q := by
  unfold pythonModule? at h
  split at h
  · obtain ⟨path, hpath, hq⟩ := Option.bind_eq_some_iff.1 h
    exact canonical_of_firstFile?_single hpath hq
  · rename_i hne
    obtain ⟨path, hpath, hq⟩ := Option.bind_eq_some_iff.1 h
    have hdot := dot_notMem_ofNames fun part hpart => (hparts part hpart).2
    have hnil : ofNames parts ≠ [] := by
      obtain ⟨part, rest, rfl⟩ := List.exists_cons_of_ne_nil (by simpa using hne : parts ≠ [])
      have := (hparts part List.mem_cons_self).1
      cases rest <;> simp [ofNames, joinWith, List.intercalate_cons_cons, this]
    exact canonical_of_firstFile?_pair (by decide) (by decide) (resolve?_canonical_of_noDots hnil hdot hpath) hq

/-- However it is written, a dotted name is answered by a module somewhere in the project. -/
theorem exists_pythonModule?_of_python? (h : python? p spec dir = some q) :
    ∃ base parts, (∀ part ∈ parts, part ≠ [] ∧ '.' ∉ part) ∧ pythonModule? p base parts = some q := by
  unfold python? at h
  split at h
  · obtain ⟨base, -, hq⟩ := Option.bind_eq_some_iff.1 h
    -- the last part may be a name inside the module of the others
    rcases Option.or_eq_some_iff.1 ((Option.orElse_eq_or ..).symm.trans hq) with hq | ⟨-, hq⟩
    · exact ⟨base, _, fun _ => mem_dottedParts, hq⟩
    · split at hq
      · cases hq
      · exact ⟨base, _, fun _ hpart => mem_dottedParts (List.dropLast_subset _ hpart), hq⟩
  · unfold pythonAbsolute? at h
    split at h
    · cases h
    · rename_i first rest hparts
      split at h
      · exact ⟨[], _, fun _ hpart => mem_dottedParts (hparts ▸ hpart), h⟩
      · cases h

theorem python?_canonical (h : python? p spec dir = some q) : IsCanonical q := by
  obtain ⟨base, parts, hparts, hq⟩ := exists_pythonModule?_of_python? h
  exact pythonModule?_canonical hparts hq

/-! ### JavaScript -/

theorem scriptExtensions_plain : ∀ ext ∈ scriptExtensions, '/' ∉ ext ∧ IsPlain ext ∧ 3 ≤ ext.length := by decide

theorem index_plain : ∀ ext ∈ scriptExtensions, IsCanonical ("index".toList ++ ext) := by decide

/-- No extension ends with another, so a path has at most one stem. -/
theorem eq_of_append_scriptExtension {s t a b : Text} (ha : a ∈ scriptExtensions) (hb : b ∈ scriptExtensions)
    (h : s ++ a = t ++ b) : s = t ∧ a = b := by
  have suffix : ∀ a ∈ scriptExtensions, ∀ b ∈ scriptExtensions, a <:+ b → a = b := by decide
  have hab : a = b := by
    rcases List.suffix_or_suffix_of_suffix (List.suffix_append s a) (h ▸ List.suffix_append t b) with hs | hs
    · exact suffix a ha b hb hs
    · exact (suffix b hb a ha hs).symm
  subst hab
  exact ⟨List.append_cancel_right h, rfl⟩

theorem stem?_eq_some {s : Text} :
    stem? path = some s ↔ fileName s ≠ [] ∧ ∃ ext ∈ scriptExtensions, path = s ++ ext := by
  unfold stem?
  rw [Option.filter_eq_some_iff]
  have hname : (!s.isEmpty && !endsWith s ['/']) = true ↔ fileName s ≠ [] := by
    rw [Ne, fileName_eq_nil_iff]
    simp
  rw [hname, and_comm]
  refine and_congr_right fun _ => ?_
  constructor
  · intro h
    obtain ⟨ext, hext, hs⟩ := List.exists_of_findSome?_eq_some h
    exact ⟨ext, hext, before?_eq_some.1 hs⟩
  · rintro ⟨ext, hext, rfl⟩
    cases hf : scriptExtensions.findSome? fun e => before? e (s ++ ext) with
    | none =>
      have := List.findSome?_eq_none_iff.1 hf ext hext
      rw [before?_eq_some.2 rfl] at this
      cases this
    | some t =>
      obtain ⟨e, he, ht⟩ := List.exists_of_findSome?_eq_some hf
      rw [(eq_of_append_scriptExtension hext he (before?_eq_some.1 ht)).1]

/-- What the names of a path are when its stem has a file name: only that name may be no name by itself. -/
theorem pieces_of_stem {s ext : Text} (hext : ext ∈ scriptExtensions) (h : IsCanonical (s ++ ext)) :
    ∃ init, splitOn '/' s = init ++ [fileName s] ∧ ∀ piece ∈ init, IsPlain piece := by
  obtain ⟨init, hs⟩ := splitOn_eq_concat_fileName s
  obtain ⟨init', last, hs', hse⟩ := splitOn_append_of_notMem (scriptExtensions_plain ext hext).1 s
  obtain ⟨rfl, -⟩ := List.append_inj' (hs.symm.trans hs') rfl
  refine ⟨init, hs, fun piece hpiece => isCanonical_iff.1 h piece ?_⟩
  rw [hse]
  exact List.mem_append_left _ hpiece

theorem isCanonical_stem_iff {s ext : Text} (hext : ext ∈ scriptExtensions) (hname : fileName s ≠ [])
    (h : IsCanonical (s ++ ext)) : IsCanonical s ↔ ¬ (fileName s = ['.'] ∨ fileName s = ['.', '.']) := by
  obtain ⟨init, hs, hinit⟩ := pieces_of_stem hext h
  rw [isCanonical_iff, hs, not_or]
  constructor
  · intro hall
    exact (hall (fileName s) (by simp)).2
  · intro hdots piece hpiece
    rcases List.mem_append.1 hpiece with hi | hl
    · exact hinit piece hi
    · rw [List.mem_singleton.1 hl]
      exact ⟨hname, hdots⟩

/-- Another extension on a stem makes a name in any case: the two together are longer than dots. -/
theorem isCanonical_stem_append {s ext ext' : Text} (hext : ext ∈ scriptExtensions) (hext' : ext' ∈ scriptExtensions)
    (h : IsCanonical (s ++ ext)) : IsCanonical (s ++ ext') := by
  obtain ⟨init, hs, hinit⟩ := pieces_of_stem hext h
  obtain ⟨hslash, -, hlen⟩ := scriptExtensions_plain ext' hext'
  obtain ⟨init', last, hs', hse⟩ := splitOn_append_of_notMem hslash s
  obtain ⟨rfl, -⟩ := List.append_inj' (hs.symm.trans hs') rfl
  rw [isCanonical_iff, hse]
  intro piece hpiece
  rcases List.mem_append.1 hpiece with hi | hl
  · exact hinit piece hi
  · rw [List.mem_singleton.1 hl]
    apply isPlain_of_length
    rw [List.length_append]
    omega

/-- The candidates before those of the stem are canonical, the path itself only if it is a file. -/
theorem canonical_of_mem_written (hpath : path = [] ∨ IsCanonical path) {a : Text}
    (ha : a ∈ path :: withExtensions path ++ indexFiles path) (hfile : p.hasFile a = true) : IsCanonical a := by
  have hext : ∀ {s}, s = [] ∨ IsCanonical s → ∀ a ∈ withExtensions s, IsCanonical a := by
    intro s hs a ha
    obtain ⟨ext, hext, rfl⟩ := List.mem_map.1 ha
    obtain ⟨hslash, hplain, -⟩ := scriptExtensions_plain ext hext
    rcases hs with rfl | hs
    · exact isCanonical_of_isPlain hplain hslash
    · exact hs.append_text hslash
  rcases List.mem_append.1 ha with ha | ha
  · rcases List.mem_cons.1 ha with rfl | ha
    · rcases hpath with rfl | hpath
      · rw [hasFile_nil] at hfile
        cases hfile
      · exact hpath
    · exact hext hpath a ha
  · unfold indexFiles at ha
    rcases hpath with rfl | hpath
    · exact hext (Or.inr (by decide)) a ha
    · rw [if_neg (by simpa using hpath.1)] at ha
      exact hext (Or.inr (isCanonical_append_slash.2 ⟨hpath, by decide⟩)) a ha

/-- The specifier leads to a path whose file name is a dot or two dots in front of an extension; no candidate for the
path is a file, none for its stem with an extension, and there is an index file where the stem leads as a directory. -/
def ThroughDots (p : Project) (spec dir q : Text) : Prop :=
  ∃ path stem ext, startsWith spec ['.'] = true ∧ Path.resolve? dir spec = some path ∧
    ext ∈ scriptExtensions ∧ path = stem ++ ext ∧ (fileName stem = ['.'] ∨ fileName stem = ['.', '.']) ∧
    p.firstFile? (path :: withExtensions path ++ indexFiles path ++ withExtensions stem) = none ∧
    p.firstFile? (withExtensions (stem ++ "/index".toList)) = some q

theorem scriptCandidates_of_stem {stem : Text} (h : stem? path = some stem) :
    scriptCandidates path = path :: withExtensions path ++ indexFiles path ++ withExtensions stem ++
      withExtensions (stem ++ "/index".toList) := by
  rw [scriptCandidates, h]
  simp

theorem isCanonical_index_iff {s ext : Text} (hext : ext ∈ scriptExtensions) :
    IsCanonical (s ++ "/index".toList ++ ext) ↔ IsCanonical s := by
  have e : s ++ "/index".toList ++ ext = s ++ '/' :: ("index".toList ++ ext) := by simp
  rw [e, isCanonical_append_slash]
  exact and_iff_left (index_plain ext hext)

theorem canonical_of_resolve?_stem {stem ext : Text} (hname : fileName stem ≠ [])
    (hpath : Path.resolve? dir spec = some (stem ++ ext)) : IsCanonical (stem ++ ext) := by
  refine (resolve?_canonical hpath).resolve_left fun hnil => ?_
  rw [(List.append_eq_nil_iff.1 hnil).1] at hname
  exact hname rfl

/-- A script specifier leads to a path that is not canonical exactly through dots. -/
theorem script?_not_canonical_iff : script? p spec dir = some q ∧ ¬ IsCanonical q ↔ ThroughDots p spec dir q := by
  constructor
  · rintro ⟨h, hq⟩
    unfold script? at h
    split at h
    · rename_i hdot
      obtain ⟨path, hpath, hq'⟩ := Option.bind_eq_some_iff.1 h
      have hwritten : ∀ a ∈ path :: withExtensions path ++ indexFiles path, p.hasFile a = true → IsCanonical a :=
        fun a ha => canonical_of_mem_written (resolve?_canonical hpath) ha
      cases hstem : stem? path with
      | none =>
        -- without a stem there are no candidates but those of the path itself
        rw [scriptCandidates, hstem, List.append_nil] at hq'
        obtain ⟨hmem, hfile⟩ := mem_of_firstFile? hq'
        exact absurd (hwritten q hmem hfile) hq
      | some stem =>
        obtain ⟨hname, ext, hext, rfl⟩ := stem?_eq_some.1 hstem
        have hcan := canonical_of_resolve?_stem hname hpath
        have hfront : ∀ a ∈ (stem ++ ext) :: withExtensions (stem ++ ext) ++ indexFiles (stem ++ ext) ++
            withExtensions stem, p.hasFile a = true → IsCanonical a := by
          intro a ha hfile
          rcases List.mem_append.1 ha with ha | ha
          · exact hwritten a ha hfile
          · obtain ⟨ext', hext', rfl⟩ := List.mem_map.1 ha
            exact isCanonical_stem_append hext hext' hcan
        -- so the answer is an index file behind the stem, and the stem itself is not canonical
        rw [scriptCandidates_of_stem hstem, firstFile?_append_not_canonical hfront hq] at hq'
        refine ⟨stem ++ ext, stem, ext, hdot, hpath, hext, rfl, ?_, hq'.1, hq'.2⟩
        obtain ⟨ext', hext', rfl⟩ := List.mem_map.1 (mem_of_firstFile? hq'.2).1
        rw [isCanonical_index_iff hext', isCanonical_stem_iff hext hname hcan, not_not] at hq
        exact hq
    · cases h
  · rintro ⟨path, stem, ext, hdot, hpath, hext, rfl, hdots, hnone, hsome⟩
    have hname : fileName stem ≠ [] := by
      rcases hdots with h | h <;> simp [h]
    have hstem : stem? (stem ++ ext) = some stem := stem?_eq_some.2 ⟨hname, ext, hext, rfl⟩
    have hcan := canonical_of_resolve?_stem hname hpath
    constructor
    · rw [script?, if_pos hdot, hpath, Option.bind_some, scriptCandidates_of_stem hstem, firstFile?_append,
        hnone, hsome]
      rfl
    · obtain ⟨ext', hext', rfl⟩ := List.mem_map.1 (mem_of_firstFile? hsome).1
      rw [isCanonical_index_iff hext', isCanonical_stem_iff hext hname hcan, not_not]
      exact hdots

/-! ### Rust -/

/-- Of the first `n` parts of a path under `base`, some lead to the root of the project itself: all longer beginnings of
the path have no module, `.rs` is no file of the project and `/mod.rs` is one of the disk. -/
def CollapsesUnder (p : Project) (base : Text) (parts : List Text) (n : ℕ) : Prop :=
  ∃ k, 0 < k ∧ k ≤ n ∧ Path.resolve? base (ofNames (parts.take k)) = some [] ∧
    (∀ m, k < m → m ≤ n → ∃ path, Path.resolve? base (ofNames (parts.take m)) = some path ∧
      p.firstFile? (moduleFiles path) = none) ∧
    p.hasFile ".rs".toList = false ∧ p.disk.hasFile "/mod.rs".toList = true

/-- A local path collapses under the first of its starting directories that has an answer. -/
def Collapses (p : Project) (spec dir : Text) : Prop :=
  ∃ starts parts before base after, pathStart? spec dir = some (starts, parts) ∧
    starts = before ++ base :: after ∧ (∀ b ∈ before, longestModule? p b parts parts.length = none) ∧
    CollapsesUnder p base parts parts.length

theorem canonical_of_moduleFiles (hpath : IsCanonical path) (h : p.firstFile? (moduleFiles path) = some q) :
    IsCanonical q := canonical_of_firstFile?_pair (by decide) (by decide) hpath h

/-- The module files of the root of the project: the second is not even written as one of the project. -/
theorem firstFile?_moduleFiles_nil : p.firstFile? (moduleFiles []) =
    if p.hasFile ".rs".toList then some ".rs".toList
    else if p.disk.hasFile "/mod.rs".toList then some "/mod.rs".toList else none := by
  have hmod : p.hasFile "/mod.rs".toList = p.disk.hasFile "/mod.rs".toList := rfl
  rw [← hmod]
  simp only [firstFile?, moduleFiles, List.nil_append, List.find?_cons, List.find?_nil]
  cases p.hasFile ".rs".toList <;> cases p.hasFile "/mod.rs".toList <;> rfl

/-- With one part more, a path collapses there, or it has no module there and collapses further down. -/
theorem collapsesUnder_succ_iff {base : Text} {parts : List Text} {n : ℕ} :
    CollapsesUnder p base parts (n + 1) ↔
      (Path.resolve? base (ofNames (parts.take (n + 1))) = some [] ∧ p.hasFile ".rs".toList = false ∧
        p.disk.hasFile "/mod.rs".toList = true) ∨
      ∃ path, Path.resolve? base (ofNames (parts.take (n + 1))) = some path ∧ p.firstFile? (moduleFiles path) = none ∧
        CollapsesUnder p base parts n := by
  constructor
  · rintro ⟨k, hk, hkn, hroot, hlonger, hrs, hmod⟩
    rcases Nat.lt_or_eq_of_le hkn with hlt | rfl
    · obtain ⟨path, hpath, hnone⟩ := hlonger (n + 1) hlt (Nat.le_refl _)
      refine Or.inr ⟨path, hpath, hnone, k, hk, by omega, hroot, fun m hkm hmn => ?_, hrs, hmod⟩
      exact hlonger m hkm (by omega)
    · exact Or.inl ⟨hroot, hrs, hmod⟩
  · rintro (⟨hroot, hrs, hmod⟩ | ⟨path, hpath, hnone, k, hk, hkn, hroot, hlonger, hrs, hmod⟩)
    · exact ⟨n + 1, by omega, Nat.le_refl _, hroot, fun m h h' => by omega, hrs, hmod⟩
    · refine ⟨k, hk, by omega, hroot, fun m hkm hmn => ?_, hrs, hmod⟩
      rcases Nat.lt_or_eq_of_le hmn with hlt | rfl
      · exact hlonger m hkm (by omega)
      · exact ⟨path, hpath, hnone⟩

theorem longestModule?_not_canonical_iff {base : Text} {parts : List Text} {n : ℕ} :
    longestModule? p base parts n = some q ∧ ¬ IsCanonical q ↔
      q = "/mod.rs".toList ∧ CollapsesUnder p base parts n := by
  induction n with
  | zero =>
    constructor
    · rintro ⟨h, -⟩
      cases h
    · rintro ⟨-, k, hk, hk0, -⟩
      omega
  | succ n ih =>
    rw [longestModule?_succ, collapsesUnder_succ_iff]
    constructor
    · rintro ⟨h, hq⟩
      obtain ⟨path, hpath, h⟩ := Option.bind_eq_some_iff.1 h
      rcases Option.or_eq_some_iff.1 h with hfile | ⟨hnone, h⟩
      · -- a module of a path with names in it is canonical, so the path has come to nothing
        rcases resolve?_canonical hpath with rfl | hcan
        · rw [firstFile?_moduleFiles_nil] at hfile
          split at hfile
          · cases hfile
            exact absurd (by decide) hq
          · rename_i hrs
            split at hfile
            · cases hfile
              exact ⟨rfl, Or.inl ⟨hpath, by simpa using hrs, ‹_›⟩⟩
            · cases hfile
        · exact absurd (canonical_of_moduleFiles hcan hfile) hq
      · obtain ⟨rfl, hunder⟩ := ih.1 ⟨h, hq⟩
        exact ⟨rfl, Or.inr ⟨path, hpath, hnone, hunder⟩⟩
    · rintro ⟨rfl, ⟨hroot, hrs, hmod⟩ | ⟨path, hpath, hnone, hunder⟩⟩
      · refine ⟨?_, by decide⟩
        rw [hroot, Option.bind_some, firstFile?_moduleFiles_nil, hrs, hmod]
        rfl
      · obtain ⟨h, hq⟩ := ih.2 ⟨rfl, hunder⟩
        exact ⟨by rw [hpath, Option.bind_some, hnone, Option.none_or, h], hq⟩

theorem isLocalPath_of_superDepth (h : (superDepth spec).1 ≠ 0) : Scan.Rust.isLocalPath spec = true := by
  unfold superDepth at h
  split at h
  · rename_i s
    exact Scan.Rust.isLocalPath_iff.2 ⟨"super".toList, by decide, s, rfl⟩
  · exact absurd rfl h

/-- Only a local path has a start. -/
theorem isLocalPath_of_pathStart? {start : List Text × List Text} (h : pathStart? spec dir = some start) :
    Scan.Rust.isLocalPath spec = true := by
  unfold pathStart? at h
  split at h
  · rename_i rest hrest
    refine Scan.Rust.isLocalPath_iff.2 ⟨"crate".toList, by decide, rest, ?_⟩
    rw [after?_eq_some.1 hrest]
    rfl
  · rename_i rest _ hrest
    refine Scan.Rust.isLocalPath_iff.2 ⟨"self".toList, by decide, rest, ?_⟩
    rw [after?_eq_some.1 hrest]
    rfl
  · by_contra hlocal
    have hzero : (superDepth spec).1 = 0 := by
      by_contra hn
      exact hlocal (isLocalPath_of_superDepth hn)
    simp [hzero] at h

/-- The file of a local path: the longest part of it that is a module, under its first directory that has one. -/
def pathFile? (p : Project) (spec dir : Text) : Option Text :=
  (pathStart? spec dir).bind fun start =>
    start.1.findSome? fun base => longestModule? p base start.2 start.2.length

theorem rust?_of_isLocalPath (h : Scan.Rust.isLocalPath spec = true) : rust? p spec dir = pathFile? p spec dir := by
  unfold rust?
  rw [Scan.Rust.includedPath?_of_isLocalPath h, Scan.Rust.isName_of_isLocalPath h]
  rfl

/-- The module of a declaration is asked for by its name, which has no dots. -/
theorem canonical_of_isName (hname : Scan.Rust.isName spec = true) (hpath : Path.resolve? dir spec = some path)
    (h : p.firstFile? (moduleFiles path) = some q) : IsCanonical q := by
  obtain ⟨hne, hchars⟩ := Scan.Rust.isName_chars hname
  have hdot : '.' ∉ spec := by
    intro hmem
    have := hchars _ hmem
    revert this
    decide
  exact canonical_of_moduleFiles (resolve?_canonical_of_noDots hne hdot hpath) h

/-- A specifier of Rust leads to a path that is not canonical exactly where it collapses, and then to one path only. -/
theorem rust?_not_canonical_iff :
    rust? p spec dir = some q ∧ ¬ IsCanonical q ↔ q = "/mod.rs".toList ∧ Collapses p spec dir := by
  constructor
  · rintro ⟨h, hq⟩
    unfold rust? at h
    split at h
    · obtain ⟨path, hpath, hfile⟩ := Option.bind_eq_some_iff.1 h
      exact absurd (canonical_of_firstFile?_single hpath hfile) hq
    · split at h
      · obtain ⟨path, hpath, hfile⟩ := Option.bind_eq_some_iff.1 h
        exact absurd (canonical_of_isName ‹_› hpath hfile) hq
      · obtain ⟨⟨starts, parts⟩, hstart, hfind⟩ := Option.bind_eq_some_iff.1 h
        obtain ⟨before, base, after, rfl, hbase, hbefore⟩ := List.findSome?_eq_some_iff.1 hfind
        obtain ⟨rfl, hunder⟩ := longestModule?_not_canonical_iff.1 ⟨hbase, hq⟩
        exact ⟨rfl, _, parts, before, base, after, hstart, rfl, hbefore, hunder⟩
  · rintro ⟨rfl, starts, parts, before, base, after, hstart, rfl, hbefore, hunder⟩
    obtain ⟨hbase, hq⟩ := longestModule?_not_canonical_iff.2 ⟨rfl, hunder⟩
    refine ⟨?_, hq⟩
    rw [rust?_of_isLocalPath (isLocalPath_of_pathStart? hstart), pathFile?, hstart, Option.bind_some]
    exact List.findSome?_eq_some_iff.2 ⟨before, base, after, rfl, hbase, hbefore⟩

/-! ### Containment -/

/-- A specifier leads to a path that is not canonical. Included names and dotted names never do. -/
def Astray (f : Family) (p : Project) (spec dir q : Text) : Prop :=
  match f with
  | .javaScript => ThroughDots p spec dir q
  | .rust => q = "/mod.rs".toList ∧ Collapses p spec dir
  | .c | .python => False

theorem resolve?_not_canonical_iff {f : Family} :
    f.resolve? p spec dir = some q ∧ ¬ IsCanonical q ↔ Astray f p spec dir q := by
  cases f with
  | javaScript => exact script?_not_canonical_iff
  | c => exact ⟨fun h => h.2 (include?_canonical h.1), False.elim⟩
  | python => exact ⟨fun h => h.2 (python?_canonical h.1), False.elim⟩
  | rust => exact rust?_not_canonical_iff

/-- Dotted names and included names are answered by canonical paths of files below the root, whatever the specifier and
the directory are. -/
theorem python?_include?_contained (p : Project) (spec dir : Text) :
    (∀ q, python? p spec dir = some q → IsCanonical q ∧ p.Contains q) ∧
      ∀ q, include? p spec dir = some q → IsCanonical q ∧ p.Contains q := by
  constructor
  · intro q hq
    have hcan : IsCanonical q := python?_canonical hq
    exact ⟨hcan, contains_of_hasFile hcan (mem_of_python? hq).2⟩
  · intro q hq
    have hcan : IsCanonical q := include?_canonical hq
    exact ⟨hcan, contains_of_hasFile hcan (mem_of_include? hq).2⟩

/-- A project in `/p` with a package that holds a header. -/
def mixedPackage : Project :=
  ⟨⟨[([['p']], .directory), ([['p'], "pkg".toList], .directory),
    ([['p'], "pkg".toList, "__init__.py".toList], .file ⟨#[]⟩), ([['p'], "pkg".toList, "x.h".toList], .file ⟨#[]⟩)]⟩,
    "/p".toList⟩

/-- A dotted name that is an absolute path is passed over for its package; a header is found from a directory that is
written with detours. -/
theorem mixedPackage_contained :
    python? mixedPackage "./etc//b".toList "pkg".toList = some "pkg/__init__.py".toList ∧
      mixedPackage.Contains "pkg/__init__.py".toList ∧
      include? mixedPackage "./../pkg//x.h".toList "a/../pkg/".toList = some "pkg/x.h".toList ∧
      mixedPackage.Contains "pkg/x.h".toList := by
  have hmodule : python? mixedPackage "./etc//b".toList "pkg".toList = some "pkg/__init__.py".toList := by decide
  have hheader : include? mixedPackage "./../pkg//x.h".toList "a/../pkg/".toList = some "pkg/x.h".toList := by decide
  exact ⟨hmodule, ((python?_include?_contained _ _ _).1 _ hmodule).2, hheader,
    ((python?_include?_contained _ _ _).2 _ hheader).2⟩

/-- The answers for a specifier of Rust are canonical paths of files below the root exactly where it does not collapse:
`/mod.rs` lies outside of every project, whatever its root. -/
theorem rust?_contained_iff (p : Project) (spec dir : Text) :
    (∀ q, rust? p spec dir = some q → IsCanonical q ∧ p.Contains q) ↔ ¬ Collapses p spec dir := by
  constructor
  · intro h hc
    obtain ⟨hq, hnot⟩ := rust?_not_canonical_iff.2 ⟨rfl, hc⟩
    exact hnot (h _ hq).1
  · intro hc q hq
    have hcan : IsCanonical q := by
      by_contra hnot
      exact hc (rust?_not_canonical_iff.1 ⟨hq, hnot⟩).2
    exact ⟨hcan, contains_of_hasFile hcan (mem_of_rust? hq).2⟩

/-- An empty project in `/p`, on a disk with a file `mod.rs` at its top. -/
def besideModule : Project := ⟨⟨[([['p']], .directory), (["mod.rs".toList], .file ⟨#[]⟩)]⟩, "/p".toList⟩

theorem rust?_dot_absolute :
    rust? besideModule "crate::.".toList [] = some "/mod.rs".toList ∧ isAbsolute "/mod.rs".toList = true ∧
      ¬ IsCanonical "/mod.rs".toList ∧ ¬ besideModule.Contains "/mod.rs".toList := by
  refine ⟨by decide, by decide, by decide, ?_⟩
  rintro ⟨here, below, content, hroot, -, hplace, -⟩
  have hhere : some here = some [['p']] := hroot.symm.trans (by decide)
  cases hhere
  have hthere : some ([['p']] ++ below) = some ["mod.rs".toList] := hplace.symm.trans (by decide)
  simp at hthere

end ImportTrail.Resolve
