import ImportTrail.Proofs.Resolve.Containment
import ImportTrail.Proofs.Resolve.Directory

/-!
In which order the candidates of a script specifier are tried.

* `fileName_of_resolve?` — a specifier that ends with a name gives its path that file name;
* `writtenStem?`, `writtenCandidates` — the stem of a specifier that is written with an extension, and the candidates in
  the order of the specifier;
* `writtenStem?_of_resolve?` — how far the stem of a path is the stem of its specifier;
* `InWrittenOrder` — the first file among these candidates is the answer;
* `Overreaches` — the answer comes from a stem that the specifier does not have;
* `script?_inWrittenOrder_iff` — there is no other way to leave the order.
-/

namespace ImportTrail.Path

open Text

/-! ### File names -/

theorem fileName_append {e : Text} (he : '/' ∉ e) (s : Text) : fileName (s ++ e) = fileName s ++ e := by
  rw [fileName, List.reverse_append, List.takeWhile_append_of_pos (ne_slash_of_mem_reverse he), List.reverse_append,
    List.reverse_reverse, fileName]

theorem fileName_ofNames {n : Text} (hn : '/' ∉ n) (ns : List Text) : fileName (ofNames (ns ++ [n])) = n := by
  rcases eq_or_ne ns [] with rfl | hne
  · rw [List.nil_append, ofNames_singleton]
    exact fileName_append hn []
  · have hslash : fileName (ofNames ns ++ ['/']) = [] := by simp [fileName]
    rw [ofNames_append hne (by simp), ofNames_singleton, ← List.singleton_append, ← List.append_assoc, fileName_append hn,
      hslash, List.nil_append]

/-- Only what is written last can change the file name: a name keeps it. -/
theorem fileName_of_resolve? {dir spec path : Text} (hpath : resolve? dir spec = some path)
    (hname : IsPlain (fileName spec)) : fileName path = fileName spec := by
  obtain ⟨ns, hns, rfl⟩ := Option.map_eq_some_iff.1 hpath
  obtain ⟨front, hfront⟩ := components_append dir spec
  obtain ⟨init, hinit⟩ := splitOn_eq_concat_fileName spec
  have hbody : body spec = init.filterMap Component.ofPiece? ++ [.name (fileName spec)] := by
    have hlast : Component.ofPiece? (fileName spec) = some (.name (fileName spec)) := ofPiece?_eq_name.2 ⟨rfl, hname⟩
    rw [body, hinit, List.filterMap_append, List.filterMap_cons, hlast]
    rfl
  have hclean : clean (components (append dir spec)) =
      clean (front ++ init.filterMap Component.ofPiece?) ++ [.name (fileName spec)] := by
    rw [hfront, hbody, ← List.append_assoc, clean, List.foldl_append, foldl_cleanStep_of_names (by simp), clean]
    simp
  rw [hclean] at hns
  obtain ⟨ms, hms, ks, rfl⟩ := names?_append hns
  obtain rfl : [fileName spec] = ms := Option.some.inj hms
  exact fileName_ofNames (slash_notMem_fileName spec) ks

end ImportTrail.Path

namespace ImportTrail.Resolve

open Text ImportTrail.Path Project

variable {p : Project} {spec dir path stem ext q : Text}

/-! ### The order of the specifier -/

/-- The candidates of a path as it is written: the path, with each extension, and as a directory with each index file. -/
def ownCandidates (path : Text) : List Text := path :: withExtensions path ++ indexFiles path

/-- The candidates of a stem: with each extension, and as a directory with each index file. -/
def stemCandidates (stem : Text) : List Text := withExtensions stem ++ withExtensions (stem ++ "/index".toList)

/-- The stem of a path by its specifier: the specifier ends with an extension, and without it a name is left of the
file name of the path. -/
def writtenStem? (spec path : Text) : Option Text :=
  (scriptExtensions.find? fun ext => endsWith spec ext).bind fun ext =>
    (before? ext path).filter fun s => IsPlain (fileName s)

/-- The candidates for a path in the order of its specifier. -/
def writtenCandidates (spec path : Text) : List Text :=
  ownCandidates path ++ (writtenStem? spec path).elim [] stemCandidates

/-- The answer for a specifier is the first file in the order of the specifier, there is none exactly where there is no
such file, and a specifier without an extension is not answered by a stem. -/
structure InWrittenOrder (p : Project) (spec dir : Text) : Prop where
  answer : script? p spec dir = (Path.resolve? dir spec).bind fun path => p.firstFile? (writtenCandidates spec path)
  none_iff : script? p spec dir = none ↔ Path.resolve? dir spec = none ∨
    ∃ path, Path.resolve? dir spec = some path ∧ ∀ c ∈ writtenCandidates spec path, p.hasFile c = false
  without_extension : (∀ ext ∈ scriptExtensions, endsWith spec ext = false) → ∀ q, script? p spec dir = some q →
    ∃ path, Path.resolve? dir spec = some path ∧ q ∈ ownCandidates path

theorem endsWith_iff {s e : Text} : endsWith s e = true ↔ ∃ r, s = r ++ e := by
  rw [endsWith, Option.isSome_iff_exists]
  simp only [before?_eq_some]

theorem find?_extension_eq_some :
    (scriptExtensions.find? fun ext => endsWith spec ext) = some ext ↔ ext ∈ scriptExtensions ∧ endsWith spec ext = true := by
  constructor
  · intro h
    exact ⟨List.mem_of_find?_eq_some h, List.find?_some h⟩
  · rintro ⟨hext, hend⟩
    cases hf : scriptExtensions.find? fun ext => endsWith spec ext with
    | none => exact absurd hend (List.find?_eq_none.1 hf ext hext)
    | some ext' =>
      obtain ⟨r, hr⟩ := endsWith_iff.1 hend
      obtain ⟨r', hr'⟩ := endsWith_iff.1 (List.find?_some hf)
      rw [(eq_of_append_scriptExtension (List.mem_of_find?_eq_some hf) hext (hr'.symm.trans hr)).2]

theorem writtenStem?_eq_some :
    writtenStem? spec path = some stem ↔ IsPlain (fileName stem) ∧
      ∃ ext ∈ scriptExtensions, endsWith spec ext = true ∧ path = stem ++ ext := by
  rw [writtenStem?, Option.bind_eq_some_iff]
  simp only [find?_extension_eq_some, Option.filter_eq_some_iff, before?_eq_some, decide_eq_true_eq]
  constructor
  · rintro ⟨ext, ⟨hext, hend⟩, rfl, hplain⟩
    exact ⟨hplain, ext, hext, hend, rfl⟩
  · rintro ⟨hplain, ext, hext, hend, rfl⟩
    exact ⟨ext, ⟨hext, hend⟩, rfl, hplain⟩

theorem isPlain_of_endsWith (hext : ext ∈ scriptExtensions) (hend : endsWith spec ext = true) :
    IsPlain (fileName spec) := by
  obtain ⟨r, rfl⟩ := endsWith_iff.1 hend
  obtain ⟨hslash, -, hlen⟩ := scriptExtensions_plain ext hext
  apply isPlain_of_length
  rw [fileName_append hslash, List.length_append]
  omega

theorem endsWith_of_fileName {s e : Text} (h : endsWith (fileName s) e = true) : endsWith s e = true := by
  obtain ⟨r, hr⟩ := endsWith_iff.1 h
  rw [endsWith_iff]
  rcases eq_fileName_or_append s with hs | ⟨t, hs⟩
  · exact ⟨r, hs.trans hr⟩
  · exact ⟨t ++ '/' :: r, by rw [hs, hr]; simp⟩

/-- The stem of a path belongs to its specifier where the specifier ends with a name and the stem does. -/
theorem writtenStem?_of_resolve? (hpath : Path.resolve? dir spec = some path) :
    writtenStem? spec path =
      (stem? path).filter fun s => IsPlain (fileName spec) ∧ IsPlain (fileName s) := by
  ext stem
  rw [writtenStem?_eq_some, Option.filter_eq_some_iff, stem?_eq_some, decide_eq_true_eq]
  constructor
  · rintro ⟨hplain, ext, hext, hend, rfl⟩
    exact ⟨⟨hplain.1, ext, hext, rfl⟩, isPlain_of_endsWith hext hend, hplain⟩
  · rintro ⟨⟨-, ext, hext, rfl⟩, hspec, hplain⟩
    refine ⟨hplain, ext, hext, endsWith_of_fileName ?_, rfl⟩
    -- the path takes its file name from the specifier, and with it the extension
    rw [← fileName_of_resolve? hpath hspec, fileName_append (scriptExtensions_plain ext hext).1]
    exact endsWith_iff.2 ⟨_, rfl⟩

/-! ### Leaving the order -/

/-- The specifier leads to a path that ends with an extension, and there is no file for it as it is written; there is one
for its stem, although the specifier ends with a slash, `.` or `..` and so has no extension, or the stem does not end
with a name. -/
def Overreaches (p : Project) (spec dir : Text) : Prop :=
  startsWith spec ['.'] = true ∧ ∃ path stem ext, Path.resolve? dir spec = some path ∧
    ext ∈ scriptExtensions ∧ path = stem ++ ext ∧ fileName stem ≠ [] ∧
    (¬ IsPlain (fileName spec) ∨ ¬ IsPlain (fileName stem)) ∧
    p.firstFile? (ownCandidates path) = none ∧ ∃ q, p.firstFile? (stemCandidates stem) = some q

theorem scriptCandidates_eq (path : Text) :
    scriptCandidates path = ownCandidates path ++ (stem? path).elim [] stemCandidates := by
  rw [scriptCandidates, ownCandidates]
  cases stem? path <;> rfl

theorem script?_eq (hdot : startsWith spec ['.'] = true) :
    script? p spec dir = (Path.resolve? dir spec).bind fun path =>
      (p.firstFile? (ownCandidates path)).or (p.firstFile? ((stem? path).elim [] stemCandidates)) := by
  rw [script?, if_pos hdot]
  simp only [scriptCandidates_eq, firstFile?_append]

/-- Whatever follows from the first file being the answer. -/
theorem inWrittenOrder_of_answer
    (h : script? p spec dir = (Path.resolve? dir spec).bind fun path => p.firstFile? (writtenCandidates spec path)) :
    InWrittenOrder p spec dir := by
  refine ⟨h, ?_, ?_⟩
  · rw [h, Option.bind_eq_none_iff]
    simp only [firstFile?, List.find?_eq_none, Bool.not_eq_true]
    cases Path.resolve? dir spec <;> simp
  · intro hnone q hq
    rw [h, Option.bind_eq_some_iff] at hq
    obtain ⟨path, hpath, hq⟩ := hq
    have hstem : writtenStem? spec path = none := by
      rw [Option.eq_none_iff_forall_ne_some]
      intro stem hstem
      obtain ⟨-, ext, hext, hend, -⟩ := writtenStem?_eq_some.1 hstem
      rw [hnone ext hext] at hend
      cases hend
    rw [writtenCandidates, hstem, Option.elim_none, List.append_nil] at hq
    exact ⟨path, hpath, (mem_of_firstFile? hq).1⟩

/-- **A script specifier is answered in its own order exactly where it does not overreach.** -/
theorem script?_inWrittenOrder_iff (p : Project) (spec dir : Text) :
    (startsWith spec ['.'] = true → InWrittenOrder p spec dir) ↔ ¬ Overreaches p spec dir := by
  constructor
  · rintro h ⟨hdot, path, stem, ext, hpath, hext, rfl, hname, hplain, hown, q, hq⟩
    have hstem : stem? (stem ++ ext) = some stem := stem?_eq_some.2 ⟨hname, ext, hext, rfl⟩
    have hwritten : writtenStem? spec (stem ++ ext) = none := by
      rw [writtenStem?_of_resolve? hpath, hstem, Option.filter_some, if_neg]
      rw [decide_eq_true_eq, not_and_or]
      exact hplain
    have hanswer := (h hdot).answer
    rw [script?_eq hdot, hpath, Option.bind_some, Option.bind_some, writtenCandidates, hwritten, hstem, hown] at hanswer
    rw [Option.elim_some, Option.elim_none, List.append_nil, hq, hown] at hanswer
    cases hanswer
  · intro h hdot
    apply inWrittenOrder_of_answer
    rw [script?_eq hdot]
    cases hpath : Path.resolve? dir spec with
    | none => rfl
    | some path =>
      rw [Option.bind_some, Option.bind_some, writtenCandidates, firstFile?_append, writtenStem?_of_resolve? hpath]
      cases hstem : stem? path with
      | none => rfl
      | some stem =>
        obtain ⟨hname, ext, hext, hext'⟩ := stem?_eq_some.1 hstem
        by_cases hplain : IsPlain (fileName spec) ∧ IsPlain (fileName stem)
        · rw [Option.filter_some, if_pos (by simpa using hplain)]
        · rw [Option.filter_some, if_neg (by simpa using hplain)]
          cases hown : p.firstFile? (ownCandidates path) with
          | some q => rfl
          | none =>
            -- a file for the stem would be the answer, and the specifier would overreach
            cases hq : p.firstFile? (stemCandidates stem) with
            | none => exact hq
            | some q =>
              exact absurd ⟨hdot, path, stem, ext, hpath, hext, hext', hname, not_and_or.1 hplain, hown, q, hq⟩ h

/-- A project in `/p` with a directory `a.js` and a file `a.ts` beside it. -/
def besideDirectory : Project :=
  ⟨⟨[([['p']], .directory), ([['p'], "a.js".toList], .directory),
    ([['p'], "a.js".toList, "main.js".toList], .file ⟨#[]⟩), ([['p'], "a.ts".toList], .file ⟨#[]⟩)]⟩, "/p".toList⟩

theorem script?_dot_overreaches :
    script? besideDirectory ['.'] "a.js".toList = some "a.ts".toList ∧
      (∀ ext ∈ scriptExtensions, endsWith ['.'] ext = false) ∧
      ¬ (startsWith ['.'] ['.'] = true → InWrittenOrder besideDirectory ['.'] "a.js".toList) := by
  have hanswer : script? besideDirectory ['.'] "a.js".toList = some "a.ts".toList := by decide
  have hnone : ∀ ext ∈ scriptExtensions, endsWith ['.'] ext = false := by decide
  refine ⟨hanswer, hnone, fun h => ?_⟩
  obtain ⟨path, hpath, hmem⟩ := (h rfl).without_extension hnone _ hanswer
  have hdir : some path = some "a.js".toList := hpath.symm.trans (by decide)
  cases hdir
  revert hmem
  decide

end ImportTrail.Resolve
