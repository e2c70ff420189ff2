import ImportTrail.Proofs.Resolve.Containment
import ImportTrail.Proofs.Resolve.Directory

/-!
Which file a local path of Rust leads to.

* `Origin`, `PathPart` — a local path: where it begins, and the names behind;
* `HasModule`, `IsModuleFile` — a module, and the file that it is read from;
* `IsLongestModule` — the file of the longest beginning of the names that is a module;
* `pathParts_text`, `superDepth_text` — reading the text of a local path gives its names and levels back;
* `longestModule?_eq_some_iff` — dropping names from the end finds the longest module;
* `rust?_localPath` — the answer is the longest module in the first directory that has any.
-/

namespace ImportTrail.Resolve

open Text ImportTrail.Path Project

/-! ### Local paths -/

/-- Where a local path begins. -/
inductive Origin where
  /-- `crate::` -/
  | crate
  /-- `self::` -/
  | here
  /-- `super::`, once more than the number -/
  | above (more : ℕ)

/-- The word `super::` some times over. -/
def supers (times : ℕ) : Text := (List.replicate times "super::".toList).flatten

theorem supers_succ (times : ℕ) : supers (times + 1) = "super::".toList ++ supers times := by
  rw [supers, List.replicate_succ, List.flatten_cons, supers]

namespace Origin

def text : Origin → Text
  | crate => "crate::".toList
  | here => "self::".toList
  | above more => supers (more + 1)

theorem text_above (more : ℕ) : (above more).text = "super::".toList ++ supers more := supers_succ more

/-- How many levels an origin lies above the directory of the importing file. -/
def levels : Origin → ℕ
  | crate | here => 0
  | above more => more + 1

/-- The directories where the names of a path are looked for, in this order. -/
def bases (d : Directory) : Origin → List Directory
  | crate => [.root, ⟨["src".toList], by decide⟩]
  | here => [d]
  | above more => [d.up (more + 1)]

end Origin

/-- A name in a local path: none of the words that such a path begins with, and no star. -/
structure PathPart where
  text : Text
  name : IsName text
  colonless : ':' ∉ text
  ordinary : text ∉ ['*'] :: Scan.Rust.localRoots

theorem notMem_of_isName {s : Text} {c : Char} (h : Scan.Rust.isName s = true) (hc : Scan.Rust.isNameRest c = false) :
    c ∉ s := by
  intro hmem
  rw [(Scan.Rust.isName_chars h).2 c hmem] at hc
  cases hc

/-- An identifier as a part of a path. -/
def PathPart.ofName (s : Text) (h : Scan.Rust.isName s = true) (hroot : s ∉ Scan.Rust.localRoots) : PathPart where
  text := s
  name := by
    have hdot : '.' ∉ s := notMem_of_isName h rfl
    refine ⟨⟨(Scan.Rust.isName_chars h).1, ?_, ?_⟩, notMem_of_isName h rfl⟩
    · rintro rfl
      simp at hdot
    · rintro rfl
      simp at hdot
  colonless := notMem_of_isName h rfl
  ordinary := by
    have hstar : '*' ∉ s := notMem_of_isName h rfl
    rw [List.mem_cons, not_or]
    refine ⟨?_, hroot⟩
    rintro rfl
    simp at hstar

/-- The names of a path with their colons between. -/
def partsText (parts : List PathPart) : Text := joinWith [':', ':'] (parts.map PathPart.text)

variable {p : Project} {d : Directory} {ns : List Text} {s t q : Text} {n : ℕ}

theorem splitColons_of_notMem (hs : ':' ∉ s) : splitColons s = [s] := by
  induction s with
  | nil => rfl
  | cons c s ih =>
    rw [List.mem_cons, not_or] at hs
    rw [splitColons, ih hs.2]
    rintro r rfl
    exact absurd rfl hs.1

theorem splitColons_append (hs : ':' ∉ s) (t : Text) : splitColons (s ++ ':' :: ':' :: t) = s :: splitColons t := by
  induction s with
  | nil => rfl
  | cons c s ih =>
    rw [List.mem_cons, not_or] at hs
    rw [List.cons_append, splitColons, ih hs.2]
    rintro r rfl
    exact absurd rfl hs.1

/-- A path with names is cut into just these names. -/
theorem splitColons_partsText {parts : List PathPart} (hne : parts ≠ []) :
    splitColons (partsText parts) = parts.map PathPart.text := by
  induction parts with
  | nil => exact absurd rfl hne
  | cons x parts ih =>
    cases parts with
    | nil => simpa [partsText, joinWith, List.intercalate_singleton] using splitColons_of_notMem x.colonless
    | cons y parts =>
      have hcons : partsText (x :: y :: parts) = x.text ++ ':' :: ':' :: partsText (y :: parts) := by
        simp [partsText, joinWith, List.intercalate_cons_cons]
      rw [hcons, splitColons_append x.colonless, ih (by simp)]
      rfl

/-- The names of a path are read back from its text. -/
theorem pathParts_text (parts : List PathPart) : pathParts (partsText parts) = parts.map PathPart.text := by
  rcases eq_or_ne parts [] with rfl | hne
  · rfl
  · rw [pathParts, splitColons_partsText hne, List.filter_eq_self]
    intro n hn
    obtain ⟨x, -, rfl⟩ := List.mem_map.1 hn
    have hstar : x.text ≠ ['*'] := fun e => x.ordinary (by simp [e])
    have hself : x.text ≠ "self".toList := fun e => x.ordinary (by rw [e]; decide)
    rw [Bool.and_eq_true, Bool.and_eq_true, bne_iff_ne, bne_iff_ne]
    exact ⟨⟨by simpa using x.name.1.1, hstar⟩, hself⟩

/-- The names of a path do not begin with another `super::`. -/
theorem superDepth_parts (parts : List PathPart) : superDepth (partsText parts) = (0, partsText parts) := by
  unfold superDepth
  split
  · rename_i s hs
    cases parts with
    | nil => cases hs
    | cons x parts =>
      have hcut : splitColons (partsText (x :: parts)) = "super".toList :: splitColons s := by
        rw [hs]
        rfl
      rw [splitColons_partsText (by simp)] at hcut
      -- cut at its colons, the text would have `super` for its first name
      have hsuper : x.text = "super".toList := (List.cons.inj hcut).1
      exact absurd (by rw [hsuper]; decide) x.ordinary
  · rfl

theorem superDepth_text (times : ℕ) (parts : List PathPart) :
    superDepth (supers times ++ partsText parts) = (times, partsText parts) := by
  induction times with
  | zero => exact superDepth_parts parts
  | succ times ih =>
    rw [supers_succ, List.append_assoc]
    exact congrArg (fun r : ℕ × Text => (r.1 + 1, r.2)) ih

/-- A local path starts in the directories of its origin, unless that lies above the root of the project. -/
theorem pathStart?_text (o : Origin) (d : Directory) (parts : List PathPart) :
    pathStart? (o.text ++ partsText parts) d.path =
      if o.levels ≤ d.depth then some ((o.bases d).map Directory.path, parts.map PathPart.text) else none := by
  rw [← pathParts_text]
  cases o with
  | crate =>
    have hcrate : after? "crate::".toList (Origin.crate.text ++ partsText parts) = some (partsText parts) :=
      after?_eq_some.2 rfl
    simp only [pathStart?, hcrate, Origin.levels, Nat.zero_le, if_true]
    rfl
  | here =>
    have hcrate : after? "crate::".toList (Origin.here.text ++ partsText parts) = none := rfl
    have hself : after? "self::".toList (Origin.here.text ++ partsText parts) = some (partsText parts) :=
      after?_eq_some.2 rfl
    simp only [pathStart?, hcrate, hself, Origin.levels, Nat.zero_le, if_true]
    rfl
  | above more =>
    have hcrate : after? "crate::".toList ((Origin.above more).text ++ partsText parts) = none := by
      rw [Origin.text_above, List.append_assoc]
      rfl
    have hself : after? "self::".toList ((Origin.above more).text ++ partsText parts) = none := by
      rw [Origin.text_above, List.append_assoc]
      rfl
    have hsuper : superDepth ((Origin.above more).text ++ partsText parts) = (more + 1, partsText parts) :=
      superDepth_text (more + 1) parts
    simp only [pathStart?, hcrate, hself, hsuper, Nat.succ_ne_zero, if_false, climb?_path]
    by_cases hlevels : (Origin.above more).levels ≤ d.depth
    · rw [if_pos hlevels, if_pos (show more + 1 ≤ d.depth from hlevels)]
      rfl
    · rw [if_neg hlevels, if_neg (show ¬ more + 1 ≤ d.depth from hlevels)]
      rfl

theorem isLocalPath_text (o : Origin) (t : Text) : Scan.Rust.isLocalPath (o.text ++ t) = true := by
  cases o with
  | crate => exact Scan.Rust.isLocalPath_iff.2 ⟨"crate".toList, by decide, t, rfl⟩
  | here => exact Scan.Rust.isLocalPath_iff.2 ⟨"self".toList, by decide, t, rfl⟩
  | above more =>
    rw [Origin.text_above, List.append_assoc]
    exact Scan.Rust.isLocalPath_iff.2 ⟨"super".toList, by decide, _, rfl⟩

/-! ### Modules -/

/-- Some names lead from a directory to a module: a file with their path, or a file `mod.rs` in the directory there. -/
def HasModule (p : Project) (d : Directory) (ns : List Text) : Prop :=
  p.hasFile (d.below ns ++ ".rs".toList) = true ∨ p.hasFile (d.below (ns ++ ["mod.rs".toList])) = true

instance (p : Project) (d : Directory) (ns : List Text) : Decidable (HasModule p d ns) :=
  inferInstanceAs (Decidable (_ ∨ _))

/-- The file of a module. One with the path of its names is preferred to `mod.rs`. -/
def IsModuleFile (p : Project) (d : Directory) (ns : List Text) (q : Text) : Prop :=
  p.hasFile q = true ∧ (q = d.below ns ++ ".rs".toList ∨
    q = d.below (ns ++ ["mod.rs".toList]) ∧ p.hasFile (d.below ns ++ ".rs".toList) = false)

/-- Among the first `n` names, some lead to a module. -/
def HasModuleWithin (p : Project) (d : Directory) (ns : List Text) (n : ℕ) : Prop :=
  ∃ k, 0 < k ∧ k ≤ n ∧ HasModule p d (ns.take k)

/-- The file of the longest module among the first `n` names. -/
def IsLongestModule (p : Project) (d : Directory) (ns : List Text) (n : ℕ) (q : Text) : Prop :=
  ∃ k, 0 < k ∧ k ≤ n ∧ IsModuleFile p d (ns.take k) q ∧ ∀ m, k < m → m ≤ n → ¬ HasModule p d (ns.take m)

theorem moduleFiles_below (hne : ns ≠ []) :
    moduleFiles (d.below ns) = [d.below ns ++ ".rs".toList, d.below (ns ++ ["mod.rs".toList])] := by
  rw [moduleFiles, Directory.below_concat hne]
  rfl

theorem firstFile?_moduleFiles_eq_some_iff (hne : ns ≠ []) :
    p.firstFile? (moduleFiles (d.below ns)) = some q ↔ IsModuleFile p d ns q := by
  rw [moduleFiles_below hne, firstFile?, List.find?_cons]
  unfold IsModuleFile
  cases hrs : p.hasFile (d.below ns ++ ".rs".toList) with
  | true =>
    simp only [Option.some.injEq, Bool.true_eq_false, and_false, or_false]
    constructor
    · rintro rfl
      exact ⟨hrs, rfl⟩
    · rintro ⟨-, rfl⟩
      rfl
  | false =>
    simp only [List.find?_singleton, and_true]
    constructor
    · intro h
      split at h
      · rename_i hmod
        cases h
        exact ⟨hmod, Or.inr rfl⟩
      · cases h
    · rintro ⟨hq, rfl | rfl⟩
      · rw [hrs] at hq
        cases hq
      · rw [if_pos hq]

theorem firstFile?_moduleFiles_eq_none_iff (hne : ns ≠ []) :
    p.firstFile? (moduleFiles (d.below ns)) = none ↔ ¬ HasModule p d ns := by
  rw [moduleFiles_below hne, firstFile?, List.find?_eq_none, HasModule, not_or]
  simp

/-! ### Dropping names -/

theorem take_succ_ne_nil (hn : n < ns.length) : ns.take (n + 1) ≠ [] := by
  rw [← List.length_pos_iff, List.length_take]
  omega

/-- One name more: its module is the answer, and without one the names before it decide. -/
theorem longestModule?_below (hns : ∀ x ∈ ns, IsName x) (hn : n < ns.length) :
    longestModule? p d.path ns (n + 1) =
      (p.firstFile? (moduleFiles (d.below (ns.take (n + 1))))).or (longestModule? p d.path ns n) := by
  have hfront : ∀ x ∈ ns.take (n + 1), IsName x := fun x hx => hns x (List.mem_of_mem_take hx)
  rw [longestModule?_succ, d.resolve?_below hfront (take_succ_ne_nil hn), Option.bind_some]

theorem isLongestModule_succ_iff :
    IsLongestModule p d ns (n + 1) q ↔ IsModuleFile p d (ns.take (n + 1)) q ∨
      ¬ HasModule p d (ns.take (n + 1)) ∧ IsLongestModule p d ns n q := by
  constructor
  · rintro ⟨k, hk, hkn, hq, hlonger⟩
    rcases Nat.lt_or_eq_of_le hkn with hlt | rfl
    · refine Or.inr ⟨hlonger (n + 1) hlt (Nat.le_refl _), k, hk, by omega, hq, ?_⟩
      exact fun m hkm hmn => hlonger m hkm (by omega)
    · exact Or.inl hq
  · rintro (hq | ⟨hnone, k, hk, hkn, hq, hlonger⟩)
    · exact ⟨n + 1, by omega, Nat.le_refl _, hq, fun m h h' => by omega⟩
    · refine ⟨k, hk, by omega, hq, fun m hkm hmn => ?_⟩
      rcases Nat.lt_or_eq_of_le hmn with hlt | rfl
      · exact hlonger m hkm (by omega)
      · exact hnone

theorem hasModuleWithin_succ_iff :
    HasModuleWithin p d ns (n + 1) ↔ HasModule p d (ns.take (n + 1)) ∨ HasModuleWithin p d ns n := by
  constructor
  · rintro ⟨k, hk, hkn, h⟩
    rcases Nat.lt_or_eq_of_le hkn with hlt | rfl
    · exact Or.inr ⟨k, hk, by omega, h⟩
    · exact Or.inl h
  · rintro (h | ⟨k, hk, hkn, h⟩)
    · exact ⟨n + 1, by omega, Nat.le_refl _, h⟩
    · exact ⟨k, hk, by omega, h⟩

theorem longestModule?_eq_some_iff (hns : ∀ x ∈ ns, IsName x) (hn : n ≤ ns.length) :
    longestModule? p d.path ns n = some q ↔ IsLongestModule p d ns n q := by
  induction n with
  | zero =>
    constructor
    · intro h
      cases h
    · rintro ⟨k, hk, hk0, -⟩
      omega
  | succ n ih =>
    have hne : ns.take (n + 1) ≠ [] := take_succ_ne_nil (by omega)
    rw [longestModule?_below hns (by omega), Option.or_eq_some_iff, firstFile?_moduleFiles_eq_some_iff hne,
      firstFile?_moduleFiles_eq_none_iff hne, ih (by omega), isLongestModule_succ_iff]

theorem longestModule?_eq_none_iff (hns : ∀ x ∈ ns, IsName x) (hn : n ≤ ns.length) :
    longestModule? p d.path ns n = none ↔ ¬ HasModuleWithin p d ns n := by
  induction n with
  | zero =>
    refine iff_of_true rfl ?_
    rintro ⟨k, hk, hk0, -⟩
    omega
  | succ n ih =>
    have hne : ns.take (n + 1) ≠ [] := take_succ_ne_nil (by omega)
    rw [longestModule?_below hns (by omega), Option.or_eq_none_iff, firstFile?_moduleFiles_eq_none_iff hne,
      ih (by omega), hasModuleWithin_succ_iff, not_or]

/-! ### The answer -/

/-- **A local path leads to its longest module.** The directories of its origin are gone through in order; the first one
where some beginning of the names is a module gives the answer, and there the longest such beginning does, by its own
file rather than by `mod.rs`. There is no answer exactly where the origin lies above the project or no directory has
such a module. -/
theorem rust?_localPath (p : Project) (o : Origin) (d : Directory) (parts : List PathPart) :
    (∀ q, rust? p (o.text ++ partsText parts) d.path = some q ↔
      o.levels ≤ d.depth ∧ ∃ before base after, o.bases d = before ++ base :: after ∧
        (∀ b ∈ before, ¬ HasModuleWithin p b (parts.map PathPart.text) parts.length) ∧
        IsLongestModule p base (parts.map PathPart.text) parts.length q) ∧
    (rust? p (o.text ++ partsText parts) d.path = none ↔
      d.depth < o.levels ∨ ∀ b ∈ o.bases d, ¬ HasModuleWithin p b (parts.map PathPart.text) parts.length) := by
  have hnames : ∀ x ∈ parts.map PathPart.text, IsName x := by
    intro x hx
    obtain ⟨part, -, rfl⟩ := List.mem_map.1 hx
    exact part.name
  have hlen : parts.length ≤ (parts.map PathPart.text).length := by simp
  have hrust : rust? p (o.text ++ partsText parts) d.path = if o.levels ≤ d.depth then
      (o.bases d).findSome? fun b => longestModule? p b.path (parts.map PathPart.text) parts.length else none := by
    rw [rust?_of_isLocalPath (isLocalPath_text o _), pathFile?, pathStart?_text]
    split
    · rw [Option.bind_some, List.findSome?_map, List.length_map]
      rfl
    · rfl
  rw [hrust]
  constructor
  · intro q
    rw [Option.ite_none_right_eq_some, List.findSome?_eq_some_iff]
    simp only [longestModule?_eq_some_iff hnames hlen, longestModule?_eq_none_iff hnames hlen]
    refine and_congr_right fun _ => ?_
    constructor
    · rintro ⟨before, base, after, hbases, hq, hbefore⟩
      exact ⟨before, base, after, hbases, hbefore, hq⟩
    · rintro ⟨before, base, after, hbases, hbefore, hq⟩
      exact ⟨before, base, after, hbases, hq, hbefore⟩
  · rw [ite_eq_right_iff, imp_iff_not_or, Nat.not_le, List.findSome?_eq_none_iff]
    simp only [longestModule?_eq_none_iff hnames hlen]

/-- A project in `/p` with the module `a` at its root and a module `a::b` in `src`. -/
def twoRoots : Project :=
  ⟨⟨[([['p']], .directory), ([['p'], "a.rs".toList], .file ⟨#[]⟩), ([['p'], "src".toList], .directory),
    ([['p'], "src".toList, ['a']], .directory), ([['p'], "src".toList, ['a'], "b.rs".toList], .file ⟨#[]⟩)]⟩,
    "/p".toList⟩

/-- The root of the project comes before `src`, although the module there is longer. -/
theorem rust?_twoRoots : rust? twoRoots "crate::a::b::T".toList "x/y".toList = some "a.rs".toList := by
  have hlonger : ∀ m, 1 < m → m ≤ 3 → ¬ HasModule twoRoots .root ([['a'], ['b'], ['T']].take m) := by
    intro m hlow hhigh
    obtain rfl | rfl : m = 2 ∨ m = 3 := by omega
    · decide
    · decide
  refine ((rust?_localPath twoRoots .crate ⟨[['x'], ['y']], by decide⟩
    [.ofName ['a'] rfl (by decide), .ofName ['b'] rfl (by decide), .ofName ['T'] rfl (by decide)]).1 _).2 ?_
  exact ⟨Nat.zero_le _, [], .root, _, rfl, by simp, 1, by decide, by decide, ⟨by decide, Or.inl (by decide)⟩, hlonger⟩

end ImportTrail.Resolve
