import ImportTrail.Scan.Python
import ImportTrail.Proofs.Resolve.Containment
import ImportTrail.Proofs.Resolve.Directory

/-!
Names imported from a relative module of Python, from the statement to the file.

* `DottedPart`, `relativeModule` — a name between dots, and a module by its level and its names;
* `fromSpecifiers_member` — the specifier of an imported name is the module of that name inside the other;
* `pythonFiles`, `memberFiles` — the files of a module, and where an imported name is looked for;
* `python?_relativeModule` — reading a specifier gives its level and names back;
* `python?_member` — an imported name leads to the first of its files.
-/

namespace ImportTrail.Resolve

open Text ImportTrail.Path Project

/-! ### Relative modules -/

/-- A name between the dots of a dotted name, such as an identifier. -/
structure DottedPart where
  text : Text
  ne_nil : text ≠ []
  dotless : '.' ∉ text
  slashless : '/' ∉ text
  ne_star : text ≠ ['*']

theorem DottedPart.isName (x : DottedPart) : IsName x.text := by
  refine ⟨⟨x.ne_nil, ?_, ?_⟩, x.slashless⟩
  · intro e
    exact x.dotless (by simp [e])
  · intro e
    exact x.dotless (by simp [e])

/-- The names of some parts. -/
def partNames (parts : List DottedPart) : List Text := parts.map DottedPart.text

/-- A relative module: one dot more than there are levels to climb, and names with dots between. -/
def relativeModule (level : ℕ) (parts : List DottedPart) : Text :=
  List.replicate (level + 1) '.' ++ joinWith ['.'] (partNames parts)

variable {p : Project} {d : Directory} {parts : List DottedPart} {ns : List Text}

theorem isName_of_mem_partNames : ∀ n ∈ partNames parts, IsName n := by
  intro n hn
  obtain ⟨x, -, rfl⟩ := List.mem_map.1 hn
  exact x.isName

theorem startsWith_relativeModule (level : ℕ) (parts : List DottedPart) :
    startsWith (relativeModule level parts) ['.'] = true := by
  simp [relativeModule, List.replicate_succ, startsWith, after?]

/-- Behind the dots in front, a relative module goes on with a name or not at all. -/
theorem joinWith_partNames_cases (parts : List DottedPart) :
    joinWith ['.'] (partNames parts) = [] ∧ parts = [] ∨
      ∃ c s, joinWith ['.'] (partNames parts) = c :: s ∧ c ≠ '.' ∧ parts ≠ [] := by
  cases parts with
  | nil => exact Or.inl ⟨rfl, rfl⟩
  | cons x parts =>
    obtain ⟨c, s, hx⟩ := List.exists_cons_of_ne_nil x.ne_nil
    have hc : c ≠ '.' := by
      rintro rfl
      exact x.dotless (by simp [hx])
    refine Or.inr ?_
    cases parts with
    | nil => exact ⟨c, s, by simp [partNames, joinWith, List.intercalate_singleton, hx], hc, by simp⟩
    | cons y parts =>
      refine ⟨c, s ++ ['.'] ++ joinWith ['.'] (partNames (y :: parts)), ?_, hc, by simp⟩
      simp [partNames, joinWith, List.intercalate_cons_cons, hx]

theorem takeWhile_relativeModule (level : ℕ) (parts : List DottedPart) :
    (relativeModule level parts).takeWhile (· == '.') = List.replicate (level + 1) '.' := by
  rw [relativeModule, List.takeWhile_append_of_pos fun c hc => by simp [List.eq_of_mem_replicate hc]]
  rcases joinWith_partNames_cases parts with ⟨hnil, -⟩ | ⟨c, s, hcons, hc, -⟩
  · simp [hnil]
  · simp [hcons, hc]

/-- The names of a dotted name are read back from its text. -/
theorem dottedParts_joinWith (parts : List DottedPart) :
    dottedParts (joinWith ['.'] (partNames parts)) = partNames parts := by
  rcases eq_or_ne parts [] with rfl | hne
  · rfl
  · have hdots : ∀ n ∈ partNames parts, '.' ∉ n := by
      intro n hn
      obtain ⟨x, -, rfl⟩ := List.mem_map.1 hn
      exact x.dotless
    rw [dottedParts, splitOn_joinWith (by simpa [partNames] using hne) hdots, List.filter_eq_self]
    intro n hn
    simpa using (isName_of_mem_partNames n hn).1.1

/-- A name imported from a module is the module of that name inside it. -/
theorem fromSpecifiers_member (level : ℕ) (parts : List DottedPart) (x : DottedPart) :
    Scan.Python.fromSpecifiers (relativeModule level parts) [x.text] = [relativeModule level (parts ++ [x])] := by
  have hstar : [x.text].contains ['*'] = false := by simpa using Ne.symm x.ne_star
  rw [Scan.Python.fromSpecifiers, startsWith_relativeModule, hstar, if_neg (by simp), if_neg (by simp)]
  rcases joinWith_partNames_cases parts with ⟨-, rfl⟩ | ⟨c, s, hcons, hc, hne⟩
  · have hall : (relativeModule level []).all (· == '.') = true := by
      simp [relativeModule, partNames, joinWith]
    rw [if_pos hall]
    simp [relativeModule, partNames, joinWith, List.intercalate_singleton]
  · have hall : (relativeModule level parts).all (· == '.') = false := by
      simp [relativeModule, hcons, hc]
    have hnames : joinWith ['.'] (partNames (parts ++ [x])) = joinWith ['.'] (partNames parts) ++ ['.'] ++ x.text := by
      rw [partNames, List.map_append, joinWith_append (by simpa using hne) (by simp)]
      simp [partNames, joinWith, List.intercalate_singleton]
    rw [if_neg (by simp [hall])]
    simp [relativeModule, hnames]

/-! ### Files -/

/-- The file of a package. -/
def packageFile : Text := "__init__.py".toList

/-- The files that some names may stand for, as a module or as a package. Without a name there is only the package. -/
def pythonFiles (base : Directory) (ns : List Text) : List Text :=
  if ns = [] then [base.below [packageFile]]
  else [base.below ns ++ ".py".toList, base.below (ns ++ [packageFile])]

/-- Where a name imported from a module is looked for: as a module inside it, and then in the module itself. -/
def memberFiles (base : Directory) (module : List Text) (x : Text) : List Text :=
  pythonFiles base (module ++ [x]) ++ pythonFiles base module

theorem pythonModule?_path (hns : ∀ n ∈ ns, IsName n) : pythonModule? p d.path ns = p.firstFile? (pythonFiles d ns) := by
  unfold pythonModule? pythonFiles
  rcases eq_or_ne ns [] with rfl | hne
  · have hinit : resolve? d.path (ofNames [packageFile]) = some (d.below [packageFile]) :=
      d.resolve?_below (by decide) (by simp)
    rw [ofNames_singleton] at hinit
    rw [if_pos List.isEmpty_nil, if_pos rfl]
    exact congrArg (Option.bind · fun path => p.firstFile? [path]) hinit
  · rw [if_neg (by simpa using hne), if_neg hne, d.resolve?_below hns hne, Option.bind_some, Directory.below_concat hne]
    rfl

/-- A relative module is looked for where its level leads, by its names and then by all but the last of them. -/
theorem python?_relativeModule (p : Project) (level : ℕ) (parts : List DottedPart) (d : Directory) :
    python? p (relativeModule level parts) d.path =
      if level ≤ d.depth then
        (p.firstFile? (pythonFiles (d.up level) (partNames parts))).or
          (if parts = [] then none else p.firstFile? (pythonFiles (d.up level) (partNames parts).dropLast))
      else none := by
  have hdrop : (relativeModule level parts).drop (level + 1) = joinWith ['.'] (partNames parts) := by
    rw [relativeModule]
    exact List.drop_left' (by simp)
  have hlast : ∀ n ∈ (partNames parts).dropLast, IsName n := fun n hn =>
    isName_of_mem_partNames n (List.dropLast_subset _ hn)
  have hempty : (partNames parts).isEmpty = true ↔ parts = [] := by simp [partNames]
  rw [python?, if_pos (startsWith_relativeModule level parts), pythonRelative?]
  simp only [takeWhile_relativeModule, List.length_replicate, Nat.add_sub_cancel, hdrop, dottedParts_joinWith, climb?_path,
    Option.orElse_eq_or]
  split
  · simp only [Option.bind_eq_bind, Option.bind_some, pythonModule?_path isName_of_mem_partNames, pythonModule?_path hlast,
      hempty]
  · rfl

/-- **An imported name leads to the first of its files.** The statement gives one specifier, which climbs as far as the
module does; from there the name is looked for as a module inside the other, and then in that module itself. There is no
answer exactly where the module lies above the project or none of the files is there. -/
theorem python?_member (p : Project) (level : ℕ) (module : List DottedPart) (x : DottedPart) (d : Directory) :
    ∃ spec, Scan.Python.fromSpecifiers (relativeModule level module) [x.text] = [spec] ∧
      (∀ q, python? p spec d.path = some q ↔
        level ≤ d.depth ∧ p.firstFile? (memberFiles (d.up level) (partNames module) x.text) = some q) ∧
      (python? p spec d.path = none ↔
        d.depth < level ∨ ∀ c ∈ memberFiles (d.up level) (partNames module) x.text, p.hasFile c = false) := by
  refine ⟨relativeModule level (module ++ [x]), fromSpecifiers_member level module x, ?_⟩
  have hnames : partNames (module ++ [x]) = partNames module ++ [x.text] := by simp [partNames]
  have hpython : python? p (relativeModule level (module ++ [x])) d.path = if level ≤ d.depth then
      p.firstFile? (memberFiles (d.up level) (partNames module) x.text) else none := by
    have hne : module ++ [x] ≠ [] := by simp
    rw [python?_relativeModule, hnames, List.dropLast_concat, if_neg hne, memberFiles, firstFile?_append]
  rw [hpython]
  constructor
  · exact fun q => Option.ite_none_right_eq_some
  · rw [ite_eq_right_iff, imp_iff_not_or, Nat.not_le, firstFile?, List.find?_eq_none]
    simp only [Bool.not_eq_true]

/-- A project in `/p` with one module in the package `app`. -/
def appModels : Project :=
  ⟨⟨[([['p']], .directory), ([['p'], "app".toList], .directory),
    ([['p'], "app".toList, "models.py".toList], .file ⟨#[]⟩)]⟩, "/p".toList⟩

/-- A name that is no module is found in the module that it is imported from. -/
theorem python?_appModels :
    ∃ spec, Scan.Python.fromSpecifiers "..models".toList ["User".toList] = [spec] ∧
      python? appModels spec "app/sub".toList = some "app/models.py".toList := by
  obtain ⟨spec, hspec, hsome, -⟩ := python?_member appModels 1
    [⟨"models".toList, by decide, by decide, by decide, by decide⟩]
    ⟨"User".toList, by decide, by decide, by decide, by decide⟩ ⟨["app".toList, "sub".toList], by decide⟩
  exact ⟨spec, hspec, (hsome _).2 ⟨by decide, by decide⟩⟩

end ImportTrail.Resolve
