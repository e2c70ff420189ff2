import ImportTrail.Proofs.Resolve.RelativeImport

/-!
Absolute names of Python. They are looked for only if the project knows their first part, and this changes no answer: a
file that a dotted name leads to lies in the directory of its first part, or is the module of that part itself.

* `eq_or_slash_of_mem_pythonFiles` — where the files of a module lie;
* `known_of_pythonModule?` — the first part of a name that leads to a file is known;
* `pythonAbsolute?_unguarded` — so an absolute name is answered as if there were no check.
-/

namespace ImportTrail.Resolve

open Text ImportTrail.Path Project

variable {p : Project} {first : Text} {rest : List Text}

/-- The files of a module lie in the directory of its first part, but for the file of a module with one part. -/
theorem eq_or_slash_of_mem_pythonFiles {c : Text} (h : c ∈ pythonFiles .root (first :: rest)) :
    c = first ++ ".py".toList ∨ ∃ r, c = first ++ '/' :: r := by
  have hbelow : ∀ ns : List Text, ns ≠ [] → Directory.root.below (first :: ns) = first ++ '/' :: ofNames ns := by
    intro ns hns
    have hcons : ofNames ([first] ++ ns) = ofNames [first] ++ '/' :: ofNames ns := ofNames_append (by simp) hns
    rwa [ofNames_singleton] at hcons
  rw [pythonFiles, if_neg (by simp)] at h
  simp only [List.mem_cons, List.not_mem_nil, or_false] at h
  rcases h with rfl | rfl
  · rcases eq_or_ne rest [] with rfl | hne
    · exact Or.inl (congrArg (· ++ ".py".toList) (ofNames_singleton first))
    · exact Or.inr ⟨ofNames rest ++ ".py".toList, by rw [hbelow rest hne, List.append_assoc, List.cons_append]⟩
  · exact Or.inr ⟨ofNames (rest ++ [packageFile]), hbelow (rest ++ [packageFile]) (by simp)⟩

/-- The first part of a name that leads to a file is known to the project. -/
theorem known_of_pythonModule? {q : Text} (hnames : ∀ n ∈ first :: rest, IsName n)
    (h : pythonModule? p [] (first :: rest) = some q) : (p.has first || p.has (first ++ ".py".toList)) = true := by
  have hfirst : IsName first := hnames first List.mem_cons_self
  have hrel : isAbsolute first = false := (isCanonical_of_isPlain hfirst.1 hfirst.2).2.1
  have hmodule : pythonModule? p Directory.root.path (first :: rest) = some q := h
  rw [pythonModule?_path hnames] at hmodule
  obtain ⟨hmem, hfile⟩ := mem_of_firstFile? hmodule
  rw [Bool.or_eq_true]
  rcases eq_or_slash_of_mem_pythonFiles hmem with rfl | ⟨r, rfl⟩
  · exact Or.inr (Disk.has_of_hasFile hfile)
  · exact Or.inl (has_of_hasFile_slash hfirst.1.1 hrel hfile)

theorem isName_of_mem_dottedParts {spec part : Text} (hslash : ∀ n ∈ dottedParts spec, '/' ∉ n)
    (h : part ∈ dottedParts spec) : IsName part := by
  obtain ⟨hne, hdot⟩ := mem_dottedParts h
  refine ⟨⟨hne, ?_, ?_⟩, hslash part h⟩
  · rintro rfl
    exact hdot (by simp)
  · rintro rfl
    exact hdot (by simp)

/-- **The check in front of absolute names changes no answer.** A name of which some part is not empty is looked for from
the root of the project, whether its first part is known or not; without such a part there is no answer. -/
theorem pythonAbsolute?_unguarded (p : Project) (spec : Text) (hslash : ∀ n ∈ dottedParts spec, '/' ∉ n) :
    pythonAbsolute? p spec = (if dottedParts spec = [] then none else pythonModule? p [] (dottedParts spec)) ∧
      (startsWith spec ['.'] = false → ∀ dir, python? p spec dir = pythonAbsolute? p spec) := by
  constructor
  · have hnames : ∀ n ∈ dottedParts spec, IsName n := fun n => isName_of_mem_dottedParts hslash
    unfold pythonAbsolute?
    cases hparts : dottedParts spec with
    | nil => rfl
    | cons first rest =>
      rw [hparts] at hnames
      rw [if_neg (List.cons_ne_nil first rest)]
      dsimp only
      cases hmodule : pythonModule? p [] (first :: rest) with
      | none => exact ite_self none
      | some q => exact if_pos (known_of_pythonModule? hnames hmodule)
  · intro habsolute dir
    rw [python?, habsolute]
    rfl

/-- A project in `/p` with a package whose directory holds no file of its own, and a module beside it. -/
def bareNamespace : Project :=
  ⟨⟨[([['p']], .directory), ([['p'], "pkg".toList], .directory), ([['p'], "pkg".toList, "sub".toList], .directory),
    ([['p'], "pkg".toList, "sub".toList, "a.py".toList], .file ⟨#[]⟩), ([['p'], "top.py".toList], .file ⟨#[]⟩)]⟩,
    "/p/".toList⟩

/-- A module in a package, a module that stands alone, and a name that the project does not know. -/
theorem bareNamespace_unguarded :
    python? bareNamespace "pkg.sub..a".toList "pkg".toList = some "pkg/sub/a.py".toList ∧
      python? bareNamespace "top.".toList [] = some "top.py".toList ∧
      pythonModule? bareNamespace [] ["os".toList, "path".toList] = none := by
  obtain ⟨hdeep, hdeep'⟩ := pythonAbsolute?_unguarded bareNamespace "pkg.sub..a".toList (by decide)
  obtain ⟨htop, htop'⟩ := pythonAbsolute?_unguarded bareNamespace "top.".toList (by decide)
  obtain ⟨hos, -⟩ := pythonAbsolute?_unguarded bareNamespace "os.path".toList (by decide)
  refine ⟨?_, ?_, ?_⟩
  · rw [hdeep' (by decide), hdeep]
    decide
  · rw [htop' (by decide), htop]
    decide
  · have hgate : pythonAbsolute? bareNamespace "os.path".toList = none := by decide
    rw [hgate] at hos
    exact hos.symm

end ImportTrail.Resolve
