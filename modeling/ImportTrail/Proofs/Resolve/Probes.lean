import ImportTrail.Resolve
import Mathlib.Data.Nat.Notation

/-!
What a project is asked for to resolve a specifier.

* `script?_eq_firstFile?`, `include?_eq_firstFile?`, `python?_eq_firstFile?`, `rust?_eq_firstFile?` — the answer is the
  first of the probes that is a file; a dotted name has to be known to the project by its first part;
* `mem_of_resolve?` — so the answer is one of the probes, and a file;
* `resolve?_congr` — and projects that agree on the probes give the same answer.
-/

namespace ImportTrail

open Text

/-- The two projects have the same files, and the same things at all, under these paths. -/
def Project.Agree (p p' : Project) (paths : List Text) : Prop :=
  ∀ q ∈ paths, p'.hasFile q = p.hasFile q ∧ p'.has q = p.has q

namespace Resolve

variable {p p' : Project} {spec dir q : Text} {l l' : List Text} {n : ℕ}

/-! ### First files -/

theorem mem_of_firstFile? {cs : List Text} (h : p.firstFile? cs = some q) : q ∈ cs ∧ p.hasFile q = true :=
  ⟨List.mem_of_find?_eq_some h, List.find?_some h⟩

theorem firstFile?_append (as bs : List Text) :
    p.firstFile? (as ++ bs) = (p.firstFile? as).or (p.firstFile? bs) := List.find?_append

theorem firstFile?_elim {o : Option Text} {candidates : Text → List Text} :
    p.firstFile? (o.elim [] candidates) = o.bind fun path => p.firstFile? (candidates path) := by
  cases o <;> rfl

theorem firstFile?_toList {o : Option Text} :
    p.firstFile? o.toList = o.bind fun path => p.firstFile? [path] := by
  cases o <;> rfl

/-! ### The first of the probes -/

theorem script?_eq_firstFile? : script? p spec dir = p.firstFile? (scriptProbes spec dir) := by
  unfold script? scriptProbes
  split
  · rw [firstFile?_elim]
  · rfl

theorem include?_eq_firstFile? : include? p spec dir = p.firstFile? (includeProbes spec dir) := by
  unfold include? includeProbes
  split
  · rw [firstFile?_toList]
  · rfl

theorem pythonModule?_eq_firstFile? {parts : List Text} :
    pythonModule? p dir parts = p.firstFile? (pythonModuleProbes dir parts) := by
  unfold pythonModule? pythonModuleProbes
  split
  · rw [firstFile?_toList]
  · rw [firstFile?_elim]

theorem pythonRelative?_eq_firstFile? (h : startsWith spec ['.'] = true) :
    pythonRelative? p spec dir = p.firstFile? (pythonProbes spec dir) := by
  unfold pythonRelative? pythonProbes
  rw [if_pos h, firstFile?_elim]
  refine Option.bind_congr fun base _ => ?_
  rw [Option.orElse_eq_or, pythonModule?_eq_firstFile?, pythonModule?_eq_firstFile?, firstFile?_append]
  split
  · -- without a part there is no part to leave out
    rename_i hnil
    rw [List.isEmpty_iff.1 hnil, List.dropLast_nil, Option.or_none, Option.or_self]
  · rfl

theorem python?_eq_firstFile? : python? p spec dir =
    if (packageProbes spec).isEmpty || (packageProbes spec).any p.has then p.firstFile? (pythonProbes spec dir)
    else none := by
  unfold python?
  split
  · rename_i h
    rw [pythonRelative?_eq_firstFile? h, packageProbes, if_pos h]
    rfl
  · rename_i h
    rw [packageProbes, if_neg h, pythonProbes, if_neg h, pythonAbsolute?]
    cases dottedParts spec with
    | nil => rfl
    | cons first rest => simp [pythonModule?_eq_firstFile?]

theorem longestModule?_succ (p : Project) (base : Text) (parts : List Text) (n : ℕ) :
    longestModule? p base parts (n + 1) = (Path.resolve? base (Path.ofNames (parts.take (n + 1)))).bind fun path =>
      (p.firstFile? (moduleFiles path)).or (longestModule? p base parts n) := by
  rw [longestModule?]
  simp only [Option.orElse_eq_or]
  rfl

theorem longestModule?_eq_firstFile? {parts : List Text} :
    longestModule? p dir parts n = p.firstFile? (longestModuleProbes dir parts n) := by
  induction n with
  | zero => rfl
  | succ n ih =>
    rw [longestModule?_succ, longestModuleProbes, firstFile?_elim]
    simp only [firstFile?_append, ih]

theorem rust?_eq_firstFile? : rust? p spec dir = p.firstFile? (rustProbes spec dir) := by
  unfold rust? rustProbes
  split
  · rw [firstFile?_toList]
  · split
    · rw [firstFile?_elim]
    · cases pathStart? spec dir with
      | none => rfl
      | some start =>
        simp only [Option.elim_some, longestModule?_eq_firstFile?]
        exact List.find?_flatMap.symm

/-! ### The answer -/

theorem mem_of_script? (h : script? p spec dir = some q) : q ∈ scriptProbes spec dir ∧ p.hasFile q = true :=
  mem_of_firstFile? (script?_eq_firstFile?.symm.trans h)

theorem mem_of_include? (h : include? p spec dir = some q) : q ∈ includeProbes spec dir ∧ p.hasFile q = true :=
  mem_of_firstFile? (include?_eq_firstFile?.symm.trans h)

theorem mem_of_python? (h : python? p spec dir = some q) : q ∈ pythonProbes spec dir ∧ p.hasFile q = true := by
  rw [python?_eq_firstFile?] at h
  split at h
  · exact mem_of_firstFile? h
  · cases h

theorem mem_of_rust? (h : rust? p spec dir = some q) : q ∈ rustProbes spec dir ∧ p.hasFile q = true :=
  mem_of_firstFile? (rust?_eq_firstFile?.symm.trans h)

/-- Whatever a family answers is one of the probes, and a file where the project looks for it. -/
theorem mem_of_resolve? {f : Family} (h : f.resolve? p spec dir = some q) :
    q ∈ f.probes spec dir ∧ p.hasFile q = true := by
  cases f with
  | javaScript => exact mem_of_script? h
  | c => exact mem_of_include? h
  | python => exact (mem_of_python? h).imp_left (List.mem_append_right _)
  | rust => exact mem_of_rust? h

/-! ### What the answer depends on -/

theorem agree_append : p.Agree p' (l ++ l') ↔ p.Agree p' l ∧ p.Agree p' l' := List.forall_mem_append

theorem firstFile?_congr (h : p.Agree p' l) : p'.firstFile? l = p.firstFile? l := by
  induction l with
  | nil => rfl
  | cons a l ih =>
    have ih := ih fun q hq => h q (List.mem_cons_of_mem a hq)
    simp only [Project.firstFile?] at ih ⊢
    rw [List.find?_cons, List.find?_cons, (h a List.mem_cons_self).1, ih]

/-- The probes of a specifier decide where it leads. -/
theorem resolve?_congr {f : Family} (h : p.Agree p' (f.probes spec dir)) :
    f.resolve? p' spec dir = f.resolve? p spec dir := by
  cases f with
  | javaScript =>
    rw [Family.resolve?, Family.resolve?, script?_eq_firstFile?, script?_eq_firstFile?]
    exact firstFile?_congr h
  | c =>
    rw [Family.resolve?, Family.resolve?, include?_eq_firstFile?, include?_eq_firstFile?]
    exact firstFile?_congr h
  | rust =>
    rw [Family.resolve?, Family.resolve?, rust?_eq_firstFile?, rust?_eq_firstFile?]
    exact firstFile?_congr h
  | python =>
    rw [Family.probes, agree_append] at h
    obtain ⟨hpackage, hmodule⟩ := h
    have hany : (packageProbes spec).any p'.has = (packageProbes spec).any p.has := by
      rw [Bool.eq_iff_iff, List.any_eq_true, List.any_eq_true]
      exact exists_congr fun q => and_congr_right fun hq => by rw [(hpackage q hq).2]
    rw [Family.resolve?, Family.resolve?, python?_eq_firstFile?, python?_eq_firstFile?, hany, firstFile?_congr hmodule]

end Resolve

end ImportTrail
