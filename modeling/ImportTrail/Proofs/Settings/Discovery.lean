import ImportTrail.Settings.Resolve
import ImportTrail.Proofs.Path.Ancestors

/-!
Where the files of a project that hold settings are found: in a directory or in the nearest one above it.

* `Disk.Holds`, `Disk.text?_eq_some_iff` — a regular file that holds a text in UTF-8;
* `nearestFile?_eq_findSome?` — looking for a file among the ancestors of a directory;
* `IsPattern`, `ignorePatterns_joinWith` — patterns that are written on a line each are read back;
* `nearest_discovery` — the file that counts is that of the deepest ancestor that has one.
-/

namespace ImportTrail.Disk

variable {d : Disk} {path s : Text}

/-- The path names a regular file whose bytes are a text in UTF-8. -/
def Holds (d : Disk) (path s : Text) : Prop := d.find? path = some (.file (String.ofList s).toUTF8)

theorem fromUTF8?_eq_some_iff {content : ByteArray} {t : String} :
    String.fromUTF8? content = some t ↔ content = t.toUTF8 := by
  unfold String.fromUTF8?
  constructor
  · intro h
    split at h
    · obtain rfl := Option.some.inj h
      rfl
    · cases h
  · rintro rfl
    exact dif_pos t.isValidUTF8

theorem text?_eq_some_iff : d.text? path = some s ↔ d.Holds path s := by
  unfold text? Holds
  split
  · rename_i content hfind
    rw [hfind, Option.map_eq_some_iff]
    constructor
    · rintro ⟨t, ht, rfl⟩
      rw [fromUTF8?_eq_some_iff.1 ht, String.ofList_toList]
    · intro h
      have hcontent : content = (String.ofList s).toUTF8 := by simpa using h
      exact ⟨String.ofList s, fromUTF8?_eq_some_iff.2 hcontent, String.toList_ofList⟩
  · rename_i hnone
    simp only [reduceCtorEq, false_iff]
    exact hnone _

end ImportTrail.Disk

namespace ImportTrail.Settings

open Text ImportTrail.Path

variable {d : Disk} {name dir s : Text}

/-! ### Files among the ancestors -/

theorem nearestFile?_eq_findSome? : nearestFile? d name dir =
    (ancestors dir).findSome? fun up => if d.hasFile (append up name) = true then some (append up name) else none := by
  rw [nearestFile?, List.find?_eq_findSome?_guard, List.findSome?_map]
  refine congrArg (List.findSome? · (ancestors dir)) (funext fun up => ?_)
  simp [Option.guard]

/-- The nearest file of a name is that of the deepest ancestor where there is one. -/
theorem nearestFile?_eq_some_iff {path : Text} : nearestFile? d name dir = some path ↔
    ∃ up, IsDeepest dir (fun v => d.hasFile (append v name) = true) up ∧ path = append up name := by
  have hthere : ∀ v, (if d.hasFile (append v name) = true then some (append v name) else none).isSome = true ↔
      d.hasFile (append v name) = true := by
    intro v
    split <;> simp_all
  rw [nearestFile?_eq_findSome?, findSome?_ancestors]
  simp only [hthere]
  refine exists_congr fun up => and_congr_right fun hup => ?_
  rw [if_pos hup.holds, Option.some.injEq, eq_comm]

theorem nearestFile?_eq_none_iff :
    nearestFile? d name dir = none ↔ ∀ up, IsAncestor dir up → d.hasFile (append up name) = false := by
  rw [nearestFile?_eq_findSome?, findSome?_ancestors_eq_none]
  simp

theorem nearestIgnoreFile?_eq_findSome? : nearestIgnoreFile? d dir = (ancestors dir).findSome? fun up =>
    (d.text? (append up ignoreFileName)).map fun s => (append up ignoreFileName, ignorePatterns s) := by
  rw [nearestIgnoreFile?, List.findSome?_map]
  rfl

/-- The nearest ignore file is that of the deepest ancestor where there is one that holds a text. -/
theorem nearestIgnoreFile?_eq_some_iff {path : Text} {patterns : List Text} :
    nearestIgnoreFile? d dir = some (path, patterns) ↔
      ∃ up s, IsDeepest dir (fun v => ∃ t, d.Holds (append v ignoreFileName) t) up ∧ path = append up ignoreFileName ∧
        d.Holds path s ∧ patterns = ignorePatterns s := by
  have hreadable : ∀ v, ((d.text? (append v ignoreFileName)).map fun s =>
      (append v ignoreFileName, ignorePatterns s)).isSome = true ↔ ∃ t, d.Holds (append v ignoreFileName) t := by
    intro v
    rw [Option.isSome_map, Option.isSome_iff_exists]
    exact exists_congr fun t => Disk.text?_eq_some_iff
  rw [nearestIgnoreFile?_eq_findSome?, findSome?_ancestors]
  simp only [hreadable, Option.map_eq_some_iff, Disk.text?_eq_some_iff, Prod.mk.injEq]
  constructor
  · rintro ⟨up, hup, s, hs, rfl, rfl⟩
    exact ⟨up, s, hup, rfl, hs, rfl⟩
  · rintro ⟨up, s, hup, rfl, hs, rfl⟩
    exact ⟨up, hup, s, hs, rfl, rfl⟩

theorem nearestIgnoreFile?_eq_none_iff :
    nearestIgnoreFile? d dir = none ↔ ∀ up, IsAncestor dir up → ∀ t, ¬ d.Holds (append up ignoreFileName) t := by
  rw [nearestIgnoreFile?_eq_findSome?, findSome?_ancestors_eq_none]
  refine forall_congr' fun up => imp_congr_right fun _ => ?_
  rw [Option.map_eq_none_iff, Option.eq_none_iff_forall_ne_some]
  exact forall_congr' fun t => not_congr Disk.text?_eq_some_iff

/-! ### Patterns -/

/-- A line of an ignore file that is a pattern as it stands. -/
structure IsPattern (l : Text) : Prop where
  solid : Solid l
  oneLine : '\n' ∉ l
  noComment : startsWith l ['#'] = false

theorem ignorePatterns_eq (s : Text) :
    ignorePatterns s = ((lines s).map trim).filter fun l => l ≠ [] ∧ l.head? ≠ some '#' := by
  refine List.filter_congr fun l _ => ?_
  cases l with
  | nil => rfl
  | cons c l =>
    have hstart : startsWith (c :: l) ['#'] = decide (c = '#') := by
      by_cases hc : c = '#'
      · rw [hc]
        rfl
      · simp [startsWith, after?, Ne.symm hc, hc]
    rw [hstart]
    simp

theorem isPattern_of_mem {l : Text} (h : l ∈ ignorePatterns s) : IsPattern l := by
  rw [ignorePatterns, List.mem_filter] at h
  obtain ⟨hmem, hkept⟩ := h
  obtain ⟨line, hline, rfl⟩ := List.mem_map.1 hmem
  simp only [Bool.and_eq_true, Bool.not_eq_true', List.isEmpty_eq_false_iff] at hkept
  refine ⟨(trim_eq_nil_or_solid line).resolve_left hkept.1, ?_, hkept.2⟩
  intro hfeed
  exact notMem_of_mem_lines hline (mem_of_mem_trim hfeed)

/-- **Patterns on a line each are read back.** -/
theorem ignorePatterns_joinWith {ps : List Text} (h : ∀ l ∈ ps, IsPattern l) :
    ignorePatterns (joinWith ['\n'] ps) = ps := by
  have htrim : ps.map trim = ps :=
    (List.map_congr_left fun l hl => trim_of_solid (h l hl).solid).trans (List.map_id ps)
  rw [ignorePatterns, lines_joinWith (fun l hl => (h l hl).solid) fun l hl => (h l hl).oneLine, htrim, List.filter_eq_self]
  intro l hl
  simp [(h l hl).noComment, (h l hl).solid.ne_nil]

/-! ### The nearest files -/

/-- **The file of settings that counts is that of the deepest ancestor that has one**, and there is none exactly where no
ancestor has one. For ignore files, one that is not a text is passed over; the patterns are the lines of the other without
the blanks around them, but for empty ones and comments, and written on a line each they are read back. -/
theorem nearest_discovery (d : Disk) (dir : Text) :
    (∀ path, nearestFile? d projectFileName dir = some path ↔
      ∃ up, IsDeepest dir (fun v => d.hasFile (append v projectFileName) = true) up ∧ path = append up projectFileName) ∧
    (nearestFile? d projectFileName dir = none ↔
      ∀ up, IsAncestor dir up → d.hasFile (append up projectFileName) = false) ∧
    (∀ path patterns, nearestIgnoreFile? d dir = some (path, patterns) ↔
      ∃ up s, IsDeepest dir (fun v => ∃ t, d.Holds (append v ignoreFileName) t) up ∧ path = append up ignoreFileName ∧
        d.Holds path s ∧ patterns = ((lines s).map trim).filter fun l => l ≠ [] ∧ l.head? ≠ some '#') ∧
    (nearestIgnoreFile? d dir = none ↔ ∀ up, IsAncestor dir up → ∀ t, ¬ d.Holds (append up ignoreFileName) t) ∧
    (∀ s, ignorePatterns (joinWith ['\n'] (ignorePatterns s)) = ignorePatterns s) := by
  refine ⟨fun path => nearestFile?_eq_some_iff, nearestFile?_eq_none_iff, fun path patterns => ?_,
    nearestIgnoreFile?_eq_none_iff, fun s => ignorePatterns_joinWith fun l => isPattern_of_mem⟩
  simp only [nearestIgnoreFile?_eq_some_iff, ignorePatterns_eq]

/-- A directory with the name of an ignore file, a file above it that is no text, and one above that with two patterns. -/
def passedOver : Disk :=
  ⟨[([['w']], .directory), ([['w'], ['x']], .directory), ([['w'], ['x'], ['y']], .directory),
    ([['w'], ignoreFileName], .file "a\n # b\n\n c/ \r\n".toUTF8), ([['w'], ['x'], ignoreFileName], .file ⟨#[0xff]⟩),
    ([['w'], ['x'], ['y'], ignoreFileName], .directory)]⟩

example : ancestors "/w//x/./y/".toList = ["/w//x/./y/".toList, "/w//x".toList, "/w".toList, "/".toList] := by decide

example : nearestIgnoreFile? passedOver "/w//x/./y/".toList =
    some ("/w/.importcrawlignore".toList, ["a".toList, "c/".toList]) := by decide

end ImportTrail.Settings
