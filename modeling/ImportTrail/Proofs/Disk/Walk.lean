import ImportTrail.Disk
import ImportTrail.Proofs.Path.Canonical

/-!
Where canonical paths lead on a disk.

* `walk_of_isPlain` — a walk over names goes down by just these names;
* `locate?_onDisk` — a canonical path leads to the place of the root of the project, extended by its own pieces;
* `Project.Contains` — a path names a regular file below the root;
* `contains_of_hasFile`, `eq_of_locate?_eq` — a canonical path of a file stays below the root, and no other canonical
  path leads to its place;
* `find?_of_has_slash`, `has_of_hasFile_slash` — what stands in front of a slash in such a path is a directory.
-/

namespace ImportTrail.Disk

open Text ImportTrail.Path

/-! ### Walks -/

theorem walk_append (d : Disk) (l : Location) (as bs : List Text) :
    d.walk l (as ++ bs) = (d.walk l as).bind fun m => d.walk m bs := by
  induction as generalizing l with
  | nil => rfl
  | cons piece as ih =>
    rw [List.cons_append, walk, walk]
    split
    · rfl
    · split
      · exact ih l
      · split
        · exact ih l.dropLast
        · split
          · rfl
          · exact ih (l ++ [piece])

theorem isDirectory_of_walk {d : Disk} {l m : Location} {pieces : List Text} (hne : pieces ≠ [])
    (h : d.walk l pieces = some m) : d.isDirectory l = true := by
  obtain ⟨piece, rest, rfl⟩ := List.exists_cons_of_ne_nil hne
  rw [walk] at h
  by_contra hd
  simp [hd] at h

theorem walk_of_isPlain {d : Disk} {l m : Location} {names : List Text} (hn : ∀ n ∈ names, IsPlain n)
    (h : d.walk l names = some m) : m = l ++ names := by
  induction names generalizing l with
  | nil =>
    cases h
    simp
  | cons n names ih =>
    obtain ⟨h0, h1, h2⟩ := hn n List.mem_cons_self
    have hd := isDirectory_of_walk (by simp) h
    rw [walk, if_neg (by simp [hd]), if_neg (by simp [h0, h1]), if_neg h2] at h
    split at h
    · cases h
    · rw [ih (fun m hm => hn m (List.mem_cons_of_mem _ hm)) h, List.append_assoc]
      rfl

/-! ### Places -/

theorem locate?_eq_some {d : Disk} {path : Text} {l : Location} :
    d.locate? path = some l ↔ isAcceptable path = true ∧ d.walk [] (splitOn '/' path) = some l ∧
      (d.entry? l).isSome = true := by
  unfold locate?
  by_cases h : isAcceptable path = true
  · rw [if_pos h, Option.filter_eq_some_iff]
    simp [h]
  · rw [if_neg h]
    simp [h]

theorem hasFile_iff {d : Disk} {path : Text} :
    d.hasFile path = true ↔ ∃ l content, d.locate? path = some l ∧ d.entry? l = some (.file content) := by
  unfold hasFile find?
  cases d.locate? path with
  | none => simp
  | some l =>
    rw [Option.bind_some]
    split
    · rename_i content he
      simp [he]
    · rename_i he
      simp only [Bool.false_eq_true, Option.some.injEq, exists_and_left, false_iff]
      rintro ⟨m, rfl, content, hm⟩
      exact he content hm

theorem entry?_of_isDirectory {d : Disk} {l : Location} (h : d.isDirectory l = true) :
    d.entry? l = some .directory := by
  unfold isDirectory at h
  split at h
  · assumption
  · cases h

/-- A path with a slash at its end names no file. -/
theorem hasFile_slash (d : Disk) (path : Text) : d.hasFile (path ++ ['/']) = false := by
  rw [Bool.eq_false_iff]
  intro h
  obtain ⟨l, content, hl, he⟩ := hasFile_iff.1 h
  obtain ⟨-, hw, -⟩ := locate?_eq_some.1 hl
  rw [splitOn_append_sep, walk_append] at hw
  obtain ⟨m, -, hm⟩ := Option.bind_eq_some_iff.1 hw
  have hd := isDirectory_of_walk (splitOn_ne_nil '/' []) hm
  rw [splitOn, walk, if_neg (by simp [hd]), if_pos (Or.inl rfl)] at hm
  cases hm
  rw [entry?_of_isDirectory hd] at he
  cases he

theorem byteSize_append (s t : Text) : byteSize (s ++ t) = byteSize s + byteSize t := by
  have start : ∀ (t : Text) (n : ℕ), t.foldl (fun n c => n + c.utf8Size) n = n + byteSize t := by
    intro t
    induction t with
    | nil => intro n; rfl
    | cons c t ih =>
      intro n
      unfold byteSize
      rw [List.foldl_cons, List.foldl_cons, ih, ih]
      omega
  rw [byteSize, List.foldl_append, start]
  rfl

theorem isAcceptable_of_append {s t : Text} (hs : s ≠ []) (h : isAcceptable (s ++ t) = true) :
    isAcceptable s = true := by
  unfold isAcceptable at h ⊢
  obtain ⟨c, s, rfl⟩ := List.exists_cons_of_ne_nil hs
  simp only [Bool.and_eq_true, decide_eq_true_eq, Bool.not_eq_true', byteSize_append, List.contains_eq_mem,
    decide_eq_false_iff_not, List.mem_append, not_or] at h ⊢
  obtain ⟨⟨ha, hz, -⟩, hb⟩ := h
  obtain ⟨r, hr⟩ := isAbsolute_iff.1 ha
  obtain ⟨rfl, -⟩ := List.cons.inj hr
  exact ⟨⟨rfl, hz⟩, by omega⟩

theorem has_iff {d : Disk} {path : Text} : d.has path = true ↔ ∃ l, d.locate? path = some l := by
  unfold has find?
  constructor
  · intro h
    obtain ⟨e, he⟩ := Option.isSome_iff_exists.1 h
    obtain ⟨l, hl, -⟩ := Option.bind_eq_some_iff.1 he
    exact ⟨l, hl⟩
  · rintro ⟨l, hl⟩
    rw [hl]
    exact (locate?_eq_some.1 hl).2.2

theorem has_of_hasFile {d : Disk} {path : Text} (h : d.hasFile path = true) : d.has path = true := by
  obtain ⟨l, -, hl, -⟩ := hasFile_iff.1 h
  exact has_iff.2 ⟨l, hl⟩

/-- What stands in front of a slash in the path of something that is there is a directory: a walk never goes on from
anything else. -/
theorem find?_of_has_slash {d : Disk} {s t : Text} (hs : s ≠ []) (h : d.has (s ++ '/' :: t) = true) :
    d.find? s = some .directory := by
  obtain ⟨l, hl⟩ := has_iff.1 h
  obtain ⟨hacc, hw, -⟩ := locate?_eq_some.1 hl
  rw [splitOn_append_sep, walk_append] at hw
  obtain ⟨m, hm, hrest⟩ := Option.bind_eq_some_iff.1 hw
  have hentry := entry?_of_isDirectory (isDirectory_of_walk (splitOn_ne_nil '/' t) hrest)
  have hplace : d.locate? s = some m :=
    locate?_eq_some.2 ⟨isAcceptable_of_append hs hacc, hm, by rw [hentry]; rfl⟩
  rw [find?, hplace, Option.bind_some, hentry]

end ImportTrail.Disk

namespace ImportTrail.Project

open Text ImportTrail.Path Disk

/-- The path names a regular file below the root of the project. -/
def Contains (p : Project) (path : Text) : Prop :=
  ∃ here below content, p.disk.locate? p.root = some here ∧ below ≠ [] ∧
    p.disk.locate? (p.onDisk path) = some (here ++ below) ∧
    p.disk.entry? (here ++ below) = some (.file content)

/-- Whether or not the root is written with a slash at its end, a relative path is walked from where it leads. -/
theorem walk_onDisk {p : Project} {q : Text} {l : Location} (hroot : p.root ≠ []) (hq : isAbsolute q = false)
    (h : p.disk.walk [] (splitOn '/' (p.onDisk q)) = some l) :
    ∃ here, p.disk.walk [] (splitOn '/' p.root) = some here ∧ p.disk.isDirectory here = true ∧
      p.disk.walk here (splitOn '/' q) = some l := by
  have hemp : p.root.isEmpty = false := by simpa using hroot
  unfold onDisk append at h
  rw [hq, hemp, Bool.or_self, if_neg Bool.false_ne_true] at h
  split at h
  · rename_i hs
    obtain ⟨b, hb⟩ := Option.isSome_iff_exists.1 hs
    rw [before?_eq_some.1 hb] at h ⊢
    rw [List.append_assoc, List.singleton_append, splitOn_append_sep, walk_append] at h
    obtain ⟨here, hhere, hl⟩ := Option.bind_eq_some_iff.1 h
    have hd := isDirectory_of_walk (splitOn_ne_nil '/' q) hl
    -- the piece behind the last slash of the root is empty and leads nowhere else
    refine ⟨here, ?_, hd, hl⟩
    rw [splitOn_append_sep, walk_append, hhere]
    simp [splitOn, walk, hd]
  · rw [splitOn_append_sep, walk_append] at h
    obtain ⟨here, hhere, hl⟩ := Option.bind_eq_some_iff.1 h
    exact ⟨here, hhere, isDirectory_of_walk (splitOn_ne_nil '/' q) hl, hl⟩

theorem onDisk_eq_append {p : Project} {q : Text} (hq : isAbsolute q = false) : ∃ t, p.onDisk q = p.root ++ t := by
  unfold onDisk append
  by_cases hroot : p.root = []
  · exact ⟨q, by simp [hroot]⟩
  · rw [hq, if_neg (by simpa using hroot)]
    split
    · exact ⟨q, rfl⟩
    · exact ⟨'/' :: q, rfl⟩

theorem locate?_onDisk {p : Project} {q : Text} {l : Location} (hq : IsCanonical q)
    (h : p.disk.locate? (p.onDisk q) = some l) :
    ∃ here, p.disk.locate? p.root = some here ∧ l = here ++ splitOn '/' q := by
  obtain ⟨hacc, hw, -⟩ := locate?_eq_some.1 h
  have hroot : p.root ≠ [] := by
    intro hr
    have habs : isAbsolute (p.onDisk q) = true := by
      unfold isAcceptable at hacc
      simp only [Bool.and_eq_true] at hacc
      exact hacc.1.1
    simp [onDisk, append, hr, hq.2.1] at habs
  obtain ⟨t, ht⟩ := onDisk_eq_append (p := p) hq.2.1
  obtain ⟨here, hhere, hd, hl⟩ := walk_onDisk hroot hq.2.1 hw
  refine ⟨here, locate?_eq_some.2 ⟨?_, hhere, ?_⟩, walk_of_isPlain (isCanonical_iff.1 hq) hl⟩
  · exact isAcceptable_of_append hroot (ht ▸ hacc)
  · rw [entry?_of_isDirectory hd]
    rfl

theorem contains_of_hasFile {p : Project} {q : Text} (hq : IsCanonical q) (h : p.hasFile q = true) : p.Contains q := by
  obtain ⟨l, content, hl, he⟩ := hasFile_iff.1 h
  obtain ⟨here, hhere, rfl⟩ := locate?_onDisk hq hl
  exact ⟨here, splitOn '/' q, content, hhere, splitOn_ne_nil '/' q, hl, he⟩

/-- No two canonical paths lead to one place. -/
theorem eq_of_locate?_eq {p : Project} {q r : Text} {l : Location} (hq : IsCanonical q) (hr : IsCanonical r)
    (h : p.disk.locate? (p.onDisk q) = some l) (h' : p.disk.locate? (p.onDisk r) = some l) : q = r := by
  obtain ⟨here, hhere, hl⟩ := locate?_onDisk hq h
  obtain ⟨here', hhere', hl'⟩ := locate?_onDisk hr h'
  have hsame : here = here' := Option.some.inj (hhere.symm.trans hhere')
  subst hsame
  have hpieces := List.append_cancel_left (hl.symm.trans hl')
  rw [← joinWith_splitOn '/' q, hpieces, joinWith_splitOn]

theorem onDisk_append_slash {p : Project} {q : Text} (hne : q ≠ []) (hq : isAbsolute q = false) (r : Text) :
    p.onDisk (q ++ '/' :: r) = p.onDisk q ++ '/' :: r := by
  unfold onDisk append
  rw [isAbsolute_append_text hne, hq]
  split
  · rfl
  · split
    · rw [List.append_assoc]
    · rw [List.append_assoc, List.cons_append]

/-- A file below some directory of the project shows that the directory is there. -/
theorem has_of_hasFile_slash {p : Project} {q r : Text} (hne : q ≠ []) (hq : isAbsolute q = false)
    (h : p.hasFile (q ++ '/' :: r) = true) : p.has q = true := by
  have hfull : p.onDisk q ≠ [] := by
    unfold onDisk append
    split
    · exact hne
    · split <;> simp [hne]
  rw [hasFile, onDisk_append_slash hne hq] at h
  rw [has, Disk.has, find?_of_has_slash hfull (has_of_hasFile h)]
  rfl

/-- The root itself is no file of the project. -/
theorem hasFile_nil (p : Project) : p.hasFile [] = false := by
  unfold hasFile onDisk append
  by_cases hroot : p.root = []
  · have : ¬ isAcceptable [] = true := by decide
    simp [hroot, Disk.hasFile, find?, locate?, this]
  · rw [if_neg (by simpa [isAbsolute] using hroot)]
    split
    · rename_i hs
      obtain ⟨b, hb⟩ := Option.isSome_iff_exists.1 hs
      rw [List.append_nil, before?_eq_some.1 hb]
      exact hasFile_slash _ b
    · exact hasFile_slash _ p.root

end ImportTrail.Project
