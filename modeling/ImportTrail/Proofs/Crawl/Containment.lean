import ImportTrail.Proofs.Crawl.BreadthFirst
import ImportTrail.Proofs.Resolve.Containment

/-!
Which paths a crawl can report and read.

* `StaysInside` — every path is canonical, every file lies below the root, and no file is reported under two paths or
  besides a start file;
* `Strays` — within the depth, a file is read with a specifier that leads astray and is not ignored;
* `crawl_staysInside_iff` — a crawl stays inside exactly when none of its files strays.
-/

namespace ImportTrail.Crawler

open ImportTrail.Path Project

variable {c : Crawler} {starts : List Text} {u v : Text}

/-! ### Where a file leads astray -/

/-- A file with content has a specifier that leads to `q`, which is not canonical and not ignored. -/
def LeadsAstray (c : Crawler) (u q : Text) : Prop :=
  ∃ f source spec, (Path.extension? u).bind Family.ofExtension? = some f ∧ c.read u = some source ∧ source ≠ [] ∧
    spec ∈ f.imports c.strategy source ∧ Resolve.Astray f c.project spec (Path.parent u) q ∧ c.ignores q = false

theorem mem_leads : v ∈ c.leads u ↔ ∃ f source spec, (Path.extension? u).bind Family.ofExtension? = some f ∧
    c.read u = some source ∧ source ≠ [] ∧ spec ∈ f.imports c.strategy source ∧
    f.resolve? c.project spec (Path.parent u) = some v ∧ c.ignores v = false := by
  unfold leads
  constructor
  · intro h
    split at h
    · rename_i f x source hf hread
      obtain ⟨hmem, hignored⟩ := List.mem_filter.1 h
      obtain ⟨spec, hspec, hv⟩ := List.mem_filterMap.1 hmem
      exact ⟨f, x :: source, spec, hf, hread, by simp, hspec, hv, by simpa using hignored⟩
    · cases h
  · rintro ⟨f, source, spec, hf, hread, hne, hspec, hv, hignored⟩
    obtain ⟨x, source, rfl⟩ := List.exists_cons_of_ne_nil hne
    rw [hf, hread]
    exact List.mem_filter.2 ⟨List.mem_filterMap.2 ⟨spec, hspec, hv⟩, by simp [hignored]⟩

theorem hasFile_of_mem_leads (h : v ∈ c.leads u) : c.project.hasFile v = true := by
  obtain ⟨f, source, spec, -, -, -, -, hv, -⟩ := mem_leads.1 h
  exact (Resolve.mem_of_resolve? hv).2

theorem leadsAstray_iff : c.LeadsAstray u v ↔ v ∈ c.leads u ∧ ¬ IsCanonical v := by
  rw [mem_leads]
  constructor
  · rintro ⟨f, source, spec, hf, hread, hne, hspec, hv, hignored⟩
    obtain ⟨hv, hnot⟩ := Resolve.resolve?_not_canonical_iff.2 hv
    exact ⟨⟨f, source, spec, hf, hread, hne, hspec, hv, hignored⟩, hnot⟩
  · rintro ⟨⟨f, source, spec, hf, hread, hne, hspec, hv, hignored⟩, hnot⟩
    exact ⟨f, source, spec, hf, hread, hne, hspec, Resolve.resolve?_not_canonical_iff.1 ⟨hv, hnot⟩, hignored⟩

/-! ### What is asked for -/

/-- The reader is asked for the files of a level and for files that are found from there on. -/
theorem mem_levels_reads {d : ℕ} {seen level : List Text} (h : v ∈ (c.levels d seen level).reads) :
    v ∈ level ∨ v ∈ (c.levels d seen level).files := by
  induction d generalizing seen level with
  | zero => cases level <;> cases h
  | succ d ih =>
    cases level with
    | nil => cases h
    | cons p ps =>
      simp only [levels] at h ⊢
      rcases List.mem_append.1 h with h | h
      · obtain ⟨w, hw, rfl⟩ := List.mem_map.1 h
        obtain ⟨q, hq, rfl⟩ := List.mem_map.1 (List.mem_of_mem_filter hw)
        exact Or.inl hq
      · rcases ih h with h | h
        · exact Or.inr (List.mem_append_left _ h)
        · exact Or.inr (List.mem_append_right _ h)

theorem mem_crawl_reads (h : v ∈ (c.crawl starts).reads) : v ∈ c.startLevel starts ∨ v ∈ (c.crawl starts).files :=
  mem_levels_reads h

theorem canonical_of_mem_startLevel (h : v ∈ c.startLevel starts) : IsCanonical v := by
  obtain ⟨s, -, hs⟩ := List.mem_filterMap.1 (mem_fresh.1 h).1
  exact projectForm?_canonical hs

/-! ### Containment -/

/-- Within the depth, a file that the crawl reaches leads astray. -/
def Strays (c : Crawler) (starts : List Text) : Prop :=
  ∃ k u q, k < c.maxDepth ∧ c.Reached (c.startLevel starts) k u ∧ c.LeadsAstray u q

/-- What a crawl may report and read, given where it starts. -/
structure StaysInside (c : Crawler) (start : List Text) (o : Outcome) : Prop where
  canonical_files : ∀ v ∈ o.files, IsCanonical v
  canonical_reads : ∀ v ∈ o.reads, IsCanonical v
  contains_files : ∀ v ∈ o.files, c.project.Contains v
  files_apart : o.files.Pairwise fun v w =>
    c.project.disk.locate? (c.project.onDisk v) ≠ c.project.disk.locate? (c.project.onDisk w)
  files_apart_start : ∀ v ∈ o.files, ∀ s ∈ start,
    c.project.disk.locate? (c.project.onDisk v) ≠ c.project.disk.locate? (c.project.onDisk s)

/-- A file that is found is the last of a chain with at least one import. -/
theorem exists_leads_of_mem_files (h : v ∈ (c.crawl starts).files) :
    ∃ k u, k < c.maxDepth ∧ c.Reached (c.startLevel starts) k u ∧ v ∈ c.leads u := by
  obtain ⟨hstart, k, hk, hreach⟩ := mem_crawl_files.1 h
  cases k with
  | zero => exact absurd (reached_zero.1 hreach) hstart
  | succ k =>
    obtain ⟨u, hu, hv⟩ := reached_succ.1 hreach
    exact ⟨k, u, by omega, hu, hv⟩

theorem canonical_files_iff : (∀ v ∈ (c.crawl starts).files, IsCanonical v) ↔ ¬ c.Strays starts := by
  constructor
  · rintro h ⟨k, u, q, hk, hu, hq⟩
    obtain ⟨hlead, hnot⟩ := leadsAstray_iff.1 hq
    refine hnot (h q (mem_crawl_files.2 ⟨fun hs => hnot (canonical_of_mem_startLevel hs), k + 1, hk, ?_⟩))
    exact reached_succ.2 ⟨u, hu, hlead⟩
  · intro h v hv
    obtain ⟨k, u, hk, hu, hlead⟩ := exists_leads_of_mem_files hv
    by_contra hnot
    exact h ⟨k, u, v, hk, hu, leadsAstray_iff.2 ⟨hlead, hnot⟩⟩

/-- Two canonical paths, of which the first is a file of the project, lead to different places. -/
theorem locate?_ne {p : Project} {v w : Text} (hv : IsCanonical v) (hw : IsCanonical w) (hfile : p.Contains v)
    (hne : v ≠ w) : p.disk.locate? (p.onDisk v) ≠ p.disk.locate? (p.onDisk w) := by
  obtain ⟨here, below, content, -, -, hplace, -⟩ := hfile
  intro heq
  exact hne (eq_of_locate?_eq hv hw hplace (heq ▸ hplace))

/-- **A crawl stays inside the project exactly when none of the files it follows leads astray.** -/
theorem crawl_staysInside_iff (c : Crawler) (starts : List Text) :
    c.StaysInside (c.startLevel starts) (c.crawl starts) ↔ ¬ c.Strays starts := by
  constructor
  · intro h
    exact canonical_files_iff.1 h.canonical_files
  · intro h
    have hfiles := canonical_files_iff.2 h
    have hinside : ∀ v ∈ (c.crawl starts).files, c.project.Contains v := by
      intro v hv
      obtain ⟨k, u, -, -, hlead⟩ := exists_leads_of_mem_files hv
      exact contains_of_hasFile (hfiles v hv) (hasFile_of_mem_leads hlead)
    have hnodup : (c.crawl starts).files.Nodup := by
      have := nodup_within (c := c) (nodup_startLevel c starts) c.maxDepth
      rw [← append_crawl_files] at this
      exact (List.nodup_append.1 this).2.1
    refine ⟨hfiles, ?_, hinside, ?_, ?_⟩
    · intro v hv
      -- the reader is asked only for what a crawl starts with or finds
      rcases mem_crawl_reads hv with hs | hf
      · exact canonical_of_mem_startLevel hs
      · exact hfiles v hf
    · refine (List.Pairwise.and_mem.1 hnodup).imp ?_
      rintro v w ⟨hv, hw, hne⟩
      exact locate?_ne (hfiles v hv) (hfiles w hw) (hinside v hv) hne
    · intro v hv s hs
      refine locate?_ne (hfiles v hv) (canonical_of_mem_startLevel hs) (hinside v hv) ?_
      rintro rfl
      exact (mem_crawl_files.1 hv).1 hs

/-- A project in `/p` whose only file imports two dots with an extension, and an index file above it. -/
def belowIndex : Crawler where
  project := ⟨⟨[([['p']], .directory), ([['p'], "a.ts".toList], .file ⟨#[]⟩), (["index.ts".toList], .file ⟨#[]⟩)]⟩,
    "/p".toList⟩
  read := fun path => if path = "a.ts".toList then some "import './...ts'".toList else none

theorem crawl_strays_above_root :
    (belowIndex.crawl ["a.ts".toList]).files = ["../index.ts".toList] ∧ ¬ IsCanonical "../index.ts".toList ∧
      ¬ belowIndex.StaysInside (belowIndex.startLevel ["a.ts".toList]) (belowIndex.crawl ["a.ts".toList]) := by
  have hfiles : (belowIndex.crawl ["a.ts".toList]).files = ["../index.ts".toList] := by decide +kernel
  have hnot : ¬ IsCanonical "../index.ts".toList := by decide
  refine ⟨hfiles, hnot, fun h => hnot (h.canonical_files _ ?_)⟩
  rw [hfiles]
  exact List.mem_singleton_self _

end ImportTrail.Crawler
