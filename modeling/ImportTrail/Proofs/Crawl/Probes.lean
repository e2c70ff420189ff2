import ImportTrail.CommandLine
import ImportTrail.Proofs.Crawl.Comparison

/-!
What the disk is asked for in the course of a crawl.

* `crawl_subset_wanted` — a crawl finds and reads nothing but what it may look up;
* `crawl_eq_of_agree`, `collectFiles_eq_of_agree` — what stands at these paths is all that a crawl needs of a disk.
-/

namespace ImportTrail

namespace Crawler

open Resolve

variable {c : Crawler} {starts : List Text} {disk : Disk} {read : Text → Option Text} {u v : Text}

/-! ### What a crawl looks up -/

theorem mem_probes_of_mem_leads (h : v ∈ c.leads u) : v ∈ c.probes u := by
  obtain ⟨f, source, spec, hf, hread, -, hspec, hresolved, -⟩ := mem_leads.1 h
  rw [probes, hf, hread]
  exact List.mem_flatMap.2 ⟨spec, hspec, (mem_of_resolve? hresolved).1⟩

theorem mem_wanted_of_mem_files (h : v ∈ (c.crawl starts).files) : v ∈ c.wanted starts := by
  obtain ⟨k, u, hk, hu, hlead⟩ := exists_leads_of_mem_files h
  obtain ⟨f, -, -, hf, -⟩ := mem_leads.1 hlead
  have hread : u ∈ (c.crawl starts).reads := mem_crawl_reads_iff.2 ⟨⟨k, hk, hu⟩, by rw [hf]; rfl⟩
  exact List.mem_append_right _ (List.mem_flatMap.2 ⟨u, hread, mem_probes_of_mem_leads hlead⟩)

/-- Whatever a crawl finds and reads is among the paths that it may look up. -/
theorem crawl_subset_wanted (c : Crawler) (starts : List Text) :
    (c.crawl starts).files ⊆ c.wanted starts ∧ (c.crawl starts).reads ⊆ c.wanted starts := by
  refine ⟨fun v hv => mem_wanted_of_mem_files hv, fun v hv => ?_⟩
  rcases mem_crawl_reads hv with hs | hf
  · exact List.mem_append_left _ hs
  · exact mem_wanted_of_mem_files hf

/-! ### Another disk -/

/-- The crawler with its project on another disk, and with the reader that it has. -/
def movedTo (c : Crawler) (disk : Disk) : Crawler := { c with project := { c.project with disk := disk } }

theorem target_movedTo {f : Family} {dir spec : Text} (h : c.project.Agree ⟨disk, c.project.root⟩ (f.probes spec dir)) :
    (c.movedTo disk).target f dir spec = c.target f dir spec := by
  unfold target
  rw [← resolve?_congr h]
  rfl

/-- Where the imports of a file lead depends on what stands at its probes. -/
theorem visit_movedTo (h : c.project.Agree ⟨disk, c.project.root⟩ (c.probes v)) :
    (c.movedTo disk).visit v = c.visit v := by
  have hread : (c.movedTo disk).read = c.read := rfl
  unfold visit
  rw [hread]
  cases hf : (Path.extension? v).bind Family.ofExtension? with
  | none => rfl
  | some f =>
    cases hsource : c.read v with
    | none => rfl
    | some source =>
      rw [probes, hf, hsource] at h
      have htargets : (f.imports c.strategy source).map ((c.movedTo disk).target f (Path.parent v)) =
          (f.imports c.strategy source).map (c.target f (Path.parent v)) :=
        List.map_congr_left fun spec hspec => target_movedTo fun q hq => h q (List.mem_flatMap.2 ⟨spec, hspec, hq⟩)
      cases source with
      | nil => rfl
      | cons a s => exact congrArg (fun ts => (⟨true, some ts⟩ : Visit)) htargets

/-- The probes of a file that is followed may be looked up; a file of no family has none. -/
theorem probes_subset_wanted (h : v ∈ c.expanded (c.startLevel starts) c.maxDepth) : c.probes v ⊆ c.wanted starts := by
  intro q hq
  have hasked : (c.visit v).asked = true := by
    rw [asked_visit]
    cases hf : (Path.extension? v).bind Family.ofExtension? with
    | none =>
      rw [probes, hf] at hq
      cases hq
    | some f => rfl
  have hread : v ∈ (c.crawl starts).reads := by
    rw [crawl_eq_outcome]
    exact List.mem_filter.2 ⟨h, hasked⟩
  exact List.mem_append_right _ (List.mem_flatMap.2 ⟨v, hread, hq⟩)

theorem crawl_movedTo (h : c.project.Agree ⟨disk, c.project.root⟩ (c.wanted starts)) :
    (c.movedTo disk).crawl starts = c.crawl starts := by
  rw [crawl_eq_outcome, crawl_eq_outcome]
  exact outcome_congr fun v hv => visit_movedTo fun q hq => h q (probes_subset_wanted hv hq)

/-- **A crawl depends on what it looks up and reads.** On another disk that has the same at the paths that may be looked
up, and with a reader that gives the same for the files that are read, it comes to the same. -/
theorem crawl_eq_of_agree (hagree : c.project.Agree ⟨disk, c.project.root⟩ (c.wanted starts))
    (hread : ∀ v ∈ (c.crawl starts).reads, read v = c.read v) :
    { c.movedTo disk with read := read }.crawl starts = c.crawl starts := by
  have hmoved := crawl_movedTo hagree
  rw [← hmoved] at hread
  exact (crawl_eq_of_reads_agree hread).trans hmoved

end Crawler

/-- The files of a project that are reached under given settings are those on any other disk that has the same at the
paths that are looked up and in the files that are read. -/
theorem CommandLine.collectFiles_eq_of_agree {p : Project} {disk : Disk} {v : Settings.Values} {starts : List Text}
    (h : ∀ c, crawlerOf p v = .ok c → p.Agree ⟨disk, p.root⟩ (c.wanted starts) ∧ ∀ q ∈ (c.crawl starts).reads,
      disk.source? v.maxFileSize (p.onDisk q) = p.disk.source? v.maxFileSize (p.onDisk q)) :
    collectFiles ⟨disk, p.root⟩ v starts = collectFiles p v starts := by
  unfold collectFiles
  split
  · unfold crawlerOf at h ⊢
    cases hset : IgnoreSet.ofPatterns v.ignore with
    | error e => rfl
    | ok set =>
      rw [hset] at h
      obtain ⟨hagree, hread⟩ := h _ rfl
      have hcrawl := Crawler.crawl_eq_of_agree hagree hread
      exact congrArg (fun o : Outcome => (.ok (o.files, some o.stats) : Except Glob.Error _)) hcrawl
  · rfl

end ImportTrail
