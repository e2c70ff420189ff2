import ImportTrail.Proofs.Resolve.Directory

/-!
The directories above a directory, by its text.

* `IsAncestor` — a directory itself, its text cut off behind one of its components, and what all such paths lie below;
* `Cut`, `mem_above` — where the pieces of a directory are cut;
* `isAncestor_iff`, `mem_ancestors_iff` — the ancestors that are listed are just these;
* `depth`, `ancestors_pairwise_depth` — each of them is deeper than those behind it;
* `IsDeepest`, `findSome?_ancestors` — so the first answer among them is that of the deepest.
-/

namespace ImportTrail.Path

open Text

variable {dir up s first : Text} {more ns us : List Text}

/-- Some piece names something. -/
def Leads (pieces : List Text) : Prop := ∃ piece ∈ pieces, isIdle piece = false

/-- A directory and those above it by its text. -/
inductive IsAncestor (dir : Text) : Text → Prop
  | self : IsAncestor dir dir
  /-- What stands in front of a slash, if it ends with a component and another one follows. A dot is a component only where
  a relative path begins with it. -/
  | above {up rest : Text} : dir = up ++ '/' :: rest → isIdle (fileName up) = false ∨ up = ['.'] →
      Leads (splitOn '/' rest) → IsAncestor dir up
  /-- The root of the disk, above an absolute path. -/
  | root {rest : Text} : dir = '/' :: rest → Leads (splitOn '/' rest) → IsAncestor dir ['/']
  /-- The empty path, above a relative one. -/
  | here : isAbsolute dir = false → dir ≠ [] → IsAncestor dir []

/-! ### Pieces -/

theorem Leads.ne_nil {pieces : List Text} (h : Leads pieces) : pieces ≠ [] := by
  obtain ⟨piece, hmem, -⟩ := h
  exact List.ne_nil_of_mem hmem

theorem ofNames_cons (hne : ns ≠ []) (n : Text) : ofNames (n :: ns) = n ++ '/' :: ofNames ns := by
  rw [← List.singleton_append, ofNames_append (by simp) hne, ofNames_singleton]

/-- Nothing stands in front of the first slash of an absolute path, and of no other but the empty one. -/
theorem first_eq_nil_iff (h : splitOn '/' s = first :: more) : first = [] ↔ s = [] ∨ isAbsolute s = true := by
  obtain ⟨rest, hs⟩ := splitOn_eq_cons '/' s
  obtain ⟨rfl, -⟩ := List.cons.inj (h.symm.trans hs)
  rw [isAbsolute_iff]
  cases s with
  | nil => simp [upTo]
  | cons c s => by_cases hc : c = '/' <;> simp [upTo, hc]

theorem getLast?_splitOn (s : Text) : (splitOn '/' s).getLast? = some (fileName s) := by
  obtain ⟨init, hs⟩ := splitOn_eq_concat_fileName s
  rw [hs, List.getLast?_concat]

/-- A beginning of some pieces that is empty or ends with a component, and that another component follows. -/
def Cut (us more : List Text) : Prop :=
  ∃ rest, more = us ++ rest ∧ Leads rest ∧ ∀ n ∈ us.getLast?, isIdle n = false

/-- From the last piece on, each component leaves what stands in front of it, without the idle pieces between. -/
theorem mem_above {u ps : List Text} :
    u ∈ above ps ↔ ∃ front, ps = front ++ u ∧ Leads front ∧ ∀ n ∈ u.head?, isIdle n = false := by
  induction ps with
  | nil =>
    simp only [above, List.not_mem_nil, false_iff]
    rintro ⟨front, hnil, hleads, -⟩
    exact hleads.ne_nil (List.append_eq_nil_iff.1 hnil.symm).1
  | cons x ps ih =>
    have hcons : (∃ front, x :: ps = front ++ u ∧ Leads front ∧ ∀ n ∈ u.head?, isIdle n = false) ↔
        ∃ front, ps = front ++ u ∧ Leads (x :: front) ∧ ∀ n ∈ u.head?, isIdle n = false := by
      constructor
      · rintro ⟨front, hps, hleads, hu⟩
        obtain ⟨y, front, rfl⟩ := List.exists_cons_of_ne_nil hleads.ne_nil
        obtain ⟨rfl, rfl⟩ := List.cons.inj hps
        exact ⟨front, rfl, hleads, hu⟩
      · rintro ⟨front, rfl, hleads, hu⟩
        exact ⟨x :: front, rfl, hleads, hu⟩
    rw [above, hcons]
    by_cases hx : isIdle x = true
    · have hleads : ∀ front : List Text, Leads (x :: front) ↔ Leads front := by simp [Leads, hx]
      rw [if_pos hx, ih]
      simp only [hleads]
    · rw [Bool.not_eq_true] at hx
      rw [if_neg (by simp [hx]), List.mem_cons, ih]
      constructor
      · rintro (rfl | ⟨front, hps, -, hu⟩)
        · refine ⟨ps.takeWhile isIdle, List.takeWhile_append_dropWhile.symm, ⟨x, List.mem_cons_self, hx⟩, ?_⟩
          intro n hn
          have := List.head?_dropWhile_not isIdle ps
          rw [Option.mem_def.1 hn] at this
          simpa using this
        · exact ⟨front, hps, ⟨x, List.mem_cons_self, hx⟩, hu⟩
      · rintro ⟨front, rfl, -, hu⟩
        -- either a component is left in front, or nothing but idle pieces
        by_cases hfront : Leads front
        · exact Or.inr ⟨front, rfl, hfront, hu⟩
        · have hidle : ∀ n ∈ front, isIdle n = true := by simpa [Leads] using hfront
          refine Or.inl ?_
          rw [List.dropWhile_append_of_pos hidle]
          cases u with
          | nil => rfl
          | cons n u => rw [List.dropWhile_cons_of_neg (by simp [hu n rfl])]

theorem mem_above_reverse : us.reverse ∈ above more.reverse ↔ Cut us more := by
  rw [mem_above]
  constructor
  · rintro ⟨front, hmore, ⟨piece, hmem, hpiece⟩, hlast⟩
    refine ⟨front.reverse, by simpa using congrArg List.reverse hmore, ⟨piece, by simpa using hmem, hpiece⟩, ?_⟩
    simpa using hlast
  · rintro ⟨rest, rfl, ⟨piece, hmem, hpiece⟩, hlast⟩
    exact ⟨rest.reverse, by simp, ⟨piece, by simpa using hmem, hpiece⟩, by simpa using hlast⟩

/-! ### The ancestors of a directory -/

theorem mem_ancestors (h : splitOn '/' dir = first :: more) :
    up ∈ ancestors dir ↔ up = dir ∨ (∃ us, Cut us more ∧ up = ofPieces first us) ∨ first ≠ [] ∧ up = [] := by
  have hcut : up ∈ ((above more.reverse).map fun u => ofPieces first u.reverse) ↔
      ∃ us, Cut us more ∧ up = ofPieces first us := by
    rw [List.mem_map]
    constructor
    · rintro ⟨u, hu, rfl⟩
      exact ⟨u.reverse, mem_above_reverse.1 (by rwa [List.reverse_reverse]), rfl⟩
    · rintro ⟨us, hus, rfl⟩
      exact ⟨us.reverse, mem_above_reverse.2 hus, by rw [List.reverse_reverse]⟩
  have hlast : up ∈ (if first.isEmpty then [] else [[]] : List Text) ↔ first ≠ [] ∧ up = [] := by
    by_cases hnil : first = [] <;> simp [hnil]
  simp only [ancestors, h, List.cons_append, List.mem_cons, List.mem_append, hcut, hlast]

theorem ofPieces_eq (h : us ≠ [] ∨ first ≠ []) : ofPieces first us = ofNames (first :: us) := by
  unfold ofPieces
  by_cases hfirst : first = []
  · rw [hfirst, ofNames_cons (h.resolve_right (not_not_intro hfirst))]
    rfl
  · rw [if_neg (by simpa using hfirst)]

theorem splitOn_ofPieces (h : us ≠ [] ∨ first ≠ []) (hslash : ∀ n ∈ first :: us, '/' ∉ n) :
    splitOn '/' (ofPieces first us) = first :: us := by
  rw [ofPieces_eq h]
  exact splitOn_joinWith (List.cons_ne_nil first us) hslash

/-- What stands in front of a slash is cut off there. -/
theorem exists_cut_of_above {rest : Text} (h : splitOn '/' (up ++ '/' :: rest) = first :: more)
    (hends : isIdle (fileName up) = false ∨ up = ['.']) (hleads : Leads (splitOn '/' rest)) :
    ∃ us, Cut us more ∧ up = ofPieces first us := by
  obtain ⟨first', us, hpieces⟩ := List.exists_cons_of_ne_nil (splitOn_ne_nil '/' up)
  rw [splitOn_append_sep, hpieces, List.cons_append] at h
  obtain ⟨rfl, rfl⟩ := List.cons.inj h
  have hne : us ≠ [] ∨ first' ≠ [] := by
    by_contra hnone
    rw [not_or, not_not, not_not] at hnone
    obtain ⟨rfl, rfl⟩ := hnone
    rw [eq_of_splitOn_singleton hpieces] at hends
    exact absurd hends (by decide)
  have htext : up = ofPieces first' us := by rw [ofPieces_eq hne, ofNames, ← hpieces, joinWith_splitOn]
  refine ⟨us, ⟨_, rfl, hleads, fun n hn => ?_⟩, htext⟩
  have hlast := getLast?_splitOn up
  rw [hpieces, List.getLast?_cons, Option.mem_def.1 hn, Option.getD_some, Option.some.injEq] at hlast
  rcases hends with hends | rfl
  · rwa [hlast]
  · obtain ⟨rfl, rfl⟩ := List.cons.inj (show [['.']] = first' :: us from hpieces)
    cases hn

/-- The path of the pieces up to a cut ends with a component, or it is the dot in front of a relative path. -/
theorem ofPieces_ends (hne : us ≠ [] ∨ first ≠ []) (hslash : ∀ n ∈ first :: us, '/' ∉ n)
    (hlast : ∀ n ∈ us.getLast?, isIdle n = false) :
    isIdle (fileName (ofPieces first us)) = false ∨ ofPieces first us = ['.'] := by
  have hname := getLast?_splitOn (ofPieces first us)
  rw [splitOn_ofPieces hne hslash, List.getLast?_cons, Option.some.injEq] at hname
  rw [← hname]
  cases hus : us.getLast? with
  | some n => exact Or.inl (hlast n hus)
  | none =>
    obtain rfl := List.getLast?_eq_none_iff.1 hus
    have hfirst : first ≠ [] := hne.resolve_left (not_not_intro rfl)
    by_cases hdot : first = ['.']
    · exact Or.inr (by rw [hdot]; rfl)
    · exact Or.inl (by simp [isIdle, hfirst, hdot])

/-- What is cut off lies above. -/
theorem Cut.isAncestor (h : splitOn '/' dir = first :: more) (hcut : Cut us more) :
    IsAncestor dir (ofPieces first us) := by
  obtain ⟨rest, rfl, hleads, hlast⟩ := hcut
  rw [← List.cons_append] at h
  have hslash : ∀ n ∈ first :: us ++ rest, '/' ∉ n := fun n hn => notMem_of_mem_splitOn (h ▸ hn)
  have hrest : splitOn '/' (ofNames rest) = rest :=
    splitOn_joinWith hleads.ne_nil fun n hn => hslash n (List.mem_append_right _ hn)
  have hdir : dir = ofNames (first :: us) ++ '/' :: ofNames rest := by
    rw [← ofNames_append (List.cons_ne_nil first us) hleads.ne_nil, ← h, ofNames, joinWith_splitOn]
  rw [← hrest] at hleads
  by_cases hne : us ≠ [] ∨ first ≠ []
  · rw [← ofPieces_eq hne] at hdir
    exact .above hdir (ofPieces_ends hne (fun n hn => hslash n (List.mem_append_left _ hn)) hlast) hleads
  · rw [not_or, not_not, not_not] at hne
    obtain ⟨rfl, rfl⟩ := hne
    exact .root hdir hleads

/-- The ancestors of a directory, by its pieces. -/
theorem isAncestor_iff (h : splitOn '/' dir = first :: more) :
    IsAncestor dir up ↔ up = dir ∨ (∃ us, Cut us more ∧ up = ofPieces first us) ∨ first ≠ [] ∧ up = [] := by
  constructor
  · intro hup
    cases hup with
    | self => exact Or.inl rfl
    | @above up rest hdir hends hleads =>
      rw [hdir] at h
      exact Or.inr (Or.inl (exists_cut_of_above h hends hleads))
    | @root rest hdir hleads =>
      have hpieces : splitOn '/' dir = [] :: splitOn '/' rest := by rw [hdir, splitOn, if_pos rfl]
      obtain ⟨rfl, rfl⟩ := List.cons.inj (h.symm.trans hpieces)
      exact Or.inr (Or.inl ⟨[], ⟨_, rfl, hleads, by simp⟩, rfl⟩)
    | here hrel hne =>
      refine Or.inr (Or.inr ⟨fun hfirst => ?_, rfl⟩)
      rcases (first_eq_nil_iff h).1 hfirst with hnil | habs
      · exact hne hnil
      · rw [hrel] at habs
        cases habs
  · rintro (rfl | ⟨us, hcut, rfl⟩ | ⟨hne, rfl⟩)
    · exact .self
    · exact hcut.isAncestor h
    · refine .here (Bool.eq_false_iff.2 fun habs => hne ?_) fun hnil => hne ?_
      · exact (first_eq_nil_iff h).2 (Or.inr habs)
      · exact (first_eq_nil_iff h).2 (Or.inl hnil)

/-- **The ancestors that are listed are a directory and those above it by its text.** -/
theorem mem_ancestors_iff : up ∈ ancestors dir ↔ IsAncestor dir up := by
  obtain ⟨first, more, h⟩ := List.exists_cons_of_ne_nil (splitOn_ne_nil '/' dir)
  rw [mem_ancestors h, isAncestor_iff h]

/-! ### The deepest ancestor -/

/-- How many components a path has. -/
def depth (p : Text) : ℕ := (components p).length

/-- How many pieces name something. -/
def named (pieces : List Text) : ℕ := pieces.countP fun piece => !isIdle piece

theorem isIdle_iff {piece : Text} : isIdle piece = true ↔ piece = [] ∨ piece = ['.'] := by simp [isIdle]

theorem length_filterMap_ofPiece? (pieces : List Text) :
    (pieces.filterMap Component.ofPiece?).length = named pieces := by
  have hsome : ∀ piece, (Component.ofPiece? piece).isSome = !isIdle piece := by
    intro piece
    rw [Bool.eq_iff_iff, Bool.not_eq_true', ← Bool.not_eq_true, isIdle_iff]
    unfold Component.ofPiece?
    split
    · simp_all
    · split <;> simp_all
  rw [List.length_filterMap_eq_countP, named]
  exact List.countP_congr fun piece _ => by rw [hsome]

/-- The first piece of a path is a component, or the root of the disk stands for it. -/
theorem depth_eq (h : splitOn '/' s = first :: more) (hne : s ≠ []) : depth s = named more + 1 := by
  have hbody := length_filterMap_ofPiece? (first :: more)
  unfold depth components
  simp only [h, List.head?_cons, Option.some.injEq]
  split
  · rename_i habs
    have hfirst : isIdle first = true := isIdle_iff.2 (Or.inl ((first_eq_nil_iff h).2 (Or.inr habs)))
    rw [List.length_cons, hbody, named, List.countP_cons_of_neg (by simp [hfirst])]
    rfl
  · rename_i hrel
    split
    · rename_i hdot
      have hfirst : isIdle first = true := isIdle_iff.2 (Or.inr hdot)
      rw [List.length_cons, hbody, named, List.countP_cons_of_neg (by simp [hfirst])]
      rfl
    · rename_i hdot
      have hfirst : isIdle first = false := by
        rw [Bool.eq_false_iff, Ne, isIdle_iff, first_eq_nil_iff h]
        rintro ((hnil | habs) | hdot')
        exacts [hne hnil, hrel habs, hdot hdot']
      rw [hbody, named, List.countP_cons_of_pos (by simp [hfirst])]
      rfl

theorem depth_ofPieces (h : ∀ n ∈ first :: us, '/' ∉ n) : depth (ofPieces first us) = named us + 1 := by
  by_cases hne : us ≠ [] ∨ first ≠ []
  · have hpieces := splitOn_ofPieces hne h
    refine depth_eq hpieces fun hnil => ?_
    obtain ⟨rfl, rfl⟩ := List.cons.inj (hpieces.symm.trans (congrArg (splitOn '/') hnil))
    exact hne.elim (fun hus => hus rfl) fun hfirst => hfirst rfl
  · rw [not_or, not_not, not_not] at hne
    obtain ⟨rfl, rfl⟩ := hne
    rfl

theorem named_dropWhile (ps : List Text) : named (ps.dropWhile isIdle) = named ps := by
  have hidle : named (ps.takeWhile isIdle) = 0 := by
    rw [named, List.countP_eq_zero]
    intro n hn
    simpa using List.all_eq_true.1 (List.all_takeWhile (l := ps)) n hn
  have hsplit : named ps = named (ps.takeWhile isIdle) + named (ps.dropWhile isIdle) := by
    rw [named, named, named, ← List.countP_append, List.takeWhile_append_dropWhile]
  rw [hsplit, hidle, Nat.zero_add]

/-- Each cut leaves fewer components than the one before it. -/
theorem above_pairwise (ps : List Text) :
    (∀ u ∈ above ps, named u < named ps) ∧ (above ps).Pairwise fun u v => named v < named u := by
  induction ps with
  | nil => simp [above]
  | cons x ps ih =>
    obtain ⟨hlt, hpairwise⟩ := ih
    rw [above]
    by_cases hx : isIdle x = true
    · have hcount : named (x :: ps) = named ps := List.countP_cons_of_neg (by simp [hx])
      rw [if_pos hx, hcount]
      exact ⟨hlt, hpairwise⟩
    · have hcount : named (x :: ps) = named ps + 1 := List.countP_cons_of_pos (by simp [hx])
      rw [if_neg hx, hcount, List.pairwise_cons, named_dropWhile]
      refine ⟨fun u hu => ?_, hlt, hpairwise⟩
      rcases List.mem_cons.1 hu with rfl | hu
      · rw [named_dropWhile]
        exact Nat.lt_succ_self _
      · exact Nat.lt_succ_of_lt (hlt u hu)

/-- A cut of a directory is as deep as its pieces say. -/
theorem depth_of_mem_above {u : List Text} (h : splitOn '/' dir = first :: more) (hu : u ∈ above more.reverse) :
    depth (ofPieces first u.reverse) = named u + 1 := by
  obtain ⟨front, hmore, -⟩ := mem_above.1 hu
  have hsubset : first :: u.reverse ⊆ first :: more := by
    refine List.cons_subset_cons first fun m hm => ?_
    rw [← List.mem_reverse, hmore]
    exact List.mem_append_right _ (List.mem_reverse.1 hm)
  have hreverse : named u.reverse = named u := List.countP_reverse
  rw [depth_ofPieces fun n hn => notMem_of_mem_splitOn (h ▸ hsubset hn), hreverse]

/-- **Each ancestor is deeper than those behind it.** -/
theorem ancestors_pairwise_depth (dir : Text) : (ancestors dir).Pairwise fun a b => depth b < depth a := by
  obtain ⟨first, more, h⟩ := List.exists_cons_of_ne_nil (splitOn_ne_nil '/' dir)
  rcases eq_or_ne dir [] with rfl | hne
  · exact List.pairwise_singleton _ _
  · obtain ⟨hlt, hpairwise⟩ := above_pairwise more.reverse
    have hdir : depth dir = named more.reverse + 1 := by
      rw [depth_eq h hne]
      exact congrArg (· + 1) List.countP_reverse.symm
    have hlast : ∀ b ∈ (if first.isEmpty then [] else [[]] : List Text), depth b = 0 := by
      intro b hb
      split at hb
      · cases hb
      · rw [List.mem_singleton.1 hb]
        rfl
    simp only [ancestors, h]
    rw [List.cons_append, List.pairwise_cons, List.pairwise_append, List.pairwise_map]
    refine ⟨fun b hb => ?_, ?_, ?_, fun a ha b hb => ?_⟩
    · rw [hdir]
      rcases List.mem_append.1 hb with hb | hb
      · obtain ⟨u, hu, rfl⟩ := List.mem_map.1 hb
        rw [depth_of_mem_above h hu]
        exact Nat.succ_lt_succ (hlt u hu)
      · rw [hlast b hb]
        exact Nat.succ_pos _
    · refine hpairwise.imp_of_mem fun hu hv huv => ?_
      rw [depth_of_mem_above h hu, depth_of_mem_above h hv]
      exact Nat.succ_lt_succ huv
    · split
      · exact List.Pairwise.nil
      · exact List.pairwise_singleton _ _
    · obtain ⟨u, hu, rfl⟩ := List.mem_map.1 ha
      rw [hlast b hb, depth_of_mem_above h hu]
      exact Nat.succ_pos _

/-- The deepest ancestor of a directory that something holds of. -/
structure IsDeepest (dir : Text) (P : Text → Prop) (up : Text) : Prop where
  ancestor : IsAncestor dir up
  holds : P up
  deepest : ∀ v, IsAncestor dir v → P v → depth v ≤ depth up

/-- **The first answer among the ancestors is that of the deepest one that has an answer.** -/
theorem findSome?_ancestors {α : Type} {f : Text → Option α} {y : α} :
    (ancestors dir).findSome? f = some y ↔ ∃ up, IsDeepest dir (fun v => (f v).isSome = true) up ∧ f up = some y := by
  have hpairwise := ancestors_pairwise_depth dir
  constructor
  · intro h
    obtain ⟨deeper, up, rest, hlist, hup, hnone⟩ := List.findSome?_eq_some_iff.1 h
    rw [hlist, List.pairwise_append, List.pairwise_cons] at hpairwise
    refine ⟨up, ⟨mem_ancestors_iff.1 (by simp [hlist]), by simp [hup], fun v hv hsome => ?_⟩, hup⟩
    rw [← mem_ancestors_iff, hlist, List.mem_append, List.mem_cons] at hv
    rcases hv with hv | rfl | hv
    · rw [hnone v hv] at hsome
      cases hsome
    · exact le_rfl
    · exact (hpairwise.2.1.1 v hv).le
  · rintro ⟨up, hup, hy⟩
    obtain ⟨deeper, rest, hlist⟩ := List.append_of_mem (mem_ancestors_iff.2 hup.ancestor)
    rw [hlist, List.pairwise_append] at hpairwise
    refine List.findSome?_eq_some_iff.2 ⟨deeper, up, rest, hlist, hy, fun v hv => ?_⟩
    by_contra hsome
    have hle := hup.deepest v (mem_ancestors_iff.1 (by simp [hlist, hv])) (Option.isSome_iff_ne_none.2 hsome)
    have hlt := hpairwise.2.2 v hv up List.mem_cons_self
    omega

theorem findSome?_ancestors_eq_none {α : Type} {f : Text → Option α} :
    (ancestors dir).findSome? f = none ↔ ∀ up, IsAncestor dir up → f up = none := by
  simp only [List.findSome?_eq_none_iff, mem_ancestors_iff]

end ImportTrail.Path
