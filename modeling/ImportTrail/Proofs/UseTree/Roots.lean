import ImportTrail.Proofs.Scan.Spelling
import ImportTrail.Proofs.Text.Blanks

/-!
What becomes of the first word of a local use tree when the tree is expanded.

* `mem_expandUnder` — a path of a tree under a path is that path, or goes on from it;
* `StandsForPath` — the trees that stand for the path in front of them, `self` and stars among them;
* `Collapses` — the local trees of which a path is left with nothing but its root;
* `isLocalPath_of_mem_expand`, `exists_bareRoot_of_collapses` — the paths of a local tree are local, but for the bare
  root that a collapsing tree always has among them.
-/

namespace ImportTrail.UseTree

open Text Scan.Rust

variable {path tree v : Text}

/-! ### Expansion -/

/-- What a leaf names once its alias, its stars and its colons are dropped. -/
def leafItem (tree : Text) : Text := dropColons (dropStars (trim (beforeFirst " as ".toList tree)))

/-- The items of leaves that add nothing to the path in front of them. -/
def emptyItems : List Text := [[], ['*'], "self".toList]

theorem expandUnder_of_leaf (hne : trim tree ≠ []) (hb : braces? (trim tree) = none) (path : Text) :
    expandUnder path tree = if leafItem (trim tree) ∈ emptyItems then (if path.isEmpty then [] else [path])
      else [append path (leafItem (trim tree))] := by
  rw [expandUnder, if_neg (by simpa using hne)]
  split
  · simp only [leaf, emptyItems, leafItem, List.mem_cons, List.not_mem_nil, or_false]
  · rename_i hsome
    rw [hb] at hsome
    cases hsome

theorem expandUnder_of_braces {head inner : Text} (hb : braces? (trim tree) = some (head, inner)) (path : Text) :
    expandUnder path tree = (splitTop 0 inner).flatMap (expandUnder (append path (dropColons (trim head)))) := by
  have hne : trim tree ≠ [] := by
    intro hnil
    rw [hnil] at hb
    cases hb
  rw [expandUnder, if_neg (by simpa using hne)]
  split
  · rename_i hnone
    rw [hb] at hnone
    cases hnone
  · rename_i head' inner' hsome
    rw [hb] at hsome
    cases hsome
    rw [List.flatMap_subtype (g := expandUnder (append path (dropColons (trim head)))) (fun _ _ => rfl),
      List.unattach_attach]

theorem expandUnder_of_blank (h : trim tree = []) (path : Text) : expandUnder path tree = [] := by
  rw [expandUnder, if_pos (by simp [h])]

theorem append_of_ne_nil (hpath : path ≠ []) (item : Text) :
    append path item = path ∧ item = [] ∨ append path item = path ++ "::".toList ++ item ∧ item ≠ [] := by
  unfold append
  rw [if_neg (by simpa using hpath)]
  by_cases h : item = [] <;> simp [h]

/-- Induction over a tree: nothing at all, a leaf, or a group of smaller trees. -/
theorem treeInduction {motive : Text → Prop} (blank : ∀ tree, trim tree = [] → motive tree)
    (leaf : ∀ tree, trim tree ≠ [] → braces? (trim tree) = none → motive tree)
    (group : ∀ tree head inner, braces? (trim tree) = some (head, inner) → (∀ item ∈ splitTop 0 inner, motive item) →
      motive tree) (tree : Text) : motive tree := by
  induction hn : tree.length using Nat.strongRecOn generalizing tree with
  | ind n ih =>
    by_cases hne : trim tree = []
    · exact blank tree hne
    · cases hb : braces? (trim tree) with
      | none => exact leaf tree hne hb
      | some hi =>
        obtain ⟨head, inner⟩ := hi
        refine group tree head inner hb fun item hitem => ih item.length ?_ item rfl
        have := length_of_mem_splitTop hitem
        have := length_braces hb
        have := length_trim_le tree
        omega

/-- The paths of a tree under a path go on from there, or are that path. -/
theorem mem_expandUnder (hpath : path ≠ []) (h : v ∈ expandUnder path tree) :
    v = path ∨ ∃ r, v = path ++ "::".toList ++ r := by
  induction tree using treeInduction generalizing path with
  | blank tree hblank =>
    rw [expandUnder_of_blank hblank] at h
    cases h
  | leaf tree hne hb =>
    rw [expandUnder_of_leaf hne hb, if_neg (show ¬ path.isEmpty = true by simpa using hpath)] at h
    split at h
    · exact Or.inl (List.mem_singleton.1 h)
    · rw [List.mem_singleton.1 h]
      rcases append_of_ne_nil hpath (leafItem (trim tree)) with ⟨e, -⟩ | ⟨e, -⟩
      · exact Or.inl e
      · exact Or.inr ⟨_, e⟩
  | group tree head inner hb ih =>
    rw [expandUnder_of_braces hb] at h
    obtain ⟨item, hitem, hv⟩ := List.mem_flatMap.1 h
    rcases append_of_ne_nil hpath (dropColons (trim head)) with ⟨e, -⟩ | ⟨e, -⟩
    · rw [e] at hv
      exact ih item hitem hpath hv
    · rw [e] at hv
      -- below a head of its own everything goes on from the path and the head
      rcases ih item hitem (by simp [hpath]) hv with rfl | ⟨r, rfl⟩
      · exact Or.inr ⟨_, rfl⟩
      · exact Or.inr ⟨dropColons (trim head) ++ "::".toList ++ r, by simp⟩

/-- A tree that stands for the path in front of it: an item that adds nothing, or a group without a head that has such
a tree in it. -/
inductive StandsForPath : Text → Prop
  | leaf {tree : Text} : trim tree ≠ [] → braces? (trim tree) = none → leafItem (trim tree) ∈ emptyItems →
      StandsForPath tree
  | group {tree head inner item : Text} : braces? (trim tree) = some (head, inner) → dropColons (trim head) = [] →
      item ∈ splitTop 0 inner → StandsForPath item → StandsForPath tree

theorem path_mem_expandUnder_iff (hpath : path ≠ []) : path ∈ expandUnder path tree ↔ StandsForPath tree := by
  have longer : ∀ r : Text, path ≠ path ++ "::".toList ++ r := by
    intro r e
    have := congrArg List.length e
    simp at this
  constructor
  · intro h
    induction tree using treeInduction with
    | blank tree hblank =>
      rw [expandUnder_of_blank hblank] at h
      cases h
    | leaf tree hne hb =>
      refine .leaf hne hb ?_
      by_contra hitem
      rw [expandUnder_of_leaf hne hb, if_neg hitem, List.mem_singleton] at h
      rcases append_of_ne_nil hpath (leafItem (trim tree)) with ⟨-, e⟩ | ⟨e, -⟩
      · exact hitem (e ▸ List.mem_cons_self)
      · exact longer _ (h.trans e)
    | group tree head inner hb ih =>
      rw [expandUnder_of_braces hb] at h
      obtain ⟨item, hitem, hv⟩ := List.mem_flatMap.1 h
      rcases append_of_ne_nil hpath (dropColons (trim head)) with ⟨e, hhead⟩ | ⟨e, -⟩
      · rw [e] at hv
        exact .group hb hhead hitem (ih item hitem hv)
      · rw [e] at hv
        rcases mem_expandUnder (by simp [hpath]) hv with hv | ⟨r, hv⟩
        · exact absurd hv (longer _)
        · exact absurd (hv.trans (by simp)) (longer (dropColons (trim head) ++ "::".toList ++ r))
  · intro h
    induction h with
    | @leaf tree hne hb hitem =>
      rw [expandUnder_of_leaf hne hb, if_pos hitem, if_neg (by simpa using hpath)]
      exact List.mem_singleton_self path
    | @group tree head inner item hb hhead hitem _ ih =>
      rw [expandUnder_of_braces hb, hhead]
      have e : append path [] = path := by simp [append]
      rw [e]
      exact List.mem_flatMap.2 ⟨item, hitem, ih⟩

/-! ### Roots -/

/-- What may be left of a local path when its end is dropped: its root, with or without a colon. -/
def bareRoots : List Text := localRoots ++ localRoots.map (· ++ [':'])

/-- A local path or a root by itself. -/
def Rooted (x : Text) : Prop := isLocalPath x = true ∨ x ∈ bareRoots

theorem not_isLocalPath_of_bareRoot : ∀ x ∈ bareRoots, isLocalPath x = false := by decide

theorem bareRoot_of_root {root : Text} (h : root ∈ localRoots) : root ∈ bareRoots ∧ root ++ [':'] ∈ bareRoots :=
  ⟨List.mem_append_left _ h, List.mem_append_right _ (List.mem_map.2 ⟨root, h, rfl⟩)⟩

theorem Rooted.ne_nil {x : Text} (h : Rooted x) : x ≠ [] := by
  rintro rfl
  revert h
  simp only [Rooted]
  decide

/-- Whatever follows a root and a pair of colons makes a local path. -/
theorem Rooted.isLocalPath_append {x : Text} (h : Rooted x) (r : Text) :
    isLocalPath (x ++ "::".toList ++ r) = true := by
  rcases h with h | h
  · obtain ⟨root, hroot, rest, rfl⟩ := isLocalPath_iff.1 h
    exact isLocalPath_iff.2 ⟨root, hroot, rest ++ "::".toList ++ r, by simp⟩
  · rcases List.mem_append.1 h with hroot | h
    · exact isLocalPath_iff.2 ⟨x, hroot, r, by simp⟩
    · obtain ⟨root, hroot, rfl⟩ := List.mem_map.1 h
      exact isLocalPath_iff.2 ⟨root, hroot, ':' :: r, by simp⟩

/-- Dropping the end of a local path from a pair of colons on leaves its root at least. -/
theorem rooted_of_append {z t : Text} (h : Rooted (z ++ ':' :: ':' :: t)) : Rooted z := by
  rcases h with h | h
  · obtain ⟨root, hroot, rest, e⟩ := isLocalPath_iff.1 h
    rcases List.append_eq_append_iff.1 e with ⟨a, hr, ha⟩ | ⟨a, rfl, ha⟩
    · cases a with
      | nil =>
        rw [List.append_nil] at hr
        exact Or.inr (hr ▸ (bareRoot_of_root hroot).1)
      | cons c a =>
        -- a colon inside the root
        have hc : ':' ∈ root := by
          rw [hr, (List.cons.inj ha).1]
          simp
        exact absurd (List.all_eq_true.1 (localRoots_chars root hroot) ':' hc) (by decide)
    · match a, ha with
      | [], _ =>
        rw [List.append_nil]
        exact Or.inr (bareRoot_of_root hroot).1
      | [c], ha =>
        rw [← (List.cons.inj ha).1]
        exact Or.inr (bareRoot_of_root hroot).2
      | c :: d :: a, ha =>
        simp only [List.cons_append, List.cons.injEq] at ha
        obtain ⟨rfl, rfl, -⟩ := ha
        exact Or.inl (isLocalPath_iff.2 ⟨root, hroot, a, rfl⟩)
  · have colons : ∀ x ∈ bareRoots, x.count ':' ≤ 1 := by decide
    have := colons _ h
    simp only [List.count_append, List.count_cons_self] at this
    omega

theorem rooted_dropColons {x : Text} (h : Rooted x) : Rooted (dropColons x) := by
  have rev : ∀ y : Text, Rooted y.reverse → Rooted (dropColonsRev y).reverse := by
    intro y hy
    fun_induction dropColonsRev y with
    | case1 y ih =>
      rw [List.reverse_cons, List.reverse_cons, List.append_assoc] at hy
      exact ih (rooted_of_append hy)
    | case2 y => exact hy
  exact rev _ (by rwa [List.reverse_reverse])

theorem rooted_dropStars {x : Text} (h : Rooted x) : Rooted (dropStars x) := by
  have rev : ∀ y : Text, Rooted y.reverse → Rooted (dropStarsRev y).reverse := by
    intro y hy
    fun_induction dropStarsRev y with
    | case1 y ih =>
      rw [List.reverse_cons, List.reverse_cons, List.reverse_cons, List.append_assoc, List.append_assoc] at hy
      exact ih (rooted_of_append hy)
    | case2 y => exact hy
  exact rev _ (by rwa [List.reverse_reverse])

/-! ### Local trees -/

/-- What works on the end of a text only keeps a local path local. -/
theorem isLocalPath_of_front {f : Text → Text} (hf : ∀ a : Text, a ≠ [] → (∀ c ∈ a, isBlank c = false) →
    ∀ s, ∃ t, f (a ++ s) = a ++ t) {x : Text} (h : isLocalPath x = true) : isLocalPath (f x) = true := by
  obtain ⟨root, hroot, rest, rfl⟩ := isLocalPath_iff.1 h
  have chars : ∀ root ∈ localRoots, (root ++ [':', ':']).all (!isBlank ·) = true := by decide
  have hblank : ∀ c ∈ root ++ [':', ':'], isBlank c = false := fun c hc => by
    simpa using List.all_eq_true.1 (chars root hroot) c hc
  obtain ⟨t, ht⟩ := hf (root ++ [':', ':']) (by simp) hblank rest
  rw [List.append_assoc, List.append_assoc] at ht
  exact isLocalPath_iff.2 ⟨root, hroot, t, ht⟩

theorem isLocalPath_compact {x : Text} (h : isLocalPath x = true) : isLocalPath (joinWith [' '] (words x)) = true :=
  isLocalPath_of_front (f := fun x => joinWith [' '] (words x))
    (fun _ hne hblank s => joinWith_words_append hblank hne s) h

theorem isLocalPath_trim {x : Text} (h : isLocalPath x = true) : isLocalPath (trim x) = true :=
  isLocalPath_of_front (fun _ hne hblank s => trim_append hblank hne s) h

theorem rooted_leafItem {x : Text} (h : isLocalPath x = true) : Rooted (leafItem x) := by
  have hbefore : isLocalPath (beforeFirst " as ".toList x) = true := by
    refine isLocalPath_of_front (fun a _ hblank s => ⟨_, beforeFirst_append (fun hmem => ?_) s⟩) h
    exact absurd (hblank ' ' hmem) (by decide)
  exact rooted_dropColons (rooted_dropStars (Or.inl (isLocalPath_trim hbefore)))

theorem rooted_head {x head inner : Text} (h : isLocalPath x = true) (hb : braces? x = some (head, inner)) :
    Rooted (dropColons (trim head)) := by
  have hhead : head = x.takeWhile (· != '\x7b') := by
    unfold braces? at hb
    dsimp only at hb
    split at hb
    · cases hb
    · split at hb
      · exact (Prod.mk.inj (Option.some.inj hb)).1.symm
      · split at hb <;> exact (Prod.mk.inj (Option.some.inj hb)).1.symm
  rw [hhead]
  exact rooted_dropColons (Or.inl (isLocalPath_trim (isLocalPath_takeWhile (by decide) h)))

/-- A tree that is left with its root alone: a leaf of which nothing else is kept, if it is not `self`, or a group
behind nothing else with a tree that stands for the path in front of it. -/
def Collapses (tree : Text) : Prop :=
  match braces? (trim (joinWith [' '] (words tree))) with
  | none =>
    leafItem (trim (joinWith [' '] (words tree))) ∈ bareRoots ∧
      leafItem (trim (joinWith [' '] (words tree))) ≠ "self".toList
  | some (head, inner) => dropColons (trim head) ∈ bareRoots ∧ ∃ item ∈ splitTop 0 inner, StandsForPath item

/-- Under a root, only the trees that stand for it come to the root itself. -/
theorem mem_expandUnder_rooted (hpath : Rooted path) (hv : v ∈ expandUnder path tree) :
    isLocalPath v = true ∨ v = path ∧ StandsForPath tree := by
  rcases mem_expandUnder hpath.ne_nil hv with rfl | ⟨r, rfl⟩
  · exact Or.inr ⟨rfl, (path_mem_expandUnder_iff hpath.ne_nil).1 hv⟩
  · exact Or.inl (hpath.isLocalPath_append r)

/-- The paths of a local tree are local, but for the root that a collapsing tree is left with. -/
theorem isLocalPath_of_mem_expand (h : isLocalPath tree = true) (hv : v ∈ expand tree) :
    isLocalPath v = true ∨ v ∈ bareRoots ∧ Collapses tree := by
  have hlocal := isLocalPath_trim (isLocalPath_compact h)
  unfold expand at hv
  unfold Collapses
  cases hb : braces? (trim (joinWith [' '] (words tree))) with
  | none =>
    have hne : trim (joinWith [' '] (words tree)) ≠ [] := Rooted.ne_nil (Or.inl hlocal)
    rw [expandUnder_of_leaf hne hb] at hv
    split at hv
    · cases hv
    · rename_i hitem
      rw [List.mem_singleton.1 hv]
      refine (rooted_leafItem hlocal).imp id fun hbare => ⟨hbare, hbare, fun hself => hitem ?_⟩
      rw [hself]
      decide
  | some hi =>
    obtain ⟨head, inner⟩ := hi
    rw [expandUnder_of_braces hb] at hv
    obtain ⟨item, hitem, hv⟩ := List.mem_flatMap.1 hv
    have hhead := rooted_head hlocal hb
    rcases mem_expandUnder_rooted hhead hv with hv | ⟨rfl, hstands⟩
    · exact Or.inl hv
    · exact hhead.imp id fun hbare => ⟨hbare, hbare, item, hitem, hstands⟩

theorem exists_bareRoot_of_collapses (h : isLocalPath tree = true) (hc : Collapses tree) :
    ∃ v ∈ expand tree, v ∈ bareRoots := by
  have hlocal := isLocalPath_trim (isLocalPath_compact h)
  unfold expand
  unfold Collapses at hc
  cases hb : braces? (trim (joinWith [' '] (words tree))) with
  | none =>
    rw [hb] at hc
    obtain ⟨hbare, hself⟩ := hc
    have hne : trim (joinWith [' '] (words tree)) ≠ [] := Rooted.ne_nil (Or.inl hlocal)
    refine ⟨_, ?_, hbare⟩
    have distinct : ∀ x ∈ bareRoots, x ∈ emptyItems → x = "self".toList := by decide
    rw [expandUnder_of_leaf hne hb, if_neg fun hitem => hself (distinct _ hbare hitem)]
    exact List.mem_singleton_self _
  | some hi =>
    obtain ⟨head, inner⟩ := hi
    rw [hb] at hc
    obtain ⟨hbare, item, hitem, hstands⟩ := hc
    refine ⟨_, ?_, hbare⟩
    rw [expandUnder_of_braces hb]
    refine List.mem_flatMap.2 ⟨item, hitem, ?_⟩
    exact (path_mem_expandUnder_iff (Rooted.ne_nil (Or.inr hbare))).2 hstands

end ImportTrail.UseTree
