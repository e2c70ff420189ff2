import ImportTrail.Imports
import ImportTrail.Proofs.UseTree.Expansion

/-!
Items of Rust that import something, one on a line: modules, includes and uses.

* `Item`, `Item.specifiers` — an item, and the specifiers that it stands for;
* `Written`, `Source` — the texts of an item and of a sequence of items;
* `isLocalPath_pathText` — of the paths of a use, the local ones can be told from their texts;
* `specifiers_of_root`, `specifiers_of_foreign`, `specifiers_of_alone` — the first name of a tree decides for all of its paths.
-/

namespace ImportTrail.Rust

open Text UseTree

/-! ### Items -/

/-- Spaces and tabs. -/
def Spaces (b : Text) : Prop := ∀ c ∈ b, isSpaceTab c = true

instance : DecidablePred Spaces := fun b => decidable_of_iff (b.all isSpaceTab = true) List.all_eq_true

/-- A name that begins a local path. -/
def isRoot (x : Segment) : Bool := Scan.Rust.localRoots.contains x.text

/-- A path that begins with one of these names. -/
def isLocal (path : List Segment) : Bool := path.head?.any isRoot

mutual
/-- All names in a tree. -/
def names : Tree → List Segment
  | .path first rest alias? => first :: rest ++ alias?.toList
  | .glob first rest => first :: rest
  | .star => []
  | .group path items => path ++ namesAll items
/-- All names in some trees. -/
def namesAll : List Tree → List Segment
  | [] => []
  | t :: ts => names t ++ namesAll ts
end

/-- The name that a tree begins with. -/
def first? : Tree → Option Segment
  | .path first _ _ => some first
  | .glob first _ => some first
  | .star => none
  | .group path _ => path.head?

/-- A tree of ASCII names that begins with a name and under which no local path is a root alone. -/
structure Importable (t : Tree) : Prop where
  named : ∀ x ∈ names t, Scan.Rust.isName x.text = true
  rooted : (first? t).isSome
  proper : ∀ p ∈ t.flatten [], isLocal p = true → 2 ≤ p.length

/-- An item that imports something, or a module in braces, which does not. -/
inductive Item where
  | file (name : Text)
  | inner (name : Text)
  | included (path : Text)
  | used (tree : Tree)

/-- The specifiers of an item, in their order. -/
def Item.specifiers : Item → List Text
  | file name => [name]
  | inner _ => []
  | included path => [Scan.Rust.includeSpecifier path]
  | used tree => ((tree.flatten []).filter isLocal).map pathText

/-- What says in front of an item who may use it. -/
inductive Visibility : Text → Prop
  | own : Visibility []
  | all {b : Text} : Spaces b → b ≠ [] → Visibility ("pub".toList ++ b)
  | crate {b : Text} : Spaces b → b ≠ [] → Visibility ("pub(crate)".toList ++ b)

/-- The texts of an item behind its visibility. -/
inductive Body : Item → Text → Prop
  | file {name b e : Text} : Scan.Rust.isName name = true → Spaces b → b ≠ [] → Spaces e →
      Body (.file name) ("mod".toList ++ (b ++ (name ++ (e ++ [';']))))
  | inner {name b e e' : Text} : Scan.Rust.isName name = true → Spaces b → b ≠ [] → Spaces e → Spaces e' →
      Body (.inner name) ("mod".toList ++ (b ++ (name ++ (e ++ '\x7b' :: (e' ++ ['\x7d'])))))
  | used {tree : Tree} {s b e : Text} : Importable tree → Spelled Spaces tree s → Spaces b → b ≠ [] → Spaces e →
      Body (.used tree) ("use".toList ++ (b ++ (s ++ (e ++ [';']))))

/-- A character of an included path. -/
def isPathChar (c : Char) : Bool := c != '"' && c != '\\' && c != '\n'

/-- The texts of an item. -/
inductive Written : Item → Text → Prop
  | visible {i : Item} {v s : Text} : Visibility v → Body i s → Written i (v ++ s)
  | included {path b₁ b₂ b₃ b₄ : Text} : path ≠ [] → path.all isPathChar = true → Spaces b₁ → Spaces b₂ →
      Spaces b₃ → Spaces b₄ → Written (.included path)
        ("include!".toList ++ (b₁ ++ '(' :: (b₂ ++ '"' :: (path ++ '"' :: (b₃ ++ ')' :: (b₄ ++ [';']))))))

/-- The texts of some items, one on a line. The last line may end or not. -/
inductive Source : List Item → Text → Prop
  | nil : Source [] []
  | last {i : Item} {s : Text} : Written i s → Source [i] s
  | cons {i : Item} {is : List Item} {s r : Text} : Written i s → Source is r → Source (i :: is) (s ++ '\n' :: r)

/-! ### Spaces -/

variable {b s v path : Text} {t : Tree} {ts : List Tree} {c : Char}

theorem isBlank_of_isSpaceTab (h : isSpaceTab c = true) : isBlank c = true := by
  simp only [isSpaceTab, Bool.or_eq_true, beq_iff_eq] at h
  rcases h with rfl | rfl <;> rfl

theorem Spaces.blank (h : Spaces b) : Blank b := fun c hc => isBlank_of_isSpaceTab (h c hc)

/-- Spaces that are there begin with a space or with a tab. -/
theorem Spaces.exists_cons (h : Spaces b) (hne : b ≠ []) :
    ∃ c b', b = c :: b' ∧ (c = ' ' ∨ c = '\t') ∧ Spaces b' := by
  obtain ⟨c, b', rfl⟩ := List.exists_cons_of_ne_nil hne
  have hc := h c List.mem_cons_self
  simp only [isSpaceTab, Bool.or_eq_true, beq_iff_eq] at hc
  exact ⟨c, b', rfl, hc, fun d hd => h d (List.mem_cons_of_mem _ hd)⟩

theorem Spaces.notMem (h : Spaces b) (hc : isSpaceTab c = false) : c ∉ b := by
  intro hmem
  rw [h c hmem] at hc
  cases hc

theorem dropWhile_spaces (h : Spaces b) (hc : isSpaceTab c = false) (r : Text) :
    (b ++ c :: r).dropWhile isSpaceTab = c :: r := dropWhile_append_cons h hc r

/-! ### Names in trees -/

theorem exists_cons_of_isName {x : Text} (hx : Scan.Rust.isName x = true) :
    ∃ c s, x = c :: s ∧ Scan.Rust.isNameStart c = true ∧ ∀ d ∈ s, Scan.Rust.isNameRest d = true := by
  cases x with
  | nil => cases hx
  | cons c s =>
    simp only [Scan.Rust.isName, Bool.and_eq_true, List.all_eq_true] at hx
    exact ⟨c, s, rfl, hx.1, hx.2⟩

/-- The text of the names behind the first one of a path. -/
def tailText (path : List Segment) : Text := path.flatMap fun y => ':' :: ':' :: y.text

theorem tailText_cons (y : Segment) (path : List Segment) :
    tailText (y :: path) = ':' :: ':' :: (y.text ++ tailText path) := by
  simp [tailText]

theorem pathText_cons (x : Segment) (path : List Segment) : pathText (x :: path) = x.text ++ tailText path := by
  induction path generalizing x with
  | nil => simp [tailText]
  | cons y path ih => rw [pathText_cons_cons, ih y, tailText_cons]; simp

/-- A text that begins with a name is a local path exactly if that name is a root and colons follow it. -/
theorem isLocalPath_name {x r : Text} (hx : Scan.Rust.isName x = true) (hr : ∀ d ∈ r.head?, Scan.Rust.isNameRest d = false) :
    Scan.Rust.isLocalPath (x ++ r) = true ↔ x ∈ Scan.Rust.localRoots ∧ ∃ q, r = ':' :: ':' :: q := by
  rw [Scan.Rust.isLocalPath_iff]
  constructor
  · rintro ⟨root, hroot, q, hq⟩
    have hchars : ∀ c ∈ root, Scan.Rust.isNameRest c = true := by
      intro c hc
      have := List.all_eq_true.1 (Scan.Rust.localRoots_chars root hroot) c hc
      simp [Scan.Rust.isNameRest, this]
    have hleft : (x ++ r).takeWhile Scan.Rust.isNameRest = x := by
      rw [takeWhile_append_of_head hr, List.takeWhile_eq_self_iff.2 (Scan.Rust.isName_chars hx).2]
    have hright : (root ++ ':' :: ':' :: q).takeWhile Scan.Rust.isNameRest = root :=
      takeWhile_append_cons hchars (by decide) _
    have hxroot : x = root := by rw [← hleft, hq, hright]
    subst hxroot
    exact ⟨hroot, q, List.append_cancel_left hq⟩
  · rintro ⟨hroot, q, rfl⟩
    exact ⟨x, hroot, q, rfl⟩

theorem eq_of_mem_leafPaths {path p : List Segment} (h : p ∈ leafPaths [] path) : p = path := by
  unfold leafPaths at h
  split at h
  · cases h
  · exact List.mem_singleton.1 h

theorem leafPaths_extend {above path p : List Segment} (h : p ∈ leafPaths above path) :
    ∃ q, p = above ++ q ∧ p ≠ [] ∧ q ⊆ path := by
  unfold leafPaths at h
  split at h
  · split at h
    · cases h
    · rename_i hne
      obtain rfl := List.mem_singleton.1 h
      exact ⟨[], by simp, hne, by simp⟩
  · rename_i hpath
    obtain rfl := List.mem_singleton.1 h
    exact ⟨path, rfl, by simp [(not_or.1 hpath).1], fun _ hx => hx⟩

mutual
/-- The paths of a tree go on where the path above it ends, with names of the tree. -/
theorem flatten_extend : ∀ (t : Tree) (above : List Segment) {p : List Segment}, p ∈ t.flatten above →
    ∃ q, p = above ++ q ∧ p ≠ [] ∧ q ⊆ names t
  | .path first rest alias?, above, p, hp => by
    obtain ⟨q, hq, hne, hsub⟩ := leafPaths_extend hp
    exact ⟨q, hq, hne, fun x hx => List.mem_append_left _ (hsub hx)⟩
  | .glob first rest, above, p, hp => leafPaths_extend hp
  | .star, above, p, hp => leafPaths_extend hp
  | .group path items, above, p, hp => by
    obtain ⟨q, hq, hne, hsub⟩ := flattenAll_extend items (above ++ path) hp
    refine ⟨path ++ q, by rw [hq, List.append_assoc], hne, fun x hx => ?_⟩
    rcases List.mem_append.1 hx with hx | hx
    · exact List.mem_append_left _ hx
    · exact List.mem_append_right _ (hsub hx)
theorem flattenAll_extend : ∀ (ts : List Tree) (above : List Segment) {p : List Segment}, p ∈ flattenAll above ts →
    ∃ q, p = above ++ q ∧ p ≠ [] ∧ q ⊆ namesAll ts
  | t :: ts, above, p, hp => by
    rcases List.mem_append.1 hp with hp | hp
    · obtain ⟨q, hq, hne, hsub⟩ := flatten_extend t above hp
      exact ⟨q, hq, hne, fun x hx => List.mem_append_left _ (hsub hx)⟩
    · obtain ⟨q, hq, hne, hsub⟩ := flattenAll_extend ts above hp
      exact ⟨q, hq, hne, fun x hx => List.mem_append_right _ (hsub hx)⟩
end

/-- All paths of a tree begin with the name that the tree begins with. -/
theorem head?_of_mem_flatten {x : Segment} {p : List Segment} (ht : first? t = some x) (hp : p ∈ t.flatten []) :
    p.head? = some x := by
  cases t with
  | path first rest alias? => rw [eq_of_mem_leafPaths hp]; exact ht
  | glob first rest => rw [eq_of_mem_leafPaths hp]; exact ht
  | star => cases ht
  | group path items =>
    obtain ⟨q, hq, -, -⟩ := flattenAll_extend items ([] ++ path) hp
    rw [hq, List.nil_append, List.head?_append]
    simp only [first?] at ht
    rw [ht]
    rfl

theorem first_mem_names {x : Segment} (h : first? t = some x) : x ∈ names t := by
  cases t with
  | path first rest alias? => simp [names, Option.some.inj h]
  | glob first rest => simp [names, Option.some.inj h]
  | star => cases h
  | group path items => exact List.mem_append_left _ (List.mem_of_head? h)

theorem isLocalPath_pathText {p : List Segment} (hne : p ≠ []) (hp : ∀ x ∈ p, Scan.Rust.isName x.text = true) :
    Scan.Rust.isLocalPath (pathText p) = true ↔ isLocal p = true ∧ 2 ≤ p.length := by
  obtain ⟨x, p, rfl⟩ := List.exists_cons_of_ne_nil hne
  have htail : ∀ d ∈ (tailText p).head?, Scan.Rust.isNameRest d = false := by
    cases p with
    | nil => simp [tailText]
    | cons y p => simp [tailText_cons]; decide
  rw [pathText_cons, isLocalPath_name (hp x List.mem_cons_self) htail]
  cases p with
  | nil => simp [tailText]
  | cons y p => simp [tailText_cons, isLocal, isRoot]

/-- Of the paths of a use, the local ones can be told from their texts. -/
theorem filter_isLocalPath (h : Importable t) :
    ((t.flatten []).map pathText).filter Scan.Rust.isLocalPath = (Item.used t).specifiers := by
  rw [List.filter_map, Item.specifiers]
  refine congrArg _ (List.filter_congr fun p hp => ?_)
  obtain ⟨q, hq, hne, hsub⟩ := flatten_extend t [] hp
  rw [List.nil_append] at hq
  subst hq
  rw [Bool.eq_iff_iff, Function.comp_apply, isLocalPath_pathText hne fun x hx => h.named x (hsub hx)]
  exact ⟨fun hlocal => hlocal.1, fun hlocal => ⟨hlocal, h.proper p hp hlocal⟩⟩

/-! ### Texts of trees -/

mutual
theorem spelled_mono {gap gap' : Text → Prop} (h : ∀ b, gap b → gap' b) : ∀ {t : Tree} {s : Text}, Spelled gap t s →
    Spelled gap' t s
  | _, _, .path first rest => .path first rest
  | _, _, .renamed first rest name hb hne he hne' => .renamed first rest name (h _ hb) hne (h _ he) hne'
  | _, _, .glob first rest => .glob first rest
  | _, _, .star => .star
  | _, _, .bareGroup hs => .bareGroup (spelledItems_mono h hs)
  | _, _, .group first rest hb hs => .group first rest (h _ hb) (spelledItems_mono h hs)
theorem spelledItems_mono {gap gap' : Text → Prop} (h : ∀ b, gap b → gap' b) : ∀ {ts : List Tree} {s : Text},
    SpelledItems gap ts s → SpelledItems gap' ts s
  | _, _, .nil he => .nil (he.mono h)
  | _, _, .last hb ht he => .last (h _ hb) (spelled_mono h ht) (he.mono h)
  | _, _, .cons hb ht he hr => .cons (h _ hb) (spelled_mono h ht) (h _ he) (spelledItems_mono h hr)
end

theorem pathText_colons (x : Segment) (rest : List Segment) {q : Text} (hq : q ≠ []) :
    ∃ q', q' ≠ [] ∧ pathText (x :: rest) ++ ':' :: ':' :: q = x.text ++ ':' :: ':' :: q' := by
  cases rest with
  | nil => exact ⟨q, hq, by simp⟩
  | cons y rest => exact ⟨y.text ++ tailText rest ++ ':' :: ':' :: q, by simp, by simp [pathText_cons, tailText_cons]⟩

/-- Behind the first name of a tree stand colons, unless it is the only one of its path. -/
theorem spelled_cases {x : Segment} (hs : Spelled Spaces t s) (ht : first? t = some x) :
    (∃ q, q ≠ [] ∧ s = x.text ++ ':' :: ':' :: q) ∨
      ∃ alias? r, t = .path x [] alias? ∧ s = x.text ++ r ∧ ∀ d ∈ r.head?, isSpaceTab d = true := by
  cases hs with
  | path first rest =>
    obtain rfl := Option.some.inj ht
    cases rest with
    | nil => exact Or.inr ⟨none, [], rfl, by simp, by simp⟩
    | cons y rest => exact Or.inl ⟨y.text ++ tailText rest, by simp [y.ne_nil], by rw [pathText_cons, tailText_cons]⟩
  | @renamed first rest name b e hb hne he hne' =>
    obtain rfl := Option.some.inj ht
    cases rest with
    | nil =>
      refine Or.inr ⟨some name, b ++ ['a', 's'] ++ e ++ name.text, rfl, by simp, ?_⟩
      obtain ⟨c, b', rfl, -, -⟩ := hb.exists_cons hne
      intro d hd
      exact hb d (by simpa [eq_comm] using Or.inl hd)
    | cons y rest =>
      exact Or.inl ⟨y.text ++ tailText rest ++ b ++ ['a', 's'] ++ e ++ name.text, by simp,
        by simp [pathText_cons, tailText_cons]⟩
  | glob first rest =>
    obtain rfl := Option.some.inj ht
    exact Or.inl (pathText_colons first rest (by simp))
  | star => cases ht
  | bareGroup => cases ht
  | @group first rest items b r hb hs =>
    obtain rfl := Option.some.inj ht
    obtain ⟨q, hne, hq⟩ := pathText_colons first rest (q := b ++ ('\x7b' :: r ++ ['\x7d'])) (by simp)
    exact Or.inl ⟨q, hne, by rw [← hq]; simp⟩

/-- The first name of a tree decides whether its paths are local. -/
theorem specifiers_of_root {x : Segment} (hx : first? t = some x) (hroot : isRoot x = true) :
    (Item.used t).specifiers = (t.flatten []).map pathText := by
  rw [Item.specifiers, List.filter_eq_self.2]
  intro p hp
  simp [isLocal, head?_of_mem_flatten hx hp, hroot]

theorem specifiers_of_foreign {x : Segment} (hx : first? t = some x) (hroot : isRoot x = false) :
    (Item.used t).specifiers = [] := by
  rw [Item.specifiers, List.filter_eq_nil_iff.2, List.map_nil]
  intro p hp
  simp [isLocal, head?_of_mem_flatten hx hp, hroot]

/-- A root alone imports nothing. -/
theorem specifiers_of_alone {x : Segment} {alias? : Option Segment} (h : Importable (.path x [] alias?)) :
    (Item.used (.path x [] alias?)).specifiers = [] := by
  rw [Item.specifiers, List.filter_eq_nil_iff.2, List.map_nil]
  intro p hp hlocal
  have hlen := h.proper p hp hlocal
  rw [eq_of_mem_leafPaths hp] at hlen
  exact absurd hlen (by simp)

end ImportTrail.Rust
