import ImportTrail.Proofs.Rust.Items

/-!
Items of Rust that each begin on a line of their own, and uses that may go over several lines.

* `Declaration`, `Declaration.specifiers` — an item, a use by the text of its tree, and the specifiers that it stands for;
* `Lead`, `Settled`, `Usable` — what may stand in front of an item, texts in which no word begins an item, and the texts that
  may be used;
* `Declared`, `Chunk`, `Program` — the texts of an item, with the blanks behind it, and of a sequence of items;
* `Glued.spelled` — what holds of names and goes on from piece to piece holds of the texts of trees;
* `usable_of_spelled` — the texts of a tree may be used, with any blanks between its parts;
* `Source.program` — items that stand one on a line are such a sequence.
-/

namespace ImportTrail.Rust

open Text UseTree

/-! ### Declarations -/

/-- A character of a name in a tree: a letter, a digit or an underscore, the mark of a raw name, or one beyond ASCII. -/
def isNameChar (c : Char) : Bool := !isBlank c && (Scan.Rust.isNameRest c || c == '#' || 128 ≤ c.toNat)

/-- The words that an item begins with. They are reserved, so they do not stand for names. -/
def itemWords : List Text := ["mod".toList, "pub".toList, "use".toList]

/-- An item that imports something, or a module in braces, which does not. -/
inductive Declaration where
  | file (name : Text)
  | inner (name : Text)
  | included (path : Text)
  | used (tree : Text)

/-- The specifiers of an item, in their order. Only a tree that begins with a root and colons has some. -/
def Declaration.specifiers : Declaration → List Text
  | file name => [name]
  | inner _ => []
  | included path => [Scan.Rust.includeSpecifier path]
  | used tree => if Scan.Rust.isLocalPath tree then UseTree.expand tree else []

/-- A character of the scope of a visibility. -/
def isScopeChar (c : Char) : Bool := c != ')' && c != '!' && c != '\n'

/-- What stands in front of an item on its line: spaces, and who may use the item. -/
inductive Lead : Text → Prop
  | own {b : Text} : Spaces b → Lead b
  | all {b b' : Text} : Spaces b → Spaces b' → b' ≠ [] → Lead (b ++ ("pub".toList ++ b'))
  | within {b scope b' : Text} : Spaces b → scope.all isScopeChar = true → Spaces b' → b' ≠ [] →
      Lead (b ++ ("pub(".toList ++ (scope ++ ')' :: b')))

/-- The characters between the names of a tree. -/
def treeMarks : Text := [':', '\x7b', '\x7d', ',', '*']

/-- A text in which no word begins an item, and which has no bracket, so no attributes either. -/
structure Settled (y : Text) : Prop where
  bracket : '[' ∉ y
  word : ∀ u v, y = u ++ v → (∀ c ∈ u.getLast?, isNameChar c = false) → v.takeWhile isNameChar ∉ itemWords

/-- What may stand for the tree of a use: names, marks and blanks, neither with a blank in front nor with a colon at the end.
If there are several lines, no word in them begins an item. -/
structure Usable (s : Text) : Prop where
  chars : ∀ c ∈ s, isNameChar c = true ∨ isBlank c = true ∨ c ∈ treeMarks
  first : ∃ c q, s = c :: q ∧ isBlank c = false
  last : ∃ u c, s = u ++ [c] ∧ c ≠ ':'
  settled : '\n' ∈ s → Settled s

/-- The texts of an item. -/
inductive Declared : Declaration → Text → Prop
  | file {v name b e : Text} : Lead v → Scan.Rust.isName name = true → Spaces b → b ≠ [] → Spaces e →
      Declared (.file name) (v ++ ("mod".toList ++ (b ++ (name ++ (e ++ [';'])))))
  | inner {v name b e e' : Text} : Lead v → Scan.Rust.isName name = true → Spaces b → b ≠ [] → Spaces e → Blank e' →
      Declared (.inner name) (v ++ ("mod".toList ++ (b ++ (name ++ (e ++ '\x7b' :: (e' ++ ['\x7d']))))))
  | included {b path b₁ b₂ b₃ b₄ : Text} : Spaces b → path ≠ [] → '"' ∉ path → '\n' ∉ path → Spaces b₁ → Spaces b₂ →
      Spaces b₃ → Spaces b₄ → Declared (.included path)
        (b ++ ("include!".toList ++ (b₁ ++ '(' :: (b₂ ++ '"' :: (path ++ '"' :: (b₃ ++ ')' :: (b₄ ++ [';'])))))))
  | used {v s b e : Text} : Lead v → Usable s → Spaces b → b ≠ [] → Blank e →
      Declared (.used s) (v ++ ("use".toList ++ (b ++ (s ++ (e ++ [';'])))))

/-- An item with the blanks behind it, or blanks only. -/
inductive Chunk : List Declaration → Text → Prop
  | blank {w : Text} : Blank w → Chunk [] w
  | declared {d : Declaration} {s w : Text} : Declared d s → Blank w → Chunk [d] (s ++ w)

/-- The texts of some items, each of which begins on a line of its own. -/
inductive Program : List Declaration → Text → Prop
  | last {ds : List Declaration} {s : Text} : Chunk ds s → Program ds s
  | cons {ds es : List Declaration} {s r : Text} : Chunk ds s → Program es r → Program (ds ++ es) (s ++ '\n' :: r)

/-! ### Pieces of trees -/

variable {b s u v x y : Text} {t : Tree} {c : Char}

/-- What goes on from one piece of a tree to the next: over a mark, over a character of a gap, and from a piece to one
that begins with such a character. -/
structure Glued (g : Char → Bool) (P : Text → Prop) : Prop where
  nil : P []
  word : P ['a', 's']
  cons : ∀ c s, (c ∈ treeMarks ∨ g c = true) → P s → P (c :: s)
  append : ∀ u v, P u → P v → (∀ c ∈ v.head?, c ∈ treeMarks ∨ g c = true) → P (u ++ v)

section Glued

variable {g : Char → Bool} {P : Text → Prop} (h : Glued g P)

include h

theorem Glued.blank (hb : ∀ c ∈ b, g c = true) (hs : P s) : P (b ++ s) := by
  induction b with
  | nil => exact hs
  | cons c b ih => exact h.cons c _ (.inr (hb c List.mem_cons_self)) (ih fun d hd => hb d (List.mem_cons_of_mem _ hd))

/-- A gap that is there may follow anything. -/
theorem Glued.spaced (hb : ∀ c ∈ b, g c = true) (hne : b ≠ []) (hu : P u) (hs : P s) : P (u ++ (b ++ s)) := by
  refine h.append u (b ++ s) hu (h.blank hb hs) fun c hc => ?_
  obtain ⟨d, b', rfl⟩ := List.exists_cons_of_ne_nil hne
  obtain rfl : d = c := by simpa using hc
  exact .inr (hb d List.mem_cons_self)

/-- A mark may follow anything. -/
theorem Glued.mark (hc : c ∈ treeMarks) (hu : P u) (hs : P s) : P (u ++ c :: s) := by
  refine h.append u (c :: s) hu (h.cons c s (.inl hc) hs) fun d hd => ?_
  obtain rfl : c = d := by simpa using hd
  exact .inl hc

theorem Glued.colons (hu : P u) (hs : P s) : P (u ++ ':' :: ':' :: s) :=
  h.mark (by decide) hu (h.cons ':' s (.inl (by decide)) hs)

theorem Glued.pathText {path : List Segment} (hpath : ∀ x ∈ path, P x.text) : P (pathText path) := by
  induction path with
  | nil => exact h.nil
  | cons x path ih =>
    have hx := hpath x List.mem_cons_self
    have hrest := ih fun y hy => hpath y (List.mem_cons_of_mem _ hy)
    cases path with
    | nil => simpa using hx
    | cons y path =>
      rw [pathText_cons_cons]
      simpa using h.colons hx hrest

theorem Glued.ending {e : Text} (he : Ending (fun b => ∀ c ∈ b, g c = true) e) (hs : P s) : P (s ++ e) := by
  have hblank : ∀ {b : Text}, (∀ c ∈ b, g c = true) → P b := by
    intro b hb
    simpa using h.blank hb h.nil
  have hbehind : ∀ {b : Text}, (∀ c ∈ b, g c = true) → P (s ++ b) := by
    intro b hb
    exact h.append s b hs (hblank hb) fun c hc => .inr (hb c (List.mem_of_head? hc))
  cases he with
  | blank hb => exact hbehind hb
  | comma hb hb' =>
    rw [← List.append_assoc]
    exact h.mark (by decide) (hbehind hb) (hblank hb')

mutual
/-- What holds of the names of a tree holds of its texts. -/
theorem Glued.spelled : ∀ {t : Tree} {s : Text}, Spelled (fun b => ∀ c ∈ b, g c = true) t s →
    (∀ x ∈ names t, P x.text) → P s
  | _, _, .path first rest, hn => h.pathText fun x hx => hn x (List.mem_append_left _ hx)
  | _, _, .renamed first rest name hb hne he hne', hn => by
    have hpath := h.pathText fun x hx => hn x (List.mem_append_left _ hx)
    have halias := h.spaced he hne' h.word (hn name (by simp [names]))
    simpa using h.spaced hb hne hpath halias
  | _, _, .glob first rest, hn => by
    have hpath := h.pathText fun x (hx : x ∈ first :: rest) => hn x hx
    exact h.colons hpath (h.cons '*' [] (.inl (by decide)) h.nil)
  | _, _, .star, _ => h.cons '*' [] (.inl (by decide)) h.nil
  | _, _, .bareGroup hs, hn => by
    have hitems := Glued.items hs (by simpa [names] using hn)
    exact h.mark (by decide) (h.cons '\x7b' _ (.inl (by decide)) hitems) h.nil
  | _, _, .group first rest hb hs, hn => by
    have hpath := h.pathText fun x hx => hn x (List.mem_append_left _ hx)
    have hitems := Glued.items hs fun x hx => hn x (List.mem_append_right _ hx)
    have hbraces := h.mark (c := '\x7d') (by decide) (h.cons '\x7b' _ (.inl (by decide)) hitems) h.nil
    simpa using h.colons hpath (h.blank hb hbraces)
theorem Glued.items : ∀ {ts : List Tree} {s : Text}, SpelledItems (fun b => ∀ c ∈ b, g c = true) ts s →
    (∀ x ∈ namesAll ts, P x.text) → P s
  | _, _, .nil he, _ => by simpa using h.ending he h.nil
  | _, _, .last hb ht he, hn =>
    h.ending he (h.blank hb (Glued.spelled ht fun x hx => hn x (List.mem_append_left _ hx)))
  | _, _, .cons hb ht he hr, hn => by
    have hfirst := h.blank hb (Glued.spelled ht fun x hx => hn x (List.mem_append_left _ hx))
    exact h.mark (by decide) (h.ending (.blank he) hfirst) (Glued.items hr fun x hx => hn x (List.mem_append_right _ hx))
end

end Glued

/-- The characters of a tree are those of its names, its marks and its gaps. -/
theorem all_spelled {g q : Char → Bool} (hs : Spelled (fun b => ∀ c ∈ b, g c = true) t s)
    (hgap : ∀ c, g c = true → q c = true) (hmarks : (treeMarks ++ ['a', 's']).all q = true)
    (hn : ∀ x ∈ names t, x.text.all q = true) : ∀ c ∈ s, q c = true := by
  have hmark : ∀ c ∈ treeMarks ++ ['a', 's'], q c = true := List.all_eq_true.1 hmarks
  refine Glued.spelled (g := g) (P := fun s => ∀ c ∈ s, q c = true) ⟨by simp, fun c hc => hmark c (by simp_all), ?_, ?_⟩ hs
    fun x hx => List.all_eq_true.1 (hn x hx)
  · rintro c s (hc | hc) hs
    · exact List.forall_mem_cons.2 ⟨hmark c (by simp [hc]), hs⟩
    · exact List.forall_mem_cons.2 ⟨hgap c hc, hs⟩
  · intro u v hu hv _ c hc
    exact (List.mem_append.1 hc).elim (hu c) (hv c)

/-! ### Words at the beginnings of lines -/

theorem isNameChar_of_isBlank (hc : isBlank c = true) : isNameChar c = false := by simp [isNameChar, hc]

theorem nil_notMem_itemWords : [] ∉ itemWords := by decide

theorem settled_nil : Settled [] := by
  refine ⟨by simp, fun u v huv _ => ?_⟩
  obtain ⟨-, rfl⟩ := List.append_eq_nil_iff.1 huv.symm
  exact nil_notMem_itemWords

/-- A name is settled, unless it is the word of an item. -/
theorem settled_name (hx : x.all isNameChar = true) (hword : x ∉ itemWords) : Settled x := by
  rw [List.all_eq_true] at hx
  refine ⟨fun h => absurd (hx _ h) (by decide), fun u v huv hu => ?_⟩
  rcases List.eq_nil_or_concat u with rfl | ⟨u, c, rfl⟩
  · obtain rfl : x = v := huv
    have hall : x.takeWhile isNameChar = x := List.takeWhile_eq_self_iff.2 hx
    rwa [hall]
  · have hc := hx c (by simp [huv])
    rw [hu c (by simp)] at hc
    cases hc

theorem Settled.append (hu : Settled u) (hv : Settled v) (hhead : ∀ c ∈ v.head?, isNameChar c = false) :
    Settled (u ++ v) := by
  refine ⟨fun h => (List.mem_append.1 h).elim hu.bracket hv.bracket, fun a z haz ha => ?_⟩
  rcases List.append_eq_append_iff.1 haz with ⟨a', rfl, rfl⟩ | ⟨z', rfl, rfl⟩
  · -- The place is behind the first text.
    rcases List.eq_nil_or_concat a' with rfl | ⟨a', c, rfl⟩
    · have hnone : z.takeWhile isNameChar = [] := takeWhile_append_of_head hhead []
      rw [hnone]
      exact nil_notMem_itemWords
    · refine hv.word _ z rfl fun d hd => ha d ?_
      rw [List.concat_eq_append] at hd ⊢
      rw [← List.append_assoc]
      simpa using hd
  · rw [takeWhile_append_of_head hhead]
    exact hu.word a z' rfl ha

theorem Settled.cons (hs : Settled s) (hc : isNameChar c = false) (hbracket : c ≠ '[') : Settled (c :: s) := by
  refine ⟨by simp [Ne.symm hbracket, hs.bracket], fun u v huv hu => ?_⟩
  cases u with
  | nil =>
    obtain rfl : c :: s = v := huv
    rw [List.takeWhile_cons_of_neg (by simp [hc])]
    exact nil_notMem_itemWords
  | cons d u =>
    obtain ⟨rfl, rfl⟩ := List.cons.inj huv
    refine hs.word u v rfl fun a ha => hu a ?_
    rw [List.getLast?_cons]
    simp [Option.mem_def.1 ha]

theorem glued_settled : Glued isBlank Settled := by
  have hmark : ∀ c, (c ∈ treeMarks ∨ isBlank c = true) → isNameChar c = false ∧ c ≠ '[' := by
    rintro c (hc | hc)
    · have hall : treeMarks.all (fun c => !isNameChar c && c != '[') = true := rfl
      simpa using List.all_eq_true.1 hall c hc
    · refine ⟨isNameChar_of_isBlank hc, ?_⟩
      rintro rfl
      cases hc
  refine ⟨settled_nil, settled_name rfl (by decide), ?_, ?_⟩
  · intro c s hc hs
    exact hs.cons (hmark c hc).1 (hmark c hc).2
  · intro u v hu hv hhead
    exact hu.append hv fun c hc => (hmark c (hhead c hc)).1

theorem Settled.blank (hs : Settled s) (hb : Blank b) : Settled (b ++ s) := glued_settled.blank hb hs

theorem settled_blank (hb : Blank b) : Settled b := by simpa using settled_nil.blank hb

/-! ### Trees of uses -/

/-- The text of a tree does not end with a colon. -/
theorem spelled_eq_concat {gap : Text → Prop} (h : Spelled gap t s) : ∃ u c, s = u ++ [c] ∧ c ≠ ':' := by
  have hsegment : ∀ {c}, isSegmentChar c = true → c ≠ ':' := by
    rintro c hc rfl
    cases hc
  cases h with
  | path first rest =>
    obtain ⟨p, c, hp, hc⟩ := pathText_eq_concat first rest
    exact ⟨p, c, hp, hsegment hc⟩
  | @renamed first rest name b e =>
    obtain ⟨p, c, hp, hc⟩ := pathText_eq_concat name []
    rw [pathText_singleton] at hp
    exact ⟨pathText (first :: rest) ++ b ++ ['a', 's'] ++ e ++ p, c, by rw [hp]; simp, hsegment hc⟩
  | glob first rest => exact ⟨pathText (first :: rest) ++ [':', ':'], '*', by simp, by decide⟩
  | star => exact ⟨[], '*', rfl, by decide⟩
  | @bareGroup items q => exact ⟨'\x7b' :: q, '\x7d', rfl, by decide⟩
  | @group first rest items b q =>
    exact ⟨pathText (first :: rest) ++ [':', ':'] ++ b ++ '\x7b' :: q, '\x7d', by simp, by decide⟩

/-- **The texts of a tree may be used**, with any blanks between its parts. On several lines no name may be the word of an
item. -/
theorem usable_of_spelled (h : Spelled Blank t s) (hn : ∀ x ∈ names t, x.text.all isNameChar = true)
    (hword : '\n' ∈ s → ∀ x ∈ names t, x.text ∉ itemWords) : Usable s := by
  refine ⟨fun c hc => ?_, h.solid.first, spelled_eq_concat h, fun hline => ?_⟩
  · have hchars := all_spelled (g := isBlank) (q := fun c => isNameChar c || isBlank c || treeMarks.contains c) h
      (fun c hc => by simp [hc]) rfl
      (fun x hx => List.all_eq_true.2 fun c hc => by simp [List.all_eq_true.1 (hn x hx) c hc]) c hc
    simpa [or_assoc] using hchars
  · exact glued_settled.spelled h fun x hx => settled_name (hn x hx) (hword hline x hx)

theorem Usable.notMem (h : Usable s) (hname : isNameChar c = false) (hblank : isBlank c = false) (hmark : c ∉ treeMarks) :
    c ∉ s := by
  intro hmem
  have := h.chars c hmem
  simp [hname, hblank, hmark] at this

/-- A local tree begins with a root and colons, and something follows them. -/
theorem Usable.exists_root (h : Usable s) (hlocal : Scan.Rust.isLocalPath s = true) :
    ∃ root ∈ Scan.Rust.localRoots, ∃ q, s = root ++ ':' :: ':' :: q ∧ q ≠ [] := by
  obtain ⟨root, hroot, q, rfl⟩ := Scan.Rust.isLocalPath_iff.1 hlocal
  refine ⟨root, hroot, q, rfl, ?_⟩
  rintro rfl
  obtain ⟨u, c, hu, hc⟩ := h.last
  have hcolon : root ++ [':'] ++ [':'] = u ++ [c] := by simpa using hu
  exact hc (List.cons.inj (List.append_inj' hcolon rfl).2).1.symm

/-- The blanks behind a tree do not matter. -/
theorem expand_append_blank (hb : Blank b) (s : Text) : expand (s ++ b) = expand s :=
  congrArg (expandUnder []) (compact_append_blank hb s)

/-! ### Items on lines of their own -/

theorem Visibility.lead (hv : Visibility v) : Lead v := by
  have hnone : Spaces [] := by decide
  cases hv with
  | own => exact .own hnone
  | all hb hne => exact .all hnone hb hne
  | crate hb hne => exact .within hnone (rfl : "crate".toList.all isScopeChar = true) hb hne

theorem Importable.usable (ht : Importable t) (hs : Spelled Spaces t s) : Usable s := by
  have hnamed : ∀ x ∈ names t, ∀ c ∈ x.text, Scan.Rust.isNameRest c = true := fun x hx =>
    (Scan.Rust.isName_chars (ht.named x hx)).2
  have hne : ∀ {c}, isSpaceTab c = true ∨ Scan.Rust.isNameRest c = true → (c != '\n') = true := by
    intro c hc
    rw [bne_iff_ne]
    rintro rfl
    rcases hc with hc | hc <;> cases hc
  have hline : '\n' ∉ s := by
    intro hmem
    have := all_spelled (g := isSpaceTab) (q := (· != '\n')) hs (fun c hc => hne (.inl hc)) rfl
      (fun x hx => List.all_eq_true.2 fun c hc => hne (.inr (hnamed x hx c hc))) '\n' hmem
    simp at this
  refine usable_of_spelled (spelled_mono (fun _ => Spaces.blank) hs) (fun x hx => List.all_eq_true.2 fun c hc => ?_)
    fun h => absurd h hline
  simp [isNameChar, x.solid c hc, hnamed x hx c hc]

/-- A use is found by the text of its tree. -/
theorem specifiers_used (ht : Importable t) (hs : Spelled Spaces t s) :
    (Declaration.used s).specifiers = (Item.used t).specifiers := by
  obtain ⟨x, hx⟩ := Option.isSome_iff_exists.1 ht.rooted
  have hname := ht.named x (first_mem_names hx)
  have hexpand := expand_eq_flatten (spelled_mono (fun _ => Spaces.blank) hs) blank_nil blank_nil
  rw [List.nil_append, List.append_nil] at hexpand
  rw [Declaration.specifiers, hexpand]
  rcases spelled_cases hs hx with ⟨q, -, rfl⟩ | ⟨alias?, q, rfl, rfl, hspace⟩
  · have hlocal := isLocalPath_name (r := ':' :: ':' :: q) hname (by simp; decide)
    by_cases hroot : isRoot x = true
    · rw [if_pos (hlocal.2 ⟨List.contains_iff_mem.1 hroot, q, rfl⟩), specifiers_of_root hx hroot]
    · rw [if_neg fun h => hroot (List.contains_iff_mem.2 (hlocal.1 h).1), specifiers_of_foreign hx (by simpa using hroot)]
  · have hrest : ∀ d ∈ q.head?, Scan.Rust.isNameRest d = false := by
      intro d hd
      have := hspace d hd
      simp only [isSpaceTab, Bool.or_eq_true, beq_iff_eq] at this
      rcases this with rfl | rfl <;> rfl
    rw [if_neg fun h => ?_, specifiers_of_alone ht]
    obtain ⟨-, q', rfl⟩ := (isLocalPath_name hname hrest).1 h
    cases hspace ':' rfl

theorem Written.declared {i : Item} (h : Written i s) : ∃ d, Declared d s ∧ d.specifiers = i.specifiers := by
  cases h with
  | visible hv hs =>
    cases hs with
    | @file name b e hx hb hne he => exact ⟨.file name, .file hv.lead hx hb hne he, rfl⟩
    | @inner name b e e' hx hb hne he he' => exact ⟨.inner name, .inner hv.lead hx hb hne he he'.blank, rfl⟩
    | @used t s b e ht hs hb hne he =>
      exact ⟨.used s, .used hv.lead (ht.usable hs) hb hne he.blank, specifiers_used ht hs⟩
  | @included path b₁ b₂ b₃ b₄ hne hpath hb₁ hb₂ hb₃ hb₄ =>
    have hnone : ∀ c, isPathChar c = false → c ∉ path := by
      intro c hc hmem
      rw [List.all_eq_true.1 hpath c hmem] at hc
      cases hc
    exact ⟨.included path, .included (b := []) (by decide) hne (hnone _ rfl) (hnone _ rfl) hb₁ hb₂ hb₃ hb₄, rfl⟩

/-- Items that stand one on a line are a sequence of items that each begin on a line of their own. -/
theorem Source.program {is : List Item} (h : Source is s) :
    ∃ ds, Program ds s ∧ ds.flatMap Declaration.specifiers = is.flatMap Item.specifiers := by
  induction h with
  | nil => exact ⟨[], .last (.blank blank_nil), rfl⟩
  | last h =>
    obtain ⟨d, hd, hspecifiers⟩ := h.declared
    have hchunk := Chunk.declared hd blank_nil
    rw [List.append_nil] at hchunk
    exact ⟨[d], .last hchunk, by simp [hspecifiers]⟩
  | cons h _ ih =>
    obtain ⟨d, hd, hspecifiers⟩ := h.declared
    obtain ⟨ds, hds, hrest⟩ := ih
    have hchunk := Chunk.declared hd blank_nil
    rw [List.append_nil] at hchunk
    exact ⟨[d] ++ ds, .cons hchunk hds, by simp [hspecifiers, hrest]⟩

end ImportTrail.Rust
