import ImportTrail.Proofs.Grammar.Run
import ImportTrail.Proofs.Rust.Items

/-!
What Rust's grammar reads of items that stand one on a line.

* `reads_useTree` — a use tree, by induction over its texts;
* `loose_grammar`, `fails_gap` — no rule of the grammar looks at the blanks in front of its text;
* `reads_written` — an item in front of others;
* `specifiers?_source` — the grammar accepts sequences of items, and finds what they import.
-/

namespace ImportTrail.Grammar.Rust

open Text Rule UseTree ImportTrail.Rust

variable {w s r x : Text} {c : Char} {n : Nat}

/-! ### Gaps and lexemes -/

/-- Blanks between lexemes. -/
def Gap (w : Text) : Prop := ∀ c ∈ w, isSpace c = true

theorem gap_nil : Gap [] := by simp [Gap]

theorem gap_of_spaces (h : Spaces w) : Gap w := by
  intro c hc
  have := h c hc
  simp only [isSpaceTab, Bool.or_eq_true, beq_iff_eq] at this
  rcases this with rfl | rfl <;> rfl

/-- A character that a lexeme can begin with. -/
def opensLexeme (c : Char) : Bool := !isSpace c && c != '/'

theorem afterGap?_cons (hc : opensLexeme c = true) (s : Text) : afterGap? (c :: s) = some (c :: s) := by
  simp only [opensLexeme, Bool.and_eq_true, Bool.not_eq_true', bne_iff_ne, ne_eq] at hc
  simp [afterGap?, afterGapFrom?, hc]

theorem afterGap?_append (hw : Gap w) (s : Text) : afterGap? (w ++ s) = afterGap? s := by
  induction w with
  | nil => rfl
  | cons d w ih =>
    have hd := hw d List.mem_cons_self
    have hne : d ≠ '/' := by
      rintro rfl
      cases hd
    rw [← ih fun c hc => hw c (List.mem_cons_of_mem _ hc), List.cons_append]
    simp [afterGap?, afterGapFrom?, hd, hne]

theorem reads_lexeme {read : Text → Option Text} (hw : Gap w) (hc : opensLexeme c = true)
    (h : read (c :: s) = some r) : Reads grammar (n + 1) (lexeme read) (w ++ c :: s) r [] := by
  refine Reads.step ?_
  rw [afterGap?_append hw, afterGap?_cons hc, Option.bind_some, h]

theorem fails_lexeme {read : Text → Option Text} (hw : Gap w) (hc : opensLexeme c = true)
    (h : read (c :: s) = none) : Fails grammar (n + 1) (lexeme read) (w ++ c :: s) := by
  refine Fails.step ?_
  rw [afterGap?_append hw, afterGap?_cons hc, Option.bind_some, h]

/-! ### Words and signs -/

/-- A word ends in front of this text. -/
def EndsWord (r : Text) : Prop := ∀ d ∈ r.head?, isIdentRest d = false ∧ d ≠ '#'

theorem endsWord_cons (h : (isIdentRest c || c == '#') = false) (s : Text) : EndsWord (c :: s) := by
  intro d hd
  obtain rfl : c = d := by simpa using hd
  simpa using h

theorem isIdentStart_of_isNameStart (h : Scan.Rust.isNameStart c = true) : isIdentStart c = true := by
  simp only [Scan.Rust.isNameStart, Bool.or_eq_true] at h
  simp only [isIdentStart, Bool.or_eq_true]
  exact Or.inl h

theorem isIdentRest_of_isNameRest (h : Scan.Rust.isNameRest c = true) : isIdentRest c = true := by
  simp only [Scan.Rust.isNameRest, Scan.Rust.isNameStart, Bool.or_eq_true] at h
  simp only [isIdentRest, Bool.or_eq_true]
  tauto

theorem opensLexeme_of_isNameStart (h : Scan.Rust.isNameStart c = true) : opensLexeme c = true := by
  simp only [Scan.Rust.isNameStart, isLetter, Bool.or_eq_true, Bool.and_eq_true, decide_eq_true_eq, beq_iff_eq,
    Char.le_def, UInt32.le_iff_toNat_le] at h
  have hlarge : 65 ≤ c.val.toNat := by
    rcases h with (h | h) | rfl
    · have : ('a' : Char).val.toNat = 97 := rfl
      omega
    · have : ('A' : Char).val.toNat = 65 := rfl
      omega
    · decide
  have hspace : isSpace c = false := by
    simp only [isSpace, Bool.or_eq_false_iff, Bool.and_eq_false_iff, decide_eq_false_iff_not, beq_eq_false_iff_ne,
      Char.le_def, UInt32.le_iff_toNat_le]
    have : ('\r' : Char).val.toNat = 13 := rfl
    refine ⟨?_, Or.inr (by omega)⟩
    rintro rfl
    exact absurd hlarge (by decide)
  have hslash : c ≠ '/' := by
    rintro rfl
    exact absurd hlarge (by decide)
  simp [opensLexeme, hspace, hslash]

theorem identifier?_name (hx : Scan.Rust.isName x = true) (hr : EndsWord r) : identifier? (x ++ r) = some (x, r) := by
  obtain ⟨c, x, rfl, hc, hrest⟩ := exists_cons_of_isName hx
  have hall : ∀ d ∈ x, isIdentRest d = true := fun d hd => isIdentRest_of_isNameRest (hrest d hd)
  have hstop : r.takeWhile isIdentRest = [] ∧ r.dropWhile isIdentRest = r := by
    cases r with
    | nil => exact ⟨rfl, rfl⟩
    | cons d r => simp [(hr d rfl).1]
  rw [List.cons_append, identifier?, if_pos (isIdentStart_of_isNameStart hc), List.takeWhile_append_of_pos hall,
    List.dropWhile_append_of_pos hall, hstop.1, hstop.2, List.append_nil]

theorem word?_name (hx : Scan.Rust.isName x = true) (hr : EndsWord r) : word? (x ++ r) = some (x, r) := by
  unfold word?
  split
  · rename_i t ht
    obtain ⟨c, x, rfl, -, hrest⟩ := exists_cons_of_isName hx
    rw [List.cons_append, List.cons.injEq] at ht
    cases x with
    | nil =>
      rw [List.nil_append] at ht
      exact absurd rfl (hr '#' (by simp [ht.2])).2
    | cons d x =>
      rw [List.cons_append, List.cons.injEq] at ht
      have := hrest d List.mem_cons_self
      rw [ht.2.1] at this
      cases this
  · exact identifier?_name hx hr

theorem reads_word {p : Text → Bool} (hw : Gap w) (hx : Scan.Rust.isName x = true) (hr : EndsWord r) (hp : p x = true) :
    Reads grammar (n + 1) (lexeme (afterWord? p)) (w ++ (x ++ r)) r [] := by
  have hword : afterWord? p (x ++ r) = some r := by rw [afterWord?, word?_name hx hr]; simp [hp]
  obtain ⟨c, x, rfl, hc, -⟩ := exists_cons_of_isName hx
  exact reads_lexeme hw (opensLexeme_of_isNameStart hc) hword

theorem fails_word {p : Text → Bool} (hw : Gap w) (hx : Scan.Rust.isName x = true) (hr : EndsWord r) (hp : p x = false) :
    Fails grammar (n + 1) (lexeme (afterWord? p)) (w ++ (x ++ r)) := by
  have hword : afterWord? p (x ++ r) = none := by rw [afterWord?, word?_name hx hr]; simp [hp]
  obtain ⟨c, x, rfl, hc, -⟩ := exists_cons_of_isName hx
  exact fails_lexeme hw (opensLexeme_of_isNameStart hc) hword

/-- No word begins with such a character. -/
theorem fails_noWord {p : Text → Bool} (hw : Gap w) (hc : opensLexeme c = true) (h : isIdentStart c = false) (s : Text) :
    Fails grammar (n + 1) (lexeme (afterWord? p)) (w ++ c :: s) := by
  have hid : identifier? (c :: s) = none := by simp [identifier?, h]
  refine fails_lexeme hw hc ?_
  have : word? (c :: s) = none := by
    unfold word?
    split
    · rename_i t ht
      rw [List.cons.injEq] at ht
      rw [ht.1] at h
      cases h
    · exact hid
  rw [afterWord?, this]

theorem reads_sign (c : Char) (p : Text) {k : String} (hw : Gap w) (hk : k.toList = c :: p) (hc : opensLexeme c = true)
    (r : Text) : Reads grammar (n + 1) (sign k) (w ++ c :: (p ++ r)) r [] :=
  reads_lexeme hw hc (by rw [hk, after?_eq_some, List.cons_append])

theorem fails_sign {k : String} {d : Char} {p : Text} (hw : Gap w) (hc : opensLexeme c = true) (hk : k.toList = d :: p)
    (hne : d ≠ c) (s : Text) : Fails grammar (n + 1) (sign k) (w ++ c :: s) :=
  fails_lexeme hw hc (by rw [hk, after?, if_neg hne])

/-! ### Use trees -/

/-- What stands behind a tree: a comma, a closing brace or a semicolon. -/
def Boundary (r : Text) : Prop := ∃ b c s, r = b ++ c :: s ∧ Spaces b ∧ [',', '\x7d', ';'].contains c = true

theorem boundary_cons {b : Text} (hb : Spaces b) (hc : [',', '\x7d', ';'].contains c = true) (s : Text) :
    Boundary (b ++ c :: s) := ⟨b, c, s, rfl, hb, hc⟩

theorem endsWord_append {b : Text} (hb : Spaces b) (hs : b = [] → EndsWord s) : EndsWord (b ++ s) := by
  cases b with
  | nil => exact hs rfl
  | cons d b =>
    have hd := hb d List.mem_cons_self
    simp only [isSpaceTab, Bool.or_eq_true, beq_iff_eq] at hd
    rcases hd with rfl | rfl <;> exact endsWord_cons rfl _

theorem Boundary.cases (h : Boundary r) :
    ∃ b c s, r = b ++ c :: s ∧ Spaces b ∧ opensLexeme c = true ∧ isIdentStart c = false ∧ ':' ≠ c ∧ EndsWord (c :: s) := by
  obtain ⟨b, c, s, rfl, hb, hc⟩ := h
  refine ⟨b, c, s, rfl, hb, ?_⟩
  simp only [List.contains_cons, List.contains_nil, Bool.or_false, Bool.or_eq_true, beq_iff_eq] at hc
  rcases hc with rfl | rfl | rfl
  all_goals exact ⟨rfl, rfl, by decide, endsWord_cons rfl _⟩

theorem Boundary.endsWord (h : Boundary r) : EndsWord r := by
  obtain ⟨b, c, s, rfl, hb, -, -, -, hs⟩ := h.cases
  exact endsWord_append hb fun _ => hs

theorem length_lt_pathText (x : Segment) (path : List Segment) : path.length < (pathText (x :: path)).length := by
  have hx := List.length_pos_of_ne_nil x.ne_nil
  have htail : path.length ≤ (tailText path).length := by
    induction path with
    | nil => simp
    | cons y path ih => simp only [tailText_cons, List.length_cons, List.length_append]; omega
  rw [pathText_cons, List.length_append]
  omega

theorem endsWord_tailText {path : List Segment} (hr : EndsWord r) : EndsWord (tailText path ++ r) := by
  cases path with
  | nil => exact hr
  | cons y path => exact endsWord_cons rfl _

theorem reads_tailText {path : List Segment} (hx : ∀ x ∈ path, Scan.Rust.isName x.text = true) (hr : EndsWord r)
    (hstop : Fails grammar 1 (seq (sign "::") name) r) :
    Reads grammar (path.length + 1) (many (seq (sign "::") name)) (tailText path ++ r) r [] := by
  induction path with
  | nil => exact hstop.many
  | cons y path ih =>
    have hcolons : Reads grammar (path.length + 2) (sign "::") (tailText (y :: path) ++ r)
        (y.text ++ (tailText path ++ r)) [] := by
      have := reads_sign (n := path.length + 1) ':' [':'] gap_nil (k := "::") rfl rfl (y.text ++ (tailText path ++ r))
      simpa [tailText_cons] using this
    have hname : Reads grammar (path.length + 2) name (y.text ++ (tailText path ++ r)) (tailText path ++ r) [] :=
      reads_word gap_nil (hx y List.mem_cons_self) (endsWord_tailText hr) rfl
    exact (hcolons.seq hname).many (ih fun x hx' => hx x (List.mem_cons_of_mem _ hx'))

theorem reads_path {x : Segment} {path : List Segment} (hw : Gap w)
    (hx : ∀ y ∈ x :: path, Scan.Rust.isName y.text = true) (hr : EndsWord r)
    (hstop : Fails grammar 1 (seq (sign "::") name) r) :
    Reads grammar (path.length + 1) (sepBy (sign "::") name) (w ++ (pathText (x :: path) ++ r)) r [] := by
  have hname : Reads grammar (path.length + 1) name (w ++ (x.text ++ (tailText path ++ r))) (tailText path ++ r) [] :=
    reads_word hw (hx x List.mem_cons_self) (endsWord_tailText hr) rfl
  rw [pathText_cons, List.append_assoc]
  exact hname.seq (reads_tailText (fun y hy => hx y (List.mem_cons_of_mem _ hy)) hr hstop)

/-- No tree begins with a comma, a closing brace or a semicolon. -/
theorem fails_useTree (hw : Gap w) (hc : [',', '\x7d', ';'].contains c = true) (s : Text) :
    Fails grammar 2 (part .useTree) (w ++ c :: s) := by
  have hc' : opensLexeme c = true ∧ '*' ≠ c ∧ '\x7b' ≠ c ∧ ':' ≠ c ∧ isIdentStart c = false := by
    simp only [List.contains_cons, List.contains_nil, Bool.or_false, Bool.or_eq_true, beq_iff_eq] at hc
    rcases hc with rfl | rfl | rfl <;> exact ⟨rfl, by decide, by decide, by decide, rfl⟩
  obtain ⟨hopens, hstar, hbrace, hcolon, hident⟩ := hc'
  have star : Fails grammar 1 (sign "*") (w ++ c :: s) := fails_sign hw hopens rfl hstar s
  have brace : Fails grammar 1 (sign "\x7b") (w ++ c :: s) := fails_sign hw hopens rfl hbrace s
  have colons : Fails grammar 1 (sign "::") (w ++ c :: s) := fails_sign hw hopens rfl hcolon s
  have word : Fails grammar 1 name (w ++ c :: s) := fails_noWord hw hopens hident s
  exact .part (star.alt (brace.seq.alt (colons.seq.alt (colons.opt.seq_fails word.seq.seq))))

/-- What can follow the path at the beginning of a tree. -/
def afterPath : RustRule := opt (any [seq (sign "::") (any [sign "*", useGroup]), seq (keyword "as") name])

/-- A tree that begins with a path, read up to where its path and what follows it are read. -/
theorem reads_pathTree {x : Segment} {path : List Segment} {t : Text} (hw : Gap w)
    (hx : ∀ y ∈ x :: path, Scan.Rust.isName y.text = true) (hr : EndsWord r)
    (hstop : Fails grammar 1 (seq (sign "::") name) r) (hn : path.length + 1 ≤ n) (ht : Reads grammar n afterPath r t []) :
    Reads grammar (n + 1) (part .useTree) (w ++ (pathText (x :: path) ++ r)) t [] := by
  have hpath := (reads_path hw hx hr hstop).more hn
  obtain ⟨c, s, hs, hc, -⟩ := exists_cons_of_isName (hx x List.mem_cons_self)
  rw [pathText_cons, hs] at hpath ⊢
  have fails : ∀ {k : String} {d p}, k.toList = d :: p → Scan.Rust.isNameStart d = false →
      Fails grammar n (sign k) (w ++ (c :: s ++ tailText path ++ r)) := by
    intro k d p hk hd
    have hne : d ≠ c := by
      rintro rfl
      rw [hc] at hd
      cases hd
    exact (fails_sign (n := 0) hw (opensLexeme_of_isNameStart hc) hk hne (s ++ tailText path ++ r)).more (by omega)
  have hread := (fails (k := "::") rfl rfl).opt.seq (hpath.seq ht)
  exact .part ((fails (k := "*") rfl rfl).alt_reads ((fails (k := "\x7b") rfl rfl).seq.alt_reads
    ((fails (k := "::") rfl rfl).seq.alt_reads hread)))

/-- A comma or a closing brace is not read as part of the tree in front. -/
theorem Boundary.fails_colons (h : Boundary r) : Fails grammar (n + 1) (sign "::") r := by
  obtain ⟨b, c, s, rfl, hb, hopens, -, hcolon, -⟩ := h.cases
  exact fails_sign (gap_of_spaces hb) hopens rfl hcolon s

theorem Boundary.fails_as (h : Boundary r) : Fails grammar (n + 1) (keyword "as") r := by
  obtain ⟨b, c, s, rfl, hb, hopens, hident, -, -⟩ := h.cases
  exact fails_noWord (gap_of_spaces hb) hopens hident s

/-- What is left of a group behind its last tree, up to the closing brace. -/
theorem reads_ending {e : Text} (h : Ending Spaces e) (r : Text) :
    ∃ b, Spaces b ∧ Reads grammar 2 (many (seq comma (part .useTree))) (e ++ '\x7d' :: r) (e ++ '\x7d' :: r) [] ∧
      Reads grammar 2 (opt comma) (e ++ '\x7d' :: r) (b ++ '\x7d' :: r) [] := by
  cases h with
  | blank hb =>
    have hcomma : Fails grammar 2 comma (e ++ '\x7d' :: r) := fails_sign (gap_of_spaces hb) rfl rfl (by decide) r
    exact ⟨e, hb, hcomma.seq.many, hcomma.opt⟩
  | @comma b b' hb hb' =>
    have hcomma : Reads grammar 2 comma (b ++ ',' :: b' ++ '\x7d' :: r) (b' ++ '\x7d' :: r) [] := by
      have := reads_sign (n := 1) ',' [] (gap_of_spaces hb) (k := ",") rfl rfl (b' ++ '\x7d' :: r)
      simpa [comma] using this
    have htree : Fails grammar 2 (part .useTree) (b' ++ '\x7d' :: r) := fails_useTree (gap_of_spaces hb') rfl r
    exact ⟨b', hb', (hcomma.seq_fails htree).many, hcomma.opt⟩

theorem boundary_ending {e : Text} (h : Ending Spaces e) (r : Text) : Boundary (e ++ '\x7d' :: r) := by
  cases h with
  | blank hb => exact boundary_cons hb rfl r
  | @comma b b' hb hb' =>
    have := boundary_cons (c := ',') hb rfl (b' ++ '\x7d' :: r)
    simpa using this

/-- The trees of a group are read one after the other, up to what may stand behind the last one. -/
def ReadsItems (ts : List Tree) (s r : Text) : Prop :=
  ∃ e, Ending Spaces e ∧ (ts = [] ∧ s = e ∨
    ∃ m, Reads grammar (s.length + 2) (part .useTree) (s ++ '\x7d' :: r) m [] ∧
      Reads grammar (s.length + 2) (many (seq comma (part .useTree))) m (e ++ '\x7d' :: r) [])

theorem ReadsItems.group {ts : List Tree} (h : ReadsItems ts s r) (hw : Gap w) :
    Reads grammar (s.length + 2) useGroup (w ++ '\x7b' :: (s ++ '\x7d' :: r)) r [] := by
  obtain ⟨e, he, hitems⟩ := h
  obtain ⟨b, hb, -, hcomma⟩ := reads_ending he r
  have hopen := reads_sign (n := s.length + 1) '\x7b' [] hw (k := "\x7b") rfl rfl (s ++ '\x7d' :: r)
  have hclose := reads_sign (n := s.length + 1) '\x7d' [] (gap_of_spaces hb) (k := "\x7d") rfl rfl r
  have htrees : Reads grammar (s.length + 2) (opt (sepBy comma (part .useTree))) (s ++ '\x7d' :: r) (e ++ '\x7d' :: r) [] := by
    rcases hitems with ⟨-, rfl⟩ | ⟨m, hfirst, hmany⟩
    · obtain ⟨b', c, s', hs', hb', hc⟩ := boundary_ending he r
      rw [hs']
      exact ((fails_useTree (gap_of_spaces hb') hc s').more (by omega)).seq.opt
    · exact (hfirst.seq hmany).opt
  exact hopen.seq ((htrees.seq (hcomma.more (by omega))).seq hclose)

mutual
theorem reads_useTree : ∀ {t : Tree} {s : Text}, Spelled Spaces t s →
    (∀ x ∈ names t, Scan.Rust.isName x.text = true) → ∀ {w r : Text}, Gap w → Boundary r →
    Reads grammar (s.length + 2) (part .useTree) (w ++ (s ++ r)) r []
  | _, _, .path first rest, hx, w, r, hw, hr => by
    have hlen := length_lt_pathText first rest
    have hafter : Reads grammar 1 afterPath r r [] := (hr.fails_colons.seq.alt hr.fails_as.seq).opt
    exact reads_pathTree hw (by simpa [names] using hx) hr.endsWord hr.fails_colons.seq (by omega)
      (hafter.more (by omega))
  | _, _, @Spelled.renamed _ first rest x b e hb hbne he hene, hx, w, r, hw, hr => by
    have hlen := length_lt_pathText first rest
    have hnames : ∀ y ∈ first :: rest, Scan.Rust.isName y.text = true := fun y hy => hx y (List.mem_append_left _ hy)
    have halias : Scan.Rust.isName x.text = true := hx x (by simp [names])
    have hcolons : Fails grammar 1 (sign "::") (b ++ (['a', 's'] ++ (e ++ (x.text ++ r)))) :=
      fails_sign (gap_of_spaces hb) rfl rfl (by decide) _
    have has : Reads grammar 1 (keyword "as") (b ++ (['a', 's'] ++ (e ++ (x.text ++ r)))) (e ++ (x.text ++ r)) [] :=
      reads_word (gap_of_spaces hb) rfl (endsWord_append he fun h => absurd h hene) rfl
    have hname : Reads grammar 1 name (e ++ (x.text ++ r)) r [] := reads_word (gap_of_spaces he) halias hr.endsWord rfl
    have hafter : Reads grammar 1 afterPath _ r [] := (hcolons.seq.alt_reads (has.seq hname)).opt
    have htree := reads_pathTree hw hnames (endsWord_append hb fun h => absurd h hbne) hcolons.seq
      (n := (pathText (first :: rest)).length) (by omega) (hafter.more (by omega))
    simpa using htree.more (m := _ + 2) (by simp; omega)
  | _, _, .glob first rest, hx, w, r, hw, hr => by
    have hlen := length_lt_pathText first rest
    have hcolons : Reads grammar 1 (sign "::") (':' :: ':' :: '*' :: r) ('*' :: r) [] :=
      reads_sign ':' [':'] gap_nil rfl rfl ('*' :: r)
    have hname : Fails grammar 1 name ('*' :: r) := fails_noWord gap_nil rfl rfl r
    have hstar : Reads grammar 1 (sign "*") ('*' :: r) r [] := reads_sign '*' [] gap_nil rfl rfl r
    have hafter : Reads grammar 1 afterPath (':' :: ':' :: '*' :: r) r [] := (hcolons.seq hstar.alt).alt.opt
    have := reads_pathTree hw hx (endsWord_cons rfl _) (hcolons.seq_fails hname)
      (n := (pathText (first :: rest) ++ [':', ':', '*']).length + 1) (by simp; omega) (hafter.more (by omega))
    simpa using this
  | _, _, .star, hx, w, r, hw, hr => by
    have hstar : Reads grammar 2 (sign "*") (w ++ '*' :: r) r [] := reads_sign '*' [] hw rfl rfl r
    exact .part hstar.alt
  | _, _, @Spelled.bareGroup _ ts s h, hx, w, r, hw, hr => by
    have hgroup := (reads_items h (by simpa [names] using hx) r).group hw
    have hstar : Fails grammar (s.length + 2) (sign "*") (w ++ '\x7b' :: (s ++ '\x7d' :: r)) :=
      fails_sign hw rfl rfl (by decide) _
    have htree := (hstar.alt_reads (hgroup.alt (b := any [seq (sign "::") (any [sign "*", useGroup]),
      all [opt (sign "::"), sepBy (sign "::") name, afterPath]]))).part (g := grammar) (p := .useTree)
    simpa using htree.more (m := s.length + 4) (by omega)
  | _, _, @Spelled.group _ first rest ts b s hb h, hx, w, r, hw, hr => by
    have hlen := length_lt_pathText first rest
    have hnames : ∀ y ∈ first :: rest, Scan.Rust.isName y.text = true := fun y hy => hx y (List.mem_append_left _ hy)
    have hitems : ∀ y ∈ namesAll ts, Scan.Rust.isName y.text = true :=
      fun y hy => hx y (List.mem_append_right _ hy)
    have hgroup := (reads_items h hitems r).group (gap_of_spaces hb)
    have hcolons : Reads grammar 1 (sign "::") (':' :: ':' :: (b ++ '\x7b' :: (s ++ '\x7d' :: r)))
        (b ++ '\x7b' :: (s ++ '\x7d' :: r)) [] := reads_sign ':' [':'] gap_nil rfl rfl _
    have hname : Fails grammar 1 name (b ++ '\x7b' :: (s ++ '\x7d' :: r)) := fails_noWord (gap_of_spaces hb) rfl rfl _
    have hstar : Fails grammar (s.length + 2) (sign "*") (b ++ '\x7b' :: (s ++ '\x7d' :: r)) :=
      fails_sign (gap_of_spaces hb) rfl rfl (by decide) _
    have hafter : Reads grammar (s.length + 2) afterPath (':' :: ':' :: (b ++ '\x7b' :: (s ++ '\x7d' :: r))) r [] :=
      ((hcolons.more (by omega)).seq (hstar.alt_reads hgroup)).alt.opt
    have htree := reads_pathTree hw hnames (endsWord_cons rfl _) (hcolons.seq_fails hname)
      (n := (pathText (first :: rest)).length + s.length + 2) (by omega) (hafter.more (by omega))
    simpa using htree.more (m := _ + 2) (by simp; omega)
/-- The trees of a group. Another round of the repetition takes depth, and the comma in front of it pays for that. -/
theorem reads_items : ∀ {ts : List Tree} {s : Text}, SpelledItems Spaces ts s →
    (∀ x ∈ namesAll ts, Scan.Rust.isName x.text = true) → ∀ r : Text, ReadsItems ts s r
  | _, s, .nil he, _, r => ⟨s, he, Or.inl ⟨rfl, rfl⟩⟩
  | _, _, @SpelledItems.last _ t b s e hb h he, hx, r => by
    have htree := reads_useTree h (fun y hy => hx y (List.mem_append_left _ hy)) (gap_of_spaces hb) (boundary_ending he r)
    obtain ⟨-, -, hmany, -⟩ := reads_ending he r
    refine ⟨e, he, Or.inr ⟨e ++ '\x7d' :: r, ?_, hmany.more (by omega)⟩⟩
    simpa using htree.more (m := _ + 2) (by simp; omega)
  | _, _, @SpelledItems.cons _ t u ts b s e r' hb h he hr', hx, r => by
    have hrest := fun y hy => hx y (List.mem_append_right _ hy)
    obtain ⟨e', he', ⟨hnil, -⟩ | ⟨m, hfirst, hmany⟩⟩ := reads_items hr' hrest r
    · cases hnil
    · have htree := reads_useTree h (fun y hy => hx y (List.mem_append_left _ hy)) (gap_of_spaces hb)
        (boundary_cons (c := ',') he rfl (r' ++ '\x7d' :: r))
      have hcomma : Reads grammar (r'.length + 3) comma (e ++ ',' :: (r' ++ '\x7d' :: r)) (r' ++ '\x7d' :: r) [] :=
        reads_sign ',' [] (gap_of_spaces he) rfl rfl _
      have hround := (hcomma.seq (hfirst.more (by omega))).many hmany
      refine ⟨e', he', Or.inr ⟨e ++ ',' :: (r' ++ '\x7d' :: r), ?_, hround.more ?_⟩⟩
      · simpa using htree.more (m := _ + 2) (by simp; omega)
      · simp
        omega
end

/-! ### Items -/

/-- A lexeme that is the same behind every gap. -/
def Loose (read : Text → Option Text) : Prop := ∀ s s', afterGap? s = afterGap? s' → read s = read s'

section Loose

variable {a : RustRule} {l : List RustRule}

@[simp] theorem loose_lexeme (read : Text → Option Text) : Lexemes Loose (lexeme read) := by
  intro s s' h
  simp only [h]

@[simp] theorem loose_any : Lexemes Loose (any l) ↔ ∀ a ∈ l, Lexemes Loose a := lexemes_any fun _ _ _ => rfl

@[simp] theorem loose_sign (k : String) : Lexemes Loose (sign k) := loose_lexeme _

@[simp] theorem loose_signIn (l : List String) : Lexemes Loose (signIn l) := by simp [signIn]

@[simp] theorem loose_keyword (k : String) : Lexemes Loose (keyword k) := loose_lexeme _

@[simp] theorem loose_nameExcept (words : List Text) : Lexemes Loose (nameExcept words) := loose_lexeme _

@[simp] theorem loose_name : Lexemes Loose name := loose_lexeme _

@[simp] theorem loose_lifetime : Lexemes Loose lifetime := loose_lexeme _

@[simp] theorem loose_literal : Lexemes Loose literal := loose_lexeme _

@[simp] theorem loose_bracketed (k k' : String) : Lexemes Loose (bracketed k a k') ↔ Lexemes Loose a := by
  simp [bracketed]

@[simp] theorem loose_braced : Lexemes Loose (braced a) ↔ Lexemes Loose a := by simp [braced]

@[simp] theorem loose_bracketedList (k k' : String) : Lexemes Loose (bracketedList k a k') ↔ Lexemes Loose a := by
  simp [bracketedList, comma]

@[simp] theorem loose_bracedList : Lexemes Loose (bracedList a) ↔ Lexemes Loose a := by simp [bracedList]

@[simp] theorem loose_angledList : Lexemes Loose (angledList a) ↔ Lexemes Loose a := by simp [angledList, comma]

/-! The rules that several parts of the grammar share come first, then the parts. -/

@[simp] theorem loose_typeExpression : Lexemes Loose typeExpression := trivial

@[simp] theorem loose_expression : Lexemes Loose expression := trivial

@[simp] theorem loose_headExpression : Lexemes Loose headExpression := trivial

@[simp] theorem loose_block : Lexemes Loose block := by simp [block]

@[simp] theorem loose_typeArgument : Lexemes Loose typeArgument := by simp [typeArgument]

@[simp] theorem loose_typeArguments : Lexemes Loose typeArguments := by simp [typeArguments]

@[simp] theorem loose_qualified : Lexemes Loose qualified := by simp [qualified]

@[simp] theorem loose_pathExcept (words : List Text) : Lexemes Loose (pathExcept words) := by
  simp [pathExcept, pathTail]

@[simp] theorem loose_resultType : Lexemes Loose resultType := by simp [resultType]

@[simp] theorem loose_functionModifier : Lexemes Loose functionModifier := by simp [functionModifier]

@[simp] theorem loose_token : Lexemes Loose token := by simp [token]

@[simp] theorem loose_treeOf : Lexemes Loose (treeOf a) ↔ Lexemes Loose a := by simp [treeOf]

@[simp] theorem loose_includedString : Lexemes Loose includedString := by simp [includedString]

@[simp] theorem loose_macroCall : Lexemes Loose macroCall := by simp [macroCall]

@[simp] theorem loose_attributeItem : Lexemes Loose attributeItem := by simp [attributeItem, attributeBody]

@[simp] theorem loose_attributes : Lexemes Loose attributes := by simp [attributes]

@[simp] theorem loose_patterns : Lexemes Loose patterns := by simp [patterns]

@[simp] theorem loose_parameters : Lexemes Loose parameters := by simp [parameters, selfParameter]

@[simp] theorem loose_rangeSign : Lexemes Loose rangeSign := by simp [rangeSign]

@[simp] theorem loose_continuation : Lexemes Loose continuation := by simp [continuation]

@[simp] theorem loose_visibility : Lexemes Loose visibility := by simp [visibility]

@[simp] theorem loose_bounds : Lexemes Loose bounds := by simp [bounds]

@[simp] theorem loose_annotation : Lexemes Loose annotation := ⟨loose_sign _, loose_typeExpression⟩

@[simp] theorem loose_initialValue : Lexemes Loose initialValue := by simp [initialValue]

@[simp] theorem loose_typeParameters : Lexemes Loose typeParameters := by simp [typeParameters, typeParameter]

@[simp] theorem loose_whereClause : Lexemes Loose whereClause := by simp [whereClause, comma]

@[simp] theorem loose_declarations : Lexemes Loose declarations := by simp [declarations]

@[simp] theorem loose_namedFields : Lexemes Loose namedFields := by simp [namedFields]

@[simp] theorem loose_plainFields : Lexemes Loose plainFields := by simp [plainFields]

theorem loose_statement : Lexemes Loose statementRule := by simp [statementRule]

theorem loose_declaration : Lexemes Loose declarationRule := by
  simp [declarationRule, moduleItem, reportText, useItem, functionItem, constantItem, staticItem, typeItem,
    structureItem, unionItem, enumItem, traitItem, externItem, implementation, letDeclaration, macroDefinition,
    macroRules]

theorem loose_useTree : Lexemes Loose useTreeRule := by simp [useTreeRule, useGroup]

theorem loose_tokenTree : Lexemes Loose tokenTreeRule := by simp [tokenTreeRule]

theorem loose_type : Lexemes Loose typeRule := by simp [typeRule]

theorem loose_plainType : Lexemes Loose plainTypeRule := by simp [plainTypeRule, forLifetimes, typePath, typeSegment]

theorem loose_pattern : Lexemes Loose patternRule := by simp [patternRule, rangeEnd, signedLiteral, fieldPattern]

theorem loose_expressionRule (braces : Bool) : Lexemes Loose (expressionRule braces) := by
  cases braces <;> simp [expressionRule, binary, optionalOperand]

theorem loose_operand (braces : Bool) : Lexemes Loose (operandRule braces) := by
  cases braces <;> simp [operandRule, optionalOperand, closure, jump, atom, trailer, arguments, elements, comma,
    pathExpression, fieldValue]

theorem loose_blockExpression : Lexemes Loose blockExpressionRule := by simp [blockExpressionRule, matchExpression, comma]

/-- Every lexeme is read behind a gap, so no rule looks at the blanks in front. -/
theorem loose_grammar (x : Part) : Lexemes Loose (grammar x) := by
  cases x with
  | statement => exact loose_statement
  | declaration => exact loose_declaration
  | useTree => exact loose_useTree
  | tokenTree => exact loose_tokenTree
  | type => exact loose_type
  | plainType => exact loose_plainType
  | pattern => exact loose_pattern
  | expression braces => exact loose_expressionRule braces
  | operand braces => exact loose_operand braces
  | blockExpression => exact loose_blockExpression

end Loose

theorem fails_gap {a : RustRule} (hw : Gap w) (ha : Lexemes Loose a) (h : Fails grammar n a s) :
    Fails grammar n a (w ++ s) :=
  h.alike (fun _ hread => hread _ _ (afterGap?_append hw s)) loose_grammar ha

theorem textTo_append (hw : Gap w) (hc : opensLexeme c = true) (s r : Text) : textTo (w ++ c :: (s ++ r)) r = c :: s := by
  have hgap : afterGap? (w ++ c :: (s ++ r)) = some (c :: s ++ r) := by
    rw [afterGap?_append hw, afterGap?_cons hc, List.cons_append]
  rw [textTo, hgap, Option.getD_some, List.length_append, Nat.add_sub_cancel]
  exact List.take_left

theorem reads_visibility {v : Text} (hv : Visibility v) (hw : Gap w) (hx : Scan.Rust.isName x = true)
    (hpub : x ≠ "pub".toList) (hcrate : x ≠ "crate".toList) (hr : EndsWord r) :
    ∃ w', Gap w' ∧ Reads grammar 1 (opt visibility) (w ++ (v ++ (x ++ r))) (w' ++ (x ++ r)) [] := by
  cases hv with
  | own =>
    have h₁ : Fails grammar 1 (keyword "pub") (w ++ (x ++ r)) := fails_word hw hx hr (by simpa using hpub)
    have h₂ : Fails grammar 1 (keyword "crate") (w ++ (x ++ r)) := fails_word hw hx hr (by simpa using hcrate)
    exact ⟨w, hw, (h₁.seq.alt h₂.seq).opt⟩
  | @all b hb hne =>
    have hpub' : Reads grammar 1 (keyword "pub") (w ++ ("pub".toList ++ (b ++ (x ++ r)))) (b ++ (x ++ r)) [] :=
      reads_word hw rfl (endsWord_append hb fun h => absurd h hne) rfl
    have hparen : Fails grammar 1 (sign "(") (b ++ (x ++ r)) := by
      obtain ⟨c, x, rfl, hc, -⟩ := exists_cons_of_isName hx
      refine fails_sign (gap_of_spaces hb) (opensLexeme_of_isNameStart hc) rfl ?_ _
      rintro rfl
      cases hc
    rw [List.append_assoc]
    exact ⟨b, gap_of_spaces hb, (hpub'.seq hparen.seq.opt).alt.opt⟩
  | @crate b hb hne =>
    have hpub' : Reads grammar 1 (keyword "pub") (w ++ ("pub".toList ++ ('(' :: ("crate".toList ++ (')' :: (b ++ (x ++ r)))))))
        ('(' :: ("crate".toList ++ (')' :: (b ++ (x ++ r))))) [] := reads_word hw rfl (endsWord_cons rfl _) rfl
    have hopen : Reads grammar 1 (sign "(") ('(' :: ("crate".toList ++ (')' :: (b ++ (x ++ r)))))
        ("crate".toList ++ (')' :: (b ++ (x ++ r)))) [] := reads_sign '(' [] gap_nil rfl rfl _
    have hself : Fails grammar 1 (keyword "self") ("crate".toList ++ (')' :: (b ++ (x ++ r)))) :=
      fails_word (w := []) (x := "crate".toList) gap_nil rfl (endsWord_cons rfl _) rfl
    have hsuper : Fails grammar 1 (keyword "super") ("crate".toList ++ (')' :: (b ++ (x ++ r)))) :=
      fails_word (w := []) (x := "crate".toList) gap_nil rfl (endsWord_cons rfl _) rfl
    have hcrate' : Reads grammar 1 (keyword "crate") ("crate".toList ++ (')' :: (b ++ (x ++ r)))) (')' :: (b ++ (x ++ r))) [] :=
      reads_word (w := []) (x := "crate".toList) gap_nil rfl (endsWord_cons rfl _) rfl
    have hclose : Reads grammar 1 (sign ")") (')' :: (b ++ (x ++ r))) (b ++ (x ++ r)) [] :=
      reads_sign ')' [] gap_nil rfl rfl _
    have hroot := hself.alt_reads (hsuper.alt_reads (hcrate'.alt (b := seq (keyword "in") (pathExcept []))))
    exact ⟨b, gap_of_spaces hb, (hpub'.seq (hopen.seq (hroot.seq hclose)).opt).alt.opt⟩

/-- The word in front of an item, with the spaces behind it. -/
theorem reads_itemWord {k : String} {b : Text} (hk : Scan.Rust.isName k.toList = true) (hw : Gap w) (hb : Spaces b) (hne : b ≠ [])
    (r : Text) : Reads grammar (n + 1) (keyword k) (w ++ (k.toList ++ (b ++ r))) (b ++ r) [] :=
  reads_word hw hk (endsWord_append hb fun h => absurd h hne) (by simp)

theorem textTo_name {b : Text} (hx : Scan.Rust.isName x = true) (hb : Spaces b) (r : Text) :
    textTo (b ++ (x ++ r)) r = x := by
  obtain ⟨c, x, rfl, hc, -⟩ := exists_cons_of_isName hx
  exact textTo_append (gap_of_spaces hb) (opensLexeme_of_isNameStart hc) x r

theorem reads_fileModule {b e : Text} (hx : Scan.Rust.isName x = true) (hb : Spaces b) (hne : b ≠ []) (he : Spaces e)
    (hw : Gap w) (r : Text) :
    Reads grammar (n + 1) moduleItem (w ++ ("mod".toList ++ (b ++ (x ++ (e ++ ';' :: r))))) r [x] := by
  have hmod := reads_itemWord (n := n) (k := "mod") rfl hw hb hne (x ++ (e ++ ';' :: r))
  have hname : Reads grammar (n + 1) name (b ++ (x ++ (e ++ ';' :: r))) (e ++ ';' :: r) [] :=
    reads_word (gap_of_spaces hb) hx (endsWord_append he fun _ => endsWord_cons rfl _) rfl
  have hsemi : Reads grammar (n + 1) (sign ";") (e ++ ';' :: r) r [] := reads_sign ';' [] (gap_of_spaces he) rfl rfl r
  have hreport := hname.report fun s t _ => [textTo s t]
  rw [textTo_name hx hb] at hreport
  exact hmod.seq (hreport.seq hsemi).alt

theorem reads_innerModule {b e e' : Text} (hx : Scan.Rust.isName x = true) (hb : Spaces b) (hne : b ≠ []) (he : Spaces e)
    (he' : Spaces e') (hw : Gap w) (r : Text) :
    Reads grammar (n + 15) moduleItem
      (w ++ ("mod".toList ++ (b ++ (x ++ (e ++ '\x7b' :: (e' ++ '\x7d' :: r)))))) r [] := by
  have hmod := reads_itemWord (n := n + 14) (k := "mod") rfl hw hb hne (x ++ (e ++ '\x7b' :: (e' ++ '\x7d' :: r)))
  have hname : Reads grammar (n + 15) name (b ++ (x ++ (e ++ '\x7b' :: (e' ++ '\x7d' :: r))))
      (e ++ '\x7b' :: (e' ++ '\x7d' :: r)) [] :=
    reads_word (gap_of_spaces hb) hx (endsWord_append he fun _ => endsWord_cons rfl _) rfl
  have hsemi : Fails grammar (n + 15) (sign ";") (e ++ '\x7b' :: (e' ++ '\x7d' :: r)) :=
    fails_sign (gap_of_spaces he) rfl rfl (by decide) _
  have hopen : Reads grammar (n + 15) (sign "\x7b") (e ++ '\x7b' :: (e' ++ '\x7d' :: r)) (e' ++ '\x7d' :: r) [] :=
    reads_sign '\x7b' [] (gap_of_spaces he) rfl rfl _
  have hnone : Fails grammar 14 (part .declaration) (e' ++ '\x7d' :: r) :=
    fails_gap (gap_of_spaces he') (lexemes_part _) rfl
  have hclose : Reads grammar (n + 15) (sign "\x7d") (e' ++ '\x7d' :: r) r [] :=
    reads_sign '\x7d' [] (gap_of_spaces he') rfl rfl r
  have hbody := hopen.seq ((hnone.more (by omega)).many.seq hclose)
  have hfile := (hname.report fun s t _ => [textTo s t]).seq_fails hsemi
  exact hmod.seq (hfile.alt_reads (hname.seq hbody))

/-- The text of a tree is read as it stands, and expanded. -/
theorem reads_used {t : Tree} {b e : Text} (ht : Importable t) (hs : Spelled Spaces t s) (hb : Spaces b) (hne : b ≠ [])
    (he : Spaces e) (hw : Gap w) (r : Text) :
    Reads grammar (s.length + 2) useItem (w ++ ("use".toList ++ (b ++ (s ++ (e ++ ';' :: r))))) r
      (Item.used t).specifiers := by
  have huse := reads_itemWord (n := s.length + 1) (k := "use") rfl hw hb hne (s ++ (e ++ ';' :: r))
  have htree := reads_useTree hs ht.named (gap_of_spaces hb) (boundary_cons (c := ';') he rfl r)
  have hsemi : Reads grammar (s.length + 2) (sign ";") (e ++ ';' :: r) r [] :=
    reads_sign ';' [] (gap_of_spaces he) rfl rfl r
  have hreport := htree.report fun s t _ => useFound s t
  have htext : textTo (b ++ (s ++ (e ++ ';' :: r))) (e ++ ';' :: r) = s := by
    obtain ⟨x, hx⟩ := Option.isSome_iff_exists.1 ht.rooted
    obtain ⟨q, hq⟩ : ∃ q, s = x.text ++ q := by
      rcases spelled_cases hs hx with ⟨q, -, hq⟩ | ⟨-, q, -, hq, -⟩
      · exact ⟨_, hq⟩
      · exact ⟨q, hq⟩
    obtain ⟨c, x', hc, hstart, -⟩ := exists_cons_of_isName (ht.named x (first_mem_names hx))
    rw [hq, hc]
    exact textTo_append (gap_of_spaces hb) (opensLexeme_of_isNameStart hstart) (x' ++ q) _
  have hexpand := expand_eq_flatten (spelled_mono (fun _ => Spaces.blank) hs) blank_nil blank_nil
  rw [List.nil_append, List.append_nil] at hexpand
  have hfound : useFound (b ++ (s ++ (e ++ ';' :: r))) (e ++ ';' :: r) = (Item.used t).specifiers := by
    rw [useFound, htext, hexpand, filter_isLocalPath ht]
  rw [hfound] at hreport
  have := huse.seq (hreport.seq hsemi)
  rw [List.nil_append, List.append_nil] at this
  exact this

/-- A module or a use behind a visibility is a statement. -/
theorem reads_statement {v t : Text} {found : List Text} (hv : Visibility v) (hw : Gap w) (hx : Scan.Rust.isName x = true)
    (hpub : x ≠ "pub".toList) (hcrate : x ≠ "crate".toList) (hr : EndsWord r)
    (hitem : ∀ w, Gap w → Reads grammar (n + 1) moduleItem (w ++ (x ++ r)) t found ∨
      Fails grammar (n + 1) moduleItem (w ++ (x ++ r)) ∧ Reads grammar (n + 1) useItem (w ++ (x ++ r)) t found) :
    Reads grammar (n + 3) (part .statement) (w ++ (v ++ (x ++ r))) t found := by
  obtain ⟨w', hw', hvis⟩ := reads_visibility hv hw hx hpub hcrate hr
  have hdeclaration : Reads grammar (n + 1) declarationRule (w ++ (v ++ (x ++ r))) t found := by
    have hvis := hvis.more (m := n + 1) (by omega)
    rcases hitem w' hw' with hmodule | ⟨hmodule, huse⟩
    · exact (hvis.seq hmodule.alt).alt
    · exact (hvis.seq (hmodule.alt_reads huse.alt)).alt
  exact .part (Reads.part (p := Part.declaration) hdeclaration).alt

theorem reads_visible {i : Item} {v : Text} (hv : Visibility v) (hs : Body i s) (hw : Gap w) (r : Text) :
    Reads grammar (s.length + 17) (part .statement) (w ++ (v ++ (s ++ r))) r i.specifiers := by
  cases hs with
  | @file x b e hx hb hne he =>
    have hstatement := reads_statement (n := 14) (x := "mod".toList) hv hw rfl (by decide) (by decide)
      (endsWord_append hb fun h => absurd h hne) fun w hw => Or.inl (reads_fileModule hx hb hne he hw r)
    have hs : "mod".toList ++ (b ++ (x ++ (e ++ [';']))) ++ r = "mod".toList ++ (b ++ (x ++ (e ++ ';' :: r))) := by simp
    rw [hs]
    exact hstatement.more (by omega)
  | @inner x b e e' hx hb hne he he' =>
    have hstatement := reads_statement (n := 14) (x := "mod".toList) hv hw rfl (by decide) (by decide)
      (endsWord_append hb fun h => absurd h hne) fun w hw => Or.inl (reads_innerModule hx hb hne he he' hw r)
    have hs : "mod".toList ++ (b ++ (x ++ (e ++ '\x7b' :: (e' ++ ['\x7d'])))) ++ r =
        "mod".toList ++ (b ++ (x ++ (e ++ '\x7b' :: (e' ++ '\x7d' :: r)))) := by simp
    rw [hs]
    exact hstatement.more (by omega)
  | @used t s b e ht hs hb hne he =>
    have hends : EndsWord (b ++ (s ++ (e ++ ';' :: r))) := endsWord_append hb fun h => absurd h hne
    have hstatement := reads_statement (n := s.length + 1) (x := "use".toList) hv hw rfl (by decide) (by decide) hends
      fun w hw => Or.inr ⟨(fails_word hw rfl hends rfl).seq, reads_used ht hs hb hne he hw r⟩
    have hs : "use".toList ++ (b ++ (s ++ (e ++ [';']))) ++ r = "use".toList ++ (b ++ (s ++ (e ++ ';' :: r))) := by simp
    rw [hs]
    exact hstatement.more (by simp only [List.length_append]; omega)

/-! ### Includes -/

theorem afterStringEnd?_path {path : Text} (h : path.all isPathChar = true) (r : Text) :
    afterStringEnd? (path ++ '"' :: r) = some r := by
  induction path with
  | nil =>
    rw [List.nil_append, afterStringEnd?.eq_def]
    rfl
  | cons c path ih =>
    rw [List.all_cons, Bool.and_eq_true] at h
    have hc := h.1
    simp only [isPathChar, Bool.and_eq_true, bne_iff_ne, ne_eq] at hc
    rw [List.cons_append, afterStringEnd?.eq_def]
    simp [hc, ih h.2]

theorem unquoted {path : Text} (hne : path ≠ []) (hpath : path.all isPathChar = true) :
    dropEndWhile (· == '"') (('"' :: (path ++ ['"'])).dropWhile (· == '"')) = path := by
  have hquote : ∀ c ∈ path, (c == '"') = false := by
    intro c hc
    have := List.all_eq_true.1 hpath c hc
    simp only [isPathChar, Bool.and_eq_true, bne_iff_ne, ne_eq] at this
    simpa using this.1.1
  have hfront : ('"' :: (path ++ ['"'])).dropWhile (· == '"') = path ++ ['"'] := by
    obtain ⟨c, path, rfl⟩ := List.exists_cons_of_ne_nil hne
    simp [hquote c List.mem_cons_self]
  obtain ⟨p, c, rfl⟩ : ∃ p c, path = p ++ [c] := ⟨_, _, (List.dropLast_append_getLast hne).symm⟩
  rw [hfront, dropEndWhile]
  simp [hquote c (by simp)]

theorem reads_includedString {path b : Text} (hne : path ≠ []) (hpath : path.all isPathChar = true) (hb : Spaces b) (r : Text) :
    Reads grammar (n + 1) includedString (b ++ '"' :: (path ++ '"' :: r)) r [Scan.Rust.includeSpecifier path] := by
  have hstring : Reads grammar (n + 1) (lexeme afterString?) (b ++ '"' :: (path ++ '"' :: r)) r [] :=
    reads_lexeme (gap_of_spaces hb) rfl (afterStringEnd?_path hpath r)
  have htext : textTo (b ++ '"' :: (path ++ '"' :: r)) r = '"' :: (path ++ ['"']) := by
    have := textTo_append (gap_of_spaces hb) (c := '"') rfl (path ++ ['"']) r
    simpa using this
  have hunquoted := unquoted hne hpath
  have hreport := hstring.report fun s t _ => includeFound s t
  rw [includeFound, htext, hunquoted] at hreport
  exact hreport

/-- A call of `include` is a macro call that reports the path. -/
theorem reads_includeCall {path b₁ b₂ b₃ : Text} (hne : path ≠ []) (hpath : path.all isPathChar = true) (hb₁ : Spaces b₁)
    (hb₂ : Spaces b₂) (hb₃ : Spaces b₃) (hw : Gap w) (r : Text) :
    Reads grammar 15 macroCall
      (w ++ ("include".toList ++ ('!' :: (b₁ ++ '(' :: (b₂ ++ '"' :: (path ++ '"' :: (b₃ ++ ')' :: r))))))) r
      [Scan.Rust.includeSpecifier path] := by
  have hkeyword : Reads grammar 15 (keyword "include") _ _ [] := reads_word (x := "include".toList) hw rfl
    (endsWord_cons (c := '!') rfl (b₁ ++ '(' :: (b₂ ++ '"' :: (path ++ '"' :: (b₃ ++ ')' :: r))))) rfl
  have hmark : Reads grammar 15 (sign "!") _ _ [] :=
    reads_sign '!' [] gap_nil rfl rfl (b₁ ++ '(' :: (b₂ ++ '"' :: (path ++ '"' :: (b₃ ++ ')' :: r))))
  have hopen : Reads grammar 15 (sign "(") _ _ [] :=
    reads_sign '(' [] (gap_of_spaces hb₁) rfl rfl (b₂ ++ '"' :: (path ++ '"' :: (b₃ ++ ')' :: r)))
  have hstring : Reads grammar 15 (any [includedString, token]) _ _ [_] :=
    (reads_includedString hne hpath hb₂ (b₃ ++ ')' :: r)).alt
  have hstop : Fails grammar 14 (any [includedString, token]) (b₃ ++ ')' :: r) :=
    fails_gap (gap_of_spaces hb₃) (by simp) rfl
  have hclose : Reads grammar 15 (sign ")") _ _ [] := reads_sign ')' [] (gap_of_spaces hb₃) rfl rfl r
  have htokens := hstring.many hstop.many
  exact (hkeyword.seq (hmark.seq (hopen.seq (htokens.seq hclose)).alt)).alt

theorem fails_alternative (s : Text) {a : RustRule} (ha : Lexemes Loose a) (hw : Gap w) (h : Fails grammar 13 a s) :
    Fails grammar 15 a (w ++ s) := (fails_gap hw ha h).more (by omega)

/-- The call is one statement, and the semicolon behind it another one. -/
theorem reads_included {path b₁ b₂ b₃ b₄ : Text} (hne : path ≠ []) (hpath : path.all isPathChar = true) (hb₁ : Spaces b₁)
    (hb₂ : Spaces b₂) (hb₃ : Spaces b₃) (hb₄ : Spaces b₄) (hw : Gap w) (r : Text) :
    Reads grammar 17 (part .statement)
      (w ++ ("include".toList ++ ('!' :: (b₁ ++ '(' :: (b₂ ++ '"' :: (path ++ '"' :: (b₃ ++ ')' :: (b₄ ++ ';' :: r))))))))
      (b₄ ++ ';' :: r) [Scan.Rust.includeSpecifier path] := by
  have hcall := reads_includeCall hne hpath hb₁ hb₂ hb₃ hw (b₄ ++ ';' :: r)
  have hend : Fails grammar 14 continuation (b₄ ++ ';' :: r) := fails_gap (gap_of_spaces hb₄) loose_continuation rfl
  generalize b₁ ++ '(' :: (b₂ ++ '"' :: (path ++ '"' :: (b₃ ++ ')' :: (b₄ ++ ';' :: r)))) = y at hcall ⊢
  obtain ⟨h₁, h₂, h₃, h₄, h₅, h₆, -⟩ := loose_declaration
  have fails : ∀ {a : RustRule}, Lexemes Loose a → Fails grammar 13 a ("include".toList ++ '!' :: y) →
      Fails grammar 15 a (w ++ ("include".toList ++ '!' :: y)) := fun ha h => fails_alternative _ ha hw h
  have hdeclaration : Reads grammar 15 declarationRule (w ++ ("include".toList ++ '!' :: y)) (b₄ ++ ';' :: r)
      [Scan.Rust.includeSpecifier path] :=
    (fails h₁ rfl).alt_reads ((fails h₂ rfl).alt_reads ((fails h₃ rfl).alt_reads ((fails h₄ rfl).alt_reads
      ((fails h₅ rfl).alt_reads ((fails h₆ rfl).alt_reads (hcall.seq (hend.more (by omega)).absent))))))
  exact .part (Reads.part (p := Part.declaration) hdeclaration).alt

theorem reads_semicolon {b : Text} (hb : Spaces b) (r : Text) : Reads grammar 17 (part .statement) (b ++ ';' :: r) r [] := by
  obtain ⟨h₁, h₂, -⟩ := loose_declaration
  have hsemi : Reads grammar 15 (sign ";") (b ++ ';' :: r) r [] := reads_sign ';' [] (gap_of_spaces hb) rfl rfl r
  have hdeclaration : Reads grammar 15 declarationRule (b ++ ';' :: r) r [] :=
    (fails_alternative (';' :: r) h₁ (gap_of_spaces hb) rfl).alt_reads
      ((fails_alternative (';' :: r) h₂ (gap_of_spaces hb) rfl).alt_reads hsemi.alt)
  exact .part (Reads.part (p := Part.declaration) hdeclaration).alt

/-! ### Sequences of items -/

/-- One item in front of others. -/
theorem reads_written {i : Item} {t : Text} {found : List Text} (h : Written i s) (hw : Gap w)
    (hrest : Reads grammar n (many (part .statement)) r t found) :
    Reads grammar (n + s.length + 17) (many (part .statement)) (w ++ (s ++ r)) t (i.specifiers ++ found) := by
  cases h with
  | @visible _ v s hv hs =>
    have hitem := reads_visible hv hs hw r
    rw [List.append_assoc]
    refine Reads.many (n := n + (v ++ s).length + 16) (hitem.more ?_) (hrest.more (by omega))
    rw [List.length_append]
    omega
  | @included path b₁ b₂ b₃ b₄ hne hpath hb₁ hb₂ hb₃ hb₄ =>
    have hs : "include!".toList ++ (b₁ ++ '(' :: (b₂ ++ '"' :: (path ++ '"' :: (b₃ ++ ')' :: (b₄ ++ [';']))))) ++ r =
        "include".toList ++ ('!' :: (b₁ ++ '(' :: (b₂ ++ '"' :: (path ++ '"' :: (b₃ ++ ')' :: (b₄ ++ ';' :: r)))))) := by
      simp
    have hcall := reads_included hne hpath hb₁ hb₂ hb₃ hb₄ hw r
    have hsemi := (reads_semicolon hb₄ r).more (m := n + 17) (by omega)
    have hboth := (hcall.more (m := n + 18) (by omega)).many (hsemi.many (hrest.more (by omega)))
    rw [hs]
    exact hboth.more (by simp)

theorem written_eq_cons {i : Item} (h : Written i s) :
    ∃ c r, s = c :: r ∧ ['p', 'm', 'u', 'i'].contains c = true ∧ r ≠ [] := by
  cases h with
  | visible hv hs =>
    cases hv with
    | own => cases hs <;> exact ⟨_, _, rfl, rfl, by simp⟩
    | all => exact ⟨_, _, rfl, rfl, by simp⟩
    | crate => exact ⟨_, _, rfl, rfl, by simp⟩
  | included => exact ⟨_, _, rfl, rfl, by simp⟩

theorem reads_source {is : List Item} (h : ImportTrail.Rust.Source is s) (hw : Gap w) :
    ∃ t, Gap t ∧ Reads grammar (16 * (s.length + 1)) (many (part .statement)) (w ++ s) t (is.flatMap Item.specifiers) := by
  have hstop : Fails grammar 15 (part .statement) [] := rfl
  induction h generalizing w with
  | nil =>
    have : Fails grammar 14 statementRule (w ++ []) := fails_gap hw loose_statement rfl
    rw [List.append_nil] at this ⊢
    exact ⟨w, hw, ((Fails.part (p := Part.statement) this).many).more (by omega)⟩
  | @last i s h =>
    obtain ⟨c, r, rfl, -, hne⟩ := written_eq_cons h
    have hlen := List.length_pos_of_ne_nil hne
    have hread := reads_written h hw hstop.many
    rw [List.append_nil] at hread
    simp only [List.flatMap_cons, List.flatMap_nil]
    exact ⟨[], gap_nil, hread.more (by simp only [List.length_cons]; omega)⟩
  | @cons i is s r h hr ih =>
    have hnewline : Gap ['\n'] := by
      intro c hc
      rw [List.mem_singleton.1 hc]
      rfl
    obtain ⟨t, ht, hrest⟩ := ih hnewline
    have hread := reads_written h hw hrest
    rw [List.flatMap_cons]
    refine ⟨t, ht, hread.more ?_⟩
    obtain ⟨c, s, rfl, -, -⟩ := written_eq_cons h
    simp only [List.length_cons, List.length_append]
    omega

/-- **The grammar accepts a sequence of items**, and finds the specifiers of its items. -/
theorem specifiers?_source {is : List Item} (h : ImportTrail.Rust.Source is s) :
    specifiers? s = some (is.flatMap Item.specifiers) := by
  have hfront : afterShebang (dropMark s) = s := by
    have hhead : s = [] ∨ ∃ c r, s = c :: r ∧ ['p', 'm', 'u', 'i'].contains c = true := by
      cases h with
      | nil => exact Or.inl rfl
      | last h =>
        obtain ⟨c, r, rfl, hc, -⟩ := written_eq_cons h
        exact Or.inr ⟨c, r, rfl, hc⟩
      | cons h =>
        obtain ⟨c, r, rfl, hc, -⟩ := written_eq_cons h
        exact Or.inr ⟨c, _, rfl, hc⟩
    rcases hhead with rfl | ⟨c, r, rfl, hc⟩
    · rfl
    · simp only [List.contains_cons, List.contains_nil, Bool.or_false, Bool.or_eq_true, beq_iff_eq] at hc
      rcases hc with rfl | rfl | rfl | rfl <;> rfl
  obtain ⟨t, ht, hread⟩ := reads_source h gap_nil
  have hgap : afterGap? t = some [] := by
    have := afterGap?_append ht []
    rw [List.append_nil] at this
    exact this
  have hend : Reads grammar (16 * (s.length + 1)) endOfText t [] [] :=
    (Reads.step (n := 0) (by rw [hgap]; rfl)).more (by omega)
  have hsource := hread.seq hend
  rw [List.append_nil] at hsource
  rw [specifiers?, hfront, depth]
  exact congrArg Outcome.found? hsource

end ImportTrail.Grammar.Rust
