import ImportTrail.Proofs.Grammar.Run
import ImportTrail.Proofs.Python.Statements

/-!
What Python's grammar reads of import statements.

* `reads_lexeme`, `EndsLine.fails` — a lexeme behind layout, and the end of a line where a statement may end;
* `reads_entries` — entries with commas between, bare or in parentheses;
* `reads_written` — a statement is read up to the end of its line;
* `fails_simpleStatement`, `fails_compoundStatement` — where a statement begins with none of its words, it is not read;
* `fails_end` — so it is at the end of the text, lexeme by lexeme;
* `fails_future` — nothing is read of a `from` whose module begins with `__future__`;
* `specifiers?_source` — the grammar accepts exactly the sequences of statements without one of these and without a NUL.
-/

namespace ImportTrail.Grammar.Python

open Text Rule UseTree ImportTrail.Python

variable {w s r x e : Text} {c : Char} {n : Nat} {inside : Bool} {es : List Enclosure} {now next : Expectation}

/-! ### Gaps -/

/-- A character that a lexeme can begin with. -/
def opensLexeme (c : Char) : Bool := !isLineBlank c && !isThinBlank c && c != '\n' && c != '#' && c != '\\'

theorem opensLexeme_of_isNameChar (h : isNameChar c = true) : opensLexeme c = true := by
  have hne : ∀ d, isNameChar d = false → c ≠ d := by
    rintro d hd rfl
    rw [h] at hd
    cases hd
  have hsmall := toNat_of_isNameChar h
  have hlarge : ∀ d : Char, 123 ≤ d.toNat → c ≠ d := by
    rintro d hd rfl
    omega
  have h₁ := hlarge '\u200b' (by decide)
  have h₂ := hlarge '\u2060' (by decide)
  have h₃ := hlarge '\ufeff' (by decide)
  simp [opensLexeme, isLineBlank, isThinBlank, hne ' ' rfl, hne '\t' rfl, hne '\r' rfl, hne '\x0c' rfl, hne '\x0b' rfl,
    hne '\n' rfl, hne '#' rfl, hne '\\' rfl, h₁, h₂, h₃]

theorem gapFrom_cons (hc : opensLexeme c = true) (ends : Bool) (indent : ℕ) (s : Text) :
    gapFrom false ends indent (c :: s) = ⟨c :: s, ends, indent⟩ := by
  simp only [opensLexeme, isLineBlank, Bool.and_eq_true, Bool.not_eq_true', Bool.or_eq_false_iff, bne_iff_ne, ne_eq,
    beq_eq_false_iff_ne] at hc
  rw [gapFrom.eq_def]
  simp [hc]

theorem gapFrom_blank (hc : isLineBlank c = true) (ends : Bool) (indent : ℕ) (s : Text) :
    ∃ i, gapFrom false ends indent (c :: s) = gapFrom false ends i s := by
  simp only [isLineBlank, Bool.or_eq_true, beq_iff_eq] at hc
  rcases hc with ((rfl | rfl) | rfl) | rfl <;> exact ⟨_, by rw [gapFrom.eq_def]; rfl⟩

/-- A comment goes up to the end of its line, or of the text. -/
theorem gapFrom_comment (hx : '\n' ∉ x) (ends : Bool) (indent : ℕ) (s : Text) :
    gapFrom true ends indent (x ++ '\n' :: s) = gapFrom false true 0 s ∧ gapFrom true ends indent x = ⟨[], true, 0⟩ := by
  induction x with
  | nil => exact ⟨by rw [List.nil_append, gapFrom.eq_def]; rfl, rfl⟩
  | cons d x ih =>
    rw [List.mem_cons, not_or] at hx
    have ih := ih hx.2
    rw [List.cons_append, gapFrom.eq_def, gapFrom.eq_def true ends indent (d :: x)]
    simpa [Ne.symm hx.1] using ih

theorem gapFrom_layout (hw : Layout inside w) (ends : Bool) (indent : ℕ) (s : Text) :
    ∃ b i, gapFrom false ends indent (w ++ s) = gapFrom false b i s ∧ (inside = false → b = ends) := by
  induction hw generalizing ends indent with
  | nil => exact ⟨ends, indent, rfl, fun _ => rfl⟩
  | @blank _ c w hc _ ih =>
    obtain ⟨i, hi⟩ := gapFrom_blank hc ends indent (w ++ s)
    rw [List.cons_append, hi]
    exact ih ends i
  | @line w _ ih =>
    obtain ⟨b, i, hi, -⟩ := ih true 0
    refine ⟨b, i, ?_, by simp⟩
    rw [List.cons_append, ← hi, gapFrom.eq_def]
    simp
  | @comment x w hx _ ih =>
    obtain ⟨b, i, hi, -⟩ := ih true 0
    refine ⟨b, i, ?_, by simp⟩
    rw [List.cons_append, List.append_assoc, List.cons_append, ← hi, ← (gapFrom_comment hx ends indent (w ++ s)).1]
    rw [gapFrom.eq_def]
    simp [isThinBlank]

theorem gap_layout (hw : Layout inside w) (hc : opensLexeme c = true) (s : Text) :
    ∃ b i, gap (w ++ c :: s) = ⟨c :: s, b, i⟩ ∧ (inside = false → b = false) := by
  obtain ⟨b, i, hi, hb⟩ := gapFrom_layout hw false 0 (c :: s)
  exact ⟨b, i, by rw [gap, hi, gapFrom_cons hc], hb⟩

theorem gapFrom_endsLine (comment : Bool) (indent : ℕ) (s : Text) : (gapFrom comment true indent s).endsLine = true := by
  generalize hends : true = ends
  fun_induction gapFrom comment ends indent s <;> simp_all

/-- The rest of a line, up to its end or to the end of the text. -/
def EndsLine (r : Text) : Prop := ∃ e t, r = e ++ t ∧ Trailing e ∧ (t = [] ∨ ∃ u, t = '\n' :: u)

theorem gapFrom_trailing (he : Trailing e) (ends : Bool) (indent : ℕ) (t : Text) :
    gapFrom false ends indent e = ⟨[], true, 0⟩ ∧
      ∃ b i, gapFrom false ends indent (e ++ '\n' :: t) = gapFrom false b i ('\n' :: t) := by
  cases he with
  | blanks hb =>
    obtain ⟨b, i, hi, -⟩ := gapFrom_layout hb ends indent []
    obtain ⟨b', i', hi', -⟩ := gapFrom_layout hb ends indent ('\n' :: t)
    rw [List.append_nil] at hi
    exact ⟨by rw [hi, gapFrom], b', i', hi'⟩
  | @comment b x hb hx =>
    obtain ⟨b', i, hi, -⟩ := gapFrom_layout hb ends indent ('#' :: x)
    obtain ⟨b'', i', hi', -⟩ := gapFrom_layout hb ends indent ('#' :: x ++ '\n' :: t)
    have hline : gapFrom false true 0 t = gapFrom false true 0 ('\n' :: t) := by
      rw [gapFrom.eq_def false true 0 ('\n' :: t)]
      rfl
    refine ⟨?_, true, 0, ?_⟩
    · rw [hi, gapFrom.eq_def]
      exact (gapFrom_comment hx b' i []).2
    · rw [List.append_assoc, hi', ← hline, ← (gapFrom_comment hx b'' i' t).1, List.cons_append, gapFrom.eq_def]
      rfl

theorem EndsLine.gap (h : EndsLine r) : (gap r).endsLine = true := by
  obtain ⟨e, t, rfl, he, rfl | ⟨u, rfl⟩⟩ := h
  · rw [List.append_nil, Python.gap, (gapFrom_trailing he false 0 []).1]
  · obtain ⟨b, i, hi⟩ := (gapFrom_trailing he false 0 u).2
    rw [Python.gap, hi, gapFrom.eq_def]
    exact gapFrom_endsLine false 0 u

theorem EndsLine.head (h : EndsLine r) : ∀ d ∈ r.head?, isLineBlank d = true ∨ d = '#' ∨ d = '\n' := by
  obtain ⟨e, t, rfl, he, ht⟩ := h
  have hfirst : ∀ {b u : Text}, Layout false b → (∀ d ∈ u.head?, isLineBlank d = true ∨ d = '#' ∨ d = '\n') →
      ∀ d ∈ (b ++ u).head?, isLineBlank d = true ∨ d = '#' ∨ d = '\n' := by
    intro b u hb hu
    cases b with
    | nil => exact hu
    | cons a b =>
      intro d hd
      obtain rfl : a = d := by simpa using hd
      exact Or.inl (hb.lineBlanks a List.mem_cons_self)
  cases he with
  | blanks hb =>
    refine hfirst hb ?_
    rcases ht with rfl | ⟨u, rfl⟩ <;> simp
  | comment hb hx =>
    rw [List.append_assoc]
    exact hfirst hb (by simp)

/-! ### Lexemes -/

/-- A place outside of all blocks. -/
def place (es : List Enclosure) (now : Expectation) (s : Text) : Cursor := ⟨s, [], es, now⟩

/-- An end of line is a blank here. -/
def Open (es : List Enclosure) (now : Expectation) : Prop := ∀ s g, (place es now s).admits g = true

theorem open_statement : Open es .statement := by simp [Open, Cursor.admits, Cursor.margin, place]

theorem open_more : Open es .more := by simp [Open, Cursor.admits, Cursor.margin, place]

theorem open_bracket : Open (.bracket :: es) .nothing := by simp [Open, Cursor.admits, place]

/-- Layout that may stand in front of the next lexeme. -/
def Fits (es : List Enclosure) (now : Expectation) (w : Text) : Prop :=
  ∃ inside, Layout inside w ∧ (inside = true → Open es now)

theorem fits_nil : Fits es now [] := ⟨false, .nil, by simp⟩

theorem fits_space : Fits es now [' '] := ⟨false, .blank rfl .nil, by simp⟩

theorem fits_open (hw : Layout inside w) (h : Open es now) : Fits es now w := ⟨inside, hw, fun _ => h⟩

theorem take_fits (read : Text → Option Text) (next : Expectation) (hw : Fits es now w) (hc : opensLexeme c = true) (s : Text) :
    Cursor.take read next (place es now (w ++ c :: s)) = (read (c :: s)).map (place es next) := by
  obtain ⟨inside, hw, hopen⟩ := hw
  obtain ⟨b, i, hgap, hb⟩ := gap_layout hw hc s
  have hadmits : (place es now (w ++ c :: s)).admits ⟨c :: s, b, i⟩ = true := by
    cases inside with
    | true => exact hopen rfl _ _
    | false => simp [Cursor.admits, hb rfl]
  rw [Cursor.take, show (place es now (w ++ c :: s)).rest = w ++ c :: s from rfl, hgap]
  simp only [hadmits, if_true]
  rfl

theorem reads_lexeme {read : Text → Option Text} (hw : Fits es now w) (hc : opensLexeme c = true)
    (h : read (c :: s) = some r) :
    Reads grammar (n + 1) (step (Cursor.take read next)) (place es now (w ++ c :: s)) (place es next r) [] := by
  refine Reads.step ?_
  rw [take_fits read next hw hc, h, Option.map_some]

theorem fails_lexeme {read : Text → Option Text} (hw : Fits es now w) (hc : opensLexeme c = true)
    (h : read (c :: s) = none) :
    Fails grammar (n + 1) (step (Cursor.take read next)) (place es now (w ++ c :: s)) := by
  refine Fails.step ?_
  rw [take_fits read next hw hc, h, Option.map_none]

/-- Nothing is read over the end of a line where the statement may end. -/
theorem EndsLine.fails (h : EndsLine r) (read : Text → Option Text) :
    Fails grammar (n + 1) (step (Cursor.take read next)) (place [] .nothing r) := by
  refine Fails.step ?_
  have hgap := h.gap
  simp [Cursor.take, place, Cursor.admits, hgap]

/-! ### Words and signs -/

/-- A word ends in front of this text. -/
def EndsWord (r : Text) : Prop := ∀ d ∈ r.head?, isIdentRest d = false

theorem endsWord_cons (h : isIdentRest c = false) (s : Text) : EndsWord (c :: s) := by
  intro d hd
  obtain rfl : c = d := by simpa using hd
  exact h

theorem isIdentRest_of_isLineBlank (h : isLineBlank c = true) : isIdentRest c = false := by
  simp only [isLineBlank, Bool.or_eq_true, beq_iff_eq] at h
  rcases h with ((rfl | rfl) | rfl) | rfl <;> rfl

theorem EndsLine.endsWord (h : EndsLine r) : EndsWord r := by
  intro d hd
  rcases h.head d hd with hd | rfl | rfl
  · exact isIdentRest_of_isLineBlank hd
  · rfl
  · rfl

theorem endsWord_layout (hw : Layout inside w) (hs : w = [] → EndsWord s) : EndsWord (w ++ s) := by
  cases hw with
  | nil => exact hs rfl
  | blank hc _ => exact endsWord_cons (isIdentRest_of_isLineBlank hc) _
  | line _ => exact endsWord_cons rfl _
  | comment _ _ => exact endsWord_cons rfl _

theorem word?_name (x : Name) (hr : EndsWord r) : word? (x.text ++ r) = some (x.text, r) := by
  obtain ⟨c, s, hs, hc, hdigit, hrest⟩ := x.exists_cons
  have hstart : isIdentStart c = true := by
    simp only [isNameChar, hdigit, Bool.or_false] at hc
    simp [isIdentStart, hc]
  have hall : ∀ d ∈ s, isIdentRest d = true := by
    intro d hd
    have := hrest d hd
    rw [isNameChar] at this
    rw [isIdentRest, this, Bool.true_or]
  have hstop : r.takeWhile isIdentRest = [] ∧ r.dropWhile isIdentRest = r := by
    cases r with
    | nil => exact ⟨rfl, rfl⟩
    | cons d r => simp [hr d rfl]
  rw [hs, List.cons_append, word?, if_pos hstart, List.takeWhile_append_of_pos hall, List.dropWhile_append_of_pos hall,
    hstop.1, hstop.2, List.append_nil]

theorem reads_word {p : Text → Bool} (x : Name) (hw : Fits es now w) (hr : EndsWord r) (hp : p x.text = true) :
    Reads grammar (n + 1) (step (Cursor.take (afterWord? p) next)) (place es now (w ++ (x.text ++ r))) (place es next r) [] := by
  have hword : afterWord? p (x.text ++ r) = some r := by rw [afterWord?, word?_name x hr]; simp [hp]
  obtain ⟨c, s, hs, hc, -⟩ := x.exists_cons
  rw [hs] at hword ⊢
  exact reads_lexeme hw (opensLexeme_of_isNameChar hc) hword

theorem fails_word {p : Text → Bool} (x : Name) (hw : Fits es now w) (hr : EndsWord r) (hp : p x.text = false) :
    Fails grammar (n + 1) (step (Cursor.take (afterWord? p) next)) (place es now (w ++ (x.text ++ r))) := by
  have hword : afterWord? p (x.text ++ r) = none := by rw [afterWord?, word?_name x hr]; simp [hp]
  obtain ⟨c, s, hs, hc, -⟩ := x.exists_cons
  rw [hs] at hword ⊢
  exact fails_lexeme hw (opensLexeme_of_isNameChar hc) hword

theorem afterWord?_eq_none {p : Text → Bool} (hc : isIdentStart c = false) (s : Text) : afterWord? p (c :: s) = none := by
  simp [afterWord?, word?, hc]

theorem afterSign?_eq_none {d : Char} (h : d ≠ c) (p s : Text) : afterSign? (d :: p) (c :: s) = none := by
  simp [afterSign?, after?, h]

theorem afterSign?_star (h : EndsLine r) : afterSign? ['*'] ('*' :: r) = some r := by
  cases r with
  | nil => rfl
  | cons d r =>
    have hd := h.head d rfl
    simp only [isLineBlank, Bool.or_eq_true, beq_iff_eq] at hd
    rcases hd with (((rfl | rfl) | rfl) | rfl) | rfl | rfl <;> rfl

/-! ### Dotted names -/

theorem endsWord_dottedTail {names : List Name} (hr : EndsWord r) : EndsWord (dottedTail names ++ r) := by
  cases names with
  | nil => exact hr
  | cons y names => exact endsWord_cons rfl _

theorem reads_dottedTail {names : List Name} (hr : EndsWord r)
    (hstop : Fails grammar 1 (seq (sign ".") name) (place es .nothing r)) :
    Reads grammar (names.length + 1) (many (seq (sign ".") name)) (place es .nothing (dottedTail names ++ r))
      (place es .nothing r) [] := by
  induction names with
  | nil => exact hstop.many
  | cons y names ih =>
    have hdot : Reads grammar (names.length + 2) (sign ".") (place es .nothing (dottedTail (y :: names) ++ r))
        (place es .more (y.text ++ (dottedTail names ++ r))) [] := by
      rw [dottedTail_cons, List.cons_append, List.append_assoc]
      exact reads_lexeme (w := []) fits_nil rfl rfl
    have hname : Reads grammar (names.length + 2) name (place es .more (y.text ++ (dottedTail names ++ r)))
        (place es .nothing (dottedTail names ++ r)) [] :=
      reads_word (w := []) y fits_nil (endsWord_dottedTail hr) rfl
    exact (hdot.seq hname).many ih

/-- A dotted name that does not begin with one of the given words. -/
theorem reads_dotted (d : Dotted) {words : List Text} (hfirst : d.first.text ∉ words) (hw : Fits es now w) (hr : EndsWord r)
    (hstop : Fails grammar 1 (seq (sign ".") name) (place es .nothing r)) :
    Reads grammar (d.rest.length + 1) (seq (nameExcept words) (many (seq (sign ".") name)))
      (place es now (w ++ (d.text ++ r))) (place es .nothing r) [] := by
  have hname : Reads grammar (d.rest.length + 1) (nameExcept words)
      (place es now (w ++ (d.first.text ++ (dottedTail d.rest ++ r)))) (place es .nothing (dottedTail d.rest ++ r)) [] :=
    reads_word d.first hw (endsWord_dottedTail hr) (by simpa using hfirst)
  rw [Dotted.text, List.append_assoc]
  exact hname.seq (reads_dottedTail hr hstop)

theorem length_rest_lt (d : Dotted) : d.rest.length < d.text.length := by
  have hfirst := List.length_pos_of_ne_nil d.first.ne_nil
  have htail : ∀ names : List Name, names.length ≤ (dottedTail names).length := by
    intro names
    induction names with
    | nil => simp
    | cons y names ih =>
      simp only [dottedTail_cons, List.length_cons, List.length_append]
      omega
  have := htail d.rest
  rw [Dotted.text, List.length_append]
  omega

theorem textTo_fits {es' : List Enclosure} {then' : Expectation} (hw : Fits es now w) (hc : opensLexeme c = true)
    (s r : Text) : (place es now (w ++ (c :: s ++ r))).textTo (place es' then' r) = c :: s := by
  obtain ⟨inside, hw, -⟩ := hw
  obtain ⟨b, i, hgap, -⟩ := gap_layout hw hc (s ++ r)
  have hrest : (place es now (w ++ (c :: s ++ r))).rest = w ++ c :: (s ++ r) := rfl
  rw [Cursor.textTo, hrest, hgap]
  change (c :: s ++ r).take ((c :: s ++ r).length - r.length) = c :: s
  rw [List.length_append, Nat.add_sub_cancel]
  exact List.take_left

/-- The text of a rule is what it has read behind the layout. -/
theorem reads_text {a : PythonRule} {es' : List Enclosure} {then' : Expectation} {found : List Text} (hw : Fits es now w)
    (hx : ∃ c s, x = c :: s ∧ opensLexeme c = true)
    (h : Reads grammar n a (place es now (w ++ (x ++ r))) (place es' then' r) found) :
    Reads grammar n (reportText a) (place es now (w ++ (x ++ r))) (place es' then' r) [x] := by
  obtain ⟨c, s, rfl, hc⟩ := hx
  have hreport := h.report fun c d _ => [c.textTo d]
  rw [textTo_fits hw hc] at hreport
  exact hreport

theorem opens_dotted (d : Dotted) : ∃ c s, d.text = c :: s ∧ opensLexeme c = true := by
  obtain ⟨c, s, hs, hc, -⟩ := d.exists_cons
  exact ⟨c, s, hs, opensLexeme_of_isNameChar hc⟩

/-! ### Entries -/

/-- The enclosures of entries, which stand in parentheses or not. -/
def around (inside : Bool) : List Enclosure := if inside then [.bracket] else []

theorem fits_around (hw : Layout inside w) : Fits (around inside) .nothing w := by
  refine ⟨inside, hw, ?_⟩
  rintro rfl
  exact open_bracket

/-- What stands behind an entry: a comma, a closing parenthesis, or the end of the line. -/
def Boundary (inside : Bool) (r : Text) : Prop :=
  (∃ w c s, r = w ++ c :: s ∧ Layout inside w ∧ (c = ',' ∨ c = ')')) ∨ inside = false ∧ EndsLine r

theorem Boundary.endsWord (h : Boundary inside r) : EndsWord r := by
  rcases h with ⟨w, c, s, rfl, hw, hc⟩ | ⟨-, h⟩
  · refine endsWord_layout hw fun _ => ?_
    rcases hc with rfl | rfl <;> exact endsWord_cons rfl _
  · exact h.endsWord

theorem Boundary.fails {read : Text → Option Text} (h : Boundary inside r)
    (hread : ∀ c s, c = ',' ∨ c = ')' → read (c :: s) = none) :
    Fails grammar (n + 1) (step (Cursor.take read next)) (place (around inside) .nothing r) := by
  rcases h with ⟨w, c, s, rfl, hw, hc⟩ | ⟨rfl, h⟩
  · refine fails_lexeme (fits_around hw) ?_ (hread c s hc)
    rcases hc with rfl | rfl <;> rfl
  · exact h.fails read

theorem Boundary.fails_dot (h : Boundary inside r) : Fails grammar (n + 1) (sign ".") (place (around inside) .nothing r) := by
  refine h.fails fun c s hc => ?_
  rcases hc with rfl | rfl <;> exact afterSign?_eq_none (by decide) [] s

theorem Boundary.fails_as (h : Boundary inside r) : Fails grammar (n + 1) (keyword "as") (place (around inside) .nothing r) := by
  refine h.fails fun c s hc => ?_
  rcases hc with rfl | rfl <;> exact afterWord?_eq_none rfl s

/-- An imported name, possibly under another name. -/
def entryRule : PythonRule := seq (reportText dottedName) (opt (seq (keyword "as") name))

theorem reads_entry {x : ImportEntry} (h : EntryIn (Layout inside) x s) (hw : Fits (around inside) now w) (hr : Boundary inside r) :
    Reads grammar (s.length + 1) entryRule (place (around inside) now (w ++ (s ++ r))) (place (around inside) .nothing r)
      [x.name.text] := by
  cases h with
  | plain d =>
    have hlen := length_rest_lt d
    have hname := reads_dotted d List.not_mem_nil hw hr.endsWord hr.fails_dot.seq
    have htext := reads_text hw (opens_dotted d) (hname.more (m := d.text.length + 1) (by omega))
    exact htext.seq hr.fails_as.seq.opt
  | @renamed d y w₁ w₂ hw₁ hne₁ hw₂ hne₂ =>
    have hlen := length_rest_lt d
    have hdot : Fails grammar 1 (sign ".") (place (around inside) .nothing (w₁ ++ ("as".toList ++ (w₂ ++ (y.text ++ r))))) :=
      fails_lexeme (fits_around hw₁) rfl (afterSign?_eq_none (by decide) [] _)
    have hname := reads_dotted d List.not_mem_nil hw (endsWord_layout hw₁ fun h => absurd h hne₁) hdot.seq
    have htext := reads_text hw (opens_dotted d) (hname.more (m := d.text.length + 1) (by omega))
    have has : Reads grammar (d.text.length + 1) (keyword "as") _ _ [] :=
      reads_word ⟨"as".toList, rfl⟩ (fits_around hw₁) (endsWord_layout (s := y.text ++ r) hw₂ fun h => absurd h hne₂) rfl
    have halias : Reads grammar (d.text.length + 1) name (place (around inside) .more (w₂ ++ (y.text ++ r)))
        (place (around inside) .nothing r) [] := reads_word y (fits_open hw₂ open_more) hr.endsWord rfl
    have hentry : Reads grammar _ entryRule _ _ _ := htext.seq (has.seq halias).opt
    simpa using hentry.more (m := (d.text ++ (w₁ ++ ("as".toList ++ (w₂ ++ y.text)))).length + 1) (by simp)

/-- Entries are read one after the other. Another round of the repetition takes depth, and the comma in front of it pays
for that. -/
theorem reads_entries {xs : List ImportEntry} (h : EntriesIn (Layout inside) xs s) (hw : Fits (around inside) now w)
    (hr : Boundary inside r) (hstop : Fails grammar 1 (seq comma entryRule) (place (around inside) .nothing r)) :
    ∃ m y ys, y ++ ys = xs.map (fun x => x.name.text) ∧
      Reads grammar (s.length + 1) entryRule (place (around inside) now (w ++ (s ++ r))) (place (around inside) .nothing m) y ∧
      Reads grammar (s.length + 1) (many (seq comma entryRule)) (place (around inside) .nothing m)
        (place (around inside) .nothing r) ys := by
  induction h generalizing w now with
  | @one x s h =>
    exact ⟨r, [x.name.text], [], rfl, reads_entry h hw hr, hstop.many.more (by omega)⟩
  | @cons x xs s w₁ w₂ r' h hw₁ hw₂ _ ih =>
    obtain ⟨m, y, ys, hxs, hfirst, hmany⟩ := ih (fits_around hw₂)
    have hentry := reads_entry h hw (r := w₁ ++ ',' :: (w₂ ++ (r' ++ r))) (.inl ⟨w₁, ',', _, rfl, hw₁, .inl rfl⟩)
    have hcomma : Reads grammar (r'.length + 2) comma (place (around inside) .nothing (w₁ ++ ',' :: (w₂ ++ (r' ++ r))))
        (place (around inside) .nothing (w₂ ++ (r' ++ r))) [] := reads_lexeme (fits_around hw₁) rfl rfl
    have hround := (hcomma.seq (hfirst.more (by omega))).many hmany
    refine ⟨w₁ ++ ',' :: (w₂ ++ (r' ++ r)), [x.name.text], y ++ ys, by rw [hxs]; rfl, ?_, hround.more ?_⟩
    · simpa using hentry.more (m := (s ++ (w₁ ++ ',' :: (w₂ ++ r'))).length + 1) (by simp)
    · simp only [List.length_append, List.length_cons]
      omega

/-- Entries up to the end of a line. -/
theorem reads_bareList {xs : List ImportEntry} (h : EntriesIn (Layout false) xs s) (hr : EndsLine r) :
    Reads grammar (s.length + 1) importList (place [] .more (' ' :: (s ++ r))) (place [] .nothing r)
      (xs.map fun x => x.name.text) := by
  have hcomma : ∀ {n}, Fails grammar (n + 1) comma (place [] .nothing r) := hr.fails _
  obtain ⟨m, y, ys, hxs, hfirst, hmany⟩ := reads_entries h (fits_space : Fits [] .more [' ']) (.inr ⟨rfl, hr⟩)
    hcomma.seq
  have hlist := (hfirst.seq hmany).seq hcomma.opt
  rw [List.append_nil, hxs] at hlist
  exact hlist

/-- No entry begins with a closing parenthesis. -/
theorem fails_entry (hw : Layout true w) (r : Text) :
    Fails grammar (n + 1) entryRule (place [.bracket] .nothing (w ++ ')' :: r)) := by
  have hname : Fails grammar (n + 1) name (place [.bracket] .nothing (w ++ ')' :: r)) :=
    fails_lexeme (fits_open hw open_bracket) rfl (afterWord?_eq_none rfl r)
  exact (hname.seq.report _).seq

/-- Entries in parentheses. -/
theorem reads_enclosedList {xs : List ImportEntry} (hw : Layout true w) (h : EntriesIn (Layout true) xs s)
    (he : Ending (Layout true) e) (r : Text) :
    Reads grammar (s.length + 1) (bracketed "(" importList ")")
      (place [] .more (' ' :: '(' :: (w ++ (s ++ (e ++ ')' :: r))))) (place [] .nothing r) (xs.map fun x => x.name.text) := by
  -- behind the entries stands a comma or not, and no other entry follows
  have hbehind : ∃ b, Layout true b ∧ Boundary true (e ++ ')' :: r) ∧
      Fails grammar 1 (seq comma entryRule) (place [.bracket] .nothing (e ++ ')' :: r)) ∧
      Reads grammar 1 (opt comma) (place [.bracket] .nothing (e ++ ')' :: r)) (place [.bracket] .nothing (b ++ ')' :: r)) [] := by
    cases he with
    | blank hb =>
      have hcomma : Fails grammar 1 comma (place [.bracket] .nothing (e ++ ')' :: r)) :=
        fails_lexeme (fits_open hb open_bracket) rfl (afterSign?_eq_none (by decide) [] r)
      exact ⟨e, hb, .inl ⟨e, ')', r, rfl, hb, .inr rfl⟩, hcomma.seq, hcomma.opt⟩
    | @comma b b' hb hb' =>
      have hcomma : Reads grammar 1 comma (place [.bracket] .nothing (b ++ ',' :: (b' ++ ')' :: r)))
          (place [.bracket] .nothing (b' ++ ')' :: r)) [] := reads_lexeme (fits_open hb open_bracket) rfl rfl
      rw [List.append_assoc, List.cons_append]
      exact ⟨b', hb', .inl ⟨b, ',', _, rfl, hb, .inl rfl⟩, hcomma.seq_fails (fails_entry hb' r), hcomma.opt⟩
  obtain ⟨b, hb, hboundary, hstop, hcomma⟩ := hbehind
  obtain ⟨m, y, ys, hxs, hfirst, hmany⟩ := reads_entries h (fits_around hw) hboundary hstop
  have hlist := (hfirst.seq hmany).seq (hcomma.more (by omega))
  have hparen : Reads grammar (s.length + 1) (lastSign "(") (place [] .more (' ' :: '(' :: (w ++ (s ++ (e ++ ')' :: r)))))
      (place [] .nothing (w ++ (s ++ (e ++ ')' :: r)))) [] :=
    reads_lexeme (w := [' ']) fits_space rfl rfl
  have henter : Reads grammar (s.length + 1) (step (Cursor.enter .bracket)) (place [] .nothing (w ++ (s ++ (e ++ ')' :: r))))
      (place [.bracket] .nothing (w ++ (s ++ (e ++ ')' :: r)))) [] := .step rfl
  have hclose : Reads grammar (s.length + 1) (lastSign ")") (place [.bracket] .nothing (b ++ ')' :: r))
      (place [.bracket] .nothing r) [] := reads_lexeme (fits_open hb open_bracket) rfl rfl
  have hleave : Reads grammar (s.length + 1) (step Cursor.leave) (place [.bracket] .nothing r) (place [] .nothing r) [] :=
    .step rfl
  have hall := hparen.seq (henter.seq (hlist.seq (hclose.seq hleave)))
  simp only [List.append_nil, List.nil_append, hxs] at hall
  exact hall

/-! ### Modules -/

theorem reads_dots (level : ℕ) (hw : Fits es now w)
    (hstop : Fails grammar 1 (lastSign ".") (place es .nothing r)) :
    Reads grammar (level + 1) (many1 (lastSign ".")) (place es now (w ++ (dots level ++ r))) (place es .nothing r) [] := by
  have hmany : Reads grammar (level + 1) (many (lastSign ".")) (place es .nothing (List.replicate level '.' ++ r))
      (place es .nothing r) [] := by
    induction level with
    | zero => exact hstop.many
    | succ level ih =>
      have hdot : Reads grammar (level + 2) (lastSign ".") (place es .nothing (List.replicate (level + 1) '.' ++ r))
          (place es .nothing (List.replicate level '.' ++ r)) [] :=
        reads_lexeme (w := []) fits_nil rfl rfl
      exact hdot.many ih
  have hfirst : Reads grammar (level + 1) (lastSign ".") (place es now (w ++ (dots level ++ r)))
      (place es .nothing (List.replicate level '.' ++ r)) [] := reads_lexeme hw rfl rfl
  exact hfirst.seq hmany

theorem fails_dot_dotted (d : Dotted) (hw : Fits es now w) (r : Text) :
    Fails grammar (n + 1) (lastSign ".") (place es now (w ++ (d.text ++ r))) := by
  obtain ⟨c, s, hs, hc, -⟩ := d.exists_cons
  have hne : '.' ≠ c := by
    rintro rfl
    cases hc
  rw [hs]
  exact fails_lexeme hw (opensLexeme_of_isNameChar hc) (afterSign?_eq_none hne [] _)

/-- The word behind a module. -/
def importText (r : Text) : Text := ' ' :: ("import".toList ++ r)

/-- What stands behind the word `from`. -/
def moduleText (o : Origin) (r : Text) : Text := [' '] ++ (o.text ++ importText r)

/-- A module is read up to the word behind it. -/
theorem reads_module (es : List Enclosure) {o : Origin} (ho : o.IsModule) (hfuture : o.isFuture = false) (hr : EndsWord r) :
    Reads grammar (o.text.length + 1) moduleName (place es .more (moduleText o r)) (place es .nothing (importText r)) [] := by
  have hdot : ∀ {n}, Fails grammar (n + 1) (lastSign ".") (place es .nothing (importText r)) :=
    fails_lexeme (w := [' ']) fits_space rfl (afterSign?_eq_none (by decide) [] _)
  have hstop : Fails grammar 1 (seq (sign ".") name) (place es .nothing (importText r)) :=
    Fails.seq (fails_lexeme (w := [' ']) fits_space rfl (afterSign?_eq_none (by decide) [] _))
  have hends : EndsWord (importText r) := endsWord_cons rfl _
  cases o with
  | absolute d =>
    have hlen := length_rest_lt d
    have hfirst : d.first.text ∉ ["__future__".toList] := by
      rw [List.mem_singleton]
      intro h
      rw [Origin.isFuture, h] at hfuture
      cases hfuture
    have hname := reads_dotted d hfirst (fits_space : Fits es .more [' ']) hends hstop
    exact (fails_dot_dotted d fits_space _).seq.seq.alt_reads (hname.more (by simp only [Origin.text]; omega))
  | relative level name? =>
    cases name? with
    | none =>
      have hlen : (Origin.relative level none).text.length = level + 1 := by simp [Origin.text, dots]
      have hdots := reads_dots level (fits_space : Fits es .more [' ']) hdot
      have hword : Fails grammar (level + 1) (nameExcept ["import".toList]) (place es .nothing (importText r)) :=
        fails_word (w := [' ']) ⟨"import".toList, rfl⟩ fits_space hr rfl
      have hmodule : Reads grammar (level + 1) moduleName _ _ _ := (hdots.seq hword.seq.opt).alt
      rw [hlen, moduleText, show (Origin.relative level none).text = dots level from List.append_nil _]
      exact hmodule.more (by omega)
    | some d =>
      have hlen := length_rest_lt d
      have hlen' : (Origin.relative level (some d)).text.length = level + 1 + d.text.length := by simp [Origin.text, dots]
      have hdots := reads_dots level (fits_space : Fits es .more [' '])
        (fails_dot_dotted d fits_nil (importText r))
      have hdotted := reads_dotted d (by simpa using ho d rfl : d.first.text ∉ ["import".toList])
        (fits_nil : Fits es .nothing []) hends hstop
      have hmodule : Reads grammar (level + 1 + d.text.length) moduleName _ _ _ :=
        ((hdots.more (by omega)).seq (hdotted.more (by omega)).opt).alt
      rw [hlen', moduleText, show (Origin.relative level (some d)).text = dots level ++ d.text from rfl, List.append_assoc]
      exact hmodule.more (by omega)

theorem opens_origin (o : Origin) : ∃ c s, o.text = c :: s ∧ opensLexeme c = true := by
  cases o with
  | absolute d => exact opens_dotted d
  | relative level name? => exact ⟨'.', List.replicate level '.' ++ name?.elim [] Dotted.text, rfl, rfl⟩

/-! ### Statements -/

/-- A statement that ends with its line. -/
theorem reads_line {found : List Text} (hr : EndsLine r)
    (h : Reads grammar (n + 1) simpleStatement (place [] .statement s) (place [] .nothing r) found) :
    Reads grammar (n + 2) (part .statement) (.start s) (.start r) found := by
  have hsemicolon : Fails grammar (n + 1) (lastSign ";") (place [] .nothing r) := hr.fails _
  have hend : Reads grammar (n + 1) endOfStatement (place [] .nothing r) (.start r) [] := by
    refine Reads.step ?_
    have hgap := hr.gap
    simp [Cursor.endStatement, place, hgap, Cursor.start]
  have hstatements : Reads grammar (n + 1) simpleStatements _ _ _ := ((h.seq hsemicolon.seq.many).seq hsemicolon.opt).seq hend
  simp only [List.append_nil] at hstatements
  exact .part hstatements.alt

/-- What a `from` imports from its module. -/
def memberRule : PythonRule := any [reportText (lastSign "*"), importNames]

theorem reads_star (hr : EndsLine r) :
    Reads grammar (n + 1) memberRule (place [] .more (' ' :: '*' :: r)) (place [] .nothing r) [['*']] := by
  have hstar : Reads grammar (n + 1) (lastSign "*") (place [] .more ([' '] ++ (['*'] ++ r))) (place [] .nothing r) [] :=
    reads_lexeme (w := [' ']) fits_space rfl (afterSign?_star hr)
  exact (reads_text fits_space ⟨'*', [], rfl, rfl⟩ hstar).alt

theorem reads_bareMembers {xs : List ImportEntry} (h : EntriesIn (Layout false) xs s) (hr : EndsLine r) :
    Reads grammar (s.length + 1) memberRule (place [] .more (' ' :: (s ++ r))) (place [] .nothing r)
      (xs.map fun x => x.name.text) := by
  have hstar : Fails grammar (s.length + 1) (lastSign "*") (place [] .more ([' '] ++ (s ++ r))) := by
    obtain ⟨c, q, rfl, hc⟩ := h.opens
    have hne : '*' ≠ c := by
      rintro rfl
      cases hc
    exact fails_lexeme fits_space (opensLexeme_of_isNameChar hc) (afterSign?_eq_none hne [] _)
  exact (hstar.report _).alt_reads (reads_bareList h hr).alt

theorem reads_enclosedMembers {xs : List ImportEntry} (hw : Layout true w) (h : EntriesIn (Layout true) xs s)
    (he : Ending (Layout true) e) (r : Text) :
    Reads grammar (s.length + 1) memberRule (place [] .more (' ' :: '(' :: (w ++ (s ++ (e ++ ')' :: r)))))
      (place [] .nothing r) (xs.map fun x => x.name.text) := by
  have hlist := reads_enclosedList hw h he r
  generalize w ++ (s ++ (e ++ ')' :: r)) = u at hlist ⊢
  have hstar : Fails grammar (s.length + 1) (lastSign "*") (place [] .more ([' '] ++ '(' :: u)) :=
    fails_lexeme fits_space rfl (afterSign?_eq_none (by decide) [] u)
  have hname : Fails grammar (s.length + 1) name (place [] .more ([' '] ++ '(' :: u)) :=
    fails_lexeme fits_space rfl (afterWord?_eq_none rfl u)
  have hbare : Fails grammar (s.length + 1) importList (place [] .more ([' '] ++ '(' :: u)) := (hname.seq.report _).seq.seq.seq
  exact (hstar.report _).alt_reads (hbare.alt_reads hlist)

/-- A `from` is read as its module and as what it imports from it. -/
theorem reads_fromImport {t : Cursor} {found : List Text} {o : Origin} (ho : o.IsModule) (hfuture : o.isFuture = false)
    (hw : Layout true w) (hr : EndsWord r) (hn : o.text.length ≤ n)
    (h : Reads grammar (n + 1) memberRule (place [] .more r) t found) :
    Reads grammar (n + 1) simpleStatement
      (place [] .statement (w ++ ("from".toList ++ moduleText o r))) t (Scan.Python.fromSpecifiers o.text found) := by
  have hfrom : Reads grammar (n + 1) (keyword "from") _ (place [] .more (moduleText o r)) [] :=
    reads_word ⟨"from".toList, rfl⟩ (fits_open hw open_statement) (endsWord_cons rfl _) rfl
  have henter : Reads grammar (n + 1) (step (Cursor.enter .phrase)) (place [] .more (moduleText o r))
      (place [.phrase] .more (moduleText o r)) [] := .step rfl
  have himport : Fails grammar (n + 1) (keyword "import") (place [] .statement (w ++ ("from".toList ++ moduleText o r))) :=
    fails_word ⟨"from".toList, rfl⟩ (fits_open hw open_statement) (endsWord_cons rfl _) rfl
  -- the module is not a switch of the language
  have hword : Fails grammar (n + 1) (keyword "__future__") (place [.phrase] .more (moduleText o r)) := by
    cases o with
    | absolute d =>
      rw [moduleText, show (Origin.absolute d).text = d.first.text ++ dottedTail d.rest from rfl, List.append_assoc]
      exact fails_word (w := [' ']) d.first fits_space (endsWord_dottedTail (endsWord_cons rfl _)) hfuture
    | relative level name? => exact fails_lexeme (w := [' ']) fits_space rfl (afterWord?_eq_none rfl _)
  have hswitch : Fails grammar (n + 1) futureImport _ := (hfrom.seq_fails (henter.seq_fails hword.seq.seq).seq).report _
  -- it is a module
  have hmodule := reads_text fits_space (opens_origin o)
    ((reads_module [.phrase] ho hfuture hr).more (m := n + 1) (by omega))
  have hword : Reads grammar (n + 1) (keyword "import") (place [.phrase] .nothing (importText r)) (place [.phrase] .more r) [] :=
    reads_word (w := [' ']) ⟨"import".toList, rfl⟩ fits_space hr rfl
  have hleave : Reads grammar (n + 1) (step Cursor.leave) (place [.phrase] .more r) (place [] .more r) [] := .step rfl
  have hphrase := henter.seq ((hmodule.seq hword).seq hleave)
  have hread : Reads grammar (n + 1) fromImport _ _ _ := (hfrom.seq (hphrase.seq h)).report fun _ _ => fromFound
  exact himport.seq.alt_reads (hswitch.alt_reads hread.alt)

theorem reads_written {x : Statement} (h : Written x s) (hx : x.isFuture = false) (hw : Layout true w) (hr : EndsLine r) :
    Reads grammar (s.length + 2) (part .statement) (.start (w ++ (s ++ r))) (.start r) x.specifiers := by
  cases h with
  | @modules xs s h =>
    have hlist := reads_bareList h hr
    have himport : Reads grammar (s.length + 1) (keyword "import") (place [] .statement (w ++ ("import ".toList ++ s ++ r)))
        (place [] .more (' ' :: (s ++ r))) [] :=
      reads_word ⟨"import".toList, rfl⟩ (fits_open hw open_statement) (endsWord_cons rfl _) rfl
    exact (reads_line hr (himport.seq hlist).alt).more (by simp)
  | everything m =>
    have hline := reads_line hr (reads_fromImport m.isModule hx hw (endsWord_cons rfl _) le_rfl (reads_star hr))
    rw [show (Statement.everything m).specifiers = _ from m.origin.fromSpecifiers_star.symm]
    simpa [moduleText, importText, Module.text] using hline.more (m := _ + 2) (by simp)
  | @bare m xs s h =>
    have hlist := (reads_bareMembers h hr).more (m := m.text.length + s.length + 1) (by omega)
    have hline := reads_line hr (reads_fromImport m.isModule hx hw (endsWord_cons rfl _) (Nat.le_add_right ..) hlist)
    rw [show (Statement.members m xs).specifiers = _ from (m.origin.fromSpecifiers_entries h.ne_nil).symm]
    simpa [moduleText, importText, Module.text] using hline.more (m := _ + 2) (by simp; omega)
  | @enclosed m xs w' s e hw' h he =>
    have hlist := (reads_enclosedMembers hw' h he r).more (m := m.text.length + s.length + 1) (by omega)
    have hline := reads_line hr (reads_fromImport m.isModule hx hw (endsWord_cons rfl _) (Nat.le_add_right ..) hlist)
    rw [show (Statement.members m xs).specifiers = _ from (m.origin.fromSpecifiers_entries h.ne_nil).symm]
    simpa [moduleText, importText, Module.text] using hline.more (m := _ + 2) (by simp; omega)

/-! ### Where no statement is read -/

section

variable {t : Cursor}

/-- No word is read here as a keyword, other than `from`. -/
def NoKeyword (n : ℕ) (t : Cursor) : Prop := ∀ {k : String} {next : Expectation}, ("from".toList == k.toList) = false →
  Fails grammar (n + 1) (step (Cursor.take (afterWord? (· == k.toList)) next)) t

/-- A simple statement begins with a keyword or with what is assigned. -/
theorem fails_simpleStatement (hword : NoKeyword n t) (hfuture : Fails grammar (n + 1) futureImport t)
    (hfrom : Fails grammar (n + 1) fromImport t) (hassigned : Fails grammar (n + 1) (seq (absent statementWord) assigned) t) :
    Fails grammar (n + 1) simpleStatement t := by
  have hscope : Fails grammar (n + 1) (any [keyword "global", keyword "nonlocal"]) t := (hword rfl).alt (hword rfl)
  refine Fails.any ?_
  simp only [List.forall_mem_cons]
  exact ⟨(hword rfl).seq, hfuture, hfrom, (hword rfl).seq, (hword rfl).seq, (hword rfl).seq, (hword rfl).seq,
    (hword rfl).seq, hword rfl, hword rfl, hword rfl, hscope.seq, (hword rfl).seq, (hword rfl).seq, hassigned, by simp⟩

/-- A compound statement begins with a keyword or a decorator. -/
theorem fails_compoundStatement (hword : NoKeyword n t) (hat : Fails grammar (n + 1) (sign "@") t) :
    Fails grammar (n + 1) compoundStatement t := by
  have hcompound : ∀ {k : String} {r : PythonRule}, ("from".toList == k.toList) = false →
      Fails grammar (n + 1) (compound k r) t := fun hk => (hword hk).seq
  have hasync : ∀ {k : String} {r : PythonRule}, ("from".toList == k.toList) = false →
      Fails grammar (n + 1) (seq (opt (keyword "async")) (compound k r)) t :=
    fun hk => (hword rfl).opt.seq_fails (hcompound hk)
  refine Fails.any ?_
  simp only [List.forall_mem_cons]
  exact ⟨(hcompound rfl).seq, (hword rfl).opt.seq_fails (hcompound rfl).seq, (hcompound rfl).seq, (hcompound rfl).seq,
    hasync rfl, hasync rfl, hcompound rfl, hat.seq.seq.seq, (hword rfl).seq, by simp⟩

theorem fails_statement (hsimple : Fails grammar (n + 1) simpleStatement t)
    (hcompound : Fails grammar (n + 1) compoundStatement t) : Fails grammar (n + 2) (part .statement) t :=
  .part (hsimple.seq.seq.seq.alt hcompound)

end

/-! ### The end of the text -/

section

variable (h : (gap s).rest = [])

include h

/-- No lexeme is read at the end of the text. -/
theorem fails_take {read : Text → Option Text} (hnil : read [] = none) :
    Fails grammar (n + 1) (step (Cursor.take read next)) (.start s) := by
  refine Fails.step ?_
  have hopen : (Cursor.start s).admits (gap s) = true := open_statement s (gap s)
  simp only [Cursor.take, show (Cursor.start s).rest = s from rfl, hopen, if_true, h, hnil, Option.map_none]

theorem fails_openFormat : Fails grammar (n + 1) (step Cursor.openFormat) (.start s) := by
  refine Fails.step ?_
  have hopen : (Cursor.start s).admits (gap s) = true := open_statement s (gap s)
  have hnil : openQuote? [] = none := rfl
  simp [Cursor.openFormat, show (Cursor.start s).rest = s from rfl, hopen, h, hnil]

theorem fails_signIn (l : List String) : Fails grammar (n + 1) (signIn l) (.start s) := by
  refine Fails.any fun a ha => ?_
  obtain ⟨k, -, rfl⟩ := List.mem_map.1 ha
  exact fails_take h rfl

theorem fails_atom : Fails grammar (n + 2) (part .atom) (.start s) := by
  have hstring : Fails grammar (n + 1) string (.start s) := (fails_take h rfl).alt (fails_openFormat h).seq
  refine .part (Fails.any ?_)
  simp only [List.forall_mem_cons]
  exact ⟨hstring.seq, fails_take h rfl, fails_take h rfl, (fails_take h rfl).seq, (fails_take h rfl).seq,
    (fails_take h rfl).seq, (fails_take h rfl).seq, fails_take h rfl, by simp⟩

theorem fails_operand : Fails grammar (n + 3) (part .operand) (.start s) :=
  .part ((fails_take h rfl).seq.alt ((fails_signIn h _).seq.alt (fails_atom h).seq))

theorem fails_clause : Fails grammar (n + 4) (part .clause) (.start s) :=
  .part ((fails_take h rfl).seq.alt ((fails_take h rfl).seq.alt ((fails_take h rfl).seq.alt (fails_operand h).seq)))

theorem fails_pattern : Fails grammar (n + 3) (part .pattern) (.start s) := by
  have htarget : Fails grammar (n + 2) target (.start s) := (fails_atom h).seq.alt (fails_take h rfl)
  exact .part (htarget.alt ((fails_take h rfl).seq.alt ((fails_take h rfl).seq.alt (fails_take h rfl).seq)))

theorem fails_assigned : Fails grammar (n + 5) assigned (.start s) := by
  have hassignment : Fails grammar (n + 5) (part .assignment) (.start s) := .part (fails_pattern h).seq.seq.seq
  have hexpressions : Fails grammar (n + 5) expressions (.start s) := (Fails.part (fails_clause h).seq).seq.seq
  exact hassignment.alt ((fails_take h rfl).seq.alt hexpressions)

/-- At the end of the text there is no statement. -/
theorem fails_end : Fails grammar 15 (part .statement) (.start s) := by
  have hword : NoKeyword 13 (.start s) := fun _ => fails_take h rfl
  have hfrom : Fails grammar 14 (keyword "from") (.start s) := fails_take h rfl
  have hother : Fails grammar 14 statementWord (.start s) := fails_take h rfl
  exact fails_statement
    (fails_simpleStatement hword (hfrom.seq.report _) (hfrom.seq.report _) (hother.absent.seq_fails (fails_assigned h)))
    (fails_compoundStatement hword (fails_take h rfl))

end

/-! ### The word `__future__` -/

theorem gap_from (hw : Layout true w) (r : Text) : (gap (w ++ ("from".toList ++ r))).rest = "from".toList ++ r := by
  obtain ⟨b, i, hgap, -⟩ := gap_layout hw (c := 'f') rfl ("rom".toList ++ r)
  exact congrArg Gap.rest hgap

/-- The word `__future__` and a dot, behind the word `from`. -/
def futureText (r : Text) : Text := [' '] ++ ("__future__".toList ++ '.' :: r)

/-- The word `__future__` with a dot behind it is neither a switch of the language nor a module. -/
theorem fails_future (hw : Layout true w) (r : Text) :
    Fails grammar 15 (part .statement) (.start (w ++ ("from".toList ++ futureText r))) := by
  have hends : EndsWord (futureText r) := endsWord_cons rfl _
  have hfits : Fits [] .statement w := fits_open hw open_statement
  have hfrom : Reads grammar 14 (keyword "from") (place [] .statement (w ++ ("from".toList ++ futureText r)))
      (place [] .more (futureText r)) [] := reads_word ⟨"from".toList, rfl⟩ hfits hends rfl
  have henter : Reads grammar 14 (step (Cursor.enter .phrase)) (place [] .more (futureText r))
      (place [.phrase] .more (futureText r)) [] := .step rfl
  -- a switch goes on with the word `import`, and a module begins with another word
  have hswitch : Fails grammar 14 (seq (keyword "__future__") (keyword "import")) (place [.phrase] .more (futureText r)) := by
    have hfuture : Reads grammar 14 (keyword "__future__") (place [.phrase] .more (futureText r))
        (place [.phrase] .more ('.' :: r)) [] :=
      reads_word (w := [' ']) ⟨"__future__".toList, rfl⟩ fits_space (endsWord_cons rfl _) rfl
    exact hfuture.seq_fails (fails_lexeme (w := []) fits_nil rfl (afterWord?_eq_none rfl r))
  have hmodule : Fails grammar 14 moduleName (place [.phrase] .more (futureText r)) := by
    have hdot : Fails grammar 14 (lastSign ".") (place [.phrase] .more (futureText r)) :=
      fails_lexeme (w := [' ']) fits_space rfl (afterSign?_eq_none (by decide) [] _)
    have hname : Fails grammar 14 (nameExcept ["__future__".toList]) (place [.phrase] .more (futureText r)) :=
      fails_word (w := [' ']) ⟨"__future__".toList, rfl⟩ fits_space (endsWord_cons rfl _) rfl
    exact hdot.seq.seq.alt hname.seq
  -- no other statement begins with the word `from`
  have hword : NoKeyword 13 (.start (w ++ ("from".toList ++ futureText r))) := by
    intro k next hk
    exact fails_word ⟨"from".toList, rfl⟩ hfits hends hk
  have hother : Reads grammar 14 statementWord (place [] .statement (w ++ ("from".toList ++ futureText r)))
      (place [] .more (futureText r)) [] := reads_word ⟨"from".toList, rfl⟩ hfits hends rfl
  have hat : Fails grammar 14 (sign "@") (place [] .statement (w ++ ("from".toList ++ futureText r))) :=
    fails_lexeme hfits rfl (afterSign?_eq_none (by decide) [] _)
  exact fails_statement
    (fails_simpleStatement hword ((hfrom.seq_fails (henter.seq_fails hswitch.seq).seq).report _)
      ((hfrom.seq_fails (henter.seq_fails (hmodule.report _).seq.seq).seq).report _) hother.absent.seq)
    (fails_compoundStatement hword hat)

theorem written_future {x : Statement} (h : Written x s) (hx : x.isFuture = true) :
    ∃ r, s = "from".toList ++ futureText r := by
  have hmodule : ∀ m : Module, m.origin.isFuture = true → ∃ r, m.text = "__future__".toList ++ '.' :: r := by
    rintro ⟨o, ho⟩ hm
    cases o with
    | relative level name? => cases hm
    | absolute d =>
      have hfirst : d.first.text = "__future__".toList := by simpa [Origin.isFuture] using hm
      cases hrest : d.rest with
      | nil => exact absurd (by rw [Dotted.text, hfirst, hrest]; rfl) ho
      | cons y names =>
        refine ⟨y.text ++ dottedTail names, ?_⟩
        rw [Module.text, Origin.text, Dotted.text, hfirst, hrest, dottedTail_cons]
  have hfrom : ∀ {m : Module} (u : Text), m.origin.isFuture = true →
      ∃ r, "from ".toList ++ (m.text ++ u) = "from".toList ++ futureText r := by
    intro m u hm
    obtain ⟨r, hr⟩ := hmodule m hm
    exact ⟨r ++ u, by rw [hr]; rfl⟩
  cases h with
  | modules => cases hx
  | everything m => exact hfrom _ hx
  | bare m => exact hfrom _ hx
  | enclosed m => exact hfrom _ hx

/-! ### Sequences of statements -/

theorem gap_trailing (hw : Layout true w) (he : Trailing e) : (gap (w ++ e)).rest = [] := by
  obtain ⟨b, i, hi, -⟩ := gapFrom_layout hw false 0 e
  rw [gap, hi, (gapFrom_trailing he b i []).1]

/-- Statements are read up to the end of the text, or up to the first one whose module begins with `__future__`. -/
theorem reads_source {xs : List Statement} (h : ImportTrail.Python.Source xs s) (hw : Layout true w) :
    ∃ t found, Reads grammar (16 * (s.length + 1)) (many (part .statement)) (.start (w ++ s)) (.start t) found ∧
      if xs.any Statement.isFuture then (gap t).rest ≠ []
      else (gap t).rest = [] ∧ found = xs.flatMap Statement.specifiers := by
  -- a statement that is not read ends the repetition
  have hfuture : ∀ {x : Statement} {s w : Text} (r : Text), Written x s → x.isFuture = true → Layout true w →
      Fails grammar 15 (part .statement) (.start (w ++ (s ++ r))) ∧ (gap (w ++ (s ++ r))).rest ≠ [] := by
    intro x s w r h hx hw
    obtain ⟨y, rfl⟩ := written_future h hx
    have hfails := fails_future hw (y ++ r)
    have hs : "from".toList ++ futureText y ++ r = "from".toList ++ futureText (y ++ r) := by simp [futureText]
    rw [hs, gap_from hw]
    exact ⟨hfails, by simp⟩
  induction h generalizing w with
  | @last xs s h =>
    cases h with
    | blank he =>
      have hrest := gap_trailing hw he
      exact ⟨w ++ s, [], (fails_end hrest).many.more (by omega), hrest, rfl⟩
    | @statement x s e h he =>
      by_cases hx : x.isFuture = true
      · obtain ⟨hfails, hrest⟩ := hfuture e h hx hw
        refine ⟨w ++ (s ++ e), [], hfails.many.more (by omega), ?_⟩
        simpa [hx] using hrest
      · rw [Bool.not_eq_true] at hx
        have hrest := gap_trailing .nil he
        have hread := reads_written (r := e) h hx hw ⟨e, [], by simp, he, .inl rfl⟩
        have hmany := (hread.more (m := s.length + 15 + 1) (by omega)).many ((fails_end hrest).many.more (by omega))
        refine ⟨e, _, hmany.more ?_, ?_⟩
        · simp only [List.length_append]
          omega
        · simpa [hx] using hrest
  | @cons xs ys s r h hr ih =>
    cases h with
    | blank he =>
      obtain ⟨t, found, hread, hfound⟩ := ih (hw.append he.layout)
      refine ⟨t, found, ?_, hfound⟩
      have hs : w ++ (s ++ ['\n']) ++ r = w ++ (s ++ '\n' :: r) := by simp
      rw [hs] at hread
      exact hread.more (by simp only [List.length_append, List.length_cons]; omega)
    | @statement x s e h he =>
      rw [List.append_assoc]
      by_cases hx : x.isFuture = true
      · obtain ⟨hfails, hrest⟩ := hfuture (e ++ '\n' :: r) h hx hw
        refine ⟨w ++ (s ++ (e ++ '\n' :: r)), [], hfails.many.more (by omega), ?_⟩
        simpa [hx] using hrest
      · rw [Bool.not_eq_true] at hx
        obtain ⟨t, found, hmany, hfound⟩ := ih he.layout
        have hs : e ++ ['\n'] ++ r = e ++ '\n' :: r := by simp
        rw [hs] at hmany
        have hread := reads_written h hx hw ⟨e, '\n' :: r, rfl, he, .inr ⟨r, rfl⟩⟩
        have hround := (hread.more (m := s.length + 1 + 16 * (r.length + 1) + 1) (by omega)).many (hmany.more (by omega))
        refine ⟨t, _, hround.more ?_, ?_⟩
        · simp only [List.length_append, List.length_cons]
          omega
        · simp only [List.cons_append, List.nil_append, List.any_cons, hx, Bool.false_or, List.flatMap_cons]
          by_cases hys : ys.any Statement.isFuture = true
          · rw [if_pos hys] at hfound ⊢
            exact hfound
          · rw [if_neg hys] at hfound ⊢
            exact ⟨hfound.1, by rw [hfound.2]⟩

/-- **The grammar accepts a sequence of import statements**, and finds what they import, unless a NUL stands in it or a
module begins with `__future__`. -/
theorem specifiers?_source {xs : List Statement} (h : ImportTrail.Python.Source xs s) :
    specifiers? s =
      if '\x00' ∈ s ∨ xs.any Statement.isFuture = true then none else some (xs.flatMap Statement.specifiers) := by
  obtain ⟨t, found, hread, hfound⟩ := reads_source h .nil
  by_cases hnul : '\x00' ∈ s
  · rw [specifiers?, if_pos (List.contains_iff_mem.2 hnul), if_pos (.inl hnul)]
  · have hcontains : s.contains '\x00' = false := by
      rw [Bool.eq_false_iff, ne_eq, List.contains_iff_mem]
      exact hnul
    have hrun : specifiers? s = (run grammar (16 * (s.length + 1)) source (.start s)).found? := by
      rw [specifiers?, hcontains]
      rfl
    rw [hrun]
    by_cases hfuture : xs.any Statement.isFuture = true
    · have hend : Fails grammar 1 (step Cursor.atEnd) (.start t) := by
        rw [if_pos hfuture] at hfound
        refine Fails.step ?_
        simp [Cursor.atEnd, Cursor.start, hfound]
      have hsource : Fails grammar (16 * (s.length + 1)) source (.start s) := hread.seq_fails (hend.more (by omega))
      rw [if_pos (.inr hfuture), show run grammar _ source _ = _ from hsource]
      rfl
    · rw [if_neg hfuture] at hfound
      have hend : Reads grammar 1 (step Cursor.atEnd) (.start t) (.start t) [] := by
        refine Reads.step ?_
        simp [Cursor.atEnd, Cursor.start, hfound.1]
      have hsource : Reads grammar (16 * (s.length + 1)) source (.start s) _ _ := hread.seq (hend.more (by omega))
      rw [if_neg (by simp [hnul, hfuture]), show run grammar _ source _ = _ from hsource, hfound.2, List.append_nil]
      rfl

end ImportTrail.Grammar.Python
