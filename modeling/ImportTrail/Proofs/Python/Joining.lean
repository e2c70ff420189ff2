import ImportTrail.Proofs.Python.LogicalLines
import ImportTrail.Proofs.Text.Pieces

/-!
How scanning puts the lines of Python statements together.

* `clean` — a line without its comment and the blanks at its end;
* `Joins` — the lines of a text that are put on one line, and the text that they become;
* `joinLines_joins` — a logical line comes out on one line;
* `Joins.lexemes`, `Joins.gap` — lexemes stay as they are, and gaps become blanks;
* `joins_entries`, `joins_spells`, `joins_chain` — on one line, the statements are the same.
-/

namespace ImportTrail.Scan.Python

open Text UseTree ImportTrail.Python

variable {c : Char} {s t r w e x b f : Text} {inside : Bool} {p : Pending} {d : ℤ}

/-! ### Lines without their comments -/

/-- A line without its comment and without the blanks at its end. -/
def clean (s : Text) : Text := trimEnd (upTo '#' s)

theorem clean_withoutReturn (s : Text) : clean (withoutReturn s) = clean s := by
  rcases withoutReturn_cases s with h | h
  · rw [h]
  · generalize withoutReturn s = t at h ⊢
    subst h
    by_cases hmark : '#' ∈ t
    · obtain ⟨u, v, rfl, hu⟩ := List.eq_append_cons_of_mem hmark
      rw [clean, clean, List.append_assoc, List.cons_append, upTo_append hu, upTo_append hu]
      rfl
    · have hall : upTo '#' t = t := by simpa [upTo] using upTo_append hmark []
      rw [clean, clean, upTo_append hmark, hall]
      exact (trimEnd_append_blank (b := ['\r']) (by decide) t).symm

theorem joinLines_congr {xs ys : List Text} (h : xs.map clean = ys.map clean) (p : Pending) :
    joinLines p xs = joinLines p ys := by
  induction xs generalizing ys p with
  | nil =>
    cases ys with
    | nil => rfl
    | cons y ys => cases h
  | cons x xs ih =>
    cases ys with
    | nil => cases h
    | cons y ys =>
      obtain ⟨hx, hxs⟩ := List.cons.inj h
      have hpush : p.push x = p.push y := by
        rw [clean, clean] at hx
        simp only [Pending.push, hx]
      rw [joinLines, joinLines, hpush]
      split
      · rw [ih hxs]
      · rw [ih hxs]

theorem joinLines_lines_append (p : Pending) (s r : Text) :
    joinLines p (lines (s ++ '\n' :: r)) = joinLines p (splitOn '\n' s ++ lines r) := by
  refine joinLines_congr ?_ p
  rw [lines_append, List.map_append, List.map_append, List.map_map]
  congr 1
  exact List.map_congr_left fun x _ => clean_withoutReturn x

theorem joinLines_lines_concat (p : Pending) (hc : c ≠ '\n') (s : Text) :
    joinLines p (lines (s ++ [c])) = joinLines p (splitOn '\n' (s ++ [c])) := by
  obtain ⟨init, last, hpieces, hlines⟩ := lines_concat hc s
  refine joinLines_congr ?_ p
  rw [hpieces, hlines, List.map_append, List.map_append, List.map_map]
  congr 1
  exact List.map_congr_left fun x _ => clean_withoutReturn x

/-- What a line gives to the line that is put together. -/
def bare (x : Text) : Text := dropEndWhile (· == '\\') (clean x)

/-- The parentheses that a text opens, less those that it closes. -/
def net (s : Text) : ℤ := s.count '(' - s.count ')'

/-- A line that a backslash continues. -/
def continued (x : Text) : Bool := (clean x).getLast? == some '\\'

/-- The lines of a statement up to the one that completes it, if so many parentheses are open in front of them. -/
def Completes (depth : ℤ) : List Text → Prop
  | [] => False
  | [x] => depth + net (clean x) ≤ 0 ∧ continued x = false
  | x :: y :: ys => (0 < depth + net (clean x) ∨ continued x = true) ∧ Completes (depth + net (clean x)) (y :: ys)

/-- The lines of a text that are put on one line, where so many parentheses are open in front. -/
structure Joins (depth : ℤ) (s t : Text) : Prop where
  completes : Completes depth (splitOn '\n' s)
  text : joinWith [' '] ((splitOn '\n' s).map bare) = t

/-! ### Lines put together -/

/-- A line of a statement that has begun, or that begins here. -/
theorem push_eq (hbegins : p.text.isEmpty = false ∨ beginsImport (clean x) = true) :
    p.push x =
      let text := p.text ++ (if p.text.isEmpty then [] else [' ']) ++ bare x
      let depth := p.depth + net (clean x)
      if depth > 0 || continued x then (⟨text, depth⟩, none) else (.none, some text) := by
  have hnew : (p.text.isEmpty && !beginsImport (clean x)) = false := by
    rcases hbegins with h | h <;> simp [h]
  rw [clean] at hnew
  simp only [Pending.push, hnew, Bool.false_eq_true, if_false, Int.add_sub_assoc]
  rfl

/-- What is on its way is complete with the line that completes it. -/
theorem joinLines_completes {xs : List Text} (rest : List Text) (hp : p.text ≠ []) (h : Completes p.depth xs) :
    joinLines p (xs ++ rest) = (p.text ++ ' ' :: joinWith [' '] (xs.map bare)) :: joinLines .none rest := by
  have hempty : p.text.isEmpty = false := by simpa using hp
  -- Both the text and the depth change with every line, so the induction is for any statement on its way.
  induction xs generalizing p with
  | nil => exact absurd h id
  | cons x xs ih =>
    rw [List.cons_append, joinLines, push_eq (.inl hempty)]
    cases xs with
    | nil =>
      obtain ⟨hclosed, hlast⟩ := h
      simp [hempty, hlast, Int.not_lt.2 hclosed, joinWith, List.intercalate_singleton]
    | cons y ys =>
      obtain ⟨hopen, hrest⟩ := h
      have hmore : (decide (p.depth + net (clean x) > 0) || continued x) = true := by simpa using hopen
      have := ih (p := ⟨p.text ++ [' '] ++ bare x, p.depth + net (clean x)⟩) (by simp) hrest (by simp)
      simp only [hempty, hmore, Bool.false_eq_true, if_false, if_true]
      rw [this]
      simp [joinWith, List.intercalate_cons_cons]

theorem bare_ne_nil (h : beginsImport (clean x) = true) : bare x ≠ [] := by
  intro hbare
  have hall : ∀ c ∈ clean x, c = '\\' := by
    rw [bare, dropEndWhile, List.reverse_eq_nil_iff, List.dropWhile_eq_nil_iff] at hbare
    simpa using hbare
  generalize clean x = y at h hall
  cases y with
  | nil => cases h
  | cons c y =>
    obtain rfl := hall c List.mem_cons_self
    cases h

/-- **A logical line comes out on one line.** -/
theorem joinLines_joins (h : Joins 0 s t) (hbegins : beginsImport (clean (upTo '\n' s)) = true) (rest : List Text) :
    joinLines .none (splitOn '\n' s ++ rest) = t :: joinLines .none rest := by
  obtain ⟨hcompletes, rfl⟩ := h
  obtain ⟨more, hpieces⟩ := splitOn_eq_cons '\n' s
  rw [hpieces] at hcompletes ⊢
  rw [List.cons_append, joinLines, push_eq (.inr hbegins)]
  cases more with
  | nil =>
    obtain ⟨hclosed, hlast⟩ := hcompletes
    rw [Int.zero_add] at hclosed
    simp [Pending.none, hlast, Int.not_lt.2 hclosed, joinWith, List.intercalate_singleton]
  | cons y ys =>
    obtain ⟨hopen, hrest⟩ := hcompletes
    have hmore : (decide (Pending.none.depth + net (clean (upTo '\n' s)) > 0) || continued (upTo '\n' s)) = true := by
      simpa [Pending.none] using hopen
    have := joinLines_completes (p := ⟨bare (upTo '\n' s), 0 + net (clean (upTo '\n' s))⟩) rest (bare_ne_nil hbegins) hrest
    simp only [hmore, if_true]
    simpa [Pending.none, joinWith, List.intercalate_cons_cons] using this

/-! ### Lines character by character -/

/-- A character of a lexeme. -/
def isLexical (c : Char) : Bool := !isBlank c && c != '#' && c != '\\'

/-- A text whose first line holds more than blanks and a comment. -/
def Lexed (s : Text) : Prop := clean (upTo '\n' s) ≠ []

theorem net_append (s t : Text) : net (s ++ t) = net s + net t := by
  simp only [net, List.count_append]
  omega

theorem net_eq_zero (hopen : '(' ∉ s) (hclose : ')' ∉ s) : net s = 0 := by
  simp [net, List.count_eq_zero_of_not_mem hopen, List.count_eq_zero_of_not_mem hclose]

/-- What stands in front of the first line, and what becomes of it. -/
theorem Joins.front {k : ℤ} {g : Text} (hline : '\n' ∉ f)
    (hnet : net (clean (f ++ upTo '\n' s)) = k + net (clean (upTo '\n' s)))
    (hcontinued : continued (f ++ upTo '\n' s) = continued (upTo '\n' s))
    (hbare : bare (f ++ upTo '\n' s) = g ++ bare (upTo '\n' s)) (h : Joins (d + k) s t) : Joins d (f ++ s) (g ++ t) := by
  obtain ⟨hcompletes, rfl⟩ := h
  obtain ⟨more, hpieces⟩ := splitOn_eq_cons '\n' s
  have hfront : splitOn '\n' (f ++ s) = (f ++ upTo '\n' s) :: more := by
    obtain ⟨first, rest, hs, hfs⟩ := splitOn_front hline s
    obtain ⟨rfl, rfl⟩ := List.cons.inj (hs.symm.trans hpieces)
    exact hfs
  rw [hpieces] at hcompletes
  refine ⟨?_, ?_⟩
  · rw [hfront]
    cases more with
    | nil => simpa only [Completes, hnet, hcontinued, Int.add_assoc] using hcompletes
    | cons y ys => simpa only [Completes, hnet, hcontinued, Int.add_assoc] using hcompletes
  · rw [hfront, hpieces]
    cases more with
    | nil => simpa [joinWith, List.intercalate_singleton] using hbare
    | cons y ys => simp [joinWith, List.intercalate_cons_cons, hbare]

section Lexemes

variable (hf : ∀ c ∈ f, isLexical c = true)

include hf

theorem notMem_lexemes (hc : isLexical c = false) : c ∉ f := by
  intro hmem
  rw [hf c hmem] at hc
  cases hc

theorem clean_lexemes (x : Text) : clean (f ++ x) = f ++ clean x := by
  have hlast : ∀ c ∈ f.getLast?, isBlank c = false := by
    intro c hc
    have := hf c (List.mem_of_getLast? hc)
    simp only [isLexical, Bool.and_eq_true, Bool.not_eq_true'] at this
    exact this.1.1
  rw [clean, upTo_append (notMem_lexemes hf rfl), trimEnd, dropEndWhile_append hlast]
  rfl

/-- The characters of lexemes stay as they are. -/
theorem Joins.lexemes (h : Joins (d + net f) s t) : Joins d (f ++ s) (f ++ t) := by
  have hlast : ∀ c ∈ f.getLast?, (c == '\\') = false := by
    intro c hc
    have := hf c (List.mem_of_getLast? hc)
    simp only [isLexical, Bool.and_eq_true, bne_iff_ne, ne_eq] at this
    simpa using this.2
  refine h.front (notMem_lexemes hf rfl) ?_ ?_ ?_
  · rw [clean_lexemes hf, net_append]
  · rw [continued, continued, clean_lexemes hf, List.getLast?_append]
    cases (clean (upTo '\n' s)).getLast? with
    | some c => rfl
    | none =>
      cases hc : f.getLast? with
      | none => rfl
      | some c => simpa using hlast c hc
  · rw [bare, bare, clean_lexemes hf, dropEndWhile_append hlast]

theorem lexed_lexemes (hne : f ≠ []) (s : Text) : Lexed (f ++ s) := by
  rw [Lexed, upTo_append (notMem_lexemes hf rfl), clean_lexemes hf]
  simp [hne]

end Lexemes

theorem clean_cons_blank (hc : isLineBlank c = true) (x : Text) :
    clean (c :: x) = if clean x = [] then [] else c :: clean x := by
  have hmark : '#' ∉ [c] := by
    rw [List.mem_singleton]
    rintro rfl
    cases hc
  rw [clean, show c :: x = [c] ++ x from rfl, upTo_append hmark]
  exact trimEnd_cons (isBlank_of_isLineBlank hc) _

theorem notMem_of_isLineBlank (hc : isLineBlank c = true) : '\n' ∉ [c] := by
  rw [List.mem_singleton]
  rintro rfl
  cases hc

/-- A blank stays if something follows it on its line. -/
theorem Joins.blank (hc : isLineBlank c = true) (h : Joins d s t) :
    Joins d (c :: s) (if clean (upTo '\n' s) = [] then t else c :: t) := by
  have hclean := clean_cons_blank hc (upTo '\n' s)
  rw [← Int.add_zero d] at h
  split
  · rename_i hnil
    rw [if_pos hnil] at hclean
    refine h.front (f := [c]) (g := []) (notMem_of_isLineBlank hc) ?_ ?_ ?_
    · rw [List.singleton_append, hclean, hnil]
      rfl
    · rw [List.singleton_append, continued, continued, hclean, hnil]
    · rw [List.singleton_append, bare, bare, hclean, hnil]
      rfl
  · rename_i hne
    rw [if_neg hne] at hclean
    have hback : (c == '\\') = false := by
      rw [beq_eq_false_iff_ne]
      rintro rfl
      cases hc
    refine h.front (f := [c]) (g := [c]) (notMem_of_isLineBlank hc) ?_ ?_ ?_
    · have hzero : net [c] = 0 := by
        refine net_eq_zero ?_ ?_ <;>
        · rw [List.mem_singleton]
          rintro rfl
          cases hc
      rw [List.singleton_append, hclean, ← List.singleton_append, net_append, hzero]
    · rw [List.singleton_append, continued, continued, hclean, List.getLast?_cons]
      obtain ⟨y, z, hy⟩ := List.exists_cons_of_ne_nil hne
      simp [hy, List.getLast?_cons]
    · rw [List.singleton_append, bare, bare, hclean]
      exact dropEndWhile_append (t := [c]) (by simpa using hback) _

theorem lexed_cons_blank (hc : isLineBlank c = true) : Lexed (c :: s) ↔ Lexed s := by
  have hfirst : upTo '\n' (c :: s) = c :: upTo '\n' s := upTo_append (t := [c]) (notMem_of_isLineBlank hc) s
  rw [Lexed, Lexed, hfirst, clean_cons_blank hc]
  split <;> simp_all

/-- A line that leaves a parenthesis open or that is continued. -/
theorem Joins.line (hline : '\n' ∉ x) (hmore : 0 < d + net (clean x) ∨ continued x = true)
    (h : Joins (d + net (clean x)) s t) : Joins d (x ++ '\n' :: s) (bare x ++ ' ' :: t) := by
  obtain ⟨hcompletes, rfl⟩ := h
  have hpieces : splitOn '\n' (x ++ '\n' :: s) = x :: splitOn '\n' s := by
    rw [splitOn_append_sep, splitOn_of_notMem hline]
    rfl
  obtain ⟨y, ys, hs⟩ := List.exists_cons_of_ne_nil (splitOn_ne_nil '\n' s)
  rw [hs] at hcompletes
  refine ⟨?_, ?_⟩
  · rw [hpieces, hs]
    exact ⟨hmore, hcompletes⟩
  · rw [hpieces, hs]
    simp [joinWith, List.intercalate_cons_cons]

theorem clean_trailing (he : Trailing e) : clean e = [] := by
  cases he with
  | blanks hb =>
    have hall : upTo '#' e = e := by simpa [upTo] using upTo_append (hb.notMem rfl) []
    rw [clean, hall, trimEnd_blank hb.blanks]
  | @comment b x hb hx =>
    have hall : upTo '#' (b ++ '#' :: x) = b := by rw [upTo_append (hb.notMem rfl)]; simp [upTo]
    rw [clean, hall, trimEnd_blank hb.blanks]

/-- The rest of the last line. -/
theorem joins_trailing (he : Trailing e) : Joins 0 e [] := by
  have hclean := clean_trailing he
  have hpieces := splitOn_of_notMem he.notMem
  refine ⟨?_, ?_⟩
  · rw [hpieces]
    simp [Completes, continued, hclean, net]
  · simp [hpieces, bare, hclean, dropEndWhile, joinWith, List.intercalate_singleton]

/-! ### Gaps on one line -/

theorem clean_backslash (hb : Layout false b) : clean ('\\' :: b) = ['\\'] := by
  have hmark : '#' ∉ '\\' :: b := by
    have := hb.notMem (c := '#') rfl
    simpa using this
  have hall : upTo '#' ('\\' :: b) = '\\' :: b := by simpa [upTo] using upTo_append hmark []
  rw [clean, hall]
  exact trimEnd_append_blank hb.blanks ['\\']

theorem notMem_backslash (hb : Layout false b) : '\n' ∉ '\\' :: b := by
  have := hb.notMem (c := '\n') rfl
  simpa using this

/-- Outside of parentheses, something stands on the first line of a gap. -/
theorem lexed_gap (hw : Gap false w) (hs : Lexed s) : Lexed (w ++ s) := by
  generalize hi : false = inside at hw
  induction hw with
  | nil => exact hs
  | blank hc _ ih => exact (lexed_cons_blank hc).2 (ih hi)
  | @continued _ b w hb _ _ =>
    have htext : '\\' :: (b ++ '\n' :: w) ++ s = '\\' :: b ++ '\n' :: (w ++ s) := by simp
    have hfirst : upTo '\n' ('\\' :: b ++ '\n' :: (w ++ s)) = '\\' :: b := by
      rw [upTo_append (notMem_backslash hb)]
      simp [upTo]
    rw [Lexed, htext, hfirst, clean_backslash hb]
    simp
  | line | comment => cases hi

/-- On one line, a gap in front of a lexeme is blanks. -/
theorem Joins.gap (hw : Gap inside w) (hinside : inside = true → 0 < d) (hs : Lexed s) (h : Joins d s t) :
    ∃ b, Layout false b ∧ (w ≠ [] → b ≠ []) ∧ Joins d (w ++ s) (b ++ t) := by
  induction hw with
  | nil => exact ⟨[], .nil, fun h => absurd rfl h, h⟩
  | @blank _ c w hc _ ih =>
    obtain ⟨b, hb, hne, hjoins⟩ := ih hinside
    have hcons := hjoins.blank hc
    split at hcons
    · rename_i hclean
      refine ⟨b, hb, fun _ => hne ?_, hcons⟩
      -- the lexeme does not stand on this line
      rintro rfl
      exact hs hclean
    · exact ⟨c :: b, .blank hc hb, by simp, hcons⟩
  -- The backslash goes, and the end of its line becomes a space.
  | @continued _ b' w hb' _ ih =>
    obtain ⟨b, hb, -, hjoins⟩ := ih hinside
    have hclean := clean_backslash hb'
    have hnet : net (clean ('\\' :: b')) = 0 := by rw [hclean]; rfl
    have hline := Joins.line (d := d) (notMem_backslash hb') (.inr (by rw [continued, hclean]; rfl))
      (by rwa [hnet, Int.add_zero])
    refine ⟨' ' :: b, .blank rfl hb, by simp, ?_⟩
    rw [bare, hclean] at hline
    rw [List.cons_append, List.append_assoc]
    exact hline
  | @line w _ ih =>
    obtain ⟨b, hb, -, hjoins⟩ := ih hinside
    have hdepth : d + net (clean []) = d := Int.add_zero d
    have hline := Joins.line (x := []) (d := d) (by simp) (.inl (by rw [hdepth]; exact hinside rfl)) (by rwa [hdepth])
    exact ⟨' ' :: b, .blank rfl hb, by simp, hline⟩
  | @comment x w hx _ ih =>
    obtain ⟨b, hb, -, hjoins⟩ := ih hinside
    have hdepth : d + net (clean ('#' :: x)) = d := Int.add_zero d
    have hline := Joins.line (x := '#' :: x) (d := d) (by simpa using hx) (.inl (by rw [hdepth]; exact hinside rfl))
      (by rwa [hdepth])
    refine ⟨' ' :: b, .blank rfl hb, by simp, ?_⟩
    rw [List.cons_append, List.append_assoc]
    exact hline

/-! ### Statements on one line -/

/-- A character of a lexeme that is no parenthesis. -/
def isPlain (c : Char) : Bool := isLexical c && c != '(' && c != ')'

theorem isPlain_of_isModuleChar (h : isModuleChar c = true) : isPlain c = true := by
  have hne : ∀ a, isModuleChar a = false → c ≠ a := by
    rintro a ha rfl
    rw [h] at ha
    cases ha
  have hblank : isBlank c = false := by
    simp only [isModuleChar, Bool.or_eq_true, beq_iff_eq] at h
    rcases h with hname | rfl
    · exact isBlank_of_isNameChar hname
    · rfl
  simp [isPlain, isLexical, hblank, hne '#' rfl, hne '\\' rfl, hne '(' rfl, hne ')' rfl]

section Plain

variable (hf : ∀ c ∈ f, isPlain c = true)

include hf

theorem lexical_of_plain : ∀ c ∈ f, isLexical c = true := by
  intro c hc
  have := hf c hc
  simp only [isPlain, Bool.and_eq_true] at this
  exact this.1.1

/-- Lexemes without parentheses. -/
theorem Joins.plain (h : Joins d s t) : Joins d (f ++ s) (f ++ t) := by
  have hne : ∀ a, isPlain a = false → a ∉ f := by
    intro a ha hmem
    rw [hf a hmem] at ha
    cases ha
  refine Joins.lexemes (lexical_of_plain hf) ?_
  rwa [net_eq_zero (hne '(' rfl) (hne ')' rfl), Int.add_zero]

end Plain

theorem plain_dotted (a : Dotted) : ∀ c ∈ a.text, isPlain c = true := fun c hc => isPlain_of_isModuleChar (a.all_chars c hc)

theorem plain_origin (o : Origin) : ∀ c ∈ o.text, isPlain c = true := fun c hc => isPlain_of_isModuleChar (o.all_chars c hc)

theorem plain_name (a : Name) : ∀ c ∈ a.text, isPlain c = true := by
  intro c hc
  refine isPlain_of_isModuleChar ?_
  simp [isModuleChar, a.all_chars c hc]

theorem lexed_plain (hf : ∀ c ∈ f, isPlain c = true) (hne : f ≠ []) (s : Text) : Lexed (f ++ s) :=
  lexed_lexemes (lexical_of_plain hf) hne s

theorem lexed_cons (hc : isLexical c = true) (s : Text) : Lexed (c :: s) :=
  lexed_lexemes (f := [c]) (by simpa using hc) (by simp) s

theorem lexed_entries {gap : Text → Prop} {xs : List ImportEntry} (h : EntriesIn gap xs s) (r : Text) : Lexed (s ++ r) := by
  obtain ⟨c, q, rfl, hc⟩ := h.opens
  have hplain : isPlain c = true := isPlain_of_isModuleChar (by simp [isModuleChar, hc])
  refine lexed_cons ?_ (q ++ r)
  exact lexical_of_plain (f := [c]) (by simpa using hplain) c (by simp)

section Inside

variable (hinside : inside = true → 0 < d)

include hinside

theorem joins_entry {y : ImportEntry} (hy : EntryIn (Gap inside) y s) (h : Joins d r t) :
    ∃ u, EntryIn (Layout false) y u ∧ Joins d (s ++ r) (u ++ t) := by
  cases hy with
  | plain a => exact ⟨a.text, .plain a, h.plain (plain_dotted a)⟩
  | @renamed a z w w' hw hne hw' hne' =>
    have has : ∀ c ∈ "as".toList, isPlain c = true := List.all_eq_true.1 rfl
    have halias := h.plain (plain_name z)
    obtain ⟨b', hb', hbne', hbehind⟩ := halias.gap hw' hinside (lexed_plain (plain_name z) z.ne_nil r)
    obtain ⟨b, hb, hbne, hbefore⟩ := (hbehind.plain has).gap hw hinside (lexed_plain has (by decide) _)
    refine ⟨a.text ++ (b ++ ("as".toList ++ (b' ++ z.text))), .renamed a z hb (hbne hne) hb' (hbne' hne'), ?_⟩
    simpa only [List.append_assoc] using hbefore.plain (plain_dotted a)

/-- A mark between two gaps. -/
theorem joins_mark {w' : Text} (hc : isPlain c = true) (hw : Gap inside w) (hw' : Gap inside w') (hs : Lexed s)
    (h : Joins d s t) :
    ∃ b b', Layout false b ∧ Layout false b' ∧ Joins d (w ++ c :: (w' ++ s)) (b ++ c :: (b' ++ t)) := by
  have hmark : ∀ a ∈ [c], isPlain a = true := by simpa using hc
  obtain ⟨b', hb', -, hbehind⟩ := h.gap hw' hinside hs
  obtain ⟨b, hb, -, hbefore⟩ := (hbehind.plain hmark).gap hw hinside (lexed_plain hmark (by simp) (w' ++ s))
  exact ⟨b, b', hb, hb', hbefore⟩

/-- On one line, entries have blanks for gaps. -/
theorem joins_entries {xs : List ImportEntry} (hs : EntriesIn (Gap inside) xs s) (h : Joins d r t) :
    ∃ u, EntriesIn (Layout false) xs u ∧ Joins d (s ++ r) (u ++ t) := by
  induction hs with
  | one hy =>
    obtain ⟨u, hu, hjoins⟩ := joins_entry hinside hy h
    exact ⟨u, .one hu, hjoins⟩
  | @cons y ys s w w' q hy hw hw' hq ih =>
    obtain ⟨v, hv, hrest⟩ := ih
    obtain ⟨b, b', hb, hb', hcomma⟩ := joins_mark hinside (c := ',') rfl hw hw' (lexed_entries hq r) hrest
    obtain ⟨u, hu, hjoins⟩ := joins_entry hinside hy hcomma
    refine ⟨u ++ (b ++ ',' :: (b' ++ v)), .cons hu hb hb' hv, ?_⟩
    simpa only [List.append_assoc, List.cons_append] using hjoins

end Inside

/-- On one line, what stands in front of a closing parenthesis is blanks and possibly a comma. -/
theorem joins_ending (he : Ending (Gap true) e) (hd : 0 < d) (hr : Lexed r) (h : Joins d r t) :
    ∃ u, Ending (Layout false) u ∧ Joins d (e ++ r) (u ++ t) := by
  cases he with
  | blank hw =>
    obtain ⟨b, hb, -, hjoins⟩ := h.gap hw (fun _ => hd) hr
    exact ⟨b, .blank hb, hjoins⟩
  | @comma w w' hw hw' =>
    obtain ⟨b, b', hb, hb', hcomma⟩ := joins_mark (fun _ => hd) (c := ',') rfl hw hw' hr h
    refine ⟨b ++ ',' :: b', .comma hb hb', ?_⟩
    simpa only [List.append_assoc, List.cons_append] using hcomma

/-- The space behind a keyword. -/
theorem Joins.space (hs : Lexed s) (h : Joins d s t) : Joins d (' ' :: s) (' ' :: t) := by
  have := h.blank (c := ' ') rfl
  rwa [if_neg hs] at this

/-- The words of a `from`, where a list follows. -/
theorem joins_from (o : Origin) {g : Text} (hg : Gap false g) (hne : g ≠ []) (hs : Lexed s) (h : Joins 0 s t) :
    ∃ b, Layout false b ∧ b ≠ [] ∧
      Joins 0 ("from ".toList ++ (o.text ++ (g ++ ("import ".toList ++ s))))
        ("from ".toList ++ (o.text ++ (b ++ ("import ".toList ++ t)))) := by
  have himport := (h.space hs).plain (f := "import".toList) (List.all_eq_true.1 rfl)
  obtain ⟨b, hb, hbne, hgap⟩ := himport.gap hg (by simp) (lexed_plain (List.all_eq_true.1 rfl) (by decide) _)
  have hmodule := (hgap.plain (plain_origin o)).space (lexed_plain (plain_origin o) o.ne_nil _)
  exact ⟨b, hb, hbne hne, hmodule.plain (f := "from".toList) (List.all_eq_true.1 rfl)⟩

/-- On one line, a statement has blanks for gaps. -/
theorem joins_spells {y : Import} (hy : Spells Gap y s) (h : Joins 0 r t) :
    ∃ u, Spells (fun _ => Layout false) y u ∧ Joins 0 (s ++ r) (u ++ t) := by
  cases hy with
  | @modules xs w s hw hs =>
    obtain ⟨u, hu, hentries⟩ := joins_entries (by simp) hs h
    obtain ⟨b, hb, -, hgap⟩ := hentries.gap hw (by simp) (lexed_entries hs r)
    have himport : Joins 0 ("import ".toList ++ (w ++ (s ++ r))) ("import ".toList ++ (b ++ (u ++ t))) :=
      (hgap.space (lexed_gap hw (lexed_entries hs r))).plain (f := "import".toList) (List.all_eq_true.1 rfl)
    refine ⟨"import ".toList ++ (b ++ u), .modules hb hu, ?_⟩
    simpa only [List.append_assoc] using himport
  | @everything o g w hg hne hw =>
    have hstar := h.plain (f := ['*']) (List.all_eq_true.1 rfl)
    have hlexed : Lexed (['*'] ++ r) := lexed_cons rfl r
    obtain ⟨b, hb, -, hgap⟩ := hstar.gap hw (by simp) hlexed
    obtain ⟨b', hb', hne', hfrom⟩ := joins_from o hg hne (lexed_gap hw hlexed) hgap
    refine ⟨_, .everything o hb' hne' hb, ?_⟩
    simpa only [List.append_assoc] using hfrom
  | @bare o xs g w s hg hne hw hs =>
    obtain ⟨u, hu, hentries⟩ := joins_entries (by simp) hs h
    obtain ⟨b, hb, -, hgap⟩ := hentries.gap hw (by simp) (lexed_entries hs r)
    obtain ⟨b', hb', hne', hfrom⟩ := joins_from o hg hne (lexed_gap hw (lexed_entries hs r)) hgap
    refine ⟨_, .bare o hb' hne' hb hu, ?_⟩
    simpa only [List.append_assoc] using hfrom
  | @enclosed o xs g w w' s e hg hne hw hw' hs he =>
    have hclose : Joins 1 ([')'] ++ r) ([')'] ++ t) := Joins.lexemes (List.all_eq_true.1 rfl) h
    obtain ⟨v, hv, hending⟩ := joins_ending he (by decide) (lexed_cons rfl r) hclose
    obtain ⟨u, hu, hentries⟩ := joins_entries (by simp) hs hending
    obtain ⟨b', hb', -, hgap'⟩ := hentries.gap hw' (by simp) (lexed_entries hs _)
    have hopen : Joins 0 (['('] ++ (w' ++ (s ++ (e ++ ([')'] ++ r))))) (['('] ++ (b' ++ (u ++ (v ++ ([')'] ++ t))))) :=
      Joins.lexemes (List.all_eq_true.1 rfl) hgap'
    have hlexed : Lexed (['('] ++ (w' ++ (s ++ (e ++ ([')'] ++ r))))) := lexed_cons rfl _
    obtain ⟨b, hb, -, hgap⟩ := hopen.gap hw (by simp) hlexed
    obtain ⟨a, ha, hne', hfrom⟩ := joins_from o hg hne (lexed_gap hw hlexed) hgap
    refine ⟨_, .enclosed o ha hne' hb hb' hu hv, ?_⟩
    simpa only [List.append_assoc, List.cons_append, List.nil_append] using hfrom

/-- The first word of statements and the space behind it stand on one line. -/
theorem chain_opens {xs : List Import} (h : Chain Gap xs s) (r : Text) :
    ∃ word q, (word = "import".toList ∨ word = "from".toList) ∧ s ++ r = word ++ ' ' :: q ∧ Lexed q := by
  have hstatement : ∀ {y : Import} {s : Text} (r : Text), Spells Gap y s →
      ∃ word q, (word = "import".toList ∨ word = "from".toList) ∧ s ++ r = word ++ ' ' :: q ∧ Lexed q := by
    intro y s r h
    cases h with
    | @modules xs w s hw hs => exact ⟨_, w ++ (s ++ r), .inl rfl, by simp, lexed_gap hw (lexed_entries hs r)⟩
    | @everything o g w =>
      exact ⟨_, o.text ++ (g ++ ("import ".toList ++ (w ++ '*' :: r))), .inr rfl, by simp,
        lexed_plain (plain_origin o) o.ne_nil _⟩
    | @bare o xs g w s =>
      exact ⟨_, o.text ++ (g ++ ("import ".toList ++ (w ++ (s ++ r)))), .inr rfl, by simp,
        lexed_plain (plain_origin o) o.ne_nil _⟩
    | @enclosed o xs g w w' s e =>
      exact ⟨_, o.text ++ (g ++ ("import ".toList ++ (w ++ '(' :: (w' ++ (s ++ (e ++ ')' :: r)))))), .inr rfl, by simp,
        lexed_plain (plain_origin o) o.ne_nil _⟩
  cases h with
  | one h => exact hstatement r h
  | ended h | cons h =>
    rw [List.append_assoc]
    exact hstatement _ h

theorem lexed_chain {xs : List Import} (h : Chain Gap xs s) (r : Text) : Lexed (s ++ r) := by
  obtain ⟨word, q, hword, htext, -⟩ := chain_opens h r
  rw [htext]
  rcases hword with rfl | rfl <;> exact lexed_plain (List.all_eq_true.1 rfl) (by decide) _

/-- On one line, statements with semicolons between have blanks for gaps. -/
theorem joins_chain {xs : List Import} (hs : Chain Gap xs s) (h : Joins 0 r t) :
    ∃ u, Chain (fun _ => Layout false) xs u ∧ Joins 0 (s ++ r) (u ++ t) := by
  induction hs with
  | one hy =>
    obtain ⟨u, hu, hjoins⟩ := joins_spells hy h
    exact ⟨u, .one hu, hjoins⟩
  | @ended y s w hy hw =>
    have hsemicolon : Joins 0 (';' :: r) (';' :: t) := h.plain (f := [';']) (List.all_eq_true.1 rfl)
    obtain ⟨b, hb, -, hgap⟩ := hsemicolon.gap hw (by simp) (lexed_cons rfl r)
    obtain ⟨u, hu, hjoins⟩ := joins_spells hy hgap
    refine ⟨_, .ended hu hb, ?_⟩
    simpa only [List.append_assoc, List.singleton_append] using hjoins
  | @cons y ys s w w' q hy hw hw' hq ih =>
    obtain ⟨v, hv, hrest⟩ := ih
    obtain ⟨b, b', hb, hb', hsemicolon⟩ := joins_mark (by simp) (c := ';') rfl hw hw' (lexed_chain hq r) hrest
    obtain ⟨u, hu, hjoins⟩ := joins_spells hy hsemicolon
    refine ⟨_, .cons hu hb hb' hv, ?_⟩
    simpa only [List.append_assoc, List.cons_append] using hjoins

end ImportTrail.Scan.Python
