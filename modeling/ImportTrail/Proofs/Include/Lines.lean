import ImportTrail.Imports
import ImportTrail.Proofs.Scan.Find
import ImportTrail.Proofs.Text.Pieces

/-!
Scanning for include directives goes line by line, although the search runs over the whole text and goes on behind each match.

* `Directive`, `Includes` — the text of a directive, and the lines that include a name, said without the search;
* `directive_text`, `exists_directive` — the pattern matches such texts at the beginning of a line, and nothing else;
* `directive_append`, `findFrom_append_newline` — no match sees or crosses the end of its line;
* `included_append`, `included_flatMap`, `included_line` — names are found part by part, line by line, and at most one in a line;
* `imports_lineByLine` — so a text gives what its lines give.
-/

namespace ImportTrail.Scan.Include

open Text

variable {prev : Option Char} {pos skip : ℕ} {s line : Text} {m : Match}

/-! ### Directives -/

/-- An include directive up to its closing bracket or quote: a hash, the word `include` and an opening bracket or quote, with
or without spaces and tabs in front of each, and a name. What opens and what closes need not be of one kind. -/
structure Directive where
  indent : Text
  beforeWord : Text
  beforeName : Text
  opening : Char
  name : Text
  closing : Char
  indent_spaces : ∀ c ∈ indent, isSpaceTab c = true
  beforeWord_spaces : ∀ c ∈ beforeWord, isSpaceTab c = true
  beforeName_spaces : ∀ c ∈ beforeName, isSpaceTab c = true
  opening_mark : opening = '<' ∨ opening = '"'
  name_ne_nil : name ≠ []
  name_chars : ∀ c ∈ name, c ≠ '"' ∧ c ≠ '>'
  closing_mark : closing = '"' ∨ closing = '>'

/-- The text of a directive in front of its name. -/
def Directive.front (d : Directive) : Text :=
  d.indent ++ '#' :: (d.beforeWord ++ ("include".toList ++ (d.beforeName ++ [d.opening])))

/-- The text of a directive. -/
def Directive.text (d : Directive) : Text := d.front ++ (d.name ++ [d.closing])

/-- The match that a directive gives. -/
def Directive.found (d : Directive) : Match := ⟨d.front.length, d.name, 1⟩

/-- The line begins with a directive, and this is its name without the blanks around it. -/
def Includes (line x : Text) : Prop := ∃ (d : Directive) (rest : Text), line = d.text ++ rest ∧ x = trim d.name

theorem Directive.length_found (d : Directive) : d.found.length = d.text.length := by
  simp [found, text, Match.length, Nat.add_assoc]

/-- A directive is on one line if its name is. -/
theorem Directive.notMem_text (d : Directive) (hname : '\n' ∉ d.name) : '\n' ∉ d.text := by
  have hspaces : ∀ b : Text, (∀ c ∈ b, isSpaceTab c = true) → '\n' ∉ b := fun b hb hmem => by cases hb _ hmem
  have hopening : '\n' ≠ d.opening := by
    rcases d.opening_mark with h | h <;> rw [h] <;> decide
  have hclosing : '\n' ≠ d.closing := by
    rcases d.closing_mark with h | h <;> rw [h] <;> decide
  have hword : '\n' ∉ "include".toList := by decide
  simp only [text, front, List.mem_append, List.mem_cons, List.not_mem_nil, or_false, not_or]
  exact ⟨⟨hspaces _ d.indent_spaces, by decide, hspaces _ d.beforeWord_spaces, hword, hspaces _ d.beforeName_spaces, hopening⟩,
    hname, hclosing⟩

theorem Directive.name_goes_on (d : Directive) (hline : '\n' ∉ d.text) :
    ∀ c ∈ d.name, (c != '"' && c != '>' && c != '\n') = true := by
  intro c hc
  have hnewline : c ≠ '\n' := by
    rintro rfl
    exact hline (by simp [text, hc])
  simp [d.name_chars c hc, hnewline]

/-- A directive on one line is matched at the beginning of a line. -/
theorem directive_text (d : Directive) (hprev : atLineStart prev = true) (hline : '\n' ∉ d.text) (r : Text) :
    directive prev (d.text ++ r) = some d.found := by
  have hopening : isSpaceTab d.opening = false ∧ (d.opening == '<' || d.opening == '"') = true := by
    rcases d.opening_mark with h | h <;> rw [h] <;> decide
  have hclosing : (d.closing != '"' && d.closing != '>' && d.closing != '\n') = false ∧ (d.closing != '\n') = true := by
    rcases d.closing_mark with h | h <;> rw [h] <;> decide
  have hne : d.name.isEmpty = false := List.isEmpty_eq_false_iff.2 d.name_ne_nil
  -- what is left of the text behind the hash, behind the word and behind the opening mark
  let r₃ := d.name ++ d.closing :: r
  let r₂ := d.beforeName ++ d.opening :: r₃
  let r₁ := d.beforeWord ++ ("include".toList ++ r₂)
  have htext : d.text ++ r = d.indent ++ '#' :: r₁ := by simp [Directive.text, Directive.front, r₁, r₂, r₃]
  have hlength : (d.text ++ r).length - r₃.length = d.front.length := by
    have hfront : d.text ++ r = d.front ++ r₃ := by simp [Directive.text, r₃]
    rw [hfront, List.length_append, Nat.add_sub_cancel]
  have hhash : (d.text ++ r).dropWhile isSpaceTab = ['#'] ++ r₁ := by
    rw [htext]
    exact dropWhile_append_cons d.indent_spaces rfl r₁
  have hword : r₁.dropWhile isSpaceTab = "include".toList ++ r₂ := dropWhile_append_cons d.beforeWord_spaces rfl _
  have hopen : r₂.dropWhile isSpaceTab = d.opening :: r₃ := dropWhile_append_cons d.beforeName_spaces hopening.1 r₃
  have hname : (r₃.takeWhile fun c => c != '"' && c != '>' && c != '\n') = d.name :=
    takeWhile_append_cons (d.name_goes_on hline) hclosing.1 r
  have hclose : (r₃.dropWhile fun c => c != '"' && c != '>' && c != '\n') = d.closing :: r :=
    dropWhile_append_cons (d.name_goes_on hline) hclosing.1 r
  unfold directive
  simp only [hprev, hhash, after?_eq_some.2 rfl, hword, hopen, hopening.2, drop_length_takeWhile, hname, hclose,
    hclosing.2, hne, hlength, Option.bind_eq_bind, Option.bind_some, Bool.not_true, Bool.false_eq_true, if_false, if_true]
  rfl

/-- Every match is a directive on one line, at the beginning of a line. -/
theorem exists_directive (h : directive prev s = some m) :
    atLineStart prev = true ∧ ∃ d : Directive, '\n' ∉ d.text ∧ d.text <+: s ∧ m = d.found := by
  -- every test of the pattern has passed
  unfold directive at h
  split at h
  · cases h
  rename_i hprev
  simp only [Option.bind_eq_bind, Option.bind_eq_some_iff, after?_eq_some, drop_length_takeWhile] at h
  obtain ⟨r₁, hhash, r₂, hword, h⟩ := h
  split at h
  case h_2 => cases h
  rename_i o r₃ hopen
  split at h
  case isFalse => cases h
  rename_i ho
  split at h
  case h_2 => cases h
  rename_i q r hclose
  split at h
  case isFalse => cases h
  rename_i hq
  -- what the pattern has taken off, put together again
  obtain ⟨indent, rfl, -, hindent⟩ := eq_append_of_dropWhile hhash
  obtain ⟨beforeWord, rfl, -, hbeforeWord⟩ := eq_append_of_dropWhile hword
  obtain ⟨beforeName, rfl, -, hbeforeName⟩ := eq_append_of_dropWhile hopen
  have hend := List.head?_dropWhile_not (fun c => c != '"' && c != '>' && c != '\n') r₃
  rw [hclose, List.head?_cons] at hend
  obtain ⟨name, rfl, htake, hname⟩ := eq_append_of_dropWhile hclose
  rw [htake] at h hq
  simp only [bne_iff_ne, ne_eq, Bool.and_eq_true, Bool.or_eq_true, beq_iff_eq, Bool.not_eq_true', List.isEmpty_eq_false_iff,
    Bool.and_eq_false_iff, bne_eq_false_iff_eq] at ho hq hname hend
  let d : Directive := {
    indent, beforeWord, beforeName, name
    opening := o
    closing := q
    indent_spaces := hindent
    beforeWord_spaces := hbeforeWord
    beforeName_spaces := hbeforeName
    opening_mark := ho
    name_ne_nil := hq.2
    name_chars := fun c hc => (hname c hc).1
    closing_mark := hend.resolve_right hq.1 }
  have hfront : indent ++ (['#'] ++ (beforeWord ++ ("include".toList ++ (beforeName ++ o :: (name ++ q :: r))))) =
      d.front ++ (name ++ q :: r) := by simp [Directive.front, d]
  refine ⟨by simpa using hprev, d, d.notMem_text fun hc => (hname _ hc).2 rfl, ⟨r, ?_⟩, ?_⟩
  · rw [hfront]
    simp [Directive.text, d]
  · rw [hfront, List.length_append, Nat.add_sub_cancel] at h
    exact (Option.some.inj h).symm

theorem directive_eq_some_iff : directive prev s = some m ↔
    atLineStart prev = true ∧ ∃ d : Directive, '\n' ∉ d.text ∧ d.text <+: s ∧ m = d.found := by
  constructor
  · exact exists_directive
  · rintro ⟨hprev, d, hline, ⟨r, rfl⟩, rfl⟩
    exact directive_text d hprev hline r

/-! ### Line ends -/

/-- The pattern does not see what stands behind its line. -/
theorem directive_append (prev : Option Char) (a b : Text) : directive prev (a ++ '\n' :: b) = directive prev a := by
  ext m
  rw [directive_eq_some_iff, directive_eq_some_iff]
  refine and_congr_right fun _ => exists_congr fun d => and_congr_right fun hline => ?_
  rw [prefix_append_sep_iff hline]

theorem directive_length_le (h : directive prev s = some m) : m.length ≤ s.length := by
  obtain ⟨-, d, -, hs, rfl⟩ := exists_directive h
  rw [d.length_found]
  exact hs.length_le

/-- The findings in front of a line feed are those of the text in front of it, and behind it the search begins anew. -/
theorem findFrom_append_newline (a b : Text) (hskip : skip ≤ a.length) :
    findFrom directive prev pos skip (a ++ '\n' :: b) =
      findFrom directive prev pos skip a ++ findFrom directive (some '\n') (pos + a.length + 1) 0 b := by
  induction a generalizing prev pos skip with
  | nil =>
    -- in front of the line feed no match is under way, and none begins there
    obtain rfl : skip = 0 := Nat.le_zero.1 hskip
    have hnone : directive prev ('\n' :: b) = none := by
      rw [← List.nil_append ('\n' :: b), directive_append]
      simp [directive, after?]
    exact findsOver_single hnone
  | cons c a ih =>
    have hpos : pos + (c :: a).length + 1 = pos + 1 + a.length + 1 := by
      rw [List.length_cons]
      omega
    rw [hpos, List.cons_append]
    cases skip with
    | succ skip => exact ih (Nat.le_of_succ_le_succ hskip)
    | zero =>
      rw [findFrom, findFrom, ← List.cons_append, directive_append]
      split
      · rename_i m hm
        have hlength := directive_length_le hm
        rw [List.length_cons] at hlength
        rw [ih (by omega), List.cons_append]
      · exact ih (Nat.zero_le _)

/-- Inside a line nothing is found. -/
theorem findFrom_inside (hprev : atLineStart prev = false) (hline : '\n' ∉ s) : findFrom directive prev pos skip s = [] := by
  induction s generalizing prev pos skip with
  | nil => rfl
  | cons c s ih =>
    rw [List.mem_cons, not_or] at hline
    have hc : atLineStart (some c) = false := by simpa [atLineStart] using Ne.symm hline.1
    cases skip with
    | succ skip => exact ih hc hline.2
    | zero =>
      have hnone : directive prev (c :: s) = none := by simp [directive, hprev]
      rw [findFrom, hnone]
      exact ih hc hline.2

/-! ### Included names -/

/-- The included names of a text, with their repetitions. -/
def included (s : Text) : List Text := (find directive s).map fun f => trim f.2

/-- **Names are found part by part.** -/
theorem included_append (a b : Text) : included (a ++ '\n' :: b) = included a ++ included b := by
  have hanew : ((findFrom directive (some '\n') (0 + a.length + 1) 0 b).map fun f => trim f.2) = included b := by
    rw [map_findFrom trim _ _ 0]
    cases b <;> rfl
  rw [included, find, findFrom_append_newline a b (Nat.zero_le _), List.map_append, hanew]
  rfl

/-- **Names are found line by line.** -/
theorem included_flatMap (s : Text) : included s = (splitOn '\n' s).flatMap included := by
  have hlines : ∀ ps : List Text, ps ≠ [] → included (joinWith ['\n'] ps) = ps.flatMap included := by
    intro ps hne
    induction ps with
    | nil => exact absurd rfl hne
    | cons p ps ih =>
      rcases eq_or_ne ps [] with rfl | hps
      · simp [joinWith, List.intercalate_singleton]
      · have hjoin : joinWith ['\n'] (p :: ps) = p ++ '\n' :: joinWith ['\n'] ps := by
          obtain ⟨q, qs, rfl⟩ := List.exists_cons_of_ne_nil hps
          simp [joinWith, List.intercalate_cons_cons]
        rw [hjoin, included_append, ih hps, List.flatMap_cons]
  rw [← hlines _ (splitOn_ne_nil _ _), joinWith_splitOn]

/-- A line gives the name of the directive that it begins with. -/
theorem included_line (hline : '\n' ∉ line) :
    included line = ((directive none line).map fun m => trim m.capture).toList := by
  cases line with
  | nil => rfl
  | cons c s =>
    rw [List.mem_cons, not_or] at hline
    have hinside : ∀ skip, findFrom directive (some c) (0 + 1) skip s = [] := fun skip =>
      findFrom_inside (by simpa [atLineStart] using Ne.symm hline.1) hline.2
    rw [included, find, findFrom]
    cases directive none (c :: s) <;> simp only [hinside] <;> rfl

theorem included_length_le (hline : '\n' ∉ line) : (included line).length ≤ 1 := by
  rw [included_line hline]
  exact Option.length_toList_le

theorem included_eq_singleton_iff (hline : '\n' ∉ line) {x : Text} : included line = [x] ↔ Includes line x := by
  rw [included_line hline]
  constructor
  · intro h
    obtain ⟨m, hm, rfl⟩ : ∃ m, directive none line = some m ∧ trim m.capture = x := by
      cases hm : directive none line <;> simp_all
    obtain ⟨-, d, -, ⟨rest, rfl⟩, rfl⟩ := exists_directive hm
    exact ⟨d, rest, rfl, rfl⟩
  · rintro ⟨d, rest, rfl, rfl⟩
    rw [directive_text d rfl fun hmem => hline (List.mem_append_left _ hmem)]
    rfl

/-- **Include directives are found line by line.** A text gives what its two parts at any line end give, and what all of its
lines give, each name where it stands first. A line gives at most one name, and it gives one exactly if it begins with a
directive: the name of that, without the blanks around it. -/
theorem imports_lineByLine (strategy : Strategy) :
    (∀ a b, Family.c.imports strategy (a ++ '\n' :: b) =
      distinct (Family.c.imports strategy a ++ Family.c.imports strategy b)) ∧
    (∀ s, Family.c.imports strategy s = distinct ((splitOn '\n' s).flatMap included)) ∧
    ∀ line, '\n' ∉ line → (included line).length ≤ 1 ∧ ∀ x, included line = [x] ↔ Includes line x := by
  have himports : ∀ s, Family.c.imports strategy s = distinct (included s) := fun _ => rfl
  refine ⟨fun a b => ?_, fun s => ?_, fun line hline => ⟨included_length_le hline, fun x => included_eq_singleton_iff hline⟩⟩
  · rw [himports, himports, himports, included_append, distinct_append]
  · rw [himports, included_flatMap]

/-- A directive with spaces and tabs everywhere, marks of two kinds, and more behind it. -/
def mixedLine : Text := " \t#\tinclude  <  a<b.h \t\" > // \"c.h\"".toList

/-- Such a line gives its name, and a name behind it that is not closed on its own line is not found. -/
theorem imports_mixedLine : '\n' ∉ mixedLine ∧ included mixedLine = ["a<b.h".toList] ∧
    Family.c.imports .scan (mixedLine ++ '\n' :: "#include <x\ny>".toList) = ["a<b.h".toList] := by
  have hline : '\n' ∉ mixedLine := by decide
  let d : Directive := {
    indent := [' ', '\t']
    beforeWord := ['\t']
    beforeName := [' ', ' ']
    opening := '<'
    name := "  a<b.h \t".toList
    closing := '"'
    indent_spaces := List.all_eq_true.1 rfl
    beforeWord_spaces := List.all_eq_true.1 rfl
    beforeName_spaces := List.all_eq_true.1 rfl
    opening_mark := by decide
    name_ne_nil := by decide
    name_chars := by simp
    closing_mark := by decide }
  have hincludes : Includes mixedLine "a<b.h".toList := ⟨d, " > // \"c.h\"".toList, by decide, by decide⟩
  have hincluded : included mixedLine = ["a<b.h".toList] :=
    (((imports_lineByLine .scan).2.2 mixedLine hline).2 _).2 hincludes
  have himports : Family.c.imports .scan mixedLine = ["a<b.h".toList] := congrArg distinct hincluded
  have hopen : Family.c.imports .scan "#include <x\ny>".toList = [] := by decide
  refine ⟨hline, hincluded, ?_⟩
  rw [(imports_lineByLine .scan).1, himports, hopen]
  rfl

end ImportTrail.Scan.Include
