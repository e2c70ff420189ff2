import ImportTrail.Proofs.Python.Joining

/-!
What scanning finds in import statements of Python.

* `importedNames_bare`, `importedNames_enclosed` — the first words between commas are the names of the entries;
* `statementImports_spells` — a statement on one line gives what it imports;
* `lineImports_chain` — a line gives what the statements between its semicolons import;
* `specifiers_program`, `imports_program` — scanning finds what a sequence of logical lines imports.
-/

namespace ImportTrail.Scan.Python

open Text UseTree ImportTrail.Python

variable {c : Char} {s r w e x b : Text}

/-! ### First words between commas -/

/-- A character of entries on one line. -/
def isListChar (c : Char) : Bool := isModuleChar c || isLineBlank c || c == ','

theorem all_layout (hw : Layout false w) : ∀ c ∈ w, isListChar c = true := by
  intro c hc
  simp [isListChar, hw.lineBlanks c hc]

theorem all_listChars {xs : List ImportEntry} (h : EntriesIn (Layout false) xs s) : ∀ c ∈ s, isListChar c = true := by
  have hname : ∀ d : Dotted, ∀ c ∈ d.text, isListChar c = true := by
    intro d c hc
    simp [isListChar, d.all_chars c hc]
  have hentry : ∀ {x : ImportEntry} {s : Text}, EntryIn (Layout false) x s → ∀ c ∈ s, isListChar c = true := by
    intro x s h
    cases h with
    | plain d => exact hname d
    | renamed d y hw _ hw' _ =>
      have halias : ∀ c ∈ y.text, isListChar c = true := by
        intro c hc
        simp [isListChar, isModuleChar, y.all_chars c hc]
      have has : ∀ c ∈ "as".toList, isListChar c = true := List.all_eq_true.1 rfl
      intro c hc
      simp only [List.mem_append] at hc
      rcases hc with hc | hc | hc | hc | hc
      exacts [hname d c hc, all_layout hw c hc, has c hc, all_layout hw' c hc, halias c hc]
  induction h with
  | one h => exact hentry h
  | cons h hw hw' _ ih =>
    intro c hc
    simp only [List.mem_append, List.mem_cons] at hc
    rcases hc with hc | hc | rfl | hc | hc
    exacts [hentry h c hc, all_layout hw c hc, rfl, all_layout hw' c hc, ih c hc]

/-- The first word of each part of a text between commas. -/
def firstWords (s : Text) : List Text := (splitOn ',' s).filterMap fun part => (words part).head?

theorem firstWords_comma (s t : Text) : firstWords (s ++ ',' :: t) = firstWords s ++ firstWords t := by
  rw [firstWords, splitOn_append_sep, List.filterMap_append, firstWords, firstWords]

theorem firstWords_blanks (hb : Layout false b) : firstWords b = [] := by
  have hwords : words b = [] := by
    have := words_blank_append hb.blanks []
    rwa [List.append_nil, words] at this
  rw [firstWords, splitOn_of_notMem (hb.notMem rfl)]
  simp [hwords]

theorem head?_words (hb : Blank b) (hne : x ≠ []) (hx : ∀ c ∈ x, isBlank c = false)
    (hr : ∀ c ∈ r.head?, isBlank c = true) :
    (words (b ++ (x ++ r))).head? = some x := by
  rw [words_blank_append hb]
  cases r with
  | nil => rw [List.append_nil, words_of_forall hne hx]; rfl
  | cons d r =>
    have hd : Blank [d] := by simpa [Blank] using hr d rfl
    have hsplit := words_append_blank_append hd (by simp) x r
    rw [words_of_forall hne hx, List.append_assoc] at hsplit
    rw [show d :: r = [d] ++ r from rfl, hsplit]
    rfl

theorem firstWords_entry {y : ImportEntry} (h : EntryIn (Layout false) y s) (hb : Layout false b) (hw : Layout false w) :
    firstWords (b ++ (s ++ w)) = [y.name.text] := by
  have hword : ∀ c ∈ y.name.text, isBlank c = false := by
    intro c hc
    have := y.name.all_chars c hc
    simp only [isModuleChar, Bool.or_eq_true, beq_iff_eq] at this
    rcases this with hname | rfl
    · exact isBlank_of_isNameChar hname
    · rfl
  have hcomma : ',' ∉ b ++ (s ++ w) := by
    have hs : ',' ∉ s := by
      have hname : ∀ d : Dotted, ',' ∉ d.text := fun d h => absurd (d.all_chars _ h) (by decide)
      cases h with
      | plain d => exact hname d
      | renamed d z hw₁ _ hw₂ _ =>
        have halias : ',' ∉ z.text := fun h => absurd (z.all_chars _ h) (by decide)
        have hblanks := hw₁.notMem (c := ',') rfl
        have hblanks' := hw₂.notMem (c := ',') rfl
        simp [hname d, hblanks, hblanks', halias]
    have hbefore := hb.notMem (c := ',') rfl
    have hbehind := hw.notMem (c := ',') rfl
    simp [hbefore, hbehind, hs]
  obtain ⟨r, hr, hrest⟩ : ∃ r, s ++ w = y.name.text ++ r ∧ ∀ c ∈ r.head?, isBlank c = true := by
    cases h with
    | plain d =>
      refine ⟨w, rfl, fun c hc => ?_⟩
      exact hw.blanks c (List.mem_of_head? hc)
    | @renamed d z w₁ w₂ hw₁ hne₁ _ _ =>
      refine ⟨w₁ ++ ("as".toList ++ (w₂ ++ (z.text ++ w))), by simp, fun c hc => ?_⟩
      obtain ⟨a, w₁, rfl⟩ := List.exists_cons_of_ne_nil hne₁
      obtain rfl : a = c := by simpa using hc
      exact hw₁.blanks a List.mem_cons_self
  have hhead := head?_words hb.blanks y.name.ne_nil hword hrest
  rw [firstWords, splitOn_of_notMem hcomma, hr]
  simp [hhead]

theorem firstWords_entries {xs : List ImportEntry} (h : EntriesIn (Layout false) xs s) (hb : Layout false b)
    (he : Layout false e) : firstWords (b ++ (s ++ e)) = xs.map fun x => x.name.text := by
  induction h generalizing b with
  | one h => exact firstWords_entry h hb he
  | @cons x xs s w w' r h hw hw' _ ih =>
    have hs : b ++ (s ++ (w ++ ',' :: (w' ++ r)) ++ e) = b ++ (s ++ w) ++ ',' :: (w' ++ (r ++ e)) := by simp
    rw [hs, firstWords_comma, firstWords_entry h hb hw, ih hw']
    rfl

theorem firstWords_ending {xs : List ImportEntry} (h : EntriesIn (Layout false) xs s) (hb : Layout false b)
    (he : Ending (Layout false) e) (hx : Layout false x) :
    firstWords (b ++ (s ++ (e ++ x))) = xs.map fun x => x.name.text := by
  cases he with
  | blank he => exact firstWords_entries h hb (he.append hx)
  | @comma w w' hw hw' =>
    have hs : b ++ (s ++ (w ++ ',' :: w' ++ x)) = b ++ (s ++ w) ++ ',' :: (w' ++ x) := by simp
    rw [hs, firstWords_comma, firstWords_entries h hb hw, firstWords_blanks (hw'.append hx), List.append_nil]

theorem map_unparen (h : ∀ c ∈ s, isListChar c = true) : (s.map fun c => if c = '(' ∨ c = ')' then ' ' else c) = s := by
  have hid : ∀ c ∈ s, (if c = '(' ∨ c = ')' then ' ' else c) = c := by
    intro c hc
    refine if_neg ?_
    rintro (rfl | rfl)
    · exact absurd (h _ hc) (by decide)
    · exact absurd (h _ hc) (by decide)
  rw [List.map_congr_left hid, List.map_id']

theorem all_ending (he : Ending (Layout false) e) : ∀ c ∈ e, isListChar c = true := by
  cases he with
  | blank he => exact all_layout he
  | comma hw hw' =>
    intro c hc
    simp only [List.mem_append, List.mem_cons] at hc
    rcases hc with hc | rfl | hc
    exacts [all_layout hw c hc, rfl, all_layout hw' c hc]

/-- The names of a list without parentheses. -/
theorem importedNames_bare {xs : List ImportEntry} (hb : Layout false b) (h : EntriesIn (Layout false) xs s)
    (he : Layout false e) : importedNames (b ++ (s ++ e)) = xs.map fun x => x.name.text := by
  have hwords := firstWords_entries h hb he
  rw [← hwords, importedNames]
  simp only [List.map_append, map_unparen (all_layout hb), map_unparen (all_listChars h), map_unparen (all_layout he)]
  rfl

/-- The names of a list in parentheses. -/
theorem importedNames_enclosed {b' e' : Text} {xs : List ImportEntry} (hb : Layout false b) (hb' : Layout false b')
    (h : EntriesIn (Layout false) xs s) (he : Ending (Layout false) e) (he' : Layout false e') :
    importedNames (b ++ '(' :: (b' ++ (s ++ (e ++ ')' :: e')))) = xs.map fun x => x.name.text := by
  have hwords := firstWords_ending h (hb.append (.blank (c := ' ') rfl hb')) he (.blank (c := ' ') rfl he')
  rw [← hwords, importedNames]
  simp only [List.map_append, List.map_cons, map_unparen (all_layout hb), map_unparen (all_layout hb'),
    map_unparen (all_listChars h), map_unparen (all_ending he), map_unparen (all_layout he'), List.append_assoc]
  rfl

theorem importedNames_star (hb : Layout false b) (he : Layout false e) : importedNames (b ++ '*' :: e) = [['*']] := by
  have hcomma : ',' ∉ b ++ '*' :: e := by
    have hbefore := hb.notMem (c := ',') rfl
    have hbehind := he.notMem (c := ',') rfl
    simp [hbefore, hbehind]
  have hhead := head?_words (x := ['*']) (r := e) hb.blanks (by simp) (by simp [isBlank])
    fun c hc => he.blanks c (List.mem_of_head? hc)
  have hflat : (b ++ '*' :: e).map (fun c => if c = '(' ∨ c = ')' then ' ' else c) = b ++ '*' :: e := by
    simp [map_unparen (all_layout hb), map_unparen (all_layout he)]
  rw [importedNames, hflat, splitOn_of_notMem hcomma]
  rw [List.singleton_append] at hhead
  simp [hhead]

/-! ### Statements -/

/-- The specifiers of a line. -/
def lineImports (line : Text) : List Text := (splitOn ';' line).flatMap statementImports

theorem lineImports_eq (h : ';' ∉ s) : lineImports s = statementImports s := by
  rw [lineImports, splitOn_of_notMem h, List.flatMap_singleton]

theorem lineImports_append (s t : Text) : lineImports (s ++ ';' :: t) = lineImports s ++ lineImports t := by
  rw [lineImports, splitOn_append_sep, List.flatMap_append, lineImports, lineImports]

theorem trimStart_blank_append (hb : Blank b) (s : Text) : trimStart (b ++ s) = trimStart s :=
  List.dropWhile_append_of_pos hb

theorem statementImports_blank_append (hb : Blank b) (s : Text) : statementImports (b ++ s) = statementImports s := by
  rw [statementImports, fromStatement?, trimStart_blank_append hb, statementImports, fromStatement?]

theorem importList?_append (hne : s ≠ []) : importList? ("import ".toList ++ s) = some (' ' :: s) := by
  obtain ⟨c, r, rfl⟩ := List.exists_cons_of_ne_nil hne
  rfl

theorem statementImports_import (hne : s ≠ []) : statementImports ("import ".toList ++ s) = importedNames (' ' :: s) := by
  have hfrom : fromStatement? ("import ".toList ++ s) = none := rfl
  have htrim : trimStart ("import ".toList ++ s) = "import ".toList ++ s := rfl
  rw [statementImports, hfrom, htrim, importList?_append hne]

theorem moduleName?_append (o : Origin) (hr : ∀ c ∈ r.head?, isLineBlank c = true) :
    moduleName? (o.text ++ r) = some o.text := by
  have hword : ∀ c ∈ o.text, (isWord c || c == '.') = true := by
    intro c hc
    have := o.all_chars c hc
    simp only [isModuleChar, isNameChar, Bool.or_eq_true] at this
    simp only [isWord, Bool.or_eq_true]
    rcases this with hname | hdot
    · exact .inl (.inl hname)
    · exact .inr hdot
  have hfirst : ∃ c s, o.text = c :: s ∧ (c == '.' || c == '_' || isLetter c) = true := by
    cases o with
    | relative level name? => exact ⟨'.', List.replicate level '.' ++ name?.elim [] Dotted.text, rfl, rfl⟩
    | absolute a =>
      obtain ⟨c, s, hs, hc, hdigit⟩ := a.exists_cons
      refine ⟨c, s, hs, ?_⟩
      simp only [isNameChar, hdigit, Bool.or_false, Bool.or_eq_true] at hc
      rcases hc with hc | hc <;> simp [hc]
  have hstop : r.takeWhile (fun c => isWord c || c == '.') = [] := by
    cases r with
    | nil => rfl
    | cons c r =>
      have := hr c rfl
      simp only [isLineBlank, Bool.or_eq_true, beq_iff_eq] at this
      rcases this with ((rfl | rfl) | rfl) | rfl <;> rfl
  obtain ⟨c, s, hs, hc⟩ := hfirst
  rw [hs] at hword ⊢
  have htake : (c :: s ++ r).takeWhile (fun c => isWord c || c == '.') = c :: s := by
    rw [List.takeWhile_append_of_pos hword, hstop, List.append_nil]
  rw [List.cons_append] at htake ⊢
  rw [moduleName?, if_pos hc, htake]

theorem afterBlanks?_append (hb : Blank b) (hne : b ≠ []) (hs : ∀ c ∈ s.head?, isBlank c = false) :
    afterBlanks? (b ++ s) = some s := by
  obtain ⟨c, b, rfl⟩ := List.exists_cons_of_ne_nil hne
  have hrest : (b ++ s).dropWhile isBlank = s := by
    rw [List.dropWhile_append_of_pos fun d hd => hb d (List.mem_cons_of_mem _ hd)]
    cases s with
    | nil => rfl
    | cons d s => exact List.dropWhile_cons_of_neg (by simp [hs d rfl])
  rw [List.cons_append, afterBlanks?, if_pos (hb c List.mem_cons_self), hrest]

theorem statementImports_from (o : Origin) (hb : Layout false b) (hbne : b ≠ []) (hne : s ≠ []) :
    statementImports ("from ".toList ++ (o.text ++ (b ++ ("import ".toList ++ s)))) =
      fromSpecifiers o.text (importedNames (' ' :: s)) := by
  have hword : after? "from".toList (trimStart ("from ".toList ++ (o.text ++ (b ++ ("import ".toList ++ s))))) =
      some ([' '] ++ (o.text ++ (b ++ ("import ".toList ++ s)))) := rfl
  have hmodule : moduleName? (o.text ++ (b ++ ("import ".toList ++ s))) = some o.text := by
    refine moduleName?_append o fun c hc => ?_
    obtain ⟨d, b, rfl⟩ := List.exists_cons_of_ne_nil hbne
    obtain rfl : d = c := by simpa using hc
    exact hb.lineBlanks d List.mem_cons_self
  have hblanks : afterBlanks? ([' '] ++ (o.text ++ (b ++ ("import ".toList ++ s)))) =
      some (o.text ++ (b ++ ("import ".toList ++ s))) := by
    refine afterBlanks?_append (by decide) (by simp) fun c hc => ?_
    obtain ⟨d, q, hq⟩ := List.exists_cons_of_ne_nil o.ne_nil
    obtain rfl : d = c := by simpa [hq] using hc
    have := lexical_of_plain (plain_origin o) d (by simp [hq])
    simp only [isLexical, Bool.and_eq_true, Bool.not_eq_true'] at this
    exact this.1.1
  have himport : afterBlanks? (b ++ ("import ".toList ++ s)) = some ("import ".toList ++ s) :=
    afterBlanks?_append hb.blanks hbne (by simp [isBlank])
  have hstatement : fromStatement? ("from ".toList ++ (o.text ++ (b ++ ("import ".toList ++ s)))) =
      some (o.text, ' ' :: s) := by
    rw [fromStatement?, hword]
    simp only [Option.bind_eq_bind, Option.bind_some, hblanks, hmodule, List.drop_left, himport, importList?_append hne]
  rw [statementImports, hstatement]

/-- A statement on one line gives what it imports. -/
theorem statementImports_spells {y : Import} (h : Spells (fun _ => Layout false) y s) (he : Layout false e) :
    statementImports (s ++ e) = y.specifiers := by
  have hspace : ∀ {w : Text}, Layout false w → Layout false (' ' :: w) := .blank rfl
  cases h with
  | @modules xs w s hw hs =>
    have hnames := importedNames_bare (hspace hw) hs he
    have htext : "import ".toList ++ (w ++ s) ++ e = "import ".toList ++ (w ++ (s ++ e)) := by simp
    rw [htext, statementImports_import (by obtain ⟨c, r, rfl, -⟩ := hs.opens; simp)]
    exact hnames
  | @everything o g w hg hne hw =>
    have hnames := importedNames_star (hspace hw) he
    have htext : "from ".toList ++ (o.text ++ (g ++ ("import ".toList ++ (w ++ ['*'])))) ++ e =
        "from ".toList ++ (o.text ++ (g ++ ("import ".toList ++ (w ++ '*' :: e)))) := by simp
    rw [htext, statementImports_from o hg hne (by simp), ← List.cons_append, hnames]
    exact o.fromSpecifiers_star
  | @bare o xs g w s hg hne hw hs =>
    have hnames := importedNames_bare (hspace hw) hs he
    have htext : "from ".toList ++ (o.text ++ (g ++ ("import ".toList ++ (w ++ s)))) ++ e =
        "from ".toList ++ (o.text ++ (g ++ ("import ".toList ++ (w ++ (s ++ e))))) := by simp
    rw [htext, statementImports_from o hg hne (by obtain ⟨c, r, rfl, -⟩ := hs.opens; simp), ← List.cons_append, hnames]
    exact o.fromSpecifiers_entries hs.ne_nil
  | @enclosed o xs g w w' s d hg hne hw hw' hs hd =>
    have hnames := importedNames_enclosed (hspace hw) hw' hs hd he
    have htext : "from ".toList ++ (o.text ++ (g ++ ("import ".toList ++ (w ++ '(' :: (w' ++ (s ++ (d ++ [')']))))))) ++ e =
        "from ".toList ++ (o.text ++ (g ++ ("import ".toList ++ (w ++ '(' :: (w' ++ (s ++ (d ++ ')' :: e))))))) := by simp
    rw [htext, statementImports_from o hg hne (by simp), ← List.cons_append, hnames]
    exact o.fromSpecifiers_entries hs.ne_nil

/-- No semicolon stands in a statement. -/
theorem semicolon_notMem {y : Import} (h : Spells (fun _ => Layout false) y s) : ';' ∉ s := by
  have hlayout : ∀ {w : Text}, Layout false w → ';' ∉ w := fun hw => hw.notMem rfl
  have horigin : ∀ o : Origin, ';' ∉ o.text := fun o hmem => absurd (o.all_chars _ hmem) (by decide)
  have hentries : ∀ {xs : List ImportEntry} {s : Text}, EntriesIn (Layout false) xs s → ';' ∉ s :=
    fun hs hmem => absurd (all_listChars hs _ hmem) (by decide)
  have hending : ∀ {e : Text}, Ending (Layout false) e → ';' ∉ e := fun he hmem => absurd (all_ending he _ hmem) (by decide)
  cases h with
  | modules hw hs => simp [hlayout hw, hentries hs]
  | everything o hg _ hw => simp [horigin o, hlayout hg, hlayout hw]
  | bare o hg _ hw hs => simp [horigin o, hlayout hg, hlayout hw, hentries hs]
  | enclosed o hg _ hw hw' hs he => simp [horigin o, hlayout hg, hlayout hw, hlayout hw', hentries hs, hending he]

/-- **A line gives what the statements between its semicolons import.** -/
theorem lineImports_chain {xs : List Import} (h : Chain (fun _ => Layout false) xs s) (hb : Layout false b) :
    lineImports (b ++ s) = xs.flatMap Import.specifiers := by
  have hone : ∀ {y : Import} {b s w : Text}, Layout false b → Spells (fun _ => Layout false) y s → Layout false w →
      lineImports (b ++ (s ++ w)) = y.specifiers := by
    intro y b s w hb h hw
    have hbefore := hb.notMem (c := ';') rfl
    have hbehind := hw.notMem (c := ';') rfl
    rw [lineImports_eq (by simp [hbefore, semicolon_notMem h, hbehind]), statementImports_blank_append hb.blanks,
      statementImports_spells h hw]
  induction h generalizing b with
  | one h => simpa using hone hb h .nil
  | @ended y s w h hw =>
    have htext : b ++ (s ++ (w ++ [';'])) = b ++ (s ++ w) ++ ';' :: [] := by simp
    have hnone : lineImports [] = [] := rfl
    rw [htext, lineImports_append, hone hb h hw, hnone]
    simp
  | @cons y ys s w w' r h hw hw' _ ih =>
    have htext : b ++ (s ++ (w ++ ';' :: (w' ++ r))) = b ++ (s ++ w) ++ ';' :: (w' ++ r) := by simp
    rw [htext, lineImports_append, hone hb h hw, ih hw', List.flatMap_cons]

/-! ### Sequences of logical lines -/

theorem beginsImport_cons_blank (hc : isLineBlank c = true) (x : Text) :
    beginsImport (clean (c :: x)) = beginsImport (clean x) := by
  rw [clean_cons_blank hc]
  split
  · rename_i h
    rw [h]
  · rw [beginsImport, beginsImport, trimStart, List.dropWhile_cons_of_pos (isBlank_of_isLineBlank hc)]
    rfl

/-- The first line of statements begins an import. -/
theorem beginsImport_chain {xs : List Import} (hb : Layout false b) (h : Chain Gap xs s) (r : Text) :
    beginsImport (clean (upTo '\n' (b ++ (s ++ r)))) = true := by
  rw [upTo_append (hb.notMem rfl)]
  generalize hi : false = inside at hb
  induction hb with
  | nil =>
    obtain ⟨word, q, hword, htext, hq⟩ := chain_opens h r
    have hspace : clean (upTo '\n' (' ' :: q)) = ' ' :: clean (upTo '\n' q) := by
      have hfirst : upTo '\n' (' ' :: q) = ' ' :: upTo '\n' q := rfl
      rw [hfirst, clean_cons_blank rfl, if_neg hq]
    rw [List.nil_append, htext]
    rcases hword with rfl | rfl
    all_goals
      rw [upTo_append (by decide), clean_lexemes (List.all_eq_true.1 rfl), hspace]
      rfl
  | blank hc _ ih =>
    rw [List.cons_append, beginsImport_cons_blank hc]
    exact ih hi
  | line | comment => cases hi

theorem joinLines_logicalLine {xs : List Import} (h : LogicalLine xs s) (rest : List Text) :
    ∃ line, joinLines .none (splitOn '\n' s ++ rest) = line :: joinLines .none rest ∧
      lineImports line = xs.flatMap Import.specifiers := by
  cases h with
  | blank he =>
    refine ⟨[], ?_, rfl⟩
    have hclean := clean_trailing he
    rw [clean] at hclean
    rw [splitOn_of_notMem he.notMem, List.singleton_append, joinLines, Pending.push, hclean]
    rfl
  | @statements xs b s e hb h he =>
    obtain ⟨u, hu, hchain⟩ := joins_chain h (joins_trailing he)
    obtain ⟨b', hb', -, hjoins⟩ := hchain.gap hb.gap (by simp) (lexed_chain h e)
    rw [List.append_nil] at hjoins
    exact ⟨b' ++ u, joinLines_joins hjoins (beginsImport_chain hb h e) rest, lineImports_chain hu hb'⟩

/-- **Scanning finds what a sequence of logical lines imports.** -/
theorem specifiers_program {xs : List Import} (h : Program xs s) : specifiers s = xs.flatMap Import.specifiers := by
  change (joinLines .none (lines s)).flatMap lineImports = _
  induction h with
  | last h =>
    rcases h.exists_concat with ⟨rfl, rfl⟩ | ⟨t, c, rfl, hc⟩
    · rfl
    · obtain ⟨line, hjoin, hline⟩ := joinLines_logicalLine h []
      rw [List.append_nil] at hjoin
      rw [joinLines_lines_concat .none hc, hjoin]
      simpa [joinLines, Pending.none] using hline
  | cons h _ ih =>
    obtain ⟨line, hjoin, hline⟩ := joinLines_logicalLine h (lines _)
    rw [joinLines_lines_append, hjoin, List.flatMap_cons, hline, ih, List.flatMap_append]

/-- In particular, what statements on lines of their own import. -/
theorem specifiers_source {xs : List Statement} (h : ImportTrail.Python.Source xs s) :
    specifiers s = xs.flatMap Statement.specifiers := by
  rw [specifiers_program h.program, List.flatMap_map]
  rfl

/-- **Scanning finds what a sequence of logical lines imports**, each specifier once and in the order of the text. -/
theorem imports_program {xs : List Import} (h : Program xs s) :
    Family.python.imports .scan s = distinct (xs.flatMap Import.specifiers) := by
  rw [Family.imports, specifiers_program h]

/-- A dotted name of one letter, possibly renamed. -/
def letterEntry (c : Char) (h : isName [c] = true) (alias? : Option Name) : ImportEntry := ⟨⟨⟨[c], h⟩, []⟩, alias?⟩

/-- A name on a line that is continued, a statement behind a semicolon, and names between parentheses on some lines. -/
def sampleImports : List Import :=
  [.modules [letterEntry 'g' rfl none, letterEntry 'h' rfl (some ⟨['i'], rfl⟩)], .everything (.relative 0 none),
    .members (.relative 1 (some ⟨⟨['j'], rfl⟩, []⟩)) [letterEntry 'k' rfl none, letterEntry 'l' rfl none],
    .members (.absolute ⟨⟨"__future__".toList, rfl⟩, []⟩) [letterEntry 'o' rfl none], .modules [letterEntry 'h' rfl none]]

def sampleProgram : Text :=
  " import g, \\\n h as i; from . import * # (".toList ++ '\n' :: ("from ..j import ( # ) \\\n\n k, l\n,)".toList ++ '\n' ::
    "from __future__ import o; import h;".toList)

theorem sampleProgram_spelled : Program sampleImports sampleProgram := by
  have hspace : ∀ {inside : Bool}, Gap inside [' '] := .blank rfl .nil
  have hblank : Layout false [' '] := .blank rfl .nil
  have hcontinued : Gap false " \\\n ".toList := .blank rfl (.continued (b := []) .nil hspace)
  have hfirst : LogicalLine [_, _] " import g, \\\n h as i; from . import * # (".toList :=
    .statements hblank (.cons (w := [])
      (.modules (w := []) .nil (.cons (w := []) (.plain ⟨⟨['g'], rfl⟩, []⟩) .nil hcontinued
        (.one (.renamed ⟨⟨['h'], rfl⟩, []⟩ ⟨['i'], rfl⟩ hspace (by decide) hspace (by decide))))) .nil hspace
      (.one (.everything (.relative 0 none) (w := []) hspace (by decide) .nil)))
      (.comment (x := " (".toList) hblank (by decide))
  have hcomment : Gap true " # ) \\\n\n ".toList :=
    .blank rfl (.comment (x := " ) \\".toList) (by decide) (.line hspace))
  have hsecond : LogicalLine [_] "from ..j import ( # ) \\\n\n k, l\n,)".toList :=
    .statements (b := []) (e := []) .nil (.one (.enclosed (.relative 1 (some ⟨⟨['j'], rfl⟩, []⟩)) (w := []) hspace
      (by decide) .nil hcomment (.cons (w := []) (.plain ⟨⟨['k'], rfl⟩, []⟩) .nil hspace (.one (.plain ⟨⟨['l'], rfl⟩, []⟩)))
      (.comma (b := ['\n']) (e := []) (.line .nil) .nil))) (.blanks .nil)
  have hthird : LogicalLine [_, _] "from __future__ import o; import h;".toList :=
    .statements (b := []) (e := []) .nil (.cons (w := [])
      (.bare (.absolute ⟨⟨"__future__".toList, rfl⟩, []⟩) (w := []) hspace (by decide) .nil
        (.one (.plain ⟨⟨['o'], rfl⟩, []⟩)))
      .nil hspace (.ended (w := []) (.modules (w := []) .nil (.one (.plain ⟨⟨['h'], rfl⟩, []⟩))) .nil)) (.blanks .nil)
  exact .cons hfirst (.cons hsecond (.last hthird))

theorem imports_sampleProgram :
    Family.python.imports .scan sampleProgram = ["g", "h", ".", "..j.k", "..j.l", "__future__"].map String.toList := by
  rw [imports_program sampleProgram_spelled]
  decide

end ImportTrail.Scan.Python
