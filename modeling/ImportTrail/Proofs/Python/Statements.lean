import ImportTrail.Imports
import ImportTrail.Proofs.UseTree.Expansion

/-!
Import statements of Python, each of which begins on a line of its own.

* `Name`, `Dotted`, `Origin`, `ImportEntry`, `Import` — an import statement and what it is made of;
* `Import.specifiers` — what a statement imports;
* `Module`, `Statement` — those whose `from` names a module, which some words may not;
* `Layout` — blanks, and between parentheses also comments and ends of lines;
* `Written`, `Source` — the texts of a statement and of a sequence of statements;
* `Origin.fromSpecifiers_entries` — what a module and the names imported from it stand for.
-/

namespace ImportTrail.Python

open Text UseTree

/-! ### Statements -/

/-- A character of a name. -/
def isNameChar (c : Char) : Bool := isLetter c || isDigit c || c == '_'

/-- An ASCII identifier. -/
def isName : Text → Bool
  | c :: s => isNameChar c && !isDigit c && s.all isNameChar
  | [] => false

structure Name where
  text : Text
  named : isName text = true

/-- Names with dots between. -/
structure Dotted where
  first : Name
  rest : List Name

/-- The names behind the first one, each with its dot. -/
def dottedTail (names : List Name) : Text := names.flatMap fun x => '.' :: x.text

def Dotted.text (d : Dotted) : Text := d.first.text ++ dottedTail d.rest

/-- The module of a `from`: a dotted name, or some dots and possibly a dotted name. -/
inductive Origin where
  | absolute (name : Dotted)
  | relative (level : ℕ) (name? : Option Dotted)

/-- The dots of a relative module. -/
def dots (level : ℕ) : Text := List.replicate (level + 1) '.'

def Origin.text : Origin → Text
  | absolute name => name.text
  | relative level name? => dots level ++ name?.elim [] Dotted.text

/-- The name `__future__` does not stand for a module, and behind dots the word `import` is not a name. -/
def Origin.IsModule : Origin → Prop
  | absolute name => name.text ≠ "__future__".toList
  | relative _ name? => ∀ d ∈ name?, d.first.text ≠ "import".toList

/-- The name begins with `__future__`, which is not read as a module. -/
def Origin.isFuture : Origin → Bool
  | absolute name => name.first.text == "__future__".toList
  | relative .. => false

/-- An imported module or name, possibly under another name. -/
structure ImportEntry where
  name : Dotted
  alias? : Option Name

inductive Import where
  /-- `import` -/
  | modules (entries : List ImportEntry)
  /-- `from` with a star -/
  | everything (origin : Origin)
  /-- `from` with names -/
  | members (origin : Origin) (entries : List ImportEntry)

/-- What it imports: modules by their names, and of a relative module each member that is named. An absolute module
counts as a whole, and so does a relative one with a star. -/
def Import.specifiers : Import → List Text
  | modules entries => entries.map fun x => x.name.text
  | everything origin => [origin.text]
  | members (.absolute name) _ => [name.text]
  | members (.relative level none) entries => entries.map fun x => dots level ++ x.name.text
  | members (.relative level (some d)) entries => entries.map fun x => dots level ++ d.text ++ '.' :: x.name.text

def Import.origin? : Import → Option Origin
  | modules _ => none
  | everything origin | members origin _ => some origin

/-! ### Statements that name modules -/

/-- The module of a `from` that does stand for a module. -/
structure Module where
  origin : Origin
  isModule : origin.IsModule

namespace Module

def absolute (name : Dotted) (h : name.text ≠ "__future__".toList) : Module := ⟨.absolute name, h⟩

def relative (level : ℕ) (name? : Option Dotted) (h : ∀ d ∈ name?, d.first.text ≠ "import".toList) : Module :=
  ⟨.relative level name?, h⟩

def text (m : Module) : Text := m.origin.text

end Module

/-- An import statement whose `from` names a module. -/
structure Statement where
  toImport : Import
  isModule : ∀ o ∈ toImport.origin?, o.IsModule

namespace Statement

def modules (entries : List ImportEntry) : Statement := ⟨.modules entries, fun _ h => nomatch h⟩

def everything (m : Module) : Statement := ⟨.everything m.origin, fun _ h => Option.some.inj h ▸ m.isModule⟩

def members (m : Module) (entries : List ImportEntry) : Statement :=
  ⟨.members m.origin entries, fun _ h => Option.some.inj h ▸ m.isModule⟩

/-- What a statement imports. -/
def specifiers (x : Statement) : List Text := x.toImport.specifiers

/-- Its module begins with `__future__`. -/
def isFuture (x : Statement) : Bool := x.toImport.origin?.any Origin.isFuture

end Statement

/-! ### Texts of statements -/

/-- A blank on a line. -/
def isLineBlank (c : Char) : Bool := c == ' ' || c == '\t' || c == '\r' || c == '\x0c'

/-- What may stand between two lexemes: blanks, and inside of parentheses also comments and ends of lines. -/
inductive Layout : Bool → Text → Prop
  | nil {inside : Bool} : Layout inside []
  | blank {inside : Bool} {c : Char} {w : Text} : isLineBlank c = true → Layout inside w → Layout inside (c :: w)
  | line {w : Text} : Layout true w → Layout true ('\n' :: w)
  | comment {x w : Text} : '\n' ∉ x → Layout true w → Layout true ('#' :: (x ++ '\n' :: w))

/-- What may stand behind a statement on its last line. -/
inductive Trailing : Text → Prop
  | blanks {b : Text} : Layout false b → Trailing b
  | comment {b x : Text} : Layout false b → '\n' ∉ x → Trailing (b ++ '#' :: x)

/-- The texts of an entry, for the gaps between its words. -/
inductive EntryIn (gap : Text → Prop) : ImportEntry → Text → Prop
  | plain (name : Dotted) : EntryIn gap ⟨name, none⟩ name.text
  | renamed (name : Dotted) (x : Name) {w w' : Text} : gap w → w ≠ [] → gap w' → w' ≠ [] →
      EntryIn gap ⟨name, some x⟩ (name.text ++ (w ++ ("as".toList ++ (w' ++ x.text))))

/-- The texts of entries with commas between, for the gaps that may stand around the commas. -/
inductive EntriesIn (gap : Text → Prop) : List ImportEntry → Text → Prop
  | one {x : ImportEntry} {s : Text} : EntryIn gap x s → EntriesIn gap [x] s
  | cons {x : ImportEntry} {xs : List ImportEntry} {s w w' r : Text} : EntryIn gap x s → gap w → gap w' →
      EntriesIn gap xs r → EntriesIn gap (x :: xs) (s ++ (w ++ ',' :: (w' ++ r)))

/-- The texts of a statement. In parentheses, a comma may stand behind the last entry. -/
inductive Written : Statement → Text → Prop
  | modules {xs : List ImportEntry} {s : Text} : EntriesIn (Layout false) xs s → Written (.modules xs) ("import ".toList ++ s)
  | everything (m : Module) : Written (.everything m) ("from ".toList ++ (m.text ++ " import *".toList))
  | bare (m : Module) {xs : List ImportEntry} {s : Text} : EntriesIn (Layout false) xs s →
      Written (.members m xs) ("from ".toList ++ (m.text ++ (" import ".toList ++ s)))
  | enclosed (m : Module) {xs : List ImportEntry} {w s e : Text} : Layout true w → EntriesIn (Layout true) xs s →
      Ending (Layout true) e →
      Written (.members m xs) ("from ".toList ++ (m.text ++ (" import (".toList ++ (w ++ (s ++ (e ++ [')']))))))

/-- A statement with the rest of its last line, or a line without a statement. -/
inductive Line : List Statement → Text → Prop
  | blank {e : Text} : Trailing e → Line [] e
  | statement {x : Statement} {s e : Text} : Written x s → Trailing e → Line [x] (s ++ e)

/-- The texts of some statements. The last line may end or not. -/
inductive Source : List Statement → Text → Prop
  | last {xs : List Statement} {s : Text} : Line xs s → Source xs s
  | cons {xs ys : List Statement} {s r : Text} : Line xs s → Source ys r → Source (xs ++ ys) (s ++ '\n' :: r)

/-! ### Names -/

variable {c : Char} {s w r x e : Text} {inside : Bool}

theorem toNat_of_isNameChar (h : isNameChar c = true) : 48 ≤ c.toNat ∧ c.toNat < 123 := by
  simp only [isNameChar, isLetter, isDigit, Bool.or_eq_true, Bool.and_eq_true, decide_eq_true_eq, beq_iff_eq, Char.le_def,
    UInt32.le_iff_toNat_le] at h
  change 48 ≤ c.val.toNat ∧ c.val.toNat < 123
  rcases h with ((h | h) | h) | rfl
  · have : ('a' : Char).val.toNat = 97 ∧ ('z' : Char).val.toNat = 122 := ⟨rfl, rfl⟩
    omega
  · have : ('A' : Char).val.toNat = 65 ∧ ('Z' : Char).val.toNat = 90 := ⟨rfl, rfl⟩
    omega
  · have : ('0' : Char).val.toNat = 48 ∧ ('9' : Char).val.toNat = 57 := ⟨rfl, rfl⟩
    omega
  · decide

theorem isBlank_of_isNameChar (h : isNameChar c = true) : isBlank c = false := by
  have hc := toNat_of_isNameChar h
  simp only [isBlank, Bool.or_eq_false_iff, Bool.and_eq_false_iff, decide_eq_false_iff_not, beq_eq_false_iff_ne]
  omega

theorem Name.ne_nil (x : Name) : x.text ≠ [] := by
  intro h
  have := x.named
  rw [h] at this
  cases this

theorem Name.exists_cons (x : Name) :
    ∃ c s, x.text = c :: s ∧ isNameChar c = true ∧ isDigit c = false ∧ ∀ d ∈ s, isNameChar d = true := by
  obtain ⟨c, s, hs⟩ := List.exists_cons_of_ne_nil x.ne_nil
  have := x.named
  simp only [hs, isName, Bool.and_eq_true, Bool.not_eq_true', List.all_eq_true] at this
  exact ⟨c, s, hs, this.1.1, this.1.2, this.2⟩

theorem Name.all_chars (x : Name) : ∀ c ∈ x.text, isNameChar c = true := by
  obtain ⟨c, s, hs, hc, -, hrest⟩ := x.exists_cons
  rw [hs]
  exact List.forall_mem_cons.2 ⟨hc, hrest⟩

theorem Name.exists_concat (x : Name) : ∃ s c, x.text = s ++ [c] ∧ isNameChar c = true := by
  rcases List.eq_nil_or_concat x.text with h | ⟨s, c, h⟩
  · exact absurd h x.ne_nil
  · rw [List.concat_eq_append] at h
    exact ⟨s, c, h, x.all_chars c (by simp [h])⟩

theorem dottedTail_cons (x : Name) (names : List Name) :
    dottedTail (x :: names) = '.' :: (x.text ++ dottedTail names) := by
  simp [dottedTail]

theorem Dotted.exists_cons (d : Dotted) : ∃ c s, d.text = c :: s ∧ isNameChar c = true ∧ isDigit c = false := by
  obtain ⟨c, s, hs, hc, hdigit, -⟩ := d.first.exists_cons
  exact ⟨c, s ++ dottedTail d.rest, by rw [Dotted.text, hs]; rfl, hc, hdigit⟩

theorem Dotted.ne_nil (d : Dotted) : d.text ≠ [] := by
  obtain ⟨c, s, hs, -⟩ := d.exists_cons
  simp [hs]

theorem Dotted.exists_concat (d : Dotted) : ∃ s c, d.text = s ++ [c] ∧ isNameChar c = true := by
  rcases List.eq_nil_or_concat d.rest with h | ⟨names, y, h⟩
  · obtain ⟨s, c, hs, hc⟩ := d.first.exists_concat
    exact ⟨s, c, by rw [Dotted.text, h, hs]; simp [dottedTail], hc⟩
  · obtain ⟨s, c, hs, hc⟩ := y.exists_concat
    refine ⟨d.first.text ++ (dottedTail names ++ '.' :: s), c, ?_, hc⟩
    rw [Dotted.text, h]
    simp [dottedTail, hs]

/-- A character of a module. -/
def isModuleChar (c : Char) : Bool := isNameChar c || c == '.'

theorem Dotted.all_chars (d : Dotted) : ∀ c ∈ d.text, isModuleChar c = true := by
  have hname : ∀ (x : Name), ∀ c ∈ x.text, isModuleChar c = true := by
    intro x c hc
    simp [isModuleChar, x.all_chars c hc]
  intro c hc
  simp only [Dotted.text, dottedTail, List.mem_append, List.mem_flatMap, List.mem_cons] at hc
  rcases hc with hc | ⟨x, -, rfl | hc⟩
  · exact hname d.first c hc
  · rfl
  · exact hname x c hc

theorem Origin.all_chars (o : Origin) : ∀ c ∈ o.text, isModuleChar c = true := by
  intro c hc
  cases o with
  | absolute name => exact name.all_chars c hc
  | relative level name? =>
    simp only [Origin.text, dots, List.mem_append, List.mem_replicate] at hc
    rcases hc with ⟨-, rfl⟩ | hc
    · rfl
    · cases name? with
      | none => cases hc
      | some d => exact d.all_chars c hc

theorem Origin.ne_nil (o : Origin) : o.text ≠ [] := by
  cases o with
  | absolute name => exact name.ne_nil
  | relative level name? => simp [Origin.text, dots]

/-! ### Layout -/

theorem isBlank_of_isLineBlank (h : isLineBlank c = true) : isBlank c = true := by
  simp only [isLineBlank, Bool.or_eq_true, beq_iff_eq] at h
  rcases h with ((rfl | rfl) | rfl) | rfl <;> rfl

theorem Layout.lineBlanks (h : Layout false w) : ∀ c ∈ w, isLineBlank c = true := by
  generalize hi : false = inside at h
  induction h with
  | nil => simp
  | blank hc _ ih => exact List.forall_mem_cons.2 ⟨hc, ih hi⟩
  | line | comment => cases hi

theorem Layout.blanks (h : Layout false w) : Blank w := fun c hc => isBlank_of_isLineBlank (h.lineBlanks c hc)

theorem Layout.notMem (h : Layout false w) (hc : isLineBlank c = false) : c ∉ w := by
  intro hmem
  rw [h.lineBlanks c hmem] at hc
  cases hc

theorem Layout.append (h : Layout inside w) (hx : Layout inside x) : Layout inside (w ++ x) := by
  induction h with
  | nil => exact hx
  | blank hc _ ih => exact .blank hc (ih hx)
  | line _ ih => exact .line (ih hx)
  | @comment y w hy _ ih =>
    rw [List.cons_append, List.append_assoc, List.cons_append]
    exact .comment hy (ih hx)

theorem Layout.loosen (h : Layout inside w) : Layout true w := by
  induction h with
  | nil => exact .nil
  | blank hc _ ih => exact .blank hc ih
  | line _ ih => exact .line ih
  | comment hx _ ih => exact .comment hx ih

/-- With its end, the rest of a line is layout in front of the next statement. -/
theorem Trailing.layout (h : Trailing e) : Layout true (e ++ ['\n']) := by
  cases h with
  | blanks hb => exact hb.loosen.append (.line .nil)
  | @comment b x hb hx =>
    rw [List.append_assoc]
    exact hb.loosen.append (.comment hx .nil)

/-! ### Entries -/

section Entries

variable {gap gap' : Text → Prop} {xs : List ImportEntry}

theorem EntryIn.mono (h : ∀ w, gap w → gap' w) {y : ImportEntry} (hs : EntryIn gap y s) : EntryIn gap' y s := by
  cases hs with
  | plain name => exact .plain name
  | renamed name z hw hne hw' hne' => exact .renamed name z (h _ hw) hne (h _ hw') hne'

theorem EntriesIn.mono (h : ∀ w, gap w → gap' w) (hs : EntriesIn gap xs s) : EntriesIn gap' xs s := by
  induction hs with
  | one hs => exact .one (hs.mono h)
  | cons hs hw hw' _ ih => exact .cons (hs.mono h) (h _ hw) (h _ hw') ih

theorem EntriesIn.ne_nil (h : EntriesIn gap xs s) : xs ≠ [] := by
  cases h <;> simp

theorem EntriesIn.opens (h : EntriesIn gap xs s) : ∃ c r, s = c :: r ∧ isNameChar c = true := by
  have hentry : ∀ {y : ImportEntry} {s : Text}, EntryIn gap y s → ∃ c r, s = c :: r ∧ isNameChar c = true := by
    intro y s h
    obtain ⟨c, q, hq, hc, -⟩ := y.name.exists_cons
    cases h with
    | plain => exact ⟨c, q, hq, hc⟩
    | renamed => exact ⟨c, _, by rw [hq]; rfl, hc⟩
  cases h with
  | one h => exact hentry h
  | cons h =>
    obtain ⟨c, r, rfl, hc⟩ := hentry h
    exact ⟨c, _, rfl, hc⟩

theorem EntriesIn.exists_concat (h : EntriesIn gap xs s) : ∃ r c, s = r ++ [c] ∧ isNameChar c = true := by
  have hentry : ∀ {y : ImportEntry} {s : Text}, EntryIn gap y s → ∃ r c, s = r ++ [c] ∧ isNameChar c = true := by
    intro y s h
    cases h with
    | plain d => exact d.exists_concat
    | @renamed d z w w' =>
      obtain ⟨r, c, hr, hc⟩ := z.exists_concat
      exact ⟨d.text ++ (w ++ ("as".toList ++ (w' ++ r))), c, by simp [hr], hc⟩
  induction h with
  | one h => exact hentry h
  | @cons y ys s w w' r h _ _ _ ih =>
    obtain ⟨q, c, rfl, hc⟩ := ih
    exact ⟨s ++ (w ++ ',' :: (w' ++ q)), c, by simp, hc⟩

end Entries

/-! ### Specifiers of a module -/

theorem startsWith_dots (level : ℕ) (s : Text) : startsWith (dots level ++ s) ['.'] = true := by
  simp [dots, List.replicate_succ, startsWith, after?]

theorem Dotted.startsWith_dot (d : Dotted) : startsWith d.text ['.'] = false := by
  obtain ⟨c, s, hs, hc, -⟩ := d.exists_cons
  have hne : '.' ≠ c := by
    rintro rfl
    cases hc
  simp [hs, startsWith, after?, hne]

/-- A star stands for the whole module. -/
theorem Origin.fromSpecifiers_star (o : Origin) :
    Scan.Python.fromSpecifiers o.text [['*']] = (Import.everything o).specifiers := by
  simp [Scan.Python.fromSpecifiers, Import.specifiers]

theorem Origin.fromSpecifiers_entries (o : Origin) {xs : List ImportEntry} (hne : xs ≠ []) :
    Scan.Python.fromSpecifiers o.text (xs.map fun x => x.name.text) = (Import.members o xs).specifiers := by
  have hstar : ['*'] ∉ xs.map fun x => x.name.text := by
    intro h
    obtain ⟨x, -, hx⟩ := List.mem_map.1 h
    exact absurd (x.name.all_chars '*' (by simp [hx])) (by decide)
  have hnames : ((xs.map fun x => x.name.text).isEmpty || (xs.map fun x => x.name.text).contains ['*']) = false := by
    rw [Bool.or_eq_false_iff]
    refine ⟨by simpa using hne, ?_⟩
    rw [Bool.eq_false_iff, ne_eq, List.contains_iff_mem]
    exact hstar
  cases o with
  | absolute name =>
    rw [Scan.Python.fromSpecifiers, Origin.text, name.startsWith_dot]
    rfl
  | relative level name? =>
    rw [Scan.Python.fromSpecifiers, Origin.text, startsWith_dots, hnames]
    cases name? with
    | none =>
      have hall : (dots level).all (· == '.') = true := by simp [dots]
      simp [Import.specifiers, hall]
    | some d =>
      have hall : (dots level ++ d.text).all (· == '.') = false := by
        obtain ⟨c, s, hs, hc, -⟩ := d.exists_cons
        have hne : c ≠ '.' := by
          rintro rfl
          cases hc
        simp [hs, hne]
      simp [Import.specifiers, hall]

end ImportTrail.Python
