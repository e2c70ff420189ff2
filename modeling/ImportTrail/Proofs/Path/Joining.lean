import ImportTrail.Proofs.Path.Stack
import ImportTrail.Proofs.Resolve.Directory

/-!
Paths written in a directory. They are read on a stack of names, those of the directory first, and so a path may be
written in one step or in several.

* `follow_append`, `follow_eq_none_iff` — pieces are read part by part, and only a climb from an empty stack fails;
* `resolve?_eq_follow` — cleaning a path that is written in a directory is the stack machine on the pieces of both;
* `follow_splitOn_ofNames` — the path of some names is read as these names;
* `resolve?_resolve?` — what is written in the directory of another path can be written behind that path;
* `normalize?_normalize?` — a normalized path is its own normal form;
* `resolve?_stackMachine` — all of this together.
-/

namespace ImportTrail.Path

open Text

variable {base p q m n : Text} {ns st pieces : List Text}

/-! ### The stack machine -/

theorem follow_append (st as bs : List Text) :
    follow st (as ++ bs) = (follow st as).bind fun ns => follow ns.reverse bs := by
  induction as generalizing st with
  | nil => simp [follow]
  | cons piece as ih =>
    rw [List.cons_append, follow, follow]
    split
    · exact ih st
    · split
      · cases st with
        | nil => rfl
        | cons n st => exact ih st
      · exact ih (piece :: st)

/-- Some climb is read when no name is left to take. -/
def ClimbsOut (pieces : List Text) : Prop :=
  ∃ front rest, pieces = front ++ ['.', '.'] :: rest ∧ follow [] front = some []

/-- Reading fails with the first climb from an empty stack, and with nothing else. -/
theorem follow_eq_none_iff :
    follow st pieces = none ↔ ∃ front rest, pieces = front ++ ['.', '.'] :: rest ∧ follow st front = some [] := by
  constructor
  · intro h
    induction pieces generalizing st with
    | nil => cases h
    | cons piece pieces ih =>
      rw [follow] at h
      split at h
      · rename_i hidle
        obtain ⟨front, rest, rfl, hfront⟩ := ih h
        exact ⟨piece :: front, rest, rfl, by rw [follow, if_pos hidle, hfront]⟩
      · rename_i hidle
        split at h
        · rename_i hup
          cases st with
          | nil => exact ⟨[], pieces, by rw [hup]; rfl, rfl⟩
          | cons n st =>
            obtain ⟨front, rest, rfl, hfront⟩ := ih h
            exact ⟨piece :: front, rest, rfl, by rw [follow, if_neg hidle, if_pos hup]; exact hfront⟩
        · rename_i hup
          obtain ⟨front, rest, rfl, hfront⟩ := ih h
          exact ⟨piece :: front, rest, rfl, by rw [follow, if_neg hidle, if_neg hup, hfront]⟩
  · rintro ⟨front, rest, rfl, hfront⟩
    rw [follow_append, hfront]
    rfl

theorem isPlain_of_follow (h : follow st pieces = some ns) (hn : n ∈ ns) : n ∈ st ∨ IsPlain n := by
  induction pieces generalizing st with
  | nil =>
    obtain rfl := Option.some.inj h
    exact Or.inl (List.mem_reverse.1 hn)
  | cons piece pieces ih =>
    rw [follow] at h
    split at h
    · exact ih h
    · rename_i hidle
      split at h
      · cases st with
        | nil => cases h
        | cons k st => exact (ih h).imp_left (List.mem_cons_of_mem _)
      · rename_i hup
        rcases ih h with hst | hplain
        · rcases List.mem_cons.1 hst with rfl | hst
          exacts [Or.inr ⟨fun e => hidle (Or.inl e), fun e => hidle (Or.inr e), hup⟩, Or.inl hst]
        · exact Or.inr hplain

/-- What is left of the pieces of two texts are names. -/
theorem isName_of_follow (h : follow [] (splitOn '/' base ++ splitOn '/' p) = some ns) : ∀ n ∈ ns, IsName n := by
  intro n hn
  refine ⟨(isPlain_of_follow h hn).resolve_left List.not_mem_nil, ?_⟩
  have hpiece : n ∈ splitOn '/' base ++ splitOn '/' p := follow_subset h hn
  exact (List.mem_append.1 hpiece).elim notMem_of_mem_splitOn notMem_of_mem_splitOn

theorem follow_names (st : List Text) (h : ∀ n ∈ ns, IsPlain n) : follow st ns = some (st.reverse ++ ns) := by
  induction ns generalizing st with
  | nil => simp [follow]
  | cons n ns ih =>
    obtain ⟨hnil, hdot, hup⟩ := h n List.mem_cons_self
    rw [follow, if_neg (by simp [hnil, hdot]), if_neg hup, ih (n :: st) fun k hk => h k (List.mem_cons_of_mem _ hk)]
    simp

/-- The path of some names is read as these names. The empty path has one empty piece, which is skipped. -/
theorem follow_splitOn_ofNames (h : ∀ n ∈ ns, IsName n) : follow [] (splitOn '/' (ofNames ns)) = some ns := by
  rcases eq_or_ne ns [] with rfl | hne
  · rfl
  · rw [ofNames, splitOn_joinWith hne fun n hn => (h n hn).2]
    exact follow_names [] fun n hn => (h n hn).1

/-! ### Paths in a directory -/

theorem resolve?_nil_append (base p : Text) : resolve? [] (append base p) = resolve? base p := by
  have happend : append [] (append base p) = append base p := by simp [append]
  rw [resolve?, happend, resolve?]

/-- A relative path is relative where its base is. -/
theorem isAbsolute_append (hp : isAbsolute p = false) : isAbsolute (append base p) = isAbsolute base := by
  rcases eq_or_ne base [] with rfl | hne
  · rw [append, if_pos (by simp), hp]
    rfl
  · unfold append
    rw [if_neg (by simp [hp, hne])]
    split
    · exact isAbsolute_append_text hne p
    · exact isAbsolute_append_text hne ('/' :: p)

/-- However the base ends, the pieces of the whole are read like those of the two parts. -/
theorem follow_splitOn_append (hp : isAbsolute p = false) (st : List Text) :
    follow st (splitOn '/' (append base p)) = follow st (splitOn '/' base ++ splitOn '/' p) := by
  unfold append
  rcases eq_or_ne base [] with rfl | hbase
  · rw [if_pos (by simp)]
    rfl
  · rw [if_neg (by simp [hp, hbase])]
    split
    · rename_i hend
      obtain ⟨b, hb⟩ := Option.isSome_iff_exists.1 hend
      -- the empty piece behind the last slash of the base is skipped
      have hskip : ∀ ns : List Text, follow ns.reverse (splitOn '/' []) = some ns := by simp [splitOn, follow]
      rw [before?_eq_some.1 hb, List.append_assoc, List.singleton_append, splitOn_append_sep, splitOn_append_sep,
        List.append_assoc, follow_append, follow_append]
      simp only [follow_append, hskip, Option.bind_some]
    · rw [splitOn_append_sep]

/-- **Cleaning a path that is written in a directory is the stack machine** on the pieces of the directory and then on
those of the path. -/
theorem resolve?_eq_follow (hbase : isAbsolute base = false) (hp : isAbsolute p = false) :
    resolve? base p = (follow [] (splitOn '/' base ++ splitOn '/' p)).map ofNames := by
  have hrel : isAbsolute (append base p) = false := by rw [isAbsolute_append hp, hbase]
  rw [resolve?, clean_components hrel, names?_clean_body, follow_splitOn_append hp]

theorem resolve?_of_isAbsolute_base (hbase : isAbsolute base = true) (p : Text) : resolve? base p = none := by
  by_cases hp : isAbsolute p = true
  · exact resolve?_of_isAbsolute hp
  · rw [Bool.not_eq_true] at hp
    rw [← resolve?_nil_append]
    exact resolve?_of_isAbsolute (by rw [isAbsolute_append hp, hbase])

theorem resolve?_eq_some_iff :
    resolve? base p = some q ↔ isAbsolute p = false ∧ isAbsolute base = false ∧
      ∃ ns, follow [] (splitOn '/' base ++ splitOn '/' p) = some ns ∧ q = ofNames ns := by
  by_cases hp : isAbsolute p = true
  · simp [resolve?_of_isAbsolute hp, hp]
  · rw [Bool.not_eq_true] at hp
    by_cases hbase : isAbsolute base = true
    · simp [resolve?_of_isAbsolute_base hbase, hbase]
    · rw [Bool.not_eq_true] at hbase
      rw [resolve?_eq_follow hbase hp, Option.map_eq_some_iff]
      simp only [hp, hbase, true_and, eq_comm]

theorem resolve?_eq_none_iff :
    resolve? base p = none ↔
      isAbsolute p = true ∨ isAbsolute base = true ∨ ClimbsOut (splitOn '/' base ++ splitOn '/' p) := by
  by_cases hp : isAbsolute p = true
  · simp [resolve?_of_isAbsolute hp, hp]
  · by_cases hbase : isAbsolute base = true
    · simp [resolve?_of_isAbsolute_base hbase, hbase]
    · rw [Bool.not_eq_true] at hp hbase
      rw [resolve?_eq_follow hbase hp, Option.map_eq_none_iff, follow_eq_none_iff]
      simp [hp, hbase, ClimbsOut]

/-- The names of a cleaned path. -/
theorem exists_names_of_resolve? (h : resolve? base p = some q) :
    ∃ ns, follow [] (splitOn '/' base ++ splitOn '/' p) = some ns ∧ q = ofNames ns ∧ ∀ n ∈ ns, IsName n := by
  obtain ⟨-, -, ns, hns, hq⟩ := resolve?_eq_some_iff.1 h
  exact ⟨ns, hns, hq, isName_of_follow hns⟩

theorem isAbsolute_of_resolve? (h : resolve? base p = some q) : isAbsolute q = false := by
  rcases resolve?_canonical h with rfl | hcan
  exacts [rfl, hcan.2.1]

/-- **What is written in the directory of another path can be written behind that path.** -/
theorem resolve?_resolve? {c : Text} (h : resolve? base p = some m) (hne : p ≠ []) (hc : isAbsolute c = false) :
    resolve? m c = resolve? base (p ++ '/' :: c) := by
  obtain ⟨hp, hbase, -⟩ := resolve?_eq_some_iff.1 h
  have hpc : isAbsolute (p ++ '/' :: c) = false := by rw [isAbsolute_append_text hne, hp]
  have hm := isAbsolute_of_resolve? h
  obtain ⟨ns, hns, rfl, hnames⟩ := exists_names_of_resolve? h
  rw [resolve?_eq_follow hm hc, resolve?_eq_follow hbase hpc, splitOn_append_sep, ← List.append_assoc, follow_append,
    follow_append, follow_splitOn_ofNames hnames, hns]

/-- **A normalized path is its own normal form**, and no backslash is left in it. -/
theorem normalize?_normalize? (h : normalize? p = some q) : normalize? q = some q ∧ '\\' ∉ q := by
  have hback : '\\' ∉ q := by
    intro hmem
    obtain ⟨ns, hns, rfl, -⟩ := exists_names_of_resolve? h
    obtain ⟨n, hn, hc⟩ := (mem_joinWith (by decide)).1 hmem
    have hpiece : n ∈ splitOn '/' [] ++ splitOn '/' (replace '\\' '/' p) := follow_subset hns hn
    rcases List.mem_append.1 hpiece with hnil | hp
    · cases mem_of_mem_splitOn hnil hc
    · exact notMem_replace (by decide) p (mem_of_mem_splitOn hp hc)
  have hq := isAbsolute_of_resolve? h
  refine ⟨?_, hback⟩
  obtain ⟨ns, -, rfl, hnames⟩ := exists_names_of_resolve? h
  rw [normalize?, replace_of_notMem hback, resolve?_eq_some_iff]
  exact ⟨hq, rfl, ns, follow_splitOn_ofNames hnames, rfl⟩

/-- **Joining paths is the stack machine.** There is no answer exactly for an absolute path, an absolute base and a climb
from an empty stack; any other answer is the final stack. So every component of an answer is a name, paths can be joined in
one step or in two, and a normalized path stays as it is. -/
theorem resolve?_stackMachine (base p : Text) :
    (resolve? base p = none ↔
      isAbsolute p = true ∨ isAbsolute base = true ∨ ClimbsOut (splitOn '/' base ++ splitOn '/' p)) ∧
    (∀ q, resolve? base p = some q ↔ isAbsolute p = false ∧ isAbsolute base = false ∧
      ∃ ns, follow [] (splitOn '/' base ++ splitOn '/' p) = some ns ∧ q = ofNames ns) ∧
    (∀ q, resolve? base p = some q → (q = [] ∨ IsCanonical q) ∧ ∀ c ∈ components q, ∃ n, c = .name n ∧ IsName n) ∧
    (∀ m c, resolve? base p = some m → p ≠ [] → isAbsolute c = false →
      resolve? m c = resolve? base (p ++ '/' :: c)) ∧
    (∀ q, normalize? p = some q → normalize? q = some q ∧ '\\' ∉ q) := by
  refine ⟨resolve?_eq_none_iff, fun q => resolve?_eq_some_iff, fun q h => ⟨resolve?_canonical h, ?_⟩,
    fun m c => resolve?_resolve?, fun q => normalize?_normalize?⟩
  obtain ⟨ns, -, rfl, hnames⟩ := exists_names_of_resolve? h
  rw [components_ofNames hnames]
  intro c hc
  obtain ⟨n, hn, rfl⟩ := List.mem_map.1 hc
  exact ⟨n, rfl, hnames n hn⟩

/-- A base with detours, a path that climbs into it, and a path that climbs out of both and back. -/
theorem resolve?_stackMachine_detours :
    resolve? "./a//b/".toList ".././c".toList = some "a/c".toList ∧
      resolve? "a/c".toList "../../d".toList = resolve? "./a//b/".toList ".././c/../../d".toList ∧
      resolve? "./a//b/".toList "../../../a".toList = none ∧
      normalize? ".\\x/..\\y\\\\z".toList = some "y/z".toList ∧ normalize? "y/z".toList = some "y/z".toList := by
  have hjoin : resolve? "./a//b/".toList ".././c".toList = some "a/c".toList := by decide
  have hout : ClimbsOut (splitOn '/' "./a//b/".toList ++ splitOn '/' "../../../a".toList) :=
    ⟨splitOn '/' "./a//b/".toList ++ [['.', '.'], ['.', '.']], [['a']], by decide, by decide⟩
  have hnormal : normalize? ".\\x/..\\y\\\\z".toList = some "y/z".toList := by decide
  obtain ⟨-, -, -, hcompose, -⟩ := resolve?_stackMachine "./a//b/".toList ".././c".toList
  obtain ⟨hnone, -⟩ := resolve?_stackMachine "./a//b/".toList "../../../a".toList
  obtain ⟨-, -, -, -, hnormalize⟩ := resolve?_stackMachine [] ".\\x/..\\y\\\\z".toList
  exact ⟨hjoin, hcompose _ _ hjoin (by decide) (by decide), hnone.2 (Or.inr (Or.inr hout)), hnormal,
    (hnormalize _ hnormal).1⟩

end ImportTrail.Path
