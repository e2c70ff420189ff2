import ImportTrail.Proofs.Python.Grammar
import ImportTrail.Proofs.Python.Scan

/-!
Both strategies agree on Python: in a sequence of import statements, the grammar and scanning find the same specifiers.
-/

namespace ImportTrail.Python

open Text UseTree

/-- **Both strategies find the same imports** in a sequence of import statements, namely what the statements import. The
grammar accepts such a text, but for a NUL in a comment and for a module that begins with `__future__`. -/
theorem strategies_agree {xs : List Statement} {s : Text} (h : Source xs s) :
    Family.python.imports .grammar s = Family.python.imports .scan s ∧
      Family.python.imports .scan s = distinct (xs.flatMap Statement.specifiers) ∧
      ('\x00' ∉ s → xs.any Statement.isFuture = false →
        Grammar.Python.specifiers? s = some (xs.flatMap Statement.specifiers)) := by
  have hgrammar := Grammar.Python.specifiers?_source h
  have hscan := Scan.Python.specifiers_source h
  refine ⟨?_, by rw [Family.imports, hscan], fun hnul hfuture => ?_⟩
  · rw [Family.imports, Family.imports, hgrammar, hscan]
    split <;> rfl
  · rw [hgrammar, if_neg (by simp [hnul, hfuture])]

/-- A dotted name of one letter. -/
def letter (c : Char) (h : isName [c] = true) : Dotted := ⟨⟨[c], h⟩, []⟩

/-- A statement of each kind, and one whose names stand in parentheses on some lines. -/
def sampleStatements : List Statement :=
  [.modules [⟨⟨⟨['m'], rfl⟩, [⟨['n'], rfl⟩]⟩, some ⟨['p'], rfl⟩⟩, ⟨letter 'q' rfl, none⟩],
    .members (.relative 0 (some (letter 'a' rfl)) (by decide))
      [⟨letter 'b' rfl, none⟩, ⟨letter 'c' rfl, some ⟨['d'], rfl⟩⟩],
    .members (.relative 1 none (by decide)) [⟨letter 'e' rfl, none⟩],
    .everything (.absolute (letter 'x' rfl) (by decide))]

def sampleText : Text :=
  "import m.n as p, q".toList ++ '\n' :: ("from .a import (\n b, # one\n c as d,\n)".toList ++ '\n' ::
    ("from .. import e # two".toList ++ '\n' :: ("from x import *".toList ++ '\n' :: [])))

theorem sample_source : Source sampleStatements sampleText := by
  have hspace : ∀ {inside : Bool}, Layout inside [' '] := .blank rfl .nil
  have hmodules : Line [_] "import m.n as p, q".toList :=
    .statement (e := []) (.modules (.cons (w := [])
      (.renamed ⟨⟨['m'], rfl⟩, [⟨['n'], rfl⟩]⟩ ⟨['p'], rfl⟩ hspace (by decide) hspace (by decide))
      .nil hspace (.one (.plain (letter 'q' rfl))))) (.blanks .nil)
  have hcomment : Layout true " # one\n ".toList := .blank rfl (.comment (x := " one".toList) (by decide) hspace)
  have henclosed : Line [_] "from .a import (\n b, # one\n c as d,\n)".toList :=
    .statement (e := []) (.enclosed (.relative 0 (some (letter 'a' rfl)) (by decide)) (.line hspace)
      (.cons (w := []) (.plain (letter 'b' rfl)) .nil hcomment
        (.one (.renamed (letter 'c' rfl) ⟨['d'], rfl⟩ hspace (by decide) hspace (by decide))))
      (.comma (b := []) .nil (.line .nil))) (.blanks .nil)
  have hbare : Line [_] "from .. import e # two".toList :=
    .statement (.bare (.relative 1 none (by decide)) (.one (.plain (letter 'e' rfl))))
      (.comment (x := " two".toList) hspace (by decide))
  have hstar : Line [_] "from x import *".toList :=
    .statement (e := []) (.everything (.absolute (letter 'x' rfl) (by decide))) (.blanks .nil)
  exact .cons hmodules (.cons henclosed (.cons hbare (.cons hstar (.last (.blank (.blanks .nil))))))

theorem strategies_agree_sample :
    Family.python.imports .grammar sampleText = Family.python.imports .scan sampleText ∧
      Family.python.imports .scan sampleText = distinct (["m.n", "q", ".a.b", ".a.c", "..e", "x"].map String.toList) ∧
      Grammar.Python.specifiers? sampleText = some (["m.n", "q", ".a.b", ".a.c", "..e", "x"].map String.toList) := by
  obtain ⟨hagree, hscan, hgrammar⟩ := strategies_agree sample_source
  exact ⟨hagree, hscan, hgrammar (by decide) rfl⟩

end ImportTrail.Python
