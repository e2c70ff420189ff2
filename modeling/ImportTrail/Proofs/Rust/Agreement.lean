import ImportTrail.Proofs.Rust.Grammar
import ImportTrail.Proofs.Rust.Scan

/-!
Both strategies agree on Rust: on items that stand one on a line, the grammar and scanning find the same specifiers.
-/

namespace ImportTrail.Rust

open Text UseTree

/-- **Both strategies find the same imports** in a sequence of items, namely those that the items stand for. The grammar
accepts such a text, so it does not fall back to scanning. -/
theorem imports_grammar_eq_scan {is : List Item} {s : Text} (h : Source is s) :
    Grammar.Rust.specifiers? s = some (is.flatMap Item.specifiers) ∧
      Family.rust.imports .grammar s = Family.rust.imports .scan s := by
  have hgrammar := Grammar.Rust.specifiers?_source h
  have hscan := Scan.Rust.specifiers_source h
  refine ⟨hgrammar, ?_⟩
  rw [Family.imports, Family.imports, hgrammar, hscan, Option.getD_some]

/-- The tree of `crate::a::{b as d, self, c::*}`. -/
def sampleTree : Tree :=
  .group [.word "crate", .word "a"] [.path (.word "b") [] (some (.word "d")), .path .self [] none, .glob (.word "c") []]

theorem sampleTree_importable : Importable sampleTree :=
  ⟨by decide, rfl, by decide⟩

theorem sampleTree_spelled : Spelled Spaces sampleTree "crate::a::\x7bb as d, self, c::*\x7d".toList :=
  .group (.word "crate") [.word "a"] (b := []) (by decide)
    (.cons (b := []) (e := []) (by decide)
      (.renamed (.word "b") [] (.word "d") (b := [' ']) (e := [' ']) (by decide) (by decide) (by decide) (by decide))
      (by decide)
      (.cons (b := [' ']) (e := []) (by decide) (.path .self []) (by decide)
        (.last (b := [' ']) (by decide) (.glob (.word "c") []) (.blank (b := []) (by decide)))))

/-- One item of each kind, the module twice. -/
def sampleText : Text :=
  "mod a;".toList ++ '\n' :: ("pub(crate) mod b;".toList ++ '\n' :: ("mod c \x7b \x7d".toList ++ '\n' ::
    ("include!(\"x\");".toList ++ '\n' :: ("pub use crate::a::\x7bb as d, self, c::*\x7d;".toList ++ '\n' :: []))))

theorem imports_sample :
    Grammar.Rust.specifiers? sampleText = some (["a", "b", "include!(\"x\")", "crate::a::b", "crate::a", "crate::a::c"].map
      String.toList) ∧ Family.rust.imports .grammar sampleText = Family.rust.imports .scan sampleText := by
  have ha : Written (.file ['a']) "mod a;".toList :=
    .visible .own (.file (b := [' ']) (e := []) rfl (by decide) (by decide) (by decide))
  have hb : Written (.file ['b']) "pub(crate) mod b;".toList :=
    .visible (.crate (b := [' ']) (by decide) (by decide)) (.file (b := [' ']) (e := []) rfl (by decide) (by decide) (by decide))
  have hc : Written (.inner ['c']) "mod c \x7b \x7d".toList :=
    .visible .own (.inner (b := [' ']) (e := [' ']) rfl (by decide) (by decide) (by decide) (by decide : Spaces [' ']))
  have hx : Written (.included ['x']) "include!(\"x\");".toList :=
    .included (by decide) rfl (by decide : Spaces []) (by decide : Spaces []) (by decide : Spaces []) (by decide : Spaces [])
  have hu : Written (.used sampleTree) "pub use crate::a::\x7bb as d, self, c::*\x7d;".toList :=
    .visible (.all (b := [' ']) (by decide) (by decide))
      (.used (b := [' ']) (e := []) sampleTree_importable sampleTree_spelled (by decide) (by decide) (by decide))
  exact imports_grammar_eq_scan (.cons ha (.cons hb (.cons hc (.cons hx (.cons hu .nil)))))

end ImportTrail.Rust
