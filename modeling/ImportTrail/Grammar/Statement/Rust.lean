import ImportTrail.Grammar.Expression.Rust

/-!
Items and statements of Rust. A module without a body reports its name, a `use` declaration its
local paths.
-/

namespace ImportTrail.Grammar.Rust

open Text Rule

/-! ### Parts of items -/

/-- Who may use an item. -/
def visibility : RustRule :=
  any [
    seq (keyword "pub")
      (opt (bracketed "("
        (any [
          keyword "self", keyword "super", keyword "crate",
          seq (keyword "in") (pathExcept [])]) ")")),
    seq (keyword "crate") (absent (sign "::"))]

/-- Bounds of a type or a lifetime. -/
def bounds : RustRule := seq (sign ":") (opt typeExpression)

/-- The type of something with a name. -/
def annotation : RustRule := seq (sign ":") typeExpression

/-- The value of something with a name. -/
def initialValue : RustRule := seq (sign "=") expression

/-- A parameter for a lifetime, a constant or a type. -/
def typeParameter : RustRule :=
  seq attributes (any [
    seq lifetime (opt bounds),
    all [keyword "const", name, annotation, opt (seq (sign "=") typeArgument)],
    all [name, opt bounds, opt (seq (sign "=") typeExpression)]])

/-- The type parameters of an item. -/
def typeParameters : RustRule := angledList typeParameter

/-- What is asked of types. -/
def whereClause : RustRule :=
  seq (keyword "where") (opt (listOf comma (seq typeExpression bounds)))

/-- Items in braces. -/
def declarations : RustRule := braced (many (part .declaration))

/-- Fields with names, in braces. -/
def namedFields : RustRule :=
  bracedList (all [attributes, opt visibility, name, annotation])

/-- Fields without names, in parentheses. -/
def plainFields : RustRule :=
  bracketedList "(" (all [attributes, opt visibility, typeExpression]) ")"

/-! ### Modules and uses -/

/-- A module in a file of its own, or in braces. -/
def moduleItem : RustRule :=
  seq (keyword "mod") (any [seq (reportText name) (sign ";"), seq name declarations])

/-- Use trees in braces. -/
def useGroup : RustRule := bracedList (part .useTree)

/-- A path with another name, a path with all or some of what is in it. -/
def useTreeRule : RustRule :=
  any [
    sign "*",
    useGroup,
    seq (sign "::") (any [sign "*", useGroup]),
    all [
      opt (sign "::"), sepBy (sign "::") name,
      opt (any [
        seq (sign "::") (any [sign "*", useGroup]),
        seq (keyword "as") name])]]

/-- The local paths of a use tree. -/
def useFound (s t : Text) : List Text :=
  (UseTree.expand (textTo s t)).filter Scan.Rust.isLocalPath

/-- What is used from elsewhere. -/
def useItem : RustRule :=
  all [keyword "use", report (fun s t _ => useFound s t) (part .useTree), sign ";"]

/-! ### Other items -/

/-- A function, with or without a body. -/
def functionItem : RustRule :=
  all [
    many functionModifier, keyword "fn", name, opt typeParameters, parameters, opt resultType,
    opt whereClause, any [block, sign ";"]]

/-- A constant. -/
def constantItem : RustRule :=
  all [keyword "const", name, annotation, opt initialValue, sign ";"]

/-- A variable of a module. -/
def staticItem : RustRule :=
  all [
    keyword "static", opt (keyword "ref"), opt (keyword "mut"), name, annotation,
    opt initialValue, sign ";"]

/-- A name for a type. -/
def typeItem : RustRule :=
  all [
    keyword "type", name, opt typeParameters, opt bounds, opt whereClause,
    opt (seq (sign "=") typeExpression), opt whereClause, sign ";"]

/-- A structure. -/
def structureItem : RustRule :=
  all [
    keyword "struct", name, opt typeParameters,
    any [
      seq (opt whereClause) namedFields,
      all [plainFields, opt whereClause, sign ";"],
      sign ";"]]

/-- Fields in one place. -/
def unionItem : RustRule :=
  all [keyword "union", name, opt typeParameters, opt whereClause, namedFields]

/-- A choice between variants. -/
def enumItem : RustRule :=
  all [
    keyword "enum", name, opt typeParameters, opt whereClause,
    bracedList (all [
      attributes, opt visibility, name, opt (any [namedFields, plainFields]),
      opt initialValue])]

/-- A trait. -/
def traitItem : RustRule :=
  all [
    opt (keyword "unsafe"), keyword "trait", name, opt typeParameters, opt bounds,
    opt whereClause, declarations]

/-- An implementation, possibly of a trait. -/
def implementation : RustRule :=
  all [
    opt (keyword "unsafe"), keyword "impl", opt typeParameters,
    opt (all [opt (sign "!"), typeExpression, keyword "for"]), typeExpression, opt whereClause,
    any [declarations, sign ";"]]

/-- Another library, or items of one. -/
def externItem : RustRule :=
  seq (keyword "extern") (any [
    all [keyword "crate", name, opt (seq (keyword "as") name), sign ";"],
    seq (opt (lexeme afterString?)) (any [declarations, sign ";"])])

/-- The rules of a macro. -/
def macroRules : RustRule :=
  opt (listOf (sign ";") (all [part .tokenTree, sign "=>", part .tokenTree]))

/-- A macro. -/
def macroDefinition : RustRule :=
  all [
    sign "macro_rules!", name,
    any [
      seq (bracketed "(" macroRules ")") (sign ";"),
      seq (bracketed "[" macroRules "]") (sign ";"),
      braced macroRules]]

/-- A local variable. -/
def letDeclaration : RustRule :=
  all [
    keyword "let", patterns, opt annotation, opt initialValue,
    opt (seq (keyword "else") block), sign ";"]

/-! ### Statements -/

/-- A declaration. -/
def declarationRule : RustRule :=
  any [
    seq (opt visibility) (any [
      moduleItem, useItem, functionItem, constantItem, staticItem, typeItem, structureItem,
      unionItem, enumItem, traitItem, externItem]),
    attributeItem,
    sign ";",
    implementation,
    letDeclaration,
    macroDefinition,
    seq macroCall (absent continuation)]

/-- The words that begin a declaration. -/
def declarationWords : List Text :=
  ["enum", "extern", "fn", "impl", "let", "mod", "pub", "struct", "trait", "type",
    "use"].map String.toList

/-- A declaration, or an expression with a semicolon or at the end of a block. -/
def statementRule : RustRule :=
  any [
    part .declaration,
    seq (part .blockExpression) (absent continuation),
    all [
      absent (lexeme (afterWord? (declarationWords.contains ·))), expression,
      any [sign ";", ahead (sign "\x7d")]]]

end ImportTrail.Grammar.Rust
