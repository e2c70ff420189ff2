import ImportTrail.Grammar.Part.Rust
import ImportTrail.Scan.Rust

/-!
Types, patterns and expressions of Rust, with macro calls and blocks. How strongly operators bind
does not matter here, only which texts are expressions. Of all of these only a call of `include`
reports anything: the strings that it is given.
-/

namespace ImportTrail.Grammar.Rust

open Text Rule

/-- A type. -/
def typeExpression : RustRule := part .type

/-- An expression. -/
def expression : RustRule := part (.expression true)

/-- An expression in front of a block. -/
def headExpression : RustRule := part (.expression false)

/-- Statements in braces. -/
def block : RustRule := braced (many (part .statement))

/-! ### Paths and types -/

/-- The words that begin a type of their own. -/
def typeWords : List Text := ["dyn", "fn", "for", "impl"].map String.toList

/-- An argument of a type, or what a type of a trait is or has to be. -/
def typeArgument : RustRule :=
  any [
    seq typeExpression (opt (seq (signIn ["=", ":"]) typeExpression)),
    seq (opt (sign "-")) literal,
    block]

/-- The arguments of a type. -/
def typeArguments : RustRule := angledList typeArgument

/-- A type seen as a trait, in front of a path. -/
def qualified : RustRule :=
  all [
    bracketed "<" (seq typeExpression (opt (seq (keyword "as") typeExpression))) ">", sign "::"]

/-- What follows the first name of a path. -/
def pathTail : RustRule := many (seq (sign "::") (any [typeArguments, name]))

/-- A path whose first name is none of some words. -/
def pathExcept (words : List Text) : RustRule :=
  all [any [seq qualified name, seq (sign "::") name, nameExcept words], pathTail]

/-- The type of a result. -/
def resultType : RustRule := seq (sign "->") typeExpression

/-- A name in the path of a type, with arguments. -/
def typeSegment : RustRule :=
  any [
    typeArguments,
    all [
      nameExcept typeWords, opt typeArguments,
      opt (seq (bracketedList "(" typeExpression ")") (opt resultType))]]

/-- The path of a type. -/
def typePath : RustRule :=
  all [
    any [qualified, opt (sign "::")], ahead (nameExcept typeWords),
    sepBy (sign "::") typeSegment]

/-- Lifetimes that a type is for. -/
def forLifetimes : RustRule := seq (keyword "for") (angledList lifetime)

/-- What can stand in front of `fn`. -/
def functionModifier : RustRule :=
  any [
    keyword "async", keyword "default", keyword "const", keyword "unsafe",
    seq (keyword "extern") (opt (lexeme afterString?))]

/-! ### Macro calls -/

/-- The specifier of a string that is included. -/
def includeFound (s t : Text) : List Text :=
  [Scan.Rust.includeSpecifier
    (dropEndWhile (· == '"') ((textTo s t).dropWhile (· == '"')))]

/-- The strings that are included. -/
def includedString : RustRule := report (fun s t _ => includeFound s t) (lexeme afterString?)

/-- The words that begin an expression of their own. -/
def expressionWords : List Text :=
  ["async", "break", "const", "continue", "for", "if", "let", "loop", "match", "move", "return",
    "static", "unsafe", "while", "yield"].map String.toList

/-- A macro call. -/
def macroCall : RustRule :=
  any [
    all [keyword "include", sign "!", treeOf (any [includedString, token])],
    all [pathExcept expressionWords, sign "!", part .tokenTree]]

/-- A path and the tokens of an attribute, or its value. -/
def attributeBody : RustRule :=
  all [
    opt (sign "::"), sepBy (sign "::") name,
    opt (any [seq (sign "=") expression, part .tokenTree])]

/-- An attribute, of what follows or of what it stands in. -/
def attributeItem : RustRule := all [sign "#", opt (sign "!"), bracketed "[" attributeBody "]"]

/-- Attributes. -/
def attributes : RustRule := many attributeItem

/-! ### Parameters -/

/-- Patterns that are alternatives. -/
def patterns : RustRule := seq (opt (sign "|")) (sepBy (sign "|") (part .pattern))

/-- The value that a method belongs to. -/
def selfParameter : RustRule :=
  all [
    opt (sign "&"), opt lifetime, opt (keyword "mut"), keyword "self", absent (sign "::"),
    opt (seq (sign ":") typeExpression)]

/-- The parameters of a function. -/
def parameters : RustRule :=
  bracketedList "("
    (seq attributes
      (any [
        selfParameter,
        sign "...",
        all [part .pattern, sign ":", any [sign "...", typeExpression]],
        typeExpression])) ")"

/-- A type that is not a sum of bounds. -/
def plainTypeRule : RustRule :=
  any [
    all [sign "&", opt lifetime, opt (keyword "mut"), part .plainType],
    all [sign "*", any [keyword "const", keyword "mut"], part .plainType],
    sign "!",
    bracketedList "(" typeExpression ")",
    bracketed "[" (seq typeExpression (opt (seq (sign ";") expression))) "]",
    all [opt forLifetimes, many functionModifier, keyword "fn", parameters, opt resultType],
    seq (any [keyword "dyn", keyword "impl"]) typeExpression,
    seq (any [forLifetimes, sign "?"]) (part .plainType),
    lifetime,
    macroCall,
    typePath]

/-- A type, or a sum of bounds. -/
def typeRule : RustRule := sepBy (sign "+") (part .plainType)

/-! ### Patterns -/

/-- The sign of a range. -/
def rangeSign : RustRule := signIn ["..=", "...", ".."]

/-- A literal, possibly negative. -/
def signedLiteral : RustRule := seq (opt (sign "-")) literal

/-- The words that begin a pattern of their own. -/
def patternWords : List Text := ["const", "mut", "ref"].map String.toList

/-- The end of a range of values. -/
def rangeEnd : RustRule := any [signedLiteral, pathExcept patternWords]

/-- A field in a pattern. -/
def fieldPattern : RustRule :=
  seq attributes (any [
    sign "..",
    all [any [name, lexeme afterIndex?], sign ":", patterns],
    all [opt (keyword "ref"), opt (keyword "mut"), name]])

/-- A pattern without alternatives. -/
def patternRule : RustRule :=
  seq
    (any [
      all [keyword "ref", opt (keyword "mut"), part .pattern],
      seq (keyword "mut") (part .pattern),
      all [sign "&", opt (keyword "mut"), part .pattern],
      bracketedList "(" patterns ")",
      bracketedList "[" patterns "]",
      seq rangeSign (opt rangeEnd),
      signedLiteral,
      macroCall,
      seq (keyword "const") block,
      all [nameExcept patternWords, sign "@", part .pattern],
      seq (pathExcept patternWords)
        (opt (any [bracketedList "(" patterns ")", bracedList fieldPattern]))])
    (opt (seq rangeSign (opt rangeEnd)))

/-! ### Blocks -/

/-- What continues an expression and cannot begin a statement. -/
def continuation : RustRule :=
  any [
    seq (sign ".") (absent (sign ".")),
    signIn ["?", "+", "/", "%", "^", "==", "!=", "=", ">"],
    keyword "as"]

/-- A choice between patterns. -/
def matchExpression : RustRule :=
  all [
    keyword "match", headExpression,
    braced (many (all [
      attributes, patterns, opt (seq (keyword "if") expression), sign "=>",
      any [
        all [part .blockExpression, absent continuation, opt comma],
        seq expression (any [comma, ahead (sign "\x7d")])]]))]

/-- An expression that ends with a block, possibly with a label. -/
def blockExpressionRule : RustRule :=
  seq (opt (seq lifetime (sign ":"))) (any [
    block,
    seq (any [keyword "unsafe", keyword "const", keyword "loop", keyword "try"]) block,
    all [keyword "async", opt (keyword "move"), block],
    all [
      keyword "if", headExpression, block,
      opt (seq (keyword "else")
        (any [block, seq (ahead (keyword "if")) (part .blockExpression)]))],
    matchExpression,
    all [keyword "while", headExpression, block],
    all [keyword "for", patterns, keyword "in", headExpression, block]])

/-! ### Expressions -/

/-- A function without a name. -/
def closure (braces : Bool) : RustRule :=
  all [
    opt (keyword "static"), opt (keyword "async"), opt (keyword "move"),
    bracketedList "|" (seq (part .pattern) (opt (seq (sign ":") typeExpression))) "|",
    any [seq resultType block, part (.expression braces)]]

/-- Leaving a block, a loop or a function. -/
def jump (braces : Bool) : RustRule :=
  any [
    seq (any [keyword "return", keyword "yield"]) (opt (part (.expression braces))),
    all [keyword "break", opt lifetime, opt (part (.expression braces))],
    seq (keyword "continue") (opt lifetime)]

/-- An operand, if one follows that is not a block in the place of another one. -/
def optionalOperand (braces : Bool) : RustRule :=
  opt (seq (if braces then empty else absent (sign "\x7b")) (part (.operand braces)))

/-- A field of a value that is built. -/
def fieldValue : RustRule :=
  seq attributes (any [
    seq (sign "..") (opt expression),
    all [any [name, lexeme afterIndex?], sign ":", expression],
    name])

/-- A path, or a value that is built from fields. -/
def pathExpression (braces : Bool) : RustRule :=
  seq (pathExcept expressionWords) (if braces then opt (bracedList fieldValue) else empty)

/-- Expressions with commas, in brackets. -/
def arguments : RustRule := bracketedList "(" (seq attributes expression) ")"

/-- The elements of an array, or one element and how often it is repeated. -/
def elements : RustRule :=
  seq (seq attributes expression)
    (any [
      seq (sign ";") expression,
      seq (many (seq comma (seq attributes expression))) (opt comma)])

/-- An expression without operators. -/
def atom (braces : Bool) : RustRule :=
  any [
    literal,
    part .blockExpression,
    macroCall,
    arguments,
    bracketed "[" (opt elements) "]",
    pathExpression braces]

/-- What can follow an expression without operators. -/
def trailer : RustRule :=
  any [
    sign "?",
    seq (sign ".")
      (any [seq name (opt (seq (sign "::") typeArguments)), lexeme afterIndex?]),
    arguments,
    bracketed "[" expression "]"]

/-- A value with signs in front. -/
def operandRule (braces : Bool) : RustRule :=
  any [
    seq (signIn ["-", "*", "!"]) (part (.operand braces)),
    all [
      sign "&", opt (seq (keyword "raw") (any [keyword "const", keyword "mut"])),
      opt (keyword "mut"), part (.operand braces)],
    all [keyword "let", patterns, sign "=", headExpression],
    seq rangeSign (optionalOperand braces),
    closure braces,
    jump braces,
    seq (atom braces) (many trailer)]

/-- An operator between two values, longer ones first. -/
def binary : RustRule :=
  signIn ["<<=", ">>=", "&&", "||", "==", "!=", "<=", ">=", "<<", ">>", "+=", "-=", "*=", "/=",
    "%=", "^=", "&=", "|=", "+", "-", "*", "/", "%", "^", "&", "|", "<", ">", "="]

/-- Operands joined by operators. -/
def expressionRule (braces : Bool) : RustRule :=
  seq (part (.operand braces)) (many (any [
    seq (keyword "as") (part .plainType),
    seq binary (part (.operand braces)),
    seq rangeSign (optionalOperand braces)]))

end ImportTrail.Grammar.Rust
