import ImportTrail.Grammar.Part.Python

/-!
Expressions and patterns of Python. How strongly operators bind does not matter here, only which
texts are expressions.
-/

namespace ImportTrail.Grammar.Python

open Text Rule

/-- The words that begin an expression of their own. -/
def expressionWords : List Text := ["not", "lambda"].map String.toList

/-- An expression. -/
def expression : PythonRule := part .expression

/-- Expressions with commas. -/
def expressions : PythonRule := commaList expression

/-- Expressions with commas between. -/
def separated (r : PythonRule) : PythonRule := sepBy comma r

/-! ### Patterns -/

/-- Patterns with commas. -/
def patterns : PythonRule := commaList (part .pattern)

/-- A value that another expression hands over, possibly of another generator. -/
def yieldExpression : PythonRule :=
  seq (lastKeyword "yield") (any [seq (keyword "from") expression, opt expressions])

/-! ### Types and parameters -/

/-- A type. -/
def typeExpression : PythonRule := any [all [any [sign "**", sign "*"], name], expression]

/-- The type of a name. -/
def annotation : PythonRule := seq (sign ":") typeExpression

/-- The value of a parameter that is not given. -/
def defaultValue : PythonRule := seq (sign "=") expression

/-- Patterns in parentheses. -/
def tuplePattern : PythonRule := bracketed "(" (opt patterns) ")"

/-- A parameter, its name followed by what `typed` reads. -/
def parameter (typed : PythonRule) : PythonRule :=
  any [
    all [sign "**", name, typed],
    all [sign "*", name, typed],
    lastSign "*",
    lastSign "/",
    all [name, typed, opt defaultValue],
    all [tuplePattern, opt defaultValue]]

/-- The parameters of a function. -/
def parameters : PythonRule :=
  bracketed "(" (opt (commaList (parameter (opt annotation)))) ")"

/-- The type parameters of a function or class, possibly with bounds. -/
def typeParameters : PythonRule :=
  bracketed "[" (commaList (seq typeExpression (opt annotation))) "]"

/-! ### Collections -/

/-- A loop inside a collection. -/
def forClause : PythonRule :=
  all [opt (keyword "async"), keyword "for", patterns, keyword "in", expressions]

/-- The loops and conditions of a collection. -/
def comprehension : PythonRule :=
  seq forClause (many (any [forClause, seq (keyword "if") expression]))

/-- An element of a collection. -/
def element : PythonRule := any [yieldExpression, seq (sign "*") expression, expression]

/-- More of the same, with commas. -/
def further (r : PythonRule) : PythonRule := seq (many (seq comma r)) (opt comma)

/-- The elements of a tuple or list, enumerated or computed. -/
def elements : PythonRule := seq element (any [comprehension, further element])

/-- A key with its value, or all of another dictionary. -/
def entry : PythonRule :=
  any [seq (sign "**") expression, all [expression, sign ":", expression]]

/-- What stands between braces: entries or elements, enumerated or computed. -/
def entriesOrElements : PythonRule :=
  any [
    all [sign "**", expression, further entry],
    seq element (any [
      all [sign ":", expression, any [comprehension, further entry]],
      comprehension,
      further element]),
    opt comma]

/-! ### Calls, attributes and subscripts -/

/-- An argument of a call. -/
def argument : PythonRule :=
  any [
    seq (sign "**") expression,
    seq (sign "*") expression,
    all [nameExcept expressionWords, sign "=", expression],
    seq expression (opt comprehension)]

/-- The arguments of a call. -/
def call : PythonRule := bracketed "(" (seq (opt (separated argument)) (opt comma)) ")"

/-- The rest of a slice. -/
def sliceEnd : PythonRule :=
  all [lastSign ":", opt expression, opt (seq (lastSign ":") (opt expression))]

/-- A subscript: indices and slices. -/
def subscript : PythonRule :=
  bracketed "[" (commaList (any [seq expression (opt sliceEnd), sliceEnd])) "]"

/-- A part of a value. -/
def access : PythonRule := any [seq (sign ".") name, subscript]

/-- An expression without operators. -/
def primary : PythonRule := seq (part .atom) (many (any [call, access]))

/-- A name, or a part of a value. -/
def target : PythonRule :=
  any [
    seq (part .atom) (many1 (seq (many call) access)),
    nameExcept (expressionWords ++ ["None", "True", "False"].map String.toList)]

/-! ### Strings -/

/-- A string, with or without expressions. -/
def string : PythonRule :=
  any [
    step (Cursor.take afterString? .nothing),
    all [
      step Cursor.openFormat, step Cursor.formatText,
      many (seq (part .field) (step Cursor.formatText)), step Cursor.closeFormat]]

/-- Strings next to each other. -/
def strings : PythonRule := many1 string

/-- What follows a conversion: an exclamation mark and a small letter. -/
def afterConversion? : Text → Option Text
  | '!' :: c :: r => if 'a' ≤ c && c ≤ 'z' then some r else none
  | _ => none

/-- What follows the plain text of a format. -/
def afterFormatText? (s : Text) : Option Text :=
  let r := s.dropWhile fun c => c != '{' && c != '}' && c != '\n'
  if r.length < s.length then some r else none

/-- An expression in a string, with its conversion and its format. -/
def fieldRule : PythonRule :=
  all [
    step (Cursor.takeTight (afterSign? ['{'])), step (Cursor.enter .bracket),
    any [yieldExpression, expressions],
    opt (lastSign "="),
    opt (step (Cursor.take afterConversion? .nothing)),
    opt (seq (lastSign ":")
      (many (any [step (Cursor.takeTight afterFormatText?), part .field]))),
    step (Cursor.take (after? ['}']) .nothing), step Cursor.leave]

/-! ### Operators -/

/-- The first of some signs that is there. -/
def signIn (l : List String) : PythonRule := any (l.map sign)

/-- An operator that compares. -/
def comparison : PythonRule :=
  any [
    signIn ["<", "<=", "==", "!=", ">=", ">", "<>"],
    keyword "in",
    seq (keyword "not") (keyword "in"),
    seq (keyword "is") (keyword "not"),
    keyword "is"]

/-- An operator that computes. -/
def arithmetic : PythonRule :=
  signIn ["+", "-", "*", "@", "/", "%", "//", "**", "|", "&", "^", "<<", ">>"]

/-- A function without a name. -/
def lambdaExpression : PythonRule :=
  all [
    keyword "lambda",
    phrase (seq (opt (commaList (parameter empty))) (sign ":")),
    expression]

/-- What can follow a clause in an expression. -/
def expressionTail : PythonRule :=
  any [
    seq (keyword "and") (part .clause),
    seq (keyword "or") (part .clause),
    all [keyword "if", phrase (seq expression (keyword "else")), expression],
    seq (keyword "as") expression]

/-- Three dots. -/
def ellipsis : PythonRule := step (Cursor.take (after? ['.', '.', '.']) .nothing)

/-! ### The recursive parts -/

/-- Clauses joined by words. -/
def expressionRule : PythonRule := seq (part .clause) (many expressionTail)

/-- A comparison, a negation, a function, or a value with a name. -/
def clauseRule : PythonRule :=
  any [
    seq (keyword "not") (part .clause),
    lambdaExpression,
    all [nameExcept expressionWords, sign ":=", expression],
    sepBy (any [comparison, arithmetic]) (part .operand)]

/-- A value with signs in front. -/
def operandRule : PythonRule :=
  any [
    seq (lastKeyword "await") (part .operand),
    seq (signIn ["+", "-", "~"]) (part .operand),
    primary]

/-- A value by itself. -/
def atomRule : PythonRule :=
  any [
    strings,
    number,
    ellipsis,
    bracketed "(" (opt elements) ")",
    bracketed "[" (opt elements) "]",
    bracketed "\x7b" entriesOrElements "\x7d",
    seq (sign "*") target,
    nameExcept expressionWords]

/-- A target, or targets in brackets. -/
def patternRule : PythonRule :=
  any [
    target,
    tuplePattern,
    bracketed "[" (opt patterns) "]",
    seq (sign "*") target]

/-! ### Patterns of a case -/

/-- Names with dots between. -/
def dottedName : PythonRule := sepBy (sign ".") name

/-- Case patterns in brackets. -/
def casePatterns (opening closing : String) : PythonRule :=
  bracketed opening (opt (commaList (part .casePattern))) closing

/-- The rest of a sequence or a mapping, with a name. -/
def restPattern : PythonRule := seq (signIn ["**", "*"]) name

/-- A pattern of a case without alternatives. -/
def simpleCasePattern : PythonRule :=
  any [
    restPattern,
    casePatterns "[" "]",
    casePatterns "(" ")",
    strings,
    all [opt (sign "-"), number, opt (seq (signIn ["+", "-"]) number)],
    seq dottedName (opt (casePatterns "(" ")"))]

/-- Entries of a mapping that a case asks for. -/
def mappingPattern : PythonRule :=
  bracketed "\x7b"
    (opt (commaList (any [restPattern, all [simpleCasePattern, sign ":", part .casePattern]])))
    "\x7d"

/-- Alternatives, possibly with a name. -/
def casePatternRule : PythonRule :=
  seq
    (any [
      all [name, sign "=", any [simpleCasePattern, mappingPattern]],
      sepBy (sign "|") (any [simpleCasePattern, mappingPattern])])
    (many (seq (keyword "as") name))

end ImportTrail.Grammar.Python
