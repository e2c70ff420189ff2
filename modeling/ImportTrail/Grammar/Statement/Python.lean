import ImportTrail.Grammar.Expression.Python
import ImportTrail.Scan.Python

/-!
Statements of Python. Of all statements only imports report anything: `import` its modules as they
are written, `from` what its module and its names stand for.
-/

namespace ImportTrail.Grammar.Python

open Text Rule

/-! ### Imports -/

/-- Imported names, each possibly under another name, with commas. -/
def importList : PythonRule :=
  commaList (seq (reportText dottedName) (opt (seq (keyword "as") name)))

/-- The modules of an `import`. -/
def importStatement : PythonRule := seq (keyword "import") importList

/-- Imported names, possibly in parentheses. -/
def importNames : PythonRule := any [importList, bracketed "(" importList ")"]

/-- A switch of the language, which imports nothing. -/
def futureImport : PythonRule :=
  report (fun _ _ _ => [])
    (all [
      keyword "from", phrase (seq (keyword "__future__") (keyword "import")), importNames])

/-- The module of a `from`: dots and possibly a name, or a name. -/
def moduleName : PythonRule :=
  any [
    seq (many1 (lastSign ".")) (opt
      (seq (nameExcept ["import".toList]) (many (seq (sign ".") name)))),
    seq (nameExcept ["__future__".toList]) (many (seq (sign ".") name))]

/-- What a module and the names imported from it stand for. -/
def fromFound : List Text → List Text
  | [] => []
  | module :: names => Scan.Python.fromSpecifiers module names

/-- The names of a `from`. -/
def fromImport : PythonRule :=
  report (fun _ _ found => fromFound found)
    (all [
      keyword "from", phrase (seq (reportText moduleName) (keyword "import")),
      any [reportText (lastSign "*"), importNames]])

/-! ### Simple statements -/

/-- Where a simple statement ends. -/
def statementEnd : PythonRule := ahead (any [lastSign ";", endOfStatement])

/-- Output by a statement, possibly to a file. -/
def printStatement : PythonRule :=
  all [lastKeyword "print",
    any [all [sign ">>", expression, further expression], expressions], statementEnd]

/-- Running a text. -/
def execStatement : PythonRule :=
  all [lastKeyword "exec", any [string, name],
    opt (seq (keyword "in") (separated expression)), statementEnd]

/-- A name for a type. -/
def typeAlias : PythonRule :=
  all [lastKeyword "type", typeExpression, sign "=", typeExpression, statementEnd]

/-- The words that begin a statement of their own. -/
def statementWords : List Text :=
  ["import", "from", "assert", "return", "del", "raise", "pass", "break", "continue", "global",
    "nonlocal", "if", "for", "while", "try", "with", "def", "class"].map String.toList

/-- A word that begins a statement of its own. -/
def statementWord : PythonRule :=
  step (Cursor.take (afterWord? (statementWords.contains ·)) .more)

/-- Expressions, or what is assigned. -/
def assigned : PythonRule := any [part .assignment, yieldExpression, expressions]

/-- The signs that assign. -/
def augmented : PythonRule :=
  signIn ["+=", "-=", "*=", "/=", "@=", "//=", "%=", "**=", ">>=", "<<=", "&=", "^=", "|="]

/-- Patterns and what is assigned to them, a type, or both. -/
def assignmentRule : PythonRule :=
  seq patterns (any [
    seq (any [sign "=", augmented]) assigned,
    all [sign ":", typeExpression, opt (seq (sign "=") assigned)]])

/-- A statement within a line. -/
def simpleStatement : PythonRule :=
  any [
    importStatement,
    futureImport,
    fromImport,
    printStatement,
    seq (keyword "assert") (separated expression),
    seq (lastKeyword "return") (opt expressions),
    seq (keyword "del") expressions,
    all [lastKeyword "raise", opt expressions, opt (seq (keyword "from") expression)],
    lastKeyword "pass",
    lastKeyword "break",
    lastKeyword "continue",
    seq (any [keyword "global", keyword "nonlocal"]) (sepBy (sign ",") name),
    execStatement,
    typeAlias,
    seq (absent statementWord) assigned]

/-- The statements of a line. -/
def simpleStatements : PythonRule :=
  seq (listOf (lastSign ";") simpleStatement) endOfStatement

/-! ### Compound statements -/

/-- A keyword, what stands between it and a colon, and a body. -/
def compound (w : String) (r : PythonRule) : PythonRule :=
  all [keyword w, phrase (seq r (lastSign ":")), part .suite]

/-- What is done otherwise. -/
def elseClause : PythonRule := compound "else" empty

/-- What is done in any case. -/
def finallyClause : PythonRule := compound "finally" empty

/-- What is done on an error. -/
def exceptClause : PythonRule :=
  compound "except"
    (opt (seq expression (opt (seq (any [keyword "as", sign ","]) expression))))

/-- A function. -/
def functionDefinition : PythonRule :=
  seq (opt (keyword "async"))
    (compound "def"
      (all [name, opt typeParameters, parameters, opt (seq (sign "->") typeExpression)]))

/-- A class. -/
def classDefinition : PythonRule :=
  compound "class" (all [name, opt typeParameters, opt call])

/-- A case of a `match`. -/
def caseClause : PythonRule :=
  compound "case" (seq (commaList (part .casePattern)) (opt (seq (keyword "if") expression)))

/-- A choice between cases. -/
def matchStatement : PythonRule :=
  all [
    keyword "match", phrase (seq expressions (lastSign ":")),
    any [all [step Cursor.openBlock, many caseClause, step Cursor.closeBlock],
      step Cursor.skipBlock]]

/-- A statement with a body. -/
def compoundStatement : PythonRule :=
  any [
    all [compound "if" expression, many (compound "elif" expression), opt elseClause],
    seq (opt (keyword "async"))
      (seq (compound "for" (all [patterns, keyword "in", expressions])) (opt elseClause)),
    seq (compound "while" expression) (opt elseClause),
    seq (compound "try" empty)
      (any [all [many1 exceptClause, opt elseClause, opt finallyClause], finallyClause]),
    seq (opt (keyword "async")) (compound "with" expressions),
    functionDefinition,
    classDefinition,
    seq (many1 (all [sign "@", expression, endOfStatement]))
      (any [functionDefinition, classDefinition]),
    matchStatement]

/-- Statements on deeper lines, no statements, or statements on the same line. -/
def suiteRule : PythonRule :=
  any [
    all [step Cursor.openBlock, many (part .statement), step Cursor.closeBlock],
    step Cursor.skipBlock,
    simpleStatements]

/-- Statements on a line, or a statement with a body. -/
def statementRule : PythonRule := any [simpleStatements, compoundStatement]

end ImportTrail.Grammar.Python
