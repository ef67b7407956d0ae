/-!
# Reserved words

The words that no generated definition may take: the keywords of the language, and the
names that every module has in scope without an import.

Main definitions:

- Definition {lit}`keywords`: words that are never identifiers.
- Definition {lit}`preludeNames`: names in scope in every module.
- Definition {lit}`reservedWords`: both of them.
-/

namespace ElmBinding
namespace Name

/-- The keywords of the language. -/
def keywords : List String := [
  "if", "then", "else", "case", "of", "let", "in", "type", "module", "where", "import",
  "exposing", "as", "port"]

/-- The modules, types, variants and functions in scope in every module. -/
def preludeNames : List String := [
  "Basics", "List", "Maybe", "Result", "String", "Char", "Tuple", "Debug", "Platform", "Cmd",
  "Sub",
  "Int", "Float", "toFloat", "round", "floor", "ceiling", "truncate", "max", "min", "compare",
  "LT", "EQ", "GT", "Bool", "True", "False", "not", "xor", "modBy", "remainderBy", "negate",
  "abs", "clamp", "sqrt", "logBase", "e", "degrees", "radians", "turns", "pi", "cos", "sin",
  "tan", "acos", "asin", "atan", "atan2", "toPolar", "fromPolar", "isNaN", "isInfinite",
  "identity", "always", "Never", "never",
  "Just", "Nothing", "Ok", "Err", "Program"]

/-- The words that no definition of a module may take. -/
def reservedWords : List String :=
  keywords ++ preludeNames

/-- Whether a word is a keyword. -/
def isKeyword (word : String) : Bool :=
  keywords.contains word

/-- Whether a word is reserved. -/
def isReserved (word : String) : Bool :=
  reservedWords.contains word

end Name
end ElmBinding
