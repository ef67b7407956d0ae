import ElmBinding.Grammar.Reading
import ElmBinding.Schema.Basic
import ElmBinding.Source.Gap

/-!
# The grammar of schemas

The rules of the schema language.  Extensions, options and reserved ranges are read and
passed over, so their contents are only delimited.

Main definitions:

- Definition {lit}`Rule`: the rules, in the order in which reports list them.
- Definition {lit}`Rule.production`: what a rule takes.
- Definition {lit}`schemaGrammar`: the grammar.
-/

namespace ElmBinding
namespace Source

open Grammar Grammar.Pattern

/-- The rules of the schema language. -/
inductive Rule where
  | endOfInput
  | fullIdent
  | integerValue
  | stringLiteral
  | constant
  | scalarConstant
  | aggregate
  | scalarType
  | proto
  | syntaxStatement
  | protoBody
  | importStatement
  | importModifier
  | packageStatement
  | packageName
  | optionStatement
  | optionName
  | emptyStatement
  | topLevelDefinition
  | messageBlock
  | messageName
  | messageBody
  | messageElement
  | field
  | fieldModifier
  | typeReference
  | messageType
  | fieldName
  | tag
  | fieldOptions
  | fieldOption
  | groupField
  | groupKeyword
  | groupName
  | mapField
  | keyType
  | oneof
  | oneofName
  | oneofField
  | reserved
  | extensions
  | reservedKeyword
  | extensionsKeyword
  | extendBlock
  | enumBlock
  | enumName
  | enumBody
  | enumField
  | enumFieldName
  | enumFieldValue
  | serviceBlock
  | serviceName
  | rpc
  | rpcName
  | clientStream
  | serverStream
  | rpcBody
deriving DecidableEq, Repr

namespace Rule

/-- All rules with their names, in the order in which reports list them. -/
def named : List (Rule × String) := [
  (endOfInput, "EOI"),
  (fullIdent, "full_ident"),
  (integerValue, "integer_value"),
  (stringLiteral, "string_literal"),
  (constant, "constant"),
  (scalarConstant, "scalar_constant"),
  (aggregate, "aggregate"),
  (scalarType, "scalar_type"),
  (proto, "proto"),
  (syntaxStatement, "syntax_statement"),
  (protoBody, "proto_body"),
  (importStatement, "import_statement"),
  (importModifier, "import_modifier"),
  (packageStatement, "package_statement"),
  (packageName, "package_name"),
  (optionStatement, "option_statement"),
  (optionName, "option_name"),
  (emptyStatement, "empty_statement"),
  (topLevelDefinition, "top_level_definition"),
  (messageBlock, "message_block"),
  (messageName, "message_name"),
  (messageBody, "message_body"),
  (messageElement, "message_element"),
  (field, "field"),
  (fieldModifier, "field_modifier"),
  (typeReference, "type_reference"),
  (messageType, "message_type"),
  (fieldName, "field_name"),
  (tag, "tag"),
  (fieldOptions, "field_options"),
  (fieldOption, "field_option"),
  (groupField, "group_field"),
  (groupKeyword, "kw_group"),
  (groupName, "group_name"),
  (mapField, "map_field"),
  (keyType, "key_type"),
  (oneof, "oneof"),
  (oneofName, "oneof_name"),
  (oneofField, "oneof_field"),
  (reserved, "reserved"),
  (extensions, "extensions"),
  (reservedKeyword, "kw_reserved"),
  (extensionsKeyword, "kw_extensions"),
  (extendBlock, "extend_block"),
  (enumBlock, "enum_block"),
  (enumName, "enum_name"),
  (enumBody, "enum_body"),
  (enumField, "enum_field"),
  (enumFieldName, "enum_field_name"),
  (enumFieldValue, "enum_field_value"),
  (serviceBlock, "service_block"),
  (serviceName, "service_name"),
  (rpc, "rpc"),
  (rpcName, "rpc_name"),
  (clientStream, "client_stream"),
  (serverStream, "server_stream"),
  (rpcBody, "rpc_body")]

/-- The name of a rule in reports. -/
def name (rule : Rule) : String :=
  (named.find? fun entry => entry.1 = rule).elim "" Prod.snd

end Rule

/-! ## Characters and words -/

/-- Whether a character may stand in an identifier of the schema language. -/
def isIdentChar (c : Char) : Bool :=
  c.isAlphanum || c = '_'

/-- Whether a character may begin an identifier of the schema language. -/
def isIdentStart (c : Char) : Bool :=
  c.isAlpha || c = '_'

/-- Whether a character is a digit of a hexadecimal number. -/
def isHexDigit (c : Char) : Bool :=
  c.isDigit || ('a' ≤ c && c ≤ 'f') || ('A' ≤ c && c ≤ 'F')

/-- Whether a character is a digit of an octal number. -/
def isOctalDigit (c : Char) : Bool :=
  '0' ≤ c && c ≤ '7'

/-- The end of a word. -/
def wordEnd : Pattern Rule :=
  (char isIdentChar).absent

/-- An identifier. -/
def ident : Pattern Rule :=
  chain [char isIdentStart, (char isIdentChar).many]

/-- Identifiers with dots between them. -/
def dottedIdent : Pattern Rule :=
  chain [ident, (chain [word ".", ident]).many]

/-- Dotted identifiers, possibly behind a dot. -/
def typeName : Pattern Rule :=
  chain [(word ".").opt, dottedIdent]

/-- A number with an optional sign: hexadecimal, octal or decimal. -/
def integer : Pattern Rule :=
  chain [(word "-").opt, choice [
    chain [word "0", oneOf ["x", "X"], (char isHexDigit).many1],
    chain [word "0", (char isOctalDigit).many1],
    (char Char.isDigit).many1]]

/-- Text between two equal marks, in which a backslash goes with the character behind it. -/
def quoted (mark : String) : Pattern Rule :=
  chain [
    word mark,
    (chain [(word mark).absent, choice [chain [word "\\", any], any]]).many,
    word mark]

/-- A name, number or keyword as the value of an option, possibly with a sign. -/
def scalarValue : Pattern Rule :=
  chain [(oneOf ["-", "+"]).opt, (char fun c => isIdentChar c || c = '.').many1]

/-- The keyword of a scalar type as a whole word. -/
def scalarKeyword : Pattern Rule :=
  chain [
    oneOf (Scalar.all.map Scalar.keyword),
    (char fun c => isIdentChar c || c = '.').absent]

/-- The name of an option, whose first part may stand in parentheses. -/
def optionPath : Pattern Rule :=
  chain [
    choice [chain [word "(", (word ".").opt, dottedIdent, word ")"], ident],
    (chain [word ".", ident]).many]

/-- A keyword as a whole word. -/
def keyword (texts : List String) : Pattern Rule :=
  chain [oneOf texts, wordEnd]

/-- The keyword of a streamed message, which a blank, a line break or a dot must follow. -/
def streamKeyword : Pattern Rule :=
  chain [word "stream", (oneOf [" ", "\t", "\n", "\r", "."]).ahead]

/-- The mark that opens a body. -/
def bodyStart : Pattern Rule :=
  word "\x7b"

/-- The mark that closes a body. -/
def bodyEnd : Pattern Rule :=
  word "\x7d"

/-! ## Productions -/

/-- What a rule takes. -/
def Rule.production : Rule → Production Rule
  | endOfInput => .phrase [finish]
  | fullIdent => .token dottedIdent
  | integerValue => .token integer
  | stringLiteral => .token (choice [quoted "\"", quoted "'"])
  | constant => .phrase [choice [sub aggregate, sub stringLiteral, sub scalarConstant]]
  | scalarConstant => .token scalarValue
  | aggregate =>
      .phrase [
        bodyStart, (choice [sub aggregate, chain [bodyEnd.absent, any]]).many, bodyEnd]
  | scalarType => .token scalarKeyword
  | proto => .phrase [start, (sub syntaxStatement).opt, sub protoBody, sub endOfInput]
  | syntaxStatement =>
      .phrase [oneOf ["syntax", "edition"], word "=", sub stringLiteral, word ";"]
  | protoBody =>
      .phrase [(choice [
        sub importStatement, sub packageStatement, sub optionStatement, sub topLevelDefinition,
        sub emptyStatement]).many]
  | importStatement =>
      .phrase [word "import", (sub importModifier).opt, sub stringLiteral, word ";"]
  | importModifier => .token (keyword ["weak", "public"])
  | packageStatement => .phrase [word "package", sub packageName, word ";"]
  | packageName => .phrase [sub fullIdent]
  | optionStatement =>
      .phrase [word "option", sub optionName, word "=", sub constant, word ";"]
  | optionName => .token optionPath
  | emptyStatement => .phrase [word ";"]
  | topLevelDefinition =>
      .phrase [choice [sub messageBlock, sub enumBlock, sub serviceBlock, sub extendBlock]]
  | messageBlock => .phrase [word "message", sub messageName, sub messageBody]
  | messageName => .token ident
  | messageBody => .phrase [bodyStart, (sub messageElement).many, bodyEnd]
  | messageElement =>
      .phrase [choice [
        sub mapField, sub oneof, sub enumBlock, sub messageBlock, sub extendBlock,
        sub optionStatement, sub reserved, sub extensions, sub groupField, sub field,
        sub emptyStatement]]
  | field =>
      .phrase [
        (sub fieldModifier).opt, sub typeReference, sub fieldName, word "=", sub tag,
        (sub fieldOptions).opt, word ";"]
  | fieldModifier => .token (keyword ["optional", "required", "repeated"])
  | typeReference => .phrase [choice [sub scalarType, sub messageType]]
  | messageType => .token typeName
  | fieldName => .token ident
  | tag => .phrase [sub integerValue]
  | fieldOptions =>
      .phrase [word "[", sub fieldOption, (chain [word ",", sub fieldOption]).many, word "]"]
  | fieldOption => .phrase [sub optionName, word "=", sub constant]
  | groupField =>
      .phrase [
        sub fieldModifier, sub groupKeyword, sub groupName, word "=", sub tag,
        (sub fieldOptions).opt, sub messageBody]
  | groupKeyword => .token (keyword ["group"])
  | groupName => .token ident
  | mapField =>
      .phrase [
        word "map", word "<", sub keyType, word ",", sub typeReference, word ">",
        sub fieldName, word "=", sub tag, (sub fieldOptions).opt, word ";"]
  | keyType => .phrase [sub scalarType]
  | oneof =>
      .phrase [
        word "oneof", sub oneofName, bodyStart,
        (choice [sub optionStatement, sub oneofField, sub emptyStatement]).many, bodyEnd]
  | oneofName => .token ident
  | oneofField => .phrase [sub field]
  | reserved => .phrase [sub reservedKeyword, upTo (word ";"), word ";"]
  | extensions => .phrase [sub extensionsKeyword, upTo (word ";"), word ";"]
  | reservedKeyword => .token (keyword ["reserved"])
  | extensionsKeyword => .token (keyword ["extensions"])
  | extendBlock => .phrase [word "extend", sub messageType, bodyStart, upTo bodyEnd, bodyEnd]
  | enumBlock => .phrase [word "enum", sub enumName, bodyStart, (sub enumBody).many, bodyEnd]
  | enumName => .token ident
  | enumBody =>
      .phrase [choice [sub optionStatement, sub reserved, sub enumField, sub emptyStatement]]
  | enumField =>
      .phrase [
        sub enumFieldName, word "=", sub enumFieldValue, (sub fieldOptions).opt, word ";"]
  | enumFieldName => .token ident
  | enumFieldValue => .phrase [sub integerValue]
  | serviceBlock =>
      .phrase [
        word "service", sub serviceName, bodyStart,
        (choice [sub optionStatement, sub rpc, sub emptyStatement]).many, bodyEnd]
  | serviceName => .token ident
  | rpc =>
      .phrase [
        word "rpc", sub rpcName,
        word "(", (sub clientStream).opt, sub messageType, word ")",
        word "returns",
        word "(", (sub serverStream).opt, sub messageType, word ")",
        choice [sub rpcBody, word ";"]]
  | rpcName => .token ident
  | clientStream => .token streamKeyword
  | serverStream => .token streamKeyword
  | rpcBody =>
      .phrase [bodyStart, (choice [sub optionStatement, sub emptyStatement]).many, bodyEnd]

/-- The grammar of the schema language. -/
def schemaGrammar : Grammar Rule where
  rules := Rule.named.map Prod.fst
  name := Rule.name
  production := Rule.production
  gapLength := gapLength

end Source
end ElmBinding
