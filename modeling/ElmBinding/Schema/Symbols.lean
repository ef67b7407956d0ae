import ElmBinding.Schema.Find
import ElmBinding.Schema.Scope

/-!
# Symbols

Messages, enumerations, their values and services share one space of full names.  A name
written in a schema is looked up in the scope where it stands and then in the scopes
around it; the first symbol found decides, whatever it is.  A leading dot makes a name
absolute.

Main definitions:

- Definition {lit}`Symbol`: a declared name.
- Definition {lit}`Schema.symbols`: the symbols of a schema, in the order of declaration.
- Definition {lit}`lookup?`: the symbol that a name means in a scope.
-/

namespace ElmBinding

/-- What a symbol names. -/
inductive SymbolKind where
  | message
  | enumeration
  /-- A value of an enumeration, in the scope around the enumeration. -/
  | value
  | service
deriving DecidableEq, Repr

/-- A declared name. -/
structure Symbol where
  /-- The full name. -/
  name : String
  kind : SymbolKind
  /-- The package in which the name is declared. -/
  package : String
deriving DecidableEq, Repr

/-- Whether a symbol names a type. -/
def Symbol.isType (symbol : Symbol) : Bool :=
  symbol.kind = .message || symbol.kind = .enumeration

/-- The symbols of an enumeration: itself and its values. -/
def Enumeration.symbols (package : String) (enumeration : Enumeration) : List Symbol :=
  ⟨enumeration.fullName, .enumeration, package⟩ ::
    enumeration.values.map fun value => ⟨value.fullName, .value, package⟩

/-- The symbols of a message without those of the messages inside it. -/
def Message.ownSymbols (package : String) (message : Message) : List Symbol :=
  ⟨message.fullName, .message, package⟩ ::
    message.enums.flatMap (Enumeration.symbols package)

/-- The symbols of a schema, in the order of declaration. -/
def Schema.symbols (schema : Schema) : List Symbol :=
  schema.enums.flatMap (Enumeration.symbols schema.packageName) ++
    schema.allMessages.flatMap (Message.ownSymbols schema.packageName) ++
    schema.services.map fun service => ⟨service.fullName, .service, schema.packageName⟩

/-- The symbol with a full name. -/
def findSymbol? (table : List Symbol) (fullName : String) : Option Symbol :=
  table.find? fun symbol => symbol.name = fullName

/-- The symbol that a name without a leading dot means in a scope: the innermost one. -/
def searchOutward? (table : List Symbol) (scope name : String) : Option Symbol :=
  (scopesOutward scope).findSome? fun outer => findSymbol? table (qualify outer name)

/-- The symbol that a name means in a scope. -/
def lookup? (table : List Symbol) (scope name : String) : Option Symbol :=
  match name.toList with
  | '.' :: absolute => findSymbol? table (String.ofList absolute)
  | _ => searchOutward? table scope name

/-- The type that a name means in a scope. -/
def lookupType? (table : List Symbol) (scope name : String) : Option Symbol :=
  (lookup? table scope name).filter Symbol.isType

end ElmBinding
