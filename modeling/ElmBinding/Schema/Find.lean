import ElmBinding.Schema.Basic

/-!
# Declarations at every depth

Messages nest.  This module lists the messages and enumerations of a schema at every depth,
an outer message before the messages inside it, and finds them by their full names.

Main definitions:

- Definition {lit}`Message.family`: a message and the messages inside it.
- Definitions {lit}`Schema.allMessages` and {lit}`Schema.allEnums`: what a schema declares at
  any depth.
- Definitions {lit}`Schema.findMessage?` and {lit}`Schema.findEnum?`: search by full name.
-/

namespace ElmBinding

mutual

/-- A message followed by the messages inside it, at every depth. -/
def Message.family : Message → List Message
  | ⟨name, fullName, fields, oneofs, messages, enums, mapEntry, comments⟩ =>
      ⟨name, fullName, fields, oneofs, messages, enums, mapEntry, comments⟩ ::
        families messages

/-- The messages of a list, each followed by the messages inside it. -/
def families : List Message → List Message
  | [] => []
  | message :: rest => message.family ++ families rest

end

theorem Message.family_eq (message : Message) :
    message.family = message :: families message.messages := by
  cases message
  simp [Message.family]

@[simp] theorem families_nil : families [] = [] := by
  simp [families]

@[simp] theorem families_cons (message : Message) (rest : List Message) :
    families (message :: rest) = message.family ++ families rest := by
  simp [families]

namespace Schema

/-- The messages of a schema at every depth. -/
def allMessages (schema : Schema) : List Message :=
  families schema.messages

/-- The enumerations of a schema at every depth, those outside of messages first. -/
def allEnums (schema : Schema) : List Enumeration :=
  schema.enums ++ schema.allMessages.flatMap Message.enums

/-- The first message with a full name. -/
def findMessage? (schema : Schema) (fullName : String) : Option Message :=
  schema.allMessages.find? fun message => message.fullName = fullName

/-- The first enumeration with a full name. -/
def findEnum? (schema : Schema) (fullName : String) : Option Enumeration :=
  schema.allEnums.find? fun enumeration => enumeration.fullName = fullName

end Schema

end ElmBinding
