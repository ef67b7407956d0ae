import ElmBinding.Schema.Basic

/-!
# Slots of a message

The fields of a message fall into slots.  A field outside of oneofs has a slot of its own.
The members of a oneof share one slot, at the place of the first of them.

Main definitions:

- Definition {lit}`Slot`: a field, an optional field or a choice between fields.
- Definition {lit}`Message.slots`: the slots of a message, in declaration order.
-/

namespace ElmBinding

/-- A place in a record for one or several fields of a message. -/
inductive Slot where
  /-- A field of its own. -/
  | plain (field : Field)
  /-- The field of a synthetic oneof, which may be absent. -/
  | optional (field : Field)
  /-- The members of a oneof. -/
  | choice (oneof : Oneof) (members : List Field)
  /-- A field with an index that none of the oneofs of the message has. -/
  | stray (index count : Nat)
deriving DecidableEq, Repr

/-- The slot that a field of a oneof opens. -/
def Message.oneofSlot (message : Message) (field : Field) (index : Nat) : Slot :=
  match message.oneofs[index]? with
  | none => .stray index message.oneofs.length
  | some oneof =>
      if oneof.synthetic then .optional field else .choice oneof (message.members index)

/-- The slots that fields open, where the slots of some oneofs are open already. -/
def Message.slotsFrom (message : Message) (opened : List Nat) : List Field → List Slot
  | [] => []
  | field :: rest =>
      match field.oneof with
      | none => .plain field :: message.slotsFrom opened rest
      | some index =>
          if index ∈ opened then
            message.slotsFrom opened rest
          else
            message.oneofSlot field index :: message.slotsFrom (index :: opened) rest

/-- The slots of a message. -/
def Message.slots (message : Message) : List Slot :=
  message.slotsFrom [] message.fields

end ElmBinding
