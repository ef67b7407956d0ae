import ElmBinding.Proofs.Grammar.Texts
import ElmBinding.Proofs.Schema.Linking
import ElmBinding.Source.Declarations

/-!
# Bodies of messages

The body of a message is read declaration by declaration, and a message or group inside it by
its own body first.  A property of messages that every single declaration keeps is one that
whole bodies keep, however deep they nest.

Main results:

- Definition {lit}`Source.NestingInvariant`: what every declaration keeps between a message and
  its head.
- Theorem {lit}`Source.NestingInvariant.declareAll`: reading a body keeps it.
- Definition {lit}`Source.BodyInvariant`: properties that every declaration keeps.
- Theorem {lit}`Source.foldlM_preserves`: what a step keeps, a run of steps keeps.
-/

namespace ElmBinding

/-- The messages of a list with one more message, at every depth. -/
theorem mem_families_concat {messages : List Message} {message inner : Message} :
    inner ∈ families (messages ++ [message]) ↔
      inner ∈ families messages ∨ inner ∈ message.family := by
  rw [families_append, families_cons, families_nil, List.append_nil, List.mem_append]

/-- The messages inside a message with one more message, at every depth. -/
theorem mem_families_addMessage {message nested inner : Message} :
    inner ∈ families (message.addMessage nested).messages ↔
      inner ∈ families message.messages ∨ inner ∈ nested.family :=
  mem_families_concat

namespace Source

open Grammar

/-- Induction over nodes that descends into the nodes inside a node. -/
@[elab_as_elim]
theorem nodes_induction {ρ : Type} {motive : List (Node ρ) → Prop} (nil : motive [])
    (cons : ∀ node rest, motive node.children → motive rest → motive (node :: rest)) :
    ∀ nodes, motive nodes
  | [] => nil
  | ⟨rule, start, text, children⟩ :: rest =>
      cons ⟨rule, start, text, children⟩ rest (nodes_induction nil cons children)
        (nodes_induction nil cons rest)

/-- What holds of every node holds everywhere. -/
theorem everywhere_of_forall {ρ : Type} {holds : Node ρ → Prop} (h : ∀ node, holds node)
    (nodes : List (Node ρ)) : ∀ node ∈ nodes, node.Everywhere holds := by
  induction nodes using nodes_induction with
  | nil => simp
  | cons node rest hchildren hrest =>
      rw [List.forall_mem_cons]
      exact ⟨.mk (h node) hchildren, hrest⟩

/--
A relation between the head of a message and the message whose body is read.  Every declaration
keeps it, if the nodes over the declaration are fine.  A message inside a body begins as its own
head, in the scope of the message around it.
-/
structure NestingInvariant (origin : Origin) (fine : Node Rule → Prop)
    (holds : Message → Message → Prop) : Prop where
  messageHead : ∀ {head message node}, holds head message → node.Everywhere fine →
    holds (messageHead origin message.fullName node) (messageHead origin message.fullName node)
  groupHead : ∀ {head message node}, holds head message → node.Everywhere fine →
    holds (groupHead message.fullName node) (groupHead message.fullName node)
  field : ∀ {head message node field}, holds head message → node.Everywhere fine →
    fieldOf origin message.fullName node = .ok field → holds head (message.addField field)
  mapField : ∀ {head message node field entry}, holds head message → node.Everywhere fine →
    mapFieldOf origin message.fullName node = .ok (field, entry) →
    holds head ((message.addMessage entry).addField field)
  group : ∀ {head message node field group}, holds head message → node.Everywhere fine →
    groupFieldOf origin message.fullName node = .ok field →
    holds (Source.groupHead message.fullName node) group →
    holds head ((message.addMessage group.withSyntheticOneofs).addField field)
  oneof : ∀ {head message node after}, holds head message → node.Everywhere fine →
    declareOneof origin message node = .ok after → holds head after
  enumeration : ∀ {head message node enumeration}, holds head message → node.Everywhere fine →
    enumOf origin message.fullName node = .ok enumeration →
    holds head (message.addEnum enumeration)
  message : ∀ {head message node nested}, holds head message →
    holds (Source.messageHead origin message.fullName node) nested →
    holds head (message.addMessage nested.withSyntheticOneofs)

namespace NestingInvariant

variable {origin : Origin} {fine : Node Rule → Prop} {holds : Message → Message → Prop}
  {head message after : Message}

/-- A node keeps the relation if the nodes inside it do. -/
theorem declare (hkept : NestingInvariant origin fine holds) {node : Node Rule}
    (hchildren : ∀ {head message after : Message}, holds head message →
      declareAll origin message node.children = .ok after → holds head after)
    (hnode : node.Everywhere fine) (hmessage : holds head message)
    (h : declare origin message node = .ok after) : holds head after := by
  rcases node with ⟨rule, start, text, children⟩
  unfold Source.declare at h
  split at h
  · exact hchildren hmessage h
  · exact hchildren hmessage h
  · rcases map_eq_ok_iff.mp h with ⟨field, hfield, rfl⟩
    exact hkept.field hmessage hnode hfield
  · rcases bind_eq_ok_iff.mp h with ⟨⟨field, entry⟩, hmade, hafter⟩
    rw [← Except.ok.inj hafter]
    exact hkept.mapField hmessage hnode hmade
  · rcases bind_eq_ok_iff.mp h with ⟨field, hfield, h⟩
    rcases bind_eq_ok_iff.mp h with ⟨group, hgroup, hafter⟩
    rw [← Except.ok.inj hafter]
    exact hkept.group hmessage hnode hfield (hchildren (hkept.groupHead hmessage hnode) hgroup)
  · exact hkept.oneof hmessage hnode h
  · rcases map_eq_ok_iff.mp h with ⟨enumeration, henumeration, rfl⟩
    exact hkept.enumeration hmessage hnode henumeration
  · rcases bind_eq_ok_iff.mp h with ⟨nested, hnested, hafter⟩
    rw [← Except.ok.inj hafter]
    exact hkept.message hmessage (hchildren (hkept.messageHead hmessage hnode) hnested)
  · rw [← Except.ok.inj h]
    exact hmessage

/-- What every declaration keeps, a body keeps. -/
theorem declareAll (hkept : NestingInvariant origin fine holds) {nodes : List (Node Rule)}
    (hnodes : ∀ node ∈ nodes, node.Everywhere fine) (hmessage : holds head message)
    (h : declareAll origin message nodes = .ok after) : holds head after := by
  induction nodes using nodes_induction generalizing head message after with
  | nil =>
      rw [Source.declareAll] at h
      rw [← Except.ok.inj h]
      exact hmessage
  | cons node rest hchildren hrest =>
      rcases List.forall_mem_cons.mp hnodes with ⟨hnode, hothers⟩
      rw [Source.declareAll, bind_eq_ok_iff] at h
      rcases h with ⟨extended, hextended, hafter⟩
      exact hrest hothers (hkept.declare (hchildren hnode.child) hnode hmessage hextended) hafter

end NestingInvariant

/--
A property of messages that every declaration in their bodies keeps, if the nodes over the
declaration are fine.  A message inside a body begins with its head.
-/
structure BodyInvariant (origin : Origin) (fine : Node Rule → Prop) (holds : Message → Prop) :
    Prop where
  messageHead : ∀ {message node}, holds message → node.Everywhere fine →
    holds (messageHead origin message.fullName node)
  groupHead : ∀ {message node}, holds message → node.Everywhere fine →
    holds (groupHead message.fullName node)
  field : ∀ {message node field}, holds message → node.Everywhere fine →
    fieldOf origin message.fullName node = .ok field → holds (message.addField field)
  mapField : ∀ {message node field entry}, holds message → node.Everywhere fine →
    mapFieldOf origin message.fullName node = .ok (field, entry) →
    holds ((message.addMessage entry).addField field)
  group : ∀ {message node field group}, holds message → node.Everywhere fine →
    groupFieldOf origin message.fullName node = .ok field → holds group →
    holds ((message.addMessage group.withSyntheticOneofs).addField field)
  oneof : ∀ {message node after}, holds message → node.Everywhere fine →
    declareOneof origin message node = .ok after → holds after
  enumeration : ∀ {message node enumeration}, holds message → node.Everywhere fine →
    enumOf origin message.fullName node = .ok enumeration →
    holds (message.addEnum enumeration)
  message : ∀ {message nested}, holds message → holds nested →
    holds (message.addMessage nested.withSyntheticOneofs)

namespace BodyInvariant

variable {origin : Origin} {fine : Node Rule → Prop} {holds : Message → Prop}
  {message after : Message}

/-- A property of messages that has nothing to do with their heads. -/
theorem nesting (hkept : BodyInvariant origin fine holds) :
    NestingInvariant origin fine fun _ => holds where
  messageHead := hkept.messageHead
  groupHead := hkept.groupHead
  field := hkept.field
  mapField := hkept.mapField
  group := hkept.group
  oneof := hkept.oneof
  enumeration := hkept.enumeration
  message := hkept.message

/-- What every declaration keeps, a body keeps. -/
theorem declareAll (hkept : BodyInvariant origin fine holds) {nodes : List (Node Rule)}
    (hnodes : ∀ node ∈ nodes, node.Everywhere fine) (hmessage : holds message)
    (h : declareAll origin message nodes = .ok after) : holds after :=
  @NestingInvariant.declareAll _ _ _ message _ _ hkept.nesting _ hnodes hmessage h

end BodyInvariant

/-- What a step keeps, a run of steps keeps. -/
theorem foldlM_preserves {α β ε : Type} (holds : β → Prop) {step : β → α → Except ε β}
    {items : List α}
    (hstep : ∀ b, ∀ a ∈ items, ∀ after, holds b → step b a = .ok after → holds after)
    {b after : β} (hb : holds b) (h : items.foldlM step b = .ok after) : holds after := by
  induction items generalizing b with
  | nil =>
      rw [List.foldlM_nil] at h
      rw [← Except.ok.inj h]
      exact hb
  | cons a rest ih =>
      rw [List.foldlM_cons, bind_eq_ok_iff] at h
      rcases h with ⟨middle, hmiddle, hafter⟩
      refine ih (fun b other hmem => hstep b other (List.mem_cons_of_mem a hmem)) ?_ hafter
      exact hstep b a List.mem_cons_self middle hb hmiddle

end Source
end ElmBinding
