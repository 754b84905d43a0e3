import FlatLiquid.Proofs.Preview.Blocks
import FlatLiquid.Proofs.Schema.Remainder

/-!
Contract: a schema that cannot be read is no schema to a preview.

Owns:
- what a preview sees of a template;
- the preview of a template with a malformed schema as that of what is left without it.

A template takes part in a preview as its schema and as the text without its schema blocks, and nowhere
else. So two templates that agree in both have one preview, up to what is said about their schemas.
-/

namespace FlatLiquid

section Reading

variable {template : List Char}

theorem Schema.withDiagnostics_of_malformed {fault : SchemaFault}
    (malformed : Schema.read template = .error fault) :
    Schema.withDiagnostics template = (none, [.malformedSchema fault]) := by
  rw [Schema.withDiagnostics, malformed]

theorem Schema.withDiagnostics_of_find?_eq_none (free : SchemaBlock.find? template = none) :
    Schema.withDiagnostics template = (none, []) := by
  rw [Schema.withDiagnostics, Schema.read, free]

end Reading

section View

variable {left right : List Char} (request : PreviewRequest) (options : PreviewOptions)

/-- Templates with one schema, and with one text beside it, have one markup. -/
theorem markup_compilePreview_congr
    (schema : (Schema.withDiagnostics left).1 = (Schema.withDiagnostics right).1)
    (remaining : stripSchema left = stripSchema right) :
    (compilePreview left request options).markup =
      (compilePreview right request options).markup := by
  rw [markup_compilePreview, markup_compilePreview, schema, remaining]

/-- Templates with one schema, and with one text beside it, have one list of diagnostics behind those
about the schema. -/
theorem diagnostics_compilePreview_congr
    (schema : (Schema.withDiagnostics left).1 = (Schema.withDiagnostics right).1)
    (remaining : stripSchema left = stripSchema right) :
    ∃ notes,
      (compilePreview left request options).diagnostics =
        (Schema.withDiagnostics left).2 ++ notes ∧
      (compilePreview right request options).diagnostics =
        (Schema.withDiagnostics right).2 ++ notes := by
  unfold compilePreview flattenTemplate
  simp only [schema, remaining, List.append_assoc]
  exact ⟨_, rfl, rfl⟩

end View

/-- A template whose schema cannot be read has the preview of what is left without its schema blocks,
if that holds no schema block in turn. What is said about it comes after the fault of the schema, and
nothing else is different. -/
theorem compilePreview_of_malformed {template : List Char} {fault : SchemaFault}
    (malformed : Schema.read template = .error fault)
    (free : SchemaBlock.find? (stripSchema template) = none) (request : PreviewRequest)
    (options : PreviewOptions) :
    (compilePreview template request options).markup =
        (compilePreview (stripSchema template) request options).markup ∧
      (compilePreview template request options).diagnostics =
        .malformedSchema fault ::
          (compilePreview (stripSchema template) request options).diagnostics := by
  have noted := Schema.withDiagnostics_of_malformed malformed
  have silent := Schema.withDiagnostics_of_find?_eq_none free
  have schema : (Schema.withDiagnostics template).1 =
      (Schema.withDiagnostics (stripSchema template)).1 := by
    rw [noted, silent]
  have remaining : stripSchema template = stripSchema (stripSchema template) :=
    (stripSchema_of_find?_eq_none free).symm
  obtain ⟨notes, ofTemplate, ofRest⟩ :=
    diagnostics_compilePreview_congr request options schema remaining
  constructor
  · exact markup_compilePreview_congr request options schema remaining
  · rw [ofTemplate, ofRest, noted, silent]
    rfl

/-- A schema breaks off, and a later one that could be read allows one block. A preview of two blocks is
about neither of the schemas. -/
theorem compilePreview_of_malformed_of_later :
    let broken := "\x7b% schema %\x7d\x7b \"name\": \x7b% endschema %\x7d".toList
    let later := "\x7b% schema %\x7d\x7b\"max_blocks\":1\x7d\x7b% endschema %\x7d".toList
    let body := "<p>\x7b\x7b section.settings.title \x7d\x7d</p>".toList
    let template := body ++ broken ++ later
    let blocks : List BlockInstance := [⟨"a", "t", .empty⟩, ⟨"b", "t", .empty⟩]
    let request : PreviewRequest := ⟨none, some blocks, .empty, none⟩
    (Schema.ofTemplate? later).bind Schema.maxBlocks = some 1 ∧
      stripSchema template = body ∧ SchemaBlock.find? body = none ∧
      ∃ fault, Schema.read template = .error fault ∧
        (compilePreview template request .default).markup =
          (compilePreview body request .default).markup ∧
        (compilePreview template request .default).diagnostics = [.malformedSchema fault] := by
  intro broken later body template blocks request
  have stripped : stripSchema template = body := by decide +kernel
  have free : SchemaBlock.find? body = none := by decide +kernel
  have unread : (Schema.read template).isOk = false := by decide +kernel
  refine ⟨by decide +kernel, stripped, free, ?_⟩
  cases read : Schema.read template with
  | ok schema =>
    rw [read] at unread
    contradiction
  | error fault =>
    have same := compilePreview_of_malformed read (stripped ▸ free) request .default
    rw [stripped] at same
    have silent : (compilePreview body request .default).diagnostics = [] := by decide +kernel
    refine ⟨fault, rfl, same.1, ?_⟩
    rw [same.2, silent]

end FlatLiquid
