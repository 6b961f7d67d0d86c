import Scriptorium.Export.Plan
import Scriptorium.Proofs.DocumentFormat
import Scriptorium.Proofs.TomlFile

/-! The file of a plan. Its statements fill just the tables that say what the plan says, and the plan is read back
from them, whatever characters its path, its terms and its asides are made of. -/
namespace Scriptorium

namespace Plan
open Toml (Statement)
variable {plan : Plan}

def layoutMembers (layout : Layout) : List (String × Datum) :=
  [("french_spacing", .text layout.frenchSpacing.name), ("text_direction", .text layout.direction.name),
    ("reversed_document_ids", .list (layout.reversedBooks.keys.map .text)), ("custom_css", .truth layout.customCss)]

def termMembers (plan : Plan) : List (String × Datum) :=
  plan.terms.entries.map fun entry => (entry.1, .natural entry.2.toNat)

def asideMembers (plan : Plan) : List (String × Datum) :=
  plan.asides.entries.map fun entry => (entry.1, .text entry.2)

def glossaryMembers (plan : Plan) : List (String × Datum) :=
  [("terms", .record plan.termMembers), ("asides", .record plan.asideMembers)]

def members (plan : Plan) : List (String × Datum) :=
  [("output_dir", .text plan.outputDir), ("render", layoutDatum plan.layout), ("glossary", plan.glossaryDatum)]

def assignments (members : List (String × Datum)) : List Statement :=
  members.map fun member => .assignment [member.1] member.2

def statements (plan : Plan) : List Statement :=
  assignments [("output_dir", .text plan.outputDir)] ++
    .header ["render"] :: (assignments (layoutMembers plan.layout) ++
    .header ["glossary", "terms"] :: (assignments plan.termMembers ++
    .header ["glossary", "asides"] :: (assignments plan.asideMembers ++ [])))

theorem readLayout?_layoutDatum (format : Format) (layout : Layout) :
    readLayout? format (layoutDatum layout) = some layout := by
  have fields : (layoutDatum layout).fields? format layoutFields = some (layoutMembers layout) :=
    Datum.fields?_record rfl (by decide)
  have frenchSpacing : Datum.defaulted? (layoutMembers layout) "french_spacing" (FrenchSpacing.read? format) .off =
      some layout.frenchSpacing :=
    FrenchSpacing.read?_name format layout.frenchSpacing
  have direction : Datum.defaulted? (layoutMembers layout) "text_direction" (Direction.read? format) .ltr =
      some layout.direction :=
    Direction.read?_name format layout.direction
  have reversedBooks : Datum.defaulted? (layoutMembers layout) "reversed_document_ids" Datum.names? ∅ =
      some layout.reversedBooks :=
    Settings.names?_of_perm (.refl _)
  have customCss : Datum.defaulted? (layoutMembers layout) "custom_css" Datum.bool? false = some layout.customCss :=
    rfl
  simp only [readLayout?, fields, frenchSpacing, direction, reversedBooks, customCss, bind, Option.bind, pure]

theorem readGlossary?_glossaryDatum (format : Format) (plan : Plan) :
    readGlossary? format plan.glossaryDatum = some (plan.terms, plan.asides) := by
  have fields : plan.glossaryDatum.fields? format ["terms", "asides"] = some plan.glossaryMembers :=
    Datum.fields?_record rfl (by decide)
  have terms : Datum.defaulted? plan.glossaryMembers "terms" Datum.terms? ∅ = some plan.terms :=
    Settings.terms?_of_perm (.refl _)
  have asides : Datum.defaulted? plan.glossaryMembers "asides"
      (fun datum => (datum.members? Datum.string?).map Index.ofList) ∅ = some plan.asides :=
    Option.map_eq_some_iff.mpr ⟨_,Datum.members?_map .text fun _ _ => rfl,Index.ofList_of_perm (.refl _)⟩
  simp only [readGlossary?, fields, terms, asides, bind, Option.bind, pure]

theorem read?_datum (format : Format) (plan : Plan) : read? format plan.datum = some plan := by
  have fields : plan.datum.fields? format ["output_dir", "render", "glossary"] = some plan.members :=
    Datum.fields?_record rfl (by decide)
  have outputDir : Datum.required? plan.members "output_dir" Datum.string? = some plan.outputDir :=
    rfl
  have layout : Datum.defaulted? plan.members "render" (readLayout? format) {} = some plan.layout :=
    readLayout?_layoutDatum format plan.layout
  have glossary : Datum.defaulted? plan.members "glossary" (readGlossary? format) (∅, ∅) =
      some (plan.terms, plan.asides) :=
    readGlossary?_glossaryDatum format plan
  simp only [read?, fields, outputDir, layout, glossary, bind, Option.bind, pure]

theorem statements?_bare {key value : String} {datum : Datum} (bare : Toml.writeKey key = key)
    (spells : Toml.Spells value datum) (count : Nat) (rest : List Char) :
    Toml.statements? (count + 1) ((Toml.assignment key value).toList ++ rest) =
      (Toml.statements? count rest).map (.assignment [key] datum :: ·) := by
  have read := Toml.statements?_assignment key spells count rest
  rwa [bare] at read

theorem toList_write (plan : Plan) : plan.write.toList =
    (Toml.assignment "output_dir" (Toml.quote plan.outputDir)).toList ++
    ((Toml.header "render").toList ++
    ((Toml.assignment "french_spacing" (Toml.quote plan.layout.frenchSpacing.name)).toList ++
    ((Toml.assignment "text_direction" (Toml.quote plan.layout.direction.name)).toList ++
    ((Toml.assignment "reversed_document_ids"
      (Toml.writeList (plan.layout.reversedBooks.keys.map Toml.quote))).toList ++
    ((Toml.assignment "custom_css" (Toml.writeTruth plan.layout.customCss)).toList ++
    ((Toml.header "glossary.terms").toList ++
    ((String.join (plan.terms.entries.map fun entry =>
      Toml.assignment (Toml.writeKey entry.1) (toString entry.2.toNat))).toList ++
    ((Toml.header "glossary.asides").toList ++
    ((String.join (plan.asides.entries.map fun entry =>
      Toml.assignment (Toml.writeKey entry.1) (Toml.quote entry.2))).toList ++ []))))))))) := by
  simp only [write, String.toList_append, List.append_assoc, List.append_nil]

theorem statements?_write (plan : Plan) (count : Nat) :
    Toml.statements? (plan.terms.entries.length + (plan.asides.entries.length + (count + 1) + 1) + 1 + 1 + 1 + 1 + 1 +
      1 + 1) plan.write.toList = some plan.statements := by
  have none : Toml.statements? (count + 1) [] = some [] := rfl
  have small (entry : String × UInt32) : entry.2.toNat < Nat.pow 2 128 :=
    Nat.lt_of_lt_of_le entry.2.toNat_lt (by decide)
  rw [toList_write, statements?_bare (by decide) (Toml.spells_quote _),
    Toml.statements?_header "render" ["render"] rfl (by decide) (fun _ => rfl),
    statements?_bare (by decide) (Toml.spells_quote _), statements?_bare (by decide) (Toml.spells_quote _),
    statements?_bare (by decide) (Toml.spells_writeList _), statements?_bare (by decide) (Toml.spells_truth _),
    Toml.statements?_header "glossary.terms" ["glossary", "terms"] rfl (by decide) (fun _ => rfl),
    Toml.statements?_assignments (fun entry : String × UInt32 => entry.1) (fun entry => toString entry.2.toNat)
      (fun entry => .natural entry.2.toNat) (fun entry => Toml.spells_natural (small entry)),
    Toml.statements?_header "glossary.asides" ["glossary", "asides"] rfl (by decide) (fun _ => rfl),
    Toml.statements?_assignments (fun entry : String × String => entry.1) (fun entry => Toml.quote entry.2)
      (fun entry => .text entry.2) (fun entry => Toml.spells_quote entry.2), none]
  simp only [statements, assignments, termMembers, asideMembers, List.map_map]
  rfl

theorem distinct_terms (plan : Plan) : (plan.termMembers.map (·.1)).Nodup := by
  rw [termMembers, List.map_map]
  exact plan.terms.keys_nodup

theorem distinct_asides (plan : Plan) : (plan.asideMembers.map (·.1)).Nodup := by
  rw [asideMembers, List.map_map]
  exact plan.asides.keys_nodup

section Tables
open Toml Entries

/-- The tables of a plan while the first of them, the second or the third is filled. -/
def renderTable (plan : Plan) (inner : Entries) : Entries :=
  [("output_dir", .leaf (.text plan.outputDir)), ("render", .table .header inner)]

def termTable (plan : Plan) (inner : Entries) : Entries :=
  plan.renderTable (leaves (layoutMembers plan.layout)) ++
    [("glossary", .table .implied [("terms", .table .header inner)])]

def asideTable (plan : Plan) (inner : Entries) : Entries :=
  plan.renderTable (leaves (layoutMembers plan.layout)) ++
    [("glossary", .table .implied
      [("terms", .table .header (leaves plan.termMembers)), ("asides", .table .header inner)])]

theorem edit_renderTable (finish? : Origin → Entries → Option Entries) (inner : Entries) :
    edit false finish? ["render"] .header (plan.renderTable inner) =
      (finish? .header inner).map plan.renderTable := by
  simp only [edit, change, renderTable]
  cases finish? .header inner <;> rfl

theorem edit_termTable (finish? : Origin → Entries → Option Entries) (inner : Entries) :
    edit false finish? ["glossary", "terms"] .header (plan.termTable inner) =
      (finish? .header inner).map plan.termTable := by
  simp only [edit, change, termTable, renderTable, List.cons_append, List.nil_append]
  cases finish? .header inner <;> rfl

theorem edit_asideTable (finish? : Origin → Entries → Option Entries) (inner : Entries) :
    edit false finish? ["glossary", "asides"] .header (plan.asideTable inner) =
      (finish? .header inner).map plan.asideTable := by
  simp only [edit, change, asideTable, renderTable, List.cons_append, List.nil_append]
  cases finish? .header inner <;> rfl

/-- The statements fill the tables of the plan. -/
theorem fill?_statements (plan : Plan) :
    fill? plan.statements [] [] = some (plan.asideTable (leaves plan.asideMembers)) := by
  have output (rest : List Statement) : fill? (assignments [("output_dir", .text plan.outputDir)] ++ rest) [] [] =
      fill? rest [] [("output_dir", .leaf (.text plan.outputDir))] :=
    rfl
  have render (rest : List Statement) : fill? (.header ["render"] :: rest) []
      [("output_dir", .leaf (.text plan.outputDir))] = fill? rest ["render"] (plan.renderTable []) :=
    rfl
  have terms (rest : List Statement) : fill? (.header ["glossary", "terms"] :: rest) ["render"]
      (plan.renderTable (leaves (layoutMembers plan.layout))) =
        fill? rest ["glossary", "terms"] (plan.termTable []) :=
    rfl
  have asides (rest : List Statement) : fill? (.header ["glossary", "asides"] :: rest) ["glossary", "terms"]
      (plan.termTable (leaves plan.termMembers)) = fill? rest ["glossary", "asides"] (plan.asideTable []) :=
    rfl
  rw [statements, output, render, assignments, fill?_assignments edit_renderTable, List.nil_append, terms,
    assignments, fill?_assignments edit_termTable, List.nil_append, asides, assignments,
    fill?_assignments edit_asideTable]
  · rfl
  · exact plan.distinct_asides
  · exact plan.distinct_terms
  · exact (by decide : layoutFields.Nodup)

theorem members_asideTable (plan : Plan) :
    Node.members (plan.asideTable (leaves plan.asideMembers)) = plan.members := by
  simp only [asideTable, renderTable, List.cons_append, List.nil_append, Node.members, Node.datum, members_leaves]
  rfl

/-- What the text of a plan says. -/
theorem toml_read?_write (plan : Plan) : Toml.read? plan.write = some plan.datum := by
  have begins : dropMark plan.write.toList = plan.write.toList := by
    have key : "output_dir".toList = 'o' :: "utput_dir".toList := rfl
    rw [toList_write, assignment, String.toList_append, String.toList_append, String.toList_append, key]
    rfl
  have header : (header "render").toList.length = 10 := rfl
  have terms := length_assignments (fun entry : String × UInt32 => entry.1) (fun entry => toString entry.2.toNat)
    plan.terms.entries
  have asides := length_assignments (fun entry : String × String => entry.1) (fun entry => quote entry.2)
    plan.asides.entries
  have long : plan.terms.entries.length + plan.asides.entries.length + 8 ≤ plan.write.toList.length := by
    rw [toList_write]
    simp only [List.length_append]
    omega
  obtain ⟨count,enough⟩ := Nat.exists_eq_add_of_le' long
  have fuel : plan.write.toList.length + 1 = plan.terms.entries.length +
      (plan.asides.entries.length + (count + 1) + 1) + 1 + 1 + 1 + 1 + 1 + 1 + 1 := by
    omega
  have read := plan.statements?_write count
  rw [← fuel] at read
  simp only [Toml.read?, begins, read, fill?_statements, members_asideTable, bind, Option.bind, pure]
  rfl

end Tables

/-- A plan is read back from its file as it stands there. -/
theorem readText?_write (plan : Plan) : readText? plan.write = some plan := by
  rw [readText?, toml_read?_write, Option.bind_some, read?_datum]

end Plan
end Scriptorium
