import ExportInventory.Analysis
import ExportInventory.Proofs.Classification
import ExportInventory.Proofs.Sketch

/-!
The report on a source text. Whatever the text is and whatever the parser makes of it, there is a
report and it is consistent.
-/
namespace ExportInventory

namespace Script.Dialect

private theorem value_of_lookup {β : Type} {pairs : List (String × β)} {p : β → Prop}
    (each : ∀ entry ∈ pairs, p entry.2) {key : String} {value : β}
    (found : pairs.lookup key = some value) : p value := by
  obtain ⟨before, after, table, _⟩ := List.lookup_eq_some_iff.mp found
  apply each (key, value)
  rw [table]
  exact List.mem_append_right _ List.mem_cons_self

private theorem ofExtension?_ne_nil {extension : String} {dialects : List Dialect}
    (known : ofExtension? extension = some dialects) : dialects ≠ [] := by
  unfold ofExtension? at known
  exact @value_of_lookup _ _ (· ≠ []) (by decide) _ _ known

private theorem ofPath_ne_nil (path : String) : ofPath path ≠ [] := by
  unfold ofPath
  cases known : ofExtension? (String.ofList ((Path.extension path).toList.map Char.toLower)) with
  | none => exact List.cons_ne_nil _ _
  | some dialects => exact ofExtension?_ne_nil known

end Script.Dialect

namespace Engine

variable (e : Engine) (t : Text) (path : String)

theorem isConsistent_sketch : (e.sketch t path).IsConsistent :=
  Sketch.Analysis.isConsistent_report _

/-- The report is consistent in all cases: with a tree and exported declarations, with a tree that
has none, and without a tree. On the way no region, no word of an item and no dialect is missing. -/
theorem analyze_isConsistent :
    (e.analyze t path).IsConsistent ∧
      (Sketch.Analysis.ofText t path (e.fragmentMarkup path)).IsWellPosed ∧
      Script.Dialect.ofPath path ≠ [] := by
  refine ⟨?_, Sketch.Analysis.isWellPosed_ofText t path _, Script.Dialect.ofPath_ne_nil path⟩
  unfold analyze
  cases e.parse? t path with
  | none => exact e.isConsistent_sketch t path
  | some parsed =>
    obtain ⟨_, source⟩ := parsed
    dsimp only
    split
    · exact e.isConsistent_sketch t path
    · exact Report.isConsistent_ofRecords
        (Classification.countP_isDefault_records_le source e.budget) path

end Engine
end ExportInventory
