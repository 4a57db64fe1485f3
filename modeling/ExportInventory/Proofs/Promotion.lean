import ExportInventory.Proofs.PublicName
import Mathlib.Data.List.Forall2

/-!
The two passes over the candidates of a text. Both report the same candidates in the same order. The
second pass is made where the first finds no component, and turns some of the functions into
components; nothing else about them changes.
-/
namespace ExportInventory

def Record.promoted (r : Record) : Record := { r with kind := .component }

namespace Sketch.Analysis

variable (a : Analysis)

/-- What the second pass may do to a record of the first: nothing, or make a function a component. -/
def Promotes (r r' : Record) : Prop := r' = r ∨ r.isFunction = true ∧ r' = r.promoted

private theorem promoted_record (c : Candidate) (kind : RecordKind) :
    (a.record c kind).promoted = a.record c .component := rfl

private theorem strictKind?_of_no_component
    (none : (a.candidates.filterMap a.strict).any Record.isComponent = false) :
    ∀ c ∈ a.reported, strictKind? c = some .function := by
  intro c member
  obtain ⟨candidate, given⟩ := List.mem_filter.mp member
  obtain ⟨kind, shown⟩ := Option.isSome_iff_exists.mp given
  cases kind with
  | function => exact shown
  | component =>
    have recorded : a.record c .component ∈ a.candidates.filterMap a.strict := by
      apply List.mem_filterMap.mpr
      exact ⟨c, candidate, by rw [strict, shown, Option.map_some]⟩
    have absent := List.any_eq_false.mp none _ recorded
    exact absurd rfl absent

/-- Without a component in the first pass, each candidate that is reported at all is a function
there, and in the second pass a component if it has any markup. -/
theorem passes_of_no_component
    (none : (a.candidates.filterMap a.strict).any Record.isComponent = false) :
    a.candidates.filterMap a.strict = a.reported.map (fun c => a.record c .function) ∧
      a.candidates.filterMap a.permissive =
        a.reported.map fun c => a.record c (if a.isLoose c then .component else .function) := by
  have function := a.strictKind?_of_no_component none
  constructor
  · have given (c : Candidate) : (a.strict c).isSome = (strictKind? c).isSome := Option.isSome_map
    rw [a.filterMap_reported given]
    apply List.filterMap_eq_map_iff_forall_eq_some.mpr
    intro c member
    rw [strict, function c member, Option.map_some]
  · rw [a.filterMap_reported a.isSome_permissive]
    apply List.filterMap_eq_map_iff_forall_eq_some.mpr
    intro c member
    rw [permissive, strict, function c member]
    cases a.isLoose c <;> rfl

theorem records_eq :
    a.records = if (a.candidates.filterMap a.strict).any Record.isComponent then
        a.candidates.filterMap a.strict
      else a.candidates.filterMap a.permissive := by
  rw [records]
  cases a.candidates with
  | nil => rfl
  | cons c rest => rw [List.isEmpty_cons, Bool.false_or]

theorem records_report_perm :
    a.report.records.Perm
      (if a.records.isEmpty then [.bare (a.defaultName?.getD (Name.ofPath a.path)) a.path]
        else a.records) := by
  have some : (if a.records.isEmpty then
      [Record.bare (a.defaultName?.getD (Name.ofPath a.path)) a.path]
      else a.records).isEmpty = false := by
    cases a.records <;> rfl
  rw [report, Report.ofRecords_eq, some, if_neg Bool.false_ne_true]
  exact Report.records_parted_perm _

/-- The final records are those of the first pass, one by one. Where it finds a component nothing
changes; otherwise the functions that have any markup become components. The report holds these
records, or a single one for the whole file if there are none. -/
theorem records_promoted (t : Text) (path : String) (fragmentMarkup : Text → Bool) :
    let a := ofText t path fragmentMarkup
    let first := a.candidates.filterMap a.strict
    List.Forall₂ Promotes first a.records ∧
      a.records = (if first.any Record.isComponent then first
        else a.reported.map fun c => a.record c (if a.isLoose c then .component else .function)) ∧
      (Sketch.report t path fragmentMarkup).records.Perm
        (if a.records.isEmpty then [.bare (a.defaultName?.getD (Name.ofPath path)) path]
          else a.records) := by
  intro a first
  have final := a.records_eq
  cases shown : first.any Record.isComponent with
  | true =>
    have kept : a.records = first := final.trans (if_pos shown)
    refine ⟨?_, kept, a.records_report_perm⟩
    rw [kept, List.forall₂_same]
    intro r _
    exact .inl rfl
  | false =>
    obtain ⟨strict, permissive⟩ := a.passes_of_no_component shown
    have before : first = a.reported.map (fun c => a.record c .function) := strict
    have after : a.records = a.reported.map fun c =>
        a.record c (if a.isLoose c then .component else .function) :=
      (final.trans (if_neg (by rw [shown]; exact Bool.false_ne_true))).trans permissive
    refine ⟨?_, after, a.records_report_perm⟩
    rw [before, after, List.forall₂_map_left_iff, List.forall₂_map_right_iff, List.forall₂_same]
    intro c _
    cases a.isLoose c with
    | false => exact .inl rfl
    | true => exact .inr ⟨rfl, (a.promoted_record c .function).symm⟩

/-- A function that keeps its markup in a variable, beside one that has none. -/
example :
    let a := ofText (Text.ofString
      "export let A = (p) => \x7blet b = <p/>;\x7d\nexport let f = (n) => n;") "A.js" fun _ => false
    (a.candidates.filterMap a.strict).map (·.kind) = [.function, .function] ∧
      a.records.map (·.kind) = [.component, .function] := by
  decide +kernel

end Sketch.Analysis
end ExportInventory
