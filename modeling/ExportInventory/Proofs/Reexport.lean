import ExportInventory.Proofs.Classification
import ExportInventory.Proofs.Removal

/-!
Names that a module passes on from another one. They enter the table of exports like its own, so
that a source and the same source without them give the same records only as long as no exported
declaration depends on them.
-/
namespace ExportInventory

namespace Tree

/-- An export statement that lists names of another module and holds nothing else. -/
def isListReexport (t : Tree) : Bool :=
  t.kind == "export_statement" && (t.child? "source").isSome && (t.child? "declaration").isNone &&
    (t.child? "value").isNone && t.field.isNone &&
      (preorderAll t.children).all (fun n => !n.isOneOf ("export_statement" :: Kind.declaring))

/-- Drops the given ones among the lists of names of other modules, wherever statements stand. -/
def dropReexport (removed : Tree → Bool) (parent t : Tree) : Bool :=
  removed t && t.isListReexport && !parent.isOneOf Kind.transparent &&
    parent.field != some "arguments"

structure ListReexport (t : Tree) : Prop where
  kind : t.kind = "export_statement"
  source : (t.child? "source").isSome = true
  noDeclaration : t.child? "declaration" = none
  noValue : t.child? "value" = none
  noRole : t.field = none
  below : ∀ n ∈ preorderAll t.children, n.isOneOf ("export_statement" :: Kind.declaring) = false

private theorem isListReexport_iff {t : Tree} : t.isListReexport = true ↔ ListReexport t := by
  simp only [isListReexport, Bool.and_eq_true, beq_iff_eq, Option.isNone_iff_eq_none,
    List.all_eq_true, Bool.not_eq_true']
  constructor
  · rintro ⟨⟨⟨⟨⟨kind, source⟩, noDeclaration⟩, noValue⟩, noRole⟩, below⟩
    exact ⟨kind, source, noDeclaration, noValue, noRole, below⟩
  · rintro ⟨kind, source, noDeclaration, noValue, noRole, below⟩
    exact ⟨⟨⟨⟨⟨kind, source⟩, noDeclaration⟩, noValue⟩, noRole⟩, below⟩

theorem dropReexport_cases {removed : Tree → Bool} {parent t : Tree}
    (dropped : dropReexport removed parent t = true) :
    ListReexport t ∧ parent.isOneOf Kind.transparent = false ∧
      parent.field ≠ some "arguments" := by
  simp only [dropReexport, Bool.and_eq_true, Bool.not_eq_true', bne_iff_ne] at dropped
  obtain ⟨⟨⟨_, list⟩, expression⟩, argument⟩ := dropped
  exact ⟨isListReexport_iff.mp list, expression, argument⟩

theorem harmless_dropReexport (removed : Tree → Bool) : Harmless (dropReexport removed) := by
  constructor <;> intro parent t dropped <;>
    obtain ⟨list, expression, argument⟩ := dropReexport_cases dropped
  case noRole => exact list.noRole
  case noPart =>
    rw [isOneOf, list.kind]
    decide
  case noExpression => exact expression
  case noArgument => exact fun role => absurd role argument

namespace ListReexport

variable {t : Tree} (list : ListReexport t)
include list

theorem nodes {n : Tree} (member : n ∈ t.preorder) :
    n.isOneOf Kind.declaring = false ∧ (n.kind = "export_statement" → n = t) := by
  have position : n = t ∨ n ∈ preorderAll t.children := by
    cases t
    exact List.mem_cons.mp member
  rcases position with rfl | inside
  · refine ⟨?_, fun _ => rfl⟩
    rw [isOneOf, list.kind]
    decide
  · have absent := list.below n inside
    refine ⟨isOneOf_of_subset (List.subset_cons_self _ _) absent, fun kind => ?_⟩
    rw [isOneOf, kind] at absent
    exact absurd absent (by decide)

theorem contentOf_eq : ExportTable.contentOf t = .lists := by
  unfold ExportTable.contentOf
  rw [list.noDeclaration, list.noValue]

end ListReexport

end Tree

/-- The source without the given lists of names of other modules. -/
def Source.withoutReexports (removed : Tree → Bool) (s : Source) : Source :=
  s.without (Tree.dropReexport removed)

namespace ExportTable

private theorem flatMap_statements {β : Type} (s : Source) (f : Tree → List β) :
    (statements s).flatMap f =
      s.tree.preorder.flatMap (fun n => if n.kind == "export_statement" then f n else []) := by
  unfold statements
  induction s.tree.preorder with
  | nil => rfl
  | cons n rest ih =>
    rw [List.filter_cons, List.flatMap_cons, ← ih]
    split <;> rfl

section Reduced

variable (removed : Tree → Bool) (s : Source)

theorem flatMap_statements_withoutReexports {β : Type} (f g : Tree → List β)
    (kept : ∀ n : Tree, n.kind = "export_statement" →
      f (n.without (Tree.dropReexport removed)) = g n)
    (lost : ∀ t : Tree, t.ListReexport → g t = []) :
    (statements (s.withoutReexports removed)).flatMap f = (statements s).flatMap g := by
  rw [flatMap_statements, flatMap_statements]
  refine Tree.flatMap_preorder_without (P := fun _ => True) (fun _ _ _ _ => trivial) ?_ ?_ trivial
  · intro n _
    rw [Tree.kind_without]
    split
    · rename_i kind
      exact kept n (beq_iff_eq.mp kind)
    · rfl
  · intro parent _ t _ dropped n member
    have list := (Tree.dropReexport_cases dropped).1
    have only := (list.nodes member).2
    split
    · rename_i kind
      rw [only (beq_iff_eq.mp kind)]
      exact lost t list
    · rfl

private theorem inlineValues_withoutReexports :
    inlineValues (s.withoutReexports removed) =
      (inlineValues s).map (Tree.without (Tree.dropReexport removed)) := by
  unfold inlineValues
  rw [List.map_filterMap, List.filterMap_eq_flatMap_toList, List.filterMap_eq_flatMap_toList]
  apply flatMap_statements_withoutReexports
  · intro n kind
    exact congrArg Option.toList
      (inlineDefault?_without (Tree.harmless_dropReexport removed) s kind)
  · intro t list
    rw [inlineDefault?, list.contentOf_eq]
    rfl

private theorem visibility_bindingOf (name : String) (asName : Option String) :
    (bindingOf name asName true).visibility = .named := by
  unfold bindingOf
  simp

private theorem default_bindingsOf_listReexport {t : Tree} (list : t.ListReexport) :
    (bindingsOf s t).filter (fun b => b.visibility = .default) = [] := by
  rw [List.filter_eq_nil_iff]
  intro b member
  unfold bindingsOf at member
  rw [list.contentOf_eq] at member
  obtain ⟨clause, _, inside⟩ := List.mem_flatMap.mp (List.mem_filter.mp member).1
  rw [list.source] at inside
  unfold clauseBindings at inside
  split at inside
  · obtain ⟨specifier, _, given⟩ := List.mem_filterMap.mp inside
    unfold specifierBinding? at given
    split at given
    · cases given
    · obtain ⟨n, _, rfl⟩ := Option.map_eq_some_iff.mp given
      rw [visibility_bindingOf]
      decide
  · cases inside

private theorem defaultName_withoutReexports :
    (ofSource (s.withoutReexports removed)).defaultName = (ofSource s).defaultName := by
  have same : (allBindings (s.withoutReexports removed)).filter (fun b => b.visibility = .default) =
      (allBindings s).filter (fun b => b.visibility = .default) := by
    unfold allBindings
    rw [List.filter_flatMap, List.filter_flatMap]
    apply flatMap_statements_withoutReexports
    · intro n kind
      exact congrArg _ (bindingsOf_without (Tree.harmless_dropReexport removed) s kind)
    · exact fun t list => default_bindingsOf_listReexport s list
  rw [defaultName_ofSource, defaultName_ofSource, ← List.head?_filter, ← List.head?_filter,
    List.filter_reverse, List.filter_reverse, same]

private theorem exportTypeOf_withoutReexports (name : String) :
    (ofSource (s.withoutReexports removed)).exportTypeOf name = (ofSource s).exportTypeOf name := by
  rw [exportTypeOf, exportTypeOf, defaultName_withoutReexports]

private theorem exports_of_withoutReexports {name : String}
    (exported : (ofSource (s.withoutReexports removed)).exports name = true) :
    (ofSource s).exports name = true := by
  rw [exports_ofSource, List.any_eq_true] at exported
  obtain ⟨b, member, same⟩ := exported
  obtain ⟨reduced, inside, bound⟩ := List.mem_flatMap.mp member
  obtain ⟨walked, kind⟩ := List.mem_filter.mp inside
  obtain ⟨statement, original, rfl⟩ := List.mem_map.mp
    ((Tree.preorder_without_sublist s.tree).subset walked)
  rw [Tree.kind_without] at kind
  have bindings := bindingsOf_without (Tree.harmless_dropReexport removed) s (beq_iff_eq.mp kind)
  rw [← beq_iff_eq.mp same]
  refine exports_of_binding s (List.mem_filter.mpr ⟨original, kind⟩) ?_
  rw [← bindings]
  exact bound

end Reduced
end ExportTable

namespace ExportTable

private theorem assign_map {α β : Type} (f : α → β) (pairs : List (String × α)) (key : String)
    (value : α) :
    assign (pairs.map fun p => (p.1, f p.2)) key (f value) =
      (assign pairs key value).map fun p => (p.1, f p.2) := by
  unfold assign
  rw [List.any_map]
  change (if pairs.any (fun p => p.1 = key) then _ else _) = _
  split
  · rfl
  · simp

private theorem assignInline_without {drop : Tree → Tree → Bool} (harmless : Tree.Harmless drop)
    (s : Source) (pairs : List (String × Tree)) (values : List Tree) :
    assignInline (s.without drop) (pairs.map fun p => (p.1, p.2.without drop))
        (values.map (Tree.without drop)) =
      (assignInline s pairs values).map fun p => (p.1, p.2.without drop) := by
  induction values generalizing pairs with
  | nil => rfl
  | cons value rest ih =>
    have tail := ih (assign pairs (inlineName s value) value)
    rw [← assign_map] at tail
    unfold assignInline at tail ⊢
    rw [List.map_cons, List.foldl_cons, List.foldl_cons, inlineName_without harmless]
    exact tail

private theorem anonymousDefaults_withoutReexports (removed : Tree → Bool) (s : Source) :
    (ofSource (s.withoutReexports removed)).anonymousDefaults =
      (ofSource s).anonymousDefaults.map fun p =>
        (p.1, p.2.without (Tree.dropReexport removed)) := by
  rw [anonymousDefaults_ofSource, anonymousDefaults_ofSource, inlineValues_withoutReexports]
  exact assignInline_without (Tree.harmless_dropReexport removed) s [] (inlineValues s)

end ExportTable

namespace Declarations

theorem find?_map_without (drop : Tree → Tree → Bool) (list : List Declaration) (name : String) :
    (list.map (Declaration.without drop)).find? (fun d => d.name = name) =
      (list.find? (fun d => d.name = name)).map (Declaration.without drop) :=
  List.find?_map

private theorem place_without (drop : Tree → Tree → Bool) (list : List Declaration)
    (x : Declaration) :
    place (list.map (Declaration.without drop)) (x.without drop) =
      (place list x).map (Declaration.without drop) := by
  unfold place
  rw [show (x.without drop).name = x.name from rfl, find?_map_without]
  cases list.find? (fun y => y.name = x.name) with
  | none => simp
  | some existing =>
    change (if existing.topLevel || !x.topLevel then _ else _) = _
    split
    · simp [*]
    · rename_i taken
      simp only [taken, Bool.false_eq_true, if_false, List.map_append, List.filter_map]
      rfl

private theorem foldl_place_without (drop : Tree → Tree → Bool) (seen list : List Declaration) :
    (seen.map (Declaration.without drop)).foldl place (list.map (Declaration.without drop)) =
      (seen.foldl place list).map (Declaration.without drop) := by
  induction seen generalizing list with
  | nil => rfl
  | cons x rest ih => rw [List.map_cons, List.foldl_cons, place_without, ih, List.foldl_cons]

variable (removed : Tree → Bool) (s : Source)

private theorem inTree_withoutReexports :
    inTree (s.withoutReexports removed) =
      (inTree s).map (Declaration.without (Tree.dropReexport removed)) := by
  rw [inTree_eq, inTree_eq, List.map_filterMap, List.filterMap_eq_flatMap_toList,
    List.filterMap_eq_flatMap_toList]
  refine @Tree.flatMap_withScope_without _ _
    (fun n scope => (declaration? (s.withoutReexports removed) n scope).toList)
    (fun n scope => ((declaration? s n scope).map
      (Declaration.without (Tree.dropReexport removed))).toList) (fun _ => True)
    (fun _ _ _ _ => trivial) ?_ ?_ false s.tree trivial
  · intro n _ scope
    exact congrArg Option.toList
      (declaration?_without (Tree.harmless_dropReexport removed) s n scope)
  · intro parent _ t _ dropped n member scope
    have quiet := ((Tree.dropReexport_cases dropped).1.nodes member).1
    rw [(quiet_of_not_declaring s quiet).1 scope]
    rfl

theorem ofSource_list_withoutReexports :
    (ofSource (s.withoutReexports removed)
        (ExportTable.ofSource (s.withoutReexports removed))).list =
      (ofSource s (ExportTable.ofSource s)).list.map
        (Declaration.without (Tree.dropReexport removed)) := by
  have inline : (ExportTable.ofSource (s.withoutReexports removed)).anonymousDefaults.map
      (fun entry => inlineDeclaration (s.withoutReexports removed) entry.1 entry.2) =
        ((ExportTable.ofSource s).anonymousDefaults.map
          (fun entry => inlineDeclaration s entry.1 entry.2)).map
            (Declaration.without (Tree.dropReexport removed)) := by
    rw [ExportTable.anonymousDefaults_withoutReexports, List.map_map, List.map_map]
    congr 1
    funext entry
    exact inlineDeclaration_without s entry.1 entry.2
  rw [ofSource_list, ofSource_list, collected, collected, inTree_withoutReexports, inline,
    ← List.map_append]
  exact foldl_place_without (Tree.dropReexport removed) _ []

private theorem ofSource_defaultProps_withoutReexports :
    (ofSource (s.withoutReexports removed)
        (ExportTable.ofSource (s.withoutReexports removed))).defaultProps =
      (ofSource s (ExportTable.ofSource s)).defaultProps := by
  rw [ofSource_defaultProps, ofSource_defaultProps]
  refine congrArg (List.foldl ExportTable.insertName []) ?_
  rw [List.filterMap_eq_flatMap_toList, List.filterMap_eq_flatMap_toList]
  refine Tree.flatMap_preorder_without (P := fun _ => True) (fun _ _ _ _ => trivial) ?_ ?_ trivial
  · intro n _
    exact congrArg Option.toList (propsName?_without (Tree.harmless_dropReexport removed) s n)
  · intro parent _ t _ dropped n member
    have quiet := ((Tree.dropReexport_cases dropped).1.nodes member).1
    rw [(quiet_of_not_declaring s quiet).2]
    rfl

end Declarations

namespace Classification
open Declarations

/-- An exported declaration that does not depend on the removed lists: it is exported without them,
under the same name, and a function renders the same. -/
structure Unaffected (removed : Tree → Bool) (s : Source) (budget : Nat) (d : Declaration) :
    Prop where
  exported : (ExportTable.ofSource (s.withoutReexports removed)).exports d.name = true
  publicName : (ExportTable.ofSource (s.withoutReexports removed)).publicNameOf d.name =
    (ExportTable.ofSource s).publicNameOf d.name
  rendering : d.kind = .function →
    renders budget (d.node.without (Tree.dropReexport removed)) = renders budget d.node

private theorem map_filter_eq_map_iff {α β : Type} (l : List α) (p : α → Bool) (f g : α → β) :
    (l.filter p).map f = l.map g ↔ ∀ a ∈ l, p a = true ∧ f a = g a := by
  constructor
  · intro same
    have lengths := congrArg List.length same
    rw [List.length_map, List.length_map] at lengths
    have all := List.length_filter_eq_length_iff.mp lengths
    rw [List.filter_eq_self.mpr all, List.map_inj_left] at same
    exact fun a member => ⟨all a member, same a member⟩
  · intro each
    rw [List.filter_eq_self.mpr fun a member => (each a member).1, List.map_inj_left]
    exact fun a member => (each a member).2

section Reduced

variable (removed : Tree → Bool) (s : Source) (budget : Nat)

private theorem exported_withoutReexports :
    (Context.ofSource (s.withoutReexports removed) budget).exported =
      ((Context.ofSource s budget).exported.filter fun d =>
        (ExportTable.ofSource (s.withoutReexports removed)).exports d.name).map
          (Declaration.without (Tree.dropReexport removed)) := by
  have declared : (Context.ofSource (s.withoutReexports removed) budget).declarations.list =
      (Context.ofSource s budget).declarations.list.map
        (Declaration.without (Tree.dropReexport removed)) :=
    ofSource_list_withoutReexports removed s
  have sorted : ((Context.ofSource s budget).declarations.list.map
      (Declaration.without (Tree.dropReexport removed))).mergeSort
        (fun a b => a.node.start ≤ b.node.start) =
      ((Context.ofSource s budget).declarations.list.mergeSort
        (fun a b => a.node.start ≤ b.node.start)).map
          (Declaration.without (Tree.dropReexport removed)) := by
    rw [List.map_mergeSort]
    intro a _ b _
    simp [Declaration.without]
  unfold Context.exported
  rw [declared, sorted, List.filter_map, List.filter_filter]
  refine congrArg (List.map _) (List.filter_congr fun d _ => ?_)
  rw [Bool.eq_iff_iff, Bool.and_eq_true]
  constructor
  · intro visible
    exact ⟨visible, ExportTable.exports_of_withoutReexports removed s visible⟩
  · exact And.left

private theorem find?_withoutReexports (name : String) :
    (Context.ofSource (s.withoutReexports removed) budget).declarations.find? name =
      ((Context.ofSource s budget).declarations.find? name).map
        (Declaration.without (Tree.dropReexport removed)) := by
  have declared := ofSource_list_withoutReexports removed s
  exact (congrArg (List.find? fun d => d.name = name) declared).trans
    (find?_map_without _ _ name)

theorem hasDefaultProps_withoutReexports (name : String) :
    (Context.ofSource (s.withoutReexports removed) budget).declarations.hasDefaultProps name =
      (Context.ofSource s budget).declarations.hasDefaultProps name :=
  congrArg (fun names : List String => names.contains name)
    (ofSource_defaultProps_withoutReexports removed s)

private theorem wrappedParameters_withoutReexports (inner : Tree) :
    (Context.ofSource (s.withoutReexports removed) budget).wrappedParameters
        (inner.without (Tree.dropReexport removed)) =
      (Context.ofSource s budget).wrappedParameters inner := by
  have parameters := Tree.ofFunction_without (Tree.harmless_dropReexport removed) s
  have text := Tree.textOf_without (Tree.dropReexport removed) inner s
  have found : (Context.ofSource (s.withoutReexports removed) budget).declarations.find?
      ((Context.ofSource (s.withoutReexports removed) budget).source.textOf
        (inner.without (Tree.dropReexport removed))) =
      ((Context.ofSource s budget).declarations.find?
        ((Context.ofSource s budget).source.textOf inner)).map
          (Declaration.without (Tree.dropReexport removed)) :=
    (congrArg _ text).trans (find?_withoutReexports removed s budget (s.textOf inner))
  unfold Context.wrappedParameters
  rw [Tree.isOneOf_without, Tree.kind_without, found]
  split
  · exact parameters inner
  · split
    · cases (Context.ofSource s budget).declarations.find?
          ((Context.ofSource s budget).source.textOf inner) with
      | none => rfl
      | some target => exact if_congr Iff.rfl (parameters target.node) rfl
    · rfl

/-- The two records of a declaration differ in its public name and in what its kind decides. -/
theorem record_withoutReexports_iff (d : Declaration) {kind originalKind : RecordKind}
    {parameters original : List String} {props originalProps : Bool}
    (sameParameters : parameters = original) (sameProps : props = originalProps) :
    (Context.ofSource (s.withoutReexports removed) budget).record
        (d.without (Tree.dropReexport removed)) kind parameters props =
      (Context.ofSource s budget).record d originalKind original originalProps ↔
    (ExportTable.ofSource (s.withoutReexports removed)).publicNameOf d.name =
      (ExportTable.ofSource s).publicNameOf d.name ∧ kind = originalKind := by
  subst sameParameters sameProps
  have exportType := ExportTable.exportTypeOf_withoutReexports removed s d.name
  have declared := hasDefaultProps_withoutReexports removed s budget d.name
  unfold Context.record
  rw [Record.mk.injEq]
  constructor
  · rintro ⟨name, _, _, sameKind, _⟩
    exact ⟨name, sameKind⟩
  · rintro ⟨name, sameKind⟩
    exact ⟨name, exportType, rfl, sameKind, rfl, congrArg (· || props) declared, rfl⟩

private theorem functionRecord_withoutReexports_iff (d : Declaration) :
    (Context.ofSource (s.withoutReexports removed) budget).functionRecord
        (d.without (Tree.dropReexport removed)) = (Context.ofSource s budget).functionRecord d ↔
      (ExportTable.ofSource (s.withoutReexports removed)).publicNameOf d.name =
        (ExportTable.ofSource s).publicNameOf d.name ∧
      renders budget (d.node.without (Tree.dropReexport removed)) = renders budget d.node := by
  have parameters := Tree.ofFunction_without (Tree.harmless_dropReexport removed) s d.node
  refine (record_withoutReexports_iff removed s budget d parameters rfl).trans
    (and_congr_right fun _ => ?_)
  change ((if renders budget (d.node.without _) then RecordKind.component else .function) =
    if renders budget d.node then .component else .function) ↔ _
  cases renders budget (d.node.without (Tree.dropReexport removed)) <;>
    cases renders budget d.node <;> simp

private theorem wrappedRecord_withoutReexports_iff (d : Declaration) :
    (Context.ofSource (s.withoutReexports removed) budget).wrappedRecord
        (d.without (Tree.dropReexport removed)) = (Context.ofSource s budget).wrappedRecord d ↔
      (ExportTable.ofSource (s.withoutReexports removed)).publicNameOf d.name =
        (ExportTable.ofSource s).publicNameOf d.name := by
  have wrapped : Wrapper.inner? (Context.ofSource (s.withoutReexports removed) budget).source
      (d.without (Tree.dropReexport removed)).node =
        (Wrapper.inner? (Context.ofSource s budget).source d.node).map
          (Tree.without (Tree.dropReexport removed)) :=
    Tree.inner?_without (Tree.harmless_dropReexport removed) s d.node
  unfold Context.wrappedRecord
  rw [wrapped]
  cases Wrapper.inner? (Context.ofSource s budget).source d.node with
  | none => exact (record_withoutReexports_iff removed s budget d rfl rfl).trans (and_iff_left rfl)
  | some inner =>
    have parameters := wrappedParameters_withoutReexports removed s budget inner
    have props : ((inner.without (Tree.dropReexport removed)).kind == "identifier" &&
        (Context.ofSource (s.withoutReexports removed) budget).declarations.hasDefaultProps
          ((s.without (Tree.dropReexport removed)).textOf
            (inner.without (Tree.dropReexport removed)))) =
        (inner.kind == "identifier" &&
          (Context.ofSource s budget).declarations.hasDefaultProps (s.textOf inner)) := by
      rw [Tree.kind_without, Tree.textOf_without, hasDefaultProps_withoutReexports]
    exact (record_withoutReexports_iff removed s budget d parameters props).trans
      (and_iff_left rfl)

private theorem recordOf_withoutReexports_iff (d : Declaration) :
    (Context.ofSource (s.withoutReexports removed) budget).recordOf
        (d.without (Tree.dropReexport removed)) = (Context.ofSource s budget).recordOf d ↔
      (ExportTable.ofSource (s.withoutReexports removed)).publicNameOf d.name =
        (ExportTable.ofSource s).publicNameOf d.name ∧
      (d.kind = .function →
        renders budget (d.node.without (Tree.dropReexport removed)) = renders budget d.node) := by
  have ofClass := @record_withoutReexports_iff removed s budget d .component .component [] [] false
    false rfl rfl
  have ofFunction := functionRecord_withoutReexports_iff removed s budget d
  have ofWrapped := wrappedRecord_withoutReexports_iff removed s budget d
  unfold Context.recordOf
  rw [show (d.without (Tree.dropReexport removed)).kind = d.kind from rfl]
  cases d.kind with
  | classType => simpa using ofClass
  | function => simpa using ofFunction
  | wrapped => simpa using ofWrapped

/-- Without lists of names of other modules the records are the same exactly if no exported
declaration depends on the lists. -/
theorem records_withoutReexports_iff :
    records (s.withoutReexports removed) budget = records s budget ↔
      ∀ d ∈ (Context.ofSource s budget).exported, Unaffected removed s budget d := by
  unfold records Context.records
  rw [exported_withoutReexports, List.map_map, map_filter_eq_map_iff]
  refine forall_congr' fun d => imp_congr_right fun _ => ?_
  rw [Function.comp_apply, recordOf_withoutReexports_iff]
  constructor
  · rintro ⟨exported, publicName, rendering⟩
    exact ⟨exported, publicName, rendering⟩
  · rintro ⟨exported, publicName, rendering⟩
    exact ⟨exported, publicName, rendering⟩

end Reduced

def helperList : Tree :=
  ⟨"export_statement", true, 57, 90, none, false, [
    .leaf "export" false 57 63,
    ⟨"export_clause", true, 64, 74, none, false, [
      .leaf "\x7b" false 64 65,
      ⟨"export_specifier", true, 66, 72, none, false, [
        (Tree.leaf "identifier" true 66 72).withField (some "name")]⟩,
      .leaf "\x7d" false 73 74]⟩,
    .leaf "from" false 75 79,
    ⟨"string", true, 80, 89, some "source", false, [
      .leaf "'" false 80 81, .leaf "string_fragment" true 81 88, .leaf "'" false 88 89]⟩,
    .leaf ";" false 89 90]⟩

def boardSource : Source :=
  ⟨"/src/Board.jsx",
    Encoding.encode ("const helper = (a) => a;\nexport const visible = () => 1;\n" ++
      "export \x7b helper \x7d from './other';\n").toList,
    ⟨"program", true, 0, 91, none, false, [
      ⟨"lexical_declaration", true, 0, 24, none, false, [
        (Tree.leaf "const" false 0 5).withField (some "kind"),
        ⟨"variable_declarator", true, 6, 23, none, false, [
          (Tree.leaf "identifier" true 6 12).withField (some "name"), .leaf "=" false 13 14,
          ⟨"arrow_function", true, 15, 23, some "value", false, [
            ⟨"formal_parameters", true, 15, 18, some "parameters", false, [
              .leaf "(" false 15 16, .leaf "identifier" true 16 17, .leaf ")" false 17 18]⟩,
            .leaf "=>" false 19 21,
            (Tree.leaf "identifier" true 22 23).withField (some "body")]⟩]⟩,
        .leaf ";" false 23 24]⟩,
      ⟨"export_statement", true, 25, 56, none, false, [
        .leaf "export" false 25 31,
        ⟨"lexical_declaration", true, 32, 56, some "declaration", false, [
          (Tree.leaf "const" false 32 37).withField (some "kind"),
          ⟨"variable_declarator", true, 38, 55, none, false, [
            (Tree.leaf "identifier" true 38 45).withField (some "name"), .leaf "=" false 46 47,
            ⟨"arrow_function", true, 48, 55, some "value", false, [
              ⟨"formal_parameters", true, 48, 50, some "parameters", false, [
                .leaf "(" false 48 49, .leaf ")" false 49 50]⟩,
              .leaf "=>" false 51 53,
              (Tree.leaf "number" true 54 55).withField (some "body")]⟩]⟩,
          .leaf ";" false 55 56]⟩]⟩,
      helperList]⟩⟩

theorem board_records :
    helperList.isListReexport = true ∧
      (records boardSource Budget.standard).map (·.name) = ["helper", "visible"] ∧
      (records (boardSource.withoutReexports fun _ => true) Budget.standard).map (·.name) =
        ["visible"] := by
  rw [records_of_sorted _ _ (by decide +kernel), records_of_sorted _ _ (by decide +kernel)]
  decide +kernel

end Classification
end ExportInventory
