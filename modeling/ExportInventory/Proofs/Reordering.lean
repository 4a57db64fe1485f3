import ExportInventory.Proofs.Classification
import ExportInventory.Proofs.Correspondence
import Mathlib.Data.List.Find
import Mathlib.Data.List.Pairwise

/-!
Programs whose statements stand in another order. The exports and the declarations of a module are
read off before anything is resolved, so that only the order of the exports among themselves, and
that of declarations which compete for a name, can show in the records.
-/
namespace ExportInventory

/-- The source with other nodes below its root. -/
def Source.withChildren (s : Source) (children : List Tree) : Source :=
  { s with tree := { s.tree with children := children } }

def Tree.holdsExport (t : Tree) : Bool := t.preorder.any (fun n => n.kind == "export_statement")

private theorem Declaration.Corresponds.eq {d d' : Declaration} (same : d.Corresponds Eq d') :
    d' = d := by
  obtain ⟨name, kind, node, line, topLevel⟩ := d
  obtain ⟨rfl, rfl, rfl, rfl, rfl, _⟩ := same
  rfl

private theorem ExportTable.Corresponds.eq {t t' : ExportTable} (same : t.Corresponds Eq t') :
    t' = t := by
  obtain ⟨bindings, exportedNames, defaultNames, defaultName, aliases, anonymous⟩ := t
  obtain ⟨rfl, rfl, rfl, rfl, rfl, inline⟩ := same
  have equal : anonymous = t'.anonymousDefaults := by
    rw [← List.forall₂_eq_eq_eq]
    refine inline.imp fun p q pair => ?_
    exact Prod.ext pair.1.symm pair.2
  subst equal
  rfl

namespace Correspondence

private theorem option_refl (x : Option Tree) : Option.Rel Eq x x := by
  cases x with
  | none => exact .none
  | some a => exact .some rfl

theorem ofText {s s' : Source} (path : s'.path = s.path) (bytes : s'.bytes = s.bytes) :
    Correspondence s s' Eq := by
  constructor
  case path => exact path
  case bytes => exact bytes
  case members =>
    rintro a b rfl
    exact List.forall₂_same.mpr fun _ _ => rfl
  case rest =>
    rintro a b rfl _
    exact List.forall₂_same.mpr fun _ _ => rfl
  case parameters =>
    rintro a b rfl
    cases a.child? "parameters" with
    | none => exact .none
    | some list => exact .some (List.forall₂_same.mpr fun _ _ => rfl)
  all_goals
    rintro a b rfl
    intros
    first | rfl | exact option_refl _

end Correspondence

namespace Declarations

/-- No two declarations compete for a name: it has one declaration of the module, or one in all. -/
structure Unambiguous (seen : List Declaration) : Prop where
  ofModule : seen.Pairwise fun a b => a.name = b.name → ¬(a.topLevel = true ∧ b.topLevel = true)
  otherwise : seen.Pairwise fun a b => a.name = b.name →
    ∃ d ∈ seen, d.name = a.name ∧ d.topLevel = true

private theorem subsingleton_of_pairwise {α : Type} {p : α → Bool} {l : List α}
    (unique : l.Pairwise fun a b => ¬(p a = true ∧ p b = true)) :
    {x ∈ l | p x = true}.Subsingleton := by
  have symmetric : Std.Symm fun a b => ¬(p a = true ∧ p b = true) :=
    ⟨fun _ _ single both => single both.symm⟩
  rintro a ⟨first, left⟩ b ⟨second, right⟩
  by_contra different
  exact unique.forall first second different ⟨left, right⟩

/-- The order of the declarations does not decide which one a name stands for, if none compete. -/
theorem chosen?_eq_of_perm {seen seen' : List Declaration} (unambiguous : Unambiguous seen)
    (perm : seen'.Perm seen) (name : String) : chosen? seen' name = chosen? seen name := by
  have ofModule : seen'.find? (fun d => d.name = name && d.topLevel) =
      seen.find? (fun d => d.name = name && d.topLevel) := by
    refine (List.find?_eq_find?_of_perm perm.symm
      (subsingleton_of_pairwise (unambiguous.ofModule.imp ?_))).symm
    rintro a b single ⟨left, right⟩
    simp only [Bool.and_eq_true, decide_eq_true_eq] at left right
    exact single (left.1.trans right.1.symm) ⟨left.2, right.2⟩
  unfold chosen?
  rw [ofModule]
  cases top : seen.find? (fun d => d.name = name && d.topLevel) with
  | some d => rfl
  | none =>
    have first : seen'.find? (fun d => d.name = name) = seen.find? (fun d => d.name = name) := by
      refine (List.find?_eq_find?_of_perm perm.symm
        (subsingleton_of_pairwise (unambiguous.otherwise.imp ?_))).symm
      rintro a b declared ⟨left, right⟩
      simp only [decide_eq_true_eq] at left right
      obtain ⟨d, member, same, scope⟩ := declared (left.trans right.symm)
      have absent := List.find?_eq_none.mp top d member
      simp [same, left, scope] at absent
    rw [first]

theorem corresponds_self {s : Source} {exports : ExportTable} {d : Declaration}
    (member : d ∈ collected s exports) : d.Corresponds Eq d := by
  have same : Correspondence s s Eq := .ofText rfl rfl
  rcases List.mem_append.mp member with inside | inline
  · rw [inTree_eq] at inside
    obtain ⟨visit, _, declared⟩ := List.mem_filterMap.mp inside
    have related := same.declaration? (rfl : visit.1 = visit.1) visit.2
    rw [declared] at related
    cases related with
    | some pair => exact pair
  · obtain ⟨entry, _, rfl⟩ := List.mem_map.mp inline
    exact same.inlineDeclaration rfl entry.1

end Declarations

namespace Tree

private theorem filter_preorder_of_holdsExport {t : Tree} (none : t.holdsExport = false) :
    t.preorder.filter (fun n => n.kind == "export_statement") = [] := by
  rw [List.filter_eq_nil_iff]
  exact List.any_eq_false.mp none

private theorem filter_preorderAll (ts : List Tree) :
    (preorderAll ts).filter (fun n => n.kind == "export_statement") =
      (ts.filter holdsExport).flatMap fun t =>
        t.preorder.filter (fun n => n.kind == "export_statement") := by
  rw [preorderAll_eq_flatMap, List.filter_flatMap]
  induction ts with
  | nil => rfl
  | cons t rest ih =>
    rw [List.flatMap_cons, ih]
    cases held : t.holdsExport with
    | true => simp [held]
    | false => simp [held, filter_preorder_of_holdsExport held]

end Tree

namespace Source

variable {s : Source} {children : List Tree} (program : s.tree.kind = "program")
include program

private theorem statements_withChildren
    (order : children.filter Tree.holdsExport = s.tree.children.filter Tree.holdsExport) :
    ExportTable.statements (s.withChildren children) = ExportTable.statements s := by
  obtain ⟨path, bytes, kind, named, start, stop, field, missing, old⟩ := s
  change kind = "program" at program
  change children.filter Tree.holdsExport = old.filter Tree.holdsExport at order
  unfold ExportTable.statements withChildren
  simp only [Tree.preorder, List.filter_cons, program, Tree.filter_preorderAll, order]
  rfl

section Walk

variable (perm : children.Perm s.tree.children)
include perm

theorem filterMap_withScope_perm {β : Type} {f : Tree → Bool → Option β}
    (quiet : ∀ t : Tree, t.kind = "program" → f t false = none) :
    (((s.withChildren children).tree.withScope false).filterMap fun v => f v.1 v.2).Perm
      ((s.tree.withScope false).filterMap fun v => f v.1 v.2) := by
  obtain ⟨path, bytes, kind, named, start, stop, field, missing, old⟩ := s
  have root (below : List Tree) : f ⟨kind, named, start, stop, field, missing, below⟩ false = none :=
    quiet _ program
  unfold withChildren
  simp only [Tree.withScope, List.filterMap_cons, root, Tree.withScopeAll_eq_flatMap]
  exact (perm.flatMap_right _).filterMap _

private theorem inTree_withChildren_perm :
    (Declarations.inTree (s.withChildren children)).Perm (Declarations.inTree s) := by
  have same : Correspondence s (s.withChildren children) Eq := .ofText rfl rfl
  have equal : Declarations.declaration? (s.withChildren children) = Declarations.declaration? s := by
    funext n scope
    simpa using map_eq_of_rel (f := id) (g := id) (fun _ _ pair => pair.eq)
      (same.declaration? (rfl : n = n) scope)
  rw [Declarations.inTree_eq, Declarations.inTree_eq, equal]
  refine filterMap_withScope_perm program perm fun t root => ?_
  exact (Declarations.quiet_of_not_declaring s (by rw [Tree.isOneOf, root]; decide)).1 false

private theorem hasDefaultProps_withChildren (exports : ExportTable) (name : String) :
    (Declarations.ofSource (s.withChildren children) exports).hasDefaultProps name =
      (Declarations.ofSource s exports).hasDefaultProps name := by
  have same : Correspondence s (s.withChildren children) Eq := .ofText rfl rfl
  have equal : Declarations.propsName? (s.withChildren children) = Declarations.propsName? s :=
    funext fun n => same.propsName? (rfl : n = n)
  have names : ((s.withChildren children).tree.preorder.filterMap (Declarations.propsName? s)).Perm
      (s.tree.preorder.filterMap (Declarations.propsName? s)) := by
    rw [← Tree.withScope_fst false, ← Tree.withScope_fst false, List.filterMap_map,
      List.filterMap_map]
    refine filterMap_withScope_perm (f := fun n _ => Declarations.propsName? s n) program perm
      fun t root => ?_
    exact (Declarations.quiet_of_not_declaring s (by rw [Tree.isOneOf, root]; decide)).2
  unfold Declarations.hasDefaultProps
  rw [Declarations.ofSource_defaultProps, Declarations.ofSource_defaultProps, equal,
    ExportTable.contains_foldl_insertName, ExportTable.contains_foldl_insertName]
  exact congrArg _ (names.contains_eq)

end Walk
end Source

namespace Classification
open Declarations

section Program

variable {s : Source} {children : List Tree} (program : s.tree.kind = "program")

private theorem ofSource_withChildren (program : s.tree.kind = "program")
    (order : children.filter Tree.holdsExport = s.tree.children.filter Tree.holdsExport) :
    ExportTable.ofSource (s.withChildren children) = ExportTable.ofSource s := by
  have same : Correspondence s (s.withChildren children) Eq := .ofText rfl rfl
  refine ExportTable.Corresponds.eq (same.table ?_)
  rw [Source.statements_withChildren program order, List.forall₂_same]
  intro statement member
  exact ⟨rfl, beq_iff_eq.mp (List.mem_filter.mp member).2⟩

variable (perm : children.Perm s.tree.children)
  (unambiguous : Unambiguous (collected s (ExportTable.ofSource s)))
include program perm unambiguous

theorem chosen?_withChildren (name : String) :
    chosen? (collected (s.withChildren children) (ExportTable.ofSource s)) name =
      chosen? (collected s (ExportTable.ofSource s)) name :=
  chosen?_eq_of_perm unambiguous
    ((Source.inTree_withChildren_perm program perm).append_right _) name

private theorem find?_withChildren (name : String) :
    Option.Rel (Declaration.Corresponds Eq)
      ((Declarations.ofSource s (ExportTable.ofSource s)).find? name)
      ((Declarations.ofSource (s.withChildren children) (ExportTable.ofSource s)).find? name) := by
  have found := (settled_ofSource s (ExportTable.ofSource s)).chosen name
  have found' := (settled_ofSource (s.withChildren children) (ExportTable.ofSource s)).chosen name
  rw [chosen?_withChildren program perm unambiguous, ← found] at found'
  unfold Declarations.find?
  rw [found']
  cases present : (Declarations.ofSource s (ExportTable.ofSource s)).list.find?
      (fun d => d.name = name) with
  | none => exact .none
  | some d => exact .some (corresponds_self (mem_of_chosen? (found.symm.trans present)))

variable (table : ExportTable.ofSource (s.withChildren children) = ExportTable.ofSource s)
  (budget : Nat)
include table

private theorem context_withChildren :
    (Context.ofSource s budget).Corresponds Eq
      (Context.ofSource (s.withChildren children) budget) := by
  refine ⟨.ofText rfl rfl, ?_, ?_, ?_, ?_, ?_⟩
  · exact fun name => congrArg (·.publicNameOf name) table
  · exact fun name => congrArg (·.exportTypeOf name) table
  · unfold Context.ofSource
    rw [table]
    exact find?_withChildren program perm unambiguous
  · unfold Context.ofSource
    rw [table]
    exact Source.hasDefaultProps_withChildren program perm _
  · rintro a b rfl
    rfl

private theorem exported_withChildren_perm :
    (Context.ofSource (s.withChildren children) budget).exported.Perm
      (Context.ofSource s budget).exported := by
  have distinct := (names_exported_nodup s budget).of_map
  have distinct' := (names_exported_nodup (s.withChildren children) budget).of_map
  rw [List.perm_ext_iff_of_nodup distinct' distinct]
  intro d
  rw [mem_exported_iff, mem_exported_iff, table, chosen?_withChildren program perm unambiguous]

end Program

/-- Statements may stand in any order that keeps the one of the exports: if no two declarations
compete for a name, the table is the same and so are the records, but for their order. -/
theorem records_withChildren_perm (s : Source) (budget : Nat) {children : List Tree}
    (program : s.tree.kind = "program") (perm : children.Perm s.tree.children)
    (order : children.filter Tree.holdsExport = s.tree.children.filter Tree.holdsExport)
    (unambiguous : Unambiguous (collected s (ExportTable.ofSource s))) :
    ExportTable.ofSource (s.withChildren children) = ExportTable.ofSource s ∧
      (records (s.withChildren children) budget).Perm (records s budget) := by
  have table := ofSource_withChildren program order
  have context := context_withChildren program perm unambiguous table budget
  have exported := exported_withChildren_perm program perm unambiguous table budget
  have described : (Context.ofSource s budget).exported.map
      (Context.ofSource (s.withChildren children) budget).recordOf = records s budget := by
    refine List.map_congr_left fun d member => ?_
    obtain ⟨_, found⟩ := (mem_exported_iff s budget d).mp member
    exact context.recordOf (corresponds_self (mem_of_chosen? found))
  refine ⟨table, ?_⟩
  rw [← described]
  exact exported.map _

/-- The export comes first, then a wrapper around a function that is declared later and gets its
default properties last. -/
def tileSource : Source :=
  ⟨"/src/Card.jsx",
    Encoding.encode ("export \x7b Card as Tile \x7d;\nconst Card = memo(Inner);\n" ++
      "function Inner(\x7b title \x7d) \x7b return <p/>; \x7d\n" ++
      "Inner.defaultProps = \x7b\x7d;\n").toList,
    ⟨"program", true, 0, 119, none, false, [
      ⟨"export_statement", true, 0, 24, none, false, [
        .leaf "export" false 0 6,
        ⟨"export_clause", true, 7, 23, none, false, [
          .leaf "\x7b" false 7 8,
          ⟨"export_specifier", true, 9, 21, none, false, [
            (Tree.leaf "identifier" true 9 13).withField (some "name"), .leaf "as" false 14 16,
            (Tree.leaf "identifier" true 17 21).withField (some "alias")]⟩,
          .leaf "\x7d" false 22 23]⟩,
        .leaf ";" false 23 24]⟩,
      ⟨"lexical_declaration", true, 25, 50, none, false, [
        (Tree.leaf "const" false 25 30).withField (some "kind"),
        ⟨"variable_declarator", true, 31, 49, none, false, [
          (Tree.leaf "identifier" true 31 35).withField (some "name"), .leaf "=" false 36 37,
          ⟨"call_expression", true, 38, 49, some "value", false, [
            (Tree.leaf "identifier" true 38 42).withField (some "function"),
            ⟨"arguments", true, 42, 49, some "arguments", false, [
              .leaf "(" false 42 43, .leaf "identifier" true 43 48, .leaf ")" false 48 49]⟩]⟩]⟩,
        .leaf ";" false 49 50]⟩,
      ⟨"function_declaration", true, 51, 93, none, false, [
        .leaf "function" false 51 59,
        (Tree.leaf "identifier" true 60 65).withField (some "name"),
        ⟨"formal_parameters", true, 65, 76, some "parameters", false, [
          .leaf "(" false 65 66,
          ⟨"object_pattern", true, 66, 75, none, false, [
            .leaf "\x7b" false 66 67, .leaf "shorthand_property_identifier_pattern" true 68 73,
            .leaf "\x7d" false 74 75]⟩,
          .leaf ")" false 75 76]⟩,
        ⟨"statement_block", true, 77, 93, some "body", false, [
          .leaf "\x7b" false 77 78,
          ⟨"return_statement", true, 79, 91, none, false, [
            .leaf "return" false 79 85,
            ⟨"jsx_self_closing_element", true, 86, 90, none, false, [
              .leaf "<" false 86 87, (Tree.leaf "identifier" true 87 88).withField (some "name"),
              .leaf "/>" false 88 90]⟩,
            .leaf ";" false 90 91]⟩,
          .leaf "\x7d" false 92 93]⟩]⟩,
      ⟨"expression_statement", true, 94, 118, none, false, [
        ⟨"assignment_expression", true, 94, 117, none, false, [
          ⟨"member_expression", true, 94, 112, some "left", false, [
            (Tree.leaf "identifier" true 94 99).withField (some "object"), .leaf "." false 99 100,
            (Tree.leaf "property_identifier" true 100 112).withField (some "property")]⟩,
          .leaf "=" false 113 114,
          ⟨"object", true, 115, 117, some "right", false, [
            .leaf "\x7b" false 115 116, .leaf "\x7d" false 116 117]⟩]⟩,
        .leaf ";" false 117 118]⟩]⟩⟩

theorem tile_records_reversed :
    tileSource.tree.kind = "program" ∧
      Unambiguous (collected tileSource (ExportTable.ofSource tileSource)) ∧
      records tileSource Budget.standard =
        [⟨"Tile", .named, "/src/Card.jsx", .component, ["title"], true, some 2⟩] ∧
      ExportTable.ofSource (tileSource.withChildren tileSource.tree.children.reverse) =
        ExportTable.ofSource tileSource ∧
      (records (tileSource.withChildren tileSource.tree.children.reverse) Budget.standard).Perm
        (records tileSource Budget.standard) := by
  have unambiguous : Unambiguous (collected tileSource (ExportTable.ofSource tileSource)) :=
    ⟨by decide +kernel, by decide +kernel⟩
  have described : records tileSource Budget.standard =
      [⟨"Tile", .named, "/src/Card.jsx", .component, ["title"], true, some 2⟩] := by
    rw [records_of_sorted _ _ (by decide +kernel)]
    decide +kernel
  exact ⟨rfl, unambiguous, described, records_withChildren_perm tileSource Budget.standard rfl
    (List.reverse_perm _) rfl unambiguous⟩

end Classification
end ExportInventory
