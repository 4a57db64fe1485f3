import ExportInventory.Proofs.Classification

/-!
Default properties in the records of a source. They are collected by name, from assignments and from
the classes in the tree, whichever declaration the name stands for in the end. So a class of the same
name elsewhere counts, and a class that is exported inline does not.
-/
namespace ExportInventory

namespace Declarations

variable (s : Source)

/-- The node is an assignment `name.defaultProps = …`. -/
def AssignsProps (t : Tree) (name : String) : Prop :=
  t.kind = "assignment_expression" ∧
    ∃ left object property, t.child? "left" = some left ∧ left.kind = "member_expression" ∧
      left.child? "object" = some object ∧ object.kind = "identifier" ∧ s.textOf object = name ∧
      left.child? "property" = some property ∧ s.textOf property = "defaultProps"

/-- Default properties are assigned to the name somewhere in the tree. -/
def IsAssignedProps (name : String) : Prop := ∃ t ∈ s.tree.preorder, AssignsProps s t name

/-- The class member is a field `static defaultProps`. -/
def IsPropsField (member : Tree) : Prop :=
  member.kind ∈ Kind.classFields ∧ (∃ c ∈ member.children, c.kind = "static") ∧
    ∃ n, ((member.child? "property").or (member.child? "name")) = some n ∧
      s.textOf n = "defaultProps"

/-- The declaration is a class with a static field for default properties. -/
def IsPropsClass (d : Declaration) : Prop :=
  d.kind = .classType ∧
    ∃ body, d.node.child? "body" = some body ∧ ∃ member ∈ body.namedChildren, IsPropsField s member

private theorem isStaticDefaultProps_iff (member : Tree) :
    isStaticDefaultProps s member = true ↔ IsPropsField s member := by
  simp only [isStaticDefaultProps, IsPropsField, Tree.isOneOf, Bool.and_eq_true, List.any_eq_true,
    List.contains_iff_mem, Option.any_eq_true, beq_iff_eq, and_assoc]
  exact and_congr_right fun _ => and_comm

theorem hasStaticDefaultProps_iff (classNode : Tree) :
    hasStaticDefaultProps s classNode = true ↔
      ∃ body, classNode.child? "body" = some body ∧
        ∃ member ∈ body.namedChildren, IsPropsField s member := by
  unfold hasStaticDefaultProps
  cases classNode.child? "body" with
  | none => simp
  | some body => simp [List.any_eq_true, isStaticDefaultProps_iff]

theorem classProps?_eq_some_iff (classNode : Tree) (name other : String) :
    classProps? s name classNode = some other ↔
      name = other ∧ hasStaticDefaultProps s classNode = true := by
  unfold classProps?
  split <;> simp_all

private theorem assignedProps?_eq_some_iff {t : Tree}
    (assignment : t.kind = "assignment_expression")
    (name : String) : assignedProps? s t = some name ↔ AssignsProps s t name := by
  unfold assignedProps? AssignsProps
  cases t.child? "left" with
  | none => simp
  | some left =>
    dsimp only
    by_cases member : left.kind = "member_expression"
    · rw [if_neg (by simp [member])]
      cases base : left.child? "object" with
      | none => simp [base]
      | some object =>
        cases name : left.child? "property" with
        | none => simp [name]
        | some property =>
          by_cases identifier : object.kind = "identifier" <;>
            by_cases props : s.textOf property = "defaultProps" <;>
              simp [assignment, member, base, name, identifier, props]
    · simp [member]

private theorem propsName?_of_assignment {t : Tree}
    (assignment : t.kind = "assignment_expression") :
    propsName? s t = assignedProps? s t := by
  simp [propsName?, Tree.isOneOf, assignment, Kind.functionDeclarations, Kind.classDeclarations]

private theorem declaratorProps?_eq_some_iff (t : Tree) (scope : Bool) (name : String) :
    declaratorProps? s t = some name ↔
      ∃ d, declaratorDeclaration? s t scope = some d ∧ d.name = name ∧ IsPropsClass s d := by
  unfold declaratorProps? declaratorDeclaration? valueKind? IsPropsClass
  cases t.child? "name" with
  | none => simp
  | some n =>
    cases (t.child? "value").map Tree.unwrapped with
    | none => simp
    | some value =>
      dsimp only
      by_cases identifier : n.kind = "identifier"
      · cases function : value.isOneOf Kind.functionExpressions with
        | true => simp [identifier]
        | false =>
          cases classType : value.isOneOf Kind.classExpressions with
          | true => simp [identifier, classProps?_eq_some_iff, hasStaticDefaultProps_iff]
          | false => cases Wrapper.isCall s value <;> simp [identifier]
      · simp [identifier]

private theorem namedProps?_eq_some_iff (t : Tree) (scope : Bool) (name : String) :
    ((t.child? "name").bind fun n => classProps? s (s.textOf n) t) = some name ↔
      ∃ d, namedDeclaration? s .classType t scope = some d ∧ d.name = name ∧ IsPropsClass s d := by
  unfold namedDeclaration? IsPropsClass
  cases t.child? "name" with
  | none => simp
  | some n => simp [classProps?_eq_some_iff, hasStaticDefaultProps_iff]

private theorem propsName?_eq_some_iff (t : Tree) (scope : Bool) (name : String) :
    propsName? s t = some name ↔
      AssignsProps s t name ∨
        ∃ d, declaration? s t scope = some d ∧ d.name = name ∧ IsPropsClass s d := by
  by_cases assignment : t.kind = "assignment_expression"
  · have silent : declaration? s t scope = none := by
      simp [declaration?, Tree.isOneOf, assignment, Kind.functionDeclarations,
        Kind.classDeclarations]
    rw [propsName?_of_assignment s assignment, assignedProps?_eq_some_iff s assignment, silent]
    simp
  · have other : ¬ AssignsProps s t name := fun assigns => assignment assigns.1
    rw [or_iff_right other]
    unfold propsName? declaration?
    cases t.isOneOf Kind.functionDeclarations with
    | true => simp [namedDeclaration?, IsPropsClass]
    | false =>
      cases t.isOneOf Kind.classDeclarations with
      | true => simpa using namedProps?_eq_some_iff s t scope name
      | false =>
        by_cases declarator : t.kind = "variable_declarator"
        · simpa [declarator] using declaratorProps?_eq_some_iff s t scope name
        · simp [declarator, assignment]

/-- The names with default properties: those that are assigned some, and those of the classes in the
tree that have a static field for them. -/
theorem hasDefaultProps_iff (exports : ExportTable) (name : String) :
    (ofSource s exports).hasDefaultProps name = true ↔
      IsAssignedProps s name ∨ ∃ d ∈ inTree s, d.name = name ∧ IsPropsClass s d := by
  have walked : s.tree.preorder = (s.tree.withScope false).map Prod.fst :=
    (Tree.withScope_fst false s.tree).symm
  rw [hasDefaultProps, ofSource_defaultProps, ExportTable.contains_foldl_insertName,
    List.contains_nil, Bool.false_or, List.contains_iff_mem, List.mem_filterMap]
  constructor
  · rintro ⟨t, member, gives⟩
    rw [walked] at member
    obtain ⟨visit, visited, rfl⟩ := List.mem_map.mp member
    rcases (propsName?_eq_some_iff s visit.1 visit.2 name).mp gives with assigns | ⟨d, declared, props⟩
    · exact .inl ⟨visit.1, walked ▸ member, assigns⟩
    · refine .inr ⟨d, ?_, props⟩
      rw [inTree_eq]
      exact List.mem_filterMap.mpr ⟨visit, visited, declared⟩
  · rintro (⟨t, member, assigns⟩ | ⟨d, member, props⟩)
    · exact ⟨t, member, (propsName?_eq_some_iff s t false name).mpr (.inl assigns)⟩
    · rw [inTree_eq] at member
      obtain ⟨visit, visited, declared⟩ := List.mem_filterMap.mp member
      refine ⟨visit.1, ?_, (propsName?_eq_some_iff s visit.1 visit.2 name).mpr
        (.inr ⟨d, declared, props⟩)⟩
      rw [walked]
      exact List.mem_map_of_mem visited

end Declarations

namespace Classification
open Declarations

private theorem hasDefaultProps_recordOf {c : Context} {d : Declaration}
    (plain : d.kind ≠ .wrapped) :
    (c.recordOf d).hasDefaultProps = c.declarations.hasDefaultProps d.name := by
  unfold Context.recordOf
  cases kind : d.kind with
  | classType => simp [Context.record]
  | wrapped => exact absurd kind plain
  | function => simp [Context.functionRecord, Context.record]

/-- The record of a function or class has default properties exactly if they are assigned to its name
or some class in the tree that goes by the name has a static field for them. This agrees with what
the described declaration says for itself if they are assigned, or if the declaration is such a class
exactly when some class in the tree is. -/
theorem hasDefaultProps_record_iff (s : Source) (budget : Nat) {d : Declaration}
    (member : d ∈ (Context.ofSource s budget).exported) (plain : d.kind ≠ .wrapped) :
    (Context.ofSource s budget).recordOf d ∈ records s budget ∧
      (((Context.ofSource s budget).recordOf d).hasDefaultProps = true ↔
        IsAssignedProps s d.name ∨ ∃ x ∈ inTree s, x.name = d.name ∧ IsPropsClass s x) ∧
      ((((Context.ofSource s budget).recordOf d).hasDefaultProps = true ↔
          IsAssignedProps s d.name ∨ IsPropsClass s d) ↔
        IsAssignedProps s d.name ∨
          (IsPropsClass s d ↔ ∃ x ∈ inTree s, x.name = d.name ∧ IsPropsClass s x)) := by
  have collects : ((Context.ofSource s budget).recordOf d).hasDefaultProps = true ↔
      IsAssignedProps s d.name ∨ ∃ x ∈ inTree s, x.name = d.name ∧ IsPropsClass s x := by
    rw [hasDefaultProps_recordOf plain]
    exact hasDefaultProps_iff s (ExportTable.ofSource s) d.name
  refine ⟨List.mem_map_of_mem member, collects, ?_⟩
  rw [collects]
  by_cases assigned : IsAssignedProps s d.name
  · simp [assigned]
  -- Without an assignment it is between the described class and those that were collected.
  · simp only [assigned, false_or]
    exact iff_comm

def propsBody (start : Nat) : Tree :=
  ⟨"class_body", true, start, start + 29, some "body", false, [
    .leaf "\x7b" false start (start + 1),
    ⟨"field_definition", true, start + 2, start + 26, some "member", false, [
      .leaf "static" false (start + 2) (start + 8),
      (Tree.leaf "property_identifier" true (start + 9) (start + 21)).withField (some "property"),
      .leaf "=" false (start + 22) (start + 23),
      (Tree.leaf "object" true (start + 24) (start + 26)).withField (some "value")]⟩,
    .leaf ";" false (start + 26) (start + 27), .leaf "\x7d" false (start + 28) (start + 29)]⟩

theorem isPropsClass_of_propsBody {s : Source} {d : Declaration} {start : Nat}
    (kind : d.kind = .classType) (body : d.node.child? "body" = some (propsBody start))
    (text : s.textOf (.leaf "property_identifier" true (start + 9) (start + 21)) = "defaultProps") :
    IsPropsClass s d := by
  refine ⟨kind, _, body, _, List.mem_singleton.mpr rfl, List.mem_cons_self, ?_, _, rfl, text⟩
  exact ⟨_, List.mem_cons_self, rfl⟩

def propsClass (start : Nat) : Tree :=
  ⟨"class_declaration", true, start, start + 40, none, false, [
    .leaf "class" false start (start + 5),
    (Tree.leaf "identifier" true (start + 6) (start + 10)).withField (some "name"),
    propsBody (start + 11)]⟩

def exportOf (start : Nat) (declaration : Tree) : Tree :=
  ⟨"export_statement", true, start, declaration.stop, none, false, [
    .leaf "export" false start (start + 6), declaration.withField (some "declaration")]⟩

def cardClassSource : Source :=
  ⟨"/src/Card.jsx",
    Encoding.encode "export class Card \x7b static defaultProps = \x7b\x7d; \x7d\n".toList,
    ⟨"program", true, 0, 48, none, false, [exportOf 0 (propsClass 7)]⟩⟩

def cardClass : Declaration :=
  ⟨"Card", .classType, (propsClass 7).withField (some "declaration"), 1, true⟩

theorem cardClass_props :
    cardClass ∈ (Context.ofSource cardClassSource Budget.standard).exported ∧
      IsPropsClass cardClassSource cardClass ∧
      ((Context.ofSource cardClassSource Budget.standard).recordOf cardClass).hasDefaultProps =
        true := by
  have member : cardClass ∈ (Context.ofSource cardClassSource Budget.standard).exported := by
    rw [mem_exported_iff]
    exact ⟨by decide +kernel, rfl⟩
  have props : IsPropsClass cardClassSource cardClass :=
    isPropsClass_of_propsBody rfl rfl (by decide +kernel)
  obtain ⟨_, collects, _⟩ :=
    hasDefaultProps_record_iff cardClassSource Budget.standard member (by decide)
  exact ⟨member, props, collects.mpr (.inr ⟨cardClass, List.mem_singleton.mpr rfl, rfl, props⟩)⟩

def inlineClass : Tree :=
  ⟨"class", true, 15, 63, some "value", false, [
    .leaf "class" false 15 20,
    ⟨"class_heritage", true, 21, 33, none, false, [
      .leaf "extends" false 21 28, .leaf "identifier" true 29 33]⟩,
    propsBody 34]⟩

def inlineClassSource : Source :=
  ⟨"/src/Panel.jsx",
    Encoding.encode
      "export default class extends Base \x7b static defaultProps = \x7b\x7d; \x7d\n".toList,
    ⟨"program", true, 0, 64, none, false, [
      ⟨"export_statement", true, 0, 63, none, false, [
        .leaf "export" false 0 6, .leaf "default" false 7 14, inlineClass]⟩]⟩⟩

def emptyFunction : Tree :=
  ⟨"function_declaration", true, 68, 86, none, false, [
    .leaf "function" false 68 76, (Tree.leaf "identifier" true 77 81).withField (some "name"),
    (Tree.leaf "formal_parameters" true 81 83).withField (some "parameters"),
    (Tree.leaf "statement_block" true 84 86).withField (some "body")]⟩

def localClassSource : Source :=
  ⟨"/src/Card.jsx",
    Encoding.encode ("function make() \x7b class Card \x7b static defaultProps = \x7b\x7d; \x7d \x7d\n" ++
      "export function Card() \x7b\x7d\n").toList,
    ⟨"program", true, 0, 87, none, false, [
      ⟨"function_declaration", true, 0, 60, none, false, [
        .leaf "function" false 0 8, (Tree.leaf "identifier" true 9 13).withField (some "name"),
        (Tree.leaf "formal_parameters" true 13 15).withField (some "parameters"),
        ⟨"statement_block", true, 16, 60, some "body", false, [
          .leaf "\x7b" false 16 17, propsClass 18, .leaf "\x7d" false 59 60]⟩]⟩,
      exportOf 61 emptyFunction]⟩⟩

theorem props_astray :
    (∃ d ∈ (Context.ofSource inlineClassSource Budget.standard).exported,
      IsPropsClass inlineClassSource d ∧
        ((Context.ofSource inlineClassSource Budget.standard).recordOf d).hasDefaultProps = false) ∧
    ∃ d ∈ (Context.ofSource localClassSource Budget.standard).exported,
      d.kind = .function ∧ ¬ IsAssignedProps localClassSource d.name ∧
        ((Context.ofSource localClassSource Budget.standard).recordOf d).hasDefaultProps = true := by
  refine ⟨⟨inlineDeclaration inlineClassSource "Panel" inlineClass, ?_, ?_, ?_⟩, ?_⟩
  · rw [mem_exported_iff]
    exact ⟨by decide +kernel, rfl⟩
  · exact isPropsClass_of_propsBody rfl rfl (by decide +kernel)
  · decide +kernel
  · refine ⟨⟨"Card", .function, emptyFunction.withField (some "declaration"), 2, true⟩, ?_, rfl, ?_, ?_⟩
    · rw [mem_exported_iff]
      exact ⟨by decide +kernel, rfl⟩
    · rintro ⟨t, inside, assigns⟩
      have none : ∀ t ∈ localClassSource.tree.preorder, t.kind ≠ "assignment_expression" := by
        decide +kernel
      exact none t inside assigns.1
    · decide +kernel

end Classification
end ExportInventory
