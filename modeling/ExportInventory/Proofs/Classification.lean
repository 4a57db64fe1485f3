import ExportInventory.Budget
import ExportInventory.Classification
import ExportInventory.Proofs.Declaration
import ExportInventory.Proofs.Table

/-!
The records of a source. Each exported name that is declared has one record, which describes the
declaration that the name stands for.
-/
namespace ExportInventory.Classification
open Declarations

def renders (budget : Nat) (function : Tree) : Bool :=
  (function.child? "body").any (fun body => body.containsMarkup budget)

/-- The record tells what is known of the declaration. -/
structure Describes (c : Context) (d : Declaration) (r : Record) : Prop where
  name : r.name = c.exports.publicNameOf d.name
  exportType : r.exportType = c.exports.exportTypeOf d.name
  filePath : r.filePath = c.source.path
  line : r.line = some d.line
  ofClass : d.kind = .classType → r.kind = .component ∧ r.parameterNames = []
  ofWrapped : d.kind = .wrapped → r.kind = .component
  ofFunction : d.kind = .function →
    (r.kind = .component ↔ renders c.budget d.node = true) ∧
      r.parameterNames = Parameters.ofFunction c.source d.node

theorem recordOf_describes (c : Context) (d : Declaration) : Describes c d (c.recordOf d) := by
  unfold Context.recordOf
  cases kind : d.kind with
  | classType => constructor <;> simp [Context.record, kind]
  | wrapped =>
    dsimp only
    unfold Context.wrappedRecord
    split <;> constructor <;> simp [Context.record, kind]
  | function =>
    dsimp only
    unfold Context.functionRecord
    constructor <;> simp [Context.record, kind, renders]

theorem recordOf_isDefault (c : Context) (d : Declaration) :
    (c.recordOf d).isDefault = decide (c.exports.defaultName = some d.name) := by
  rw [Record.isDefault, (recordOf_describes c d).exportType, ExportTable.exportTypeOf]
  split <;> simp_all

section Exported

variable (s : Source) (budget : Nat)

theorem names_exported_nodup : ((Context.ofSource s budget).exported.map (·.name)).Nodup := by
  have settled := settled_ofSource s (ExportTable.ofSource s)
  have sorted := (List.mergeSort_perm (Declarations.ofSource s (ExportTable.ofSource s)).list
    (fun a b => a.node.start ≤ b.node.start)).map (·.name)
  exact (sorted.nodup_iff.mpr settled.distinct).sublist (List.filter_sublist.map _)

theorem isDefault_comp_recordOf :
    Record.isDefault ∘ (Context.ofSource s budget).recordOf =
      fun d => decide ((ExportTable.ofSource s).defaultName = some d.name) := by
  funext d
  exact recordOf_isDefault (Context.ofSource s budget) d

theorem countP_isDefault_records_le : (records s budget).countP Record.isDefault ≤ 1 := by
  have distinct := names_exported_nodup s budget
  unfold records Context.records
  rw [List.countP_map, isDefault_comp_recordOf]
  cases (ExportTable.ofSource s).defaultName with
  | none => simp
  | some name =>
    have count := List.nodup_iff_count_le_one.mp distinct name
    rw [List.count_eq_countP, List.countP_map] at count
    refine Nat.le_trans (List.countP_mono_left ?_) count
    intro d _ default
    exact beq_iff_eq.mpr (Option.some.inj (of_decide_eq_true default)).symm

private theorem exported_pairwise :
    (Context.ofSource s budget).exported.Pairwise (fun a b => a.node.start ≤ b.node.start) := by
  have sorted := @List.pairwise_mergeSort Declaration
    (fun a b => decide (a.node.start ≤ b.node.start))
    (fun a b c ab bc => by
      simp only [decide_eq_true_eq] at ab bc ⊢
      exact Nat.le_trans ab bc)
    (fun a b => by
      simp only [Bool.or_eq_true, decide_eq_true_eq]
      exact Nat.le_total a.node.start b.node.start)
    (Declarations.ofSource s (ExportTable.ofSource s)).list
  simp only [decide_eq_true_eq] at sorted
  exact sorted.filter _

theorem mem_exported_iff (d : Declaration) :
    d ∈ (Context.ofSource s budget).exported ↔
      (ExportTable.ofSource s).exports d.name = true ∧
        chosen? (collected s (ExportTable.ofSource s)) d.name = some d := by
  rw [← (settled_ofSource s (ExportTable.ofSource s)).mem_iff, Context.exported, List.mem_filter,
    List.mem_mergeSort, and_comm]
  rfl

private theorem mem_names_exported_iff (name : String) :
    name ∈ (Context.ofSource s budget).exported.map (·.name) ↔
      (ExportTable.ofSource s).exports name = true ∧
        ∃ d ∈ collected s (ExportTable.ofSource s), d.name = name := by
  constructor
  · intro member
    obtain ⟨d, exported, rfl⟩ := List.mem_map.mp member
    obtain ⟨visible, chosen⟩ := (mem_exported_iff s budget d).mp exported
    exact ⟨visible, d, mem_of_chosen? chosen, rfl⟩
  · rintro ⟨visible, d, member, rfl⟩
    obtain ⟨x, chosen, same⟩ := exists_chosen? member
    rw [← same] at visible chosen
    exact List.mem_map.mpr ⟨x, (mem_exported_iff s budget x).mpr ⟨visible, chosen⟩, same⟩

/-- One record for each exported name that is declared, and no other: it describes the first
declaration of the name at module scope, or else the first one. They follow the text. -/
theorem records_of_chosen :
    ∃ ds : List Declaration,
      records s budget = ds.map (Context.ofSource s budget).recordOf ∧
      (∀ d, Describes (Context.ofSource s budget) d ((Context.ofSource s budget).recordOf d)) ∧
      (ds.map (·.name)).Nodup ∧
      (∀ name, name ∈ ds.map (·.name) ↔ (ExportTable.ofSource s).exports name = true ∧
        ∃ d ∈ collected s (ExportTable.ofSource s), d.name = name) ∧
      (∀ d ∈ ds, chosen? (collected s (ExportTable.ofSource s)) d.name = some d) ∧
      ds.Pairwise (fun a b => a.node.start ≤ b.node.start) := by
  refine ⟨(Context.ofSource s budget).exported, rfl, recordOf_describes _, ?_, ?_, ?_, ?_⟩
  · exact names_exported_nodup s budget
  · exact mem_names_exported_iff s budget
  · intro d member
    exact ((mem_exported_iff s budget d).mp member).2
  · exact exported_pairwise s budget

theorem records_of_sorted
    (sorted : (Context.ofSource s budget).declarations.list.Pairwise
      (fun a b => a.node.start ≤ b.node.start)) :
    records s budget = ((Context.ofSource s budget).declarations.list.filter fun d =>
      (ExportTable.ofSource s).exports d.name).map (Context.ofSource s budget).recordOf := by
  unfold records Context.records Context.exported
  rw [List.mergeSort_of_pairwise (by simpa using sorted)]
  rfl

end Exported

section Inline

variable (s : Source)

private theorem find?_inlineDeclarations (pairs : List (String × Tree)) (name : String) :
    (pairs.map fun entry => inlineDeclaration s entry.1 entry.2).find?
        (fun d => d.name = name && d.topLevel) =
      (pairs.lookup name).map (inlineDeclaration s name) := by
  induction pairs with
  | nil => rfl
  | cons entry rest ih =>
    obtain ⟨key, value⟩ := entry
    by_cases same : key = name
    · subst same
      simp [inlineDeclaration]
    · have test : (name == key) = false := beq_eq_false_iff_ne.mpr (Ne.symm same)
      rw [List.map_cons, List.find?_cons_of_neg (by simp [inlineDeclaration, same]), ih,
        List.lookup_cons, test]

/-- The declaration behind the name of an inline export: one of the module in the tree if there is
any, and else the first inline export that goes by the name. -/
theorem chosen?_of_inline {name : String} {first : Tree}
    (earliest : (ExportTable.inlineValues s).find? (fun v => ExportTable.inlineName s v = name) =
      some first) :
    chosen? (collected s (ExportTable.ofSource s)) name =
      some (((inTree s).find? (fun d => d.name = name && d.topLevel)).getD
        (inlineDeclaration s name first)) := by
  have lookup : (ExportTable.ofSource s).anonymousDefaults.lookup name = some first := by
    rw [ExportTable.anonymousDefaults_ofSource, ExportTable.lookup_assignInline, earliest]
    rfl
  unfold chosen? collected
  rw [List.find?_append, find?_inlineDeclarations, lookup]
  cases (inTree s).find? (fun d => d.name = name && d.topLevel) <;> rfl

/-- Nothing else goes by the name of an inline export: the tree declares it nowhere at module
scope, and no inline export before has it. -/
def IsAlone (value : Tree) : Prop :=
  (∀ d ∈ inTree s, d.topLevel = true → d.name ≠ ExportTable.inlineName s value) ∧
    (ExportTable.inlineValues s).find?
      (fun v => ExportTable.inlineName s v = ExportTable.inlineName s value) = some value

/-- The record tells where an inline function or class stands, what its parameters are and whether
it renders. -/
structure DescribesInline (budget : Nat) (value : Tree) (r : Record) : Prop where
  line : r.line = some (s.lineOf value)
  parameters : r.parameterNames =
    if value.isOneOf Kind.classLike then [] else Parameters.ofFunction s value
  kind : r.kind = .component ↔
    value.isOneOf Kind.classLike = true ∨ renders budget value = true

theorem recordOf_inlineDeclaration (budget : Nat) (name : String) (value : Tree) :
    DescribesInline s budget value
      ((Context.ofSource s budget).recordOf (inlineDeclaration s name value)) := by
  have described := recordOf_describes (Context.ofSource s budget) (inlineDeclaration s name value)
  cases shape : value.isOneOf Kind.classLike with
  | true =>
    have kind : (inlineDeclaration s name value).kind = .classType := by
      simp [inlineDeclaration, shape]
    obtain ⟨component, parameters⟩ := described.ofClass kind
    exact ⟨described.line, by simpa [shape] using parameters, by simpa [shape] using component⟩
  | false =>
    have kind : (inlineDeclaration s name value).kind = .function := by
      simp [inlineDeclaration, shape]
    obtain ⟨component, parameters⟩ := described.ofFunction kind
    refine ⟨described.line, ?_, ?_⟩
    · rw [parameters, shape]
      rfl
    · rw [component, shape]
      exact (or_iff_right Bool.false_ne_true).symm

variable (budget : Nat)

private theorem filter_name_exported {d : Declaration}
    (member : d ∈ (Context.ofSource s budget).exported) :
    (Context.ofSource s budget).exported.filter (fun x => x.name = d.name) = [d] := by
  have distinct := names_exported_nodup s budget
  generalize (Context.ofSource s budget).exported = list at member distinct
  induction list with
  | nil => cases member
  | cons head tail ih =>
    obtain ⟨absent, rest⟩ := List.nodup_cons.mp distinct
    rcases List.mem_cons.mp member with same | below
    · subst same
      rw [List.filter_cons_of_pos (by simp), List.filter_eq_nil_iff.mpr]
      intro x inside equal
      exact absent (List.mem_map.mpr ⟨x, inside, of_decide_eq_true equal⟩)
    · have different : head.name ≠ d.name := by
        intro equal
        exact absent (List.mem_map.mpr ⟨d, below, equal.symm⟩)
      rw [List.filter_cons_of_neg (by simp [different]), ih below rest]

theorem filter_isDefault_records {d : Declaration}
    (member : d ∈ (Context.ofSource s budget).exported)
    (default : (ExportTable.ofSource s).defaultName = some d.name) :
    (records s budget).filter Record.isDefault = [(Context.ofSource s budget).recordOf d] := by
  have same : (fun x : Declaration => decide (some d.name = some x.name)) =
      fun x => decide (x.name = d.name) := by
    funext x
    simp [eq_comm]
  unfold records Context.records
  rw [List.filter_map, isDefault_comp_recordOf, default, same,
    filter_name_exported s budget member]
  rfl

variable {s}

/-- An inline function or class that is the last default export gives the one default record. The
record describes it if nothing else goes by its name; otherwise it describes another declaration,
be it one of the module or an earlier inline export. -/
theorem default_record_of_inline {statement value : Tree}
    (last : ExportTable.lastDefault? s = some statement)
    (inline : ExportTable.inlineDefault? s statement = some value) :
    ∃ r, (records s budget).filter Record.isDefault = [r] ∧
      (IsAlone s value → DescribesInline s budget value r) ∧
      (¬ IsAlone s value →
        (∃ d ∈ inTree s, d.topLevel = true ∧ d.name = ExportTable.inlineName s value ∧
          r = (Context.ofSource s budget).recordOf d) ∨
        (∃ other ∈ ExportTable.inlineValues s, other ≠ value ∧
          ExportTable.inlineName s other = ExportTable.inlineName s value ∧
          r = (Context.ofSource s budget).recordOf
            (inlineDeclaration s (ExportTable.inlineName s value) other))) := by
  have present : statement ∈ ExportTable.statements s :=
    List.mem_reverse.mp (List.mem_of_find?_eq_some last)
  obtain ⟨entered, default⟩ := ExportTable.defaultName_of_inline s last inline
  have visible : (ExportTable.ofSource s).exports (ExportTable.inlineName s value) = true :=
    ExportTable.exports_of_binding s present
      (by rw [ExportTable.bindingsOf_of_inline s inline, List.filter_cons_of_pos entered]
          exact List.mem_singleton.mpr rfl)
  have some : ((ExportTable.inlineValues s).find? (fun v =>
      ExportTable.inlineName s v = ExportTable.inlineName s value)).isSome := by
    rw [List.find?_isSome]
    exact ⟨value, List.mem_filterMap.mpr ⟨statement, present, inline⟩, by simp⟩
  obtain ⟨first, earliest⟩ := Option.isSome_iff_exists.mp some
  have chosen := chosen?_of_inline s earliest
  cases declared : (inTree s).find?
      (fun d => d.name = ExportTable.inlineName s value && d.topLevel) with
  | some d =>
    rw [declared, Option.getD_some] at chosen
    have found := List.find?_some declared
    simp only [Bool.and_eq_true, decide_eq_true_eq] at found
    obtain ⟨name, scope⟩ := found
    have member := List.mem_of_find?_eq_some declared
    rw [← name] at chosen default visible
    have exported := (mem_exported_iff s budget d).mpr ⟨visible, chosen⟩
    refine ⟨_, filter_isDefault_records s budget exported default, ?_, ?_⟩
    · intro alone
      exact absurd name (alone.1 d member scope)
    · intro _
      exact .inl ⟨d, member, scope, name, rfl⟩
  | none =>
    rw [declared, Option.getD_none] at chosen
    have exported := (mem_exported_iff s budget
      (inlineDeclaration s (ExportTable.inlineName s value) first)).mpr ⟨visible, chosen⟩
    refine ⟨_, filter_isDefault_records s budget exported default, ?_, ?_⟩
    · intro alone
      have same : first = value := Option.some.inj (earliest.symm.trans alone.2)
      rw [same]
      exact recordOf_inlineDeclaration s budget _ value
    · intro shadowed
      have name := List.find?_some earliest
      refine .inr ⟨first, List.mem_of_find?_eq_some earliest, ?_, of_decide_eq_true name, rfl⟩
      intro same
      refine shadowed ⟨?_, by rw [earliest, same]⟩
      intro d member scope equal
      have absent := List.find?_eq_none.mp declared d member
      simp [equal, scope] at absent

def inlineArrow : Tree :=
  ⟨"arrow_function", true, 46, 60, some "value", false, [
    ⟨"formal_parameters", true, 46, 52, some "parameters", false, [
      .leaf "(" false 46 47, .leaf "identifier" true 47 51, .leaf ")" false 51 52]⟩,
    .leaf "=>" false 53 55,
    ⟨"jsx_self_closing_element", true, 56, 60, some "body", false, [
      .leaf "<" false 56 57, (Tree.leaf "identifier" true 57 58).withField (some "name"),
      .leaf "/>" false 58 60]⟩]⟩

def inlineExport : Tree :=
  ⟨"export_statement", true, 31, 61, none, false, [
    .leaf "export" false 31 37, .leaf "default" false 38 45, inlineArrow, .leaf ";" false 60 61]⟩

def cardSource (path : String) : Source :=
  ⟨path, Encoding.encode "const Card = (title) => title;\nexport default (body) => <p/>;\n".toList,
    ⟨"program", true, 0, 62, none, false, [
      ⟨"lexical_declaration", true, 0, 30, none, false, [
        (Tree.leaf "const" false 0 5).withField (some "kind"),
        ⟨"variable_declarator", true, 6, 29, none, false, [
          (Tree.leaf "identifier" true 6 10).withField (some "name"), .leaf "=" false 11 12,
          ⟨"arrow_function", true, 13, 29, some "value", false, [
            ⟨"formal_parameters", true, 13, 20, some "parameters", false, [
              .leaf "(" false 13 14, .leaf "identifier" true 14 19, .leaf ")" false 19 20]⟩,
            .leaf "=>" false 21 23,
            (Tree.leaf "identifier" true 24 29).withField (some "body")]⟩]⟩,
        .leaf ";" false 29 30]⟩,
      inlineExport]⟩⟩

theorem panel_default_record :
    ExportTable.lastDefault? (cardSource "/src/Panel.jsx") = some inlineExport ∧
      ExportTable.inlineDefault? (cardSource "/src/Panel.jsx") inlineExport = some inlineArrow ∧
      IsAlone (cardSource "/src/Panel.jsx") inlineArrow ∧
      ∃ r, (records (cardSource "/src/Panel.jsx") Budget.standard).filter Record.isDefault = [r] ∧
        DescribesInline (cardSource "/src/Panel.jsx") Budget.standard inlineArrow r := by
  have alone : IsAlone (cardSource "/src/Panel.jsx") inlineArrow := ⟨by decide +kernel, rfl⟩
  obtain ⟨r, one, described, _⟩ := default_record_of_inline Budget.standard
    (show ExportTable.lastDefault? (cardSource "/src/Panel.jsx") = some inlineExport from rfl)
    (show ExportTable.inlineDefault? _ inlineExport = some inlineArrow from rfl)
  exact ⟨rfl, rfl, alone, r, one, described alone⟩

theorem card_default_record :
    ExportTable.lastDefault? (cardSource "/src/Card.jsx") = some inlineExport ∧
      ExportTable.inlineDefault? (cardSource "/src/Card.jsx") inlineExport = some inlineArrow ∧
      ∃ r, (records (cardSource "/src/Card.jsx") Budget.standard).filter Record.isDefault = [r] ∧
        ¬ DescribesInline (cardSource "/src/Card.jsx") Budget.standard inlineArrow r := by
  refine ⟨rfl, rfl, ⟨"Card", .default, "/src/Card.jsx", .function, ["title"], false, some 1⟩,
    by decide +kernel, ?_⟩
  intro described
  have line : some 1 = some ((cardSource "/src/Card.jsx").lineOf inlineArrow) := described.line
  exact absurd line (by decide +kernel)

end Inline

end ExportInventory.Classification
