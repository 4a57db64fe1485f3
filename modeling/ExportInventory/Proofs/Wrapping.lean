import ExportInventory.Proofs.Classification

/-!
Wrappers in the records of a source. A wrapper call that is exported as default is seen through: the
record is that of what it wraps. A variable that holds a wrapper call has a record of its own, in
which the parameters of a function show through one name.
-/
namespace ExportInventory

namespace ExportTable

variable (s : Source)

private theorem defaultTarget?_of_wrapper {call inner : Tree}
    (isCall : call.kind = "call_expression")
    (wraps : Wrapper.inner? s call = some inner)
    (shape : inner.kind = "identifier" ∨ inner.isOneOf Kind.inlineValues = true) :
    defaultTarget? s call = some inner := by
  rw [defaultTarget?, if_pos (beq_iff_eq.mpr isCall), wraps, Option.filter_eq_some_iff]
  refine ⟨rfl, ?_⟩
  simpa using shape

private theorem default_of_target {statement value target : Tree}
    (last : lastDefault? s = some statement)
    (content : contentOf statement = .value value) (reached : defaultTarget? s value = some target) :
    (ofSource s).defaultName = some (targetBinding s target).name ∧
      (ofSource s).exports (targetBinding s target).name = true := by
  have bindings : bindingsOf s statement = [targetBinding s target].filter isEntered := by
    simp only [bindingsOf, content, reached, Option.map_some, Option.toList_some]
  obtain ⟨entered, default⟩ := defaultName_of_bindings s last bindings
  refine ⟨default, ?_⟩
  apply exports_of_binding s (List.mem_reverse.mp (List.mem_of_find?_eq_some last))
  rw [bindings, List.filter_cons_of_pos entered]
  exact List.mem_cons_self

private theorem name_targetBinding_identifier {target : Tree}
    (identifier : target.kind = "identifier") :
    (targetBinding s target).name = s.textOf target := by
  simp [targetBinding, plainBinding, identifier]

private theorem name_targetBinding_inline {target : Tree}
    (inline : target.isOneOf Kind.inlineValues = true) :
    (targetBinding s target).name = inlineName s target := by
  have other : target.kind ≠ "identifier" := by
    intro identifier
    rw [not_inline_of_identifier identifier] at inline
    cases inline
  simp [targetBinding, plainBinding, other]

end ExportTable

namespace Classification
open Declarations

private theorem recordOf_component_iff (c : Context) (d : Declaration) :
    (c.recordOf d).kind = .component ↔ (d.kind = .function → renders c.budget d.node = true) := by
  have described := recordOf_describes c d
  cases kind : d.kind with
  | classType => simp [(described.ofClass kind).1]
  | wrapped => simp [described.ofWrapped kind]
  | function => simp [(described.ofFunction kind).1]

section Default

variable {s : Source}

private theorem exists_chosen?_of_inline {value : Tree}
    (present : value ∈ ExportTable.inlineValues s) :
    ∃ d, chosen? (collected s (ExportTable.ofSource s)) (ExportTable.inlineName s value) = some d := by
  have some : ((ExportTable.inlineValues s).find? (fun v =>
      ExportTable.inlineName s v = ExportTable.inlineName s value)).isSome := by
    rw [List.find?_isSome]
    exact ⟨value, present, by simp⟩
  obtain ⟨first, earliest⟩ := Option.isSome_iff_exists.mp some
  exact ⟨_, chosen?_of_inline s earliest⟩

private theorem chosen?_of_isAlone {value : Tree} (alone : IsAlone s value) :
    chosen? (collected s (ExportTable.ofSource s)) (ExportTable.inlineName s value) =
      some (inlineDeclaration s (ExportTable.inlineName s value) value) := by
  have undeclared : (inTree s).find?
      (fun d => d.name = ExportTable.inlineName s value && d.topLevel) = none := by
    rw [List.find?_eq_none]
    intro d member found
    simp only [Bool.and_eq_true, decide_eq_true_eq] at found
    exact alone.1 d member found.2 found.1
  rw [chosen?_of_inline s alone.2, undeclared, Option.getD_none]

private theorem default_record_of_chosen (budget : Nat) {d : Declaration}
    (visible : (ExportTable.ofSource s).exports d.name = true)
    (default : (ExportTable.ofSource s).defaultName = some d.name)
    (chosen : chosen? (collected s (ExportTable.ofSource s)) d.name = some d) :
    ∃ r, (records s budget).filter Record.isDefault = [r] ∧
      (r.kind = .component ↔ (d.kind = .function → renders budget d.node = true)) := by
  have member := (mem_exported_iff s budget d).mpr ⟨visible, chosen⟩
  exact ⟨_, filter_isDefault_records s budget member default, recordOf_component_iff _ d⟩

/-- A wrapper call that is the last default export gives the one default record. It is a component
exactly if what is behind the wrapped name or inline value is no function, or one that renders:
the wrapper itself does not count. -/
theorem wrapped_default_component_iff (budget : Nat) {statement call inner : Tree}
    (last : ExportTable.lastDefault? s = some statement)
    (content : ExportTable.contentOf statement = .value call)
    (isCall : call.kind = "call_expression") (wraps : Wrapper.inner? s call = some inner)
    (shape : inner.isOneOf Kind.inlineValues = true ∨ inner.kind = "identifier" ∧
      ∃ d, chosen? (collected s (ExportTable.ofSource s)) (s.textOf inner) = some d ∧
        d.kind = .function) :
    ∃ d r, chosen? (collected s (ExportTable.ofSource s)) (ExportTable.targetBinding s inner).name =
        some d ∧
      (inner.isOneOf Kind.inlineValues = true → IsAlone s inner →
        d = inlineDeclaration s (ExportTable.inlineName s inner) inner) ∧
      (records s budget).filter Record.isDefault = [r] ∧
      (r.kind = .component ↔ (d.kind = .function → renders budget d.node = true)) := by
  have reached : ExportTable.defaultTarget? s call = some inner :=
    ExportTable.defaultTarget?_of_wrapper s isCall wraps (shape.symm.imp_left And.left)
  obtain ⟨default, visible⟩ := ExportTable.default_of_target s last content reached
  have declared : ∃ d, chosen? (collected s (ExportTable.ofSource s))
      (ExportTable.targetBinding s inner).name = some d := by
    rcases shape with inline | ⟨identifier, d, chosen, _⟩
    -- An inline value is kept under its name, so some declaration is behind the name.
    · rw [ExportTable.name_targetBinding_inline s inline]
      apply exists_chosen?_of_inline
      refine List.mem_filterMap.mpr
        ⟨statement, List.mem_reverse.mp (List.mem_of_find?_eq_some last), ?_⟩
      simp [ExportTable.inlineDefault?, content, reached, Option.filter, inline]
    · rw [ExportTable.name_targetBinding_identifier s identifier]
      exact ⟨d, chosen⟩
  obtain ⟨d, chosen⟩ := declared
  have name : d.name = (ExportTable.targetBinding s inner).name := name_of_chosen? chosen
  obtain ⟨r, one, component⟩ := default_record_of_chosen budget (by rw [name, visible])
    (by rw [name, default]) (by rw [name, chosen])
  refine ⟨d, r, chosen, ?_, one, component⟩
  intro inline alone
  rw [ExportTable.name_targetBinding_inline s inline, chosen?_of_isAlone alone] at chosen
  exact (Option.some.inj chosen).symm

/-- A memoized arrow function as the default export, with a body of four characters. -/
def memoArrow (body : Tree) : Tree :=
  ⟨"arrow_function", true, 20, 30, none, false, [
    ⟨"formal_parameters", true, 20, 22, some "parameters", false, [
      .leaf "(" false 20 21, .leaf ")" false 21 22]⟩,
    .leaf "=>" false 23 25, body.withField (some "body")]⟩

def memoCall (body : Tree) : Tree :=
  ⟨"call_expression", true, 15, 31, some "value", false, [
    (Tree.leaf "identifier" true 15 19).withField (some "function"),
    ⟨"arguments", true, 19, 31, some "arguments", false, [
      .leaf "(" false 19 20, memoArrow body, .leaf ")" false 30 31]⟩]⟩

def memoExport (body : Tree) : Tree :=
  ⟨"export_statement", true, 0, 32, none, false, [
    .leaf "export" false 0 6, .leaf "default" false 7 14, memoCall body, .leaf ";" false 31 32]⟩

def memoSource (text : String) (body : Tree) : Source :=
  ⟨"/src/Page.jsx", Encoding.encode ("export default memo(() => " ++ text ++ ");\n").toList,
    ⟨"program", true, 0, 33, none, false, [memoExport body]⟩⟩

def emptyElement : Tree :=
  ⟨"jsx_self_closing_element", true, 26, 30, none, false, [
    .leaf "<" false 26 27, (Tree.leaf "identifier" true 27 28).withField (some "name"),
    .leaf "/>" false 28 30]⟩

theorem rendering_memo_component :
    ExportTable.lastDefault? (memoSource "<p/>" emptyElement) = some (memoExport emptyElement) ∧
      Wrapper.inner? (memoSource "<p/>" emptyElement) (memoCall emptyElement) =
        some (memoArrow emptyElement) ∧
      ∃ r, (records (memoSource "<p/>" emptyElement) Budget.standard).filter Record.isDefault = [r] ∧
        r.kind = .component := by
  have alone : IsAlone (memoSource "<p/>" emptyElement) (memoArrow emptyElement) :=
    ⟨by decide +kernel, rfl⟩
  have wraps : Wrapper.inner? (memoSource "<p/>" emptyElement) (memoCall emptyElement) =
      some (memoArrow emptyElement) := rfl
  obtain ⟨d, r, _, inline, one, component⟩ := wrapped_default_component_iff Budget.standard
    (show ExportTable.lastDefault? (memoSource "<p/>" emptyElement) = some (memoExport emptyElement)
      from rfl)
    rfl rfl wraps (.inl rfl)
  refine ⟨rfl, wraps, r, one, component.mpr fun _ => ?_⟩
  rw [inline rfl alone]
  decide +kernel

theorem empty_memo_function :
    ExportTable.lastDefault? (memoSource "null" (.leaf "null" true 26 30)) =
        some (memoExport (.leaf "null" true 26 30)) ∧
      Wrapper.inner? (memoSource "null" (.leaf "null" true 26 30))
          (memoCall (.leaf "null" true 26 30)) = some (memoArrow (.leaf "null" true 26 30)) ∧
      (records (memoSource "null" (.leaf "null" true 26 30)) Budget.standard).filter
          Record.isDefault =
        [⟨"Page", .default, "/src/Page.jsx", .function, [], false, some 1⟩] :=
  ⟨rfl, rfl, by decide +kernel⟩

end Default

section Variable

variable (s : Source) (budget : Nat)

/-- A wrapper around a name shows the parameters behind the name, unless a wrapper stands there
too. -/
theorem parameterNames_of_identifier {a b : Declaration} {inner : Tree} (wrapped : a.kind = .wrapped)
    (wraps : Wrapper.inner? s a.node = some inner) (identifier : inner.kind = "identifier")
    (chosen : chosen? (collected s (ExportTable.ofSource s)) (s.textOf inner) = some b) :
    ((Context.ofSource s budget).recordOf a).parameterNames =
      if b.kind = .wrapped then [] else ((Context.ofSource s budget).recordOf b).parameterNames := by
  have found : (Declarations.ofSource s (ExportTable.ofSource s)).find? (s.textOf inner) = some b :=
    ((settled_ofSource s (ExportTable.ofSource s)).chosen _).trans chosen
  have other : inner.isOneOf Kind.functionLike = false := by
    rw [Tree.isOneOf, identifier]
    decide
  have shown : ((Context.ofSource s budget).recordOf a).parameterNames =
      if b.kind = .function then Parameters.ofFunction s b.node else [] := by
    simp [Context.recordOf, wrapped, Context.wrappedRecord, Context.ofSource, wraps, Context.record,
      Context.wrappedParameters, other, identifier, found]
  have described := recordOf_describes (Context.ofSource s budget) b
  rw [shown]
  cases kind : b.kind with
  | classType => simp [(described.ofClass kind).2]
  | wrapped => rfl
  | function => exact (described.ofFunction kind).2.symm

/-- The record of a variable that holds a wrapper around an exported name has the parameters of the
record of that name exactly if the name is no such variable itself, or shows no parameters. -/
theorem wrapped_parameters_iff {a b : Declaration} {inner : Tree}
    (visible : (ExportTable.ofSource s).exports a.name = true)
    (chosen : chosen? (collected s (ExportTable.ofSource s)) a.name = some a)
    (wrapped : a.kind = .wrapped) (wraps : Wrapper.inner? s a.node = some inner)
    (identifier : inner.kind = "identifier") (named : s.textOf inner = b.name)
    (targetVisible : (ExportTable.ofSource s).exports b.name = true)
    (targetChosen : chosen? (collected s (ExportTable.ofSource s)) b.name = some b) :
    (Context.ofSource s budget).recordOf a ∈ records s budget ∧
      (Context.ofSource s budget).recordOf b ∈ records s budget ∧
      (((Context.ofSource s budget).recordOf a).parameterNames =
          ((Context.ofSource s budget).recordOf b).parameterNames ↔
        (b.kind = .wrapped → ((Context.ofSource s budget).recordOf b).parameterNames = [])) := by
  refine ⟨?_, ?_, ?_⟩
  · exact List.mem_map_of_mem ((mem_exported_iff s budget a).mpr ⟨visible, chosen⟩)
  · exact List.mem_map_of_mem ((mem_exported_iff s budget b).mpr ⟨targetVisible, targetChosen⟩)
  · rw [parameterNames_of_identifier s budget wrapped wraps identifier (by rw [named, targetChosen])]
    by_cases nested : b.kind = .wrapped
    · rw [if_pos nested, eq_comm]
      simp [nested]
    · simp [nested]

def plainArrow : Tree :=
  ⟨"arrow_function", true, 12, 22, some "value", false, [
    ⟨"formal_parameters", true, 12, 16, some "parameters", false, [
      .leaf "(" false 12 13, .leaf "identifier" true 13 15, .leaf ")" false 15 16]⟩,
    .leaf "=>" false 17 19, (Tree.leaf "identifier" true 20 22).withField (some "body")]⟩

/-- A call of one name with another one. -/
def callOf (start middle stop : Nat) : Tree :=
  ⟨"call_expression", true, start, stop, some "value", false, [
    (Tree.leaf "identifier" true start middle).withField (some "function"),
    ⟨"arguments", true, middle, stop, some "arguments", false, [
      .leaf "(" false middle (middle + 1), .leaf "identifier" true (middle + 1) (stop - 1),
      .leaf ")" false (stop - 1) stop]⟩]⟩

/-- A constant whose name has the given place. -/
def constantOf (start stop : Nat) (value : Tree) : Tree :=
  ⟨"lexical_declaration", true, start - 6, value.stop + 1, none, false, [
    (Tree.leaf "const" false (start - 6) (start - 1)).withField (some "kind"),
    ⟨"variable_declarator", true, start, value.stop, none, false, [
      (Tree.leaf "identifier" true start stop).withField (some "name"),
      .leaf "=" false (stop + 1) (stop + 2), value]⟩,
    .leaf ";" false value.stop (value.stop + 1)]⟩

def specifierOf (start stop : Nat) : Tree :=
  ⟨"export_specifier", true, start, stop, none, false, [
    (Tree.leaf "identifier" true start stop).withField (some "name")]⟩

def chainSource : Source :=
  ⟨"/src/Page.jsx",
    Encoding.encode ("const Row = (id) => id;\nconst Tab = memo(Row);\nconst Bar = memo(Tab);\n" ++
      "export \x7b Row, Tab, Bar \x7d;\n").toList,
    ⟨"program", true, 0, 96, none, false, [
      constantOf 6 9 plainArrow, constantOf 30 33 (callOf 36 40 45),
      constantOf 53 56 (callOf 59 63 68),
      ⟨"export_statement", true, 70, 95, none, false, [
        .leaf "export" false 70 76,
        ⟨"export_clause", true, 77, 94, none, false, [
          .leaf "\x7b" false 77 78, specifierOf 79 82, .leaf "," false 82 83,
          specifierOf 84 87, .leaf "," false 87 88, specifierOf 89 92,
          .leaf "\x7d" false 93 94]⟩,
        .leaf ";" false 94 95]⟩]⟩⟩

def rowFunction : Declaration := ⟨"Row", .function, plainArrow, 1, true⟩

def tabWrapper : Declaration := ⟨"Tab", .wrapped, callOf 36 40 45, 2, true⟩

def barWrapper : Declaration := ⟨"Bar", .wrapped, callOf 59 63 68, 3, true⟩

theorem collected_chainSource :
    collected chainSource (ExportTable.ofSource chainSource) =
      [rowFunction, tabWrapper, barWrapper] := by
  rfl

theorem inner?_chainSource :
    Wrapper.inner? chainSource tabWrapper.node = some (.leaf "identifier" true 41 44) ∧
      Wrapper.inner? chainSource barWrapper.node = some (.leaf "identifier" true 64 67) := by
  constructor <;> rfl

theorem names_chainSource :
    (ExportTable.ofSource chainSource).exportedNames = ["Row", "Tab", "Bar"] ∧
      chainSource.textOf (.leaf "identifier" true 41 44) = "Row" ∧
      chainSource.textOf (.leaf "identifier" true 64 67) = "Tab" := by
  decide +kernel

theorem tab_parameters :
    chosen? (collected chainSource (ExportTable.ofSource chainSource)) "Tab" = some tabWrapper ∧
      chosen? (collected chainSource (ExportTable.ofSource chainSource)) "Row" = some rowFunction ∧
      ((Context.ofSource chainSource Budget.standard).recordOf tabWrapper).parameterNames =
        ((Context.ofSource chainSource Budget.standard).recordOf rowFunction).parameterNames := by
  obtain ⟨names, row, _⟩ := names_chainSource
  have visible (name : String) (listed : name ∈ ["Row", "Tab", "Bar"]) :
      (ExportTable.ofSource chainSource).exports name = true := by
    rw [ExportTable.exports, names]
    exact List.contains_iff_mem.mpr listed
  have first : chosen? (collected chainSource (ExportTable.ofSource chainSource)) tabWrapper.name =
      some tabWrapper := by
    rw [collected_chainSource]
    rfl
  have second : chosen? (collected chainSource (ExportTable.ofSource chainSource)) rowFunction.name =
      some rowFunction := by
    rw [collected_chainSource]
    rfl
  obtain ⟨_, _, shown⟩ := wrapped_parameters_iff chainSource Budget.standard
    (visible _ (by decide)) first rfl inner?_chainSource.1 rfl row (visible _ (by decide)) second
  refine ⟨first, second, shown.mpr ?_⟩
  simp [rowFunction]

theorem bar_parameters :
    chosen? (collected chainSource (ExportTable.ofSource chainSource)) "Bar" = some barWrapper ∧
      Wrapper.inner? chainSource barWrapper.node = some (.leaf "identifier" true 64 67) ∧
      chainSource.textOf (.leaf "identifier" true 64 67) = "Tab" ∧
      chosen? (collected chainSource (ExportTable.ofSource chainSource)) "Tab" = some tabWrapper ∧
      (ExportTable.ofSource chainSource).exportedNames = ["Row", "Tab", "Bar"] ∧
      ((Context.ofSource chainSource Budget.standard).recordOf barWrapper).parameterNames = [] ∧
      ((Context.ofSource chainSource Budget.standard).recordOf tabWrapper).parameterNames = ["id"] := by
  obtain ⟨names, _, tab⟩ := names_chainSource
  rw [collected_chainSource]
  exact ⟨rfl, inner?_chainSource.2, tab, rfl, names, by decide +kernel⟩

end Variable

end Classification
end ExportInventory
