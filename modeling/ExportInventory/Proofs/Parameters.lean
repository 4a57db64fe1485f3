import ExportInventory.Proofs.Removal

/-!
What the parameter names of a function depend on. They are read off the outline of its parameter
list: default values, annotations and the patterns behind keys have no part in it, nor has the body.
-/
namespace ExportInventory

/-- Roles below a node that are not read for the names of parameters. -/
def Kind.unreadRoles (kind : String) : List String :=
  match kind with
  | "assignment_pattern" => ["right"]
  | "object_assignment_pattern" => ["right"]
  | "pair_pattern" => ["value"]
  | "required_parameter" => ["type", "value"]
  | "optional_parameter" => ["type", "value"]
  | _ => []

namespace Tree

def dropUnread (parent t : Tree) : Bool :=
  t.field.any fun role => (Kind.unreadRoles parent.kind).contains role

/-- The subtree without default values, annotations and the patterns behind keys. -/
def outline (t : Tree) : Tree := t.without dropUnread

def withoutBody (function : Tree) : Tree :=
  { function with children := function.children.filter fun c => c.field != some "body" }

theorem child?_outline {t : Tree} {role : String} (read : role ∉ Kind.unreadRoles t.kind) :
    t.outline.child? role = (t.child? role).map outline := by
  apply child?_without_of_kept
  intro c _ field
  simpa [dropUnread, field] using read

theorem namedChildren_outline {t : Tree} (all : Kind.unreadRoles t.kind = []) :
    t.outline.namedChildren = t.namedChildren.map outline := by
  have kept : ∀ c : Tree, dropUnread t c = false := by
    intro c
    cases field : c.field <;> simp [dropUnread, all, field]
  simp [outline, namedChildren_without, kept]

private theorem child?_withoutBody {function : Tree} {role : String} (other : role ≠ "body") :
    function.withoutBody.child? role = function.child? role := by
  unfold child? withoutBody
  rw [List.find?_filter]
  congr 1
  funext c
  by_cases field : c.field = some role <;> simp [field, other]

theorem child?_outline_withoutBody (function : Tree) {role : String}
    (other : role ∉ ["right", "value", "type", "body"]) :
    function.withoutBody.outline.child? role = (function.child? role).map outline := by
  have read : role ∉ Kind.unreadRoles function.withoutBody.kind := by
    unfold Kind.unreadRoles
    split <;> simp_all
  rw [child?_outline read, child?_withoutBody]
  rintro rfl
  simp at other

@[simp] theorem kind_outline (t : Tree) : t.outline.kind = t.kind := kind_without dropUnread t

@[simp] theorem isOneOf_outline (t : Tree) (kinds : List String) :
    t.outline.isOneOf kinds = t.isOneOf kinds := isOneOf_without dropUnread t kinds

@[simp] theorem textOf_outline (s : Source) (t : Tree) : s.textOf t.outline = s.textOf t := by
  simp [Source.textOf, outline]

end Tree

namespace Parameters

variable (s : Source)

theorem restName?_outline {t : Tree} (rest : t.kind = "rest_pattern") :
    restName? s t.outline = restName? s t := by
  unfold restName?
  rw [Tree.namedChildren_outline (by rw [rest]; rfl), List.find?_map, Option.map_map]
  simp [Function.comp_def]

private theorem key?_outline (t : Tree) : key? s t.outline = key? s t := by
  unfold key?
  rw [Tree.kind_outline]
  split
  · exact congrArg some (Tree.textOf_outline s t)
  · rename_i pair
    rw [Tree.child?_outline (by rw [pair]; decide), Option.map_map]
    simp [Function.comp_def]
  · rename_i defaulted
    rw [Tree.child?_outline (by rw [defaulted]; decide)]
    cases t.child? "left" <;> simp
  · rename_i rest
    exact restName?_outline s rest
  · rfl

private theorem objectKeys_outline {t : Tree} (object : t.kind = "object_pattern") :
    objectKeys s t.outline = objectKeys s t := by
  unfold objectKeys
  rw [Tree.namedChildren_outline (by rw [object]; rfl), List.filterMap_map]
  exact congrArg _ (List.filterMap_congr fun c _ => key?_outline s c)

private theorem plainNames_outline (t : Tree) : plainNames s t.outline = plainNames s t := by
  unfold plainNames
  rw [Tree.kind_outline]
  split
  · rw [Tree.textOf_outline]
  · rename_i object
    exact objectKeys_outline s object
  · rename_i rest
    rw [restName?_outline s rest]
  · rfl

private theorem patternNames_outline (t : Tree) : patternNames s t.outline = patternNames s t := by
  unfold patternNames
  rw [Tree.kind_outline, plainNames_outline]
  split
  · rename_i defaulted
    rw [Tree.child?_outline (by rw [beq_iff_eq.mp defaulted]; decide)]
    cases t.child? "left" <;> simp [plainNames_outline]
  · rfl

private theorem parameterNames_outline (t : Tree) :
    parameterNames s t.outline = parameterNames s t := by
  induction size : t.size using Nat.strongRecOn generalizing t with
  | ind n smaller =>
    have read : "pattern" ∉ Kind.unreadRoles t.kind := by
      unfold Kind.unreadRoles
      split <;> decide
    rw [Tree.parameterNames_eq, Tree.parameterNames_eq, Tree.isOneOf_outline,
      patternNames_outline, Tree.child?_outline read]
    cases found : t.child? "pattern" with
    | none => rfl
    | some pattern =>
      have below := Tree.size_lt_of_mem (Tree.mem_children_of_child? found)
      simp [smaller pattern.size (size ▸ below) pattern rfl]

/-- The outline of a function without its body has the same parameter names, if its parameters stand
in a list of which everything is read. -/
theorem ofFunction_outline {function : Tree}
    (listed : ∀ list, function.child? "parameters" = some list → Kind.unreadRoles list.kind = []) :
    ofFunction s function.withoutBody.outline = ofFunction s function := by
  unfold ofFunction
  rw [Tree.child?_outline_withoutBody function (by decide),
    Tree.child?_outline_withoutBody function (by decide)]
  cases function.child? "parameter" with
  | some single => exact parameterNames_outline s single
  | none =>
    cases found : function.child? "parameters" with
    | none => rfl
    | some list =>
      simp only [Option.map_none, Option.map_some]
      rw [Tree.namedChildren_outline (listed list found), List.flatMap_map]
      exact congrArg _ (List.flatMap_congr fun c _ => parameterNames_outline s c)

private theorem nodup_ofFunction {function : Tree}
    (single : ∀ p, function.child? "parameter" = some p → p.kind = "identifier") :
    (ofFunction s function).Nodup := by
  unfold ofFunction
  cases found : function.child? "parameter" with
  | some p =>
    have names : parameterNames s p = [s.textOf p] := by
      simp [Tree.parameterNames_eq, Tree.isOneOf, annotated, patternNames, plainNames,
        single p found]
    simp [names]
  | none =>
    cases function.child? "parameters" with
    | none => exact List.nodup_nil
    | some list => exact ExportTable.nodup_foldl_insertName _ List.nodup_nil

/-- Parameter names have no repetitions and are the same for functions with the same outline: they
depend neither on the body nor on default values, annotations or the patterns behind keys. -/
theorem ofFunction_eq_of_outline {f g : Tree}
    (single : ∀ p, f.child? "parameter" = some p → p.kind = "identifier")
    (listed : ∀ list, f.child? "parameters" = some list → Kind.unreadRoles list.kind = [])
    (same : f.withoutBody.outline = g.withoutBody.outline) :
    (ofFunction s f).Nodup ∧ ofFunction s f = ofFunction s g := by
  refine ⟨nodup_ofFunction s single, ?_⟩
  have lists : (f.child? "parameters").map Tree.outline = (g.child? "parameters").map Tree.outline := by
    rw [← Tree.child?_outline_withoutBody f (by decide), same,
      Tree.child?_outline_withoutBody g (by decide)]
  have listed' : ∀ list, g.child? "parameters" = some list → Kind.unreadRoles list.kind = [] := by
    intro list found
    rw [found, Option.map_some, Option.map_eq_some_iff] at lists
    obtain ⟨other, place, equal⟩ := lists
    rw [← Tree.kind_outline list, ← equal, Tree.kind_outline]
    exact listed other place
  rw [← ofFunction_outline s listed, same, ofFunction_outline s listed']

/-- A function that takes an object apart and has a default value. -/
def takenApart (value right body : Tree) : Tree :=
  ⟨"function_declaration", true, 0, 39, none, false, [
    .leaf "function" false 0 8, (Tree.leaf "identifier" true 9 10).withField (some "name"),
    ⟨"formal_parameters", true, 10, 30, some "parameters", false, [
      .leaf "(" false 10 11,
      ⟨"object_pattern", true, 11, 22, none, false, [
        .leaf "\x7b" false 11 12, .leaf "shorthand_property_identifier_pattern" true 13 14,
        .leaf "," false 14 15,
        ⟨"pair_pattern", true, 16, 20, none, false, [
          (Tree.leaf "property_identifier" true 16 17).withField (some "key"),
          .leaf ":" false 17 18, value.withField (some "value")]⟩,
        .leaf "\x7d" false 21 22]⟩,
      .leaf "," false 22 23,
      ⟨"assignment_pattern", true, 24, 29, none, false, [
        (Tree.leaf "identifier" true 24 25).withField (some "left"), .leaf "=" false 26 27,
        right.withField (some "right")]⟩,
      .leaf ")" false 29 30]⟩,
    body.withField (some "body")]⟩

def plainlyTaken : Tree :=
  takenApart (.leaf "identifier" true 19 20) (.leaf "identifier" true 28 29)
    (.leaf "statement_block" true 31 39)

def deeplyTaken : Tree :=
  takenApart
    ⟨"object_pattern", true, 19, 20, none, false, [
      .leaf "shorthand_property_identifier_pattern" true 19 20]⟩
    ⟨"arrow_function", true, 28, 29, none, false, [
      (Tree.leaf "identifier" true 28 29).withField (some "parameter")]⟩
    (.leaf "identifier" true 33 34)

def takenSource : Source :=
  ⟨"/src/f.js", Encoding.encode "function f(\x7b a, b: c \x7d, d = e) \x7b g(); \x7d\n".toList,
    plainlyTaken⟩

theorem taken_names :
    plainlyTaken.withoutBody.outline = deeplyTaken.withoutBody.outline ∧
      (ofFunction takenSource plainlyTaken).Nodup ∧
      ofFunction takenSource plainlyTaken = ["a", "b", "d"] ∧
      ofFunction takenSource plainlyTaken = ofFunction takenSource deeplyTaken := by
  have alone : ∀ p, plainlyTaken.child? "parameter" = some p → p.kind = "identifier" := by
    intro p found
    cases found
  have listed : ∀ list, plainlyTaken.child? "parameters" = some list →
      Kind.unreadRoles list.kind = [] := by
    intro list found
    cases found
    rfl
  have same : plainlyTaken.withoutBody.outline = deeplyTaken.withoutBody.outline := rfl
  obtain ⟨distinct, names⟩ := ofFunction_eq_of_outline takenSource alone listed same
  exact ⟨same, distinct, by decide +kernel, names⟩

/-- A function without a list of parameters: a parameter with a default value stands in its place,
and the default value is read like one more parameter. -/
def unlisted (right : Tree) : Tree :=
  ⟨"function_declaration", true, 0, 22, none, false, [
    (Tree.leaf "identifier" true 9 10).withField (some "name"),
    ⟨"assignment_pattern", true, 11, 18, some "parameters", false, [
      (Tree.leaf "identifier" true 11 12).withField (some "left"), .leaf "=" false 13 14,
      right.withField (some "right")]⟩,
    (Tree.leaf "statement_block" true 20 22).withField (some "body")]⟩

def unlistedSource : Source :=
  ⟨"/src/f.js", Encoding.encode "function f(a = (b)) \x7b\x7d\n".toList,
    ⟨"program", true, 0, 23, none, false, [
      unlisted (.leaf "parenthesized_expression" true 15 18),
      unlisted (.leaf "identifier" true 16 17)]⟩⟩

theorem unlisted_names :
    (unlisted (.leaf "parenthesized_expression" true 15 18)).withoutBody.outline =
        (unlisted (.leaf "identifier" true 16 17)).withoutBody.outline ∧
      (unlisted (.leaf "identifier" true 16 17)).isOneOf Kind.functionLike = true ∧
      ofFunction unlistedSource (unlisted (.leaf "parenthesized_expression" true 15 18)) = ["a"] ∧
      ofFunction unlistedSource (unlisted (.leaf "identifier" true 16 17)) = ["a", "b"] :=
  ⟨rfl, by decide, by decide +kernel, by decide +kernel⟩

end Parameters
end ExportInventory
