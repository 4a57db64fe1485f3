import ExportInventory.Classification
import ExportInventory.Proofs.Declaration
import ExportInventory.Proofs.Table
import Mathlib.Data.List.Forall2

/-!
Sources whose nodes correspond to each other. Where corresponding nodes look alike in all that is
read of them, they export, declare and take the same; where the walks meet corresponding nodes, the
two sources have the same table and the same records.
-/
namespace ExportInventory

section Related

variable {α β γ : Type} {R : α → β → Prop}

theorem map_eq_of_rel {f : α → γ} {g : β → γ} (same : ∀ a b, R a b → g b = f a) {x : Option α}
    {y : Option β} (related : Option.Rel R x y) : y.map g = x.map f := by
  cases related with
  | none => rfl
  | some pair => exact congrArg some (same _ _ pair)

private theorem any_eq_of_rel {p : α → Bool} {q : β → Bool} (same : ∀ a b, R a b → q b = p a)
    {x : Option α}
    {y : Option β} (related : Option.Rel R x y) : y.any q = x.any p := by
  cases related with
  | none => rfl
  | some pair => exact same _ _ pair

theorem rel_cases {x : Option α} {y : Option β} (related : Option.Rel R x y) :
    (x = none ∧ y = none) ∨ ∃ a b, x = some a ∧ y = some b ∧ R a b := by
  cases related with
  | none => exact .inl ⟨rfl, rfl⟩
  | some pair => exact .inr ⟨_, _, rfl, rfl, pair⟩

private theorem isNone_eq_of_rel {x : Option α} {y : Option β} (related : Option.Rel R x y) :
    y.isNone = x.isNone := by
  cases related <;> rfl

theorem rel_filter_option {p : α → Bool} {q : β → Bool} (same : ∀ a b, R a b → q b = p a)
    {x : Option α} {y : Option β} (related : Option.Rel R x y) :
    Option.Rel R (x.filter p) (y.filter q) := by
  cases related with
  | none => exact .none
  | @some a b pair =>
    rw [Option.filter_some, Option.filter_some, same a b pair]
    split
    · exact .some pair
    · exact .none

theorem any_eq_of_forall₂ {p : α → Bool} {q : β → Bool} (same : ∀ a b, R a b → q b = p a)
    {l : List α} {m : List β} (related : List.Forall₂ R l m) : m.any q = l.any p := by
  induction related with
  | nil => rfl
  | cons pair _ ih => rw [List.any_cons, List.any_cons, same _ _ pair, ih]

private theorem flatMap_eq_of_forall₂ {f : α → List γ} {g : β → List γ}
    (same : ∀ a b, R a b → g b = f a)
    {l : List α} {m : List β} (related : List.Forall₂ R l m) : m.flatMap g = l.flatMap f := by
  induction related with
  | nil => rfl
  | cons pair _ ih => rw [List.flatMap_cons, List.flatMap_cons, same _ _ pair, ih]

theorem map_eq_of_forall₂ {f : α → γ} {g : β → γ} (same : ∀ a b, R a b → g b = f a) {l : List α}
    {m : List β} (related : List.Forall₂ R l m) : m.map g = l.map f := by
  induction related with
  | nil => rfl
  | cons pair _ ih => rw [List.map_cons, List.map_cons, same _ _ pair, ih]

theorem forall₂_filter {p : α → Bool} {q : β → Bool} (same : ∀ a b, R a b → q b = p a)
    {l : List α} {m : List β} (related : List.Forall₂ R l m) :
    List.Forall₂ R (l.filter p) (m.filter q) :=
  List.rel_filter (fun a b pair => iff_of_eq (congrArg (· = true) (same a b pair).symm)) related

theorem rel_find? {p : α → Bool} {q : β → Bool} (same : ∀ a b, R a b → q b = p a) {l : List α}
    {m : List β} (related : List.Forall₂ R l m) : Option.Rel R (l.find? p) (m.find? q) := by
  induction related with
  | nil => exact .none
  | @cons a b _ _ pair _ ih =>
    rw [List.find?_cons, List.find?_cons, same a b pair]
    split
    · exact .some pair
    · exact ih

private theorem forall₂_mergeSort {f : α → Nat} {g : β → Nat} (same : ∀ a b, R a b → g b = f a)
    {l : List α} {m : List β} (related : List.Forall₂ R l m) :
    List.Forall₂ R (l.mergeSort (fun a b => f a ≤ f b)) (m.mergeSort (fun a b => g a ≤ g b)) := by
  obtain ⟨pairs, left, right, each⟩ : ∃ pairs : List (α × β),
      pairs.map Prod.fst = l ∧ pairs.map Prod.snd = m ∧ ∀ p ∈ pairs, R p.1 p.2 := by
    obtain ⟨length, zipped⟩ := List.forall₂_iff_zip.mp related
    exact ⟨l.zip m, List.map_fst_zip (Nat.le_of_eq length),
      List.map_snd_zip (Nat.le_of_eq length.symm), fun p member => zipped member⟩
  have first : l.mergeSort (fun a b => f a ≤ f b) =
      (pairs.mergeSort (fun p q => f p.1 ≤ f q.1)).map Prod.fst := by
    rw [← left, List.map_mergeSort]
    intros
    rfl
  have second : m.mergeSort (fun a b => g a ≤ g b) =
      (pairs.mergeSort (fun p q => f p.1 ≤ f q.1)).map Prod.snd := by
    rw [← right, List.map_mergeSort]
    intro p inside q present
    rw [same _ _ (each p inside), same _ _ (each q present)]
  rw [first, second, List.forall₂_map_left_iff, List.forall₂_map_right_iff, List.forall₂_same]
  intro p member
  exact each p (List.mem_mergeSort.mp member)

end Related

/-- Kinds that count among the children of a node. -/
def Kind.parts : List String :=
  ["default", "static", "export_clause", "export_specifier", "variable_declarator", "identifier",
    "field_definition", "public_field_definition", "shorthand_property_identifier_pattern",
    "pair_pattern", "object_assignment_pattern", "rest_pattern", "object_pattern",
    "assignment_pattern", "required_parameter", "optional_parameter"]

/-- Those that count below any node. An identifier counts as a parameter and in a rest pattern only. -/
def Kind.members : List String := Kind.parts.filter (· ≠ "identifier")

/-- Roles in which a node is read as it stands. -/
def Kind.plainRoles : List String :=
  ["declaration", "name", "alias", "body", "left", "object", "property", "key", "pattern",
    "parameter", "parameters"]

/-- Kinds of the nodes that have an expression for a value. -/
def Kind.valued : List String := ["export_statement", "variable_declarator"]

namespace Tree

theorem isOneOf_of_subset {t : Tree} {few many : List String} (subset : few ⊆ many)
    (absent : t.isOneOf many = false) : t.isOneOf few = false := by
  rw [isOneOf, List.contains_eq_mem, decide_eq_false_iff_not] at absent ⊢
  exact fun member => absent (subset member)

theorem kind_ne_of_absent {t : Tree} {kind : String} {kinds : List String}
    (absent : t.isOneOf kinds = false) (one : kind ∈ kinds) : (t.kind == kind) = false := by
  rw [beq_eq_false_iff_ne]
  rintro rfl
  simp [isOneOf, one] at absent

/-- The expression in a role, without what is around it. -/
def operand? (t : Tree) (role : String) : Option Tree := (t.child? role).map unwrapped

mutual

theorem unwrapped_unwrapped : ∀ t : Tree, t.unwrapped.unwrapped = t.unwrapped
  | ⟨kind, named, start, stop, field, missing, children⟩ => by
    cases transparent : Kind.transparent.contains kind with
    | false => simp only [unwrapped, transparent, Bool.false_eq_true, if_false]
    | true =>
      cases inner : firstUnwrapped? children with
      | none => simp only [unwrapped, transparent, if_true, inner, Option.getD_none]
      | some t =>
        simp only [unwrapped, transparent, if_true, inner, Option.getD_some]
        exact unwrapped_of_firstUnwrapped? children inner

private theorem unwrapped_of_firstUnwrapped? : ∀ (ts : List Tree) {t : Tree},
    firstUnwrapped? ts = some t → t.unwrapped = t
  | [], _, found => by cases found
  | t :: rest, _, found => by
    rw [firstUnwrapped?] at found
    split at found
    · rw [← Option.some.inj found]
      exact unwrapped_unwrapped t
    · exact unwrapped_of_firstUnwrapped? rest found

end

theorem size_lt_of_mem {t c : Tree} (member : c ∈ t.children) : c.size < t.size := by
  obtain ⟨before, behind, parts⟩ := List.append_of_mem member
  rw [size_eq t, parts, sizeAll_append, sizeAll]
  omega

private theorem key?_of_noMember {s : Source} {t : Tree} (absent : t.isOneOf Kind.members = false) :
    Parameters.key? s t = none := by
  unfold Parameters.key?
  split
  case h_5 => rfl
  all_goals
    rename_i same
    rw [isOneOf, same] at absent
    exact absurd absent (by decide)

private theorem parameterNames_of_noPart {s : Source} {t : Tree}
    (absent : t.isOneOf Kind.parts = false) :
    Parameters.parameterNames s t = [] := by
  have plain : t.isOneOf Parameters.annotated = false := isOneOf_of_subset (by decide) absent
  have noDefault := kind_ne_of_absent absent (show "assignment_pattern" ∈ Kind.parts by decide)
  have names : Parameters.parameterNames s t = Parameters.plainNames s t := by
    cases t
    rw [Parameters.parameterNames, Parameters.patternNames, noDefault]
    exact if_neg (ne_true_of_eq_false plain)
  rw [names]
  unfold Parameters.plainNames
  split
  case h_4 => rfl
  all_goals
    rename_i same
    simp [isOneOf, same, Kind.parts] at absent

private theorem firstPattern_eq (s : Source) (ts : List Tree) :
    Parameters.firstPattern s ts =
      ((ts.find? (fun c => c.field == some "pattern")).map (Parameters.parameterNames s)).getD [] := by
  induction ts with
  | nil => rfl
  | cons t rest ih =>
    rw [Parameters.firstPattern, List.find?_cons, ih]
    cases t.field == some "pattern" <;> rfl

theorem parameterNames_eq (s : Source) (t : Tree) :
    Parameters.parameterNames s t =
      if t.isOneOf Parameters.annotated then
        ((t.child? "pattern").map (Parameters.parameterNames s)).getD []
      else Parameters.patternNames s t := by
  cases t
  rw [Parameters.parameterNames, firstPattern_eq]
  rfl

theorem flatMap_eq_filter {β : Type} {kinds : List String} {f : Tree → List β}
    (others : ∀ c, c.isOneOf kinds = false → f c = []) (l : List Tree) :
    l.flatMap f = (l.filter (fun c => c.isOneOf kinds)).flatMap f := by
  induction l with
  | nil => rfl
  | cons c rest ih =>
    rw [List.flatMap_cons, ih]
    cases listed : c.isOneOf kinds with
    | true => simp [listed]
    | false => simp [listed, others c listed]

theorem mem_children_of_child? {t c : Tree} {role : String} (found : t.child? role = some c) :
    c ∈ t.children :=
  List.mem_of_find?_eq_some found

end Tree

/-- Nodes of one source that look like those of another in all that is read of them. -/
structure Correspondence (s s' : Source) (R : Tree → Tree → Prop) : Prop where
  path : s'.path = s.path
  bytes : s'.bytes = s.bytes
  kind : ∀ {a b}, R a b → b.kind = a.kind
  start : ∀ {a b}, R a b → b.start = a.start
  stop : ∀ {a b}, R a b → b.stop = a.stop
  child : ∀ {a b}, R a b → ∀ role ∈ Kind.plainRoles, Option.Rel R (a.child? role) (b.child? role)
  value : ∀ {a b}, R a b → a.isOneOf Kind.valued = true →
    Option.Rel R (a.operand? "value") (b.operand? "value")
  callee : ∀ {a b}, R a b → a.kind = "call_expression" →
    Option.Rel R (a.operand? "function") (b.operand? "function")
  argument : ∀ {a b}, R a b → a.kind = "call_expression" →
    Option.Rel R ((Wrapper.firstArgument? a).map Tree.unwrapped)
      ((Wrapper.firstArgument? b).map Tree.unwrapped)
  origin : ∀ {a b}, R a b → (b.child? "source").isSome = (a.child? "source").isSome
  keyword : ∀ {a b}, R a b → ∀ kind ∈ ["default", "static"],
    b.children.any (fun c => c.kind == kind) = a.children.any (fun c => c.kind == kind)
  members : ∀ {a b}, R a b →
    List.Forall₂ R (a.namedChildren.filter (fun c => c.isOneOf Kind.members))
      (b.namedChildren.filter (fun c => c.isOneOf Kind.members))
  rest : ∀ {a b}, R a b → a.kind = "rest_pattern" →
    List.Forall₂ R (a.namedChildren.filter (fun c => c.isOneOf ["identifier"]))
      (b.namedChildren.filter (fun c => c.isOneOf ["identifier"]))
  parameters : ∀ {a b}, R a b →
    Option.Rel (fun l m => List.Forall₂ R (l.namedChildren.filter (fun c => c.isOneOf Kind.parts))
        (m.namedChildren.filter (fun c => c.isOneOf Kind.parts)))
      (a.child? "parameters") (b.child? "parameters")

namespace Correspondence

variable {s s' : Source} {R : Tree → Tree → Prop} (same : Correspondence s s' R)
include same

section Reading

variable {a b : Tree} (related : R a b)
include related

theorem isOneOf (kinds : List String) : b.isOneOf kinds = a.isOneOf kinds := by
  rw [Tree.isOneOf, Tree.isOneOf, same.kind related]

theorem textOf : s'.textOf b = s.textOf a := by
  rw [Source.textOf, Source.textOf, same.bytes, same.start related, same.stop related]

theorem lineOf : s'.lineOf b = s.lineOf a := by
  rw [Source.lineOf, Source.lineOf, same.bytes, same.start related]

theorem childText {role : String} (plain : role ∈ Kind.plainRoles) :
    (b.child? role).map s'.textOf = (a.child? role).map s.textOf :=
  map_eq_of_rel (fun _ _ pair => same.textOf pair) (same.child related role plain)

theorem flatMap_members {β : Type} {f g : Tree → List β} (each : ∀ c d, R c d → g d = f c)
    (others : ∀ c, c.isOneOf Kind.members = false → f c = [])
    (others' : ∀ c, c.isOneOf Kind.members = false → g c = []) :
    b.namedChildren.flatMap g = a.namedChildren.flatMap f := by
  rw [Tree.flatMap_eq_filter others, Tree.flatMap_eq_filter others']
  exact flatMap_eq_of_forall₂ each (same.members related)

theorem filterMap_members {β : Type} {f g : Tree → Option β} (each : ∀ c d, R c d → g d = f c)
    (others : ∀ c, c.isOneOf Kind.members = false → f c = none)
    (others' : ∀ c, c.isOneOf Kind.members = false → g c = none) :
    b.namedChildren.filterMap g = a.namedChildren.filterMap f := by
  rw [List.filterMap_eq_flatMap_toList, List.filterMap_eq_flatMap_toList]
  apply same.flatMap_members related
  · intro c d pair
    rw [each c d pair]
  · intro c other
    rw [others c other]
    rfl
  · intro c other
    rw [others' c other]
    rfl

end Reading

theorem calleeName? {x y : Option Tree} (related : Option.Rel R x y) (depth : Nat) :
    Wrapper.calleeName? s' depth y = Wrapper.calleeName? s depth x := by
  induction depth generalizing x y with
  | zero => rfl
  | succ depth ih =>
    cases related with
    | none => rfl
    | @some a b pair =>
      unfold Wrapper.calleeName?
      rw [same.kind pair]
      split
      · rw [same.textOf pair]
      · exact same.childText pair (by decide)
      · rename_i call
        exact ih (same.callee pair call)
      · rfl

theorem isNamed {a b : Tree} (related : R a b) (call : a.kind = "call_expression") :
    Wrapper.isNamed s' b = Wrapper.isNamed s a := by
  have name : Wrapper.name? s' b = Wrapper.name? s a :=
    same.calleeName? (same.callee related call) Wrapper.nestingLimit
  rw [Wrapper.isNamed, Wrapper.isNamed, name]

theorem innermost? {a b : Tree} (related : R a b) (depth : Nat) :
    Option.Rel R (Wrapper.innermost? s depth a) (Wrapper.innermost? s' depth b) := by
  induction depth generalizing a b with
  | zero => exact .none
  | succ depth ih =>
    unfold Wrapper.innermost?
    rw [same.kind related]
    by_cases call : a.kind = "call_expression"
    · rw [same.isNamed related call]
      split
      · exact .none
      · have argument := same.argument related call
        generalize (Wrapper.firstArgument? a).map Tree.unwrapped = x at argument ⊢
        generalize (Wrapper.firstArgument? b).map Tree.unwrapped = y at argument ⊢
        cases argument with
        | none => exact .none
        | @some c d pair =>
          dsimp only
          rw [same.kind pair]
          split
          · exact .some pair
          · exact ih pair
    · have other : (a.kind != "call_expression") = true := bne_iff_ne.mpr call
      rw [other, Bool.true_or, Bool.true_or, if_pos rfl, if_pos rfl]
      exact .none

section Unwrapped

variable {a b : Tree} (related : R a b) (left : a.unwrapped = a) (right : b.unwrapped = b)
include related left right

theorem isCall : Wrapper.isCall s' b = Wrapper.isCall s a := by
  unfold Wrapper.isCall
  dsimp only
  rw [left, right, same.kind related]
  by_cases call : a.kind = "call_expression"
  · rw [same.isNamed related call]
  · have other : (a.kind == "call_expression") = false := beq_eq_false_iff_ne.mpr call
    rw [other, Bool.false_and, Bool.false_and]

theorem inner? : Option.Rel R (Wrapper.inner? s a) (Wrapper.inner? s' b) := by
  unfold Wrapper.inner?
  rw [left, right]
  exact same.innermost? related Wrapper.nestingLimit

end Unwrapped

theorem restName? {a b : Tree} (related : R a b) (rest : a.kind = "rest_pattern") :
    Parameters.restName? s' b = Parameters.restName? s a := by
  have only (l : List Tree) : l.find? (fun c => c.kind == "identifier") =
      (l.filter (fun c => c.isOneOf ["identifier"])).find? (fun c => c.kind == "identifier") := by
    rw [List.find?_filter]
    congr 1
    funext c
    rw [Bool.eq_iff_iff]
    simp [Tree.isOneOf]
  unfold Parameters.restName?
  rw [only a.namedChildren, only b.namedChildren]
  exact map_eq_of_rel (fun _ _ pair => same.textOf pair)
    (rel_find? (fun _ _ pair => by rw [same.kind pair]) (same.rest related rest))

theorem key? {a b : Tree} (related : R a b) : Parameters.key? s' b = Parameters.key? s a := by
  unfold Parameters.key?
  rw [same.kind related]
  split
  · rw [same.textOf related]
  · exact same.childText related (by decide)
  · rcases rel_cases (same.child related "left" (by decide)) with
      ⟨left, right⟩ | ⟨c, d, left, right, pair⟩
    · rw [left, right]
    · rw [left, right]
      simp only [same.kind pair, same.textOf pair]
  · rename_i rest
    exact same.restName? related rest
  · rfl

theorem objectKeys {a b : Tree} (related : R a b) :
    Parameters.objectKeys s' b = Parameters.objectKeys s a := by
  unfold Parameters.objectKeys
  rw [same.filterMap_members related (fun _ _ pair => same.key? pair)
    (fun _ => Tree.key?_of_noMember) (fun _ => Tree.key?_of_noMember)]

theorem plainNames {a b : Tree} (related : R a b) :
    Parameters.plainNames s' b = Parameters.plainNames s a := by
  unfold Parameters.plainNames
  rw [same.kind related, same.textOf related, same.objectKeys related]
  split
  case h_3 rest => rw [same.restName? related rest]
  all_goals rfl

theorem patternNames {a b : Tree} (related : R a b) :
    Parameters.patternNames s' b = Parameters.patternNames s a := by
  unfold Parameters.patternNames
  rw [same.kind related, same.plainNames related]
  rcases rel_cases (same.child related "left" (by decide)) with
    ⟨left, right⟩ | ⟨c, d, left, right, pair⟩
  · rw [left, right]
  · rw [left, right]
    simp only [same.isOneOf pair, same.plainNames pair]

theorem parameterNames {a b : Tree} (related : R a b) :
    Parameters.parameterNames s' b = Parameters.parameterNames s a := by
  induction size : a.size using Nat.strongRecOn generalizing a b with
  | ind n smaller =>
    rw [Tree.parameterNames_eq, Tree.parameterNames_eq, same.isOneOf related,
      same.patternNames related]
    rcases rel_cases (same.child related "pattern" (by decide)) with
      ⟨left, right⟩ | ⟨c, d, left, right, pair⟩
    · rw [left, right]
      rfl
    · have below := Tree.size_lt_of_mem (Tree.mem_children_of_child? left)
      rw [left, right, Option.map_some, Option.map_some, smaller c.size (size ▸ below) pair rfl]

theorem ofFunction {a b : Tree} (related : R a b) :
    Parameters.ofFunction s' b = Parameters.ofFunction s a := by
  unfold Parameters.ofFunction
  rcases rel_cases (same.child related "parameter" (by decide)) with
    ⟨left, right⟩ | ⟨c, d, left, right, pair⟩
  · rw [left, right]
    dsimp only
    rcases rel_cases (same.parameters related) with ⟨first, second⟩ | ⟨c, d, first, second, lists⟩
    · rw [first, second]
    · rw [first, second]
      dsimp only
      rw [Tree.flatMap_eq_filter (fun _ => Tree.parameterNames_of_noPart) c.namedChildren,
        Tree.flatMap_eq_filter (fun _ => Tree.parameterNames_of_noPart) d.namedChildren]
      exact congrArg Parameters.distinct
        (flatMap_eq_of_forall₂ (fun _ _ inner => same.parameterNames inner) lists)
  · rw [left, right]
    exact same.parameterNames pair

end Correspondence

namespace ExportTable

/-- Contents of corresponding nodes. A value is read without what is around it. -/
inductive Content.Related (R : Tree → Tree → Prop) : Content → Content → Prop
  | declaration {a b : Tree} (pair : R a b) : Related R (.declaration a) (.declaration b)
  | value {a b : Tree} (pair : R a b) (left : a.unwrapped = a) (right : b.unwrapped = b) :
    Related R (.value a) (.value b)
  | lists : Related R .lists .lists

end ExportTable

namespace Correspondence
open ExportTable

variable {s s' : Source} {R : Tree → Tree → Prop} (same : Correspondence s s' R)
include same

section Statement

variable {a b : Tree} (related : R a b)
include related

theorem isDefaultExport : ExportTable.isDefaultExport b = ExportTable.isDefaultExport a :=
  same.keyword related "default" (by decide)

theorem inlineName : ExportTable.inlineName s' b = ExportTable.inlineName s a := by
  unfold ExportTable.inlineName
  rcases rel_cases (same.child related "name" (by decide)) with
    ⟨left, right⟩ | ⟨c, d, left, right, pair⟩
  · rw [left, right, same.path]
  · rw [left, right]
    exact same.textOf pair

theorem targetBinding : ExportTable.targetBinding s' b = ExportTable.targetBinding s a := by
  unfold ExportTable.targetBinding
  rw [same.kind related, same.textOf related, same.inlineName related]

theorem declaratorBinding? :
    ExportTable.declaratorBinding? s' b = ExportTable.declaratorBinding? s a := by
  unfold ExportTable.declaratorBinding?
  rw [same.kind related]
  rcases rel_cases (same.child related "name" (by decide)) with
    ⟨left, right⟩ | ⟨c, d, left, right, pair⟩
  · rw [left, right]
  · rw [left, right]
    simp only [same.kind pair, same.textOf pair]

theorem declaresOne : ExportTable.declaresOne b = ExportTable.declaresOne a :=
  same.isOneOf related _

theorem declarationBindings (visibility : Visibility) :
    ExportTable.declarationBindings s' b visibility =
      ExportTable.declarationBindings s a visibility := by
  have other {s : Source} {c : Tree} (absent : c.isOneOf Kind.members = false) :
      ExportTable.declaratorBinding? s c = none := by
    have different := Tree.kind_ne_of_absent absent
      (show "variable_declarator" ∈ Kind.members by decide)
    simp [ExportTable.declaratorBinding?, bne, different]
  unfold ExportTable.declarationBindings
  rw [same.declaresOne related, same.isOneOf related, same.inlineName related,
    same.filterMap_members related (fun _ _ pair => same.declaratorBinding? pair) (fun _ => other)
      (fun _ => other)]
  rcases rel_cases (same.child related "name" (by decide)) with
    ⟨left, right⟩ | ⟨c, d, left, right, pair⟩
  · rw [left, right]
  · rw [left, right]
    dsimp only
    rw [same.textOf pair]

theorem specifierBinding? (reexport : Bool) :
    ExportTable.specifierBinding? s' reexport b = ExportTable.specifierBinding? s reexport a := by
  unfold ExportTable.specifierBinding?
  rw [same.kind related, same.childText related (by decide)]
  rcases rel_cases (same.child related "name" (by decide)) with
    ⟨left, right⟩ | ⟨c, d, left, right, pair⟩
  · rw [left, right]
    rfl
  · rw [left, right, Option.map_some, Option.map_some, same.textOf pair]

theorem clauseBindings (reexport : Bool) :
    ExportTable.clauseBindings s' reexport b = ExportTable.clauseBindings s reexport a := by
  have other {s : Source} {c : Tree} (absent : c.isOneOf Kind.members = false) :
      ExportTable.specifierBinding? s reexport c = none := by
    have different := Tree.kind_ne_of_absent absent
      (show "export_specifier" ∈ Kind.members by decide)
    simp [ExportTable.specifierBinding?, bne, different]
  unfold ExportTable.clauseBindings
  rw [same.kind related, same.filterMap_members related
    (fun _ _ pair => same.specifierBinding? pair reexport) (fun _ => other) (fun _ => other)]

theorem listBindings : ExportTable.listBindings s' b = ExportTable.listBindings s a := by
  have other {s : Source} {c : Tree} (reexport : Bool)
      (absent : c.isOneOf Kind.members = false) :
      ExportTable.clauseBindings s reexport c = [] := by
    have different := Tree.kind_ne_of_absent absent (show "export_clause" ∈ Kind.members by decide)
    simp [ExportTable.clauseBindings, different]
  unfold ExportTable.listBindings
  rw [same.origin related]
  exact same.flatMap_members related (fun _ _ pair => same.clauseBindings pair _)
    (fun _ => other _) (fun _ => other _)

theorem contentOf (statement : a.kind = "export_statement") :
    Content.Related R (contentOf a) (contentOf b) := by
  unfold ExportTable.contentOf
  rw [same.isDefaultExport related]
  rcases rel_cases (same.child related "declaration" (by decide)) with
    ⟨left, right⟩ | ⟨c, d, left, right, pair⟩
  · have valued : a.isOneOf Kind.valued = true := by
      rw [Tree.isOneOf, statement]
      decide
    rw [left, right]
    dsimp only
    rcases rel_cases (same.value related valued) with ⟨first, second⟩ | ⟨c, d, first, second, pair⟩
    · rw [Option.map_eq_none_iff.mp first, Option.map_eq_none_iff.mp second]
      exact .lists
    · obtain ⟨value, found, rfl⟩ := Option.map_eq_some_iff.mp first
      obtain ⟨other, present, rfl⟩ := Option.map_eq_some_iff.mp second
      rw [found, present]
      dsimp only
      split
      · exact .value pair (Tree.unwrapped_unwrapped value) (Tree.unwrapped_unwrapped other)
      · exact .lists
  · rw [left, right]
    exact .declaration pair

theorem defaultTarget? (left : a.unwrapped = a) (right : b.unwrapped = b) :
    Option.Rel R (ExportTable.defaultTarget? s a) (ExportTable.defaultTarget? s' b) := by
  unfold ExportTable.defaultTarget?
  apply rel_filter_option
  · intro c d pair
    rw [same.kind pair, same.isOneOf pair]
  · rw [same.kind related]
    split
    · exact same.inner? related left right
    · exact .some related

theorem inlineDefault? (statement : a.kind = "export_statement") :
    Option.Rel R (ExportTable.inlineDefault? s a) (ExportTable.inlineDefault? s' b) := by
  unfold ExportTable.inlineDefault?
  have content := same.contentOf related statement
  generalize ExportTable.contentOf a = x at content ⊢
  generalize ExportTable.contentOf b = y at content ⊢
  cases content with
  | declaration pair =>
    dsimp only
    rw [same.declaresOne pair, isNone_eq_of_rel (same.child pair "name" (by decide))]
    split
    · exact .some pair
    · exact .none
  | value pair left right =>
    apply rel_filter_option
    · intro c d inner
      exact same.isOneOf inner _
    · exact same.defaultTarget? pair left right
  | lists => exact .none

theorem bindingsOf (statement : a.kind = "export_statement") :
    ExportTable.bindingsOf s' b = ExportTable.bindingsOf s a := by
  unfold ExportTable.bindingsOf
  rw [same.isDefaultExport related, same.listBindings related]
  have content := same.contentOf related statement
  generalize ExportTable.contentOf a = x at content ⊢
  generalize ExportTable.contentOf b = y at content ⊢
  cases content with
  | declaration pair => simp only [same.declarationBindings pair]
  | value pair left right =>
    dsimp only
    rw [map_eq_of_rel (fun _ _ inner => same.targetBinding inner)
      (same.defaultTarget? pair left right)]
  | lists => rfl

end Statement

end Correspondence

/-- Declarations of the same name and kind in the same place, by corresponding nodes. A wrapper call
is declared without what is around it. -/
structure Declaration.Corresponds (R : Tree → Tree → Prop) (d d' : Declaration) : Prop where
  name : d'.name = d.name
  kind : d'.kind = d.kind
  node : R d.node d'.node
  line : d'.line = d.line
  topLevel : d'.topLevel = d.topLevel
  unwrapped : d.kind = .wrapped → d.node.unwrapped = d.node ∧ d'.node.unwrapped = d'.node

namespace Correspondence
open Declarations

variable {s s' : Source} {R : Tree → Tree → Prop} (same : Correspondence s s' R)
include same

section Nodes

variable {a b : Tree} (related : R a b)
include related

theorem namedDeclaration? {kind : DeclarationKind} (bare : kind ≠ .wrapped) (topLevel : Bool) :
    Option.Rel (Declaration.Corresponds R) (namedDeclaration? s kind a topLevel)
      (namedDeclaration? s' kind b topLevel) := by
  unfold Declarations.namedDeclaration?
  rcases rel_cases (same.child related "name" (by decide)) with
    ⟨left, right⟩ | ⟨c, d, left, right, pair⟩
  · rw [left, right]
    exact .none
  · rw [left, right]
    exact .some ⟨same.textOf pair, rfl, related, same.lineOf related, rfl, fun wrapped =>
      absurd wrapped bare⟩

theorem valueKind? (left : a.unwrapped = a) (right : b.unwrapped = b) :
    Declarations.valueKind? s' b = Declarations.valueKind? s a := by
  unfold Declarations.valueKind?
  rw [same.isOneOf related, same.isOneOf related, same.isCall related left right]

theorem declaratorDeclaration? (declarator : a.kind = "variable_declarator") (topLevel : Bool) :
    Option.Rel (Declaration.Corresponds R) (declaratorDeclaration? s a topLevel)
      (declaratorDeclaration? s' b topLevel) := by
  have valued : a.isOneOf Kind.valued = true := by
    rw [Tree.isOneOf, declarator]
    decide
  have values := same.value related valued
  unfold Tree.operand? at values
  unfold Declarations.declaratorDeclaration?
  rcases rel_cases (same.child related "name" (by decide)) with
    ⟨left, right⟩ | ⟨m, n, left, right, names⟩
  · rw [left, right]
    exact .none
  · rcases rel_cases values with ⟨first, second⟩ | ⟨c, d, first, second, pair⟩
    · rw [left, right, first, second]
      exact .none
    · have bare : c.unwrapped = c ∧ d.unwrapped = d := by
        obtain ⟨value, _, rfl⟩ := Option.map_eq_some_iff.mp first
        obtain ⟨other, _, rfl⟩ := Option.map_eq_some_iff.mp second
        exact ⟨Tree.unwrapped_unwrapped value, Tree.unwrapped_unwrapped other⟩
      rw [left, right, first, second]
      dsimp only
      rw [same.kind names, same.valueKind? pair bare.1 bare.2]
      split
      · exact .none
      · cases Declarations.valueKind? s c with
        | none => exact .none
        | some kind =>
          exact .some ⟨same.textOf names, rfl, pair, same.lineOf related, rfl, fun _ => bare⟩

theorem declaration? (topLevel : Bool) :
    Option.Rel (Declaration.Corresponds R) (declaration? s a topLevel)
      (declaration? s' b topLevel) := by
  unfold Declarations.declaration?
  rw [same.isOneOf related, same.isOneOf related, same.kind related]
  split
  · exact same.namedDeclaration? related (by decide) topLevel
  · split
    · exact same.namedDeclaration? related (by decide) topLevel
    · split
      · rename_i declarator
        exact same.declaratorDeclaration? related (beq_iff_eq.mp declarator) topLevel
      · exact .none

theorem inlineDeclaration (name : String) :
    (inlineDeclaration s name a).Corresponds R (inlineDeclaration s' name b) := by
  refine ⟨rfl, ?_, related, same.lineOf related, rfl, ?_⟩
  · unfold Declarations.inlineDeclaration
    rw [same.isOneOf related]
  · intro wrapped
    unfold Declarations.inlineDeclaration at wrapped
    dsimp only at wrapped
    split at wrapped <;> cases wrapped

theorem isStaticDefaultProps :
    Declarations.isStaticDefaultProps s' b = Declarations.isStaticDefaultProps s a := by
  have text {x y : Option Tree} (pair : Option.Rel R x y) :
      y.any (fun n => s'.textOf n == "defaultProps") =
        x.any (fun n => s.textOf n == "defaultProps") :=
    any_eq_of_rel (fun _ _ inner => by rw [same.textOf inner]) pair
  unfold Declarations.isStaticDefaultProps
  rw [same.isOneOf related, same.keyword related "static" (by decide)]
  rcases rel_cases (same.child related "property" (by decide)) with
    ⟨left, right⟩ | ⟨c, d, left, right, pair⟩
  · rw [left, right, Option.none_or, Option.none_or, text (same.child related "name" (by decide))]
  · rw [left, right, Option.some_or, Option.some_or, text (.some pair)]

theorem hasStaticDefaultProps :
    Declarations.hasStaticDefaultProps s' b = Declarations.hasStaticDefaultProps s a := by
  have only {s : Source} (l : List Tree) : l.any (Declarations.isStaticDefaultProps s) =
      (l.filter (fun c => c.isOneOf Kind.members)).any (Declarations.isStaticDefaultProps s) := by
    rw [List.any_filter]
    congr 1
    funext c
    cases part : c.isOneOf Kind.members with
    | true => rw [Bool.true_and]
    | false =>
      have noField : c.isOneOf Kind.classFields = false :=
        Tree.isOneOf_of_subset (by decide) part
      simp [Declarations.isStaticDefaultProps, noField]
  unfold Declarations.hasStaticDefaultProps
  rcases rel_cases (same.child related "body" (by decide)) with
    ⟨left, right⟩ | ⟨c, d, left, right, pair⟩
  · rw [left, right]
  · rw [left, right]
    dsimp only
    rw [only c.namedChildren, only d.namedChildren]
    exact any_eq_of_forall₂ (fun _ _ inner => same.isStaticDefaultProps inner) (same.members pair)

theorem classProps? (name : String) :
    Declarations.classProps? s' name b = Declarations.classProps? s name a := by
  rw [Declarations.classProps?, Declarations.classProps?, same.hasStaticDefaultProps related]

theorem declaratorProps? (declarator : a.kind = "variable_declarator") :
    Declarations.declaratorProps? s' b = Declarations.declaratorProps? s a := by
  have valued : a.isOneOf Kind.valued = true := by
    rw [Tree.isOneOf, declarator]
    decide
  have values := same.value related valued
  unfold Tree.operand? at values
  unfold Declarations.declaratorProps?
  rcases rel_cases (same.child related "name" (by decide)) with
    ⟨left, right⟩ | ⟨m, n, left, right, names⟩
  · rw [left, right]
  · rcases rel_cases values with ⟨first, second⟩ | ⟨c, d, first, second, pair⟩
    · rw [left, right, first, second]
    · rw [left, right, first, second]
      simp only [same.kind names, same.textOf names, same.isOneOf pair, same.classProps? pair]

theorem assignedProps? : Declarations.assignedProps? s' b = Declarations.assignedProps? s a := by
  unfold Declarations.assignedProps?
  rcases rel_cases (same.child related "left" (by decide)) with
    ⟨left, right⟩ | ⟨c, d, left, right, pair⟩
  · rw [left, right]
  · rw [left, right]
    dsimp only
    rw [same.kind pair]
    rcases rel_cases (same.child pair "object" (by decide)) with
      ⟨first, second⟩ | ⟨m, n, first, second, objects⟩
    · rw [first, second]
    · rcases rel_cases (same.child pair "property" (by decide)) with
        ⟨third, fourth⟩ | ⟨x, y, third, fourth, properties⟩
      · rw [first, second, third, fourth]
      · rw [first, second, third, fourth]
        simp only [same.kind objects, same.textOf objects, same.textOf properties]

theorem propsName? : Declarations.propsName? s' b = Declarations.propsName? s a := by
  have ofClass : ((b.child? "name").bind fun n => Declarations.classProps? s' (s'.textOf n) b) =
      (a.child? "name").bind fun n => Declarations.classProps? s (s.textOf n) a := by
    rcases rel_cases (same.child related "name" (by decide)) with
      ⟨left, right⟩ | ⟨c, d, left, right, pair⟩
    · rw [left, right]
      rfl
    · rw [left, right, Option.bind_some, Option.bind_some, same.textOf pair,
        same.classProps? related]
  unfold Declarations.propsName?
  rw [same.isOneOf related, same.isOneOf related, same.kind related, ofClass,
    same.assignedProps? related]
  split
  · rfl
  · split
    · rfl
    · split
      · rename_i declarator
        exact same.declaratorProps? related (beq_iff_eq.mp declarator)
      · rfl

end Nodes

end Correspondence

/-- Kinds of the nodes that declare a name or give it default properties. -/
def Kind.declaring : List String :=
  Kind.functionDeclarations ++ Kind.classDeclarations ++
    ["variable_declarator", "assignment_expression"]

/-- The nodes of a source that export or declare something, each with its scope. -/
def Source.visits (s : Source) : List (Tree × Bool) :=
  (s.tree.withScope false).filter fun visit => visit.1.isOneOf ("export_statement" :: Kind.declaring)

/-- Visits of corresponding nodes in the same scope. The scope of an assignment is never asked for. -/
def Visited (R : Tree → Tree → Prop) (v w : Tree × Bool) : Prop :=
  R v.1 w.1 ∧ (v.1.kind = "assignment_expression" ∨ w.2 = v.2)

namespace Declarations

private theorem declaration?_of_assignment (s : Source) {t : Tree}
    (assigns : t.kind = "assignment_expression")
    (topLevel : Bool) : declaration? s t topLevel = none := by
  have noFunction : t.isOneOf Kind.functionDeclarations = false := by
    rw [Tree.isOneOf, assigns]
    decide
  have noClass : t.isOneOf Kind.classDeclarations = false := by
    rw [Tree.isOneOf, assigns]
    decide
  simp [declaration?, noFunction, noClass, assigns]

theorem quiet_of_not_declaring (s : Source) {t : Tree} (quiet : t.isOneOf Kind.declaring = false) :
    (∀ topLevel, declaration? s t topLevel = none) ∧ propsName? s t = none := by
  have noFunction : t.isOneOf Kind.functionDeclarations = false :=
    Tree.isOneOf_of_subset (by decide) quiet
  have noClass : t.isOneOf Kind.classDeclarations = false :=
    Tree.isOneOf_of_subset (by decide) quiet
  have noVariable := Tree.kind_ne_of_absent quiet
    (show "variable_declarator" ∈ Kind.declaring by decide)
  have noAssignment := Tree.kind_ne_of_absent quiet
    (show "assignment_expression" ∈ Kind.declaring by decide)
  constructor
  · intro topLevel
    simp [declaration?, noFunction, noClass, noVariable]
  · simp [propsName?, noFunction, noClass, noVariable, noAssignment]

end Declarations

namespace Source

variable (s : Source)

theorem filterMap_visits {β : Type} {f : Tree → Bool → Option β}
    (quiet : ∀ t, t.isOneOf Kind.declaring = false → ∀ scope, f t scope = none) :
    (s.tree.withScope false).filterMap (fun visit => f visit.1 visit.2) =
      s.visits.filterMap fun visit => f visit.1 visit.2 := by
  unfold visits
  induction s.tree.withScope false with
  | nil => rfl
  | cons visit rest ih =>
    rw [List.filterMap_cons, List.filter_cons, ih]
    cases listed : visit.1.isOneOf ("export_statement" :: Kind.declaring) with
    | true => rw [if_pos rfl, List.filterMap_cons]
    | false =>
      rw [quiet visit.1 (Tree.isOneOf_of_subset (List.subset_cons_self _ _) listed)]
      rfl

private theorem inTree_visits : Declarations.inTree s =
    s.visits.filterMap fun visit => Declarations.declaration? s visit.1 visit.2 := by
  rw [Declarations.inTree_eq]
  exact s.filterMap_visits fun t quiet => (Declarations.quiet_of_not_declaring s quiet).1

private theorem props_visits : s.tree.preorder.filterMap (Declarations.propsName? s) =
    s.visits.filterMap fun visit => Declarations.propsName? s visit.1 := by
  rw [← Tree.withScope_fst false, List.filterMap_map]
  exact s.filterMap_visits fun t quiet _ => (Declarations.quiet_of_not_declaring s quiet).2

private theorem statements_visits :
    ExportTable.statements s =
      (s.visits.map Prod.fst).filter fun n => n.kind == "export_statement" := by
  unfold ExportTable.statements visits
  rw [← Tree.withScope_fst false, List.filter_map, List.filter_map, List.filter_filter]
  congr 2
  funext visit
  cases statement : visit.1.kind == "export_statement" with
  | false => simp [statement]
  | true =>
    have listed : visit.1.isOneOf ("export_statement" :: Kind.declaring) = true := by
      rw [Tree.isOneOf, beq_iff_eq.mp statement]
      decide
    simp [statement, listed]

end Source

/-- Tables with the same bindings, and corresponding inline exports under the same names. -/
structure ExportTable.Corresponds (R : Tree → Tree → Prop) (t t' : ExportTable) : Prop where
  bindings : t'.bindings = t.bindings
  exportedNames : t'.exportedNames = t.exportedNames
  defaultNames : t'.defaultNames = t.defaultNames
  defaultName : t'.defaultName = t.defaultName
  aliases : t'.aliases = t.aliases
  anonymousDefaults : List.Forall₂ (fun p q => q.1 = p.1 ∧ R p.2 q.2)
    t.anonymousDefaults t'.anonymousDefaults

namespace Declarations

variable {R : Tree → Tree → Prop}

theorem rel_find?_name {l m : List Declaration}
    (related : List.Forall₂ (Declaration.Corresponds R) l m) (name : String) :
    Option.Rel (Declaration.Corresponds R) (l.find? (fun d => d.name = name))
      (m.find? (fun d => d.name = name)) :=
  rel_find? (fun _ _ pair => by rw [pair.name]) related

private theorem forall₂_place {l m : List Declaration} {x y : Declaration}
    (related : List.Forall₂ (Declaration.Corresponds R) l m) (pair : x.Corresponds R y) :
    List.Forall₂ (Declaration.Corresponds R) (place l x) (place m y) := by
  have snoc {l m : List Declaration} (lists : List.Forall₂ (Declaration.Corresponds R) l m) :
      List.Forall₂ (Declaration.Corresponds R) (l ++ [x]) (m ++ [y]) :=
    List.rel_append lists (.cons pair .nil)
  unfold place
  rw [pair.name]
  rcases rel_cases (rel_find?_name related x.name) with
    ⟨left, right⟩ | ⟨d, d', left, right, existing⟩
  · rw [left, right]
    exact snoc related
  · rw [left, right]
    dsimp only
    rw [existing.topLevel, pair.topLevel]
    split
    · exact related
    · exact snoc (forall₂_filter (fun _ _ inner => by rw [inner.name]) related)

end Declarations

namespace Correspondence

variable {s s' : Source} {R : Tree → Tree → Prop} (same : Correspondence s s' R)
include same

theorem forall₂_assignInline {l m : List Tree} (related : List.Forall₂ R l m) :
    List.Forall₂ (fun p q => q.1 = p.1 ∧ R p.2 q.2)
      (ExportTable.assignInline s [] l) (ExportTable.assignInline s' [] m) := by
  unfold ExportTable.assignInline
  refine List.rel_foldl ?_ .nil related
  intro pairs pairs' before v w pair
  dsimp only
  rw [same.inlineName pair]
  unfold ExportTable.assign
  rw [any_eq_of_forall₂ (fun _ _ inner => by rw [inner.1]) before]
  split
  · exact before
  · exact List.rel_append before (.cons ⟨rfl, pair⟩ .nil)

theorem table (statements : List.Forall₂ (fun a b => R a b ∧ a.kind = "export_statement")
      (ExportTable.statements s) (ExportTable.statements s')) :
    (ExportTable.ofSource s).Corresponds R (ExportTable.ofSource s') := by
  have bindings : ExportTable.allBindings s' = ExportTable.allBindings s :=
    flatMap_eq_of_forall₂ (fun _ _ pair => same.bindingsOf pair.1 pair.2) statements
  have inline : List.Forall₂ R (ExportTable.inlineValues s) (ExportTable.inlineValues s') :=
    List.rel_filterMap (fun _ _ pair => same.inlineDefault? pair.1 pair.2) statements
  rw [ExportTable.ofSource_eq, ExportTable.ofSource_eq s', bindings]
  exact ⟨rfl, rfl, rfl, rfl, rfl, same.forall₂_assignInline inline⟩

section Walk

variable (walk : List.Forall₂ (Visited R) s.visits s'.visits)
include walk

theorem forall₂_statements : List.Forall₂ (fun a b => R a b ∧ a.kind = "export_statement")
    (ExportTable.statements s) (ExportTable.statements s') := by
  have nodes : List.Forall₂ R (s.visits.map Prod.fst) (s'.visits.map Prod.fst) := by
    rw [List.forall₂_map_left_iff, List.forall₂_map_right_iff]
    exact walk.imp fun _ _ pair => pair.1
  have kept : List.Forall₂ R
      ((s.visits.map Prod.fst).filter fun n => n.kind == "export_statement")
      ((s'.visits.map Prod.fst).filter fun n => n.kind == "export_statement") :=
    forall₂_filter (fun _ _ pair => by rw [same.kind pair]) nodes
  rw [Source.statements_visits, Source.statements_visits s']
  refine List.Forall₂.imp (fun _ _ => And.symm) ((List.forall₂_and_left _ _).mpr ⟨?_, kept⟩)
  intro a member
  exact beq_iff_eq.mp (List.mem_filter.mp member).2

theorem forall₂_collected : List.Forall₂ (Declaration.Corresponds R)
    (Declarations.collected s (ExportTable.ofSource s))
    (Declarations.collected s' (ExportTable.ofSource s')) := by
  have anonymous := (same.table (same.forall₂_statements walk)).anonymousDefaults
  unfold Declarations.collected
  refine List.rel_append ?_ ?_
  · rw [s.inTree_visits, s'.inTree_visits]
    refine List.rel_filterMap (fun v w pair => ?_) walk
    obtain ⟨nodes, assigns | scopes⟩ := pair
    · rw [Declarations.declaration?_of_assignment s assigns,
        Declarations.declaration?_of_assignment s' ((same.kind nodes).trans assigns)]
      exact .none
    · rw [scopes]
      exact same.declaration? nodes v.2
  · rw [List.forall₂_map_left_iff, List.forall₂_map_right_iff]
    refine anonymous.imp fun p q pair => ?_
    rw [pair.1]
    exact same.inlineDeclaration pair.2 p.1

theorem defaultProps (exports exports' : ExportTable) :
    (Declarations.ofSource s' exports').defaultProps =
      (Declarations.ofSource s exports).defaultProps := by
  have names : s'.tree.preorder.filterMap (Declarations.propsName? s') =
      s.tree.preorder.filterMap (Declarations.propsName? s) := by
    rw [s.props_visits, s'.props_visits, List.filterMap_eq_flatMap_toList,
      List.filterMap_eq_flatMap_toList]
    exact flatMap_eq_of_forall₂ (fun _ _ pair => by rw [same.propsName? pair.1]) walk
  rw [Declarations.ofSource_defaultProps, Declarations.ofSource_defaultProps, names]

end Walk
end Correspondence

namespace Classification

/-- Contexts in which corresponding declarations are described alike. -/
structure Context.Corresponds (R : Tree → Tree → Prop) (c c' : Context) : Prop where
  source : Correspondence c.source c'.source R
  publicNameOf : ∀ name, c'.exports.publicNameOf name = c.exports.publicNameOf name
  exportTypeOf : ∀ name, c'.exports.exportTypeOf name = c.exports.exportTypeOf name
  found : ∀ name, Option.Rel (Declaration.Corresponds R) (c.declarations.find? name)
    (c'.declarations.find? name)
  hasDefaultProps : ∀ name,
    c'.declarations.hasDefaultProps name = c.declarations.hasDefaultProps name
  containsMarkup : ∀ a b, R a b → b.containsMarkup c'.budget = a.containsMarkup c.budget

namespace Context.Corresponds

variable {R : Tree → Tree → Prop} {c c' : Context} (same : c.Corresponds R c')
include same

section Declared

variable {d d' : Declaration} (related : d.Corresponds R d')
include related

theorem record (kind : RecordKind) (parameters : List String) (defaultProps : Bool) :
    c'.record d' kind parameters defaultProps = c.record d kind parameters defaultProps := by
  unfold Context.record
  rw [related.name, related.line, same.publicNameOf, same.exportTypeOf, same.hasDefaultProps,
    same.source.path]

theorem functionRecord : c'.functionRecord d' = c.functionRecord d := by
  have body := same.source.child related.node "body" (by decide)
  unfold Context.functionRecord
  dsimp only
  rw [any_eq_of_rel same.containsMarkup body, same.source.ofFunction related.node,
    same.record related]

end Declared

theorem wrappedParameters {a b : Tree} (related : R a b) :
    c'.wrappedParameters b = c.wrappedParameters a := by
  unfold Context.wrappedParameters
  rw [same.source.isOneOf related, same.source.kind related, same.source.textOf related,
    same.source.ofFunction related]
  rcases rel_cases (same.found (c.source.textOf a)) with ⟨left, right⟩ | ⟨d, d', left, right, target⟩
  · rw [left, right]
  · rw [left, right]
    dsimp only
    rw [target.kind, same.source.ofFunction target.node]

theorem wrappedRecord {d d' : Declaration} (related : d.Corresponds R d')
    (wrapped : d.kind = .wrapped) : c'.wrappedRecord d' = c.wrappedRecord d := by
  obtain ⟨bare, bare'⟩ := related.unwrapped wrapped
  unfold Context.wrappedRecord
  rcases rel_cases (same.source.inner? related.node bare bare') with
    ⟨left, right⟩ | ⟨a, b, left, right, inner⟩
  · rw [left, right]
    exact same.record related _ _ _
  · rw [left, right]
    dsimp only
    rw [same.source.kind inner, same.source.textOf inner, same.hasDefaultProps,
      same.wrappedParameters inner, same.record related]

theorem recordOf {d d' : Declaration} (related : d.Corresponds R d') :
    c'.recordOf d' = c.recordOf d := by
  unfold Context.recordOf
  rw [related.kind]
  cases kind : d.kind with
  | classType => exact same.record related _ _ _
  | wrapped => exact same.wrappedRecord related kind
  | function => exact same.functionRecord related

end Context.Corresponds
end Classification

namespace Correspondence
open Classification

variable {s s' : Source} {R : Tree → Tree → Prop} (same : Correspondence s s' R)
  (walk : List.Forall₂ (Visited R) s.visits s'.visits)
include same walk

theorem forall₂_list : List.Forall₂ (Declaration.Corresponds R)
    (Declarations.ofSource s (ExportTable.ofSource s)).list
    (Declarations.ofSource s' (ExportTable.ofSource s')).list := by
  rw [Declarations.ofSource_list, Declarations.ofSource_list]
  refine List.rel_foldl ?_ .nil (same.forall₂_collected walk)
  intro l m lists x y pair
  exact Declarations.forall₂_place lists pair

/-- Sources whose walks meet corresponding nodes have the same records, if as much markup is found
in corresponding nodes. -/
theorem records {budget : Nat}
    (markup : ∀ a b, R a b → b.containsMarkup budget = a.containsMarkup budget) :
    Classification.records s' budget = Classification.records s budget := by
  have table := same.table (same.forall₂_statements walk)
  have list := same.forall₂_list walk
  have context : (Context.ofSource s budget).Corresponds R (Context.ofSource s' budget) := by
    refine ⟨same, ?_, ?_, Declarations.rel_find?_name list, ?_, markup⟩
    · intro name
      unfold Context.ofSource ExportTable.publicNameOf
      rw [table.defaultName, table.aliases]
    · intro name
      unfold Context.ofSource ExportTable.exportTypeOf
      rw [table.defaultName]
    · intro name
      exact congrArg (·.contains name) (same.defaultProps walk _ _)
  have exported : List.Forall₂ (Declaration.Corresponds R) (Context.ofSource s budget).exported
      (Context.ofSource s' budget).exported := by
    refine forall₂_filter ?_ (forall₂_mergeSort (fun _ _ pair => same.start pair.node) list)
    intro d d' pair
    simp only [Context.ofSource, ExportTable.exports, table.exportedNames, pair.name]
  exact map_eq_of_forall₂ (fun _ _ pair => context.recordOf pair) exported

end Correspondence
end ExportInventory
