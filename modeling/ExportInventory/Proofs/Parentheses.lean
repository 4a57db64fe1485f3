import ExportInventory.Proofs.Markup
import ExportInventory.Proofs.Reordering

/-!
Expressions in parentheses. Wherever a value, a callee or an argument is read, the parentheses and
non-null assertions around it are taken off first, so that a source with more of them has the same
exports and the same records.
-/
namespace ExportInventory

/-- Kinds of comments, statements, declarations and the parts of these. -/
def Kind.noExpressions : List String :=
  ["comment", "program"] ++ Kind.moduleScope ++ Kind.functionDeclarations ++
    Kind.classDeclarations ++ Kind.members

def Kind.covering : List String := ["parenthesized_expression", "non_null_expression"]

/-- Kinds of the nodes that the walks through a tree look for. -/
def Kind.walked : List String := "export_statement" :: Kind.declaring ++ Kind.markup

namespace Tree

/-- An anonymous node that holds nothing of what is looked for. -/
def IsToken (t : Tree) : Prop :=
  t.named = false ∧ ∀ n ∈ t.preorder, n.isOneOf Kind.walked = false

/-- A pair of parentheses or an assertion to be put around an expression. -/
structure Layer where
  kind : String
  start : Nat
  stop : Nat
  before : List Tree
  after : List Tree
  covers : kind ∈ Kind.covering
  tokens : ∀ t ∈ before ++ after, t.IsToken

/-- The expression inside the layer, which takes its role. -/
def Layer.around (l : Layer) (t : Tree) : Tree :=
  ⟨l.kind, true, l.start, l.stop, t.field, false, l.before ++ t.withField none :: l.after⟩

def coveredBy (layers : List Layer) (t : Tree) : Tree := layers.foldr Layer.around t

def isArgumentList (parent t : Tree) : Bool :=
  parent.kind == "call_expression" && t.kind == "arguments" && t.field == some "arguments"

/-- An expression that is read as a value, as a callee or as an argument. -/
structure IsOperand (list : Bool) (parent t : Tree) : Prop where
  named : t.named = true
  expression : t.isOneOf Kind.noExpressions = false
  place : t.field = some "value" ∧ parent.isOneOf Kind.valued = true ∨
    t.field = some "function" ∧ parent.kind = "call_expression" ∨ t.field = none ∧ list = true

/-- The second list holds the children of a parent that are in the first, with layers around some
of the operands among them and below. `list` says that the parent is a list of arguments. -/
inductive Covered : Bool → Tree → List Tree → List Tree → Prop
  | nil {list : Bool} {parent : Tree} : Covered list parent [] []
  | cons {list : Bool} {parent t : Tree} {rest below others : List Tree} (layers : List Layer)
      (operand : layers ≠ [] → IsOperand list parent t)
      (inside : Covered (isArgumentList parent t) t t.children below)
      (behind : Covered list parent rest others) :
      Covered list parent (t :: rest) (coveredBy layers { t with children := below } :: others)

/-- No call, declarator or export statement stands for the parameters of a function. -/
def Formal (t : Tree) : Prop :=
  ∀ n ∈ t.preorder, n.field = some "parameters" →
    n.isOneOf ("call_expression" :: Kind.valued) = false

instance (t : Tree) : Decidable t.Formal := inferInstanceAs (Decidable (∀ n ∈ t.preorder, _))

theorem Formal.below {t : Tree} (formal : t.Formal) {c : Tree} (child : c ∈ t.children) : c.Formal :=
  fun n member => formal n (preorder_subset_of_mem child member)

private theorem firstUnwrapped?_eq (ts : List Tree) :
    firstUnwrapped? ts = (ts.find? (fun t => t.named)).map unwrapped := by
  induction ts with
  | nil => rfl
  | cons t rest ih =>
    rw [firstUnwrapped?, List.find?_cons, ih]
    cases t.named <;> rfl

theorem unwrapped_eq (t : Tree) : t.unwrapped =
    if t.isOneOf Kind.transparent then
      ((t.children.find? (fun c => c.named)).map unwrapped).getD t
    else t := by
  cases t
  rw [unwrapped, firstUnwrapped?_eq]
  rfl

theorem withScope_eq (scope : Bool) (t : Tree) :
    t.withScope scope = (t, scope) :: withScopeAll (t.childScope scope) t.children := by
  cases t
  rw [withScope]

theorem withField_field (t : Tree) : t.withField t.field = t := by
  cases t
  rfl

theorem size_withField (t : Tree) (role : Option String) : (t.withField role).size = t.size := by
  rw [size_eq, size_eq]
  rfl

private theorem filter_withScopeAll_tokens {kinds : List String} (walked : kinds ⊆ Kind.walked)
    {ts : List Tree} (tokens : ∀ t ∈ ts, t.IsToken) (scope : Bool) :
    (withScopeAll scope ts).filter (fun v => v.1.isOneOf kinds) = [] := by
  rw [withScopeAll_eq_flatMap, List.filter_eq_nil_iff]
  intro v member
  obtain ⟨t, inside, visited⟩ := List.mem_flatMap.mp member
  have node : v.1 ∈ t.preorder := by
    rw [← withScope_fst scope]
    exact List.mem_map_of_mem visited
  simp [isOneOf_of_subset walked ((tokens t inside).2 v.1 node)]

namespace Layer

variable (l : Layer)

private theorem unwrapped_around {t : Tree} (named : t.named = true) (role : Option String) :
    ((l.around t).withField role).unwrapped = (t.withField none).unwrapped := by
  have transparent : ((l.around t).withField role).isOneOf Kind.transparent = true := by
    have subset : Kind.covering ⊆ Kind.transparent := by decide
    exact List.contains_iff_mem.mpr (subset l.covers)
  have anonymous : l.before.find? (fun c => c.named) = none := by
    rw [List.find?_eq_none]
    intro c member
    simp [(l.tokens c (List.mem_append_left _ member)).1]
  have first : ((l.around t).withField role).children.find? (fun c => c.named) =
      some (t.withField none) := by
    change (l.before ++ t.withField none :: l.after).find? _ = _
    rw [List.find?_append, anonymous, Option.none_or]
    exact List.find?_cons_of_pos named
  rw [unwrapped_eq, transparent, if_pos rfl, first]
  rfl

/-- A walk through a layer goes on with what is inside, which is not at module scope. -/
theorem filter_withScope_around {kinds : List String} (walked : kinds ⊆ Kind.walked) (t : Tree)
    (role : Option String) (scope : Bool) :
    (((l.around t).withField role).withScope scope).filter (fun v => v.1.isOneOf kinds) =
      ((t.withField none).withScope false).filter (fun v => v.1.isOneOf kinds) := by
  have passed : ((l.around t).withField role).isOneOf Kind.walked = false := by
    have disjoint : ∀ k ∈ Kind.covering, Kind.walked.contains k = false := by decide
    exact disjoint l.kind l.covers
  have inner : ((l.around t).withField role).childScope scope = false := by
    have outside : ∀ k ∈ Kind.covering,
        Kind.moduleScope.contains k = false ∧ (k == "program") = false := by decide
    obtain ⟨noModule, noProgram⟩ := outside l.kind l.covers
    exact (if_neg (ne_true_of_eq_false noModule)).trans noProgram
  have before := filter_withScopeAll_tokens walked
    (fun c inside => l.tokens c (List.mem_append_left _ inside)) false
  have after := filter_withScopeAll_tokens walked
    (fun c inside => l.tokens c (List.mem_append_right _ inside)) false
  have children : withScopeAll false ((l.around t).withField role).children =
      withScopeAll false l.before ++ ((t.withField none).withScope false ++
        withScopeAll false l.after) := by
    change withScopeAll false (l.before ++ t.withField none :: l.after) = _
    rw [withScopeAll_eq_flatMap, List.flatMap_append, List.flatMap_cons, ← withScopeAll_eq_flatMap,
      ← withScopeAll_eq_flatMap]
  rw [withScope_eq, List.filter_cons_of_neg (by simp [isOneOf_of_subset walked passed]), inner,
    children, List.filter_append, List.filter_append, before, after, List.nil_append,
    List.append_nil]

end Layer

section Layers

variable (layers : List Layer) (t : Tree)

private theorem field_coveredBy : (coveredBy layers t).field = t.field := by
  induction layers with
  | nil => rfl
  | cons l rest ih => exact ih

theorem size_le_coveredBy : t.size ≤ (coveredBy layers t).size := by
  induction layers with
  | nil => exact Nat.le_refl _
  | cons l rest ih =>
    change t.size ≤ (l.around (coveredBy rest t)).size
    rw [size_eq (l.around (coveredBy rest t))]
    change _ ≤ sizeAll (l.before ++ (coveredBy rest t).withField none :: l.after) + 1
    rw [sizeAll_append, sizeAll, size_withField]
    omega

variable {t}

theorem named_coveredBy (named : layers ≠ [] → t.named = true) :
    (coveredBy layers t).named = t.named := by
  cases layers with
  | nil => rfl
  | cons l rest => exact (named (List.cons_ne_nil l rest)).symm

private theorem unwrapped_coveredBy (named : layers ≠ [] → t.named = true) (role : Option String) :
    ∃ inner, ((coveredBy layers t).withField role).unwrapped = (t.withField inner).unwrapped := by
  induction layers generalizing role with
  | nil => exact ⟨role, rfl⟩
  | cons l rest ih =>
    have given := named (List.cons_ne_nil l rest)
    obtain ⟨inner, same⟩ := ih (fun _ => given) none
    refine ⟨inner, ?_⟩
    rw [← same]
    exact l.unwrapped_around ((named_coveredBy rest fun _ => given).trans given) role

private theorem filter_withScope_coveredBy {kinds : List String} (walked : kinds ⊆ Kind.walked)
    (role : Option String) (scope : Bool) :
    ∃ inner scope', (layers = [] → scope' = scope) ∧
      (((coveredBy layers t).withField role).withScope scope).filter (fun v => v.1.isOneOf kinds) =
        ((t.withField inner).withScope scope').filter (fun v => v.1.isOneOf kinds) := by
  induction layers generalizing role scope with
  | nil => exact ⟨role, scope, fun _ => rfl, rfl⟩
  | cons l rest ih =>
    obtain ⟨inner, scope', _, same⟩ := ih none false
    refine ⟨inner, scope', fun empty => absurd empty (List.cons_ne_nil l rest), ?_⟩
    rw [← same]
    exact l.filter_withScope_around walked (coveredBy rest t) role scope

end Layers

theorem isToken_leaf {kind : String} (other : kind ∉ Kind.walked) (start stop : Nat) :
    (leaf kind false start stop).IsToken := by
  refine ⟨rfl, fun n member => ?_⟩
  rw [preorder_eq] at member
  rw [List.mem_singleton.mp member, isOneOf, List.contains_eq_mem, decide_eq_false_iff_not]
  exact other

def Layer.parentheses (start stop : Nat) : Layer where
  kind := "parenthesized_expression"
  start := start
  stop := stop
  before := [leaf "(" false start (start + 1)]
  after := [leaf ")" false (stop - 1) stop]
  covers := by decide
  tokens := by
    simp only [List.mem_append, List.mem_singleton]
    rintro t (rfl | rfl)
    · exact isToken_leaf (by decide) _ _
    · exact isToken_leaf (by decide) _ _

def Layer.assertion (start stop : Nat) : Layer where
  kind := "non_null_expression"
  start := start
  stop := stop
  before := []
  after := [leaf "!" false (stop - 1) stop]
  covers := by decide
  tokens := by
    simp only [List.nil_append, List.mem_singleton]
    rintro t rfl
    exact isToken_leaf (by decide) _ _

theorem Covered.within {list : Bool} {parent t : Tree} {rest below others : List Tree}
    (inside : Covered (isArgumentList parent t) t t.children below)
    (behind : Covered list parent rest others) :
    Covered list parent (t :: rest) ({ t with children := below } :: others) :=
  .cons [] (fun some => absurd rfl some) inside behind

theorem Covered.refl (list : Bool) (parent : Tree) (ts : List Tree) : Covered list parent ts ts := by
  induction size : sizeAll ts using Nat.strongRecOn generalizing list parent ts with
  | ind n smaller =>
    cases ts with
    | nil => exact .nil
    | cons t rest =>
      rw [sizeAll, size_eq] at size
      have inside := smaller (sizeAll t.children) (by omega) (isArgumentList parent t) t _ rfl
      have behind := smaller (sizeAll rest) (by omega) list parent rest rfl
      cases t
      exact .within inside behind

theorem Covered.keep {list : Bool} {parent : Tree} {rest others : List Tree} (t : Tree)
    (behind : Covered list parent rest others) : Covered list parent (t :: rest) (t :: others) := by
  have inside := Covered.refl (isArgumentList parent t) t t.children
  cases t
  exact .within inside behind

/-- A node and what has become of it inside the layers around it. -/
structure Alike (budget : Nat) (a b : Tree) : Prop where
  kind : b.kind = a.kind
  named : b.named = a.named
  start : b.start = a.start
  stop : b.stop = a.stop
  formal : a.Formal
  searched : b.size ≤ budget
  children : ∃ list, (list = true → a.kind = "arguments" ∧ a.field = some "arguments") ∧
    Covered list a a.children b.children

/-- A child and what stands in its place: the same node, or layers around it. -/
structure Replaced (budget : Nat) (list : Bool) (parent a b : Tree) : Prop where
  field : b.field = a.field
  named : b.named = a.named
  shape : Alike budget a b ∨ IsOperand list parent a ∧ b.kind ∈ Kind.covering
  inside : ∃ inner, Alike budget a inner ∧ b.unwrapped = inner.unwrapped

variable {budget : Nat}

theorem Alike.withField {a b : Tree} (alike : Alike budget a b) (role : Option String) :
    Alike budget a (b.withField role) :=
  ⟨alike.kind, alike.named, alike.start, alike.stop, alike.formal,
    size_withField b role ▸ alike.searched, alike.children⟩

theorem Alike.isOneOf {a b : Tree} (alike : Alike budget a b) (kinds : List String) :
    b.isOneOf kinds = a.isOneOf kinds := by
  rw [Tree.isOneOf, Tree.isOneOf, alike.kind]

theorem alike_inside {parent t : Tree} {below : List Tree} (layers : List Layer)
    (inside : Covered (isArgumentList parent t) t t.children below) (formal : t.Formal)
    (searched : (coveredBy layers { t with children := below }).size ≤ budget) :
    Alike budget t { t with children := below } := by
  have fits := size_le_coveredBy layers { t with children := below }
  refine ⟨rfl, rfl, rfl, rfl, formal, by omega, isArgumentList parent t, ?_, inside⟩
  simp only [isArgumentList, Bool.and_eq_true, beq_iff_eq]
  rintro ⟨⟨_, kind⟩, field⟩
  exact ⟨kind, field⟩

private theorem Covered.forall₂_replaced {list : Bool} {parent : Tree} {ts us : List Tree}
    (covered : Covered list parent ts us) (formal : ∀ t ∈ ts, t.Formal)
    (searched : sizeAll us ≤ budget) : List.Forall₂ (Replaced budget list parent) ts us := by
  induction covered with
  | nil => exact .nil
  | @cons list parent t rest below others layers operand inside behind _ ih =>
    rw [sizeAll] at searched
    have alike : Alike budget t { t with children := below } :=
      alike_inside layers inside (formal t List.mem_cons_self) (by omega)
    refine .cons ?_ (ih (fun c member => formal c (List.mem_cons_of_mem t member)) (by omega))
    have named (some : layers ≠ []) : ({ t with children := below } : Tree).named = true :=
      (operand some).named
    obtain ⟨inner, same⟩ := unwrapped_coveredBy layers named
      (coveredBy layers { t with children := below }).field
    rw [withField_field] at same
    refine ⟨field_coveredBy layers _, named_coveredBy layers named, ?_, _, alike.withField inner, same⟩
    cases layers with
    | nil => exact .inl alike
    | cons l more => exact .inr ⟨operand (List.cons_ne_nil l more), l.covers⟩

private theorem Covered.sizeAll_le {list : Bool} {parent : Tree} {ts us : List Tree}
    (covered : Covered list parent ts us) : sizeAll ts ≤ sizeAll us := by
  induction covered with
  | nil => exact Nat.le_refl _
  | @cons list parent t rest below others layers operand inside behind ih₁ ih₂ =>
    have fits := size_le_coveredBy layers { t with children := below }
    rw [size_eq] at fits
    change sizeAll below + 1 ≤ _ at fits
    rw [sizeAll, sizeAll, size_eq t]
    omega

namespace Replaced

variable {list : Bool} {parent a b : Tree} (replaced : Replaced budget list parent a b)
include replaced

theorem isOneOf {kinds : List String} (others : kinds ⊆ Kind.noExpressions) :
    b.isOneOf kinds = a.isOneOf kinds := by
  rcases replaced.shape with alike | ⟨operand, covering⟩
  · exact alike.isOneOf kinds
  · have disjoint : ∀ k ∈ Kind.covering, Kind.noExpressions.contains k = false := by decide
    rw [isOneOf_of_subset others operand.expression,
      isOneOf_of_subset others (disjoint b.kind covering)]

private theorem alike_of_role {role : String} (plain : role ∉ ["value", "function"])
    (played : a.field = some role) : Alike budget a b := by
  rcases replaced.shape with alike | ⟨operand, _⟩
  · exact alike
  · have place := operand.place
    simp_all

private theorem alike_of_kind {kinds : List String} (others : kinds ⊆ Kind.noExpressions)
    (kind : a.isOneOf kinds = true) : Alike budget a b := by
  rcases replaced.shape with alike | ⟨operand, _⟩
  · exact alike
  · rw [isOneOf_of_subset others operand.expression] at kind
    exact absurd kind Bool.false_ne_true

end Replaced

namespace Alike

variable {a b : Tree} (alike : Alike budget a b)
include alike

private theorem size_le : a.size ≤ b.size := by
  obtain ⟨_, _, covered⟩ := alike.children
  have fewer := covered.sizeAll_le
  rw [size_eq, size_eq]
  omega

theorem forall₂_replaced : ∃ list, (list = true → a.kind = "arguments" ∧ a.field = some "arguments") ∧
    List.Forall₂ (Replaced budget list a) a.children b.children := by
  obtain ⟨list, arguments, covered⟩ := alike.children
  have searched := alike.searched
  rw [size_eq] at searched
  exact ⟨list, arguments,
    covered.forall₂_replaced (fun c child => alike.formal.below child) (by omega)⟩

theorem forall₂_children (noOperands : a.isOneOf ("call_expression" :: Kind.valued) = false)
    (noList : a.kind = "arguments" → a.field ≠ some "arguments") :
    List.Forall₂ (fun c d => Alike budget c d ∧ d.named = c.named) a.children b.children := by
  obtain ⟨list, arguments, children⟩ := alike.forall₂_replaced
  refine children.imp fun c d replaced => ⟨?_, replaced.named⟩
  rcases replaced.shape with same | ⟨operand, _⟩
  · exact same
  · exfalso
    rcases operand.place with ⟨_, valued⟩ | ⟨_, call⟩ | ⟨_, listed⟩
    · rw [isOneOf_of_subset (List.subset_cons_self _ _) noOperands] at valued
      exact Bool.false_ne_true valued
    · simp [Tree.isOneOf, call] at noOperands
    · exact noList (arguments listed).1 (arguments listed).2

private theorem forall₂_namedChildren
    (noOperands : a.isOneOf ("call_expression" :: Kind.valued) = false)
    (noList : a.kind = "arguments" → a.field ≠ some "arguments") :
    List.Forall₂ (Alike budget) a.namedChildren b.namedChildren :=
  (forall₂_filter (fun _ _ pair => pair.2) (alike.forall₂_children noOperands noList)).imp
    fun _ _ pair => pair.1

theorem rel_child? {role : String} (plain : role ∉ ["value", "function"]) :
    Option.Rel (fun c d => Alike budget c d ∧ c.field = some role) (a.child? role)
      (b.child? role) := by
  obtain ⟨list, _, children⟩ := alike.forall₂_replaced
  have found : Option.Rel (Replaced budget list a) (a.child? role) (b.child? role) :=
    rel_find? (fun c d replaced => by rw [replaced.field]) children
  rcases rel_cases found with ⟨left, right⟩ | ⟨c, d, left, right, replaced⟩
  · rw [left, right]
    exact .none
  · have played : c.field = some role := by simpa using List.find?_some left
    rw [left, right]
    exact .some ⟨replaced.alike_of_role plain played, played⟩

end Alike

/-- Nodes that are alike are so without what is around them, since the parentheses and annotations
that both trees have take no operands. -/
theorem Alike.unwrapped {a b : Tree} (alike : Alike budget a b) :
    Alike budget a.unwrapped b.unwrapped := by
  induction size : a.size using Nat.strongRecOn generalizing a b with
  | ind n smaller =>
    rw [unwrapped_eq a, unwrapped_eq b, alike.isOneOf]
    split
    · rename_i transparent
      have plain : ∀ k ∈ Kind.transparent,
          ("call_expression" :: Kind.valued).contains k = false ∧ k ≠ "arguments" := by decide
      obtain ⟨noOperands, noList⟩ := plain a.kind (List.contains_iff_mem.mp transparent)
      have first := rel_find? (fun _ _ pair => pair.2)
        (alike.forall₂_children noOperands fun kind => absurd kind noList)
      rcases rel_cases first with ⟨left, right⟩ | ⟨c, d, left, right, pair⟩
      · rw [left, right]
        exact alike
      · have below := size_lt_of_mem (List.mem_of_find?_eq_some left)
        rw [left, right]
        exact smaller c.size (size ▸ below) pair.1 rfl
    · exact alike

theorem Replaced.unwrapped {list : Bool} {parent a b : Tree}
    (replaced : Replaced budget list parent a b) : Alike budget a.unwrapped b.unwrapped := by
  obtain ⟨inner, alike, same⟩ := replaced.inside
  rw [same]
  exact alike.unwrapped

namespace Alike

variable {a b : Tree} (alike : Alike budget a b)
include alike

private theorem rel_operand? (role : String) :
    Option.Rel (Alike budget) (a.operand? role) (b.operand? role) := by
  obtain ⟨list, _, children⟩ := alike.forall₂_replaced
  have found : Option.Rel (Replaced budget list a) (a.child? role) (b.child? role) :=
    rel_find? (fun c d replaced => by rw [replaced.field]) children
  unfold operand?
  rcases rel_cases found with ⟨left, right⟩ | ⟨c, d, left, right, replaced⟩
  · rw [left, right]
    exact .none
  · rw [left, right]
    exact .some replaced.unwrapped

private theorem rel_firstArgument? :
    Option.Rel (Alike budget) ((Wrapper.firstArgument? a).map Tree.unwrapped)
      ((Wrapper.firstArgument? b).map Tree.unwrapped) := by
  unfold Wrapper.firstArgument?
  rcases rel_cases (alike.rel_child? (show "arguments" ∉ _ by decide)) with
    ⟨left, right⟩ | ⟨c, d, left, right, inner, _⟩
  · rw [left, right]
    exact .none
  · obtain ⟨list, _, children⟩ := inner.forall₂_replaced
    have named : List.Forall₂ (Replaced budget list c) c.namedChildren d.namedChildren :=
      forall₂_filter (fun _ _ replaced => replaced.named) children
    have noComment (x y : Tree) (replaced : Replaced budget list c x y) :
        (y.kind != "comment") = (x.kind != "comment") := by
      have kinds := replaced.isOneOf (show ["comment"] ⊆ Kind.noExpressions by decide)
      simpa [Tree.isOneOf, bne] using kinds
    rw [left, right]
    rcases rel_cases (rel_find? noComment named) with ⟨first, second⟩ | ⟨x, y, first, second, pair⟩
    · simp only [Option.bind_eq_bind, Option.bind_some, first, second]
      exact .none
    · simp only [Option.bind_eq_bind, Option.bind_some, first, second]
      exact .some pair.unwrapped

end Alike

/-- Visits of a node in both trees. The scope of an expression may be lost in layers around it. -/
def Met (budget : Nat) (v w : Tree × Bool) : Prop :=
  Alike budget v.1 w.1 ∧ (w.2 = v.2 ∨ v.1.isOneOf Kind.noExpressions = false)

private theorem childScope_of_expression {t : Tree}
    (expression : t.isOneOf Kind.noExpressions = false)
    (scope : Bool) : t.childScope scope = false := by
  unfold childScope
  rw [isOneOf_of_subset (by decide) expression]
  exact kind_ne_of_absent expression (by decide)

section Walk

variable {kinds : List String}

theorem Alike.forall₂_met {a b : Tree} (alike : Alike budget a b) {scope scope' : Bool}
    (scopes : scope' = scope ∨ a.isOneOf Kind.noExpressions = false)
    (children : ∀ inner, List.Forall₂ (Met budget)
      ((withScopeAll inner a.children).filter fun v => v.1.isOneOf kinds)
      ((withScopeAll inner b.children).filter fun v => v.1.isOneOf kinds)) :
    List.Forall₂ (Met budget) ((a.withScope scope).filter fun v => v.1.isOneOf kinds)
      ((b.withScope scope').filter fun v => v.1.isOneOf kinds) := by
  have inner : b.childScope scope' = a.childScope scope := by
    rcases scopes with rfl | expression
    · unfold childScope
      rw [alike.isOneOf, alike.kind]
    · rw [childScope_of_expression expression,
        childScope_of_expression (alike.isOneOf _ ▸ expression)]
  rw [withScope_eq, withScope_eq, inner]
  simp only [List.filter_cons, alike.isOneOf]
  split
  · exact .cons ⟨alike, scopes⟩ (children _)
  · exact children _

private theorem Covered.forall₂_met (walked : kinds ⊆ Kind.walked) {list : Bool} {parent : Tree}
    {ts us : List Tree} (covered : Covered list parent ts us) (formal : ∀ t ∈ ts, t.Formal)
    (searched : sizeAll us ≤ budget) (scope : Bool) :
    List.Forall₂ (Met budget) ((withScopeAll scope ts).filter fun v => v.1.isOneOf kinds)
      ((withScopeAll scope us).filter fun v => v.1.isOneOf kinds) := by
  induction covered generalizing scope with
  | nil => exact .nil
  | @cons list parent t rest below others layers operand inside behind ihInside ihBehind =>
    rw [sizeAll] at searched
    have here : t.Formal := formal t List.mem_cons_self
    have alike : Alike budget t { t with children := below } :=
      alike_inside layers inside here (by omega)
    have fits := alike.searched
    rw [size_eq] at fits
    obtain ⟨role, scope', kept, same⟩ := filter_withScope_coveredBy layers walked
      (coveredBy layers { t with children := below }).field scope
    rw [withField_field] at same
    rw [withScopeAll, withScopeAll, List.filter_append, List.filter_append, same]
    refine List.rel_append ((alike.withField role).forall₂_met ?_ ?_) ?_
    · rcases layers with _ | ⟨l, more⟩
      · exact .inl (kept rfl)
      · exact .inr (operand (List.cons_ne_nil l more)).expression
    · exact ihInside (fun c child => here.below child) (Nat.le_of_succ_le fits)
    · exact ihBehind (fun c member => formal c (List.mem_cons_of_mem t member)) (by omega) scope

theorem Alike.forall₂_walk (walked : kinds ⊆ Kind.walked) {a b : Tree} (alike : Alike budget a b)
    (scope : Bool) :
    List.Forall₂ (Met budget) ((a.withScope scope).filter fun v => v.1.isOneOf kinds)
      ((b.withScope scope).filter fun v => v.1.isOneOf kinds) := by
  obtain ⟨_, _, covered⟩ := alike.children
  have searched := alike.searched
  rw [size_eq] at searched
  exact alike.forall₂_met (.inl rfl) fun inner =>
    covered.forall₂_met walked (fun c child => alike.formal.below child) (by omega) inner

end Walk

private theorem Alike.containsMarkup {a b : Tree} (alike : Alike budget a b) :
    b.containsMarkup budget = a.containsMarkup budget := by
  have elements (t : Tree) : t.preorder.any isMarkup =
      ((t.withScope false).filter fun v => v.1.isOneOf Kind.markup).any fun _ => true := by
    rw [← withScope_fst false t, List.any_map, List.any_filter]
    simp only [Bool.and_true]
    rfl
  have met := alike.forall₂_walk (show Kind.markup ⊆ Kind.walked by decide) false
  have fewer := alike.size_le
  have enough := alike.searched
  rw [containsMarkup_of_size_le (by omega), containsMarkup_of_size_le (by omega), elements,
    elements]
  exact any_eq_of_forall₂ (fun _ _ _ => rfl) met

end Tree

open ExportInventory.Tree

private theorem correspondence_alike (s : Source) (below : List Tree) (budget : Nat) :
    Correspondence s (s.withChildren below) (Alike budget) := by
  constructor
  case path => rfl
  case bytes => rfl
  case kind => exact Alike.kind
  case start => exact Alike.start
  case stop => exact Alike.stop
  case child =>
    intro a b alike role plain
    have noOperand : ∀ r ∈ Kind.plainRoles, r ∉ ["value", "function"] := by decide
    rcases rel_cases (alike.rel_child? (noOperand role plain)) with
      ⟨left, right⟩ | ⟨c, d, left, right, inner, _⟩
    · rw [left, right]
      exact .none
    · rw [left, right]
      exact .some inner
  case value =>
    intro a b alike _
    exact alike.rel_operand? "value"
  case callee =>
    intro a b alike _
    exact alike.rel_operand? "function"
  case argument =>
    intro a b alike _
    exact alike.rel_firstArgument?
  case origin =>
    intro a b alike
    rcases rel_cases (alike.rel_child? (show "source" ∉ _ by decide)) with
      ⟨left, right⟩ | ⟨c, d, left, right, _⟩ <;> rw [left, right]
    rfl
  case keyword =>
    intro a b alike kind keyword
    obtain ⟨list, _, children⟩ := alike.forall₂_replaced
    refine any_eq_of_forall₂ (fun c d replaced => ?_) children
    have others : ∀ k ∈ ["default", "static"], [k] ⊆ Kind.noExpressions := by decide
    have kinds := replaced.isOneOf (others kind keyword)
    simpa [Tree.isOneOf] using kinds
  case members =>
    intro a b alike
    obtain ⟨list, _, children⟩ := alike.forall₂_replaced
    have others : Kind.members ⊆ Kind.noExpressions := by decide
    have kept := forall₂_filter (fun _ _ replaced => replaced.isOneOf others)
      (forall₂_filter (fun _ _ replaced => replaced.named) children)
    refine ((List.forall₂_and_left _ _).mpr ⟨fun c member => (List.mem_filter.mp member).2, kept⟩).imp ?_
    rintro c d ⟨member, replaced⟩
    exact replaced.alike_of_kind others member
  case rest =>
    intro a b alike rest
    have children := alike.forall₂_namedChildren (by simp [Tree.isOneOf, rest, Kind.valued])
      (by simp [rest])
    exact forall₂_filter (fun _ _ inner => inner.isOneOf _) children
  case parameters =>
    intro a b alike
    rcases rel_cases (alike.rel_child? (show "parameters" ∉ _ by decide)) with
      ⟨left, right⟩ | ⟨c, d, left, right, inner, played⟩
    · rw [left, right]
      exact .none
    · have children := inner.forall₂_namedChildren
        (inner.formal c (mem_preorder_self c) played) (by simp [played])
      rw [left, right]
      exact .some (forall₂_filter (fun _ _ part => part.isOneOf _) children)

private theorem visits_alike {s : Source} {below : List Tree} {budget : Nat}
    (alike : Alike budget s.tree (s.withChildren below).tree) :
    List.Forall₂ (Visited (Alike budget)) s.visits (s.withChildren below).visits := by
  have met := alike.forall₂_walk (show "export_statement" :: Kind.declaring ⊆ Kind.walked by decide)
    false
  refine ((List.forall₂_and_left _ _).mpr ⟨fun v member => (List.mem_filter.mp member).2, met⟩).imp ?_
  rintro v w ⟨visited, nodes, scopes⟩
  refine ⟨nodes, scopes.symm.imp_left fun expression => ?_⟩
  -- The only expressions among the nodes that declare something are the assignments.
  have assigns : ∀ k ∈ "export_statement" :: Kind.declaring,
      Kind.noExpressions.contains k = false → k = "assignment_expression" := by decide
  exact assigns v.1.kind (List.contains_iff_mem.mp visited) expression

namespace Classification

/-- Layers around operands change neither the table nor the records, if the budget is enough for
all nodes. -/
theorem records_covered (s : Source) (budget : Nat) (below : List Tree)
    (covered : Covered false s.tree s.tree.children below) (formal : s.tree.Formal)
    (enough : (s.withChildren below).tree.size ≤ budget) :
    (let t := ExportTable.ofSource s
      let t' := ExportTable.ofSource (s.withChildren below)
      t'.bindings = t.bindings ∧ t'.exportedNames = t.exportedNames ∧
        t'.defaultNames = t.defaultNames ∧ t'.defaultName = t.defaultName ∧ t'.aliases = t.aliases ∧
        t'.anonymousDefaults.map (fun entry => (entry.1, entry.2.kind, entry.2.start)) =
          t.anonymousDefaults.map fun entry => (entry.1, entry.2.kind, entry.2.start)) ∧
      records (s.withChildren below) budget = records s budget := by
  have alike : Alike budget s.tree (s.withChildren below).tree :=
    ⟨rfl, rfl, rfl, rfl, formal, enough, false, nofun, covered⟩
  have same := correspondence_alike s below budget
  have walk := visits_alike alike
  have table := same.table (same.forall₂_statements walk)
  refine ⟨⟨table.bindings, table.exportedNames, table.defaultNames, table.defaultName,
    table.aliases, ?_⟩, same.records walk fun _ _ => Alike.containsMarkup⟩
  refine map_eq_of_forall₂ (fun p q pair => ?_) table.anonymousDefaults
  rw [pair.1, pair.2.kind, pair.2.start]

def badgeFunction : Tree :=
  ⟨"function_declaration", true, 28, 62, none, false, [
    .leaf "function" false 28 36,
    (Tree.leaf "identifier" true 37 42).withField (some "name"),
    ⟨"formal_parameters", true, 42, 45, some "parameters", false, [
      .leaf "(" false 42 43, .leaf "identifier" true 43 44, .leaf ")" false 44 45]⟩,
    ⟨"statement_block", true, 46, 62, some "body", false, [
      .leaf "\x7b" false 46 47,
      ⟨"return_statement", true, 48, 60, none, false, [
        .leaf "return" false 48 54,
        ⟨"jsx_self_closing_element", true, 55, 59, none, false, [
          .leaf "<" false 55 56, (Tree.leaf "identifier" true 56 57).withField (some "name"),
          .leaf "/>" false 57 59]⟩,
        .leaf ";" false 59 60]⟩,
      .leaf "\x7d" false 61 62]⟩]⟩

def badgeSource : Source :=
  ⟨"/src/Badge.jsx",
    Encoding.encode ("export default memo(Badge);\n" ++
      "function Badge(a) \x7b return <p/>; \x7d\n").toList,
    ⟨"program", true, 0, 63, none, false, [
      ⟨"export_statement", true, 0, 27, none, false, [
        .leaf "export" false 0 6, .leaf "default" false 7 14,
        ⟨"call_expression", true, 15, 26, some "value", false, [
          (Tree.leaf "identifier" true 15 19).withField (some "function"),
          ⟨"arguments", true, 19, 26, some "arguments", false, [
            .leaf "(" false 19 20, .leaf "identifier" true 20 25, .leaf ")" false 25 26]⟩]⟩,
        .leaf ";" false 26 27]⟩,
      badgeFunction]⟩⟩

def badgeCovered : List Tree :=
  [⟨"export_statement", true, 0, 27, none, false, [
      .leaf "export" false 0 6, .leaf "default" false 7 14,
      coveredBy [.parentheses 15 26, .parentheses 15 26]
        ⟨"call_expression", true, 15, 26, some "value", false, [
          coveredBy [.parentheses 15 19] ((Tree.leaf "identifier" true 15 19).withField (some "function")),
          ⟨"arguments", true, 19, 26, some "arguments", false, [
            .leaf "(" false 19 20,
            coveredBy [.assertion 20 25, .parentheses 20 25] (.leaf "identifier" true 20 25),
            .leaf ")" false 25 26]⟩]⟩,
      .leaf ";" false 26 27]⟩,
    badgeFunction]

theorem badge_records_covered :
    Covered false badgeSource.tree badgeSource.tree.children badgeCovered ∧
      badgeSource.tree.Formal ∧ (badgeSource.withChildren badgeCovered).tree.size ≤ Budget.standard ∧
      records badgeSource Budget.standard =
        [⟨"Badge", .default, "/src/Badge.jsx", .component, ["a"], false, some 2⟩] ∧
      records (badgeSource.withChildren badgeCovered) Budget.standard =
        records badgeSource Budget.standard := by
  have covered : Covered false badgeSource.tree badgeSource.tree.children badgeCovered := by
    refine .within (.keep _ (.keep _ (.cons _ (fun _ => ?value) (.cons _ (fun _ => ?callee) .nil
      (.within (.keep _ (.cons _ (fun _ => ?argument) .nil (.refl _ _ _))) .nil)) (.refl _ _ _))))
      (.refl _ _ _)
    case value => exact ⟨rfl, by decide, .inl ⟨rfl, by decide⟩⟩
    case callee => exact ⟨rfl, by decide, .inr (.inl ⟨rfl, rfl⟩)⟩
    case argument => exact ⟨rfl, by decide, .inr (.inr ⟨rfl, by decide⟩)⟩
  have formal : badgeSource.tree.Formal := by decide +kernel
  have enough : (badgeSource.withChildren badgeCovered).tree.size ≤ Budget.standard := by
    decide +kernel
  have described : records badgeSource Budget.standard =
      [⟨"Badge", .default, "/src/Badge.jsx", .component, ["a"], false, some 2⟩] := by
    rw [records_of_sorted _ _ (by decide +kernel)]
    decide +kernel
  exact ⟨covered, formal, enough, described,
    (records_covered badgeSource Budget.standard badgeCovered covered formal enough).2⟩

/-- Where a call stands for the parameters of a function, its callee is read as a parameter, and
parentheses around it are not taken off. -/
def rowSource : Source :=
  ⟨"/src/Row.jsx", Encoding.encode "export function Row(a) \x7b return 1; \x7d\n".toList,
    ⟨"program", true, 0, 37, none, false, [
      ⟨"export_statement", true, 0, 36, none, false, [
        .leaf "export" false 0 6,
        ⟨"function_declaration", true, 7, 36, some "declaration", false, [
          .leaf "function" false 7 15,
          (Tree.leaf "identifier" true 16 19).withField (some "name"),
          ⟨"call_expression", true, 19, 22, some "parameters", false, [
            (Tree.leaf "identifier" true 20 21).withField (some "function")]⟩,
          ⟨"statement_block", true, 23, 36, some "body", false, []⟩]⟩]⟩]⟩⟩

def rowCovered : List Tree :=
  [⟨"export_statement", true, 0, 36, none, false, [
    .leaf "export" false 0 6,
    ⟨"function_declaration", true, 7, 36, some "declaration", false, [
      .leaf "function" false 7 15,
      (Tree.leaf "identifier" true 16 19).withField (some "name"),
      ⟨"call_expression", true, 19, 22, some "parameters", false, [
        coveredBy [.parentheses 19 22]
          ((Tree.leaf "identifier" true 20 21).withField (some "function"))]⟩,
      ⟨"statement_block", true, 23, 36, some "body", false, []⟩]⟩]⟩]

theorem row_records :
    Covered false rowSource.tree rowSource.tree.children rowCovered ∧
      (rowSource.withChildren rowCovered).tree.size ≤ Budget.standard ∧
      records rowSource Budget.standard =
        [⟨"Row", .named, "/src/Row.jsx", .function, ["a"], false, some 1⟩] ∧
      records (rowSource.withChildren rowCovered) Budget.standard =
        [⟨"Row", .named, "/src/Row.jsx", .function, [], false, some 1⟩] := by
  refine ⟨?_, by decide +kernel, ?_, ?_⟩
  · refine .within (.keep _ (.within (.keep _ (.keep _ (.within
      (.cons _ (fun _ => ?callee) .nil .nil) (.refl _ _ _)))) .nil)) .nil
    exact ⟨rfl, by decide, .inr (.inl ⟨rfl, rfl⟩)⟩
  · rw [records_of_sorted _ _ (by decide +kernel)]
    decide +kernel
  · rw [records_of_sorted _ _ (by decide +kernel)]
    decide +kernel

end Classification
end ExportInventory
