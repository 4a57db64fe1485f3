import ExportInventory.Declaration
import Mathlib.Data.List.Induction
import Mathlib.Data.List.Nodup

/-!
Which declaration a name stands for. The declarations of a source form a sequence; the first one
at module scope stands for its name, and where there is none the first of all.
-/
namespace ExportInventory

namespace Tree

mutual

/-- The nodes of a subtree in preorder, each with the nodes above it, the nearest first. -/
def withAncestors (above : List Tree) : Tree → List (Tree × List Tree)
  | t@⟨_, _, _, _, _, _, children⟩ => (t, above) :: withAncestorsAll (t :: above) children

def withAncestorsAll (above : List Tree) : List Tree → List (Tree × List Tree)
  | [] => []
  | t :: rest => withAncestors above t ++ withAncestorsAll above rest

end

/-- Whether a node below the given ones belongs to the module: nothing but exports and
declarations stands between it and the program. -/
def atModuleScope (above : List Tree) : Bool :=
  (above.dropWhile (fun t => t.isOneOf Kind.moduleScope)).head?.any (fun t => t.kind == "program")

private theorem childScope_atModuleScope (t : Tree) (above : List Tree) :
    t.childScope (atModuleScope above) = atModuleScope (t :: above) := by
  unfold childScope atModuleScope
  cases passed : t.isOneOf Kind.moduleScope <;> simp [passed]

mutual

private theorem withScope_atModuleScope (above : List Tree) :
    ∀ t : Tree, t.withScope (atModuleScope above) =
      (t.withAncestors above).map fun visit => (visit.1, atModuleScope visit.2)
  | ⟨kind, named, start, stop, field, missing, children⟩ => by
    simp only [withScope, withAncestors, List.map_cons]
    rw [childScope_atModuleScope, withScopeAll_atModuleScope]

theorem withScopeAll_atModuleScope (above : List Tree) :
    ∀ ts : List Tree, withScopeAll (atModuleScope above) ts =
      (withAncestorsAll above ts).map fun visit => (visit.1, atModuleScope visit.2)
  | [] => rfl
  | t :: rest => by
    rw [withScopeAll, withAncestorsAll, List.map_append, withScope_atModuleScope,
      withScopeAll_atModuleScope]

end

mutual

theorem withScope_fst (scope : Bool) : ∀ t : Tree, (t.withScope scope).map Prod.fst = t.preorder
  | ⟨kind, named, start, stop, field, missing, children⟩ => by
    rw [withScope, preorder, List.map_cons, withScopeAll_fst]

theorem withScopeAll_fst (scope : Bool) :
    ∀ ts : List Tree, (withScopeAll scope ts).map Prod.fst = preorderAll ts
  | [] => rfl
  | t :: rest => by
    rw [withScopeAll, preorderAll, List.map_append, withScope_fst, withScopeAll_fst]

end

theorem preorder_eq (t : Tree) : t.preorder = t :: preorderAll t.children := by
  cases t
  rw [preorder]

theorem preorderAll_eq_flatMap (ts : List Tree) : preorderAll ts = ts.flatMap preorder := by
  induction ts with
  | nil => rfl
  | cons t rest ih => rw [preorderAll, ih, List.flatMap_cons]

theorem withScopeAll_eq_flatMap (scope : Bool) (ts : List Tree) :
    withScopeAll scope ts = ts.flatMap (withScope scope) := by
  induction ts with
  | nil => rfl
  | cons t rest ih => rw [withScopeAll, ih, List.flatMap_cons]

theorem preorder_subset_of_mem {t c : Tree} (member : c ∈ t.children) : c.preorder ⊆ t.preorder := by
  intro n inside
  rw [preorder_eq t, preorderAll_eq_flatMap]
  exact List.mem_cons_of_mem t (List.mem_flatMap.mpr ⟨c, member, inside⟩)

theorem mem_preorder_self (t : Tree) : t ∈ t.preorder := by
  rw [preorder_eq]
  exact List.mem_cons_self

end Tree

namespace Declarations

section Sequence

variable (s : Source)

/-- A function or class under the name it declares. -/
def namedDeclaration? (kind : DeclarationKind) (t : Tree) (topLevel : Bool) : Option Declaration :=
  (t.child? "name").map fun n => ⟨s.textOf n, kind, t, s.lineOf t, topLevel⟩

/-- What a variable with the given value declares. -/
def valueKind? (value : Tree) : Option DeclarationKind :=
  if value.isOneOf Kind.functionExpressions then some .function
  else if value.isOneOf Kind.classExpressions then some .classType
  else if Wrapper.isCall s value then some .wrapped
  else none

def declaratorDeclaration? (t : Tree) (topLevel : Bool) : Option Declaration :=
  match t.child? "name", (t.child? "value").map Tree.unwrapped with
  | some n, some value =>
    if n.kind != "identifier" then none
    else (valueKind? s value).map fun kind => ⟨s.textOf n, kind, value, s.lineOf t, topLevel⟩
  | _, _ => none

/-- What a node declares. -/
def declaration? (t : Tree) (topLevel : Bool) : Option Declaration :=
  if t.isOneOf Kind.functionDeclarations then namedDeclaration? s .function t topLevel
  else if t.isOneOf Kind.classDeclarations then namedDeclaration? s .classType t topLevel
  else if t.kind == "variable_declarator" then declaratorDeclaration? s t topLevel
  else none

/-- The declarations in the tree of a source, in preorder. -/
def inTree : List Declaration :=
  (s.tree.withAncestors []).filterMap fun visit => declaration? s visit.1 (Tree.atModuleScope visit.2)

/-- An inline default export, declared for the module under the given name. -/
def inlineDeclaration (name : String) (t : Tree) : Declaration :=
  ⟨name, if t.isOneOf Kind.classLike then .classType else .function, t, s.lineOf t, true⟩

/-- All declarations of a source: those in its tree, and behind them its inline default exports. -/
def collected (exports : ExportTable) : List Declaration :=
  inTree s ++ exports.anonymousDefaults.map fun entry => inlineDeclaration s entry.1 entry.2

end Sequence

/-- The declaration that a name stands for. -/
def chosen? (seen : List Declaration) (name : String) : Option Declaration :=
  (seen.find? (fun d => d.name = name && d.topLevel)).or (seen.find? (fun d => d.name = name))

theorem mem_of_chosen? {seen : List Declaration} {name : String} {d : Declaration}
    (chosen : chosen? seen name = some d) : d ∈ seen := by
  rcases Option.or_eq_some_iff.mp chosen with top | ⟨_, first⟩
  · exact List.mem_of_find?_eq_some top
  · exact List.mem_of_find?_eq_some first

theorem name_of_chosen? {seen : List Declaration} {name : String} {d : Declaration}
    (chosen : chosen? seen name = some d) : d.name = name := by
  rcases Option.or_eq_some_iff.mp chosen with top | ⟨_, first⟩
  · have both := List.find?_some top
    simp only [Bool.and_eq_true, decide_eq_true_eq] at both
    exact both.1
  · have named := List.find?_some first
    exact of_decide_eq_true named

theorem exists_chosen? {seen : List Declaration} {d : Declaration} (member : d ∈ seen) :
    ∃ x, chosen? seen d.name = some x ∧ x.name = d.name := by
  have found : (chosen? seen d.name).isSome := by
    rw [chosen?, Option.isSome_or, Bool.or_eq_true, List.find?_isSome, List.find?_isSome]
    exact .inr ⟨d, member, by simp⟩
  obtain ⟨x, chosen⟩ := Option.isSome_iff_exists.mp found
  exact ⟨x, chosen, name_of_chosen? chosen⟩

/-- The list of `remember`, without the default properties. -/
def place (list : List Declaration) (x : Declaration) : List Declaration :=
  match list.find? (fun y => y.name = x.name) with
  | some existing =>
    if existing.topLevel || !x.topLevel then list
    else list.filter (fun y => y.name ≠ x.name) ++ [x]
  | none => list ++ [x]

theorem remember_list (d : Declarations) (x : Declaration) :
    (d.remember x).list = place d.list x := by
  unfold remember place find?
  cases d.list.find? (fun y => y.name = x.name) with
  | none => rfl
  | some existing =>
    dsimp only
    split <;> rfl

section Meeting

variable (s : Source)

theorem rememberClass_list (d : Declarations) (name : String) (classNode : Tree) (line : Nat)
    (topLevel : Bool) :
    (d.rememberClass s name classNode line topLevel).list =
      place d.list ⟨name, .classType, classNode, line, topLevel⟩ := by
  unfold rememberClass
  rw [remember_list]
  split <;> rfl

private theorem meetDeclarator_list (d : Declarations) (t : Tree) (topLevel : Bool) :
    (d.meetDeclarator s t topLevel).list =
      (declaratorDeclaration? s t topLevel).elim d.list (place d.list) := by
  unfold meetDeclarator declaratorDeclaration? valueKind?
  cases t.child? "name" with
  | none => rfl
  | some n =>
    cases (t.child? "value").map Tree.unwrapped with
    | none => rfl
    | some value =>
      dsimp only
      repeat' split
      all_goals simp [remember_list, rememberClass_list]

private theorem meetAssignment_list (d : Declarations) (t : Tree) :
    (d.meetAssignment s t).list = d.list := by
  unfold meetAssignment
  repeat' split
  all_goals rfl

private theorem meet_list (d : Declarations) (t : Tree) (topLevel : Bool) :
    (d.meet s (t, topLevel)).list =
      (declaration? s t topLevel).elim d.list (place d.list) := by
  unfold meet declaration?
  dsimp only
  split
  · unfold meetFunction namedDeclaration?
    cases t.child? "name" <;> simp [remember_list]
  · split
    · unfold meetClass namedDeclaration?
      cases t.child? "name" <;> simp [rememberClass_list]
    · split
      · exact meetDeclarator_list s d t topLevel
      · split
        · exact meetAssignment_list s d t
        · rfl

private theorem foldl_meet_list (visits : List (Tree × Bool)) (d : Declarations) :
    (visits.foldl (meet s) d).list =
      (visits.filterMap fun visit => declaration? s visit.1 visit.2).foldl place d.list := by
  induction visits generalizing d with
  | nil => rfl
  | cons visit rest ih =>
    rw [List.foldl_cons, ih, List.filterMap_cons, meet_list]
    cases declaration? s visit.1 visit.2 <;> rfl

private theorem foldl_meetAnonymous_list (entries : List (String × Tree)) (d : Declarations) :
    (entries.foldl (meetAnonymous s) d).list =
      (entries.map fun entry => inlineDeclaration s entry.1 entry.2).foldl place d.list := by
  induction entries generalizing d with
  | nil => rfl
  | cons entry rest ih =>
    rw [List.foldl_cons, ih, List.map_cons, List.foldl_cons]
    exact congrArg (fun list => List.foldl place list _) (remember_list d _)

theorem inTree_eq :
    inTree s = (s.tree.withScope false).filterMap fun visit => declaration? s visit.1 visit.2 := by
  have scopes : s.tree.withScope false =
      (s.tree.withAncestors []).map fun visit => (visit.1, Tree.atModuleScope visit.2) :=
    Tree.withScope_atModuleScope [] s.tree
  rw [scopes, List.filterMap_map]
  rfl

/-- The declarations that are kept come from the whole sequence, placed one by one. -/
theorem ofSource_list (exports : ExportTable) :
    (ofSource s exports).list = (collected s exports).foldl place [] := by
  unfold ofSource collected
  rw [foldl_meetAnonymous_list, foldl_meet_list, List.foldl_append, inTree_eq]
  rfl

end Meeting

section Props

variable (s : Source)

def classProps? (name : String) (classNode : Tree) : Option String :=
  if hasStaticDefaultProps s classNode then some name else none

def declaratorProps? (t : Tree) : Option String :=
  match t.child? "name", (t.child? "value").map Tree.unwrapped with
  | some n, some value =>
    if n.kind != "identifier" || value.isOneOf Kind.functionExpressions then none
    else if value.isOneOf Kind.classExpressions then classProps? s (s.textOf n) value
    else none
  | _, _ => none

def assignedProps? (t : Tree) : Option String :=
  match t.child? "left" with
  | some left =>
    if left.kind != "member_expression" then none
    else
      match left.child? "object", left.child? "property" with
      | some object, some property =>
        if object.kind == "identifier" && s.textOf property == "defaultProps" then
          some (s.textOf object)
        else none
      | _, _ => none
  | none => none

/-- The name that a node gives default properties. -/
def propsName? (t : Tree) : Option String :=
  if t.isOneOf Kind.functionDeclarations then none
  else if t.isOneOf Kind.classDeclarations then
    (t.child? "name").bind fun n => classProps? s (s.textOf n) t
  else if t.kind == "variable_declarator" then declaratorProps? s t
  else if t.kind == "assignment_expression" then assignedProps? s t
  else none

theorem remember_defaultProps (d : Declarations) (x : Declaration) :
    (d.remember x).defaultProps = d.defaultProps := by
  unfold remember
  repeat' split
  all_goals rfl

theorem rememberClass_defaultProps (d : Declarations) (name : String) (classNode : Tree)
    (line : Nat) (topLevel : Bool) :
    (d.rememberClass s name classNode line topLevel).defaultProps =
      (classProps? s name classNode).elim d.defaultProps
        (ExportTable.insertName d.defaultProps) := by
  unfold rememberClass classProps?
  rw [remember_defaultProps]
  split <;> rfl

private theorem meetDeclarator_defaultProps (d : Declarations) (t : Tree) (topLevel : Bool) :
    (d.meetDeclarator s t topLevel).defaultProps =
      (declaratorProps? s t).elim d.defaultProps (ExportTable.insertName d.defaultProps) := by
  unfold meetDeclarator declaratorProps?
  cases t.child? "name" with
  | none => rfl
  | some n =>
    cases (t.child? "value").map Tree.unwrapped with
    | none => rfl
    | some value =>
      dsimp only
      cases n.kind != "identifier" with
      | true => rfl
      | false =>
        cases value.isOneOf Kind.functionExpressions with
        | true => exact remember_defaultProps d _
        | false =>
          cases value.isOneOf Kind.classExpressions with
          | true => exact rememberClass_defaultProps s d _ value _ topLevel
          | false =>
            cases Wrapper.isCall s value with
            | true => exact remember_defaultProps d _
            | false => rfl

private theorem meetAssignment_defaultProps (d : Declarations) (t : Tree) :
    (d.meetAssignment s t).defaultProps =
      (assignedProps? s t).elim d.defaultProps (ExportTable.insertName d.defaultProps) := by
  unfold meetAssignment assignedProps?
  cases t.child? "left" with
  | none => rfl
  | some left =>
    dsimp only
    cases left.kind != "member_expression" with
    | true => rfl
    | false =>
      cases left.child? "object" with
      | none => rfl
      | some object =>
        cases left.child? "property" with
        | none => rfl
        | some property =>
          dsimp only
          cases object.kind == "identifier" && s.textOf property == "defaultProps" <;> rfl

private theorem meet_defaultProps (d : Declarations) (t : Tree) (topLevel : Bool) :
    (d.meet s (t, topLevel)).defaultProps =
      (propsName? s t).elim d.defaultProps (ExportTable.insertName d.defaultProps) := by
  unfold meet propsName?
  dsimp only
  split
  · unfold meetFunction
    split
    · exact remember_defaultProps d _
    · rfl
  · split
    · unfold meetClass
      cases t.child? "name" with
      | none => rfl
      | some n => exact rememberClass_defaultProps s d _ t _ topLevel
    · split
      · exact meetDeclarator_defaultProps s d t topLevel
      · split
        · exact meetAssignment_defaultProps s d t
        · rfl

private theorem foldl_meet_defaultProps (visits : List (Tree × Bool)) (d : Declarations) :
    (visits.foldl (meet s) d).defaultProps =
      ((visits.map Prod.fst).filterMap (propsName? s)).foldl ExportTable.insertName
        d.defaultProps := by
  induction visits generalizing d with
  | nil => rfl
  | cons visit rest ih =>
    rw [List.foldl_cons, ih, List.map_cons, List.filterMap_cons, meet_defaultProps]
    cases propsName? s visit.1 <;> rfl

private theorem foldl_meetAnonymous_defaultProps (entries : List (String × Tree))
    (d : Declarations) :
    (entries.foldl (meetAnonymous s) d).defaultProps = d.defaultProps := by
  induction entries generalizing d with
  | nil => rfl
  | cons entry rest ih =>
    rw [List.foldl_cons, ih]
    exact remember_defaultProps d _

theorem ofSource_defaultProps (exports : ExportTable) :
    (ofSource s exports).defaultProps =
      (s.tree.preorder.filterMap (propsName? s)).foldl ExportTable.insertName [] := by
  unfold ofSource
  rw [foldl_meetAnonymous_defaultProps, foldl_meet_defaultProps, Tree.withScope_fst]
  rfl

end Props

/-- The list that is kept of a sequence: one declaration for each name, the chosen one. -/
structure Settled (seen list : List Declaration) : Prop where
  distinct : (list.map (·.name)).Nodup
  chosen : ∀ name, list.find? (fun d => d.name = name) = chosen? seen name

private theorem chosen?_snoc_of_ne {seen : List Declaration} {x : Declaration} {name : String}
    (other : x.name ≠ name) : chosen? (seen ++ [x]) name = chosen? seen name := by
  simp [chosen?, List.find?_append, other]

/-- One more declaration takes over its name if the name is new, or was local so far and is one of
the module now. -/
theorem chosen?_snoc (seen : List Declaration) (x : Declaration) :
    chosen? (seen ++ [x]) x.name =
      match chosen? seen x.name with
      | some existing => if existing.topLevel || !x.topLevel then some existing else some x
      | none => some x := by
  unfold chosen?
  rw [List.find?_append, List.find?_append]
  cases top : seen.find? (fun d => d.name = x.name && d.topLevel) with
  | some existing =>
    have scope : existing.topLevel = true := by
      have both := List.find?_some top
      simp only [Bool.and_eq_true] at both
      exact both.2
    simp [scope]
  | none =>
    cases first : seen.find? (fun d => d.name = x.name) with
    | none => cases level : x.topLevel <;> simp [level]
    | some existing =>
      have scope : existing.topLevel = false := by
        have absent := List.find?_eq_none.mp top existing (List.mem_of_find?_eq_some first)
        have name := List.find?_some first
        simpa [of_decide_eq_true name] using absent
      cases level : x.topLevel <;> simp [scope, level]

private theorem Settled.nil : Settled [] [] := ⟨List.nodup_nil, fun _ => rfl⟩

private theorem find?_filter_ne (list : List Declaration) {name other : String}
    (different : other ≠ name) :
    (list.filter (fun y => y.name ≠ other)).find? (fun d => d.name = name) =
      list.find? (fun d => d.name = name) := by
  rw [List.find?_filter]
  congr 1
  funext d
  by_cases same : d.name = name <;> simp [same, Ne.symm different]

private theorem Settled.place {seen list : List Declaration} (settled : Settled seen list)
    (x : Declaration) : Settled (seen ++ [x]) (place list x) := by
  have current := settled.chosen x.name
  unfold Declarations.place
  cases found : list.find? (fun y => y.name = x.name) with
  | none =>
    have absent : ∀ d ∈ list, d.name ≠ x.name := by
      intro d member
      simpa using List.find?_eq_none.mp found d member
    rw [found] at current
    refine ⟨?_, fun name => ?_⟩
    · rw [List.map_append, List.map_singleton, List.nodup_append]
      refine ⟨settled.distinct, List.nodup_singleton _, ?_⟩
      intro a memberA b memberB
      obtain ⟨d, member, rfl⟩ := List.mem_map.mp memberA
      rw [List.mem_singleton.mp memberB]
      exact absent d member
    · by_cases same : x.name = name
      · subst same
        rw [List.find?_append, found, chosen?_snoc, ← current]
        simp
      · rw [List.find?_append, chosen?_snoc_of_ne same, settled.chosen name]
        simp [same]
  | some existing =>
    rw [found] at current
    dsimp only
    split
    · rename_i stays
      refine ⟨settled.distinct, fun name => ?_⟩
      by_cases same : x.name = name
      · subst same
        rw [found, chosen?_snoc, ← current]
        simp only [stays, if_true]
      · rw [chosen?_snoc_of_ne same, settled.chosen name]
    · rename_i taken
      have dropped : (list.filter (fun y => y.name ≠ x.name)).find? (fun d => d.name = x.name) =
          none := by
        rw [List.find?_eq_none]
        intro d member
        simpa using (List.mem_filter.mp member).2
      refine ⟨?_, fun name => ?_⟩
      · rw [List.map_append, List.map_singleton, List.nodup_append]
        refine ⟨settled.distinct.sublist (List.filter_sublist.map _), List.nodup_singleton _, ?_⟩
        intro a memberA b memberB
        obtain ⟨d, member, rfl⟩ := List.mem_map.mp memberA
        rw [List.mem_singleton.mp memberB]
        simpa using (List.mem_filter.mp member).2
      · by_cases same : x.name = name
        · subst same
          rw [List.find?_append, dropped, chosen?_snoc, ← current]
          simp only [taken, Bool.false_eq_true, if_false]
          simp
        · rw [List.find?_append, chosen?_snoc_of_ne same, find?_filter_ne list same,
            settled.chosen name]
          simp [same]

private theorem settled_foldl (seen : List Declaration) :
    Settled seen (seen.foldl Declarations.place []) := by
  induction seen using List.reverseRecOn with
  | nil => exact Settled.nil
  | append_singleton before x ih =>
    rw [List.foldl_append, List.foldl_cons, List.foldl_nil]
    exact ih.place x

theorem Settled.mem_iff {seen list : List Declaration} (settled : Settled seen list)
    (d : Declaration) : d ∈ list ↔ chosen? seen d.name = some d := by
  rw [← settled.chosen d.name]
  constructor
  · intro member
    cases found : list.find? (fun y => y.name = d.name) with
    | none => simpa using List.find?_eq_none.mp found d member
    | some y =>
      have name : y.name = d.name := by simpa using List.find?_some found
      have same : y = d := List.inj_on_of_nodup_map settled.distinct
        (List.mem_of_find?_eq_some found) member name
      rw [same]
  · exact List.mem_of_find?_eq_some

theorem settled_ofSource (s : Source) (exports : ExportTable) :
    Settled (collected s exports) (ofSource s exports).list := by
  rw [ofSource_list]
  exact settled_foldl _

end Declarations
end ExportInventory
