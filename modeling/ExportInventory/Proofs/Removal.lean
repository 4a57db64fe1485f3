import ExportInventory.Proofs.Correspondence
import Mathlib.Data.List.Find

/-!
Trees that lose some of their nodes. As long as the lost nodes play no role where they stand, all
that is read off the remaining ones stays the same.
-/
namespace ExportInventory

namespace Tree

mutual

/-- The subtree without the nodes that are dropped from below their parents. -/
def without (drop : Tree → Tree → Bool) : Tree → Tree
  | t@⟨kind, named, start, stop, field, missing, children⟩ =>
    ⟨kind, named, start, stop, field, missing, withoutAll drop t children⟩

def withoutAll (drop : Tree → Tree → Bool) (parent : Tree) : List Tree → List Tree
  | [] => []
  | t :: rest =>
    if drop parent t then withoutAll drop parent rest
    else without drop t :: withoutAll drop parent rest

end

end Tree

def Source.without (drop : Tree → Tree → Bool) (s : Source) : Source :=
  { s with tree := s.tree.without drop }

namespace Tree

/-- What is dropped has no role, is no part of its parent and does not stand where an expression
is read. -/
structure Harmless (drop : Tree → Tree → Bool) : Prop where
  noRole : ∀ parent t, drop parent t = true → t.field = none
  noPart : ∀ parent t, drop parent t = true → t.isOneOf Kind.parts = false
  noExpression : ∀ parent t, drop parent t = true → parent.isOneOf Kind.transparent = false
  noArgument : ∀ parent t, drop parent t = true → parent.field = some "arguments" →
    t.kind = "comment"

section Fields

variable (drop : Tree → Tree → Bool) (t : Tree)

private theorem withoutAll_eq (parent : Tree) (ts : List Tree) :
    withoutAll drop parent ts = (ts.filter (fun c => !drop parent c)).map (without drop) := by
  induction ts with
  | nil => rfl
  | cons c rest ih =>
    rw [withoutAll, ih]
    cases dropped : drop parent c <;> simp [dropped]

theorem children_without :
    (t.without drop).children = (t.children.filter (fun c => !drop t c)).map (without drop) := by
  cases t
  exact withoutAll_eq drop _ _

@[simp] theorem kind_without : (t.without drop).kind = t.kind := by cases t; rfl

@[simp] theorem named_without : (t.without drop).named = t.named := by cases t; rfl

@[simp] theorem start_without : (t.without drop).start = t.start := by cases t; rfl

@[simp] theorem stop_without : (t.without drop).stop = t.stop := by cases t; rfl

@[simp] theorem field_without : (t.without drop).field = t.field := by cases t; rfl

@[simp] theorem isOneOf_without (kinds : List String) :
    (t.without drop).isOneOf kinds = t.isOneOf kinds := by
  rw [isOneOf, isOneOf, kind_without]

@[simp] theorem textOf_without (s : Source) :
    (s.without drop).textOf (t.without drop) = s.textOf t := by
  rw [Source.textOf, Source.textOf, start_without, stop_without]
  rfl

@[simp] theorem lineOf_without (s : Source) :
    (s.without drop).lineOf (t.without drop) = s.lineOf t := by
  rw [Source.lineOf, Source.lineOf, start_without]
  rfl

theorem namedChildren_without :
    (t.without drop).namedChildren =
      (t.namedChildren.filter (fun c => !drop t c)).map (without drop) := by
  rw [namedChildren, namedChildren, children_without, List.filter_map, List.filter_filter,
    List.filter_filter]
  congr 2
  funext c
  simp [Bool.and_comm]

end Fields

private theorem child?_field {t c : Tree} {role : String} (found : t.child? role = some c) :
    c.field = some role := by
  have test := List.find?_some found
  exact beq_iff_eq.mp test

theorem child?_without_of_kept {drop : Tree → Tree → Bool} {t : Tree} {role : String}
    (kept : ∀ c ∈ t.children, c.field = some role → ¬ drop t c = true) :
    (t.without drop).child? role = (t.child? role).map (without drop) := by
  unfold child?
  rw [children_without, List.find?_map, List.find?_filter]
  refine congrArg (Option.map _) (List.find?_congr fun c member => ?_)
  rw [Bool.eq_iff_iff]
  by_cases field : c.field = some role
  · simp [field, kept c member field]
  · simp [field]

section Reading

variable (drop : Tree → Tree → Bool)

/-- The expression inside parentheses and annotations is the same one as before. -/
def Exposed (t : Tree) : Prop := (t.without drop).unwrapped = t.unwrapped.without drop

/-- Nothing that is read of a node is dropped. -/
structure Keeps (t : Tree) : Prop where
  noRole : ∀ c ∈ t.children, drop t c = true → c.field = none
  noPart : ∀ c ∈ t.children, drop t c = true → c.isOneOf Kind.parts = false
  noArgument : ∀ list, t.child? "arguments" = some list →
    ∀ c ∈ list.children, drop list c = true → c.kind = "comment"
  value : t.isOneOf Kind.valued = true → ∀ v, t.child? "value" = some v → Exposed drop v
  callee : t.kind = "call_expression" → ∀ v, t.child? "function" = some v → Exposed drop v
  argument : t.kind = "call_expression" → ∀ v, Wrapper.firstArgument? t = some v → Exposed drop v

end Reading

namespace Keeps

variable {drop : Tree → Tree → Bool} {t : Tree} (keeps : Keeps drop t)
include keeps

theorem child?_without (role : String) :
    (t.without drop).child? role = (t.child? role).map (without drop) := by
  apply child?_without_of_kept
  intro c member field dropped
  rw [keeps.noRole c member dropped] at field
  cases field

private theorem any_children_without {kind : String} (part : kind ∈ Kind.parts) :
    (t.without drop).children.any (fun c => c.kind == kind) =
      t.children.any (fun c => c.kind == kind) := by
  rw [children_without, List.any_map, List.any_filter, Bool.eq_iff_iff, List.any_eq_true,
    List.any_eq_true]
  refine exists_congr fun c => and_congr_right fun member => ?_
  cases dropped : drop t c with
  | false => simp
  | true => simp [kind_ne_of_absent (keeps.noPart c member dropped) part]

private theorem parts_without {kinds : List String} (parts : kinds ⊆ Kind.parts) :
    (t.without drop).namedChildren.filter (fun c => c.isOneOf kinds) =
      (t.namedChildren.filter (fun c => c.isOneOf kinds)).map (without drop) := by
  rw [namedChildren_without, List.filter_map, List.filter_filter]
  refine congrArg (List.map _) (List.filter_congr fun c member => ?_)
  have child := (List.mem_filter.mp member).1
  cases dropped : drop t c with
  | false => simp
  | true => simp [isOneOf_of_subset parts (keeps.noPart c child dropped)]

private theorem firstArgument?_without :
    Wrapper.firstArgument? (t.without drop) = (Wrapper.firstArgument? t).map (without drop) := by
  unfold Wrapper.firstArgument?
  rw [keeps.child?_without]
  cases found : t.child? "arguments" with
  | none => rfl
  | some list =>
    change (list.without drop).namedChildren.find? _ =
      (list.namedChildren.find? _).map (without drop)
    rw [namedChildren_without, List.find?_map, List.find?_filter]
    refine congrArg (Option.map _) (List.find?_congr fun c member => ?_)
    have child := (List.mem_filter.mp member).1
    rw [Bool.eq_iff_iff]
    cases dropped : drop list c with
    | false => simp
    | true => simp [keeps.noArgument list found c child dropped]

end Keeps

mutual

/-- Nothing that is dropped stands in front of the expression inside parentheses and annotations. -/
def opens (drop : Tree → Tree → Bool) : Tree → Bool
  | t@⟨kind, _, _, _, _, _, children⟩ =>
    if Kind.transparent.contains kind then firstOpens drop t children else true

def firstOpens (drop : Tree → Tree → Bool) (parent : Tree) : List Tree → Bool
  | [] => true
  | t :: rest => if t.named then !drop parent t && opens drop t else firstOpens drop parent rest

end

section Opening

variable {drop : Tree → Tree → Bool}

mutual

theorem exposed_of_opens : ∀ t : Tree, t.opens drop = true → t.Exposed drop
  | ⟨kind, named, start, stop, field, missing, children⟩, reached => by
    unfold Exposed
    rw [opens] at reached
    cases transparent : Kind.transparent.contains kind with
    | false => simp only [without, unwrapped, transparent, Bool.false_eq_true, if_false]
    | true =>
      rw [transparent, if_pos rfl] at reached
      have first := firstUnwrapped?_of_firstOpens
        ⟨kind, named, start, stop, field, missing, children⟩ children reached
      simp only [without, unwrapped, transparent, if_true, first]
      cases firstUnwrapped? children with
      | none => simp only [Option.map_none, Option.getD_none, without]
      | some inner => rfl

private theorem firstUnwrapped?_of_firstOpens (parent : Tree) : ∀ ts : List Tree,
    firstOpens drop parent ts = true →
      firstUnwrapped? (withoutAll drop parent ts) = (firstUnwrapped? ts).map (without drop)
  | [], _ => rfl
  | t :: rest, reached => by
    rw [firstOpens] at reached
    rw [withoutAll, firstUnwrapped?]
    cases first : t.named with
    | true =>
      rw [first, if_pos rfl, Bool.and_eq_true, Bool.not_eq_true'] at reached
      obtain ⟨kept, inside⟩ := reached
      have same : (t.without drop).unwrapped = t.unwrapped.without drop := exposed_of_opens t inside
      rw [kept, if_neg Bool.false_ne_true, firstUnwrapped?, named_without, first, same]
      rfl
    | false =>
      rw [first, if_neg Bool.false_ne_true] at reached
      have behind := firstUnwrapped?_of_firstOpens parent rest reached
      rw [if_neg Bool.false_ne_true, ← behind]
      cases drop parent t with
      | true => rfl
      | false =>
        rw [if_neg Bool.false_ne_true, firstUnwrapped?, named_without, first]
        rfl

end

end Opening

section Hereditary

variable {P : Tree → Prop}

mutual

theorem of_mem_preorder (below : ∀ t, P t → ∀ c ∈ t.children, P c) :
    ∀ t : Tree, P t → ∀ n ∈ t.preorder, P n
  | ⟨kind, named, start, stop, field, missing, children⟩, here, n, member => by
    rw [preorder] at member
    rcases List.mem_cons.mp member with rfl | inside
    · exact here
    · exact of_mem_preorderAll below children (below _ here) n inside

theorem of_mem_preorderAll (below : ∀ t, P t → ∀ c ∈ t.children, P c) :
    ∀ ts : List Tree, (∀ t ∈ ts, P t) → ∀ n ∈ preorderAll ts, P n
  | [], _, _, member => by cases member
  | t :: rest, here, n, member => by
    rcases List.mem_append.mp member with first | behind
    · exact of_mem_preorder below t (here t List.mem_cons_self) n first
    · exact of_mem_preorderAll below rest
        (fun c inside => here c (List.mem_cons_of_mem t inside)) n behind

end

mutual

theorem of_unwrapped (below : ∀ t, P t → ∀ c ∈ t.children, P c) :
    ∀ t : Tree, P t → P t.unwrapped
  | ⟨kind, named, start, stop, field, missing, children⟩, here => by
    rw [unwrapped]
    split
    · cases found : firstUnwrapped? children with
      | none => exact here
      | some inner => exact of_firstUnwrapped? below children (below _ here) found
    · exact here

theorem of_firstUnwrapped? (below : ∀ t, P t → ∀ c ∈ t.children, P c) :
    ∀ ts : List Tree, (∀ t ∈ ts, P t) → ∀ {inner : Tree}, firstUnwrapped? ts = some inner → P inner
  | [], _, _, found => by cases found
  | t :: rest, here, _, found => by
    rw [firstUnwrapped?] at found
    split at found
    · rw [← Option.some.inj found]
      exact of_unwrapped below t (here t List.mem_cons_self)
    · exact of_firstUnwrapped? below rest
        (fun c inside => here c (List.mem_cons_of_mem t inside)) found

end

variable (below : ∀ t, P t → ∀ c ∈ t.children, P c)
include below

theorem of_child? {t c : Tree} {role : String} (here : P t) (found : t.child? role = some c) : P c :=
  below t here c (mem_children_of_child? found)

theorem of_firstArgument? {t c : Tree} (here : P t) (found : Wrapper.firstArgument? t = some c) :
    P c := by
  obtain ⟨list, arguments, first⟩ := Option.bind_eq_some_iff.mp found
  have member := (List.mem_filter.mp (List.mem_of_find?_eq_some first)).1
  exact below list (of_child? below here arguments) c member

end Hereditary

section Walks

variable {drop : Tree → Tree → Bool}

mutual

theorem size_without_le : ∀ t : Tree, (t.without drop).size ≤ t.size
  | ⟨kind, named, start, stop, field, missing, children⟩ => by
    have inside := sizeAll_withoutAll_le ⟨kind, named, start, stop, field, missing, children⟩ children
    rw [without, size, size]
    omega

private theorem sizeAll_withoutAll_le (parent : Tree) :
    ∀ ts : List Tree, sizeAll (withoutAll drop parent ts) ≤ sizeAll ts
  | [] => Nat.le_refl 0
  | t :: rest => by
    have first := size_without_le t
    have behind := sizeAll_withoutAll_le parent rest
    rw [withoutAll, sizeAll]
    split
    · omega
    · rw [sizeAll]
      omega

end

@[simp] theorem childScope_without (t : Tree) (scope : Bool) :
    (t.without drop).childScope scope = t.childScope scope := by
  rw [childScope, childScope, isOneOf_without, kind_without]

mutual

theorem preorder_without_sublist :
    ∀ t : Tree, (t.without drop).preorder.Sublist (t.preorder.map (without drop))
  | ⟨kind, named, start, stop, field, missing, children⟩ => by
    have below := preorderAll_withoutAll_sublist
      ⟨kind, named, start, stop, field, missing, children⟩ children
    rw [preorder, List.map_cons]
    simp only [without, preorder]
    exact below.cons_cons _

private theorem preorderAll_withoutAll_sublist (parent : Tree) : ∀ ts : List Tree,
    (preorderAll (withoutAll drop parent ts)).Sublist ((preorderAll ts).map (without drop))
  | [] => List.Sublist.refl []
  | t :: rest => by
    have behind := preorderAll_withoutAll_sublist parent rest
    rw [withoutAll, preorderAll, List.map_append]
    cases drop parent t with
    | true => exact behind.trans (List.sublist_append_right _ _)
    | false => exact (preorder_without_sublist t).append behind

end

variable {β : Type} {f g : Tree → Bool → List β}

theorem flatMap_withScope_eq_nil {t : Tree} (nothing : ∀ n ∈ t.preorder, ∀ scope, g n scope = [])
    (scope : Bool) : (t.withScope scope).flatMap (fun visit => g visit.1 visit.2) = [] := by
  rw [List.flatMap_eq_nil_iff]
  intro visit member
  refine nothing visit.1 ?_ visit.2
  rw [← withScope_fst scope t]
  exact List.mem_map_of_mem member

mutual

theorem flatMap_withScope_without {P : Tree → Prop} (below : ∀ t, P t → ∀ c ∈ t.children, P c)
    (kept : ∀ n, P n → ∀ scope, f (n.without drop) scope = g n scope)
    (lost : ∀ parent, P parent → ∀ t ∈ parent.children, drop parent t = true →
      ∀ n ∈ t.preorder, ∀ scope, g n scope = [])
    (scope : Bool) : ∀ t : Tree, P t →
      ((t.without drop).withScope scope).flatMap (fun visit => f visit.1 visit.2) =
        (t.withScope scope).flatMap (fun visit => g visit.1 visit.2)
  | ⟨kind, named, start, stop, field, missing, children⟩, here => by
    have head := kept _ here scope
    have inside := @childScope_without drop
      ⟨kind, named, start, stop, field, missing, children⟩ scope
    have inner := flatMap_withScopeAll_without below kept
      (childScope ⟨kind, named, start, stop, field, missing, children⟩ scope)
      ⟨kind, named, start, stop, field, missing, children⟩ children (below _ here) (lost _ here)
      lost
    simp only [without] at head inside ⊢
    rw [withScope, withScope, List.flatMap_cons, List.flatMap_cons, head, inside, inner]

theorem flatMap_withScopeAll_without {P : Tree → Prop} (below : ∀ t, P t → ∀ c ∈ t.children, P c)
    (kept : ∀ n, P n → ∀ scope, f (n.without drop) scope = g n scope)
    (scope : Bool) (parent : Tree) : ∀ ts : List Tree, (∀ t ∈ ts, P t) →
      (∀ t ∈ ts, drop parent t = true → ∀ n ∈ t.preorder, ∀ scope, g n scope = []) →
      (∀ parent, P parent → ∀ t ∈ parent.children, drop parent t = true →
        ∀ n ∈ t.preorder, ∀ scope, g n scope = []) →
      (withScopeAll scope (withoutAll drop parent ts)).flatMap
          (fun visit => f visit.1 visit.2) =
        (withScopeAll scope ts).flatMap (fun visit => g visit.1 visit.2)
  | [], _, _, _ => rfl
  | t :: rest, here, silent, lost => by
    have behind := flatMap_withScopeAll_without below kept scope parent rest
      (fun c inside => here c (List.mem_cons_of_mem t inside))
      (fun c inside => silent c (List.mem_cons_of_mem t inside)) lost
    rw [withoutAll, withScopeAll, List.flatMap_append]
    cases dropped : drop parent t with
    | true =>
      rw [flatMap_withScope_eq_nil (silent t List.mem_cons_self dropped)]
      exact behind
    | false =>
      rw [if_neg Bool.false_ne_true, withScopeAll, List.flatMap_append,
        flatMap_withScope_without below kept lost scope t (here t List.mem_cons_self), behind]

end

theorem flatMap_preorder_without {P : Tree → Prop} (below : ∀ t, P t → ∀ c ∈ t.children, P c)
    {f g : Tree → List β} (kept : ∀ n, P n → f (n.without drop) = g n)
    (lost : ∀ parent, P parent → ∀ t ∈ parent.children, drop parent t = true →
      ∀ n ∈ t.preorder, g n = []) {t : Tree} (here : P t) :
    (t.without drop).preorder.flatMap f = t.preorder.flatMap g := by
  rw [← withScope_fst false, ← withScope_fst false t, List.flatMap_map, List.flatMap_map]
  exact @flatMap_withScope_without drop β (fun n _ => f n) (fun n _ => g n) P below
    (fun n here _ => kept n here)
    (fun parent here t child dropped n member _ => lost parent here t child dropped n member)
    false t here

private theorem map_filter_eq_flatMap {α : Type} (p : α → Bool) (h : α → β) (l : List α) :
    (l.filter p).map h = l.flatMap fun a => if p a then [h a] else [] := by
  induction l with
  | nil => rfl
  | cons a rest ih =>
    rw [List.flatMap_cons, ← ih]
    cases kept : p a <;> simp [kept]

section Kinds

variable {P : Tree → Prop} {kinds : List String} (below : ∀ t, P t → ∀ c ∈ t.children, P c)
  (lost : ∀ parent, P parent → ∀ t ∈ parent.children, drop parent t = true →
    ∀ n ∈ t.preorder, n.isOneOf kinds = false)
include below lost

theorem filter_withScope_without {t : Tree} (here : P t) (scope : Bool) :
    ((t.without drop).withScope scope).filter (fun v => v.1.isOneOf kinds) =
      ((t.withScope scope).filter (fun v => v.1.isOneOf kinds)).map
        (fun v => (v.1.without drop, v.2)) := by
  have walked := @flatMap_withScope_without drop (Tree × Bool)
    (fun n scope => if n.isOneOf kinds then [(n, scope)] else [])
    (fun n scope => if n.isOneOf kinds then [(n.without drop, scope)] else []) P below
    (fun n _ scope => by rw [isOneOf_without])
    (fun parent here t child dropped n member scope => by
      rw [lost parent here t child dropped n member, if_neg Bool.false_ne_true])
    scope t here
  rw [map_filter_eq_flatMap, ← walked, ← map_filter_eq_flatMap, List.map_id'']
  exact fun _ => rfl

theorem any_preorder_without {t : Tree} (here : P t) :
    (t.without drop).preorder.any (fun n => n.isOneOf kinds) =
      t.preorder.any (fun n => n.isOneOf kinds) := by
  have only (l : List (Tree × Bool)) : l.any (fun v => v.1.isOneOf kinds) =
      (l.filter (fun v => v.1.isOneOf kinds)).any (fun v => v.1.isOneOf kinds) := by
    simp [List.any_filter]
  have same : (fun v : Tree × Bool => v.1.isOneOf kinds) ∘
      (fun v : Tree × Bool => (v.1.without drop, v.2)) = fun v => v.1.isOneOf kinds := by
    funext v
    exact isOneOf_without drop v.1 kinds
  rw [← withScope_fst false, ← withScope_fst false t, List.any_map, List.any_map]
  change ((t.without drop).withScope false).any (fun v => v.1.isOneOf kinds) =
    (t.withScope false).any (fun v => v.1.isOneOf kinds)
  rw [only, filter_withScope_without below lost here, List.any_map, same, ← only]

end Kinds

end Walks

section Everywhere

variable {drop : Tree → Tree → Bool} (harmless : Harmless drop)
include harmless

theorem opens_of_harmless (t : Tree) : t.opens drop = true := by
  have first (ts : List Tree) : ∀ parent : Tree, parent.isOneOf Kind.transparent = true →
      (∀ c ∈ ts, c.opens drop = true) → firstOpens drop parent ts = true := by
    intro parent expression each
    induction ts with
    | nil => rfl
    | cons c rest ih =>
      have kept : drop parent c = false := by
        cases dropped : drop parent c with
        | false => rfl
        | true =>
          rw [harmless.noExpression parent c dropped] at expression
          cases expression
      rw [firstOpens, kept, each c List.mem_cons_self,
        ih (fun d inside => each d (List.mem_cons_of_mem c inside))]
      cases c.named <;> rfl
  induction size : t.size using Nat.strongRecOn generalizing t with
  | ind n smaller =>
    have inside : ∀ c ∈ t.children, c.opens drop = true := fun c member =>
      smaller c.size (size ▸ size_lt_of_mem member) c rfl
    obtain ⟨kind, named, start, stop, field, missing, children⟩ := t
    rw [opens]
    split
    · rename_i transparent
      exact first children _ transparent inside
    · rfl

private theorem keeps_of_harmless (t : Tree) : t.Keeps drop where
  noRole c _ dropped := harmless.noRole t c dropped
  noPart c _ dropped := harmless.noPart t c dropped
  noArgument list found c _ dropped := harmless.noArgument list c dropped (child?_field found)
  value _ v _ := exposed_of_opens v (opens_of_harmless harmless v)
  callee _ v _ := exposed_of_opens v (opens_of_harmless harmless v)
  argument _ v _ := exposed_of_opens v (opens_of_harmless harmless v)

end Everywhere

end Tree

private theorem rel_map {α β : Type} {R : α → β → Prop} {f : α → β} {x : Option α}
    (each : ∀ a, x = some a → R a (f a)) : Option.Rel R x (x.map f) := by
  cases x with
  | none => exact .none
  | some a => exact .some (each a rfl)

/-- A source corresponds to what is left of it, if nothing is dropped of what is read. -/
theorem correspondence_without {drop : Tree → Tree → Bool} {P : Tree → Prop}
    (below : ∀ t, P t → ∀ c ∈ t.children, P c) (keeps : ∀ t, P t → t.Keeps drop) (s : Source) :
    Correspondence s (s.without drop) (fun a b => P a ∧ b = a.without drop) := by
  have operand {x : Option Tree} (here : ∀ v, x = some v → P v)
      (exposed : ∀ v, x = some v → v.Exposed drop) :
      Option.Rel (fun a b => P a ∧ b = a.without drop) (x.map Tree.unwrapped)
        ((x.map (Tree.without drop)).map Tree.unwrapped) := by
    cases x with
    | none => exact .none
    | some v => exact .some ⟨Tree.of_unwrapped below v (here v rfl), exposed v rfl⟩
  have parts {a : Tree} (here : P a) {kinds : List String} (some : kinds ⊆ Kind.parts) :
      List.Forall₂ (fun a b => P a ∧ b = a.without drop)
        (a.namedChildren.filter (fun c => c.isOneOf kinds))
        ((a.without drop).namedChildren.filter (fun c => c.isOneOf kinds)) := by
    rw [(keeps a here).parts_without some, List.forall₂_map_right_iff, List.forall₂_same]
    intro c member
    have child := (List.mem_filter.mp (List.mem_filter.mp member).1).1
    exact ⟨below a here c child, rfl⟩
  constructor
  case path => rfl
  case bytes => rfl
  all_goals
    rintro a b ⟨here, rfl⟩
    have kept := keeps a here
  case kind => exact a.kind_without drop
  case start => exact a.start_without drop
  case stop => exact a.stop_without drop
  case child =>
    intro role _
    rw [kept.child?_without]
    exact rel_map fun c found => ⟨Tree.of_child? below here found, rfl⟩
  case value =>
    intro valued
    unfold Tree.operand?
    rw [kept.child?_without]
    exact operand (fun v found => Tree.of_child? below here found) (kept.value valued)
  case callee =>
    intro call
    unfold Tree.operand?
    rw [kept.child?_without]
    exact operand (fun v found => Tree.of_child? below here found) (kept.callee call)
  case argument =>
    intro call
    rw [kept.firstArgument?_without]
    exact operand (fun v found => Tree.of_firstArgument? below here found) (kept.argument call)
  case origin => rw [kept.child?_without, Option.isSome_map]
  case keyword =>
    intro kind keyword
    refine kept.any_children_without ?_
    revert kind
    decide
  case members => exact parts here (by decide)
  case rest =>
    intro _
    exact parts here (by decide)
  case parameters =>
    rw [kept.child?_without]
    exact rel_map fun list found => parts (Tree.of_child? below here found) (List.Subset.refl _)

def Declaration.without (drop : Tree → Tree → Bool) (d : Declaration) : Declaration :=
  { d with node := d.node.without drop }

section Remaining

variable {drop : Tree → Tree → Bool} {P : Tree → Prop}

private theorem eq_map_of_rel {α β : Type} {Q : α → Prop} {f : α → β} {x : Option α} {y : Option β}
    (related : Option.Rel (fun a b => Q a ∧ b = f a) x y) : y = x.map f := by
  cases related with
  | none => rfl
  | some pair => rw [pair.2, Option.map_some]

private theorem Declaration.Corresponds.eq_without {d d' : Declaration}
    (same : d.Corresponds (fun a b => P a ∧ b = a.without drop) d') : d' = d.without drop := by
  obtain ⟨name, kind, node, line, topLevel⟩ := d
  obtain ⟨rfl, rfl, ⟨_, equal⟩, rfl, rfl, _⟩ := same
  unfold Declaration.without
  rw [← equal]

theorem ExportTable.Corresponds.eq_without {t t' : ExportTable}
    (same : t.Corresponds (fun a b => P a ∧ b = a.without drop) t') :
    t' = { t with anonymousDefaults :=
      t.anonymousDefaults.map fun entry => (entry.1, entry.2.without drop) } := by
  obtain ⟨bindings, exportedNames, defaultNames, defaultName, aliases, anonymous⟩ := t
  obtain ⟨rfl, rfl, rfl, rfl, rfl, inline⟩ := same
  have equal : anonymous.map (fun entry => (entry.1, entry.2.without drop)) =
      t'.anonymousDefaults := by
    rw [← List.forall₂_eq_eq_eq, List.forall₂_map_left_iff]
    refine inline.imp fun p q pair => ?_
    exact Prod.ext pair.1.symm pair.2.2.symm
  rw [equal]

end Remaining

section Everywhere

variable {drop : Tree → Tree → Bool} (harmless : Tree.Harmless drop) (s : Source)
include harmless

theorem correspondence_of_harmless :
    Correspondence s (s.without drop) (fun a b => True ∧ b = a.without drop) :=
  correspondence_without (fun _ _ _ _ => trivial) (fun t _ => t.keeps_of_harmless harmless) s

namespace Tree

theorem inner?_without (t : Tree) :
    Wrapper.inner? (s.without drop) (t.without drop) =
      (Wrapper.inner? s t).map (Tree.without drop) := by
  have exposed : (t.without drop).unwrapped = t.unwrapped.without drop :=
    exposed_of_opens t (opens_of_harmless harmless t)
  unfold Wrapper.inner?
  rw [exposed]
  exact eq_map_of_rel ((correspondence_of_harmless harmless s).innermost? ⟨trivial, rfl⟩ _)

theorem ofFunction_without (t : Tree) :
    Parameters.ofFunction (s.without drop) (t.without drop) = Parameters.ofFunction s t :=
  (correspondence_of_harmless harmless s).ofFunction ⟨trivial, rfl⟩

end Tree

namespace ExportTable

theorem inlineName_without (value : Tree) :
    inlineName (s.without drop) (value.without drop) = inlineName s value :=
  (correspondence_of_harmless harmless s).inlineName ⟨trivial, rfl⟩

theorem inlineDefault?_without {statement : Tree} (kind : statement.kind = "export_statement") :
    inlineDefault? (s.without drop) (statement.without drop) =
      (inlineDefault? s statement).map (Tree.without drop) :=
  eq_map_of_rel ((correspondence_of_harmless harmless s).inlineDefault? ⟨trivial, rfl⟩ kind)

theorem bindingsOf_without {statement : Tree} (kind : statement.kind = "export_statement") :
    bindingsOf (s.without drop) (statement.without drop) = bindingsOf s statement :=
  (correspondence_of_harmless harmless s).bindingsOf ⟨trivial, rfl⟩ kind

end ExportTable

namespace Declarations

theorem declaration?_without (t : Tree) (topLevel : Bool) :
    declaration? (s.without drop) (t.without drop) topLevel =
      (declaration? s t topLevel).map (Declaration.without drop) := by
  have related := (correspondence_of_harmless harmless s).declaration?
    (⟨trivial, rfl⟩ : True ∧ t.without drop = t.without drop) topLevel
  rcases rel_cases related with ⟨left, right⟩ | ⟨d, d', left, right, pair⟩
  · rw [left, right]
    rfl
  · rw [left, right, pair.eq_without, Option.map_some]

omit harmless in
theorem inlineDeclaration_without (name : String) (t : Tree) :
    inlineDeclaration (s.without drop) name (t.without drop) =
      (inlineDeclaration s name t).without drop := by
  simp [inlineDeclaration, Declaration.without]

theorem propsName?_without (t : Tree) :
    propsName? (s.without drop) (t.without drop) = propsName? s t :=
  (correspondence_of_harmless harmless s).propsName? ⟨trivial, rfl⟩

end Declarations
end Everywhere
end ExportInventory
