import ExportInventory.Budget
import ExportInventory.Proofs.Declaration
import ExportInventory.Tree.Markup

/-!
Walks with a stack meet the nodes of a subtree in preorder. The search for markup looks at as many of
them as the budget allows, and always at the first one.
-/
namespace ExportInventory.Tree

mutual

theorem length_preorder : ∀ t : Tree, t.preorder.length = t.size
  | ⟨_, _, _, _, _, _, children⟩ => by
    rw [preorder, size, List.length_cons, length_preorderAll]

private theorem length_preorderAll : ∀ ts : List Tree, (preorderAll ts).length = sizeAll ts
  | [] => rfl
  | t :: rest => by
    rw [preorderAll, sizeAll, List.length_append, length_preorder, length_preorderAll]

end

/-- Children that take the place of their parent on a stack leave the nodes in preorder. -/
theorem preorderAll_push (t : Tree) (rest : List Tree) :
    preorderAll (t :: rest) = t :: preorderAll (t.children ++ rest) := by
  rw [preorderAll, preorder_eq, preorderAll_eq_flatMap (t.children ++ rest), List.flatMap_append,
    ← preorderAll_eq_flatMap, ← preorderAll_eq_flatMap, List.cons_append]

private theorem walk_eq_preorderAll (stack : List Tree) : walk stack = preorderAll stack := by
  fun_induction walk stack with
  | case1 => rfl
  | case2 t rest ih => rw [preorderAll_push, ih]

private theorem nodes_eq_preorder (t : Tree) : t.nodes = t.preorder := by
  rw [nodes, walk_eq_preorderAll]
  exact List.append_nil _

private theorem searchMarkup_eq (budget : Int) (visited : Nat) (stack : List Tree) :
    searchMarkup budget visited stack =
      ((preorderAll stack).take (max 1 (budget - visited).toNat)).any isMarkup := by
  fun_induction searchMarkup budget visited stack with
  | case1 visited => rw [preorderAll, List.take_nil, List.any_nil]
  | case2 visited t rest found =>
    obtain ⟨more, allowed⟩ : ∃ more, max 1 (budget - visited).toNat = more + 1 :=
      ⟨max 1 (budget - visited).toNat - 1, by omega⟩
    rw [preorderAll_push, allowed, List.take_succ_cons, List.any_cons, found, Bool.true_or]
  | case3 visited t rest other spent =>
    have one : max 1 (budget - visited).toNat = 1 := by omega
    rw [preorderAll_push, one, List.take_succ_cons, List.any_cons, List.take_zero, List.any_nil,
      Bool.or_false, Bool.eq_false_iff.mpr other]
  | case4 visited t rest other allowed ih =>
    have step : max 1 (budget - visited).toNat =
        max 1 (budget - ((visited + 1 : Nat) : Int)).toNat + 1 := by omega
    rw [ih, preorderAll_push, step, List.take_succ_cons, List.any_cons,
      Bool.eq_false_iff.mpr other, Bool.false_or]

theorem containsMarkup_eq (t : Tree) (budget : Int) :
    t.containsMarkup budget = (t.preorder.take (max 1 budget.toNat)).any isMarkup := by
  have whole : preorderAll [t] = t.preorder := List.append_nil _
  have start : budget - ((0 : Nat) : Int) = budget := by omega
  unfold containsMarkup
  rw [searchMarkup_eq, whole, start]

theorem containsMarkup_of_size_le {t : Tree} {budget : Int} (enough : t.size ≤ budget) :
    t.containsMarkup budget = t.preorder.any isMarkup := by
  rw [containsMarkup_eq, List.take_of_length_le]
  rw [length_preorder]
  omega

theorem containsMarkup_iff (t : Tree) (budget : Int) :
    t.containsMarkup budget = true ↔
      ∃ (i : Nat) (n : Tree), t.preorder[i]? = some n ∧ n.isMarkup = true ∧ i < max budget 1 := by
  rw [containsMarkup_eq, List.any_eq_true]
  constructor
  · rintro ⟨n, member, markup⟩
    obtain ⟨i, found⟩ := List.mem_iff_getElem?.mp member
    rw [List.getElem?_take, Option.ite_none_right_eq_some] at found
    exact ⟨i, n, found.2, markup, by omega⟩
  · rintro ⟨i, n, found, markup, early⟩
    refine ⟨n, List.mem_iff_getElem?.mpr ⟨i, ?_⟩, markup⟩
    rw [List.getElem?_take, if_pos (by omega), found]

theorem containsMarkup_mono {t : Tree} {fewer more : Int} (le : fewer ≤ more)
    (found : t.containsMarkup fewer = true) : t.containsMarkup more = true := by
  rw [containsMarkup_iff] at found ⊢
  obtain ⟨i, n, place, markup, early⟩ := found
  exact ⟨i, n, place, markup, by omega⟩

/-- A walk with a stack lists the nodes in preorder. Markup is found exactly if some stands among
the first of them, as many as are asked for or else as the setting allows, and one at least. -/
theorem containsMarkup_limit_iff (t : Tree) (setting : Option Text) :
    t.nodes = t.preorder ∧ t.nodes.length = t.size ∧
      (∀ asked : Option Int, t.containsMarkup (Budget.limit setting asked) = true ↔
        ∃ (i : Nat) (n : Tree), t.nodes[i]? = some n ∧ n.isMarkup = true ∧
          i < max (asked.getD (Budget.ofSetting setting)) 1) ∧
      (∀ fewer more : Int, fewer ≤ more → t.containsMarkup fewer = true →
        t.containsMarkup more = true) ∧
      ∀ budget : Int, t.size ≤ budget →
        (t.containsMarkup budget = true ↔ ∃ n ∈ t.preorder, n.isMarkup = true) := by
  refine ⟨nodes_eq_preorder t, ?_, ?_, ?_, ?_⟩
  · rw [nodes_eq_preorder, length_preorder]
  · intro asked
    rw [nodes_eq_preorder]
    exact containsMarkup_iff t _
  · intro fewer more le
    exact containsMarkup_mono le
  · intro budget enough
    rw [containsMarkup_of_size_le enough, List.any_eq_true]

/-- A statement that returns an element, the third of its four nodes. -/
def elementReturned : Tree :=
  ⟨"return_statement", true, 0, 12, none, false, [
    .leaf "return" false 0 6,
    ⟨"jsx_self_closing_element", true, 7, 11, none, false, [.leaf "<" false 7 8]⟩]⟩

theorem elementReturned_found :
    elementReturned.containsMarkup 2 = false ∧ elementReturned.containsMarkup 3 = true ∧
      elementReturned.containsMarkup 9 = true ∧
      elementReturned.containsMarkup (Budget.limit none none) = true := by
  obtain ⟨nodes, _, limit, more, _⟩ := containsMarkup_limit_iff elementReturned none
  have third : elementReturned.nodes[2]? =
      some ⟨"jsx_self_closing_element", true, 7, 11, none, false, [.leaf "<" false 7 8]⟩ := by
    rw [nodes]
    rfl
  have found : elementReturned.containsMarkup 3 = true :=
    (limit (some 3)).mpr ⟨2, _, third, by decide, by decide⟩
  exact ⟨by decide +kernel, found, more 3 9 (by decide) found,
    (limit none).mpr ⟨2, _, third, by decide, by decide⟩⟩

end ExportInventory.Tree
