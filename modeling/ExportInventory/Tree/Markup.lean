import ExportInventory.Tree.Kind

/-!
Whether a subtree holds markup, found within a limited number of nodes.
-/
namespace ExportInventory.Tree

def isMarkup (t : Tree) : Bool := t.isOneOf Kind.markup

/-- Searches the nodes on a stack, each before its children. Gives up after the node that uses up
the budget. -/
def searchMarkup (budget : Int) (visited : Nat) : List Tree → Bool
  | [] => false
  | t :: rest =>
    if t.isMarkup then true
    else if budget ≤ visited + 1 then false
    else searchMarkup budget (visited + 1) (t.children ++ rest)
termination_by stack => sizeAll stack
decreasing_by exact sizeAll_push_lt t rest

def containsMarkup (t : Tree) (budget : Int) : Bool := searchMarkup budget 0 [t]

end ExportInventory.Tree
