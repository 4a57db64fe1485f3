import ExportInventory.Tree.Kind

/-!
The nodes of a tree together with the question whether they belong to the module itself.
-/
namespace ExportInventory.Tree

/-- Whether the children of a node belong to the module: those of the program do, and those of
exports and declarations if they do themselves. -/
def childScope (t : Tree) (scope : Bool) : Bool :=
  if t.isOneOf Kind.moduleScope then scope else t.kind == "program"

mutual

def withScope (scope : Bool) : Tree → List (Tree × Bool)
  | t@⟨_, _, _, _, _, _, children⟩ => (t, scope) :: withScopeAll (t.childScope scope) children

def withScopeAll (scope : Bool) : List Tree → List (Tree × Bool)
  | [] => []
  | t :: rest => withScope scope t ++ withScopeAll scope rest

end

end ExportInventory.Tree
