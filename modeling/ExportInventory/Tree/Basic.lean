/-!
Concrete parse trees. A node carries its kind, its byte span in the encoded text and the role
(`field`) it plays below its parent; anonymous nodes are the punctuation and keywords.
-/
namespace ExportInventory

/-- A node of a parse tree. `start` and `stop` count bytes; `missing` marks a node that error
recovery made up. -/
structure Tree where
  kind : String
  named : Bool
  start : Nat
  stop : Nat
  field : Option String
  missing : Bool
  children : List Tree
deriving Repr, Inhabited

namespace Tree

def leaf (kind : String) (named : Bool) (start stop : Nat) : Tree :=
  ⟨kind, named, start, stop, none, false, []⟩

def withField (t : Tree) (role : Option String) : Tree :=
  { t with field := role }

def namedChildren (t : Tree) : List Tree :=
  t.children.filter (·.named)

def child? (t : Tree) (role : String) : Option Tree :=
  t.children.find? (fun c => c.field == some role)

def isOneOf (t : Tree) (kinds : List String) : Bool :=
  kinds.contains t.kind

mutual

def size : Tree → Nat
  | ⟨_, _, _, _, _, _, children⟩ => sizeAll children + 1

def sizeAll : List Tree → Nat
  | [] => 0
  | t :: rest => size t + sizeAll rest

end

mutual

def preorder : Tree → List Tree
  | t@⟨_, _, _, _, _, _, children⟩ => t :: preorderAll children

def preorderAll : List Tree → List Tree
  | [] => []
  | t :: rest => preorder t ++ preorderAll rest

end

theorem sizeAll_append (a b : List Tree) : sizeAll (a ++ b) = sizeAll a + sizeAll b := by
  induction a with
  | nil => simp [sizeAll]
  | cons t rest ih => simp [sizeAll, ih, Nat.add_assoc]

theorem size_eq (t : Tree) : t.size = sizeAll t.children + 1 := by
  cases t
  simp [size]

theorem sizeAll_push_lt (t : Tree) (rest : List Tree) :
    sizeAll (t.children ++ rest) < sizeAll (t :: rest) := by
  rw [sizeAll_append, sizeAll, size_eq]
  omega

/-- The nodes on a stack and below them. What is taken off leaves its children in its place. -/
def walk : List Tree → List Tree
  | [] => []
  | t :: rest => t :: walk (t.children ++ rest)
termination_by stack => sizeAll stack
decreasing_by exact sizeAll_push_lt t rest

def nodes (t : Tree) : List Tree := walk [t]

end Tree
end ExportInventory
