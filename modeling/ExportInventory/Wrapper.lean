import ExportInventory.Tree.Kind
import ExportInventory.Tree.Source

/-!
Calls that wrap a component: connecting it to a store, memoizing it, loading it late and the like.
-/
namespace ExportInventory

mutual

def Tree.unwrapped : Tree → Tree
  | t@⟨kind, _, _, _, _, _, children⟩ =>
    if Kind.transparent.contains kind then (Tree.firstUnwrapped? children).getD t else t

def Tree.firstUnwrapped? : List Tree → Option Tree
  | [] => none
  | t :: rest => if t.named then some (Tree.unwrapped t) else Tree.firstUnwrapped? rest

end

namespace Wrapper

def names : List String := ["connect", "withRouter", "memo", "lazy", "forwardRef"]

def nestingLimit : Nat := 16

def calleeName? (s : Source) : Nat → Option Tree → Option String
  | 0, _ => none
  | _ + 1, none => none
  | depth + 1, some callee =>
    match callee.kind with
    | "identifier" => some (s.textOf callee)
    | "member_expression" => (callee.child? "property").map s.textOf
    | "call_expression" => calleeName? s depth ((callee.child? "function").map Tree.unwrapped)
    | _ => none

/-- The name of the function that a call calls: `memo` for `memo(x)`, `forwardRef` for
`lib.forwardRef(x)`, `connect` for `connect(a)(x)`. -/
def name? (s : Source) (call : Tree) : Option String :=
  calleeName? s nestingLimit ((call.child? "function").map Tree.unwrapped)

def firstArgument? (call : Tree) : Option Tree := do
  let arguments ← call.child? "arguments"
  arguments.namedChildren.find? (fun t => t.kind != "comment")

def isNamed (s : Source) (call : Tree) : Bool :=
  match name? s call with
  | some name => names.contains name
  | none => false

def isCall (s : Source) (t : Tree) : Bool :=
  let call := t.unwrapped
  call.kind == "call_expression" && isNamed s call

def innermost? (s : Source) : Nat → Tree → Option Tree
  | 0, _ => none
  | depth + 1, call =>
    if call.kind != "call_expression" || !isNamed s call then none
    else
      match (firstArgument? call).map Tree.unwrapped with
      | none => none
      | some inner =>
        if inner.kind != "call_expression" then some inner else innermost? s depth inner

/-- What chains of wrapper calls such as `withRouter(connect(m)(Inner))` wrap; nothing for other
calls and for those that wrap nothing. -/
def inner? (s : Source) (t : Tree) : Option Tree := innermost? s nestingLimit t.unwrapped

end Wrapper
end ExportInventory
