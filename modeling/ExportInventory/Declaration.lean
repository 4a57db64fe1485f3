import ExportInventory.Tree.Scope
import ExportInventory.Export.Table
import ExportInventory.Wrapper

/-!
The declarations of a source that may stand behind an exported name.
-/
namespace ExportInventory

inductive DeclarationKind where
  | function
  | classType
  | wrapped
deriving DecidableEq, Repr

/-- A declaration of a name. `topLevel` says that it belongs to the module itself. -/
structure Declaration where
  name : String
  kind : DeclarationKind
  node : Tree
  line : Nat
  topLevel : Bool

/-- What has been met so far: one declaration for each name, in order, and the names that have
default properties. -/
structure Declarations where
  list : List Declaration
  defaultProps : List String

namespace Declarations

def empty : Declarations := ⟨[], []⟩

def find? (d : Declarations) (name : String) : Option Declaration :=
  d.list.find? (fun x => x.name = name)

/-- One more declaration. The first of a name stays, unless it is local and the new one belongs to
the module. -/
def remember (d : Declarations) (x : Declaration) : Declarations :=
  match d.find? x.name with
  | some existing =>
    if existing.topLevel || !x.topLevel then d
    else { d with list := d.list.filter (fun y => y.name ≠ x.name) ++ [x] }
  | none => { d with list := d.list ++ [x] }

def addDefaultProps (d : Declarations) (name : String) : Declarations :=
  { d with defaultProps := ExportTable.insertName d.defaultProps name }

def hasDefaultProps (d : Declarations) (name : String) : Bool := d.defaultProps.contains name

variable (s : Source)

def isStaticDefaultProps (member : Tree) : Bool :=
  member.isOneOf Kind.classFields
    && ((member.child? "property").or (member.child? "name")).any
      (fun n => s.textOf n == "defaultProps")
    && member.children.any (fun c => c.kind == "static")

def hasStaticDefaultProps (classNode : Tree) : Bool :=
  match classNode.child? "body" with
  | some body => body.namedChildren.any (isStaticDefaultProps s)
  | none => false

def rememberClass (d : Declarations) (name : String) (classNode : Tree) (line : Nat)
    (topLevel : Bool) : Declarations :=
  let d := if hasStaticDefaultProps s classNode then d.addDefaultProps name else d
  d.remember ⟨name, .classType, classNode, line, topLevel⟩

def meetFunction (d : Declarations) (t : Tree) (topLevel : Bool) : Declarations :=
  match t.child? "name" with
  | some n => d.remember ⟨s.textOf n, .function, t, s.lineOf t, topLevel⟩
  | none => d

def meetClass (d : Declarations) (t : Tree) (topLevel : Bool) : Declarations :=
  match t.child? "name" with
  | some n => d.rememberClass s (s.textOf n) t (s.lineOf t) topLevel
  | none => d

def meetDeclarator (d : Declarations) (t : Tree) (topLevel : Bool) : Declarations :=
  match t.child? "name", (t.child? "value").map Tree.unwrapped with
  | some n, some value =>
    if n.kind != "identifier" then d
    else
      let name := s.textOf n
      let line := s.lineOf t
      if value.isOneOf Kind.functionExpressions then
        d.remember ⟨name, .function, value, line, topLevel⟩
      else if value.isOneOf Kind.classExpressions then d.rememberClass s name value line topLevel
      else if Wrapper.isCall s value then d.remember ⟨name, .wrapped, value, line, topLevel⟩
      else d
  | _, _ => d

def meetAssignment (d : Declarations) (t : Tree) : Declarations :=
  match t.child? "left" with
  | some left =>
    if left.kind != "member_expression" then d
    else
      match left.child? "object", left.child? "property" with
      | some object, some property =>
        if object.kind == "identifier" && s.textOf property == "defaultProps" then
          d.addDefaultProps (s.textOf object)
        else d
      | _, _ => d
  | none => d

def meet (d : Declarations) (visit : Tree × Bool) : Declarations :=
  let (t, topLevel) := visit
  if t.isOneOf Kind.functionDeclarations then d.meetFunction s t topLevel
  else if t.isOneOf Kind.classDeclarations then d.meetClass s t topLevel
  else if t.kind == "variable_declarator" then d.meetDeclarator s t topLevel
  else if t.kind == "assignment_expression" then d.meetAssignment s t
  else d

def meetAnonymous (d : Declarations) (entry : String × Tree) : Declarations :=
  let (name, t) := entry
  let kind := if t.isOneOf Kind.classLike then DeclarationKind.classType else .function
  d.remember ⟨name, kind, t, s.lineOf t, true⟩

def ofSource (exports : ExportTable) : Declarations :=
  exports.anonymousDefaults.foldl (meetAnonymous s)
    ((s.tree.withScope false).foldl (meet s) .empty)

end Declarations
end ExportInventory
