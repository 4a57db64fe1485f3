import ExportInventory.Declaration
import ExportInventory.Export.Tracking
import ExportInventory.Parameters
import ExportInventory.Tree.Markup

/-!
The records of a source: each exported name with the declaration behind it, classified by whether
it renders markup.
-/
namespace ExportInventory.Classification

structure Context where
  source : Source
  exports : ExportTable
  declarations : Declarations
  budget : Nat

def Context.ofSource (s : Source) (budget : Nat) : Context :=
  let exports := ExportTable.ofSource s
  ⟨s, exports, Declarations.ofSource s exports, budget⟩

namespace Context

variable (c : Context)

def record (d : Declaration) (kind : RecordKind) (parameters : List String) (defaultProps : Bool) :
    Record :=
  ⟨c.exports.publicNameOf d.name, c.exports.exportTypeOf d.name, c.source.path, kind, parameters,
    c.declarations.hasDefaultProps d.name || defaultProps, some d.line⟩

def functionRecord (d : Declaration) : Record :=
  let renders := (d.node.child? "body").any (·.containsMarkup c.budget)
  c.record d (if renders then .component else .function) (Parameters.ofFunction c.source d.node) false

def wrappedParameters (inner : Tree) : List String :=
  if inner.isOneOf Kind.functionLike then Parameters.ofFunction c.source inner
  else if inner.kind == "identifier" then
    match c.declarations.find? (c.source.textOf inner) with
    | some target =>
      if target.kind = .function then Parameters.ofFunction c.source target.node else []
    | none => []
  else []

/-- What a wrapper gives is rendered, so it is a component; default properties show through. -/
def wrappedRecord (d : Declaration) : Record :=
  match Wrapper.inner? c.source d.node with
  | some inner =>
    c.record d .component (c.wrappedParameters inner)
      (inner.kind == "identifier" && c.declarations.hasDefaultProps (c.source.textOf inner))
  | none => c.record d .component [] false

def recordOf (d : Declaration) : Record :=
  match d.kind with
  | .classType => c.record d .component [] false
  | .wrapped => c.wrappedRecord d
  | .function => c.functionRecord d

def exported : List Declaration :=
  (c.declarations.list.mergeSort (fun a b => a.node.start ≤ b.node.start)).filter
    (fun d => c.exports.exports d.name)

def records : List Record := c.exported.map c.recordOf

end Context

def records (s : Source) (budget : Nat) : List Record := (Context.ofSource s budget).records

end ExportInventory.Classification
