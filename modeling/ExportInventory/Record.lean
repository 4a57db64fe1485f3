import ExportInventory.Name

/-!
Records of exported declarations, and the report on a file that they make up.
-/
namespace ExportInventory

/-- How a name is exported. Beside the two ways that the analysis finds, a table may hold others
under their own labels. -/
inductive Visibility where
  | default
  | named
  | other (label : String)
deriving DecidableEq, Repr, Inhabited

namespace Visibility

def label : Visibility → String
  | default => "default"
  | named => "named"
  | other label => label

def ofLabel (label : String) : Visibility :=
  if label = "default" then .default else if label = "named" then .named else .other label

end Visibility

inductive RecordKind where
  | component
  | function
deriving DecidableEq, Repr, Inhabited

structure Record where
  name : String
  exportType : Visibility
  filePath : String
  kind : RecordKind
  parameterNames : List String
  hasDefaultProps : Bool
  line : Option Nat
deriving DecidableEq, Repr, Inhabited

namespace Record

def isComponent (r : Record) : Bool := r.kind = .component

def isFunction (r : Record) : Bool := r.kind = .function

def isDefault (r : Record) : Bool := r.exportType = .default

def bare (name filePath : String) : Record :=
  ⟨name, .default, filePath, .component, [], false, none⟩

end Record

/-- All records of a file. The main export is given by its place among the components followed by
the functions. -/
structure Report where
  components : List Record
  functions : List Record
  mainIndex : Option Nat
deriving DecidableEq, Repr, Inhabited

namespace Report

def empty : Report := ⟨[], [], none⟩

def records (r : Report) : List Record := r.components ++ r.functions

def mainExport (r : Report) : Option Record := r.mainIndex.bind (r.records[·]?)

def lastDefault? (records : List Record) : Option Nat :=
  ((List.range records.length).filter (fun i => records[i]?.any Record.isDefault)).getLast?

def placeOf (records : List Record) (i : Nat) : Nat :=
  let before := records.take i
  if records[i]?.any Record.isComponent then before.countP Record.isComponent
  else records.countP Record.isComponent + before.countP (fun r => !r.isComponent)

/-- Parts the records into components and functions; the last default export is the main one. A
file without records is reported as one component with the name of the file. -/
def ofRecords (records : List Record) (path : String) : Report :=
  if records.isEmpty then ⟨[.bare (Name.ofPath path) path], [], some 0⟩
  else ⟨records.filter Record.isComponent, records.filter (fun r => !r.isComponent),
    (lastDefault? records).map (placeOf records)⟩

end Report
end ExportInventory
