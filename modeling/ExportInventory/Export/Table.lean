import ExportInventory.Record
import ExportInventory.Tree.Basic

/-!
The table of a module's exports.
-/
namespace ExportInventory

/-- An export: the local name, and the public one if `export … as …` gives another. -/
structure Binding where
  name : String
  visibility : Visibility
  exportedAs : Option String
  reexport : Bool
deriving DecidableEq, Repr

/-- What is known of a module's exports. `defaultName` is the last default export;
`anonymousDefaults` holds, under the names made up for them, the nodes that have no name. -/
structure ExportTable where
  bindings : List Binding
  exportedNames : List String
  defaultNames : List String
  defaultName : Option String
  aliases : List (String × String)
  anonymousDefaults : List (String × Tree)

namespace ExportTable

def empty : ExportTable := ⟨[], [], [], none, [], []⟩

def insertName (names : List String) (name : String) : List String :=
  if names.contains name then names else names ++ [name]

def assign {α : Type} (pairs : List (String × α)) (key : String) (value : α) :
    List (String × α) :=
  if pairs.any (fun p => p.1 = key) then pairs else pairs ++ [(key, value)]

def newAlias? (b : Binding) : Option String :=
  match b.exportedAs with
  | some asName => if asName ≠ "" ∧ asName ≠ b.name then some asName else none
  | none => none

def add (t : ExportTable) (b : Binding) : ExportTable :=
  let t := { t with bindings := t.bindings ++ [b], exportedNames := insertName t.exportedNames b.name }
  if b.visibility = .default then
    { t with defaultNames := insertName t.defaultNames b.name, defaultName := some b.name }
  else
    match newAlias? b with
    | some asName => { t with aliases := assign t.aliases b.name asName }
    | none => t

def addAnonymous (t : ExportTable) (name : String) (node : Tree) : ExportTable :=
  { t with anonymousDefaults := assign t.anonymousDefaults name node }

def exportTypeOf (t : ExportTable) (name : String) : Visibility :=
  if t.defaultName = some name then .default else .named

def publicNameOf (t : ExportTable) (name : String) : String :=
  if t.defaultName = some name then name else (t.aliases.lookup name).getD name

def exports (t : ExportTable) (name : String) : Bool := t.exportedNames.contains name

end ExportTable
end ExportInventory
