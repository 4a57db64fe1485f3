import ExportInventory.Name
import ExportInventory.Tree.Source

/-!
The parameter names of a function: the keys of a parameter that is taken apart, the name of a
rest parameter, and what a parameter with a default value is called. Patterns are read one level
deep.
-/
namespace ExportInventory.Parameters

def restName? (s : Source) (t : Tree) : Option String :=
  (t.namedChildren.find? (fun c => c.kind == "identifier")).map s.textOf

/-- The key that a member of an object pattern takes out. -/
def key? (s : Source) (member : Tree) : Option String :=
  match member.kind with
  | "shorthand_property_identifier_pattern" => some (s.textOf member)
  | "pair_pattern" => (member.child? "key").map s.textOf
  | "object_assignment_pattern" =>
    match member.child? "left" with
    | some left =>
      if left.kind == "shorthand_property_identifier_pattern" then some (s.textOf left) else none
    | none => none
  | "rest_pattern" => restName? s member
  | _ => none

def objectKeys (s : Source) (t : Tree) : List String :=
  (t.namedChildren.filterMap (key? s)).filter Name.isIdentifier

def plainNames (s : Source) (t : Tree) : List String :=
  match t.kind with
  | "identifier" => [s.textOf t]
  | "object_pattern" => objectKeys s t
  | "rest_pattern" => (restName? s t).toList
  | _ => []

def patternNames (s : Source) (t : Tree) : List String :=
  if t.kind == "assignment_pattern" then
    match t.child? "left" with
    | some left => if left.isOneOf ["identifier", "object_pattern"] then plainNames s left else []
    | none => []
  else plainNames s t

def annotated : List String := ["required_parameter", "optional_parameter"]

mutual

def parameterNames (s : Source) : Tree → List String
  | t@⟨kind, _, _, _, _, _, children⟩ =>
    if annotated.contains kind then firstPattern s children else patternNames s t

def firstPattern (s : Source) : List Tree → List String
  | [] => []
  | t :: rest => if t.field == some "pattern" then parameterNames s t else firstPattern s rest

end

def distinct (names : List String) : List String :=
  names.foldl (fun done n => if done.contains n then done else done ++ [n]) []

def ofFunction (s : Source) (function : Tree) : List String :=
  match function.child? "parameter" with
  | some single => parameterNames s single
  | none =>
    match function.child? "parameters" with
    | some list => distinct (list.namedChildren.flatMap (parameterNames s))
    | none => []

end ExportInventory.Parameters
