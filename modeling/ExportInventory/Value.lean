import ExportInventory.Record
import ExportInventory.Text.Quoted

/-!
Structured values, how they are written to files and how they show in messages.
-/
namespace ExportInventory

inductive Value where
  | null
  | bool (b : Bool)
  | number (n : Int)
  | string (s : String)
  | list (items : List Value)
  | object (members : List (String × Value))
deriving Repr, Inhabited

namespace Value

private def escapedChar (c : Char) : List Char :=
  if c = '"' ∨ c = '\\' then ['\\', c]
  else if c = '\n' then ['\\', 'n']
  else if c = '\r' then ['\\', 'r']
  else if c = '\t' then ['\\', 't']
  else if c.toNat = 8 then ['\\', 'b']
  else if c.toNat = 12 then ['\\', 'f']
  else if c.toNat < 32 then '\\' :: 'u' :: Text.hexDigits 4 c.toNat
  else [c]

/-- A string in double quotes; only controls, quotes and backslashes are escaped. -/
def writtenString (s : String) : String :=
  String.ofList ('"' :: s.toList.flatMap escapedChar ++ ['"'])

def newLine (depth : Nat) : String := String.ofList ('\n' :: List.replicate (2 * depth) ' ')

mutual

def written (depth : Nat) : Value → String
  | .null => "null"
  | .bool b => if b then "true" else "false"
  | .number n => toString n
  | .string s => writtenString s
  | .list [] => "[]"
  | .list (v :: rest) =>
    "[" ++ newLine (depth + 1) ++ written (depth + 1) v ++ writtenItems (depth + 1) rest
      ++ newLine depth ++ "]"
  | .object [] => "\x7b\x7d"
  | .object ((key, v) :: rest) =>
    "\x7b" ++ newLine (depth + 1) ++ writtenString key ++ ": " ++ written (depth + 1) v
      ++ writtenMembers (depth + 1) rest ++ newLine depth ++ "\x7d"

def writtenItems (depth : Nat) : List Value → String
  | [] => ""
  | v :: rest => "," ++ newLine depth ++ written depth v ++ writtenItems depth rest

def writtenMembers (depth : Nat) : List (String × Value) → String
  | [] => ""
  | (key, v) :: rest =>
    "," ++ newLine depth ++ writtenString key ++ ": " ++ written depth v
      ++ writtenMembers depth rest

end

mutual

def shown : Value → String
  | .null => "None"
  | .bool b => if b then "True" else "False"
  | .number n => toString n
  | .string s => Text.quoted s
  | .list [] => "[]"
  | .list (v :: rest) => "[" ++ shown v ++ shownItems rest ++ "]"
  | .object [] => "\x7b\x7d"
  | .object ((key, v) :: rest) =>
    "\x7b" ++ Text.quoted key ++ ": " ++ shown v ++ shownMembers rest ++ "\x7d"

def shownItems : List Value → String
  | [] => ""
  | v :: rest => ", " ++ shown v ++ shownItems rest

def shownMembers : List (String × Value) → String
  | [] => ""
  | (key, v) :: rest => ", " ++ Text.quoted key ++ ": " ++ shown v ++ shownMembers rest

end

def plain : Value → String
  | .string s => s
  | v => v.shown

end Value

namespace Record

def toValue (r : Record) : Value :=
  let names := Value.list (r.parameterNames.map .string)
  .object ([("name", .string r.name), ("exportType", .string r.exportType.label),
    ("filePath", .string r.filePath), ("isComponent", .bool r.isComponent),
    ("isReactComponent", .bool r.isComponent), ("isFunction", .bool r.isFunction),
    ("parameterNames", names), ("props", names), ("hasDefaultProps", .bool r.hasDefaultProps)]
    ++ match r.line with
      | some line => [("lineNumber", .number line)]
      | none => [])

end Record

namespace Report

def members (r : Report) : List (String × Value) :=
  [("components", .list (r.components.map Record.toValue)),
    ("functions", .list (r.functions.map Record.toValue)),
    ("mainExport", match r.mainExport with
      | some main => main.toValue
      | none => .null)]

def toValue (r : Report) : Value := .object r.members

end Report
end ExportInventory
