import ExportInventory.Scan

/-!
Tools that other programs call by name with named arguments. A tool that fails answers with the
message of its failure.
-/
namespace ExportInventory.Tool

abbrev Description := List (String × String)

def descriptions : List (String × Description) :=
  [("tool_description", [("instructions",
      "Inventories the exported declarations of JavaScript / TypeScript source files.\n"
      ++ "Each exported declaration is classified as a renderable component (its body\n"
      ++ "contains JSX markup, or it is a class / wrapped component) or a plain function,\n"
      ++ "with its export type (default or named) and parameter / prop names.\n"
      ++ "Use analyze_component_file for a single file and scan_components for a whole tree.\n")]),
    ("analyze_component_file", [
      ("description",
        "Analyze one JS/TS source file and return its components, functions and main export."),
      ("file_path", "Absolute path of the source file to analyze.")]),
    ("scan_components", [
      ("description", "Analyze every JS/TS file under a directory (honoring .gitignore) and write "
        ++ "one JSON report per file."),
      ("root_dir", "Root directory to scan."),
      ("output_path", "Directory the per-file JSON reports are written to.")])]

structure Parameter where
  name : String
  type : String
  description : Option String
deriving DecidableEq, Repr

/-- Describes the parameters of a function by the texts about a tool. Described parameters that
the function does not have are added as strings. -/
def annotate (tool : String) (parameters : List (String × String)) :
    Except Failure (List Parameter) :=
  match descriptions.lookup tool with
  | none => .error (.unknownTool tool)
  | some texts =>
    let described := texts.filter (fun t => t.1 ≠ "description")
    let own := parameters.map fun (name, type) => ⟨name, type, described.lookup name⟩
    let added := described.filter (fun t => (parameters.lookup t.1).isNone)
    .ok (own ++ added.map fun (name, text) => ⟨name, "str", some text⟩)

/-- Failures that carry any number of values, and that differ in how they show these: plainly, as
a failed look-up, or as a number and a text of the system. -/
inductive Raised where
  | plain (values : List Value)
  | lookup (values : List Value)
  | system (values : List Value)

namespace Raised

def tuple : List Value → String
  | [] => ""
  | [v] => v.plain
  | v :: rest => "(" ++ v.shown ++ Value.shownItems rest ++ ")"

def systemMessage (number text : Value) (files : List Value) : String :=
  "[Errno " ++ number.plain ++ "] " ++ text.plain ++
    match files with
    | [] => ""
    | [a] => ": " ++ a.shown
    | a :: b :: _ => ": " ++ a.shown ++ " -> " ++ b.shown

def isNull : Value → Bool
  | .null => true
  | _ => false

def message : Raised → String
  | plain values => tuple values
  | lookup [v] => v.shown
  | lookup values => tuple values
  | system [number, text] => systemMessage number text []
  | system [number, text, file] => systemMessage number text (if isNull file then [] else [file])
  | system [number, text, file, _] => systemMessage number text (if isNull file then [] else [file])
  | system [number, text, file, _, target] =>
    systemMessage number text
      (if isNull file then [] else if isNull target then [file] else [file, target])
  | system values => tuple values

end Raised

def failed (tool message : String) : Value :=
  .object [("status", .string "failure"), ("tool", .string tool), ("message", .string message)]

def guarded (tool : String) (result : Except Raised Value) : Value :=
  match result with
  | .ok v => v
  | .error e => failed tool e.message

def typeName : Value → String
  | .null => "NoneType"
  | .bool _ => "bool"
  | .number _ => "int"
  | .string _ => "str"
  | .list _ => "list"
  | .object _ => "dict"

def path : Value → Except Failure String
  | .string s => .ok s
  | v => .error (.notPath (typeName v))

def checkNames (function : String) (required optional : List String)
    (arguments : List (String × Value)) : Except Failure Unit :=
  match arguments.find? (fun a => !(required ++ optional).contains a.1) with
  | some (name, _) => .error (.unexpectedArgument function name)
  | none =>
    match required.filter (fun name => (arguments.lookup name).isNone) with
    | [] => .ok ()
    | names => .error (.missingArguments function names)

def analyzeFile (i : Inspector) (arguments : List (String × Value)) : Action Value := do
  Action.look fun _ => checkNames "mcp_analyze_component_file" ["file_path"] [] arguments
  let file ← Action.look fun _ => path ((arguments.lookup "file_path").getD .null)
  let report ← Action.look (i.report · file)
  return .object (("status", .string "success") :: report.members)

def scanDirectory (s : Scanner) (arguments : List (String × Value)) : Action Value := do
  Action.look fun _ => checkNames "mcp_scan_components" ["root_dir"] ["output_path"] arguments
  let root ← Action.look fun _ => path ((arguments.lookup "root_dir").getD .null)
  let output ← Action.look fun _ =>
    path ((arguments.lookup "output_path").getD (.string Scan.standardOutput))
  let summary ← Scan.run s root output true
  return .object [("status", .string "success"), ("records", .number summary.records),
    ("output_path", .string output)]

def call (s : Scanner) (tool : String) (arguments : List (String × Value)) :
    StateM Disk Value := do
  let action : Action Value := match tool with
    | "analyze_component_file" => analyzeFile s.toInspector arguments
    | "scan_components" => scanDirectory s arguments
    | _ => throw (Failure.unknownTool tool)
  match ← action.run with
  | .ok v => return v
  | .error e => return failed tool e.message

end ExportInventory.Tool
