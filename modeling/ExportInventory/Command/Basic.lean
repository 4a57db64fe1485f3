import ExportInventory.Command.Interface
import ExportInventory.Ignore
import ExportInventory.Scan
import ExportInventory.Text.Upper

/-!
The command line: analyze files, or scan a directory.
-/
namespace ExportInventory

/-- A scanner with the parser, the codecs and the rules of this library. Text files are in UTF-8, and
nothing breaks off. -/
def Scanner.standard (budget : Nat) (guess : Bytes → Option String) : Scanner where
  parser := Engine.scriptParser
  budget := budget
  guess := guess
  codec := Encoding.decode
  selection := ⟨fun bytes => (Encoding.utf8Strict bytes).mapError Encoding.Fault.message, Ignore.rules⟩
  stops := fun _ _ => none
  print := fun _ => none

def System.standard (workingDirectory : String) : System :=
  { System.permissive workingDirectory 960 with
    refuses := fun _ l =>
      if l.any (fun name => 255 < name.utf8ByteSize) then some ⟨36, "File name too long"⟩ else none }

namespace Command

inductive Task where
  | analyze (files : List String) (output : Option String)
  | scan (root output : String) (clear : Bool)
deriving DecidableEq, Repr

structure Invocation where
  logLevel : String
  task : Option Task
deriving DecidableEq, Repr

def helpOption : CommandOption := ⟨["-h", "--help"], .help⟩

private def paragraphs (lines : List String) : String := String.join (lines.map (· ++ "\n"))

private def programUsage : List String :=
  ["usage: componentscan [-h] [--log-level LOG_LEVEL] \x7banalyze,scan\x7d ..."]

private def analyzeUsage : List String :=
  ["usage: componentscan analyze [-h] [--output OUTPUT] files [files ...]"]

private def scanUsage : List String :=
  ["usage: componentscan scan [-h] [--output_base OUTPUT_BASE] [--no_clear]",
    "                          root_dir"]

def programInterface : Interface where
  program := "componentscan"
  usage := paragraphs programUsage
  help := paragraphs (programUsage ++ [
    "",
    "Inventory exported components and functions of JS/TS files",
    "",
    "positional arguments:",
    "  \x7banalyze,scan\x7d        Available functions",
    "    analyze             Analyze one or more source files",
    "    scan                Analyze every JS/TS file under a directory",
    "",
    "options:",
    "  -h, --help            show this help message and exit",
    "  --log-level LOG_LEVEL",
    "                        Logging level for analysis diagnostics (default:",
    "                        WARNING)"])
  options := [helpOption, ⟨["--log-level"], .value⟩]
  operand := "function"
  count := .rest
  required := false

def analyzeInterface : Interface where
  program := "componentscan analyze"
  usage := paragraphs analyzeUsage
  help := paragraphs (analyzeUsage ++ [
    "",
    "positional arguments:",
    "  files            Source files to analyze",
    "",
    "options:",
    "  -h, --help       show this help message and exit",
    "  --output OUTPUT  Write JSON here instead of stdout"])
  options := [helpOption, ⟨["--output"], .value⟩]
  operand := "files"
  count := .several
  required := true

def scanInterface : Interface where
  program := "componentscan scan"
  usage := paragraphs scanUsage
  help := paragraphs (scanUsage ++ [
    "",
    "positional arguments:",
    "  root_dir              Root directory to scan for source files",
    "",
    "options:",
    "  -h, --help            show this help message and exit",
    "  --output_base OUTPUT_BASE",
    "                        Output base directory (default: ./output/components)",
    "  --no_clear            Do not clear the existing output directory"])
  options := [helpOption, ⟨["--output_base"], .value⟩, ⟨["--no_clear"], .switch⟩]
  operand := "root_dir"
  count := .one
  required := true

def readTask (function : String) (arguments : List String) :
    Except Stop (Task × List String) := do
  if function = "analyze" then
    let r ← analyzeInterface.read arguments
    return (.analyze (r.operand.getD []) (r.value? "--output"), r.extras)
  else if function = "scan" then
    let r ← scanInterface.read arguments
    let root := (r.operand.getD []).headD ""
    let output := (r.value? "--output_base").getD Scan.standardOutput
    return (.scan root output (!r.switches.contains "--no_clear"), r.extras)
  else
    .error (.complaint programInterface (.badChoice "function" function ["analyze", "scan"]))

/-- Reads a command line. Arguments without a use are the last thing to complain about. -/
def Invocation.read (standardLevel : String) (arguments : List String) :
    Except Stop Invocation := do
  let r ← programInterface.read arguments
  let (task, extras) ← match r.operand with
    | some (function :: rest) => do
      let (task, extras) ← readTask function rest
      pure (some task, extras)
    | _ => pure (none, [])
  let extras := r.extras ++ extras
  if extras.isEmpty then return ⟨(r.value? "--log-level").getD standardLevel, task⟩
  else .error (.complaint programInterface (.unrecognized extras))

def Task.paths : Task → List (String × Bool)
  | analyze files output => (files ++ output.toList).map (·, false)
  | scan root output _ => [(root, true), (output, true)]

/-- What a program leaves behind: its output, its messages, and its exit status or the failure
that ends it. -/
structure Outcome where
  output : String
  messages : String
  status : Except Failure Nat

def Stop.outcome : Stop → Outcome
  | help i => ⟨i.help, "", .ok 0⟩
  | complaint i c => ⟨"", i.usage ++ i.program ++ ": error: " ++ c.message ++ "\n", .ok 2⟩

def levels : List String :=
  ["CRITICAL", "FATAL", "ERROR", "WARN", "WARNING", "INFO", "DEBUG", "NOTSET"]

def reportValue : List (String × Report) → Value
  | [(_, report)] => report.toValue
  | reports => .object (reports.map fun (path, report) => (path, report.toValue))

def reportOn (i : Inspector) (d : Disk) (file : String) : Except Failure (String × Report) := do
  return (← d.system.absolute file, ← i.report d file)

def analyze (i : Inspector) (files : List String) (output : Option String) : Action String := do
  let reports ← Action.look fun d => files.mapM (reportOn i d)
  let paths := (reports.map Prod.fst).eraseDups
  let value := reportValue (paths.filterMap fun p => (reports.lookup p).map (p, ·))
  let text := value.written 0
  match output with
  | none | some "" => return text ++ "\n"
  | some path =>
    Action.writeText path text
    return "Wrote " ++ path ++ "\n"

def scanHeading (root output : String) (clear : Bool) : String :=
  paragraphs ["Scanning components under: " ++ root, "Output base: " ++ output,
    "Clear existing: " ++ (if clear then "True" else "False")]

/-- The output before the task may fail, and the task, which gives the rest of it. -/
def Task.start (s : Scanner) : Task → String × Action String
  | analyze files output => ("", Command.analyze s.toInspector files output)
  | scan root output clear => (scanHeading root output clear, do
      let summary ← Scan.run s root output clear
      return summary.line output ++ "\n")

def Invocation.run (s : Scanner) (v : Invocation) : StateM Disk Outcome := do
  let level := Text.upper v.logLevel
  if level ∉ levels then return ⟨"", "", .error (.unknownLevel level)⟩
  match v.task with
  | none => return ⟨programInterface.help, "", .ok 0⟩
  | some task =>
    let (heading, action) := task.start s
    match ← action.run with
    | .ok text => return ⟨heading ++ text, "", .ok 0⟩
    | .error e => return ⟨heading, "Error: " ++ e.message ++ "\n", .ok 1⟩

def run (s : Scanner) (standardLevel : String) (arguments : List String) :
    StateM Disk Outcome :=
  match Invocation.read standardLevel arguments with
  | .ok invocation => invocation.run s
  | .error stop => return stop.outcome

end Command
end ExportInventory
