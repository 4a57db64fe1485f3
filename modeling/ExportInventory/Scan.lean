import ExportInventory.FileAnalysis

/-!
Reports on all source files below a directory, one file each below an output directory.
-/
namespace ExportInventory

structure Interruption where
  afterFiles : Nat
  message : String

/-- An inspector that looks through directories. It chooses files by a selection. What hands out the
files of a language and shows how far it has come may break off after some of them, and so may the
console on which the last line is printed. -/
structure Scanner extends Inspector where
  selection : Selection
  stops : Language → List SourceFile → Option Interruption
  print : String → Option String

namespace Scan

def reportPath (s : System) (path root output : String) : Except Failure String :=
  if path.isEmpty then .error .emptyPath
  else do
    let origin ← s.absolute root
    let full ← s.absolute path
    return Path.join output (Path.relative full origin ++ ".json")

def reportFile (i : Inspector) (path language root output : String) : Action Nat := do
  let _ ← Action.look (fun _ => Extractor.forLanguage language)
  let extractor ← Extractor.process i path
  let target ← Action.look (fun d => reportPath d.system path root output)
  extractor.write target
  return extractor.records.length

/-- Reports on one file. A failure counts as no records. -/
def tryFile (i : Inspector) (path language root output : String) : Action Nat :=
  try reportFile i path language root output catch _ => return 0

structure Summary where
  records : Nat
  files : Nat
deriving DecidableEq, Repr

def Summary.line (s : Summary) (output : String) : String :=
  "Done! " ++ toString s.records ++ " records from " ++ toString s.files ++ " files in: " ++ output

def reportFiles (i : Inspector) (root output : String) : List SourceFile → Action (List Nat)
  | [] => return []
  | f :: rest => do
    let n ← tryFile i (f.path root) f.language.name root output
    return n :: (← reportFiles i root output rest)

def reportLanguage (s : Scanner) (root output : String) (language : Language)
    (files : List SourceFile) : Action Nat :=
  match s.stops language files with
  | none => do
    let counts ← reportFiles s.toInspector root output files
    return counts.foldl (· + ·) 0
  | some stop => do
    let _ ← reportFiles s.toInspector root output (files.take stop.afterFiles)
    throw (.interrupted stop.message)

def reportLanguages (s : Scanner) (root output : String) :
    List (Language × List SourceFile) → Action Nat
  | [] => return 0
  | (language, files) :: rest => do
    let n ← reportLanguage s root output language files
    return n + (← reportLanguages s root output rest)

def makeRoom (output : String) (clear : Bool) : Action Unit := do
  if (← get).isDirectory output && clear then Action.removeTree output

def writeReports (s : Scanner) (root output : String) (files : List SourceFile) :
    Action Summary := do
  Action.makeDirectories output
  let summary : Summary :=
    ⟨← reportLanguages s root output (SourceFile.byLanguage files), files.length⟩
  Action.check fun _ => (s.print (summary.line output)).map .interrupted
  return summary

/-- Scans a directory. The files are listed before room is made for the reports on them. -/
def run (s : Scanner) (root output : String) (clear : Bool) : Action Summary := do
  let files ← Action.look (s.selection.collect · root)
  makeRoom output clear
  writeReports s root output files

def standardOutput : String := "./output/components"

end Scan
end ExportInventory
