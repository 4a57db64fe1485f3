import ExportInventory.Budget
import ExportInventory.Command.Basic

/-!
The program. What a command line works on is loaded into a file system value, the command is run
on that value, and what it changed is written back.
-/
namespace ExportInventory.Command

def locationPath (l : Location) : String := "/" ++ "/".intercalate l

partial def load (deep : Bool) (d : Disk) (l : Location) : IO Disk := do
  try
    let path ← IO.FS.realPath (locationPath l)
    if ← path.isDir then
      let d := if d.isDirectoryAt l then d else d.put l .directory
      if deep then
        (← path.readDir).foldlM (fun d e => load deep d (l ++ [e.fileName])) d
      else return d
    else return d.put l (.file (← IO.FS.readBinFile path).toList)
  catch _ => return d

def loadPath (d : Disk) (path : String) (deep : Bool) : IO Disk := do
  let full := if Path.isAbsolute path then path else Path.join d.system.workingDirectory path
  let segments := Path.segments full
  let places := (List.range segments.length).map fun n =>
    Path.resolveDots true (segments.take (n + 1))
  let d ← places.foldlM (load false) d
  load deep d (Path.resolveDots true segments)

/-- Writes back what has changed: first what is gone, from below, then what is new. -/
def store (before after : Disk) : IO Unit := do
  let ordered (d : Disk) := (d.entries.map Prod.fst).mergeSort Disk.precedes
  for l in (ordered before).reverse do
    if (after.get? l).isNone then
      if before.isDirectoryAt l then IO.FS.removeDir (locationPath l)
      else IO.FS.removeFile (locationPath l)
  for l in ordered after do
    if before.get? l ≠ after.get? l then
      match after.get? l with
      | some (.file content) => IO.FS.writeBinFile (locationPath l) ⟨content.toArray⟩
      | _ => IO.FS.createDirAll (locationPath l)

end ExportInventory.Command

open ExportInventory in
def main (arguments : List String) : IO UInt32 := do
  let level ← IO.getEnv "COMPONENTSCAN_LOG_LEVEL"
  let setting ← IO.getEnv "COMPONENTSCAN_MAX_MARKUP_NODES"
  let scanner := Scanner.standard (Budget.ofSetting (setting.map Text.ofString)) Encoding.ofMark
  let level := level.getD "WARNING"
  let empty := Disk.empty (.standard (← IO.currentDir).toString)
  let paths := match Command.Invocation.read level arguments with
    | .ok ⟨_, some task⟩ => task.paths
    | _ => []
  let before ← (("", false) :: paths).foldlM (fun d p => Command.loadPath d p.1 p.2) empty
  let (outcome, after) := (Command.run scanner level arguments).run before
  Command.store before after
  IO.print outcome.output
  IO.eprint outcome.messages
  match outcome.status with
  | .ok status => return status.toUInt32
  | .error failure =>
    IO.eprintln failure.message
    return 1
