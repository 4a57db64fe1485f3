import ExportInventory.Disk.Basic

/-!
Operations on file systems by path, and steps that change a file system and may fail.
-/
namespace ExportInventory

namespace Disk

/-- How far names lead: to a place, or to a link in a directory with names behind it. -/
inductive Leg where
  | place (l : Location)
  | link (here : Location) (target : String) (rest : List String)

/-- Follows names from a place up to the first link. Every place that is left has to be a directory.
A link at the end is followed only if the way goes `through` it. -/
def advance (d : Disk) (path : String) (through : Bool) :
    Location → List String → Except Failure Leg
  | here, [] => .ok (.place here)
  | here, name :: rest =>
    match d.get? here with
    | none => .error (.missing path)
    | some (.file _) => .error (.notDirectory path)
    | some (.link _) => .error (.notDirectory path)
    | some .directory =>
      if name = "" ∨ name = "." then d.advance path through here rest
      else if name = ".." then d.advance path through here.dropLast rest
      else
        match d.get? (here ++ [name]) with
        | some (.link target) =>
          if rest.isEmpty && !through then .ok (.place (here ++ [name]))
          else .ok (.link here target rest)
        | _ => d.advance path through (here ++ [name]) rest

def follow (d : Disk) (path : String) (through : Bool) :
    Nat → Location → List String → Except Failure Location
  | links, here, names =>
    match d.advance path through here names with
    | .error e => .error e
    | .ok (.place l) => .ok l
    | .ok (.link at_ target rest) =>
      match links with
      | 0 => .error (.refused ⟨40, "Too many levels of symbolic links"⟩ (some path))
      | more + 1 =>
        d.follow path through more (if Path.isAbsolute target then [] else at_)
          (Path.segments target ++ rest)

def linkLimit : Nat := 40

def resolve (d : Disk) (through : Bool) (path : String) : Except Failure Location :=
  match d.system.fault? path with
  | some e => .error e
  | none =>
    if path.isEmpty then .error (.missing path)
    else
      d.follow path through linkLimit
        (if Path.isAbsolute path then [] else Path.names d.system.workingDirectory)
        (Path.segments path)

def locate (d : Disk) (path : String) : Except Failure Location := d.resolve true path

def find? (d : Disk) (path : String) : Option Entry :=
  match d.locate path with
  | .ok l => d.get? l
  | .error _ => none

def pathExists (d : Disk) (path : String) : Bool := (d.find? path).isSome

def isDirectory (d : Disk) (path : String) : Bool := d.find? path = some .directory

def target? (d : Disk) (l : Location) : Option Entry :=
  match d.get? l with
  | some (.link path) =>
    match d.follow path true linkLimit (if Path.isAbsolute path then [] else l.dropLast)
        (Path.segments path) with
    | .ok there => d.get? there
    | .error _ => none
  | found => found

/-- The files below a place, as seen from it, in order, with their contents. Links to files count,
what lies behind links to directories does not. -/
def filesBelow (d : Disk) (l : Location) : List (Location × Bytes) :=
  ((d.entries.map Prod.fst).filterMap file?).mergeSort (fun a b => precedes a.1 b.1)
where
  file? (place : Location) : Option (Location × Bytes) :=
    if isBelow l place then
      match d.target? place with
      | some (.file content) => some (place.drop l.length, content)
      | _ => none
    else none

def refusal? (d : Disk) (access : Access) (path : String) (l : Location) : Option Failure :=
  (d.system.refuses access l).map fun error => .refused error (some path)

def read (d : Disk) (path : String) : Except Failure Bytes :=
  match d.locate path with
  | .error e => .error e
  | .ok l =>
    match d.refusal? .read path l, d.get? l with
    | some e, _ => .error e
    | none, some (.file content) => .ok content
    | none, some .directory => .error (.isDirectory path)
    | none, _ => .error (.missing path)

def create (d : Disk) (path : String) (l : Location) (e : Entry) : Except Failure Disk :=
  match d.get? l.dropLast with
  | none => .error (.missing path)
  | some .directory => .ok (d.put l e)
  | some _ => .error (.notDirectory path)

def write (d : Disk) (path : String) (content : Bytes) : Except Failure Disk :=
  match d.locate path with
  | .error e => .error e
  | .ok l =>
    match d.refusal? .write path l, d.get? l with
    | some e, _ => .error e
    | none, some .directory => .error (.isDirectory path)
    | none, some (.file _) => .ok (d.put l (.file content))
    | none, some (.link _) => .error (.missing path)
    | none, none => d.create path l (.file content)

def withoutEndSlashes (path : String) : String :=
  let cs := (path.toList.reverse.dropWhile (· = '/')).reverse
  if cs.isEmpty then path else String.ofList cs

def about (path : String) : Failure → Failure
  | .missing _ => .missing path
  | .notDirectory _ => .notDirectory path
  | .refused error _ => .refused error (some path)
  | e => e

def makeDirectory (d : Disk) (path : String) : Except Failure Disk :=
  match d.resolve false (withoutEndSlashes path) with
  | .error e => .error (about path e)
  | .ok l =>
    match d.get? l, d.refusal? .make path l with
    | some _, _ => .error (.alreadyExists path)
    | none, some e => .error e
    | none, none => d.create path l .directory

def lastName (path : String) : String × String :=
  let (head, tail) := Path.split path
  if tail.isEmpty then Path.split head else (head, tail)

/-- Removes an empty directory. A path that ends in dots names no directory to remove. -/
def removeDirectory (d : Disk) (path : String) : Disk :=
  let name := Path.baseName (withoutEndSlashes path)
  if name = "." ∨ name = ".." then d
  else
    match d.resolve false (withoutEndSlashes path) with
    | .error _ => d
    | .ok l => if d.isDirectoryAt l && !d.system.keeps l then d.drop l else d

/-- The directory that a path leads to without a link at its end, which alone can be removed with all
in it. -/
def removable? (d : Disk) (path : String) : Option Location :=
  match d.resolve false path, d.locate path with
  | .ok l, .ok there => if l = there && d.isDirectoryAt l then some l else none
  | _, _ => none

end Disk

/-- Steps that change a file system and may fail; what was changed before a failure stays. -/
abbrev Action := ExceptT Failure (StateM Disk)

namespace Action

def look {α : Type} (f : Disk → Except Failure α) : Action α := do
  match f (← get) with
  | .ok a => return a
  | .error e => throw e

def change (f : Disk → Except Failure Disk) : Action Unit := do
  match f (← get) with
  | .ok d => set d
  | .error e => throw e

def check (f : Disk → Option Failure) : Action Unit := do
  match f (← get) with
  | some e => throw e
  | none => return

def ensureDirectory (path : String) : Action Unit := do
  let d ← get
  match d.makeDirectory path with
  | .ok d => set d
  | .error e => if e.ofFileSystem && d.isDirectory path then return else throw e

def makeDirectoriesWithin : Nat → String → Action Unit
  | 0, _ => throw .tooDeep
  | nesting + 1, path => do
    let (head, tail) := Disk.lastName path
    let d ← get
    if !head.isEmpty && !tail.isEmpty && !d.pathExists head then
      try makeDirectoriesWithin nesting head
      catch
        | .alreadyExists _ => pure ()
        | e => throw e
      if tail = "." then return
    ensureDirectory path

def makeDirectories (path : String) : Action Unit := do
  makeDirectoriesWithin (← get).system.nesting path

/-- Writes to a file. What the system cuts off is missing at its end, and the step fails. -/
def write (path : String) (content : Bytes) : Action Unit := do
  let d ← get
  match (d.locate path).toOption.bind d.system.cutsOff with
  | none => change (·.write path content)
  | some (length, message) =>
    change (·.write path (content.take length))
    throw (.interrupted message)

def writeFile (path : String) (content : Bytes) : Action Unit := do
  let parent := Path.directory path
  if !parent.isEmpty then makeDirectories parent
  write path content

def writeText (path text : String) : Action Unit := writeFile path (Encoding.encode text.toList)

def removeTree (path : String) : Action Unit := do
  let d ← get
  match d.removable? path with
  | none => return
  | some l =>
    set (d.clear l)
    check fun _ => (d.system.stopsEmptying l).map .interrupted
    change fun cleared => .ok (cleared.removeDirectory path)

end Action
end ExportInventory
