import ExportInventory.Disk.Operation

/-!
The source files below a directory: files with the extensions of the two languages, outside the
directories of installed packages and version control, and not ignored.
-/
namespace ExportInventory

inductive Language where
  | javascript
  | typescript
deriving DecidableEq, Repr

namespace Language

def name : Language → String
  | javascript => "javascript"
  | typescript => "typescript"

def ofName? (name : String) : Option Language :=
  let lower := String.ofList (name.toList.map Char.toLower)
  if lower = "javascript" then some javascript
  else if lower = "typescript" then some typescript
  else none

def ofExtension? (extension : String) : Option Language :=
  if extension ∈ [".ts", ".tsx", ".mts", ".cts"] then some typescript
  else if extension ∈ [".js", ".jsx", ".mjs", ".cjs"] then some javascript
  else none

end Language

structure SourceFile where
  place : Location
  language : Language
deriving DecidableEq, Repr

namespace SourceFile

/-- The end of a name from its last dot on. A dot at either end of the name does not count. -/
def suffix (name : String) : String :=
  let tail := name.toList.reverse.takeWhile (· ≠ '.')
  match name.toList.reverse.drop tail.length with
  | '.' :: _ :: _ => if tail.isEmpty then "" else String.ofList ('.' :: tail.reverse)
  | _ => ""

def skippedNames : List String := ["node_modules", ".git"]

def tidy (path : String) : String :=
  let body := "/".intercalate ((Path.segments path).filter (fun s => s ≠ "" ∧ s ≠ "."))
  let result := Path.leadingSlashes path ++ body
  if result.isEmpty then "." else result

def pathUnder (root path : String) : String :=
  let root := tidy root
  if root = "." then path else Path.join root path

def ignoreFile (root : String) : String := pathUnder root ".gitignore"

def relativePath (f : SourceFile) : String := "/".intercalate f.place

def path (root : String) (f : SourceFile) : String := pathUnder root f.relativePath

def places (d : Disk) (root : String) : Except Failure (List Location) :=
  match d.locate (tidy root) with
  | .error _ => .ok []
  | .ok l =>
    match d.system.stopsListing l with
    | some message => .error (.interrupted message)
    | none => .ok (if d.isDirectoryAt l then (d.filesBelow l).map Prod.fst else [])

def ofPlace? (ignored : String → Bool) (place : Location) : Option SourceFile :=
  if place.any (· ∈ skippedNames) || ignored ("/".intercalate place) then none
  else (Language.ofExtension? (suffix (place.getLast?.getD ""))).map (⟨place, ·⟩)

def endsLine (c : Char) : Bool :=
  let n := c.toNat
  (10 ≤ n && n ≤ 13) || (28 ≤ n && n ≤ 30) || n = 0x85 || n = 0x2028 || n = 0x2029

/-- The lines of a text. A carriage return and a line feed end one line together. -/
def lines (current : List Char) : List Char → List (List Char)
  | [] => if current.isEmpty then [] else [current.reverse]
  | '\r' :: '\n' :: rest => current.reverse :: lines [] rest
  | c :: rest => if endsLine c then current.reverse :: lines [] rest else lines (c :: current) rest

/-- The files by language. The language of the first file comes first. -/
def byLanguage (files : List SourceFile) : List (Language × List SourceFile) :=
  ((files.map language).eraseDups).map fun l => (l, files.filter (·.language = l))

end SourceFile

/-- What decides on the files of a directory: the encoding of its text files, and the rules that the
lines of an ignore file make, both of which may refuse what they are given. -/
structure Selection where
  decode : Bytes → Except String (List Char)
  rules : List (List Char) → Except String (String → Bool)

namespace Selection

variable (s : Selection)

def ignoreLines (d : Disk) (root : String) : Except Failure (List (List Char)) := do
  if d.pathExists (SourceFile.ignoreFile root) then
    let bytes ← d.read (SourceFile.ignoreFile root)
    return SourceFile.lines [] (← (s.decode bytes).mapError .undecodable)
  else return []

def ignored (d : Disk) (root : String) : Except Failure (String → Bool) := do
  (s.rules (← s.ignoreLines d root)).mapError .badIgnorePattern

def collect (d : Disk) (root : String) : Except Failure (List SourceFile) := do
  let ignored ← s.ignored d root
  return (← SourceFile.places d root).filterMap (SourceFile.ofPlace? ignored)

end Selection
end ExportInventory
