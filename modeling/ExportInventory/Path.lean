/-!
Paths as strings, with a slash between names.
-/
namespace ExportInventory.Path

def splitChars (sep : Char) : List Char → List (List Char)
  | [] => [[]]
  | c :: rest =>
    if c = sep then [] :: splitChars sep rest
    else
      match splitChars sep rest with
      | [] => [[c]]
      | first :: more => (c :: first) :: more

def segments (path : String) : List String :=
  (splitChars '/' path.toList).map String.ofList

def baseName (path : String) : String :=
  (segments path).getLast?.getD ""

/-- The part of a name up to its last dot and the part from it on. A dot counts only if some
character before it is no dot. -/
def splitDot (name : List Char) : List Char × List Char :=
  let tail := name.reverse.takeWhile (· ≠ '.')
  let head := name.reverse.drop tail.length
  match head with
  | '.' :: before =>
    if before.all (· = '.') then (name, []) else (before.reverse, '.' :: tail.reverse)
  | _ => (name, [])

def stem (path : String) : String :=
  String.ofList (splitDot (baseName path).toList).1

def extension (path : String) : String :=
  String.ofList (splitDot (baseName path).toList).2

/-- Everything before the last slash; slashes at its end are left out unless there is nothing
else. -/
def directory (path : String) : String :=
  let head := (path.toList.reverse.dropWhile (· ≠ '/')).reverse
  if head.all (· = '/') then String.ofList head
  else String.ofList (head.reverse.dropWhile (· = '/')).reverse

def split (path : String) : String × String :=
  (directory path, baseName path)

def isAbsolute (path : String) : Bool :=
  path.toList.head? = some '/'

def join (base path : String) : String :=
  if isAbsolute path then path
  else if base.isEmpty || base.toList.getLast? = some '/' then base ++ path
  else base ++ "/" ++ path

def resolveDots (rooted : Bool) (names : List String) : List String :=
  (names.foldl step []).reverse
where
  step (done : List String) (name : String) : List String :=
    if name = "" ∨ name = "." then done
    else if name ≠ ".." then name :: done
    else
      match done with
      | [] => if rooted then [] else [name]
      | last :: before => if last = ".." then name :: done else before

/-- The slashes that a path starts with: exactly two are kept, more count as one. -/
def leadingSlashes (path : String) : String :=
  match path.toList with
  | '/' :: '/' :: '/' :: _ => "/"
  | '/' :: '/' :: _ => "//"
  | '/' :: _ => "/"
  | _ => ""

def normalize (path : String) : String :=
  let lead := leadingSlashes path
  let body := "/".intercalate (resolveDots (!lead.isEmpty) (segments path))
  let result := lead ++ body
  if result.isEmpty then "." else result

def absolute (workingDirectory path : String) : String :=
  normalize (if isAbsolute path then path else join workingDirectory path)

def names (path : String) : List String :=
  (segments path).filter (fun s => !s.isEmpty)

def commonLength : List String → List String → Nat
  | a :: as, b :: bs => if a = b then commonLength as bs + 1 else 0
  | _, _ => 0

def relative (path start : String) : String :=
  let target := names path
  let origin := names start
  let common := commonLength origin target
  let up := List.replicate (origin.length - common) ".."
  let result := "/".intercalate (up ++ target.drop common)
  if result.isEmpty then "." else result

end ExportInventory.Path
