import ExportInventory.Path

/-!
Names: what an identifier is, and the name that a file gives to its component.
-/
namespace ExportInventory.Name

def isStart (c : Char) : Bool := c.isAlpha || c == '_' || c == '$'

def isPart (c : Char) : Bool := c.isAlphanum || c == '_' || c == '$'

def allParts : List Char → Bool
  | [] => true
  | ['\n'] => true
  | c :: rest => isPart c && allParts rest

/-- ASCII identifiers. A line break at the end does no harm. -/
def isIdentifier (s : String) : Bool :=
  match s.toList with
  | [] => false
  | c :: rest => isStart c && allParts rest

def isKept (c : Char) : Bool := c.isAlphanum || c == '$'

def capitalizeRuns (fresh : Bool) : List Char → List Char
  | [] => []
  | c :: rest =>
    if isKept c then (if fresh then c.toUpper else c) :: capitalizeRuns false rest
    else capitalizeRuns true rest

/-- The text in Pascal case, made an identifier: an underscore stands before a digit, and a fixed
name in place of an empty one. -/
def pascalCase (s : String) : String :=
  match capitalizeRuns true s.toList with
  | [] => "Component"
  | c :: rest => String.ofList (if c.isDigit then '_' :: c :: rest else c :: rest)

def ofPath (path : String) : String :=
  pascalCase (Path.stem path)

end ExportInventory.Name
