import ExportInventory.Sketch.Export

/-!
The region of a text that defines an export, and the parameters that can be read off it.
-/
namespace ExportInventory.Sketch
open Matcher

inductive RegionKind where
  | function
  | variable
  | classType
  | anonymous
deriving DecidableEq, Repr

namespace RegionKind

def label : RegionKind → String
  | .function => "function"
  | .variable => "variable"
  | .classType => "class"
  | .anonymous => "anonymous"

end RegionKind

structure Region where
  kind : RegionKind
  start : Nat
  bodyStart : Nat
  text : Text
deriving DecidableEq, Repr

inductive RegionError where
  | noDefaultWord
deriving DecidableEq, Repr

namespace Region

/-- The text behind the head. A body that starts before its region is counted from the end. -/
def body (r : Region) : Text :=
  if r.start ≤ r.bodyStart then r.text.drop (r.bodyStart - r.start)
  else r.text.drop (r.text.length - (r.start - r.bodyStart))

def classHead : Matcher Unit := do
  blanks; wholeWord "class"

def isClass (r : Region) : Bool :=
  r.kind = .classType || (r.kind = .anonymous && classHead.fits r.body)

def headWords : List String := ["function", "const", "let", "var", "class"]

def declarationOpening : Matcher Unit := do
  maybe (spacedWord "export")
  maybe (spacedWord "default")
  maybe asyncWord
  anyWord headWords

def declarationStart : Matcher Unit := do
  literal "\n"
  ahead declarationOpening

def stop (t : Text) (start : Nat) : Nat :=
  match declarationStart.first? t (start + 1) with
  | some (offset, _) => offset
  | none => t.length

def typeParameters : Matcher Unit := do
  literal "<"
  let _ ← span (fun c => c ≠ '>' && c ≠ '(')
  literal ">"

def listOpening : Matcher RegionKind := do
  blanks
  maybe typeParameters
  blanks; literal "("
  return .function

def functionOpening (name : String) : Matcher RegionKind := do
  functionWord; literal name; listOpening

def annotation : Matcher Unit := do
  literal ":"
  let _ ← one (fun c => c ≠ '=' && c ≠ ';')
  let _ ← span (fun c => c ≠ '=' && c ≠ ';')

def valueOpening : Matcher RegionKind := do
  blanks
  maybe annotation
  literal "="
  notAhead (literal "=")
  return .variable

def variableOpening (name : String) : Matcher RegionKind := do
  variableWord; gap; literal name; valueOpening

def classOpening (name : String) : Matcher RegionKind := do
  literal "class"; gap; literal name; boundary
  return .classType

def head (name : String) : Matcher RegionKind := do
  boundary
  functionOpening name <|> variableOpening name <|> classOpening name

/-- The region that defines an export: for an anonymous one where it is exported, for others the
first definition of the name. -/
def ofExport (t : Text) (found : FoundExport) : Except RegionError (Option Region) :=
  if found.anonymous then
    match t.indexFrom? "default" found.offset with
    | some i => .ok (some ⟨.anonymous, found.offset, i + "default".length,
        t.slice found.offset (stop t found.offset)⟩)
    | none => .error .noDefaultWord
  else
    .ok <| (head found.name).first? t 0 |>.map fun (start, kind, behind) =>
      ⟨kind, start, behind.offset, t.slice start (stop t start)⟩

/-- What the first parenthesis of a text encloses. If it is not closed, everything up to the next
closing parenthesis. -/
def parenContents? (t : Text) : Option Text := do
  let i ← t.indexFrom? "(" 0
  match t.balancedSpan i with
  | some (start, stop) => return t.slice start stop
  | none =>
    let close ← t.indexFrom? ")" i
    return t.slice (i + 1) close

def singleParameter : Matcher String :=
  (do asyncWord; parameter) <|> parameter
where
  parameter : Matcher String := do
    let name ← identifier
    blanks; literal "=>"
    return name

def functionStart : Matcher Unit := do
  maybe asyncWord
  wholeWord "function"

/-- The parameter list behind at most `depth` wrappers, or the single parameter found on the
way. -/
def parameterList? : Nat → Option Text → Option (Text ⊕ String)
  | _, none => none
  | 0, some inner => some (.inl inner)
  | depth + 1, some inner =>
    let stripped := inner.stripLeft
    if stripped.startsWith "(" || functionStart.fits stripped then
      parameterList? depth (parenContents? stripped)
    else
      match singleParameter ⟨none, 0, stripped⟩ with
      | some (name, _) => some (.inr name)
      | none => some (.inl inner)

def itemName (item : Text) : String :=
  let item := item.strip
  let item := if item.startsWith "..." then item.drop 3 else item
  Text.toString (Text.strip (item.takeWhile (fun c => c ≠ ':' && c ≠ '=' && c ≠ '?')))

def cleanNames (items : List Text) : List String :=
  items.foldl (fun names item =>
    let name := itemName item
    if Name.isIdentifier name && !names.contains name then names ++ [name] else names) []

/-- The names in a parameter list: the keys if it starts with an object pattern, and otherwise all
that are no patterns. -/
def listedNames (list : Text) : List String :=
  let stripped := list.strip
  if stripped.startsWith "\x7b" then
    match stripped.balancedSpan 0 with
    | some (start, stop) => cleanNames ((stripped.slice start stop).splitTopLevel ',')
    | none => []
  else
    cleanNames ((stripped.splitTopLevel ',').filter
      (fun p => !(p.startsWith "\x7b" || p.startsWith "[")))

def leadingParameter : Matcher String := do
  blanks; singleParameter

def parameters (r : Region) : List String :=
  let body := if r.kind = .function then (.scalar '(') :: r.body else r.body
  match leadingParameter ⟨none, 0, body⟩ with
  | some (name, _) => [name]
  | none =>
    match parameterList? 3 (parenContents? body) with
    | none => []
    | some (.inr name) => [name]
    | some (.inl list) => listedNames list

end Region
end ExportInventory.Sketch
