import ExportInventory.Name
import ExportInventory.Record
import ExportInventory.Sketch.Matcher
import ExportInventory.Text.Bracket

/-!
Exports found by the look of the text. There are five strategies; each lists what it finds by
increasing offset.
-/
namespace ExportInventory.Sketch

/-- An export that has been found. An anonymous one goes by the name of the file. -/
structure FoundExport where
  name : String
  visibility : Visibility
  offset : Nat
  exportedAs : Option String
  anonymous : Bool
deriving DecidableEq, Repr

namespace FoundExport

def default (offset : Nat) (name : String) : FoundExport := ⟨name, .default, offset, none, false⟩

def named (offset : Nat) (name : String) : FoundExport := ⟨name, .named, offset, none, false⟩

end FoundExport

open Matcher

def enclosed (item : Matcher Unit) : Matcher Unit := do
  literal "("
  let _ ← many item
  literal ")"

def noParenthesis : Matcher Unit := do
  let _ ← one (fun c => c ≠ '(' && c ≠ ')')

/-- A piece of arguments, with parentheses nested so deep at most. -/
def argument : Nat → Matcher Unit
  | 0 => noParenthesis
  | depth + 1 => noParenthesis <|> enclosed (argument depth)

def arguments : Matcher Unit := enclosed (argument 2)

def exportDefault : Matcher Unit := do
  literal "export"; gap; literal "default"; gap

def callOf (functions : List String) : Matcher Unit := do
  maybe (literal "React.")
  anyLiteral functions
  blanks; literal "("; blanks

def outerWrappers : Matcher Nat := many (callOf ["withRouter", "memo"])

def connected : Matcher String := do
  let _ ← outerWrappers
  literal "connect"; blanks; arguments; blanks; literal "("; blanks
  let name ← identifier
  blanks; literal ")"
  return name

def connectedDefault : Matcher String := do
  exportDefault; connected

def variableWord : Matcher Unit := anyLiteral ["const", "let", "var"]

def connectedVariable : Matcher (String × String) := do
  boundary; variableWord; gap
  let bound ← identifier
  blanks; literal "="; blanks
  let wrapped ← connected
  return (bound, wrapped)

def defaultOf (name : String) : Matcher Unit := do
  exportDefault; literal name; boundary

/-- A wrapper around a name: the innermost wrapper may be of any kind. -/
def wrappedDefault : Matcher String := do
  exportDefault
  let outer ← outerWrappers
  (do callOf ["withRouter", "memo", "forwardRef", "lazy"]; wrapped)
    <|> (do guard (0 < outer); wrapped)
where
  wrapped : Matcher String := do
    let name ← identifier
    blanks
    let _ ← one (fun c => c = ',' || c = ')')
    return name

def asyncWord : Matcher Unit := spacedWord "async"

def functionWord : Matcher Unit := do
  literal "function"; blanks; maybe (literal "*"); blanks

def abstractWord : Matcher Unit := spacedWord "abstract"

def functionName : Matcher String := do
  functionWord; identifier

def className : Matcher String := do
  maybe abstractWord
  literal "class"; gap
  identifier

def declaredName : Matcher String := do
  maybe asyncWord
  functionName <|> className

def declaredDefault : Matcher String := do
  exportDefault; declaredName

def expressionWords : List String :=
  ["function", "class", "async", "await", "new", "abstract", "typeof", "void"]

def expressionWord : Matcher Unit := anyWord expressionWords

/-- The statement ends: by a semicolon, the end of the text or the end of the line. -/
def statementEnd : Matcher Unit := do
  let read ← span CodePoint.isBlank
  fun place =>
    if read.contains (.scalar '\n') || place.rest.isEmpty || place.rest.head? = some (.scalar ';') then
      some ((), place)
    else none

def nameStatement : Matcher String := do
  let name ← identifier
  statementEnd
  return name

def nameAlone : Matcher String := do
  notAhead expressionWord; nameStatement

def namedDefault : Matcher String := do
  exportDefault; nameAlone

def anonymousValue : Matcher Unit :=
  (do functionWord; literal "(")
    <|> (do literal "class"; blanks; wholeWord "extends" <|> literal "\x7b")
    <|> literal "("
    <|> (do let _ ← identifier; blanks; literal "=>")

def anonymous : Matcher Unit := (do asyncWord; anonymousValue) <|> anonymousValue

def anonymousDefault : Matcher Unit := do
  exportDefault; anonymous

def declarationWord : Matcher Unit :=
  (do variableWord; gap)
    <|> (do maybe asyncWord; literal "function"
            (do blanks; literal "*"; gap) <|> gap)
    <|> (do maybe abstractWord; literal "class"; gap)

def namedDeclaration : Matcher String := do
  literal "export"; gap
  maybe (spacedWord "declare")
  declarationWord
  identifier

def fromWord : Matcher Unit := do
  blanks; wholeWord "from"

def reexported : Matcher Bool := (do fromWord; return true) <|> return false

def exportList : Matcher (Text × Bool) := do
  literal "export"; blanks; literal "\x7b"
  let items ← span (fun c => c ≠ '}')
  literal "\x7d"
  let reexport ← reexported
  return (items, reexport)

/-- The export of one item of a list. An alias that is no identifier counts as none. -/
def listed? (offset : Nat) (item : Text) : Option FoundExport :=
  match (Text.words item).map Text.toString with
  | [] => none
  | name :: more =>
    let asName := match more with
      | ["as", asName] => if asName = "default" ∨ Name.isIdentifier asName then some asName else none
      | _ => none
    if !Name.isIdentifier name then none
    else if asName = some "default" then some (.default offset name)
    else some { FoundExport.named offset name with exportedAs := asName }

inductive Strategy where
  | connector
  | wrapper
  | default
  | namedDeclaration
  | exportList
deriving DecidableEq, Repr

namespace Strategy

def ordered : List Strategy := [connector, wrapper, default, namedDeclaration, exportList]

def label : Strategy → String
  | connector => "connector"
  | wrapper => "wrapper"
  | default => "default"
  | namedDeclaration => "named declaration"
  | exportList => "export list"

def byOffset (found : List FoundExport) : List FoundExport :=
  found.mergeSort (fun a b => a.offset ≤ b.offset)

/-- Connected components: exported directly, or through a variable that is exported as default. -/
def scanConnected (t : Text) : List FoundExport :=
  let direct := (connectedDefault.all t).map fun (offset, name) => FoundExport.default offset name
  let bound := (connectedVariable.all t).filter fun (_, name, _) => (defaultOf name).occurs t 0
  byOffset (direct ++ bound.map fun (offset, _, wrapped) => FoundExport.default offset wrapped)

def scanWrapped (t : Text) : List FoundExport :=
  (wrappedDefault.all t).map fun (offset, name) => FoundExport.default offset name

def scanDefault (t : Text) (fileName : String) : List FoundExport :=
  byOffset ((declaredDefault.all t).map (fun (offset, name) => FoundExport.default offset name)
    ++ (namedDefault.all t).map (fun (offset, name) => FoundExport.default offset name)
    ++ (anonymousDefault.all t).map fun (offset, _) =>
      { FoundExport.default offset fileName with anonymous := true })

def scanNamed (t : Text) : List FoundExport :=
  (Sketch.namedDeclaration.all t).map fun (offset, name) => FoundExport.named offset name

def scanLists (t : Text) : List FoundExport :=
  (Sketch.exportList.all t).flatMap fun (offset, items, reexport) =>
    if reexport then [] else (Text.splitTopLevel items ',').filterMap (listed? offset)

def scan (s : Strategy) (t : Text) (fileName : String) : List FoundExport :=
  match s with
  | connector => scanConnected t
  | wrapper => scanWrapped t
  | default => scanDefault t fileName
  | namedDeclaration => scanNamed t
  | exportList => scanLists t

end Strategy

structure FoundExports where
  default : Option FoundExport
  named : List FoundExport
deriving DecidableEq, Repr

namespace FoundExports

/-- Takes in one export: the first default stays, and so does the first of each name. -/
def add (e : FoundExports) (found : FoundExport) : FoundExports :=
  if found.visibility = .default then
    match e.default with
    | some _ => e
    | none => { e with default := some found }
  else if e.named.any (fun n => n.name = found.name) then e
  else { e with named := e.named ++ [found] }

def discover (t : Text) (fileName : String) (strategies : List Strategy) : FoundExports :=
  (strategies.flatMap (·.scan t fileName)).foldl add ⟨none, []⟩

def ordered (e : FoundExports) : List FoundExport :=
  match e.default with
  | some d => d :: e.named.filter (fun n => n.name ≠ d.name)
  | none => e.named

end FoundExports
end ExportInventory.Sketch
