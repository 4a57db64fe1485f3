import ExportInventory.Sketch.Region
import ExportInventory.Text.Comment

/-!
The report on a text by its look alone. A strict pass asks for the shape of a component; if it
finds none, a permissive pass takes any markup in a body for one.
-/
namespace ExportInventory.Sketch
open Matcher

def tagStart : Matcher Unit := do
  literal "<"
  let _ ← one (fun c => c.is Char.isAlpha || c = '>')

def maybeParen : Matcher Unit := do
  blanks; maybe (literal "("); blanks

def returnMarkup : Matcher Unit := do
  boundary; literal "return"; maybeParen; tagStart

def arrowMarkup : Matcher Unit := do
  literal "=>"; maybeParen; tagStart

def markupFactory : Matcher Unit :=
  (do boundary; maybe (literal "React."); literal "createElement"; blanks; literal "(")
    <|> (do boundary; literal "jsx"; maybe (literal "s"); blanks; literal "(")

def wrapperInit : Matcher Unit := do
  blanks; maybe (literal "React.")
  anyWord ["memo", "forwardRef", "lazy", "withRouter", "connect"]

def functionInit : Matcher Unit := do
  blanks
  (do asyncWord; functionValue) <|> functionValue
where
  functionValue : Matcher Unit :=
    wholeWord "function" <|> literal "("
      <|> (do let _ ← identifier; blanks; literal "=>") <|> literal "<"

private def isTagNamePart (c : CodePoint) : Bool := c.isWord || c = '.' || c = ':' || c = '-'

def looseMarkup : Matcher Unit := do
  literal "<"
  (do let _ ← one (·.is Char.isAlpha)
      let _ ← span isTagNamePart
      (do let _ ← one CodePoint.isBlank) <|> (do maybe (literal "/"); literal ">"))
    <|> literal ">"
    <|> (do literal "/"; let _ ← one (·.is Char.isAlpha))

def defaultPropsOf (name : String) : Matcher Unit := do
  boundary; literal name; literal ".defaultProps"; blanks; literal "="

structure Candidate where
  found : FoundExport
  region : Region
deriving DecidableEq, Repr

/-- What the analysis of a text rests on: the text with its comments blanked, the path of the file
and the exports found. `fragmentMarkup` says whether a parser finds markup in a piece of text. -/
structure Analysis where
  text : Text
  path : String
  exports : FoundExports
  fragmentMarkup : Text → Bool

namespace Analysis

def ofText (t : Text) (path : String) (fragmentMarkup : Text → Bool) : Analysis :=
  let text := t.blankComments
  ⟨text, path, .discover text (Name.ofPath path) Strategy.ordered, fragmentMarkup⟩

variable (a : Analysis)

def defaultName? : Option String := a.exports.default.map (·.name)

def candidates : List Candidate :=
  a.exports.ordered.filterMap fun found =>
    match Region.ofExport a.text found with
    | .ok (some region) => some ⟨found, region⟩
    | _ => none

def record (c : Candidate) (kind : RecordKind) : Record :=
  let exportType := if a.defaultName? = some c.found.name then Visibility.default else .named
  let name := match c.found.exportedAs with
    | some asName => if asName ≠ "" ∧ exportType = .named then asName else c.found.name
    | none => c.found.name
  ⟨name, exportType, a.path, kind, if c.region.isClass then [] else c.region.parameters,
    (defaultPropsOf c.found.name).occurs a.text 0, some (a.text.lineOf c.region.start)⟩

def isShaped (r : Region) : Bool :=
  returnMarkup.occurs r.text 0 || arrowMarkup.occurs r.text 0 || markupFactory.occurs r.text 0

def isPlainVariable (r : Region) : Bool := r.kind = .variable && !functionInit.fits r.body

/-- The kind of a candidate by its shape; variables that hold other things have none. -/
def strictKind? (c : Candidate) : Option RecordKind :=
  if c.region.isClass then some .component
  else if c.region.kind = .variable && wrapperInit.fits c.region.body then some .component
  else if isPlainVariable c.region then none
  else if isShaped c.region then some .component
  else some .function

def isLoose (c : Candidate) : Bool :=
  if isPlainVariable c.region then false
  else
    match c.region.text.indexFrom? "\x7b" (c.region.bodyStart - c.region.start) with
    | none => false
    | some brace => looseMarkup.occurs c.region.text brace || a.fragmentMarkup c.region.text

def strict (c : Candidate) : Option Record := (strictKind? c).map (a.record c)

def permissive (c : Candidate) : Option Record :=
  if a.isLoose c then some (a.record c .component) else a.strict c

/-- The records of the first pass that finds a component, of the second pass at last. -/
def records : List Record :=
  let first := a.candidates.filterMap a.strict
  if a.candidates.isEmpty || first.any Record.isComponent then first
  else a.candidates.filterMap a.permissive

def report : Report :=
  let records := a.records
  .ofRecords (if records.isEmpty then [.bare (a.defaultName?.getD (Name.ofPath a.path)) a.path]
    else records) a.path

end Analysis

def report (t : Text) (path : String) (fragmentMarkup : Text → Bool) : Report :=
  (Analysis.ofText t path fragmentMarkup).report

end ExportInventory.Sketch
