import ExportInventory.Export.Table
import ExportInventory.Wrapper

/-!
Reading the exports off a parsed source. Nothing is classified here, so that a declaration may
come before or after its export.
-/
namespace ExportInventory.ExportTable

variable (s : Source)

def enter (t : ExportTable) (b : Binding) : ExportTable :=
  if Name.isIdentifier b.name && b.name != "default" then t.add b else t

def enterName (t : ExportTable) (name : String) (visibility : Visibility) : ExportTable :=
  t.enter ⟨name, visibility, none, false⟩

/-- Enters a default export under its own name, or the name of the file if it has none. -/
def enterAnonymous (t : ExportTable) (value : Tree) : ExportTable :=
  let name := match value.child? "name" with
    | some n => s.textOf n
    | none => Name.ofPath s.path
  (t.addAnonymous name value).enterName name .default

def enterDeclared (t : ExportTable) (declaration : Tree) (visibility : Visibility) : ExportTable :=
  match declaration.child? "name" with
  | some n => t.enterName (s.textOf n) visibility
  | none => t.enterAnonymous s declaration

def enterDeclarator (t : ExportTable) (declarator : Tree) : ExportTable :=
  if declarator.kind != "variable_declarator" then t
  else
    match declarator.child? "name" with
    | some n => if n.kind == "identifier" then t.enterName (s.textOf n) .named else t
    | none => t

def enterDeclaration (t : ExportTable) (declaration : Tree) (visibility : Visibility) :
    ExportTable :=
  if declaration.isOneOf (Kind.functionDeclarations ++ Kind.classDeclarations) then
    t.enterDeclared s declaration visibility
  else if declaration.isOneOf Kind.variableDeclarations then
    declaration.namedChildren.foldl (enterDeclarator s) t
  else t

def enterDefault (t : ExportTable) (value : Tree) : ExportTable :=
  if value.kind == "identifier" then t.enterName (s.textOf value) .default
  else if value.kind == "call_expression" then
    match Wrapper.inner? s value with
    | none => t
    | some inner =>
      if inner.kind == "identifier" then t.enterName (s.textOf inner) .default
      else if inner.isOneOf Kind.inlineValues then t.enterAnonymous s inner
      else t
  else if value.isOneOf Kind.inlineValues then t.enterAnonymous s value
  else t

/-- The binding of a specifier with the given name and alias. `default as x` exports `x`; an alias
that is no identifier counts as none. -/
def bindingOf (name : String) (asName : Option String) (reexport : Bool) : Binding :=
  let (name, asName) := if name = "default" then (asName.getD "", none) else (name, asName)
  let asName := asName.filter (fun a => a = "default" || Name.isIdentifier a)
  if asName = some "default" && !reexport then ⟨name, .default, none, false⟩
  else ⟨name, .named, asName, reexport⟩

def enterSpecifier (reexport : Bool) (t : ExportTable) (specifier : Tree) : ExportTable :=
  if specifier.kind != "export_specifier" then t
  else
    match specifier.child? "name" with
    | none => t
    | some n =>
      t.enter (bindingOf (s.textOf n) ((specifier.child? "alias").map s.textOf) reexport)

def enterClauses (t : ExportTable) (statement : Tree) : ExportTable :=
  let reexport := (statement.child? "source").isSome
  (statement.namedChildren.filter (fun c => c.kind == "export_clause")).foldl
    (fun t clause => clause.namedChildren.foldl (enterSpecifier s reexport) t) t

def enterStatement (t : ExportTable) (statement : Tree) : ExportTable :=
  let isDefault := statement.children.any (fun c => c.kind == "default")
  match statement.child? "declaration" with
  | some declaration =>
    t.enterDeclaration s declaration (if isDefault then .default else .named)
  | none =>
    match statement.child? "value" with
    | some value => if isDefault then t.enterDefault s value.unwrapped else t.enterClauses s statement
    | none => t.enterClauses s statement

def ofSource : ExportTable :=
  (s.tree.preorder.filter (fun n => n.kind == "export_statement")).foldl (enterStatement s) .empty

end ExportInventory.ExportTable
