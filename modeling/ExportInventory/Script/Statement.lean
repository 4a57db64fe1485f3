import ExportInventory.Script.Class

/-!
Statements and declarations, and the whole program.
-/
namespace ExportInventory.Script.Grammar
open Rule

variable (g : Grammar)

def block : Rule :=
  node "statement_block" (blocked (mark "\x7b" ++ many (g.rule .statement) ++ mark "\x7d"))

def declarator : Rule :=
  g.typedOnly (node "variable_declarator" (field "name" (identifier "identifier") ++ mark "!"
      ++ field "type" g.typeAnnotation))
    <|> node "variable_declarator" (field "name" g.binding
      ++ g.typedPart (field "type" g.typeAnnotation) ++ optional g.initializer)

def declarators : Rule := sepBy g.declarator (mark ",")

def lexicalDeclaration (ending : Rule) : Rule :=
  node "lexical_declaration" (field "kind" (anyKeyword ["let", "const"])
    ++ ahead (g.destructuring <|> identifier "") ++ g.declarators ++ ending)

def variableDeclaration (ending : Rule) : Rule :=
  node "variable_declaration" (keyword "var" ++ g.declarators ++ ending)

def functionHead : Rule :=
  optional (keyword "async" ++ sameLine) ++ keyword "function"

def functionDeclaration : Rule :=
  node "function_declaration" (functionHead ++ field "name" (identifier "identifier")
      ++ g.callSignature ++ field "body" (g.rule .block))
    <|> node "generator_function_declaration" (functionHead ++ mark "*"
      ++ field "name" (identifier "identifier") ++ g.callSignature ++ field "body" (g.rule .block))
    <|> g.typedOnly (node "function_signature" (functionHead
      ++ field "name" (identifier "identifier") ++ g.callSignature
      ++ notAhead (mark "\x7b") ++ semicolon))

def classDeclaration : Rule :=
  node "class_declaration" (many (field "decorator" g.decorator) ++ keyword "class"
    ++ field "name" g.className ++ g.classTail)

def abstractClass : Rule :=
  node "abstract_class_declaration" (many (field "decorator" g.decorator) ++ keyword "abstract"
    ++ keyword "class" ++ field "name" g.className ++ g.classTail)

/-- A function or class with a name starts here, which cannot be an expression. -/
def startsNamed : Rule :=
  functionHead ++ optional (mark "*") ++ identifier "" <|> keyword "class" ++ g.className

def interfaceDeclaration : Rule :=
  node "interface_declaration" (keyword "interface" ++ field "name" (identifier "type_identifier")
    ++ optional (field "type_parameters" g.typeParameters)
    ++ optional (node "extends_type_clause" (keyword "extends"
      ++ sepBy (field "type" g.typeReference) (mark ",")))
    ++ field "body" (g.objectType "interface_body"))

def enumBody : Rule :=
  node "enum_body" (grouped (mark "\x7b"
    ++ many (mark "," <|> (node "enum_assignment" (field "name" g.propertyName ++ g.initializer)
      <|> field "name" g.propertyName) ++ ahead (oneOf [",", "\x7d"]))
    ++ mark "\x7d"))

def enumDeclaration : Rule :=
  node "enum_declaration" (optional (keyword "const") ++ keyword "enum"
    ++ field "name" (identifier "identifier") ++ field "body" g.enumBody)

def typeAlias : Rule :=
  node "type_alias_declaration" (keyword "type" ++ sameLine
    ++ field "name" (identifier "type_identifier")
    ++ optional (field "type_parameters" g.typeParameters) ++ mark "=" ++ field "value" (g.rule .type)
    ++ semicolon)

def moduleName : Rule :=
  string <|> dottedName "property_identifier" "nested_identifier" "object" "property"
    <|> identifier "identifier"

def moduleDeclaration (kind word : String) : Rule :=
  node kind (keyword word ++ sameLine ++ field "name" moduleName
    ++ optional (field "body" (g.rule .block)))

def importAlias : Rule :=
  node "import_alias" (keyword "import" ++ identifier "identifier" ++ mark "="
    ++ (dottedName "property_identifier" "nested_identifier" "object" "property"
      <|> identifier "identifier" ++ notAhead (mark "(")) ++ semicolon)

def typedDeclaration : Rule := fun c =>
  match c.word with
  | "interface" => g.interfaceDeclaration c
  | "enum" | "const" => g.enumDeclaration c
  | "type" => g.typeAlias c
  | "namespace" => g.moduleDeclaration "internal_module" "namespace" c
  | "module" => g.moduleDeclaration "module" "module" c
  | "abstract" => g.abstractClass c
  | "import" => importAlias c
  | _ => none

def declaration : Rule := fun c =>
  match c.word with
  | "var" => g.variableDeclaration semicolon c
  | "let" => g.lexicalDeclaration semicolon c
  | "const" => (g.typedOnly g.enumDeclaration <|> g.lexicalDeclaration semicolon) c
  | "function" | "async" => g.functionDeclaration c
  | "class" => g.classDeclaration c
  | "" => if c.sees "@" then (g.classDeclaration <|> g.typedOnly g.abstractClass) c else none
  | _ => g.typedOnly g.typedDeclaration c

def ambientDeclaration : Rule :=
  node "ambient_declaration" (keyword "declare" ++ sameLine
    ++ (keyword "global" ++ g.rule .block <|> g.declaration))

def anyDeclaration : Rule :=
  g.typedOnly g.ambientDeclaration <|> g.declaration

/-- The name under which a module exports something; `default` is a plain name only in the typed
dialects. -/
def exportedName : Rule :=
  if g.dialect.typed then anyWord "identifier" <|> string
  else identifier "identifier" <|> string <|> keyword "default"

def fromClause : Rule :=
  keyword "from" ++ field "source" string

def typeOnlyWord : Rule :=
  anyKeyword ["type", "typeof"] ++ guard (fun c =>
    match c.peek? with
    | some x => (isNameStart x && c.word != "as") || x == '"' || x == '\''
    | none => false)
    <|> keyword "type" ++ ahead (keyword "as" ++ keyword "as")

def importSpecifier : Rule :=
  node "import_specifier" (g.typedPart typeOnlyWord
    ++ (field "name" g.exportedName ++ keyword "as" ++ field "alias" (identifier "identifier")
      <|> field "name" (identifier "identifier")))

def namedImports : Rule :=
  node "named_imports" (grouped (mark "\x7b"
    ++ many (mark "," <|> g.importSpecifier ++ ahead (oneOf [",", "\x7d"])) ++ mark "\x7d"))

def namespaceImport : Rule :=
  node "namespace_import" (mark "*" ++ keyword "as" ++ identifier "identifier")

def importClause : Rule :=
  node "import_clause" (namespaceImport <|> g.namedImports
    <|> identifier "identifier" ++ optional (mark "," ++ (namespaceImport <|> g.namedImports)))

def importAttribute : Rule :=
  node "import_attribute" (anyKeyword ["with", "assert"] ++ g.object)

def importRequire : Rule :=
  node "import_require_clause" (identifier "identifier" ++ mark "=" ++ keyword "require"
    ++ grouped (mark "(" ++ field "source" string ++ mark ")"))

def importStatement : Rule :=
  node "import_statement" (keyword "import"
    ++ (g.typedOnly (anyKeyword ["type", "typeof"] ++ imported) <|> imported)
    ++ optional g.importAttribute ++ semicolon)
where
  imported : Rule :=
    g.importClause ++ fromClause <|> g.typedOnly importRequire <|> field "source" string

def exportSpecifier : Rule :=
  node "export_specifier" (g.typedPart typeOnlyWord ++ field "name" g.exportedName
    ++ optional (keyword "as" ++ field "alias" g.exportedName))

def exportClause : Rule :=
  node "export_clause" (grouped (mark "\x7b"
    ++ many (mark "," <|> g.exportSpecifier ++ ahead (oneOf [",", "\x7d"])) ++ mark "\x7d"))

def namespaceExport : Rule :=
  node "namespace_export" (mark "*" ++ keyword "as" ++ g.exportedName)

def exported : Rule := fun c =>
  match c.peek? with
  | some '*' =>
    ((g.namespaceExport <|> mark "*") ++ fromClause ++ optional g.importAttribute ++ semicolon) c
  | some '{' =>
    (g.exportClause ++ optional (fromClause ++ optional g.importAttribute) ++ semicolon) c
  | some '=' => g.typedOnly (mark "=" ++ g.rule .expression ++ semicolon) c
  | _ =>
    match c.word with
    | "default" => (keyword "default" ++ (field "declaration" g.anyDeclaration
        <|> notAhead g.startsNamed ++ field "value" (g.rule .expression) ++ semicolon)) c
    | "type" => (g.typedOnly (keyword "type" ++ (g.exportClause ++ optional fromClause
        <|> (g.namespaceExport <|> mark "*") ++ fromClause) ++ semicolon)
        <|> field "declaration" g.anyDeclaration) c
    | "as" => g.typedOnly (keyword "as" ++ keyword "namespace" ++ identifier "identifier"
        ++ semicolon) c
    | "import" => g.typedOnly (field "declaration" importAlias) c
    | _ => field "declaration" g.anyDeclaration c

def exportStatement : Rule :=
  node "export_statement" (many (field "decorator" g.decorator) ++ keyword "export" ++ g.exported)

def ifStatement : Rule :=
  node "if_statement" (keyword "if" ++ field "condition" g.parenthesized
    ++ field "consequence" (g.rule .statement)
    ++ optional (field "alternative" (node "else_clause"
      (keyword "else" ++ g.rule .statement))))

def emptyStatement : Rule := fun c =>
  (mark ";" c).map fun (ts, c) => (ts.map fun t => { t with kind := "empty_statement", named := true }, c)

def forHeader : Rule :=
  (field "kind" (keyword "var") ++ field "left" g.binding ++ optional (withoutIn g.initializer)
      <|> field "kind" (anyKeyword ["let", "const"]) ++ field "left" g.binding
      <|> field "left" (g.pattern <|> g.parenthesized))
    ++ field "operator" (anyKeyword ["in", "of"]) ++ field "right" (g.rule .expressions)

def forInStatement : Rule :=
  node "for_in_statement" (keyword "for" ++ optional (keyword "await")
    ++ grouped (mark "(" ++ g.forHeader ++ mark ")") ++ field "body" (g.rule .statement))

def forStatement : Rule :=
  node "for_statement" (keyword "for" ++ grouped (mark "("
    ++ (field "initializer" (g.lexicalDeclaration (mark ";") <|> g.variableDeclaration (mark ";"))
      <|> field "initializer" emptyStatement
      <|> field "initializer" (g.rule .expressions) ++ mark ";")
    ++ (field "condition" emptyStatement <|> field "condition" (g.rule .expressions ++ mark ";"))
    ++ optional (field "increment" (g.rule .expressions)) ++ mark ")")
    ++ field "body" (g.rule .statement))

def whileStatement : Rule :=
  node "while_statement" (keyword "while" ++ field "condition" g.parenthesized
    ++ field "body" (g.rule .statement))

def doStatement : Rule :=
  node "do_statement" (keyword "do" ++ field "body" (g.rule .statement) ++ keyword "while"
    ++ field "condition" g.parenthesized ++ optional semicolon)

def tryStatement : Rule :=
  node "try_statement" (keyword "try" ++ field "body" (g.rule .block)
    ++ optional (field "handler" (node "catch_clause" (keyword "catch"
      ++ optional (grouped (mark "(" ++ field "parameter" g.binding
        ++ g.typedPart (field "type" g.typeAnnotation) ++ mark ")"))
      ++ field "body" (g.rule .block))))
    ++ optional (field "finalizer" (node "finally_clause" (keyword "finally"
      ++ field "body" (g.rule .block)))))

def withStatement : Rule :=
  node "with_statement" (keyword "with" ++ field "object" g.parenthesized
    ++ field "body" (g.rule .statement))

def switchStatement : Rule :=
  node "switch_statement" (keyword "switch" ++ field "value" g.parenthesized
    ++ field "body" (node "switch_body" (blocked (mark "\x7b"
      ++ many (node "switch_case" (keyword "case" ++ field "value" (g.rule .expressions)
          ++ mark ":" ++ many (field "body" (g.rule .statement)))
        <|> node "switch_default" (keyword "default" ++ mark ":"
          ++ many (field "body" (g.rule .statement))))
      ++ mark "\x7d"))))

def jumpStatement (kind word : String) : Rule :=
  node kind (keyword word
    ++ (semicolon <|> field "label" (identifier "statement_identifier") ++ semicolon))

def returnStatement : Rule :=
  node "return_statement" (keyword "return" ++ (semicolon <|> g.rule .expressions ++ semicolon))

def throwStatement : Rule :=
  node "throw_statement" (keyword "throw" ++ g.rule .expressions ++ semicolon)

def debuggerStatement : Rule :=
  node "debugger_statement" (keyword "debugger" ++ semicolon)

def labeledStatement : Rule :=
  node "labeled_statement" (field "label" (identifier "statement_identifier") ++ mark ":"
    ++ field "body" (g.rule .statement))

def expressionStatement : Rule :=
  node "expression_statement" (g.rule .expressions ++ semicolon)

/-- A namespace that stands as a statement is an expression. -/
def namespaceStatement : Rule :=
  node "expression_statement" (g.moduleDeclaration "internal_module" "namespace" ++ semicolon)

def otherStatement : Rule :=
  g.labeledStatement <|> g.expressionStatement

def statement : Rule := fun c =>
  match c.peek? with
  | none => none
  | some '{' => g.block c
  | some ';' => emptyStatement c
  | some '@' => (g.exportStatement <|> g.anyDeclaration <|> g.expressionStatement) c
  | some '}' => none
  | _ =>
    match c.word with
    | "export" => g.exportStatement c
    | "import" => (g.typedOnly importAlias <|> g.importStatement <|> g.expressionStatement) c
    | "if" => g.ifStatement c
    | "for" => (g.forInStatement <|> g.forStatement) c
    | "while" => g.whileStatement c
    | "do" => g.doStatement c
    | "try" => g.tryStatement c
    | "with" => g.withStatement c
    | "switch" => g.switchStatement c
    | "break" => jumpStatement "break_statement" "break" c
    | "continue" => jumpStatement "continue_statement" "continue" c
    | "return" => g.returnStatement c
    | "throw" => g.throwStatement c
    | "debugger" => debuggerStatement c
    | "var" | "const" | "class" | "function" | "let" | "async" =>
      (g.anyDeclaration <|> notAhead g.startsNamed ++ g.otherStatement) c
    | "namespace" => (g.typedOnly g.namespaceStatement <|> g.otherStatement) c
    | "interface" | "enum" | "type" | "module" | "abstract" | "declare" =>
      (g.typedOnly g.anyDeclaration <|> g.otherStatement) c
    | _ => g.otherStatement c

end ExportInventory.Script.Grammar
