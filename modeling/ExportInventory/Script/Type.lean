import ExportInventory.Script.Grammar

/-!
Type annotations of the typed dialects.
-/
namespace ExportInventory.Script.Grammar
open Rule

variable (g : Grammar)

def typeArguments : Rule :=
  node "type_arguments" (grouped (mark "<" ++ sepBy (g.rule .type) (mark ",")
    ++ optional (mark ",") ++ mark ">"))

def typeParameter : Rule :=
  node "type_parameter" (
    optional (keyword "const" ++ ahead (identifier ""))
    ++ optional (keyword "in" ++ ahead (identifier ""))
    ++ optional (keyword "out" ++ ahead (identifier ""))
    ++ field "name" (identifier "type_identifier")
    ++ optional (field "constraint" (node "constraint" (keyword "extends" ++ g.rule .type)))
    ++ optional (field "value" (node "default_type" (mark "=" ++ g.rule .type))))

def typeParameters : Rule :=
  node "type_parameters" (grouped (mark "<" ++ sepBy g.typeParameter (mark ",")
    ++ optional (mark ",") ++ mark ">"))

def typeAnnotation : Rule :=
  node "type_annotation" (mark ":" ++ g.rule .type)

def thisValue : Rule := namedKeyword "this"

def typePredicate : Rule :=
  node "type_predicate" (field "name" (thisValue <|> identifier "identifier")
    ++ sameLine ++ keyword "is" ++ field "type" (g.rule .type))

def assertion : Rule :=
  node "asserts" (keyword "asserts" ++ sameLine
    ++ (g.typePredicate <|> thisValue <|> identifier "identifier"))

def returnAnnotation : Rule :=
  node "asserts_annotation" (mark ":" ++ g.assertion)
    <|> node "type_predicate_annotation" (mark ":" ++ g.typePredicate)
    <|> g.typeAnnotation

def callSignature : Rule :=
  g.typedPart (field "type_parameters" g.typeParameters)
    ++ field "parameters" (g.rule .parameters)
    ++ g.typedPart (field "return_type" g.returnAnnotation)

def functionType : Rule :=
  node "function_type" (optional (field "type_parameters" g.typeParameters)
    ++ field "parameters" (g.rule .parameters) ++ mark "=>"
    ++ field "return_type" (g.assertion <|> g.typePredicate <|> g.rule .type))

def constructorType : Rule :=
  node "constructor_type" (optional (keyword "abstract") ++ keyword "new"
    ++ optional (field "type_parameters" g.typeParameters)
    ++ field "parameters" (g.rule .parameters) ++ mark "=>" ++ field "type" (g.rule .type))

def modifier (words : List String) : Rule :=
  anyKeyword words ++ guard (fun c =>
    match c.peek? with
    | some x => isNameStart x || x == '[' || x == '"' || x == '\'' || x == '#' || x == '*'
        || x.isDigit || x == '{'
    | none => false)

def accessModifier : Rule :=
  node "accessibility_modifier" (modifier ["public", "private", "protected"])

def overrideModifier : Rule :=
  node "override_modifier" (modifier ["override"])

def mappedTypeClause : Rule :=
  node "mapped_type_clause" (field "name" (identifier "type_identifier") ++ keyword "in"
    ++ field "type" (g.rule .type) ++ optional (keyword "as" ++ field "alias" (g.rule .type)))

def indexSignature : Rule :=
  node "index_signature" (
    optional (optional (field "sign" (oneOf ["-", "+"])) ++ keyword "readonly")
    ++ grouped (mark "[" ++ (g.mappedTypeClause
      <|> field "name" (identifier "identifier") ++ mark ":" ++ field "index_type" (g.rule .type))
      ++ mark "]")
    ++ field "type" (node "omitting_type_annotation" (mark "-?:" ++ g.rule .type)
      <|> node "adding_type_annotation" (mark "+?:" ++ g.rule .type)
      <|> node "opting_type_annotation" (mark "?:" ++ g.rule .type)
      <|> g.typeAnnotation))

def methodSignature : Rule :=
  node "method_signature" (optional accessModifier ++ optional (modifier ["static"])
    ++ optional overrideModifier ++ optional (modifier ["readonly"])
    ++ optional (modifier ["async"]) ++ optional (modifier ["get", "set"] <|> mark "*")
    ++ field "name" g.propertyName ++ optional (mark "?") ++ g.callSignature)

def propertySignature : Rule :=
  node "property_signature" (optional accessModifier ++ optional (modifier ["static"])
    ++ optional overrideModifier ++ optional (modifier ["readonly"])
    ++ field "name" g.propertyName ++ optional (mark "?")
    ++ optional (field "type" g.typeAnnotation))

def constructSignature : Rule :=
  node "construct_signature" (optional (keyword "abstract") ++ keyword "new"
    ++ optional (field "type_parameters" g.typeParameters)
    ++ field "parameters" (g.rule .parameters) ++ optional (field "type" g.typeAnnotation))

def objectTypeMember : Rule :=
  g.constructSignature
    <|> node "call_signature" g.callSignature
    <|> g.indexSignature
    <|> g.methodSignature
    <|> g.propertySignature

def objectType (kind : String) : Rule :=
  node kind (blocked (mark "\x7b" ++ optional (oneOf [",", ";"])
    ++ many (g.objectTypeMember ++ (mark "," <|> semicolon)) ++ mark "\x7d"))

def predefinedTypes : List String :=
  ["any", "number", "boolean", "string", "symbol", "void", "unknown", "never", "object"]

def dottedName (last : String) (kind : String) (moduleRole lastRole : String) : Rule := fun c => do
  let (base, c) ← identifier "identifier" c
  go (c.rest.length + 1) base c
where
  go : Nat → List Tree → Rule
    | 0, _ => fail
    | fuel + 1, base => fun c => do
      let (dot, c) ← mark "." c
      let (name, d) ← anyWord last c
      if d.sees "." then
        let (prop, d) ← anyWord "property_identifier" c
        let role := some "object"
        let inner := base.map (·.withField role)
        let t := gather "nested_identifier" (inner ++ dot ++ prop.map (·.withField (some "property")))
          d.offset
        go fuel [t] d
      else
        let head := base.map (·.withField (some moduleRole))
        some ([gather kind (head ++ dot ++ name.map (·.withField (some lastRole))) d.offset], d)

def typeName : Rule := fun c =>
  match dottedName "type_identifier" "nested_type_identifier" "module" "name" c with
  | some r => some r
  | none => identifier "type_identifier" c

def typeReference : Rule := fun c => do
  let (base, c) ← typeName c
  if c.sees "<" && !(c.breaks && c.lineBefore) then
    match after "generic_type" (some "name") base
        (field "type_arguments" g.typeArguments) c with
    | some r => some r
    | none => some (base, c)
  else some (base, c)

def queried : Rule := fun c => do
  let (base, c) ← (thisValue <|> importCall <|> identifier "identifier") c
  go (c.rest.length + 1) base c
where
  importCall : Rule :=
    node "call_expression" (field "function" (namedKeyword "import")
      ++ field "arguments" (node "arguments" (grouped (mark "(" ++ string ++ mark ")"))))
  go : Nat → List Tree → Rule
    | 0, base => fun c => some (base, c)
    | fuel + 1, base => fun c =>
      if c.sees "." then do
        let (t, c) ← after "member_expression" (some "object") base
          (mark "." ++ field "property" (privateName <|> anyWord "property_identifier")) c
        go fuel t c
      else if c.sees "<" && !(c.breaks && c.lineBefore) then
        match after "instantiation_expression" none base
            (field "type_arguments" g.typeArguments) c with
        | some r => some r
        | none => some (base, c)
      else some (base, c)

def tupleMember : Rule :=
  node "rest_type" (mark "..." ++ notAhead (identifier "" ++ (mark ":" <|> mark "?" ++ mark ":"))
      ++ g.rule .type)
    <|> node "required_parameter" (field "name" (identifier "identifier"
        <|> node "rest_pattern" (mark "..." ++ identifier "identifier"))
      ++ field "type" g.typeAnnotation)
    <|> node "optional_parameter" (field "name" (identifier "identifier") ++ mark "?"
      ++ field "type" g.typeAnnotation)
    <|> node "optional_type" (g.rule .type ++ mark "?")
    <|> g.rule .type

def tupleType : Rule :=
  node "tuple_type" (grouped (mark "[" ++ optional (sepBy g.tupleMember (mark ","))
    ++ optional (mark ",") ++ mark "]"))

def literalType : Rule :=
  node "literal_type" (string <|> number
    <|> node "unary_expression" (field "operator" (oneOf ["-", "+"]) ++ field "argument" number)
    <|> namedKeyword "true" <|> namedKeyword "false" <|> namedKeyword "null"
    <|> namedKeyword "undefined")

def templateType : Rule :=
  template "template_literal_type"
    (node "template_type" (grouped (markHere "$\x7b" ++ g.rule .type ++ mark "\x7d")))

def uniqueSymbol : Rule := fun c => do
  let (a, c) ← keyword "unique" c
  let (b, c) ← keyword "symbol" c
  return ([{ gather "unique symbol" (a ++ b) c.offset with named := false, children := [] }], c)

def simpleType : Rule := fun c =>
  match c.peek? with
  | some '(' => node "parenthesized_type" (grouped (mark "(" ++ g.rule .type ++ mark ")")) c
  | some '{' => g.objectType "object_type" c
  | some '[' => g.tupleType c
  | some '\x60' => g.templateType c
  | some '?' => node "flow_maybe_type" (mark "?" ++ g.rule .primaryType) c
  | some '*' => node "existential_type" (mark "*") c
  | _ =>
    match c.word with
    | "typeof" => node "type_query" (keyword "typeof" ++ g.queried) c
    | "import" => g.queried c
    | "this" =>
      (thisValue c).map fun (ts, c) => (ts.map fun t => { t with kind := "this_type" }, c)
    | "true" | "false" | "null" | "undefined" => literalType c
    | "keyof" =>
      (node "index_type_query" (keyword "keyof" ++ g.rule .primaryType) <|> g.typeReference) c
    | "unique" =>
      (node "predefined_type" uniqueSymbol <|> g.typeReference) c
    | w =>
      if predefinedTypes.contains w then node "predefined_type" (keyword w) c
      else if w.isEmpty then literalType c
      else g.typeReference c

def primaryType : Rule := fun c => do
  let (base, c) ← g.simpleType c
  go (c.rest.length + 1) base c
where
  go : Nat → List Tree → Rule
    | 0, base => fun c => some (base, c)
    | fuel + 1, base => fun c =>
      if c.sees "[" then
        match after "array_type" none base (grouped (mark "[" ++ mark "]")) c with
        | some (t, c) => go fuel t c
        | none =>
          match after "lookup_type" none base (grouped (mark "[" ++ g.rule .type ++ mark "]")) c with
          | some (t, c) => go fuel t c
          | none => some (base, c)
      else some (base, c)

def operandType : Rule := fun c =>
  match c.word with
  | "readonly" => (node "readonly_type" (keyword "readonly" ++ g.rule .primaryType) <|> g.primaryType) c
  | "infer" =>
    (node "infer_type" (keyword "infer" ++ identifier "type_identifier"
      ++ optional (keyword "extends" ++ g.rule .primaryType ++ notAhead (mark "?"))) <|> g.primaryType) c
  | "new" => g.constructorType c
  | "abstract" => (g.constructorType <|> g.primaryType) c
  | _ =>
    match c.peek? with
    | some '(' => (g.functionType <|> g.primaryType) c
    | some '<' => g.functionType c
    | _ => g.primaryType c

/-- Operands joined from the left by one operator, which may also stand in front. -/
def joined (kind operator : String) (operand : Rule) : Rule := fun c =>
  if c.sees operator then do
    let (t, c) ← node kind (mark operator ++ operand) c
    go (c.rest.length + 1) t c
  else do
    let (t, c) ← operand c
    go (c.rest.length + 1) t c
where
  go : Nat → List Tree → Rule
    | 0, base => fun c => some (base, c)
    | fuel + 1, base => fun c =>
      if c.sees operator && !c.sees (operator ++ operator) then
        match after kind none base (mark operator ++ operand) c with
        | some (t, c) => go fuel t c
        | none => some (base, c)
      else some (base, c)

def unionType : Rule :=
  joined "union_type" "|" (joined "intersection_type" "&" g.operandType)

def boundedInference : Rule :=
  node "infer_type" (keyword "infer" ++ identifier "type_identifier" ++ keyword "extends"
    ++ g.rule .primaryType)

def type : Rule := fun c => do
  let (base, c) ← g.unionType c
  if c.word == "extends" then
    match after "conditional_type" (some "left") base
        (keyword "extends"
          ++ field "right" (g.unionType ++ ahead (mark "?") <|> g.boundedInference) ++ mark "?"
          ++ field "consequence" (g.rule .type) ++ mark ":"
          ++ field "alternative" (g.rule .type)) c with
    | some r => some r
    | none => some (base, c)
  else some (base, c)

end ExportInventory.Script.Grammar
