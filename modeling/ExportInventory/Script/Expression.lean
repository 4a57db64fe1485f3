import ExportInventory.Script.Markup

/-!
Expressions. Operators bind by level: a higher level binds closer.
-/
namespace ExportInventory.Script.Grammar
open Rule

variable (g : Grammar)

def spread : Rule :=
  node "spread_element" (mark "..." ++ g.rule .expression)

def array : Rule :=
  node "array" (grouped (mark "["
    ++ many (mark "," <|> (g.spread <|> g.rule .expression) ++ ahead (oneOf [",", "]"]))
    ++ mark "]"))

def methodDefinition (modifiers : Rule) : Rule :=
  node "method_definition" (modifiers ++ optional (modifier ["async"])
    ++ optional (modifier ["get", "set"] <|> mark "*")
    ++ field "name" g.propertyName ++ g.typedPart (mark "?")
    ++ g.callSignature ++ field "body" (g.rule .block))

def objectMember : Rule :=
  g.spread
    <|> g.methodDefinition (g.typedPart accessModifier)
    <|> node "pair" (field "key" g.propertyName ++ mark ":" ++ field "value" (g.rule .expression))
    <|> identifier "shorthand_property_identifier"

def object : Rule :=
  node "object" (grouped (mark "\x7b"
    ++ many (mark "," <|> g.objectMember ++ ahead (oneOf [",", "\x7d"])) ++ mark "\x7d"))

def arguments : Rule :=
  node "arguments" (grouped (mark "("
    ++ many (mark "," <|> (g.spread <|> g.rule .expression) ++ ahead (oneOf [",", ")"]))
    ++ mark ")"))

def parenthesized : Rule :=
  node "parenthesized_expression" (grouped (mark "(" ++ g.rule .expressions
    ++ g.typedPart (field "type" g.typeAnnotation) ++ mark ")"))

def functionValue : Rule :=
  node "function_expression" (optional (keyword "async" ++ sameLine) ++ keyword "function"
      ++ optional (field "name" (identifier "identifier")) ++ g.callSignature
      ++ field "body" (g.rule .block))
    <|> node "generator_function" (optional (keyword "async" ++ sameLine) ++ keyword "function"
      ++ mark "*" ++ optional (field "name" (identifier "identifier")) ++ g.callSignature
      ++ field "body" (g.rule .block))

def heritage : Rule :=
  if g.dialect.typed then
    node "class_heritage" (extendsClause ++ optional implementsClause <|> implementsClause)
  else node "class_heritage" (keyword "extends" ++ g.rule .unary)
where
  extendsClause : Rule :=
    node "extends_clause" (keyword "extends"
      ++ sepBy (field "value" (g.rule .unary) ++ optional (field "type_arguments" g.typeArguments))
        (mark ","))
  implementsClause : Rule :=
    node "implements_clause" (keyword "implements" ++ sepBy (g.rule .type) (mark ","))

def className : Rule := fun c =>
  if ["extends", "implements"].contains c.word then none
  else if g.dialect.typed then identifier "type_identifier" c
  else identifier "identifier" c

def classTail : Rule :=
  g.typedPart (field "type_parameters" g.typeParameters) ++ optional g.heritage
    ++ field "body" (g.rule .classBody)

def classValue : Rule :=
  node "class" (many (field "decorator" g.decorator) ++ keyword "class"
    ++ optional (field "name" g.className) ++ g.classTail)

def arrowBody : Rule :=
  mark "=>" ++ field "body" (g.rule .block <|> g.rule .expression)

/-- The signature of an arrow function; the return type is left out where it cannot stand. -/
def arrowSignature : Rule := fun c =>
  (g.typedPart (field "type_parameters" g.typeParameters)
    ++ field "parameters" (g.rule .parameters)
    ++ (if c.returns then g.typedPart (field "return_type" g.returnAnnotation) else empty)) c

/-- A line may end after the word only where the next token goes on with it. -/
def asyncWord : Rule :=
  keyword "async" ++ (sameLine <|> ahead (oneOf ["(", "<"])) ++ notAhead (mark "=>")

def arrowFunction : Rule :=
  node "arrow_function" (optional asyncWord
    ++ (field "parameter" (identifier "identifier") ++ ahead (mark "=>")
      <|> g.arrowSignature ++ ahead (mark "=>"))
    ++ g.arrowBody)

def startsArrow (c : Cursor) : Bool :=
  let here := c.atToken
  match here.rest with
  | '(' :: _ => true
  | '<' :: _ => g.dialect.typed
  | x :: _ =>
    isNameStart x && match identifier "" here with
      | some (_, d) => d.sees "=>" || here.nameHere == "async".toList
      | none => false
  | [] => false

def importValue : Rule :=
  node "meta_property" (keyword "import" ++ mark "." ++ keyword "meta")
    <|> (if g.dialect.typed then namedKeyword "import" else node "import" (keyword "import"))
      ++ ahead (oneOf ["(", "."])

def newExpression : Rule :=
  node "meta_property" (keyword "new" ++ mark "." ++ keyword "target")
    <|> node "new_expression" (keyword "new" ++ field "constructor" (g.rule .target)
      ++ g.typedPart (field "type_arguments" g.typeArguments ++ ahead (mark "("))
      ++ optional (field "arguments" g.arguments))

def markupElement : Rule :=
  if g.dialect.markup then g.rule .element else fail

def plainPrimary : Rule := fun c =>
  match c.peek? with
  | none => none
  | some '(' => g.parenthesized c
  | some '[' => g.array c
  | some '{' => g.object c
  | some '"' | some '\'' => string c
  | some '\x60' => g.templateString c
  | some '/' => regex c
  | some '<' => g.markupElement c
  | some '#' => privateName c
  | some '@' => g.classValue c
  | some x =>
    if x.isDigit || x == '.' then number c
    else
      match c.word with
      | "function" => g.functionValue c
      | "class" => g.classValue c
      | "new" => g.newExpression c
      | "import" => g.importValue c
      | "async" => (g.functionValue <|> valueName) c
      | "this" | "super" | "true" | "false" | "null" => namedKeyword c.word c
      | _ => valueName c

def primary : Rule := fun c =>
  if g.startsArrow c then (g.arrowFunction <|> g.plainPrimary) c else g.plainPrimary c

def optionalChain : Rule := fun c =>
  let here := c.atToken
  match here.rest with
  | '?' :: '.' :: x :: _ =>
    if x.isDigit then none
    else field "optional_chain" (take "optional_chain" true ['?', '.']) here
  | _ => none

/-- Characters that cannot start an operand, so that type arguments before them stand alone. -/
def endsOperand (c : Cursor) : Bool :=
  match c.atToken.rest with
  | [] => true
  | x :: _ => [';', ',', ')', ']', '}', ':', '=', '?', '|', '&'].contains x || c.endsStatement

/-- One suffix of an expression. Calls are left alone in the target of `new`. -/
def suffix (calls : Bool) (base : List Tree) : Rule := fun c =>
  let here := c.atToken
  match here.rest with
  | '.' :: x :: _ =>
    if x == '.' then none
    else after "member_expression" (some "object") base
      (mark "." ++ field "property" (privateName <|> anyWord "property_identifier")) c
  | '?' :: '.' :: _ =>
    if !calls then none
    else
      (after "call_expression" (some "function") base (optionalMark
          ++ g.typedPart (field "type_arguments" g.typeArguments)
          ++ field "arguments" g.arguments)
        <|> after "subscript_expression" (some "object") base (optionalChain
          ++ grouped (mark "[" ++ field "index" (g.rule .expressions) ++ mark "]"))
        <|> after "member_expression" (some "object") base (optionalChain
          ++ field "property" (privateName <|> anyWord "property_identifier"))) c
  | '[' :: _ =>
    after "subscript_expression" (some "object") base
      (grouped (mark "[" ++ field "index" (g.rule .expressions) ++ mark "]")) c
  | '(' :: _ =>
    if calls then
      after "call_expression" (some "function") base (field "arguments" g.arguments) c
    else none
  | '\x60' :: _ =>
    after "call_expression" (some "function") base (field "arguments" g.templateString) c
  | '!' :: rest =>
    if g.dialect.typed && rest.head? != some '=' then
      after "non_null_expression" none base (sameLine ++ mark "!") c
    else none
  | '<' :: _ =>
    if g.dialect.typed && calls then
      (after "call_expression" (some "function") base
          (field "type_arguments" g.typeArguments ++ field "arguments" g.arguments)
        <|> after "instantiation_expression" none base
          (field "type_arguments" g.typeArguments ++ guard endsOperand)) c
    else none
  | _ => none
where
  optionalMark : Rule := if g.dialect.typed then mark "?." else optionalChain

def suffixes (calls : Bool) : Nat → List Tree → Rule
  | 0, base => fun c => some (base, c)
  | fuel + 1, base => fun c =>
    match g.suffix calls base c with
    | none => some (base, c)
    | some (t, d) => suffixes calls fuel t d

def chained (calls : Bool) : Rule := fun c => do
  let (base, c) ← g.primary c
  g.suffixes calls (c.rest.length + 1) base c

/-- Operators between two expressions, with their levels; longer ones stand before those that
start them. -/
def operators : List (String × Nat) :=
  [(">>>", 9), ("===", 7), ("!==", 7), ("**", 12), ("??", 1), ("||", 2), ("&&", 3), ("==", 7),
    ("!=", 7), ("<=", 8), (">=", 8), ("<<", 9), (">>", 9), ("|", 4), ("^", 5), ("&", 6), ("<", 8),
    (">", 8), ("+", 10), ("-", 10), ("*", 11), ("/", 11), ("%", 11)]

def assignmentOperators : List String :=
  [">>>=", "**=", "<<=", ">>=", "&&=", "||=", "??=", "+=", "-=", "*=", "/=", "%=", "&=", "|=",
    "^="]

def operator? (c : Cursor) : Option (String × Nat) :=
  let here := c.atToken
  if assignmentOperators.any here.startsWith || here.startsWith "++" || here.startsWith "--" then
    none
  else
    match operators.find? (fun o => here.startsWith o.1) with
    | some o => some o
    | none =>
      let name := here.nameHere
      if name == "instanceof".toList then some ("instanceof", 8)
      else if name == "in".toList && c.ins then some ("in", 8)
      else none

def operatorToken (s : String) : Rule :=
  if s.any Char.isAlpha then keyword s else mark s

def typeCast (base : List Tree) : Rule := fun c =>
  if !g.dialect.typed || (c.breaks && c.lineBefore) then none
  else
    match c.word with
    | "as" => after "as_expression" none base (keyword "as" ++ (keyword "const" <|> g.rule .type)) c
    | "satisfies" =>
      after "satisfies_expression" none base (keyword "satisfies" ++ g.rule .type) c
    | _ => none

def operatorTail (level : Nat) : Nat → List Tree → Rule
  | 0, base => fun c => some (base, c)
  | fuel + 1, base => fun c =>
    match operator? c with
    | some (s, l) =>
      if l < level then some (base, c)
      else
        let right := g.rule (.binary (if s == "**" then l else l + 1))
        match after "binary_expression" (some "left") base
            (field "operator" (operatorToken s) ++ field "right" right) c with
        | some (t, d) => operatorTail level fuel t d
        | none => some (base, c)
    | none =>
      if level ≤ 1 then
        match g.typeCast base c with
        | some (t, d) => operatorTail level fuel t d
        | none => some (base, c)
      else some (base, c)

def binary (level : Nat) : Rule := fun c => do
  let (base, c) ← g.rule .unary c
  g.operatorTail level (c.rest.length + 1) base c

def target : Rule := fun c =>
  if c.word == "new" then g.newExpression c else g.chained false c

def updateExpression (s : String) : Rule :=
  node "update_expression" (field "operator" (mark s) ++ field "argument" (g.rule .unary))

def unaryOperator (operator : Rule) : Rule :=
  node "unary_expression" (field "operator" operator ++ field "argument" (g.rule .unary))

def awaited : Rule := fun c => do
  let (base, c) ← g.rule .unary c
  match g.typeCast base c with
  | some r => some r
  | none => some (base, c)

def unary : Rule := fun c =>
  let here := c.atToken
  match here.rest with
  | '+' :: '+' :: _ => g.updateExpression "++" c
  | '-' :: '-' :: _ => g.updateExpression "--" c
  | '!' :: _ => g.unaryOperator (mark "!") c
  | '~' :: _ => g.unaryOperator (mark "~") c
  | '+' :: _ => g.unaryOperator (mark "+") c
  | '-' :: _ => g.unaryOperator (mark "-") c
  | '<' :: _ =>
    if g.dialect == .typescript then
      (g.arrowFunction <|> node "type_assertion" (g.typeArguments ++ g.rule .unary)) c
    else postfixed c
  | _ =>
    match c.word with
    | "typeof" | "void" | "delete" => g.unaryOperator (keyword c.word) c
    | "await" => (node "await_expression" (keyword "await" ++ g.awaited) <|> postfixed) c
    | _ => postfixed c
where
  postfixed : Rule := fun c => do
    let (base, c) ← g.chained true c
    updated (c.rest.length + 1) base c
  updated : Nat → List Tree → Rule
    | 0, base => fun c => some (base, c)
    | fuel + 1, base => fun c =>
      if (c.sees "++" || c.sees "--") && !c.lineBefore then do
        let (t, c) ← after "update_expression" (some "argument") base
          (field "operator" (mark "++" <|> mark "--")) c
        updated fuel t c
      else some (base, c)

def alternatives (base : List Tree) : Rule := fun c =>
  let branch (consequence : Rule) : Rule :=
    after "ternary_expression" (some "condition") base
      (mark "?" ++ field "consequence" consequence ++ mark ":"
        ++ field "alternative" (g.rule .expression))
  (branch (g.rule .expression) <|> branch (withoutReturns (g.rule .expression))) c

def conditional : Rule := fun c => do
  let (base, c) ← g.rule (.binary 1) c
  let here := c.atToken
  match here.rest with
  | '?' :: '.' :: x :: _ => if x.isDigit then g.alternatives base c else some (base, c)
  | '?' :: _ =>
    match g.alternatives base c with
    | some r => some r
    | none => some (base, c)
  | _ => some (base, c)

def assignable : List String :=
  ["identifier", "undefined", "member_expression", "subscript_expression", "non_null_expression",
    "parenthesized_expression"]

def destructuringAssignment : Rule :=
  node "assignment_expression" (field "left" g.destructuring ++ assignMark
    ++ field "right" (g.rule .expression))

def assignment (base : List Tree) : Rule := fun c =>
  if !base.all (·.isOneOf assignable) then none
  else if (assignMark c).isSome then
    after "assignment_expression" (some "left") base
      (assignMark ++ field "right" (g.rule .expression)) c
  else
    match assignmentOperators.find? c.sees with
    | some s => after "augmented_assignment_expression" (some "left") base
        (field "operator" (mark s) ++ field "right" (g.rule .expression)) c
    | none => none

def yieldExpression : Rule := fun c => do
  let (word, d) ← keyword "yield" c
  if d.sees "*" then node "yield_expression" (given none word ++ mark "*" ++ g.rule .expression) d
  else if d.endsStatement || d.sees ")" || d.sees "]" || d.sees "," || d.sees ";" || d.sees ":" then
    node "yield_expression" (given none word) d
  else node "yield_expression" (given none word ++ g.rule .expression) d

def assigned : Rule := fun c =>
  match g.conditional c with
  | none => if c.sees "\x7b" || c.sees "[" then g.destructuringAssignment c else none
  | some (base, d) =>
    if base.all (·.isOneOf ["object", "array"]) && (assignMark d).isSome then
      g.destructuringAssignment c
    else
      match g.assignment base d with
      | some r => some r
      | none => some (base, d)

def expression : Rule := fun c =>
  if c.word == "yield" then (g.yieldExpression <|> g.assigned) c else g.assigned c

def expressions : Rule := fun c => do
  let (first, d) ← g.rule .expression c
  if d.sees "," then
    match node "sequence_expression" (given none first
        ++ many (mark "," ++ g.rule .expression)) d with
    | some r => if r.1.all (fun t => t.children.length ≤ 1) then some (first, d) else some r
    | none => some (first, d)
  else some (first, d)

end ExportInventory.Script.Grammar
