import ExportInventory.Script.Expression

/-!
Bodies of classes.
-/
namespace ExportInventory.Script.Grammar
open Rule

variable (g : Grammar)

def staticBlock : Rule :=
  node "class_static_block" (keyword "static" ++ field "body" (g.rule .block))

def plainField : Rule :=
  node "field_definition" (many (field "decorator" g.decorator) ++ optional (modifier ["static"])
    ++ field "property" g.propertyName ++ optional g.initializer)

def plainMember : Rule :=
  mark ";"
    <|> field "member" g.staticBlock
    <|> field "member" (g.methodDefinition
      (many (field "decorator" g.decorator) ++ optional (modifier ["static"])))
      ++ optional (mark ";")
    <|> field "member" g.plainField ++ semicolon

def typedField : Rule :=
  node "public_field_definition" (many (field "decorator" g.decorator)
    ++ optional (modifier ["declare"]) ++ optional accessModifier ++ optional (modifier ["declare"])
    ++ many (modifier ["static", "readonly", "abstract", "accessor"] <|> overrideModifier)
    ++ field "name" g.propertyName ++ optional (mark "?" <|> mark "!")
    ++ optional (field "type" g.typeAnnotation) ++ optional g.initializer)

def methodModifiers : Rule :=
  optional accessModifier ++ optional (modifier ["static"]) ++ optional overrideModifier
    ++ optional (modifier ["readonly"])

def abstractMethod : Rule :=
  node "abstract_method_signature" (optional accessModifier ++ modifier ["abstract"]
    ++ optional overrideModifier ++ optional (modifier ["get", "set"] <|> mark "*")
    ++ field "name" g.propertyName ++ optional (mark "?") ++ g.callSignature)

def memberEnd : Rule := mark "," <|> semicolon

def typedMember : Rule :=
  mark ";"
    <|> g.staticBlock
    <|> g.methodDefinition methodModifiers ++ optional (mark ";")
    <|> g.abstractMethod ++ memberEnd
    <|> g.methodSignature ++ memberEnd
    <|> g.indexSignature ++ memberEnd
    <|> g.typedField ++ memberEnd
    <|> g.decorator

def classBody : Rule :=
  node "class_body" (blocked (mark "\x7b"
    ++ many (if g.dialect.typed then g.typedMember else g.plainMember) ++ mark "\x7d"))

end ExportInventory.Script.Grammar
