import ExportInventory.Script.Type

/-!
Binding patterns and parameter lists.
-/
namespace ExportInventory.Script.Grammar
open Rule

variable (g : Grammar)

def assignMark : Rule :=
  mark "=" ++ guard (fun c => !(c.startsWith "=" || c.startsWith ">"))

def defaulted : Rule := fun c => do
  let (base, c) ← g.rule .pattern c
  if (assignMark c).isSome then
    after "assignment_pattern" (some "left") base
      (assignMark ++ field "right" (g.rule .expression)) c
  else some (base, c)

def restPattern : Rule :=
  node "rest_pattern" (mark "..." ++ g.rule .pattern)

def shorthandPattern : Rule :=
  identifier "shorthand_property_identifier_pattern"

def objectPatternMember : Rule :=
  g.restPattern
    <|> node "pair_pattern" (field "key" g.propertyName ++ mark ":" ++ field "value" g.defaulted)
    <|> node "object_assignment_pattern" (field "left" shorthandPattern ++ assignMark
      ++ field "right" (g.rule .expression))
    <|> shorthandPattern

def objectPattern : Rule :=
  node "object_pattern" (grouped (mark "\x7b"
    ++ many (mark "," <|> g.objectPatternMember ++ ahead (oneOf [",", "\x7d"]))
    ++ mark "\x7d"))

def arrayPattern : Rule :=
  node "array_pattern" (grouped (mark "["
    ++ many (mark "," <|> g.defaulted ++ ahead (oneOf [",", "]"])) ++ mark "]"))

def destructuring : Rule := fun c =>
  match c.peek? with
  | some '{' => g.objectPattern c
  | some '[' => g.arrayPattern c
  | _ => none

def binding : Rule :=
  g.destructuring <|> identifier "identifier"

/-- A place that a value may go to: a name, a member, or a pattern of such places. -/
def pattern : Rule := fun c =>
  match c.peek? with
  | some '{' => g.objectPattern c
  | some '[' => g.arrayPattern c
  | some '.' => g.restPattern c
  | _ => do
    let (t, d) ← (valueName <|> thisValue) c
    if d.sees "." && !d.sees "..." || d.sees "[" then
      let (ts, e) ← g.rule .unary c
      if ts.all (·.isOneOf ["member_expression", "subscript_expression"]) then some (ts, e)
      else none
    else if t.all (·.kind == "this") then none
    else some (t, d)

def parameterName : Rule :=
  many (field "decorator" g.decorator) ++ optional accessModifier ++ optional overrideModifier
    ++ optional (modifier ["readonly"])
    ++ field "pattern" (g.rule .pattern <|> thisValue)

def typedParameter : Rule :=
  node "optional_parameter" (g.parameterName ++ mark "?"
      ++ optional (field "type" g.typeAnnotation) ++ optional g.initializer
      ++ ahead (oneOf [",", ")"]))
    <|> node "required_parameter" (g.parameterName
      ++ optional (field "type" g.typeAnnotation) ++ optional g.initializer
      ++ ahead (oneOf [",", ")"]))

def parameter : Rule :=
  if g.dialect.typed then g.typedParameter else g.defaulted

def parameters : Rule :=
  node "formal_parameters" (grouped (mark "("
    ++ optional (sepBy g.parameter (mark ",") ++ optional (mark ",")) ++ mark ")"))

end ExportInventory.Script.Grammar
