import ExportInventory.Script.Dialect
import ExportInventory.Script.Rule

/-!
Words, literals and names of the script language, shared by all parts of its grammar. A `Grammar`
holds the dialect and the rules for the nonterminals that refer to each other.
-/
namespace ExportInventory.Script

/-- The nonterminals through which the grammar is recursive. -/
inductive Goal where
  | statement
  | block
  | expression
  | expressions
  | binary (level : Nat)
  | unary
  | target
  | pattern
  | parameters
  | type
  | primaryType
  | element
  | classBody
deriving DecidableEq, Repr

/-- A dialect together with the rule for each nonterminal. -/
structure Grammar where
  dialect : Dialect
  rule : Goal → Rule

def reservedWords : List String :=
  ["break", "case", "catch", "class", "const", "continue", "debugger", "default", "delete", "do",
    "else", "export", "extends", "false", "finally", "for", "function", "if", "import", "in",
    "instanceof", "new", "null", "return", "super", "switch", "this", "throw", "true", "try",
    "typeof", "var", "void", "while", "with"]

namespace Rule

def identifier (kind : String) : Rule := fun c =>
  let here := c.atToken
  let name := here.nameHere
  if name.isEmpty || reservedWords.contains (String.ofList name) then none
  else take kind true name here

def anyWord (kind : String) : Rule := fun c =>
  let here := c.atToken
  let name := here.nameHere
  if name.isEmpty then none else take kind true name here

def privateName : Rule := fun c =>
  let here := c.atToken
  match here.rest with
  | '#' :: rest =>
    let name := rest.takeWhile isNamePart
    if name.isEmpty then none else take "private_property_identifier" true ('#' :: name) here
  | _ => none

def valueName : Rule := fun c =>
  if c.word == "undefined" then namedKeyword "undefined" c else identifier "identifier" c

private def isDigitPart (c : Char) : Bool := c.isDigit || c == '_'

private def isWordPart (c : Char) : Bool := c.isAlphanum || c == '_'

private def exponent : List Char → List Char
  | e :: rest =>
    if e == 'e' || e == 'E' then
      match rest with
      | s :: d :: more =>
        if (s == '+' || s == '-') && d.isDigit then e :: s :: d :: more.takeWhile isDigitPart
        else if s.isDigit then e :: s :: (d :: more).takeWhile isDigitPart
        else []
      | [d] => if d.isDigit then [e, d] else []
      | [] => []
    else []
  | [] => []

def numberHere : List Char → List Char
  | '0' :: x :: rest =>
    if ['x', 'X', 'o', 'O', 'b', 'B'].contains x then '0' :: x :: rest.takeWhile isWordPart
    else decimal ('0' :: x :: rest)
  | cs => decimal cs
where
  decimal (cs : List Char) : List Char :=
    let whole := if cs.head?.any Char.isDigit then cs.takeWhile isDigitPart else []
    let rest := cs.drop whole.length
    match rest with
    | '.' :: more =>
      let fraction := more.takeWhile isDigitPart
      if whole.isEmpty && fraction.isEmpty then []
      else
        let head := whole ++ '.' :: fraction
        head ++ exponent (cs.drop head.length)
    | 'n' :: _ => if whole.isEmpty then [] else whole ++ ['n']
    | _ => if whole.isEmpty then [] else whole ++ exponent rest

def number : Rule := fun c =>
  let here := c.atToken
  let cs := numberHere here.rest
  if cs.isEmpty then none else take "number" true cs here

def escapeHere : List Char → List Char
  | '\\' :: 'x' :: a :: b :: _ => ['\\', 'x', a, b]
  | '\\' :: 'u' :: '{' :: rest => '\\' :: 'u' :: '{' :: rest.takeWhile isHexDigit ++ ['}']
  | '\\' :: 'u' :: rest => '\\' :: 'u' :: (rest.take 4).takeWhile isHexDigit
  | '\\' :: '\r' :: '\n' :: _ => ['\\', '\r', '\n']
  | '\\' :: c :: rest =>
    if '0' ≤ c && c ≤ '7' then
      '\\' :: c :: (rest.take 2).takeWhile (fun d => '0' ≤ d && d ≤ '7')
    else ['\\', c]
  | _ => []

def escape : Rule := fun c =>
  let cs := escapeHere c.rest
  if cs.isEmpty then none else take "escape_sequence" true cs c

def run (kind : String) (p : Char → Bool) : Rule := fun c =>
  let cs := c.rest.takeWhile p
  if cs.isEmpty then none else take kind true cs c

private def quoted (quote : String) (mark' : Char) : Rule :=
  node "string" (mark quote
    ++ many (run "string_fragment" (fun x => x != mark' && x != '\\' && x != '\n' && x != '\r')
      <|> escape)
    ++ markHere quote)

def string : Rule := fun c =>
  match c.peek? with
  | some '"' => quoted "\"" '"' c
  | some '\'' => quoted "'" '\'' c
  | _ => none

def templateChars : List Char → List Char
  | '$' :: '{' :: _ => []
  | c :: rest => if c == '\x60' || c == '\\' then [] else c :: templateChars rest
  | [] => []

def templateFragment : Rule := fun c =>
  let cs := templateChars c.rest
  if cs.isEmpty then none else take "string_fragment" true cs c

def template (kind : String) (substitution : Rule) : Rule :=
  node kind (mark "\x60" ++ many (templateFragment <|> escape <|> substitution) ++ markHere "\x60")

def patternChars : Bool → List Char → Option (List Char)
  | _, [] => none
  | _, '\n' :: _ => none
  | inClass, '\\' :: c :: rest =>
    if c == '\n' then none else (patternChars inClass rest).map ('\\' :: c :: ·)
  | _, '[' :: rest => (patternChars true rest).map ('[' :: ·)
  | _, ']' :: rest => (patternChars false rest).map (']' :: ·)
  | inClass, '/' :: rest => if inClass then (patternChars true rest).map ('/' :: ·) else some []
  | inClass, c :: rest => (patternChars inClass rest).map (c :: ·)

def regex : Rule :=
  node "regex" (mark "/"
    ++ field "pattern" (fun c =>
      match patternChars false c.rest with
      | some cs => if cs.isEmpty then none else take "regex_pattern" true cs c
      | none => none)
    ++ markHere "/"
    ++ optional (field "flags" (run "regex_flags" Char.isLower)))

end Rule

namespace Grammar
open Rule

def typedOnly (g : Grammar) (r : Rule) : Rule :=
  if g.dialect.typed then r else fail

def typedPart (g : Grammar) (r : Rule) : Rule :=
  if g.dialect.typed then optional r else empty

def propertyName (g : Grammar) : Rule :=
  anyWord "property_identifier" <|> privateName <|> string <|> number
    <|> node "computed_property_name"
      (grouped (mark "[" ++ g.rule .expression ++ mark "]"))

def initializer (g : Grammar) : Rule :=
  mark "=" ++ guard (fun c => !(c.startsWith "=" || c.startsWith ">"))
    ++ field "value" (g.rule .expression)

def templateString (g : Grammar) : Rule :=
  template "template_string"
    (node "template_substitution"
      (grouped (markHere "$\x7b" ++ g.rule .expressions ++ mark "\x7d")))

def given (role : Option String) (base : List Tree) : Rule := fun c =>
  some (base.map (·.withField role), c)

/-- Wraps what has been read so far, then reads on. -/
def after (kind : String) (role : Option String) (base : List Tree) (r : Rule) : Rule :=
  node kind (given role base ++ r)

def decoratorName (g : Grammar) : Rule := fun c => do
  let (base, c) ← identifier "identifier" c
  go (c.rest.length + 1) base c
where
  go : Nat → List Tree → Rule
    | 0, base => fun c => some (base, c)
    | fuel + 1, base => fun c =>
      if c.sees "." then do
        let (t, c) ← after "member_expression" (some "object") base
          (mark "." ++ field "property" (anyWord "property_identifier")) c
        go fuel t c
      else if c.startsWith "(" then
        after "call_expression" (some "function") base
          (field "arguments" (node "arguments" (grouped (mark "("
            ++ many (g.rule .expression <|> mark ",") ++ mark ")")))) c
      else some (base, c)

def decorator (g : Grammar) : Rule :=
  node "decorator" (mark "@" ++ (g.decoratorName <|> node "parenthesized_expression"
    (grouped (mark "(" ++ g.rule .expression ++ mark ")"))))

end Grammar
end ExportInventory.Script
