import ExportInventory.Script.Pattern

/-!
Markup elements: tags, attributes and the text between them.
-/
namespace ExportInventory.Script.Grammar
open Rule

variable (g : Grammar)

private def isTagStart (c : Char) : Bool := c.isAlpha || c == '_' || c == '$'

private def isTagPart (c : Char) : Bool := isTagStart c || c.isDigit || c == '-'

def tagName (kind : String) : Rule := fun c =>
  let here := c.atToken
  let name := here.nameHere
  let rest := here.rest.drop name.length
  let tail := if name.all isTagPart && rest.head? == some '-' then rest.takeWhile isTagPart else []
  if name.isEmpty then none else take kind true (name ++ tail) here

def namespacedName : Rule :=
  node "jsx_namespace_name" (tagName "identifier" ++ mark ":" ++ tagName "identifier")

def memberName : Rule := fun c => do
  let (base, c) ← identifier "identifier" c
  if c.sees "." then go (c.rest.length + 1) base c else none
where
  go : Nat → List Tree → Rule
    | 0, base => fun c => some (base, c)
    | fuel + 1, base => fun c =>
      if c.sees "." then do
        let (t, c) ← after "member_expression" (some "object") base
          (mark "." ++ field "property" (anyWord "property_identifier")) c
        go fuel t c
      else some (base, c)

def elementName : Rule :=
  namespacedName <|> memberName <|> tagName "identifier"

/-- Whether the characters between two tags count as text: more than line breaks and the blanks
that start lines. -/
def isText : Bool → List Char → Bool
  | _, [] => false
  | lineStart, c :: rest =>
    if c == '\n' then isText true rest
    else if lineStart && isBlank c then isText true rest
    else true

def referenceHere : List Char → List Char
  | '&' :: '#' :: x :: rest =>
    if x == 'x' || x == 'X' then
      close ['&', '#', x] (rest.takeWhile (fun c => c.isDigit || ('a' ≤ c && c ≤ 'f')
        || ('A' ≤ c && c ≤ 'F'))) rest
    else close ['&', '#'] ((x :: rest).takeWhile Char.isDigit) (x :: rest)
  | '&' :: rest => close ['&'] (rest.takeWhile Char.isAlpha) rest
  | _ => []
where
  close (head body rest : List Char) : List Char :=
    if !body.isEmpty && (rest.drop body.length).head? == some ';' then head ++ body ++ [';']
    else []

def characterReference : Rule := fun c =>
  let cs := referenceHere c.rest
  if cs.isEmpty then none else take "html_character_reference" true cs c

/-- A run of attribute text; an ampersand that starts no character reference begins one too. -/
private def attributeRun (quote : Char) : Rule := fun c =>
  let rest := if c.startsWith "&" then c.rest.drop 1 else c.rest
  let cs := rest.takeWhile (fun x => x != quote && x != '&')
  let cs := if c.startsWith "&" then '&' :: cs else cs
  if cs.isEmpty then none else take "string_fragment" true cs c

private def attributeText (quote : Char) : Rule :=
  node "string" (mark quote.toString
    ++ many (characterReference <|> attributeRun quote) ++ markHere quote.toString)

/-- A quoted attribute value, in which a backslash is nothing special. -/
def attributeString : Rule := fun c =>
  match c.peek? with
  | some '"' => attributeText '"' c
  | some '\'' => attributeText '\'' c
  | _ => none

def embedded : Rule :=
  node "jsx_expression" (grouped (mark "\x7b"
    ++ optional (node "spread_element" (mark "..." ++ g.rule .expression)
      <|> g.rule .expressions)
    ++ mark "\x7d"))

def tagAttribute : Rule :=
  g.embedded
    <|> node "jsx_attribute" ((node "jsx_namespace_name"
        (tagName "identifier" ++ mark ":" ++ tagName "identifier")
        <|> tagName "property_identifier")
      ++ optional (mark "=" ++ (attributeString <|> g.embedded <|> g.rule .element)))

def tagContents : Rule :=
  field "name" elementName ++ g.typedPart (field "type_arguments" g.typeArguments)
    ++ many (field "attribute" g.tagAttribute)

def markupText : Rule := fun c =>
  let cs := c.rest.takeWhile (fun x => !(['<', '>', '{', '}', '&'].contains x))
  if isText false cs then take "jsx_text" true cs c else none

def referenceAfterBlanks : Rule := fun c => characterReference c.atToken

def content : Rule :=
  markupText <|> referenceAfterBlanks <|> g.embedded
    <|> notAhead (mark "</") ++ g.rule .element

def openingTag : Rule :=
  field "open_tag" (node "jsx_opening_element" (grouped (mark "<" ++ optional g.tagContents
    ++ mark ">")))

def closingTag : Rule :=
  field "close_tag" (node "jsx_closing_element" (grouped (mark "</"
    ++ optional (field "name" elementName) ++ mark ">")))

def element : Rule :=
  node "jsx_self_closing_element" (grouped (mark "<" ++ g.tagContents ++ mark "/>"))
    <|> node "jsx_element" (g.openingTag ++ many g.content ++ closingTag)

end ExportInventory.Script.Grammar
