import ExportInventory.Tree.Basic

/-!
Reading position in a script: what is left of the text, the byte offset of it, and the comments
passed so far. Blanks and comments stand between tokens; a line break among them may end a
statement.
-/
namespace ExportInventory.Script

def isBlank (c : Char) : Bool :=
  let n := c.toNat
  (9 ≤ n && n ≤ 13) || n == 0x20 || n == 0xA0 || n == 0x1680 || (0x2000 ≤ n && n ≤ 0x200B)
    || n == 0x2028 || n == 0x2029 || n == 0x202F || n == 0x205F || n == 0x2060 || n == 0x3000
    || n == 0xFEFF

def isLineEnd (c : Char) : Bool :=
  c == '\n' || c.toNat == 0x2028 || c.toNat == 0x2029

def isNameStart (c : Char) : Bool :=
  let n := c.toNat
  if n < 128 then
    c.isAlpha || c == '_' || c == '$'
  else
    !isBlank c

def isNamePart (c : Char) : Bool :=
  isNameStart c || c.isDigit

def isHexDigit (c : Char) : Bool :=
  c.isDigit || ('a' ≤ c && c ≤ 'f') || ('A' ≤ c && c ≤ 'F')

def byteLength (cs : List Char) : Nat :=
  cs.foldl (fun n c => n + c.utf8Size) 0

/-- A reading position. `breaks` says whether a line break may end a statement here; it may not
inside parentheses and brackets. `returns` says whether an arrow function may have a return type
here; `ins` whether the operator `in` is read. -/
structure Cursor where
  rest : List Char
  offset : Nat
  comments : List Tree
  breaks : Bool
  returns : Bool
  ins : Bool
deriving Inhabited

namespace Cursor

def ofText (text : List Char) : Cursor :=
  ⟨text, 0, [], true, true, true⟩

def drop (c : Cursor) (cs : List Char) : Cursor :=
  { c with rest := c.rest.drop cs.length, offset := c.offset + byteLength cs }

def blockComment : List Char → Option (List Char)
  | '*' :: '/' :: _ => some ['*', '/']
  | c :: rest => (blockComment rest).map (c :: ·)
  | [] => none

def commentHere : List Char → Option (List Char)
  | '/' :: '/' :: rest => some ('/' :: '/' :: rest.takeWhile (fun c => !(isLineEnd c || c == '\r')))
  | '/' :: '*' :: rest => (blockComment rest).map ('/' :: '*' :: ·)
  | _ => none

def skip : Nat → Bool → Cursor → Cursor × Bool
  | 0, line, c => (c, line)
  | fuel + 1, line, c =>
    match c.rest with
    | [] => (c, line)
    | x :: rest =>
      if isBlank x then
        skip fuel (line || isLineEnd x) { c with rest := rest, offset := c.offset + x.utf8Size }
      else
        match commentHere c.rest with
        | none => (c, line)
        | some cs =>
          let next := c.drop cs
          let node := Tree.leaf "comment" true c.offset next.offset
          skip fuel (line || cs.any isLineEnd) { next with comments := node :: c.comments }

def next (c : Cursor) : Cursor × Bool :=
  match c.rest with
  | x :: _ => if isBlank x || x == '/' then skip c.rest.length false c else (c, false)
  | [] => (c, false)

def atToken (c : Cursor) : Cursor :=
  c.next.1

def lineBefore (c : Cursor) : Bool :=
  c.next.2

/-- The characters of the rest of a name: name characters and escapes for them. Inside the braces
of an escape stand digits only. -/
def nameTail (inEscape : Bool) : List Char → List Char
  | '\\' :: 'u' :: '{' :: rest =>
    if inEscape then [] else '\\' :: 'u' :: '{' :: nameTail true rest
  | '\\' :: 'u' :: a :: b :: d :: e :: rest =>
    if !inEscape && [a, b, d, e].all isHexDigit then
      '\\' :: 'u' :: a :: b :: d :: e :: nameTail false rest
    else []
  | x :: rest =>
    if inEscape then
      if isHexDigit x then x :: nameTail true rest
      else if x == '}' then x :: nameTail false rest
      else []
    else if isNamePart x then x :: nameTail false rest
    else []
  | [] => []

def nameHere (c : Cursor) : List Char :=
  match c.rest with
  | x :: rest =>
    if isNameStart x then x :: nameTail false rest
    else if x == '\\' then nameTail false c.rest
    else []
  | [] => []

def word (c : Cursor) : String :=
  String.ofList c.atToken.nameHere

def peek? (c : Cursor) : Option Char :=
  c.atToken.rest.head?

def startsWith (c : Cursor) (s : String) : Bool :=
  s.toList.isPrefixOf c.rest

def sees (c : Cursor) (s : String) : Bool :=
  c.atToken.startsWith s

/-- Whether a token that starts with these characters can go on with an expression, so that the
end of the line before it ends no statement. -/
def continues : List Char → Bool
  | '.' :: rest => !(rest.head?.any Char.isDigit)
  | '+' :: rest => rest.head? != some '+'
  | '-' :: rest => rest.head? != some '-'
  | '!' :: rest => rest.head? == some '='
  | 'i' :: 'n' :: rest =>
    if rest.head?.any Char.isAlpha then
      let word := rest.takeWhile Char.isAlpha
      "stanceof".toList.isPrefixOf word && word.length == 8
    else true
  | c :: _ => [',', ':', ';', '*', '%', '>', '<', '=', '[', '(', '?', '^', '|', '&', '/',
      '\x60'].contains c
  | [] => false

/-- A statement may end here without a semicolon: the text or the block ends, or a line does and
what follows cannot go on with the statement. -/
def endsStatement (c : Cursor) : Bool :=
  let (here, line) := c.next
  match here.rest with
  | [] => true
  | x :: _ => x == '}' || (line && !continues here.rest)

end Cursor
end ExportInventory.Script
