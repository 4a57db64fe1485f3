import ExportInventory.Path
import ExportInventory.Text.Class
import ExportInventory.Text.Quoted

/-!
Rules on which paths to ignore, made from the lines of a file. A line is turned into a glob over
whole paths; of all globs that match a path, the last one decides. A scan works with any rules.
-/
namespace ExportInventory.Ignore

/-- A part of a glob: one character with a property, any number of them, or parts that may be left
out. -/
inductive Item where
  | one (p : Char → Bool)
  | many (p : Char → Bool)
  | maybe (items : List Item)

abbrev Glob := List Item

mutual

def Item.weight : Item → Nat
  | .one _ => 1
  | .many _ => 1
  | .maybe items => weightAll items + 1

def weightAll : List Item → Nat
  | [] => 0
  | i :: rest => Item.weight i + weightAll rest

end

theorem weightAll_append (a b : List Item) : weightAll (a ++ b) = weightAll a + weightAll b := by
  induction a with
  | nil => simp [weightAll]
  | cons i rest ih => simp [weightAll, ih, Nat.add_assoc]

def isMatch : Glob → List Char → Bool
  | [], cs => cs.isEmpty
  | .one _ :: _, [] => false
  | .one p :: rest, c :: cs => p c && isMatch rest cs
  | .many _ :: rest, [] => isMatch rest []
  | .many p :: rest, c :: cs => isMatch rest (c :: cs) || (p c && isMatch (.many p :: rest) cs)
  | .maybe items :: rest, cs => isMatch rest cs || isMatch (items ++ rest) cs
termination_by glob cs => (cs.length, weightAll glob)
decreasing_by
  · exact Prod.Lex.left _ _ (by simp)
  · exact Prod.Lex.right _ (by simp only [weightAll, Item.weight]; omega)
  · exact Prod.Lex.right _ (by simp only [weightAll, Item.weight]; omega)
  · exact Prod.Lex.left _ _ (by simp)
  · exact Prod.Lex.right _ (by simp only [weightAll, Item.weight]; omega)
  · exact Prod.Lex.right _ (by simp only [weightAll, weightAll_append, Item.weight]; omega)

def slash : Item := .one (· = '/')

def inName (c : Char) : Bool := c ≠ '/'

def inLine (c : Char) : Bool := c ≠ '\n'

def leadingDirectories : Item := .maybe [.one inLine, .many inLine, slash]

def innerDirectories : Item := .maybe [slash, .one inLine, .many inLine]

def below : Glob := [slash, .many inLine]

def inSet : List Char → Char → Bool
  | a :: '-' :: b :: rest, c => (a ≤ c && c ≤ b) || inSet rest c
  | a :: rest, c => a = c || inSet rest c
  | [], _ => false

def hasEmptyRange : List Char → Bool
  | a :: '-' :: b :: rest => b < a || hasEmptyRange rest
  | _ :: rest => hasEmptyRange rest
  | [] => false

def bracket? : List Char → Option (Bool × List Char × List Char)
  | [] => none
  | c :: rest =>
    let negated := c = '!' || c = '^'
    let body := if negated then rest else c :: rest
    let (lead, tail) := match body with
      | ']' :: more => ([']'], more)
      | more => ([], more)
    let set := tail.takeWhile (· ≠ ']')
    match tail.drop set.length with
    | _ :: after => some (negated, lead ++ set, after)
    | [] => none

/-- The glob of one name, or nothing if it ends with a backslash or has a range without characters.
`fuel` bounds its length. -/
def nameGlob? : Nat → List Char → Option Glob
  | 0, _ => some []
  | _, [] => some []
  | _ + 1, ['\\'] => none
  | fuel + 1, '\\' :: c :: rest => (nameGlob? fuel rest).map (.one (· = c) :: ·)
  | fuel + 1, '*' :: rest => (nameGlob? fuel rest).map (.many inName :: ·)
  | fuel + 1, '?' :: rest => (nameGlob? fuel rest).map (.one inName :: ·)
  | fuel + 1, '[' :: rest =>
    match bracket? rest with
    | some (negated, set, after) =>
      if hasEmptyRange set then none
      else (nameGlob? fuel after).map (.one (fun c => inSet set c != negated) :: ·)
    | none => (nameGlob? fuel rest).map (.one (· = '[') :: ·)
  | fuel + 1, c :: rest => (nameGlob? fuel rest).map (.one (· = c) :: ·)

def collapse : List (List Char) → List (List Char)
  | ['*', '*'] :: ['*', '*'] :: rest => collapse (['*', '*'] :: rest)
  | name :: rest => name :: collapse rest
  | [] => []

def namesGlob? (first needSlash : Bool) : List (List Char) → Option Glob
  | [] => some []
  | [name] =>
    if name = ['*', '*'] then
      some (if first then [.one inName, .many inName, .maybe below] else below)
    else do
      let glob ← if name = ['*'] then some [.one inName, .many inName]
        else nameGlob? (name.length + 1) name
      return (if needSlash then [slash] else []) ++ glob ++ [.maybe below]
  | name :: rest =>
    if name = ['*', '*'] then do
      let tail ← namesGlob? false (!first) rest
      return (if first then leadingDirectories else innerDirectories) :: tail
    else do
      let glob ← if name = ['*'] then some [.one inName, .many inName]
        else nameGlob? (name.length + 1) name
      let tail ← namesGlob? false true rest
      return (if needSlash then [slash] else []) ++ glob ++ tail

structure Pattern where
  glob : Glob
  ignores : Bool

/-- The names of a pattern, with a double asterisk in front of a single name and in place of an
empty last one. -/
def normalNames (pattern : List Char) : List (List Char) :=
  let names := collapse (Path.splitChars '/' pattern)
  let names := match names with
    | [] :: rest => rest
    | [name] => if name = ['*', '*'] then names else ['*', '*'] :: names
    | [name, []] => if name = ['*', '*'] then names else ['*', '*'] :: names
    | _ => names
  if names.getLast? = some [] then names.dropLast ++ [['*', '*']] else names

def glob? (pattern : List Char) : Option Glob :=
  if collapse (Path.splitChars '/' pattern) = [['*', '*'], []] then
    some [.one inLine, .many inLine, slash, .many inLine]
  else
    match normalNames pattern with
    | [] => none
    | names => namesGlob? true false names

private def blank (c : Char) : Bool := (CodePoint.scalar c).isBlank

/-- A line without the blanks around it; an escaped blank at its end stays. -/
def trimmed (line : List Char) : List Char :=
  let front := line.dropWhile blank
  if [' ', '\\'].isPrefixOf line.reverse then front
  else (front.reverse.dropWhile blank).reverse

def pattern? (line : List Char) : Except String (Option Pattern) :=
  let text := trimmed line
  match text with
  | [] => .ok none
  | '#' :: _ => .ok none
  | ['/'] => .ok none
  | c :: rest =>
    match glob? (if c = '!' then rest else text) with
    | some glob => .ok (some ⟨glob, c ≠ '!'⟩)
    | none => .error ("Invalid git pattern: " ++ Text.quoted (String.ofList line))

def ignored (patterns : List Pattern) (path : String) : Bool :=
  match (patterns.filter (fun p => isMatch p.glob path.toList)).getLast? with
  | some p => p.ignores
  | none => false

def rules (lines : List (List Char)) : Except String (String → Bool) := do
  return ignored ((← lines.mapM pattern?).filterMap id)

end ExportInventory.Ignore
