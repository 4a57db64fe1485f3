import ExportInventory.Text.Basic
import ExportInventory.Text.WordTable

/-!
Classes of code points: blanks, word characters and the characters of identifiers.
-/
namespace ExportInventory

namespace CodePoint

/-- Blanks: white space, and the four separators from U+001C on. -/
def isBlank (c : CodePoint) : Bool :=
  let n := c.toNat
  (9 ≤ n && n ≤ 13) || (28 ≤ n && n ≤ 32) || n == 0x85 || n == 0xA0 || n == 0x1680
    || (0x2000 ≤ n && n ≤ 0x200A) || n == 0x2028 || n == 0x2029 || n == 0x202F || n == 0x205F
    || n == 0x3000

def isWord (c : CodePoint) : Bool :=
  match c with
  | surrogate _ => false
  | scalar x =>
    if x.toNat < 128 then x.isAlphanum || x == '_'
    else Text.wordRanges.any (fun r => r.1 ≤ x.toNat && x.toNat ≤ r.2)

def startsIdentifier (c : CodePoint) : Bool :=
  c.is (fun x => x.isAlpha || x == '_' || x == '$')

/-- Characters of the rest of an identifier as it is read from a text: word characters of all
scripts and the dollar sign. -/
def continuesIdentifier (c : CodePoint) : Bool :=
  c.isWord || c == '$'

end CodePoint

namespace Text

def stripLeft (t : Text) : Text := t.dropWhile CodePoint.isBlank

def strip (t : Text) : Text := (stripLeft (stripLeft t).reverse).reverse

def words (t : Text) : List Text :=
  go [] t
where
  go (current : Text) : Text → List Text
    | [] => if current.isEmpty then [] else [current.reverse]
    | c :: rest =>
      if c.isBlank then
        if current.isEmpty then go [] rest else current.reverse :: go [] rest
      else go (c :: current) rest

end Text
end ExportInventory
