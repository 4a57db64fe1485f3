import ExportInventory.Text.Basic
import ExportInventory.Text.Unprintable

/-!
Texts in quotes, as they stand in messages.
-/
namespace ExportInventory.Text

private def isUnprintable (c : Char) : Bool :=
  let n := c.toNat
  if n < 128 then n < 32 || n == 127
  else unprintableRanges.any (fun r => r.1 ≤ n && n ≤ r.2)

def hexDigits (width n : Nat) : List Char :=
  match width with
  | 0 => []
  | w + 1 => hexDigits w (n / 16) ++ [Nat.digitChar (n % 16)]

def quotedChar (quote : Char) (c : Char) : List Char :=
  if c = quote ∨ c = '\\' then ['\\', c]
  else if c = '\n' then ['\\', 'n']
  else if c = '\r' then ['\\', 'r']
  else if c = '\t' then ['\\', 't']
  else if isUnprintable c then
    let n := c.toNat
    if n < 0x100 then '\\' :: 'x' :: hexDigits 2 n
    else if n < 0x10000 then '\\' :: 'u' :: hexDigits 4 n
    else '\\' :: 'U' :: hexDigits 8 n
  else [c]

/-- The string in single quotes, or in double ones if it has single quotes and no double ones. -/
def quoted (s : String) : String :=
  let cs := s.toList
  let quote := if cs.contains '\'' && !cs.contains '"' then '"' else '\''
  String.ofList (quote :: cs.flatMap (quotedChar quote) ++ [quote])

end ExportInventory.Text
