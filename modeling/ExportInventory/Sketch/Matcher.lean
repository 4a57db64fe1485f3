import ExportInventory.Text.Class

/-!
Matchers read a part of a text from a place on. They are joined by `do` and tried in order by
`<|>`; what they read is never given back.
-/
namespace ExportInventory.Sketch

/-- A place in a text: the code point before it, its index, and what follows. -/
structure Place where
  previous : Option CodePoint
  offset : Nat
  rest : Text
deriving Inhabited

namespace Place

def ofIndex (t : Text) (index : Nat) : Place :=
  ⟨(t.take index).getLast?, min index t.length, t.drop index⟩

def skip (p : Place) (read : Text) : Place :=
  ⟨read.getLast?.or p.previous, p.offset + read.length, p.rest.drop read.length⟩

end Place

abbrev Matcher := StateT Place Option

namespace Matcher

def one (p : CodePoint → Bool) : Matcher CodePoint := fun place =>
  match place.rest with
  | [] => none
  | c :: rest => if p c then some (c, ⟨some c, place.offset + 1, rest⟩) else none

def span (p : CodePoint → Bool) : Matcher Text := fun place =>
  let read := place.rest.takeWhile p
  some (read, place.skip read)

def literal (s : String) : Matcher Unit := fun place =>
  if place.rest.startsWith s then some ((), place.skip (Text.ofString s)) else none

def anyLiteral : List String → Matcher Unit
  | [] => failure
  | s :: rest => literal s <|> anyLiteral rest

def blanks : Matcher Unit := do
  let _ ← span CodePoint.isBlank

def gap : Matcher Unit := do
  let _ ← one CodePoint.isBlank
  blanks

def identifier : Matcher String := do
  let first ← one CodePoint.startsIdentifier
  let rest ← span CodePoint.continuesIdentifier
  return Text.toString (first :: rest)

def boundary : Matcher Unit := fun place =>
  if place.previous.any CodePoint.isWord != place.rest.head?.any CodePoint.isWord then
    some ((), place)
  else none

def wholeWord (w : String) : Matcher Unit := do
  literal w; boundary

def anyWord (words : List String) : Matcher Unit := do
  anyLiteral words; boundary

def spacedWord (w : String) : Matcher Unit := do
  literal w; gap

def ahead {α : Type} (m : Matcher α) : Matcher Unit := fun place =>
  if (m place).isSome then some ((), place) else none

def notAhead {α : Type} (m : Matcher α) : Matcher Unit := fun place =>
  if (m place).isSome then none else some ((), place)

def maybe (m : Matcher Unit) : Matcher Unit := m <|> pure ()

def repeated (m : Matcher Unit) : Nat → Matcher Nat
  | 0 => pure 0
  | fuel + 1 => (do
      m
      let n ← repeated m fuel
      return n + 1) <|> pure 0

def many (m : Matcher Unit) : Matcher Nat := fun place => repeated m place.rest.length place

def fits {α : Type} (m : Matcher α) (t : Text) : Bool := (m ⟨none, 0, t⟩).isSome

/-- The matches in a text from left to right, with their offsets. The first `skip` code points are
part of an earlier match. -/
def occurrences {α : Type} (m : Matcher α) (skip : Nat) (previous : Option CodePoint)
    (offset : Nat) : Text → List (Nat × α)
  | [] => []
  | c :: rest =>
    match skip with
    | k + 1 => occurrences m k (some c) (offset + 1) rest
    | 0 =>
      match m ⟨previous, offset, c :: rest⟩ with
      | some (a, stop) =>
        (offset, a) :: occurrences m (stop.offset - offset - 1) (some c) (offset + 1) rest
      | none => occurrences m 0 (some c) (offset + 1) rest

def all {α : Type} (m : Matcher α) (t : Text) : List (Nat × α) := occurrences m 0 none 0 t

def firstFrom? {α : Type} (m : Matcher α) (previous : Option CodePoint) (offset : Nat) :
    Text → Option (Nat × α × Place)
  | [] => none
  | c :: rest =>
    match m ⟨previous, offset, c :: rest⟩ with
    | some (a, stop) => some (offset, a, stop)
    | none => firstFrom? m (some c) (offset + 1) rest

def first? {α : Type} (m : Matcher α) (t : Text) (index : Nat) : Option (Nat × α × Place) :=
  let place := Place.ofIndex t index
  firstFrom? m place.previous place.offset place.rest

def occurs {α : Type} (m : Matcher α) (t : Text) (index : Nat) : Bool := (first? m t index).isSome

end Matcher
end ExportInventory.Sketch
