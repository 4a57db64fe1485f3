import ExportInventory.Text.Class

/-!
Brackets: the span that a bracket encloses, and splitting a text at a separator outside brackets
and quotes.
-/
namespace ExportInventory

def CodePoint.closer? (c : CodePoint) : Option CodePoint :=
  if c = '(' then some ')' else if c = '{' then some '}' else if c = '[' then some ']' else none

def CodePoint.isCloser (c : CodePoint) : Bool :=
  c = ')' || c = '}' || c = ']'

def CodePoint.isQuote (c : CodePoint) : Bool :=
  c = '\'' || c = '"' || c = '\x60'

namespace Text

/-- The index of the closer that empties `stack`, the closers still awaited. Inside a quotation
only its own quote counts, and a backslash hides what follows it. -/
def closing? (stack : List CodePoint) (quote : Option CodePoint) (i : Nat) : Text → Option Nat
  | [] => none
  | c :: rest =>
    match quote with
    | some q =>
      if c = '\\' then
        match rest with
        | [] => none
        | _ :: more => closing? stack (some q) (i + 2) more
      else closing? stack (if c = q then none else some q) (i + 1) rest
    | none =>
      if c.isQuote then closing? stack (some c) (i + 1) rest
      else
        match c.closer? with
        | some closer => closing? (closer :: stack) none (i + 1) rest
        | none =>
          if c.isCloser then
            match stack with
            | [] => none
            | awaited :: below =>
              if c ≠ awaited then none
              else if below.isEmpty then some i
              else closing? below none (i + 1) rest
          else closing? stack none (i + 1) rest

def balancedSpan (t : Text) (index : Nat) : Option (Nat × Nat) :=
  match t.drop index with
  | [] => none
  | c :: rest => do
    let closer ← c.closer?
    let stop ← closing? [closer] none (index + 1) rest
    return (index + 1, stop)

structure Level where
  depth : Int
  angle : Nat
  quote : Option CodePoint
deriving DecidableEq, Repr

namespace Level

def outermost : Level := ⟨0, 0, none⟩

/-- The level behind one more code point. Brackets may be closed that were not opened, but angle
brackets may not. -/
def next (l : Level) (c : CodePoint) : Level :=
  match l.quote with
  | some q => { l with quote := if c = q then none else some q }
  | none =>
    if c.isQuote then { l with quote := some c }
    else if c.closer?.isSome then { l with depth := l.depth + 1 }
    else if c.isCloser then { l with depth := l.depth - 1 }
    else if c = '<' then { l with angle := l.angle + 1 }
    else if c = '>' then { l with angle := l.angle - 1 }
    else l

end Level

/-- How far splitting has come: the level, and the characters of the current part, last one first. -/
structure Splitting where
  level : Level
  current : Text
deriving Repr

namespace Splitting

def start : Splitting := ⟨.outermost, []⟩

def step (sep : CodePoint) (s : Splitting) (c : CodePoint) : Splitting × Option Text :=
  let next := s.level.next c
  if s.level.quote = none ∧ c = sep ∧ next.depth = 0 ∧ next.angle = 0 then
    (⟨next, []⟩, some s.current.reverse)
  else (⟨next, c :: s.current⟩, none)

end Splitting

def rawParts (sep : CodePoint) (s : Splitting) : Text → List Text
  | [] => if s.current.isEmpty then [] else [s.current.reverse]
  | c :: rest =>
    match s.step sep c with
    | (next, some part) => part :: rawParts sep next rest
    | (next, none) => rawParts sep next rest

def splitTopLevel (t : Text) (sep : CodePoint) : List Text :=
  ((rawParts sep .start t).map strip).filter (fun p => !p.isEmpty)

end Text
end ExportInventory
