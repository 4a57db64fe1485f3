/-!
Texts. A text is a list of code points; beside characters it may hold surrogates that stand alone,
which no encoding can write.
-/
namespace ExportInventory

inductive CodePoint where
  | scalar (c : Char)
  | surrogate (index : Fin 0x800)
deriving DecidableEq, Repr, Inhabited

instance : Coe Char CodePoint := ⟨.scalar⟩

abbrev Text := List CodePoint

namespace CodePoint

def toNat : CodePoint → Nat
  | scalar c => c.toNat
  | surrogate i => 0xD800 + i.val

def ofNat (n : Nat) : CodePoint :=
  if h : 0xD800 ≤ n ∧ n < 0xE000 then surrogate ⟨n - 0xD800, by omega⟩ else scalar (Char.ofNat n)

def is (p : Char → Bool) : CodePoint → Bool
  | scalar c => p c
  | surrogate _ => false

/-- The character, with a substitute for a surrogate. -/
def toChar : CodePoint → Char
  | scalar c => c
  | surrogate _ => Char.ofNat 0xFFFD

end CodePoint

namespace Text

def ofString (s : String) : Text := s.toList.map .scalar

def toString (t : Text) : String := String.ofList (t.map CodePoint.toChar)

def chars? : Text → Option (List Char)
  | [] => some []
  | .scalar c :: rest => (chars? rest).map (c :: ·)
  | .surrogate _ :: _ => none

def slice (t : Text) (start stop : Nat) : Text :=
  (t.drop start).take (stop - start)

def startsWith (t : Text) (s : String) : Bool :=
  (ofString s).isPrefixOf t

/-- The index of the first occurrence of a string, counted from `index`. -/
def find? (s : String) : Text → Nat → Option Nat
  | [], index => if s.isEmpty then some index else none
  | c :: rest, index =>
    if startsWith (c :: rest) s then some index else find? s rest (index + 1)

def indexFrom? (t : Text) (s : String) (start : Nat) : Option Nat :=
  if t.length < start then none else find? s (t.drop start) start

def lineOf (t : Text) (index : Nat) : Nat :=
  (t.take index).count (.scalar '\n') + 1

end Text
end ExportInventory
