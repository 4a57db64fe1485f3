import ExportInventory.Script.Cursor

/-!
Grammar rules. A rule reads tokens and gives the nodes it found, in order, with the position
after them, or fails. Rules are joined by `++`, tried in order by `<|>`, and their nodes are
gathered into one by `node`.
-/
namespace ExportInventory.Script

def Rule := Cursor → Option (List Tree × Cursor)

namespace Rule

instance : Inhabited Rule := ⟨fun _ => none⟩

def empty : Rule := fun c => some ([], c)

def fail : Rule := fun _ => none

instance : Append Rule where
  append a b := fun c => do
    let (xs, c) ← a c
    let (ys, c) ← b c
    return (xs ++ ys, c)

instance : OrElse Rule where
  orElse a b := fun c =>
    match a c with
    | some r => some r
    | none => b () c

def optional (r : Rule) : Rule := fun c =>
  match r c with
  | some result => some result
  | none => some ([], c)

def repeated (r : Rule) : Nat → Rule
  | 0 => empty
  | fuel + 1 => fun c =>
    match r c with
    | none => some ([], c)
    | some (xs, d) =>
      if d.offset ≤ c.offset then some ([], c)
      else
        match repeated r fuel d with
        | none => none
        | some (ys, e) => some (xs ++ ys, e)

/-- As many repetitions as there are; each one has to get on in the text. -/
def many (r : Rule) : Rule := fun c => repeated r (c.rest.length + 1) c

def sepBy (r sep : Rule) : Rule :=
  r ++ many (sep ++ r)

def field (role : String) (r : Rule) : Rule := fun c => do
  let (xs, c) ← r c
  return (xs.map (·.withField (some role)), c)

def gather (kind : String) (children : List Tree) (index : Nat) : Tree :=
  let start := (children.head?.map (·.start)).getD index
  let stop := (children.getLast?.map (·.stop)).getD index
  ⟨kind, true, start, stop, none, false, children⟩

def node (kind : String) (r : Rule) : Rule := fun c => do
  let (xs, d) ← r c
  return ([gather kind xs d.offset], d)

def guard (p : Cursor → Bool) : Rule := fun c =>
  if p c then some ([], c) else none

def ahead (r : Rule) : Rule := fun c =>
  if (r c).isSome then some ([], c) else none

def notAhead (r : Rule) : Rule := fun c =>
  if (r c).isSome then none else some ([], c)

def take (kind : String) (named : Bool) (cs : List Char) : Rule := fun c =>
  let d := c.drop cs
  some ([Tree.leaf kind named c.offset d.offset], d)

def markHere (s : String) : Rule := fun c =>
  if c.startsWith s then take s false s.toList c else none

def mark (s : String) : Rule := fun c => markHere s c.atToken

def oneOf : List String → Rule
  | [] => fail
  | s :: rest => mark s <|> oneOf rest

def keyword (s : String) : Rule := fun c =>
  let here := c.atToken
  let name := here.nameHere
  if name == s.toList then take s false name here else none

def anyKeyword (words : List String) : Rule := fun c =>
  let here := c.atToken
  let name := here.nameHere
  let s := String.ofList name
  if words.contains s then take s false name here else none

def namedKeyword (s : String) : Rule := fun c =>
  let here := c.atToken
  let name := here.nameHere
  if name == s.toList then take s true name here else none

def grouped (r : Rule) : Rule := fun c => do
  let (xs, d) ← r { c with breaks := false, returns := true, ins := true }
  return (xs, { d with breaks := c.breaks, returns := c.returns, ins := c.ins })

def blocked (r : Rule) : Rule := fun c => do
  let (xs, d) ← r { c with breaks := true, returns := true, ins := true }
  return (xs, { d with breaks := c.breaks, returns := c.returns, ins := c.ins })

def withoutReturns (r : Rule) : Rule := fun c => do
  let (xs, d) ← r { c with returns := false }
  return (xs, { d with returns := c.returns })

def withoutIn (r : Rule) : Rule := fun c => do
  let (xs, d) ← r { c with ins := false }
  return (xs, { d with ins := c.ins })

def semicolon : Rule := fun c =>
  match mark ";" c with
  | some r => some r
  | none => if c.endsStatement then some ([], c) else none

/-- No line ends before the next token, where that would end the statement. -/
def sameLine : Rule := guard (fun c => !(c.breaks && c.lineBefore))

end Rule
end ExportInventory.Script
