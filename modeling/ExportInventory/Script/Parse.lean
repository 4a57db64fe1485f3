import ExportInventory.Script.Statement

/-!
Parsing a whole script. The nonterminals refer to each other through a depth bound that no text
reaches; comments are put into the innermost node that has tokens on both sides of them.
-/
namespace ExportInventory.Script

namespace Grammar

def goal (g : Grammar) : Goal → Rule
  | .statement => g.statement
  | .block => g.block
  | .expression => g.expression
  | .expressions => g.expressions
  | .binary level => g.binary level
  | .unary => g.unary
  | .target => g.target
  | .pattern => g.pattern
  | .parameters => g.parameters
  | .type => g.type
  | .primaryType => g.primaryType
  | .element => g.element
  | .classBody => g.classBody

/-- The rule of a nonterminal, for texts nested at most `depth` deep. -/
def bounded (d : Dialect) : Nat → Goal → Rule
  | 0 => fun _ => Rule.fail
  | depth + 1 => fun goal c => Grammar.goal ⟨d, bounded d depth⟩ goal c

def hashBang : Rule := fun c =>
  if c.startsWith "#!" then
    Rule.take "hash_bang_line" true (c.rest.takeWhile (fun x => x != '\n' && x != '\r')) c
  else none

def program (d : Dialect) (depth : Nat) : Rule :=
  Rule.optional hashBang ++ Rule.many (bounded d depth .statement)

end Grammar

def encloses (t comment : Tree) : Bool :=
  t.start < comment.start && comment.stop < t.stop

mutual

/-- Puts comments, in order, into the innermost nodes that enclose them. -/
def attachComments (comments : List Tree) : Tree → Tree
  | t@⟨kind, named, start, stop, field, missing, children⟩ =>
    if comments.isEmpty then t
    else
      let own := comments.filter (fun k => !children.any (encloses · k))
      ⟨kind, named, start, stop, field, missing,
        (attachEach comments children ++ own).mergeSort (fun a b => a.start ≤ b.start)⟩

def attachEach (comments : List Tree) : List Tree → List Tree
  | [] => []
  | t :: rest => attachComments (comments.filter (encloses t)) t :: attachEach comments rest

end

def parse? (d : Dialect) (text : List Char) : Option Tree := do
  let (statements, c) ← Grammar.program d (16 * (text.length + 4)) (Cursor.ofText text)
  let last := c.atToken
  guard last.rest.isEmpty
  let stop := byteLength text
  let tree := attachComments last.comments.reverse ⟨"program", true, 0, stop, none, false, statements⟩
  return { tree with start := (tree.children.head?.map (·.start)).getD stop }

end ExportInventory.Script
