import ExportInventory.Encoding
import ExportInventory.Tree.Basic

/-!
A parsed source: a tree together with the path and the bytes it was made from.
-/
namespace ExportInventory

structure Source where
  path : String
  bytes : Bytes
  tree : Tree

namespace Source

def textOf (s : Source) (t : Tree) : String :=
  String.ofList (Encoding.utf8 ((s.bytes.drop t.start).take (t.stop - t.start)))

def lineOf (s : Source) (t : Tree) : Nat :=
  (s.bytes.take t.start).count 10 + 1

def firstErrorLine? (s : Source) : Option Nat :=
  (s.tree.nodes.find? (fun t => t.kind == "ERROR" || t.missing)).map s.lineOf

end Source
end ExportInventory
