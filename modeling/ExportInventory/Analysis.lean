import ExportInventory.Classification
import ExportInventory.Script.Parse
import ExportInventory.Sketch.Report

/-!
The analysis of a source text. The parse tree decides, and the look of the text where there is no
tree or no exported declaration in it.
-/
namespace ExportInventory

namespace Script.Dialect

private def byExtension : List (String × List Dialect) :=
  [(".js", [javascript]), (".mjs", [javascript]), (".cjs", [javascript]), (".jsx", [javascript]),
    (".ts", [typescript, tsx]), (".mts", [typescript, tsx]), (".cts", [typescript, tsx]),
    (".tsx", [tsx])]

def ofExtension? (extension : String) : Option (List Dialect) := byExtension.lookup extension

/-- The dialects of a file, in the order in which they are tried. The case of the extension does
not matter. -/
def ofPath (path : String) : List Dialect :=
  (ofExtension? (String.ofList ((Path.extension path).toList.map Char.toLower))).getD [javascript]

end Script.Dialect

open Script (Dialect)

def Tree.isError (t : Tree) : Bool := t.kind == "ERROR" || t.missing

def Tree.hasError (t : Tree) : Bool := t.preorder.any Tree.isError

/-- What an analysis needs: a parser, which may fail or leave errors in its trees, and the number
of nodes to search for markup. -/
structure Engine where
  parser : Dialect → Bytes → Option Tree
  budget : Nat

namespace Engine

def scriptParser (d : Dialect) (bytes : Bytes) : Option Tree :=
  Script.parse? d (Encoding.utf8 bytes)

variable (e : Engine)

def firstTree? (bytes : Bytes) : List Dialect → Option (Dialect × Tree)
  | [] => none
  | d :: rest =>
    match e.parser d bytes with
    | some tree => if tree.hasError then firstTree? bytes rest else some (d, tree)
    | none => firstTree? bytes rest

def parse? (t : Text) (path : String) : Option (Dialect × Source) := do
  let bytes ← Encoding.encode? t
  let (dialect, tree) ← e.firstTree? bytes (Dialect.ofPath path)
  return (dialect, ⟨path, bytes, tree⟩)

/-- The tree of a piece of text in the last of the file's dialects, errors or not. -/
def fragment? (t : Text) (path : String) : Option Tree := do
  let bytes ← Encoding.encode? t
  let dialect ← (Dialect.ofPath path).getLast?
  e.parser dialect bytes

def fragmentMarkup (path : String) (t : Text) : Bool :=
  (e.fragment? t path).any (·.containsMarkup e.budget)

def sketch (t : Text) (path : String) : Report := Sketch.report t path (e.fragmentMarkup path)

def analyze (t : Text) (path : String) : Report :=
  match e.parse? t path with
  | none => e.sketch t path
  | some (_, source) =>
    let records := Classification.records source e.budget
    if records.isEmpty then e.sketch t path else .ofRecords records path

end Engine
end ExportInventory
