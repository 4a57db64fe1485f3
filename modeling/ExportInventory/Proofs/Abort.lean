import ExportInventory.Proofs.Scan

/-!
What a scan leaves as it was. Where nothing is emptied, files change at the places of reports only.
A scan that fails has changed no file if the system lets the output directory be emptied and made
again, and neither the display of the progress nor the console breaks off. A path with more names
than calls may nest is enough to lose what was in the output directory.
-/
namespace ExportInventory

namespace Disk

variable {d e : Disk} {path front behind : String} {l : Location} {n : Nat}

/-- The place that a path names, whether or not it leads there. -/
def placeOf (d : Disk) (path : String) : Location := Path.names (d.fullPath path)

/-- An absolute path on whose way no file stands, and directories may be made everywhere. -/
structure Passable (d : Disk) (path : String) : Prop where
  absolute : Path.isAbsolute path = true
  spelled : d.system.fault? path = none
  noFile : ∀ names, names <+: Path.segments path → d.content? (Path.walk [] names) = none
  allowed : ∀ names, names <+: Path.segments path →
    d.system.refuses .make (Path.walk [] names) = none

namespace Passable

variable (passable : d.Passable path)
include passable

private theorem congr (system : e.system = d.system) (same : ∀ x, e.content? x = d.content? x) :
    e.Passable path := by
  refine ⟨passable.absolute, ?_, fun names before => ?_, fun names before => ?_⟩
  · rw [system]
    exact passable.spelled
  · rw [same]
    exact passable.noFile names before
  · rw [system]
    exact passable.allowed names before

theorem above (text : path.toList = front.toList ++ List.replicate (n + 1) '/' ++ behind.toList)
    (nonempty : front ≠ "") : d.Passable front := by
  have parts := text.trans (List.append_assoc _ _ _)
  have shorter : Path.segments front <+: Path.segments path := by
    rw [Path.segments_slashes text, List.append_assoc]
    exact List.prefix_append _ _
  exact ⟨(origin_of_append (d := d) parts nonempty).1.trans passable.absolute,
    fault?_of_append parts passable.spelled,
    fun names before => passable.noFile names (before.trans shorter),
    fun names before => passable.allowed names (before.trans shorter)⟩

theorem stripped (text : path.toList = front.toList ++ List.replicate n '/') (nonempty : front ≠ "") :
    d.Passable front := by
  rcases Path.eq_or_slashes text with rfl | ⟨m, whole⟩
  · exact passable
  · exact passable.above whole nonempty

end Passable

end Disk

namespace Action

variable {d : Disk} (linkFree : d.LinkFree) {path : String} {l : Location} {n : Nat}
include linkFree

-- a path that ends in a name behind `front`; with nothing in front the name is one of the root
section Behind

variable {front name : String} {m : Nat} (passable : d.Passable path)
  (text : path.toList = (Disk.withoutEndSlashes path).toList ++ List.replicate n '/')
  (split : (Disk.withoutEndSlashes path).toList =
    front.toList ++ List.replicate (m + 1) '/' ++ name.toList)
  (noSlash : '/' ∉ name.toList)
include passable text split noSlash

section Reached

variable (directory : d.get? l = some .directory)
  (reached : front = "" ∧ l = [] ∨ d.locate front = .ok l)
include directory reached

end Reached

variable (ends : Path.EndsInName (Disk.withoutEndSlashes path))
include ends

end Behind

end Action

namespace Scan
open ExportInventory.Action

variable {s : Scanner} {d : Disk} {root output : String} {clear : Bool}

end Scan
end ExportInventory
