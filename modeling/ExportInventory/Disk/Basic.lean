import ExportInventory.Failure
import ExportInventory.Path

/-!
File systems as values: what stands at which place, and what files hold. Every place but the root
has one entry at most, and its directory is there. Files that share a number share their content,
and links lead on to other paths. What the system around it does on its own account is part of a
file system too: the paths it takes, the steps it refuses or breaks off.
-/
namespace ExportInventory

/-- A place in a file system: the names on the way to it from the root. -/
abbrev Location := List String

inductive Node where
  | file (number : Nat)
  | directory
  | link (target : String)
deriving DecidableEq, Repr

namespace Node

def number? : Node → Option Nat
  | file n => some n
  | _ => none

def isLink : Node → Bool
  | link _ => true
  | _ => false

end Node

inductive Entry where
  | file (content : Bytes)
  | directory
  | link (target : String)
deriving DecidableEq, Repr

def Node.entry (contents : Nat → Bytes) : Node → Entry
  | file n => .file (contents n)
  | directory => .directory
  | link target => .link target

inductive Access where
  | read
  | write
  | make
deriving DecidableEq, Repr

/-- The system around a file system. Relative paths start from its working directory, which it may
be unable to tell. It has bytes for all ASCII characters in paths and for those that it `encodes`.
It `refuses` access to places, `cutsOff` what is written to them, `keeps` what is to be removed, and
may break off the listing or the emptying of a directory. Calls nest no deeper than `nesting`. -/
structure System where
  workingDirectory : String
  lost : Option SystemError
  encodes : Char → Bool
  refuses : Access → Location → Option SystemError
  cutsOff : Location → Option (Nat × String)
  keeps : Location → Bool
  stopsListing : Location → Option String
  stopsEmptying : Location → Option String
  nesting : Nat

namespace System

def permissive (workingDirectory : String) (nesting : Nat) : System where
  workingDirectory := workingDirectory
  lost := none
  encodes := fun _ => true
  refuses := fun _ _ => none
  cutsOff := fun _ => none
  keeps := fun _ => false
  stopsListing := fun _ => none
  stopsEmptying := fun _ => none
  nesting := nesting

variable (s : System)

def takes (c : Char) : Bool := c ≠ Char.ofNat 0 && (c.toNat < 128 || s.encodes c)

def hasNull (path : String) : Bool := path.toList.contains (Char.ofNat 0)

def fault? (path : String) : Option Failure :=
  if hasNull path then some .nullInPath
  else if path.toList.all s.takes then none
  else some (.unencodable path)

def absolute (path : String) : Except Failure String :=
  if Path.isAbsolute path then .ok (Path.absolute s.workingDirectory path)
  else
    match s.lost with
    | some error => .error (.refused error none)
    | none => .ok (Path.absolute s.workingDirectory path)

end System

/-- A file system. The root is always there and not among the entries. -/
structure Disk where
  entries : List (Location × Node)
  contents : Nat → Bytes
  system : System
  unique : (entries.map Prod.fst).Nodup
  rooted : ∀ x ∈ entries,
    x.1 ≠ [] ∧ (x.1.dropLast = [] ∨ (x.1.dropLast, Node.directory) ∈ entries)

namespace Disk

def empty (system : System) : Disk where
  entries := []
  contents := fun _ => []
  system := system
  unique := by simp
  rooted := by simp

def get? (d : Disk) (l : Location) : Option Entry :=
  if l = [] then some .directory else (d.entries.lookup l).map (Node.entry d.contents)

def isDirectoryAt (d : Disk) (l : Location) : Bool := d.get? l = some .directory

theorem lookup_of_mem {entries : List (Location × Node)} (unique : (entries.map Prod.fst).Nodup)
    {l : Location} {e : Node} (member : (l, e) ∈ entries) : entries.lookup l = some e := by
  induction entries with
  | nil => simp at member
  | cons x rest ih =>
    simp only [List.map_cons, List.nodup_cons] at unique
    rcases List.mem_cons.mp member with rfl | later
    · simp
    · have different : ¬ l = x.1 := by
        intro same
        exact unique.1 (same ▸ List.mem_map_of_mem later)
      rw [List.lookup_cons, beq_eq_false_iff_ne.mpr different]
      exact ih unique.2 later

theorem mem_of_lookup {entries : List (Location × Node)} {l : Location} {e : Node}
    (found : entries.lookup l = some e) : (l, e) ∈ entries := by
  obtain ⟨before, after, same, _⟩ := List.lookup_eq_some_iff.mp found
  simp [same]

theorem entry_eq_directory {contents : Nat → Bytes} {node : Node} :
    node.entry contents = .directory ↔ node = .directory := by
  cases node <;> simp [Node.entry]

theorem lookup_directory {d : Disk} {l : Location} (nonempty : l ≠ [])
    (found : d.get? l = some .directory) : d.entries.lookup l = some .directory := by
  rw [get?, if_neg nonempty, Option.map_eq_some_iff] at found
  obtain ⟨node, listed, same⟩ := found
  rwa [entry_eq_directory.mp same] at listed

def kept (d : Disk) (p : Location → Bool) : List (Location × Node) :=
  d.entries.filter (fun x => p x.1)

theorem kept_unique (d : Disk) (p : Location → Bool) : ((d.kept p).map Prod.fst).Nodup :=
  d.unique.sublist (List.filter_sublist.map Prod.fst)

theorem dropLast_ne {l : Location} (nonempty : l ≠ []) : l.dropLast ≠ l := by
  intro same
  have := congrArg List.length same
  have := List.length_pos_iff.mpr nonempty
  simp only [List.length_dropLast] at *
  omega

/-- Puts a node at a place whose directory is there. Where a directory stands or none is above,
nothing changes. -/
def insert (d : Disk) (l : Location) (node : Node) : Disk :=
  if fits : l ≠ [] ∧ d.get? l.dropLast = some .directory ∧ d.get? l ≠ some .directory then
    { d with
      entries := (l, node) :: d.kept (· ≠ l)
      unique := by
        rw [List.map_cons, List.nodup_cons]
        refine ⟨?_, d.kept_unique _⟩
        simp [kept]
      rooted := by
        obtain ⟨nonempty, above, free⟩ := fits
        intro x member
        rcases List.mem_cons.mp member with rfl | old
        · refine ⟨nonempty, ?_⟩
          by_cases top : l.dropLast = []
          · exact .inl top
          · refine .inr (List.mem_cons_of_mem _ (List.mem_filter.mpr
              ⟨mem_of_lookup (lookup_directory top above), ?_⟩))
            simpa using dropLast_ne nonempty
        · obtain ⟨old, other⟩ := List.mem_filter.mp old
          obtain ⟨nonroot, parent⟩ := d.rooted x old
          refine ⟨nonroot, parent.imp_right fun inside => ?_⟩
          refine List.mem_cons_of_mem _ (List.mem_filter.mpr ⟨inside, ?_⟩)
          have : x.1.dropLast ≠ l := by
            intro same
            rw [same] at inside
            exact free (by rw [get?, if_neg nonempty, lookup_of_mem d.unique inside]; rfl)
          simpa using this }
  else d

def fill (d : Disk) (number : Nat) (content : Bytes) : Disk :=
  { d with contents := fun n => if n = number then content else d.contents n }

def fresh (d : Disk) : Nat :=
  d.entries.foldr (fun x bound => max ((x.2.number?.map (· + 1)).getD 0) bound) 0

/-- Puts a file at a place. A file that stands there takes the new content, under all its names. -/
def putFile (d : Disk) (l : Location) (content : Bytes) : Disk :=
  match d.entries.lookup l with
  | some (.file n) => d.fill n content
  | _ => (d.insert l (.file d.fresh)).fill d.fresh content

def put (d : Disk) (l : Location) : Entry → Disk
  | .file content => d.putFile l content
  | .directory => d.insert l .directory
  | .link target => d.insert l (.link target)

def isBelow (l below : Location) : Bool := l.isPrefixOf below && l.length < below.length

theorem isBelow_of_dropLast {l x : Location} (h : isBelow l x.dropLast = true) :
    isBelow l x = true := by
  simp only [isBelow, Bool.and_eq_true, List.isPrefixOf_iff_prefix, decide_eq_true_eq] at *
  exact ⟨h.1.trans x.dropLast_prefix, by have := h.2; simp at this; omega⟩

theorem isBelow_dropLast {l x : Location} (nonempty : l ≠ []) (h : isBelow l x = true) :
    isBelow l.dropLast x = true := by
  simp only [isBelow, Bool.and_eq_true, List.isPrefixOf_iff_prefix, decide_eq_true_eq] at *
  refine ⟨l.dropLast_prefix.trans h.1, ?_⟩
  have := List.length_pos_iff.mpr nonempty
  have := h.2
  simp only [List.length_dropLast]
  omega

theorem isBelow_self {x : Location} (nonempty : x ≠ []) : isBelow x.dropLast x = true := by
  simp only [isBelow, Bool.and_eq_true, List.isPrefixOf_iff_prefix, decide_eq_true_eq]
  refine ⟨x.dropLast_prefix, ?_⟩
  have := List.length_pos_iff.mpr nonempty
  simp only [List.length_dropLast]
  omega

def stays (d : Disk) (l : Location) : Bool :=
  d.system.keeps l || d.entries.any (fun x => isBelow l x.1 && d.system.keeps x.1)

theorem stays_dropLast {d : Disk} {x : Location × Node} (member : x ∈ d.entries)
    (stays : d.stays x.1 = true) : d.stays x.1.dropLast = true := by
  have nonempty := (d.rooted x member).1
  simp only [Disk.stays, Bool.or_eq_true, List.any_eq_true, Bool.and_eq_true] at stays ⊢
  right
  rcases stays with kept | ⟨y, listed, below, kept⟩
  · exact ⟨x, member, isBelow_self nonempty, kept⟩
  · exact ⟨y, listed, isBelow_dropLast nonempty below, kept⟩

def clear (d : Disk) (l : Location) : Disk :=
  { d with
    entries := d.kept (fun x => !isBelow l x || d.stays x)
    unique := d.kept_unique _
    rooted := by
      intro x member
      obtain ⟨old, outside⟩ := List.mem_filter.mp member
      obtain ⟨nonroot, parent⟩ := d.rooted x old
      refine ⟨nonroot, parent.imp_right fun inside => List.mem_filter.mpr ⟨inside, ?_⟩⟩
      cases below : isBelow l x.1.dropLast with
      | false => simp [below]
      | true =>
        have stays : d.stays x.1 = true := by simpa [isBelow_of_dropLast below] using outside
        simp [stays_dropLast old stays] }

def drop (d : Disk) (l : Location) : Disk :=
  if bare : ∀ x ∈ d.entries, x.1.dropLast ≠ l then
    { d with
      entries := d.kept (· ≠ l)
      unique := d.kept_unique _
      rooted := by
        intro x member
        obtain ⟨old, _⟩ := List.mem_filter.mp member
        obtain ⟨nonroot, parent⟩ := d.rooted x old
        refine ⟨nonroot, parent.imp_right fun inside => List.mem_filter.mpr ⟨inside, ?_⟩⟩
        simpa using bare x old }
  else d

def precedes : Location → Location → Bool
  | [], _ => true
  | _ :: _, [] => false
  | a :: as, b :: bs => if a = b then precedes as bs else a < b

end Disk
end ExportInventory
