import ExportInventory.Proofs.Path
import Mathlib.Data.List.Infix

/-!
What stands at a place after a change, where paths lead, and which files lie below a place. Without
links a path leads to the place that its names spell, and a change of one place leaves all others as
they are.
-/
namespace ExportInventory.Disk

theorem isBelow_iff {l x : Location} : isBelow l x = true ↔ ∃ name rest, x = l ++ name :: rest := by
  simp only [isBelow, Bool.and_eq_true, List.isPrefixOf_iff_prefix, decide_eq_true_eq]
  constructor
  · rintro ⟨⟨behind, rfl⟩, longer⟩
    cases behind with
    | nil => simp at longer
    | cons name rest => exact ⟨name, rest, rfl⟩
  · rintro ⟨name, rest, rfl⟩
    exact ⟨List.prefix_append _ _, by simp⟩

theorem isBelow_append_left {l x y : Location} : isBelow (l ++ x) (l ++ y) = isBelow x y := by
  rw [Bool.eq_iff_iff, isBelow_iff, isBelow_iff]
  simp only [List.append_assoc, List.append_cancel_left_eq]

theorem isBelow_or_eq_of_prefix {l x : Location} (before : l <+: x) : isBelow l x = true ∨ l = x := by
  obtain ⟨behind, rfl⟩ := before
  cases behind with
  | nil => exact .inr (List.append_nil l).symm
  | cons name rest => exact .inl (isBelow_iff.mpr ⟨name, rest, rfl⟩)

theorem lookup_kept (d : Disk) (p : Location → Bool) (x : Location) :
    (d.kept p).lookup x = if p x then d.entries.lookup x else none := by
  unfold kept
  induction d.entries with
  | nil => simp
  | cons y rest ih =>
    obtain ⟨place, entry⟩ := y
    rw [List.filter_cons, List.lookup_cons]
    by_cases same : x = place
    · subst same
      cases kept : p x with
      | true => simp
      | false => simpa [kept] using ih
    · have other : (x == place) = false := beq_eq_false_iff_ne.mpr same
      cases kept : p place with
      | true => simpa [kept, List.lookup_cons, other] using ih
      | false => simpa [kept, other] using ih

variable {d : Disk}

theorem get?_nil : d.get? [] = some .directory := if_pos rfl

theorem get?_eq_some_iff {l : Location} {e : Entry} (nonempty : l ≠ []) :
    d.get? l = some e ↔ ∃ node, (l, node) ∈ d.entries ∧ node.entry d.contents = e := by
  rw [get?, if_neg nonempty, Option.map_eq_some_iff]
  constructor
  · rintro ⟨node, found, same⟩
    exact ⟨node, mem_of_lookup found, same⟩
  · rintro ⟨node, member, same⟩
    exact ⟨node, lookup_of_mem d.unique member, same⟩

theorem get?_dropLast {l : Location} {e : Entry} (nonempty : l ≠ []) (found : d.get? l = some e) :
    d.get? l.dropLast = some .directory := by
  obtain ⟨node, member, _⟩ := (get?_eq_some_iff nonempty).mp found
  obtain ⟨_, top | inside⟩ := d.rooted _ member
  · rw [top]
    exact get?_nil
  · exact (get?_eq_some_iff (d.rooted _ inside).1).mpr ⟨.directory, inside, rfl⟩

theorem get?_of_isBelow {l x : Location} {e : Entry} (found : d.get? x = some e)
    (below : isBelow l x = true) : d.get? l = some .directory := by
  obtain ⟨name, rest, rfl⟩ := isBelow_iff.mp below
  induction rest using List.reverseRecOn generalizing e with
  | nil =>
    have above := get?_dropLast (by simp) found
    simpa using above
  | append_singleton rest last ih =>
    have above := get?_dropLast (by simp) found
    have shorter : (l ++ name :: (rest ++ [last])).dropLast = l ++ name :: rest := by
      rw [← List.cons_append, ← List.append_assoc, List.dropLast_concat]
    rw [shorter] at above
    exact ih above (isBelow_iff.mpr ⟨name, rest, rfl⟩)

theorem get?_insert {l : Location} {node : Node} (nonempty : l ≠ [])
    (above : d.get? l.dropLast = some .directory) (free : d.get? l ≠ some .directory) (x : Location) :
    (d.insert l node).get? x = if x = l then some (node.entry d.contents) else d.get? x := by
  rw [insert, dif_pos ⟨nonempty, above, free⟩]
  by_cases here : x = l
  · subst here
    simp [get?, nonempty]
  · have other : (x == l) = false := beq_eq_false_iff_ne.mpr here
    simp [get?, lookup_kept, List.lookup_cons, here, other]

private theorem system_insert (l : Location) (node : Node) :
    (d.insert l node).system = d.system := by
  unfold insert
  split <;> rfl

theorem lt_fresh {l : Location} {n : Nat} (member : (l, .file n) ∈ d.entries) : n < d.fresh := by
  unfold fresh
  generalize d.entries = entries at member
  induction entries with
  | nil => cases member
  | cons x rest ih =>
    rw [List.foldr_cons]
    rcases List.mem_cons.mp member with rfl | later
    · exact Nat.lt_of_lt_of_le (Nat.lt_succ_self n) (Nat.le_max_left _ _)
    · exact Nat.lt_of_lt_of_le (ih later) (Nat.le_max_right _ _)

theorem get?_fill {n : Nat} {content : Bytes} {x : Location} (other : (x, .file n) ∉ d.entries) :
    (d.fill n content).get? x = d.get? x := by
  by_cases root : x = []
  · subst root
    rfl
  · simp only [get?, if_neg root, fill]
    cases found : d.entries.lookup x with
    | none => rfl
    | some node =>
      have member := mem_of_lookup found
      cases node with
      | directory => rfl
      | link target => rfl
      | file m =>
        have different : m ≠ n := by
          rintro rfl
          exact other member
        simp [Node.entry, different]

theorem get?_fill_self {n : Nat} {content : Bytes} {x : Location} (member : (x, .file n) ∈ d.entries) :
    (d.fill n content).get? x = some (.file content) := by
  refine (get?_eq_some_iff (d.rooted _ member).1).mpr ⟨.file n, member, ?_⟩
  simp [Node.entry, fill]

theorem filterMap_number {entries : List (Location × Node)} {l : Location} {n : Nat} :
    ((l, Node.file n) :: entries).filterMap (·.2.number?) = n :: entries.filterMap (·.2.number?) :=
  List.filterMap_cons_some rfl

/-- A file system without links: nothing leads on to a path, and no two files share their content. -/
structure LinkFree (d : Disk) : Prop where
  straight : ∀ x ∈ d.entries, x.2.isLink = false
  alone : (d.entries.filterMap (·.2.number?)).Nodup

namespace LinkFree

variable (linkFree : d.LinkFree)
include linkFree

theorem get?_ne_link (l : Location) (target : String) : d.get? l ≠ some (.link target) := by
  intro found
  have nonempty : l ≠ [] := by
    rintro rfl
    rw [get?_nil] at found
    cases found
  obtain ⟨node, member, same⟩ := (get?_eq_some_iff nonempty).mp found
  have straight := linkFree.straight _ member
  cases node with
  | file n => cases same
  | directory => cases same
  | link path => cases straight

private theorem eq_of_number {x y : Location} {n : Nat} (first : (x, .file n) ∈ d.entries)
    (second : (y, .file n) ∈ d.entries) : x = y := by
  have alone := linkFree.alone
  generalize d.entries = entries at first second alone
  induction entries with
  | nil => cases first
  | cons z rest ih =>
    have listed {l : Location} (member : (l, Node.file n) ∈ rest) :
        n ∈ rest.filterMap (·.2.number?) :=
      List.mem_filterMap.mpr ⟨_, member, rfl⟩
    rcases List.mem_cons.mp first with rfl | behind
    · rcases List.mem_cons.mp second with same | other
      · exact congrArg Prod.fst same.symm
      · rw [filterMap_number, List.nodup_cons] at alone
        exact absurd (listed other) alone.1
    · rcases List.mem_cons.mp second with rfl | other
      · rw [filterMap_number, List.nodup_cons] at alone
        exact absurd (listed behind) alone.1
      · exact ih behind other (alone.sublist ((List.sublist_cons_self z rest).filterMap _))

theorem of_sublist {e : Disk} (fewer : e.entries.Sublist d.entries) : e.LinkFree :=
  ⟨fun x member => linkFree.straight x (fewer.subset member),
    linkFree.alone.sublist (fewer.filterMap _)⟩

private theorem insert (l : Location) {node : Node} (straight : node.isLink = false)
    (new : ∀ n, node = .file n → d.fresh ≤ n) : (d.insert l node).LinkFree := by
  unfold Disk.insert
  split
  · constructor
    · intro x member
      rcases List.mem_cons.mp member with rfl | old
      · exact straight
      · exact linkFree.straight x (List.mem_filter.mp old).1
    · have others : ((d.kept (· ≠ l)).filterMap (·.2.number?)).Nodup :=
        linkFree.alone.sublist (List.filter_sublist.filterMap _)
      cases node with
      | directory => exact others
      | link target => exact others
      | file n =>
        rw [filterMap_number, List.nodup_cons]
        refine ⟨?_, others⟩
        rw [List.mem_filterMap]
        rintro ⟨⟨x, other⟩, member, same⟩
        cases other with
        | directory => cases same
        | link target => cases same
        | file m =>
          obtain rfl := Option.some.inj same
          exact Nat.not_lt.mpr (new _ rfl) (lt_fresh (List.mem_filter.mp member).1)
  · exact linkFree

private theorem put (l : Location) {e : Entry} (straight : ∀ target, e ≠ .link target) :
    (d.put l e).LinkFree := by
  cases e with
  | link target => exact absurd rfl (straight target)
  | directory => exact linkFree.insert l rfl (by simp)
  | file content =>
    unfold Disk.put putFile
    dsimp only
    split
    · exact ⟨linkFree.straight, linkFree.alone⟩
    · have inserted : (d.insert l (.file d.fresh)).LinkFree := linkFree.insert l rfl (by simp)
      exact ⟨inserted.straight, inserted.alone⟩

end LinkFree

theorem get?_put (linkFree : d.LinkFree) {l : Location} {e : Entry} (nonempty : l ≠ [])
    (above : d.get? l.dropLast = some .directory) (free : d.get? l ≠ some .directory) (x : Location) :
    (d.put l e).get? x = if x = l then some e else d.get? x := by
  cases e with
  | directory => exact get?_insert nonempty above free x
  | link target => exact get?_insert nonempty above free x
  | file content =>
    unfold put putFile
    dsimp only
    split
    · rename_i n found
      have member := mem_of_lookup found
      by_cases here : x = l
      · subst here
        rw [get?_fill_self member, if_pos rfl]
      · rw [get?_fill fun other => here (linkFree.eq_of_number other member), if_neg here]
    · -- the number of a new file is one that no other file has
      have inserted (y : Location) : (d.insert l (.file d.fresh)).get? y =
          if y = l then some (.file (d.contents d.fresh)) else d.get? y :=
        get?_insert nonempty above free y
      have unused (y : Location) : (y, .file d.fresh) ∉ d.entries :=
        fun member => Nat.lt_irrefl _ (lt_fresh member)
      by_cases here : x = l
      · subst here
        rw [if_pos rfl]
        apply get?_fill_self
        rw [insert, dif_pos ⟨nonempty, above, free⟩]
        exact List.mem_cons_self
      · rw [get?_fill, inserted, if_neg here, if_neg here]
        rw [insert, dif_pos ⟨nonempty, above, free⟩]
        intro member
        rcases List.mem_cons.mp member with same | old
        · exact here (congrArg Prod.fst same)
        · exact unused x (List.mem_filter.mp old).1

private theorem system_put (l : Location) (e : Entry) : (d.put l e).system = d.system := by
  cases e with
  | directory => exact system_insert _ _
  | link target => exact system_insert _ _
  | file content =>
    unfold put putFile
    dsimp only
    split
    · rfl
    · exact system_insert _ _

theorem get?_clear (l x : Location) :
    (d.clear l).get? x = if isBelow l x && !d.stays x then none else d.get? x := by
  by_cases root : x = []
  · subst root
    simp [get?, isBelow]
  · simp only [get?, clear, if_neg root, lookup_kept]
    cases isBelow l x <;> cases d.stays x <;> rfl

theorem get?_drop {l x : Location} (other : x ≠ l) : (d.drop l).get? x = d.get? x := by
  unfold drop
  split
  · simp [get?, lookup_kept, other]
  · rfl

/-- The content of the file at a place. -/
def content? (d : Disk) (l : Location) : Option Bytes :=
  match d.get? l with
  | some (.file content) => some content
  | _ => none

theorem content?_eq_some_iff {l : Location} {content : Bytes} :
    d.content? l = some content ↔ d.get? l = some (.file content) := by
  unfold content?
  split
  · rename_i found
    rw [found]
    simp
  · rename_i other
    exact iff_of_false (by simp) (other content)

theorem content?_of_directory {l : Location} (found : d.get? l = some .directory) :
    d.content? l = none := by
  simp [content?, found]

theorem directory_of_content? (linkFree : d.LinkFree) {l : Location} {e : Entry}
    (found : d.get? l = some e) (noFile : d.content? l = none) : d.get? l = some .directory := by
  cases e with
  | directory => exact found
  | file content => simp [content?, found] at noFile
  | link target => exact absurd found (linkFree.get?_ne_link l target)

theorem content?_congr {d' : Disk} {l : Location} (same : d'.get? l = d.get? l) :
    d'.content? l = d.content? l := by
  rw [content?, content?, same]

theorem content?_drop {l : Location} (found : d.get? l = some .directory) (x : Location) :
    (d.drop l).content? x = d.content? x := by
  by_cases here : x = l
  · subst here
    rw [content?_of_directory found]
    unfold drop
    split
    · by_cases root : x = []
      · simp [content?, get?, root]
      · simp [content?, get?, lookup_kept, root]
    · exact content?_of_directory found
  · exact content?_congr (get?_drop here)

theorem fault?_eq_none_iff {system : System} {path : String} :
    system.fault? path = none ↔ ∀ c ∈ path.toList, system.takes c = true := by
  unfold System.fault?
  by_cases null : System.hasNull path = true
  · rw [if_pos null]
    refine iff_of_false (by simp) fun all => ?_
    rw [System.hasNull, List.contains_eq_mem, decide_eq_true_eq] at null
    exact absurd (all _ null) (by simp [System.takes])
  · rw [if_neg null]
    split
    · rename_i all
      exact iff_of_true rfl (List.all_eq_true.mp all)
    · rename_i some_
      exact iff_of_false (by simp) fun all => some_ (List.all_eq_true.mpr all)

theorem fault?_of_append {system : System} {path front : String} {rest : List Char}
    (text : path.toList = front.toList ++ rest) (spelled : system.fault? path = none) :
    system.fault? front = none := by
  rw [fault?_eq_none_iff] at spelled ⊢
  intro c member
  exact spelled c (by simp [text, member])

/-- All places that names are followed from are directories. -/
def Leads (d : Disk) : Location → List String → Prop
  | _, [] => True
  | here, name :: rest => d.get? here = some .directory ∧ d.Leads (Path.walk here [name]) rest

private theorem advance_cons (linkFree : d.LinkFree) (path : String) (through : Bool)
    {here : Location}
    (directory : d.get? here = some .directory) (name : String) (rest : List String) :
    d.advance path through here (name :: rest) =
      d.advance path through (Path.walk here [name]) rest := by
  rw [advance, directory]
  simp only [Path.walk]
  by_cases quiet : name = "" ∨ name = "."
  · rw [if_pos quiet, if_pos quiet]
  · rw [if_neg quiet, if_neg quiet]
    by_cases up : name = ".."
    · rw [if_pos up, if_pos up]
    · rw [if_neg up, if_neg up]
      split
      · rename_i target found
        exact absurd found (linkFree.get?_ne_link _ target)
      · rfl

private theorem advance_eq_ok_iff (linkFree : d.LinkFree) {path : String} {through : Bool}
    {here : Location}
    {names : List String} {leg : Leg} :
    d.advance path through here names = .ok leg ↔
      d.Leads here names ∧ leg = .place (Path.walk here names) := by
  induction names generalizing here with
  | nil =>
    rw [advance]
    constructor
    · intro reached
      exact ⟨trivial, (Except.ok.inj reached).symm⟩
    · rintro ⟨_, rfl⟩
      rfl
  | cons name rest ih =>
    by_cases directory : d.get? here = some .directory
    · have walked : Path.walk here (name :: rest) = Path.walk (Path.walk here [name]) rest :=
        Path.walk_append here [name] rest
      rw [advance_cons linkFree path through directory, ih, Leads, walked]
      simp [directory]
    · refine iff_of_false ?_ fun leads => directory leads.1.1
      rw [advance]
      split
      · simp
      · simp
      · simp
      · rename_i found
        exact absurd found directory

private theorem follow_eq_ok_iff (linkFree : d.LinkFree) (path : String) (through : Bool)
    (links : Nat)
    {here l : Location} {names : List String} :
    d.follow path through links here names = .ok l ↔
      d.Leads here names ∧ l = Path.walk here names := by
  unfold follow
  cases reached : d.advance path through here names with
  | error e =>
    refine iff_of_false (by simp) ?_
    rintro ⟨leads, rfl⟩
    rw [(advance_eq_ok_iff linkFree).mpr ⟨leads, rfl⟩] at reached
    cases reached
  | ok leg =>
    obtain ⟨leads, rfl⟩ := (advance_eq_ok_iff linkFree).mp reached
    simp [leads, eq_comm]

/-- The place that a path starts from. -/
def origin (d : Disk) (path : String) : Location :=
  if Path.isAbsolute path then [] else Path.names d.system.workingDirectory

/-- Without links, a path leads where its names spell, if all of them lie in directories. -/
theorem resolve_iff (linkFree : d.LinkFree) {path : String} {through : Bool} {l : Location} :
    d.resolve through path = .ok l ↔ d.system.fault? path = none ∧ path ≠ "" ∧
      d.Leads (d.origin path) (Path.segments path) ∧
        l = Path.walk (d.origin path) (Path.segments path) := by
  unfold resolve
  cases d.system.fault? path with
  | some e => simp
  | none =>
    by_cases empty : path = ""
    · simp [empty]
    · rw [← follow_eq_ok_iff linkFree path through linkLimit, origin]
      simp [String.isEmpty_iff, empty]

theorem locate_iff (linkFree : d.LinkFree) {path : String} {l : Location} :
    d.locate path = .ok l ↔ d.system.fault? path = none ∧ path ≠ "" ∧
      d.Leads (d.origin path) (Path.segments path) ∧
        l = Path.walk (d.origin path) (Path.segments path) :=
  resolve_iff linkFree

theorem resolve_eq_ok_iff (linkFree : d.LinkFree) {path : String} {l : Location} :
    d.resolve false path = .ok l ↔ d.locate path = .ok l :=
  (resolve_iff linkFree).trans (locate_iff linkFree).symm

theorem isDirectory_iff {path : String} :
    d.isDirectory path = true ↔ ∃ l, d.locate path = .ok l ∧ d.get? l = some .directory := by
  unfold isDirectory find?
  cases d.locate path <;> simp

theorem pathExists_iff {path : String} :
    d.pathExists path = true ↔ ∃ l e, d.locate path = .ok l ∧ d.get? l = some e := by
  unfold pathExists find?
  cases d.locate path <;> simp [Option.isSome_iff_exists]

theorem mem_filesBelow (linkFree : d.LinkFree) {l p : Location} {content : Bytes} :
    (p, content) ∈ d.filesBelow l ↔ d.get? (l ++ p) = some (.file content) ∧ p ≠ [] := by
  have target (x : Location) : d.target? x = d.get? x := by
    unfold target?
    split
    · rename_i path found
      exact absurd found (linkFree.get?_ne_link x path)
    · rfl
  unfold filesBelow
  rw [List.mem_mergeSort, List.mem_filterMap]
  constructor
  · rintro ⟨place, member, kept⟩
    unfold filesBelow.file? at kept
    split at kept
    · rename_i below
      obtain ⟨name, rest, rfl⟩ := isBelow_iff.mp below
      rw [target] at kept
      split at kept
      · rename_i bytes found
        simp only [List.drop_left, Option.some.injEq, Prod.mk.injEq] at kept
        obtain ⟨rfl, rfl⟩ := kept
        exact ⟨found, by simp⟩
      · cases kept
    · cases kept
  · rintro ⟨found, nonempty⟩
    obtain ⟨name, rest, rfl⟩ := List.exists_cons_of_ne_nil nonempty
    obtain ⟨node, member, _⟩ := (get?_eq_some_iff (by simp)).mp found
    refine ⟨l ++ name :: rest, List.mem_map_of_mem member, ?_⟩
    simp [filesBelow.file?, isBelow_iff.mpr ⟨name, rest, rfl⟩, target, found]

/-- The second file system differs from the first in one place at most, and has no links either. -/
structure Changed (d d' : Disk) (l : Location) (e : Entry) : Prop where
  linkFree : d'.LinkFree
  system : d'.system = d.system
  get? : ∀ x, d'.get? x = if x = l then some e else d.get? x

theorem changed_put (linkFree : d.LinkFree) {l : Location} {e : Entry}
    (straight : ∀ target, e ≠ .link target) (above : d.get? l.dropLast = some .directory)
    (free : d.get? l ≠ some .directory) : Changed d (d.put l e) l e := by
  have nonempty : l ≠ [] := by
    rintro rfl
    exact free get?_nil
  exact ⟨linkFree.put l straight, system_put l e, get?_put linkFree nonempty above free⟩

theorem create_ok (linkFree : d.LinkFree) {path : String} {l : Location} {e : Entry} {d' : Disk}
    (straight : ∀ target, e ≠ .link target) (done : d.create path l e = .ok d')
    (free : d.get? l ≠ some .directory) : Changed d d' l e := by
  unfold create at done
  split at done
  · cases done
  · rename_i above
    obtain rfl := Except.ok.inj done
    exact changed_put linkFree straight above free
  · cases done

theorem refusal?_eq_none {access : Access} {path : String} {l : Location} :
    d.refusal? access path l = none ↔ d.system.refuses access l = none := by
  simp [refusal?]

theorem makeDirectory_ok (linkFree : d.LinkFree) {path : String} {d' : Disk}
    (done : d.makeDirectory path = .ok d') :
    ∃ l, d.get? l = none ∧ d.system.refuses .make l = none ∧ Changed d d' l .directory := by
  unfold makeDirectory at done
  split at done
  · cases done
  · rename_i l _
    split at done
    · cases done
    · cases done
    · rename_i vacant allowed
      exact ⟨l, vacant, refusal?_eq_none.mp allowed,
        create_ok linkFree (by simp) done (by simp [vacant])⟩

theorem write_ok (linkFree : d.LinkFree) {path : String} {content : Bytes} {d' : Disk}
    (done : d.write path content = .ok d') :
    ∃ l, d.locate path = .ok l ∧ d.system.refuses .write l = none ∧ Changed d d' l (.file content) := by
  unfold write at done
  split at done
  · cases done
  · rename_i l place
    split at done
    · cases done
    · cases done
    · rename_i old allowed found
      obtain rfl := Except.ok.inj done
      have nonempty : l ≠ [] := by
        rintro rfl
        simp [get?_nil] at found
      exact ⟨l, place, refusal?_eq_none.mp allowed,
        changed_put linkFree (by simp) (get?_dropLast nonempty found) (by simp [found])⟩
    · cases done
    · rename_i allowed vacant
      exact ⟨l, place, refusal?_eq_none.mp allowed,
        create_ok linkFree (by simp) done (by simp [vacant])⟩

-- links are what makes the difference: here a report that is written takes the place of a source
example :
    let d : Disk := ⟨[(["src"], .directory), (["src", "a.js"], .file 0), (["out"], .directory),
      (["out", "a.js.json"], .link "/src/a.js")], fun _ => [49], .permissive "/" 3, by decide,
      by decide⟩
    d.content? ["src", "a.js"] = some [49] ∧
      ∃ d', d.write "/out/a.js.json" [50] = .ok d' ∧ d'.content? ["src", "a.js"] = some [50] :=
  ⟨by decide, _, by rfl, by decide⟩

theorem removable?_eq_some_iff (linkFree : d.LinkFree) {path : String} {l : Location} :
    d.removable? path = some l ↔ d.locate path = .ok l ∧ d.get? l = some .directory := by
  unfold removable?
  cases there : d.locate path with
  | error e => cases d.resolve false path <;> simp
  | ok x =>
    rw [(resolve_eq_ok_iff linkFree).mpr there]
    simp only [decide_true, Bool.true_and, isDirectoryAt, decide_eq_true_eq, Except.ok.injEq]
    split
    · rename_i directory
      constructor
      · rintro same
        obtain rfl := Option.some.inj same
        exact ⟨rfl, directory⟩
      · rintro ⟨rfl, _⟩
        rfl
    · rename_i other
      refine iff_of_false (by simp) ?_
      rintro ⟨rfl, directory⟩
      exact other directory

/-- Nothing lies below a file, so that it is its own name that decides whether it stays. -/
theorem stays_of_file {x : Location} {content : Bytes} (found : d.get? x = some (.file content)) :
    d.stays x = d.system.keeps x := by
  have none_ : d.entries.any (fun y => isBelow x y.1 && d.system.keeps y.1) = false := by
    rw [List.any_eq_false]
    rintro ⟨y, node⟩ member
    cases below : isBelow x y with
    | false => simp
    | true =>
      have there := (get?_eq_some_iff (d.rooted _ member).1).mpr ⟨node, member, rfl⟩
      rw [get?_of_isBelow there below] at found
      cases found
  rw [stays, none_, Bool.or_false]

theorem content?_clear (l x : Location) :
    (d.clear l).content? x = if isBelow l x && !d.system.keeps x then none else d.content? x := by
  rw [content?, get?_clear]
  cases found : d.content? x with
  | none =>
    have other (content : Bytes) : d.get? x ≠ some (.file content) := by
      intro same
      rw [content?_eq_some_iff.mpr same] at found
      cases found
    split
    · rename_i same
      split at same
      · cases same
      · exact absurd same (other _)
    · simp
  | some content =>
    have file := content?_eq_some_iff.mp found
    rw [stays_of_file file, file]
    cases isBelow l x <;> cases d.system.keeps x <;> rfl

theorem content?_removeDirectory (path : String) (x : Location) :
    (d.removeDirectory path).content? x = d.content? x := by
  unfold removeDirectory
  dsimp only
  split
  · rfl
  · split
    · rfl
    · split
      · rename_i directory
        rw [Bool.and_eq_true] at directory
        exact content?_drop (by simpa [isDirectoryAt] using directory.1) x
      · rfl

theorem entries_removeDirectory (path : String) :
    (d.removeDirectory path).entries.Sublist d.entries ∧
      (d.removeDirectory path).system = d.system := by
  unfold removeDirectory drop
  dsimp only
  split_ifs
  · exact ⟨List.Sublist.refl _, rfl⟩
  · split
    · exact ⟨List.Sublist.refl _, rfl⟩
    · split_ifs
      · exact ⟨List.filter_sublist, rfl⟩
      · exact ⟨List.Sublist.refl _, rfl⟩
      · exact ⟨List.Sublist.refl _, rfl⟩

end ExportInventory.Disk
