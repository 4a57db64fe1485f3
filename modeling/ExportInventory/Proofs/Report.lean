import ExportInventory.Record
import Mathlib.Data.List.Count

/-!
Consistent reports: each record stands among those of its kind, and the main export is the one
default record. A report made from records with at most one default is consistent.
-/
namespace ExportInventory.Report

section Counting

variable {α β : Type}

private theorem index_unique {p : α → Bool} {l : List α} (few : l.countP p ≤ 1) {i j : Nat}
    {x y : α}
    (first : l[i]? = some x) (firstHas : p x = true) (second : l[j]? = some y)
    (secondHas : p y = true) : i = j := by
  induction l generalizing i j with
  | nil => simp at first
  | cons head tail ih =>
    have later {k : Nat} {z : α} (entry : tail[k]? = some z) (has : p z = true) :
        0 < tail.countP p :=
      List.countP_pos_iff.mpr ⟨z, List.mem_of_getElem? entry, has⟩
    rw [List.countP_cons] at few
    cases i with
    | zero =>
      cases j with
      | zero => rfl
      | succ j =>
        rw [List.getElem?_cons_zero] at first
        rw [List.getElem?_cons_succ] at second
        obtain rfl := Option.some.inj first
        have more := later second secondHas
        simp only [firstHas, if_true] at few
        omega
    | succ i =>
      rw [List.getElem?_cons_succ] at first
      cases j with
      | zero =>
        rw [List.getElem?_cons_zero] at second
        obtain rfl := Option.some.inj second
        have more := later first firstHas
        simp only [secondHas, if_true] at few
        omega
      | succ j =>
        rw [List.getElem?_cons_succ] at second
        rw [ih (by omega) first second]

theorem countP_filterMap_le {p : β → Bool} {q : α → Bool} {f : α → Option β}
    (comes : ∀ a b, f a = some b → p b = true → q a = true) (l : List α) :
    (l.filterMap f).countP p ≤ l.countP q := by
  rw [List.countP_filterMap]
  apply List.countP_mono_left
  intro a _ has
  cases given : f a with
  | none => simp [given] at has
  | some b =>
    rw [given] at has
    exact comes a b given has

private theorem getElem?_filter_countP {p : α → Bool} {l : List α} {i : Nat} {x : α}
    (entry : l[i]? = some x) (has : p x = true) :
    (l.filter p)[(l.take i).countP p]? = some x := by
  obtain ⟨bound, rfl⟩ := List.getElem?_eq_some_iff.mp entry
  have parts : l = l.take i ++ l[i] :: l.drop (i + 1) := by
    rw [← List.drop_eq_getElem_cons bound, List.take_append_drop]
  rw [List.countP_eq_length_filter]
  conv_lhs =>
    arg 1
    rw [parts]
  rw [List.filter_append, List.filter_cons_of_pos has, List.getElem?_append_right (Nat.le_refl _),
    Nat.sub_self]
  rfl

end Counting

/-- A report of some records, parted by kind. At most one of them is a default export, and the main
export is that very one. -/
structure IsConsistent (r : Report) : Prop where
  nonempty : r.records ≠ []
  components : ∀ x ∈ r.components, x.isComponent = true ∧ x.isFunction = false
  functions : ∀ x ∈ r.functions, x.isComponent = false ∧ x.isFunction = true
  oneDefault : r.records.countP Record.isDefault ≤ 1
  mainIndex : ∀ i, r.mainIndex = some i ↔ ∃ x, r.records[i]? = some x ∧ x.isDefault = true
  mainExport : r.mainExport = r.records.find? Record.isDefault

private theorem isFunction_eq_not (x : Record) : x.isFunction = !x.isComponent := by
  cases kind : x.kind <;> simp [Record.isFunction, Record.isComponent, kind]

private theorem mainExport_of_mainIndex {r : Report}
    (oneDefault : r.records.countP Record.isDefault ≤ 1)
    (mainIndex : ∀ i, r.mainIndex = some i ↔ ∃ x, r.records[i]? = some x ∧ x.isDefault = true) :
    r.mainExport = r.records.find? Record.isDefault := by
  unfold Report.mainExport
  cases index : r.mainIndex with
  | none =>
    symm
    rw [Option.bind_none, List.find?_eq_none]
    intro x member default
    obtain ⟨i, entry⟩ := List.mem_iff_getElem?.mp member
    have main := (mainIndex i).mpr ⟨x, entry, default⟩
    rw [index] at main
    cases main
  | some i =>
    obtain ⟨x, entry, default⟩ := (mainIndex i).mp index
    cases found : r.records.find? Record.isDefault with
    | none => exact absurd default (List.find?_eq_none.mp found x (List.mem_of_getElem? entry))
    | some y =>
      have secondDefault := List.find?_some found
      obtain ⟨j, second⟩ := List.mem_iff_getElem?.mp (List.mem_of_find?_eq_some found)
      have same := index_unique oneDefault entry default second secondDefault
      rw [Option.bind_some, same, second]

section Parted

variable (records : List Record)

/-- The records in two parts; the last default export is the main one. -/
def parted : Report :=
  ⟨records.filter Record.isComponent, records.filter (fun r => !r.isComponent),
    (lastDefault? records).map (placeOf records)⟩

theorem ofRecords_eq (path : String) :
    ofRecords records path =
      parted (if records.isEmpty then [.bare (Name.ofPath path) path] else records) := by
  unfold ofRecords
  split <;> rfl

theorem records_parted_perm : (parted records).records.Perm records :=
  List.filter_append_perm Record.isComponent records

private theorem getElem?_placeOf {i : Nat} {x : Record} (entry : records[i]? = some x) :
    (parted records).records[placeOf records i]? = some x := by
  unfold parted Report.records placeOf
  rw [entry]
  cases component : x.isComponent with
  | true =>
    have place := getElem?_filter_countP entry component
    obtain ⟨bound, _⟩ := List.getElem?_eq_some_iff.mp place
    simp only [Option.any_some, component, if_true]
    rw [List.getElem?_append_left bound, place]
  | false =>
    have other : (!x.isComponent) = true := by simp [component]
    have place := @getElem?_filter_countP Record (fun r => !r.isComponent) records i x entry other
    simp only [Option.any_some, component, Bool.false_eq_true, if_false]
    rw [List.countP_eq_length_filter, List.getElem?_append_right (Nat.le_add_right _ _),
      Nat.add_sub_cancel_left, place]

private theorem default_of_lastDefault? {i : Nat} (last : lastDefault? records = some i) :
    ∃ x, records[i]? = some x ∧ x.isDefault = true := by
  have member := List.mem_of_getLast? last
  obtain ⟨_, default⟩ := List.mem_filter.mp member
  exact (Option.any_eq_true _ _).mp default

private theorem exists_lastDefault? {x : Record} (member : x ∈ records)
    (default : x.isDefault = true) :
    ∃ i, lastDefault? records = some i := by
  obtain ⟨i, entry⟩ := List.mem_iff_getElem?.mp member
  obtain ⟨bound, _⟩ := List.getElem?_eq_some_iff.mp entry
  rw [← Option.isSome_iff_exists, lastDefault?, List.getLast?_isSome]
  apply List.ne_nil_of_mem
  exact List.mem_filter.mpr ⟨List.mem_range.mpr bound, by simp [entry, default]⟩

variable {records} (oneDefault : records.countP Record.isDefault ≤ 1)
include oneDefault

theorem countP_records_parted_le : (parted records).records.countP Record.isDefault ≤ 1 := by
  rw [(records_parted_perm records).countP_eq]
  exact oneDefault

private theorem mainIndex_parted_iff (i : Nat) :
    (parted records).mainIndex = some i ↔
      ∃ x, (parted records).records[i]? = some x ∧ x.isDefault = true := by
  constructor
  · intro main
    obtain ⟨j, last, place⟩ := Option.map_eq_some_iff.mp main
    obtain ⟨x, entry, default⟩ := default_of_lastDefault? records last
    refine ⟨x, ?_, default⟩
    rw [← place]
    exact getElem?_placeOf records entry
  · rintro ⟨x, entry, default⟩
    have member := (records_parted_perm records).mem_iff.mp (List.mem_of_getElem? entry)
    obtain ⟨j, last⟩ := exists_lastDefault? records member default
    obtain ⟨y, second, secondDefault⟩ := default_of_lastDefault? records last
    have same := index_unique (countP_records_parted_le oneDefault)
      (getElem?_placeOf records second) secondDefault entry default
    rw [← same]
    exact Option.map_eq_some_iff.mpr ⟨j, last, rfl⟩

private theorem isConsistent_parted (nonempty : records ≠ []) : (parted records).IsConsistent := by
  have few := countP_records_parted_le oneDefault
  have main := mainIndex_parted_iff oneDefault
  refine ⟨?_, ?_, ?_, few, main, mainExport_of_mainIndex few main⟩
  · intro empty
    have perm := records_parted_perm records
    rw [empty] at perm
    exact nonempty perm.nil_eq.symm
  · intro x member
    have component := (List.mem_filter.mp member).2
    rw [isFunction_eq_not, component]
    exact ⟨rfl, rfl⟩
  · intro x member
    have other := (List.mem_filter.mp member).2
    rw [isFunction_eq_not]
    exact ⟨by simpa using other, other⟩

/-- Records with at most one default among them give a consistent report. -/
theorem isConsistent_ofRecords (path : String) : (ofRecords records path).IsConsistent := by
  rw [ofRecords_eq]
  split
  · exact isConsistent_parted (List.countP_le_length) (List.cons_ne_nil _ _)
  · rename_i some
    exact isConsistent_parted oneDefault (by simpa using some)

end Parted
end ExportInventory.Report
