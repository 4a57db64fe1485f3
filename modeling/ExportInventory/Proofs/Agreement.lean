import ExportInventory.Proofs.Listing

/-!
Lists of exports in a table and in a text. In the table the first specifier that renames a local
name gives its public name; in a text the first specifier of the name does, whether it renames it
or not. So both give the same unless a name is exported first as it is and then under another.
-/
namespace ExportInventory

namespace Specifier

def binding (s : Specifier) : Binding := ExportTable.bindingOf s.name s.asName false

def table (specifiers : List Specifier) : ExportTable :=
  specifiers.foldl (fun t s => t.enter s.binding) .empty

/-- Whether the name is exported under another one, and not as default. -/
def renames (s : Specifier) : Bool := !s.isDefault && s.asName.any (· ≠ s.name)

theorem renames_iff {s : Specifier} :
    s.renames = true ↔ s.isDefault = false ∧ ∃ a, s.asName = some a ∧ a ≠ s.name := by
  unfold renames
  cases s.asName <;> simp

theorem binding_eq (s : Specifier) :
    s.binding = if s.isDefault then ⟨s.name, .default, none, false⟩
      else ⟨s.name, .named, s.asName, false⟩ := by
  have kept : s.asName.filter (fun a => a = "default" || Name.isIdentifier a) = s.asName := by
    cases given : s.asName with
    | none => rfl
    | some a =>
      rw [Option.filter_some, Name.isIdentifier_of_isPlain (s.isAlias a given), Bool.or_true,
        if_pos rfl]
  unfold binding ExportTable.bindingOf
  rw [if_neg s.isLocal]
  dsimp only
  rw [kept, Bool.not_false, Bool.and_true]
  rfl

theorem name_binding (s : Specifier) : s.binding.name = s.name := by
  rw [binding_eq]
  split <;> rfl

theorem table_eq (specifiers : List Specifier) :
    table specifiers = (specifiers.map binding).foldl ExportTable.add .empty := by
  have all : (specifiers.map binding).filter ExportTable.isEntered = specifiers.map binding := by
    rw [List.filter_eq_self]
    intro b member
    obtain ⟨s, _, rfl⟩ := List.mem_map.mp member
    rw [ExportTable.isEntered, name_binding, Name.isIdentifier_of_isPlain s.isName]
    simpa using s.isLocal
  rw [table, ← all, ← ExportTable.foldl_enter, List.foldl_map]

private theorem isDefault_binding (s : Specifier) :
    decide (s.binding.visibility = .default) = s.isDefault := by
  rw [binding_eq]
  cases s.isDefault <;> rfl

private theorem defaultName_table (specifiers : List Specifier) :
    (table specifiers).defaultName = (specifiers.reverse.find? (·.isDefault)).map (·.name) := by
  have tests : (fun b : Binding => decide (b.visibility = .default)) ∘ binding =
      fun s => s.isDefault := funext isDefault_binding
  have names : (fun b : Binding => b.name) ∘ binding = fun s => s.name := funext name_binding
  rw [table_eq, ExportTable.defaultName_foldl_add, ← List.map_reverse, List.find?_map, tests,
    Option.map_map, names]
  exact Option.or_none

private theorem aliasFor?_binding (s : Specifier) (x : String) :
    ExportTable.aliasFor? x s.binding =
      if s.name = x && s.renames then s.asName else none := by
  rw [ExportTable.aliasFor?, name_binding, binding_eq]
  by_cases default : s.isDefault = true
  · simp [default, renames]
  · by_cases same : s.name = x
    · cases given : s.asName with
      | none => simp [default, ExportTable.newAlias?, renames, given]
      | some a =>
        have nonempty : a ≠ "" := by
          rintro rfl
          exact absurd (s.isAlias "" given) (by decide)
        simp [default, same, ExportTable.newAlias?, renames, given, nonempty]
    · simp [same]

private theorem lookup_aliases_table (specifiers : List Specifier) (x : String) :
    (table specifiers).aliases.lookup x =
      (specifiers.find? fun s => s.name = x && s.renames).bind (·.asName) := by
  rw [table_eq, ExportTable.lookup_aliases_foldl_add, List.findSome?_map]
  refine Option.none_or.trans ?_
  induction specifiers with
  | nil => rfl
  | cons s rest ih =>
    rw [List.findSome?_cons, Function.comp_apply, aliasFor?_binding, List.find?_cons, ih]
    by_cases holds : (s.name = x && s.renames) = true
    · obtain ⟨_, a, given, _⟩ := renames_iff.mp (Bool.and_eq_true_iff.mp holds).2
      simp [holds, given]
    · simp [holds]

end Specifier

namespace Sketch.FoundExports

theorem default_foldl_add (fs : List FoundExport) (e : FoundExports) :
    (fs.foldl add e).default = e.default.or (fs.find? fun f => f.visibility = .default) := by
  induction fs generalizing e with
  | nil => simp
  | cons f rest ih =>
    rw [List.foldl_cons, ih, List.find?_cons, add]
    by_cases default : f.visibility = .default
    · cases chosen : e.default <;> simp [default, chosen]
    · simp only [default, if_false, decide_false]
      split <;> rfl

private theorem find?_named_foldl_add (fs : List FoundExport) (e : FoundExports) (x : String) :
    (fs.foldl add e).named.find? (fun n => n.name = x) =
      (e.named.find? fun n => n.name = x).or
        (fs.find? fun f => f.visibility ≠ .default && f.name = x) := by
  induction fs generalizing e with
  | nil => simp
  | cons f rest ih =>
    rw [List.foldl_cons, ih, List.find?_cons, add]
    by_cases default : f.visibility = .default
    · cases e.default <;> simp [default]
    · rw [if_neg default]
      by_cases present : (e.named.any fun n => n.name = f.name) = true
      · rw [if_pos present]
        by_cases same : f.name = x
        · obtain ⟨n, member, equal⟩ := List.any_eq_true.mp present
          have known : (e.named.find? fun n => n.name = x).isSome = true :=
            List.find?_isSome.mpr ⟨n, member, by simpa [same] using equal⟩
          obtain ⟨old, found⟩ := Option.isSome_iff_exists.mp known
          simp [found]
        · simp [same]
      · rw [if_neg present, List.find?_append, Option.or_assoc]
        by_cases same : f.name = x <;> simp [default, same]

private theorem filter_named {named : List FoundExport} (distinct : (named.map (·.name)).Nodup)
    (x : String) :
    named.filter (fun f => f.name = x) = (named.find? fun f => f.name = x).toList := by
  induction named with
  | nil => rfl
  | cons f rest ih =>
    rw [List.map_cons, List.nodup_cons] at distinct
    by_cases same : f.name = x
    · have others : rest.filter (fun g => g.name = x) = [] := by
        rw [List.filter_eq_nil_iff]
        intro g member equal
        refine distinct.1 (List.mem_map.mpr ⟨g, member, ?_⟩)
        rw [same]
        simpa using equal
      simp [same, others]
    · simp [same, ih distinct.2]

private theorem filter_ordered {e : FoundExports} (distinct : (e.named.map (·.name)).Nodup)
    (x : String) :
    e.ordered.filter (fun f => f.name = x) =
      ((e.default.filter fun f => f.name = x).or (e.named.find? fun n => n.name = x)).toList := by
  unfold ordered
  cases e.default with
  | none => exact filter_named distinct x
  | some d =>
    dsimp only
    rw [List.filter_cons, List.filter_filter, Option.filter_some]
    by_cases same : d.name = x
    · have others : e.named.filter (fun f => f.name = x && f.name ≠ d.name) = [] := by
        rw [List.filter_eq_nil_iff]
        intro f _
        simp [same]
      rw [if_pos (by simpa using same), if_pos (by simpa using same), others]
      rfl
    · have others : e.named.filter (fun f => f.name = x && f.name ≠ d.name) =
          e.named.filter fun f => f.name = x := by
        refine List.filter_congr fun f _ => ?_
        by_cases equal : f.name = x
        · simp [equal, Ne.symm same]
        · simp [equal]
      rw [if_neg (by simpa using same), if_neg (by simpa using same), others, filter_named distinct]
      rfl

end Sketch.FoundExports

namespace Specifier
open Sketch

theorem name_found (s : Specifier) : (s.found 0).name = s.name := by
  unfold ListEntry.found
  split <;> rfl

theorem isDefault_found (s : Specifier) : decide ((s.found 0).visibility = .default) = s.isDefault := by
  unfold ListEntry.found
  cases s.isDefault <;> rfl

theorem isDefault_comp_found :
    (fun f : FoundExport => decide (f.visibility = .default)) ∘ (fun s : Specifier => s.found 0) =
      fun s => s.isDefault :=
  funext isDefault_found

private theorem exportType_record (a : Analysis) (s : Specifier) (region : Region)
    (kind : RecordKind) :
    (a.record ⟨s.found 0, region⟩ kind).exportType =
      if a.defaultName? = some s.name then .default else .named := by
  rw [← name_found]
  rfl

theorem name_record {a : Analysis} {s : Specifier}
    (known : s.isDefault = true → a.defaultName? = some s.name) (region : Region) (kind : RecordKind) :
    (a.record ⟨s.found 0, region⟩ kind).name =
      if a.defaultName? = some s.name then s.name else s.asName.getD s.name := by
  rw [Analysis.name_record]
  unfold Publication.publicName Analysis.publicationOf
  dsimp only
  rw [name_found]
  split
  · rfl
  · rename_i other
    have plain : s.isDefault = false := by
      rw [Bool.eq_false_iff]
      exact fun default => other (known default)
    have same : (s.found 0).exportedAs = s.asName := by
      rw [ListEntry.found, if_neg (by simp [plain])]
    rw [same]
    cases given : s.asName with
    | none => rfl
    | some a =>
      have nonempty : a ≠ "" := by
        rintro rfl
        exact absurd (s.isAlias "" given) (by decide)
      rw [Option.filter_some, if_pos (by simpa using nonempty)]

private theorem find?_reverse {specifiers : List Specifier}
    (single : specifiers.countP (·.isDefault) ≤ 1) :
    specifiers.reverse.find? (·.isDefault) = specifiers.find? (·.isDefault) := by
  induction specifiers with
  | nil => rfl
  | cons s rest ih =>
    rw [List.countP_cons] at single
    rw [List.reverse_cons, List.find?_append, List.find?_cons]
    cases default : s.isDefault with
    | false =>
      rw [ih (by omega)]
      simp [default]
    | true =>
      have none : rest.reverse.find? (·.isDefault) = none := by
        rw [default, if_pos rfl] at single
        have others : rest.countP (·.isDefault) = 0 := by omega
        rw [List.find?_eq_none]
        intro t member
        exact List.countP_eq_zero.mp others t (List.mem_reverse.mp member)
      simp [none, default]

private theorem find?_isDefault {specifiers : List Specifier}
    (single : specifiers.countP (·.isDefault) ≤ 1)
    {s : Specifier} (member : s ∈ specifiers) (default : s.isDefault = true) :
    specifiers.find? (·.isDefault) = some s := by
  induction specifiers with
  | nil => cases member
  | cons t rest ih =>
    rw [List.countP_cons] at single
    rw [List.find?_cons]
    rcases List.mem_cons.mp member with rfl | later
    · rw [default]
    · cases first : t.isDefault with
      | false => exact ih (by omega) later
      | true =>
        rw [first, if_pos rfl] at single
        have others : rest.countP (·.isDefault) = 0 := by omega
        exact absurd default (List.countP_eq_zero.mp others s later)

theorem defaultName_iff {specifiers : List Specifier} (single : specifiers.countP (·.isDefault) ≤ 1)
    (x : String) : (specifiers.find? (·.isDefault)).map (·.name) = some x ↔
      ∃ s ∈ specifiers, s.name = x ∧ s.isDefault = true := by
  constructor
  · intro given
    obtain ⟨s, found, same⟩ := Option.map_eq_some_iff.mp given
    have default := List.find?_some found
    exact ⟨s, List.mem_of_find?_eq_some found, same, default⟩
  · rintro ⟨s, member, same, default⟩
    rw [find?_isDefault single member default, Option.map_some, same]

private theorem chosen_eq_first {specifiers : List Specifier}
    (single : specifiers.countP (·.isDefault) ≤ 1)
    {x : String} (other : (specifiers.find? (·.isDefault)).map (·.name) ≠ some x) {s : Specifier}
    (first : specifiers.find? (fun s => s.name = x) = some s) :
    s.isDefault = false ∧ ((specifiers.find? (·.isDefault)).filter fun s => s.name = x).or
      (specifiers.find? fun s => !s.isDefault && s.name = x) = some s := by
  have same : s.name = x := by simpa using List.find?_some first
  have plain : s.isDefault = false := by
    rw [Bool.eq_false_iff]
    intro default
    have member := List.mem_of_find?_eq_some first
    exact other ((defaultName_iff single x).mpr ⟨s, member, same, default⟩)
  have default : (specifiers.find? (·.isDefault)).filter (fun s => s.name = x) = none := by
    rw [Option.filter_eq_none_iff]
    intro d found equal
    refine other ?_
    rw [found, Option.map_some, of_decide_eq_true equal]
  have named : specifiers.find? (fun s => !s.isDefault && s.name = x) = some s := by
    obtain ⟨_, before, after, split, others⟩ := List.find?_eq_some_iff_append.mp first
    refine List.find?_eq_some_iff_append.mpr ⟨by simp [plain, same], before, after, split, ?_⟩
    intro t member
    simp [by simpa using others t member]
  rw [default, named]
  exact ⟨plain, rfl⟩

/-- The first specifier of a name gives the alias of the table, unless it renames nothing and a later
one does. -/
theorem alias_agrees_iff {specifiers : List Specifier} {s : Specifier} {x : String}
    (first : specifiers.find? (fun s => s.name = x) = some s) (plain : s.isDefault = false) :
    s.asName.getD x = ((table specifiers).aliases.lookup x).getD x ↔
      s.renames = specifiers.any fun t => t.name = x && t.renames := by
  obtain ⟨same, before, after, rfl, others⟩ := List.find?_eq_some_iff_append.mp first
  obtain rfl : s.name = x := by simpa using same
  -- nothing in front of the first specifier has its name, so that only later ones matter
  have early : before.find? (fun t => t.name = s.name && t.renames) = none := by
    rw [List.find?_eq_none]
    intro t member
    simp [by simpa using others t member]
  have search : (before ++ s :: after).find? (fun t => t.name = s.name && t.renames) =
      if s.renames then some s else after.find? fun t => t.name = s.name && t.renames := by
    rw [List.find?_append, early, Option.none_or, List.find?_cons]
    cases s.renames <;> simp
  rw [lookup_aliases_table, ← List.isSome_find?, search]
  cases renamed : s.renames with
  | true =>
    obtain ⟨_, a, given, _⟩ := renames_iff.mp renamed
    simp [given]
  | false =>
    have kept : s.asName.getD s.name = s.name := by
      cases given : s.asName with
      | none => rfl
      | some a =>
        by_contra different
        rw [renames_iff.mpr ⟨plain, a, given, different⟩] at renamed
        cases renamed
    rw [kept, if_neg Bool.false_ne_true]
    cases later : after.find? fun t => t.name = s.name && t.renames with
    | none => simp
    | some t =>
      have holds := List.find?_some later
      rw [Bool.and_eq_true, decide_eq_true_eq] at holds
      obtain ⟨_, b, given, different⟩ := renames_iff.mp holds.2
      rw [holds.1] at different
      simp [given, different.symm]

end Specifier

namespace Listing
open Sketch

variable (l : Listing) (path : String) (fragmentMarkup : Text → Bool)

theorem defaultName_exports : (Analysis.ofText l.text path fragmentMarkup).defaultName? =
    (l.specifiers.find? (·.isDefault)).map (·.name) := by
  have names : (fun f : FoundExport => f.name) ∘ (fun s : Specifier => s.found 0) =
      fun s => s.name :=
    funext Specifier.name_found
  rw [Analysis.defaultName?, exports_listing, FoundExports.default_foldl_add, List.find?_map,
    Specifier.isDefault_comp_found, Option.none_or, Option.map_map, names]

/-- The export that is found for a name: the one as default if there is one, and else the first. -/
theorem filter_exports (x : String) :
    (Analysis.ofText l.text path fragmentMarkup).exports.ordered.filter (fun f => f.name = x) =
      ((((l.specifiers.find? (·.isDefault)).filter fun s => s.name = x).or
        (l.specifiers.find? fun s => !s.isDefault && s.name = x)).map (·.found 0)).toList := by
  have distinct := FoundExports.names_named_discover l.text.blankComments (Name.ofPath path)
    Strategy.ordered
  have names : (fun f : FoundExport => decide (f.name = x)) ∘ (fun s : Specifier => s.found 0) =
      fun s => decide (s.name = x) := by
    funext s
    rw [Function.comp_apply, Specifier.name_found]
  have both : (fun f : FoundExport => decide (f.visibility ≠ .default) && decide (f.name = x)) ∘
      (fun s : Specifier => s.found 0) = fun s => !s.isDefault && decide (s.name = x) := by
    funext s
    rw [Function.comp_apply, Specifier.name_found, ← Specifier.isDefault_found, decide_not]
  refine (FoundExports.filter_ordered distinct x).trans ?_
  change ((Option.filter _ (Analysis.ofText l.text path fragmentMarkup).exports.default).or
    (List.find? _ (Analysis.ofText l.text path fragmentMarkup).exports.named)).toList = _
  rw [exports_listing, FoundExports.default_foldl_add, FoundExports.find?_named_foldl_add,
    List.find?_map, List.find?_map, Specifier.isDefault_comp_found, both, Option.none_or,
    List.find?_nil, Option.none_or, Option.filter_map, names, Option.map_or]

/-- The table and the text agree on how a name is exported. They agree on its public name just if it
is the default export or its first specifier renames it whenever one does. -/
theorem names_agree_iff (single : l.specifiers.countP (·.isDefault) ≤ 1) {x : String}
    (listed : x ∈ l.specifiers.map (·.name)) :
    ∃ found, (Analysis.ofText l.text path fragmentMarkup).exports.ordered.filter
        (fun f => f.name = x) = [found] ∧
      ∀ region kind,
        ((Analysis.ofText l.text path fragmentMarkup).record ⟨found, region⟩ kind).exportType =
          (Specifier.table l.specifiers).exportTypeOf x ∧
        (((Analysis.ofText l.text path fragmentMarkup).record ⟨found, region⟩ kind).name =
            (Specifier.table l.specifiers).publicNameOf x ↔
          (∃ s ∈ l.specifiers, s.name = x ∧ s.isDefault = true) ∨
            (l.specifiers.find? fun s => s.name = x).any Specifier.renames =
              l.specifiers.any fun s => s.name = x && s.renames) := by
  have text := l.defaultName_exports path fragmentMarkup
  have table := Specifier.defaultName_table l.specifiers
  have chosen := l.filter_exports path fragmentMarkup x
  rw [Specifier.find?_reverse single, ← text] at table
  rw [← Specifier.defaultName_iff single, ← text]
  -- nothing else of the analysis matters than its default name and the export it chose
  generalize Analysis.ofText l.text path fragmentMarkup = a at text table chosen ⊢
  by_cases default : a.defaultName? = some x
  · obtain ⟨s, found, same⟩ := Option.map_eq_some_iff.mp (text.symm.trans default)
    rw [found, Option.filter_some, if_pos (by simpa using same)] at chosen
    refine ⟨s.found 0, chosen, fun region kind => ⟨?_, ?_⟩⟩
    · rw [Specifier.exportType_record, same, ExportTable.exportTypeOf, table]
    · refine iff_of_true ?_ (.inl default)
      rw [Specifier.name_record (fun _ => by rw [default, same]), same, ExportTable.publicNameOf,
        table, if_pos default, if_pos default]
  · obtain ⟨s, first⟩ : ∃ s, l.specifiers.find? (fun s => s.name = x) = some s := by
      obtain ⟨s, member, same⟩ := List.mem_map.mp listed
      exact Option.isSome_iff_exists.mp (List.find?_isSome.mpr ⟨s, member, by simpa using same⟩)
    have same : s.name = x := by simpa using List.find?_some first
    obtain ⟨plain, taken⟩ := Specifier.chosen_eq_first single (by rwa [← text]) first
    have known : s.isDefault = true → a.defaultName? = some s.name := by simp [plain]
    rw [taken] at chosen
    refine ⟨s.found 0, chosen, fun region kind => ⟨?_, ?_⟩⟩
    · rw [Specifier.exportType_record, same, ExportTable.exportTypeOf, table]
    · rw [Specifier.name_record known, same, ExportTable.publicNameOf, table, if_neg default,
        if_neg default, first, Specifier.alias_agrees_iff first plain, or_iff_right default]
      rfl

/-- The list `export { a as b, a, c as default};`. -/
def renamedFirst : Listing :=
  ofSpecifiers [{ name := "a", asName := some "b" }, { name := "a", asName := none },
    { name := "c", asName := some "default" }]

/-- The list `export { a, a as b, c as default};`. -/
def renamedLast : Listing :=
  ofSpecifiers [{ name := "a", asName := none }, { name := "a", asName := some "b" },
    { name := "c", asName := some "default" }]

theorem renamedFirst_names :
    renamedFirst.specifiers.countP (·.isDefault) ≤ 1 ∧
      "a" ∈ renamedFirst.specifiers.map (·.name) ∧
      ∀ path fragmentMarkup,
        ∃ found, (Analysis.ofText renamedFirst.text path fragmentMarkup).exports.ordered.filter
            (fun f => f.name = "a") = [found] ∧
          ∀ region kind, ((Analysis.ofText renamedFirst.text path fragmentMarkup).record
            ⟨found, region⟩ kind).name = "b" := by
  have single : renamedFirst.specifiers.countP (·.isDefault) ≤ 1 := by decide
  have listed : "a" ∈ renamedFirst.specifiers.map (·.name) := by decide
  refine ⟨single, listed, fun path fragmentMarkup => ?_⟩
  obtain ⟨found, chosen, agree⟩ := names_agree_iff renamedFirst path fragmentMarkup single listed
  refine ⟨found, chosen, fun region kind => ?_⟩
  exact (agree region kind).2.mpr (.inr (by decide))

theorem renamedLast_names :
    (Specifier.table renamedLast.specifiers).publicNameOf "a" = "b" ∧
      ∀ path fragmentMarkup,
        ∃ found, (Analysis.ofText renamedLast.text path fragmentMarkup).exports.ordered.filter
            (fun f => f.name = "a") = [found] ∧
          ∀ region kind, ((Analysis.ofText renamedLast.text path fragmentMarkup).record
            ⟨found, region⟩ kind).name = "a" := by
  refine ⟨by decide, fun path fragmentMarkup => ?_⟩
  have other : (Analysis.ofText renamedLast.text path fragmentMarkup).defaultName? = some "c" :=
    defaultName_exports renamedLast path fragmentMarkup
  let first : Specifier := { name := "a", asName := none }
  refine ⟨first.found 0, filter_exports renamedLast path fragmentMarkup "a", ?_⟩
  intro region kind
  have plain : first.isDefault = false := rfl
  rw [Specifier.name_record (by simp [plain]), other]
  rfl

end Listing
end ExportInventory
