import ExportInventory.Proofs.Analysis

/-!
The names under which a file is reported. Each record stands for one local name, and no two for the
same; what is shown is the public name, which an alias may have made the same as that of another.
-/
namespace ExportInventory

/-- A local name, and the alias under which it is known outside, if it has one. -/
structure Publication where
  name : String
  asName : Option String
deriving DecidableEq, Repr

namespace Publication

def publicName (p : Publication) : String := p.asName.getD p.name

/-- The alias of one local name is the public name of another. -/
def Clash (p q : Publication) : Prop := p.name ≠ q.name ∧ p.asName = some q.publicName

private theorem publicName_of_clash {p q : Publication} (clash : p.Clash q) :
    p.publicName = q.publicName := by
  rw [publicName, clash.2, Option.getD_some]

/-- Different local names share a public name only where one of them clashes with the other. -/
theorem clash_of_publicName {p q : Publication} (different : p.name ≠ q.name)
    (same : p.publicName = q.publicName) : p.Clash q ∨ q.Clash p := by
  cases renamed : p.asName with
  | some asName =>
    have shown : p.publicName = asName := by rw [publicName, renamed, Option.getD_some]
    exact .inl ⟨different, by rw [renamed, ← same, shown]⟩
  | none =>
    have own : p.publicName = p.name := by rw [publicName, renamed, Option.getD_none]
    cases other : q.asName with
    | some asName =>
      have shown : q.publicName = asName := by rw [publicName, other, Option.getD_some]
      exact .inr ⟨different.symm, by rw [other, same, shown]⟩
    | none =>
      have plain : q.publicName = q.name := by rw [publicName, other, Option.getD_none]
      exact absurd (own.symm.trans (same.trans plain)) different

private theorem nodup_publicNames_iff {ps : List Publication} (distinct : (ps.map (·.name)).Nodup) :
    (ps.map publicName).Nodup ↔ ∀ p ∈ ps, ∀ q ∈ ps, ¬p.Clash q := by
  rw [List.nodup_map_iff_inj_on distinct.of_map]
  constructor
  · intro injective p first q second clash
    exact clash.1 (congrArg name (injective p first q second (publicName_of_clash clash)))
  · intro apart p first q second same
    by_contra different
    have names : p.name ≠ q.name := fun equal =>
      different (List.inj_on_of_nodup_map distinct first second equal)
    rcases clash_of_publicName names same with clash | clash
    · exact apart p first q second clash
    · exact apart q second p first clash

end Publication

namespace ExportTable

def publicationOf (t : ExportTable) (name : String) : Publication :=
  ⟨name, if t.defaultName = some name then none else t.aliases.lookup name⟩

theorem publicName_publicationOf (t : ExportTable) (name : String) :
    (t.publicationOf name).publicName = t.publicNameOf name := by
  unfold publicationOf publicNameOf Publication.publicName
  split <;> rfl

end ExportTable

namespace Classification

variable (s : Source) (budget : Nat)

def publications : List Publication :=
  (Context.ofSource s budget).exported.map fun d => (ExportTable.ofSource s).publicationOf d.name

private theorem names_publications_nodup : ((publications s budget).map (·.name)).Nodup := by
  have distinct := names_exported_nodup s budget
  unfold publications
  rw [List.map_map]
  exact distinct

theorem names_records :
    (records s budget).map (·.name) = (publications s budget).map (·.publicName) := by
  unfold records Context.records publications
  rw [List.map_map, List.map_map]
  refine List.map_congr_left fun d _ => ?_
  rw [Function.comp_apply, Function.comp_apply, ExportTable.publicName_publicationOf]
  exact (recordOf_describes (Context.ofSource s budget) d).name

theorem isEmpty_publications :
    (records s budget).isEmpty = (publications s budget).isEmpty := by
  simpa using congrArg List.isEmpty (names_records s budget)

end Classification

namespace Sketch
namespace FoundExports

theorem names_named_add {e : FoundExports} (distinct : (e.named.map (·.name)).Nodup)
    (found : FoundExport) : ((e.add found).named.map (·.name)).Nodup := by
  unfold add
  split
  · split <;> exact distinct
  · split
    · exact distinct
    · rename_i absent
      rw [List.map_append]
      refine distinct.append (List.nodup_singleton _) ?_
      intro name member single
      obtain ⟨n, inside, rfl⟩ := List.mem_map.mp member
      exact absent (List.any_eq_true.mpr ⟨n, inside, by simpa using single⟩)

theorem names_named_discover (t : Text) (fileName : String) (strategies : List Strategy) :
    ((discover t fileName strategies).named.map (·.name)).Nodup := by
  unfold discover
  have start : (([] : List FoundExport).map (·.name)).Nodup := List.nodup_nil
  generalize strategies.flatMap (·.scan t fileName) = all
  have run (e : FoundExports) (distinct : (e.named.map (·.name)).Nodup) :
      ((all.foldl add e).named.map (·.name)).Nodup := by
    induction all generalizing e with
    | nil => exact distinct
    | cons found rest ih => exact ih (e.add found) (names_named_add distinct found)
  exact run ⟨none, []⟩ start

theorem names_ordered_nodup {e : FoundExports} (distinct : (e.named.map (·.name)).Nodup) :
    (e.ordered.map (·.name)).Nodup := by
  unfold ordered
  cases e.default with
  | none => exact distinct
  | some d =>
    rw [List.map_cons, List.nodup_cons]
    constructor
    · intro member
      obtain ⟨n, inside, same⟩ := List.mem_map.mp member
      have other := (List.mem_filter.mp inside).2
      exact absurd same (by simpa using other)
    · exact distinct.sublist (List.filter_sublist.map _)

end FoundExports

namespace Analysis

variable (a : Analysis)

def publicationOf (c : Candidate) : Publication :=
  ⟨c.found.name, if a.defaultName? = some c.found.name then none
    else c.found.exportedAs.filter (· ≠ "")⟩

theorem name_record (c : Candidate) (kind : RecordKind) :
    (a.record c kind).name = (a.publicationOf c).publicName := by
  unfold record publicationOf Publication.publicName
  by_cases default : a.defaultName? = some c.found.name
  · cases c.found.exportedAs <;> simp [default]
  · cases c.found.exportedAs with
    | none => simp [default]
    | some asName => by_cases empty : asName = "" <;> simp [default, empty, Option.filter]

/-- The candidates that get a record: all but variables that hold something else than a function. -/
def reported : List Candidate := a.candidates.filter fun c => (strictKind? c).isSome

private theorem strictKind?_of_isLoose {c : Candidate} (loose : a.isLoose c = true) :
    (strictKind? c).isSome = true := by
  have function : isPlainVariable c.region = false := by
    cases plain : isPlainVariable c.region with
    | false => rfl
    | true => simp [isLoose, plain] at loose
  unfold strictKind?
  rw [function]
  repeat' split
  all_goals simp_all

theorem isSome_permissive (c : Candidate) :
    (a.permissive c).isSome = (strictKind? c).isSome := by
  unfold permissive strict
  split
  · rename_i loose
    rw [a.strictKind?_of_isLoose loose, Option.isSome_some]
  · rw [Option.isSome_map]

theorem filterMap_reported {pass : Candidate → Option Record}
    (given : ∀ c, (pass c).isSome = (strictKind? c).isSome) :
    a.candidates.filterMap pass = a.reported.filterMap pass := by
  rw [reported, List.filterMap_filter]
  apply List.filterMap_congr
  intro c _
  rw [← given c]
  cases pass c <;> rfl

private theorem names_pass {pass : Candidate → Option Record}
    (described : ∀ c r, pass c = some r → ∃ kind, r = a.record c kind)
    (given : ∀ c, (pass c).isSome = (strictKind? c).isSome) :
    (a.candidates.filterMap pass).map (·.name) =
      (a.reported.map a.publicationOf).map (·.publicName) := by
  rw [a.filterMap_reported given, List.map_filterMap, List.map_map]
  apply List.filterMap_eq_map_iff_forall_eq_some.mpr
  intro c member
  have shown := (given c).trans (List.mem_filter.mp member).2
  obtain ⟨r, passed⟩ := Option.isSome_iff_exists.mp shown
  obtain ⟨kind, rfl⟩ := described c r passed
  rw [passed, Option.map_some, name_record, Function.comp_apply]

private theorem names_records :
    a.records.map (·.name) = (a.reported.map a.publicationOf).map (·.publicName) := by
  unfold records
  dsimp only
  split
  · exact a.names_pass (fun _ _ => a.exists_record_of_strict) fun c => Option.isSome_map
  · exact a.names_pass (fun _ _ => a.exists_record_of_permissive) a.isSome_permissive

/-- What is published: the reported candidates, or one name for the whole file. -/
def publications : List Publication :=
  if a.reported.isEmpty then [⟨a.defaultName?.getD (Name.ofPath a.path), none⟩]
  else a.reported.map a.publicationOf

private theorem names_report_perm :
    (a.report.records.map (·.name)).Perm (a.publications.map (·.publicName)) := by
  have names := a.names_records
  have same : a.records.isEmpty = a.reported.isEmpty := by
    simpa using congrArg List.isEmpty names
  unfold report publications
  dsimp only
  rw [same, Report.ofRecords_eq]
  refine ((Report.records_parted_perm _).map _).trans ?_
  cases empty : a.reported.isEmpty with
  | true => exact List.Perm.refl _
  | false =>
    rw [empty] at same
    rw [if_neg Bool.false_ne_true, if_neg Bool.false_ne_true, same, if_neg Bool.false_ne_true,
      names]

theorem found_candidates_sublist : (a.candidates.map (·.found)).Sublist a.exports.ordered := by
  unfold candidates
  induction a.exports.ordered with
  | nil => exact List.Sublist.refl []
  | cons found rest ih =>
    rw [List.filterMap_cons]
    cases Region.ofExport a.text found with
    | error cause => exact ih.cons found
    | ok region =>
      cases region with
      | none => exact ih.cons found
      | some region => exact ih.cons_cons found

private theorem names_publications_nodup (distinct : (a.exports.named.map (·.name)).Nodup) :
    (a.publications.map (·.name)).Nodup := by
  have candidates : (a.candidates.map fun c => c.found.name).Sublist
      (a.exports.ordered.map (·.name)) := by
    have names := a.found_candidates_sublist.map (·.name)
    rw [List.map_map] at names
    exact names
  have kept : (a.reported.map fun c => c.found.name).Nodup :=
    ((FoundExports.names_ordered_nodup distinct).sublist candidates).sublist
      (List.filter_sublist.map _)
  unfold publications
  split
  · exact List.nodup_singleton _
  · rw [List.map_map]
    exact kept

end Analysis
end Sketch

namespace Engine

variable (e : Engine) (t : Text) (path : String)

def sketched : List Publication :=
  (Sketch.Analysis.ofText t path (e.fragmentMarkup path)).publications

/-- What is published of a text: by its tree, or by its look where the tree has nothing. -/
def publications : List Publication :=
  match e.parse? t path with
  | none => e.sketched t path
  | some (_, source) =>
    if (Classification.publications source e.budget).isEmpty then e.sketched t path
    else Classification.publications source e.budget

theorem names_sketched_nodup : ((e.sketched t path).map (·.name)).Nodup :=
  Sketch.Analysis.names_publications_nodup _ (Sketch.FoundExports.names_named_discover _ _ _)

theorem names_publications_nodup : ((e.publications t path).map (·.name)).Nodup := by
  unfold publications
  split
  · exact e.names_sketched_nodup t path
  · split
    · exact e.names_sketched_nodup t path
    · exact Classification.names_publications_nodup _ _

theorem names_analyze_perm :
    ((e.analyze t path).records.map (·.name)).Perm
      ((e.publications t path).map (·.publicName)) := by
  have sketched : ((e.sketch t path).records.map (·.name)).Perm
      ((e.sketched t path).map (·.publicName)) :=
    Sketch.Analysis.names_report_perm _
  unfold analyze publications
  cases e.parse? t path with
  | none => exact sketched
  | some parsed =>
    obtain ⟨dialect, source⟩ := parsed
    have names := Classification.names_records source e.budget
    have same := Classification.isEmpty_publications source e.budget
    dsimp only
    rw [same]
    cases empty : (Classification.publications source e.budget).isEmpty with
    | true => exact sketched
    | false =>
      rw [empty] at same
      rw [if_neg Bool.false_ne_true, if_neg Bool.false_ne_true, Report.ofRecords_eq, same,
        if_neg Bool.false_ne_true, ← names]
      exact (Report.records_parted_perm _).map _

/-- The records of a report stand for different local names. Their public names are different
exactly if no alias is the public name of another record. -/
theorem names_analyze_nodup_iff :
    ((e.publications t path).map (·.name)).Nodup ∧
      ((e.analyze t path).records.map (·.name)).Perm
        ((e.publications t path).map (·.publicName)) ∧
      (((e.analyze t path).records.map (·.name)).Nodup ↔
        ∀ p ∈ e.publications t path, ∀ q ∈ e.publications t path, ¬p.Clash q) := by
  have distinct := e.names_publications_nodup t path
  have shown := e.names_analyze_perm t path
  refine ⟨distinct, shown, ?_⟩
  rw [shown.nodup_iff, Publication.nodup_publicNames_iff distinct]

/-- The default export is called `Page`, and another component is exported under the same name. -/
def pageText : Text :=
  Text.ofString ("export default function Page() \x7b return <div/>; \x7d\n" ++
    "const a = () => <p/>;\nexport \x7b a as Page \x7d;\n")

def pageSource : Source :=
  ⟨"/src/Page.jsx", Encoding.encode (pageText.map CodePoint.toChar),
    ⟨"program", true, 0, 94, none, false, [
      ⟨"export_statement", true, 0, 49, none, false, [
        .leaf "export" false 0 6, .leaf "default" false 7 14,
        ⟨"function_declaration", true, 15, 49, some "declaration", false, [
          .leaf "function" false 15 23,
          (Tree.leaf "identifier" true 24 28).withField (some "name"),
          ⟨"formal_parameters", true, 28, 30, some "parameters", false, [
            .leaf "(" false 28 29, .leaf ")" false 29 30]⟩,
          ⟨"statement_block", true, 31, 49, some "body", false, [
            .leaf "\x7b" false 31 32,
            ⟨"return_statement", true, 33, 47, none, false, [
              .leaf "return" false 33 39,
              ⟨"jsx_self_closing_element", true, 40, 46, none, false, [
                .leaf "<" false 40 41, (Tree.leaf "identifier" true 41 44).withField (some "name"),
                .leaf "/>" false 44 46]⟩,
              .leaf ";" false 46 47]⟩,
            .leaf "\x7d" false 48 49]⟩]⟩]⟩,
      ⟨"lexical_declaration", true, 50, 71, none, false, [
        (Tree.leaf "const" false 50 55).withField (some "kind"),
        ⟨"variable_declarator", true, 56, 70, none, false, [
          (Tree.leaf "identifier" true 56 57).withField (some "name"), .leaf "=" false 58 59,
          ⟨"arrow_function", true, 60, 70, some "value", false, [
            ⟨"formal_parameters", true, 60, 62, some "parameters", false, [
              .leaf "(" false 60 61, .leaf ")" false 61 62]⟩,
            .leaf "=>" false 63 65,
            ⟨"jsx_self_closing_element", true, 66, 70, some "body", false, [
              .leaf "<" false 66 67, (Tree.leaf "identifier" true 67 68).withField (some "name"),
              .leaf "/>" false 68 70]⟩]⟩]⟩,
        .leaf ";" false 70 71]⟩,
      ⟨"export_statement", true, 72, 93, none, false, [
        .leaf "export" false 72 78,
        ⟨"export_clause", true, 79, 92, none, false, [
          .leaf "\x7b" false 79 80,
          ⟨"export_specifier", true, 81, 90, none, false, [
            (Tree.leaf "identifier" true 81 82).withField (some "name"), .leaf "as" false 83 85,
            (Tree.leaf "identifier" true 86 90).withField (some "alias")]⟩,
          .leaf "\x7d" false 91 92]⟩,
        .leaf ";" false 92 93]⟩]⟩⟩

def pageEngine : Engine := ⟨fun _ _ => some pageSource.tree, Budget.standard⟩

theorem page_names :
    (pageEngine.publications pageText "/src/Page.jsx") = [⟨"Page", none⟩, ⟨"a", some "Page"⟩] ∧
      (pageEngine.analyze pageText "/src/Page.jsx").records.map (·.name) = ["Page", "Page"] := by
  have parsed : pageEngine.parse? pageText "/src/Page.jsx" =
      some (Script.Dialect.javascript, pageSource) := rfl
  have described : Classification.records pageSource Budget.standard =
      [⟨"Page", .default, "/src/Page.jsx", .component, [], false, some 1⟩,
        ⟨"Page", .named, "/src/Page.jsx", .component, [], false, some 2⟩] := by
    rw [Classification.records_of_sorted _ _ (by decide +kernel)]
    decide +kernel
  have published : Classification.publications pageSource Budget.standard =
      [⟨"Page", none⟩, ⟨"a", some "Page"⟩] := by
    unfold Classification.publications Classification.Context.exported
    rw [List.mergeSort_of_pairwise (by decide +kernel)]
    decide +kernel
  have budget : pageEngine.budget = Budget.standard := rfl
  unfold publications analyze
  rw [parsed, budget]
  dsimp only
  rw [described, published]
  decide +kernel

end Engine
end ExportInventory
