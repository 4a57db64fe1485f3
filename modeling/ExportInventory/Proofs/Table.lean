import ExportInventory.Export.Tracking
import Mathlib.Data.List.Induction
import Mathlib.Data.List.Nodup

/-!
What the table of a source holds. Each export statement brings a list of bindings and at most one
inline value; the table of the source is made of these alone, in the order of the statements.
-/
namespace ExportInventory.ExportTable

def aliasFor? (name : String) (b : Binding) : Option String :=
  if b.visibility ≠ .default ∧ b.name = name then newAlias? b else none

theorem lookup_assign {α : Type} (pairs : List (String × α)) (key name : String) (value : α) :
    (assign pairs key value).lookup name =
      (pairs.lookup name).or (if key = name then some value else none) := by
  unfold assign
  split
  · rename_i present
    by_cases same : key = name
    · subst same
      obtain ⟨pair, member, equal⟩ := List.any_eq_true.mp present
      have found : (pairs.lookup key).isSome := by
        rw [List.lookup_isSome_iff]
        exact ⟨pair, member, by simpa using (of_decide_eq_true equal).symm⟩
      obtain ⟨old, lookup⟩ := Option.isSome_iff_exists.mp found
      simp [lookup]
    · simp [same]
  · rw [List.lookup_append]
    by_cases same : key = name
    · simp [same]
    · have test : (name == key) = false := beq_eq_false_iff_ne.mpr (Ne.symm same)
      simp [same, List.lookup_cons, test]

theorem contains_insertName (names : List String) (name other : String) :
    (insertName names name).contains other = (names.contains other || name == other) := by
  unfold insertName
  split
  · rename_i present
    by_cases same : name = other
    · subst same
      simpa using present
    · simp [same]
  · by_cases same : name = other
    · simp [same]
    · simp [same, Ne.symm same]

theorem contains_foldl_insertName (names present : List String) (name : String) :
    (names.foldl insertName present).contains name =
      (present.contains name || names.contains name) := by
  induction names generalizing present with
  | nil => simp
  | cons other rest ih =>
    rw [List.foldl_cons, ih, contains_insertName, List.contains_cons, Bool.or_assoc, Bool.beq_comm]

theorem nodup_foldl_insertName (names : List String) {present : List String}
    (distinct : present.Nodup) : (names.foldl insertName present).Nodup := by
  induction names generalizing present with
  | nil => exact distinct
  | cons name rest ih =>
    apply ih
    unfold insertName
    split
    · exact distinct
    · rename_i absent
      rw [List.nodup_append]
      refine ⟨distinct, List.nodup_singleton _, ?_⟩
      intro old member new single equal
      rw [equal, List.mem_singleton.mp single] at member
      exact absent (List.contains_iff_mem.mpr member)

theorem exports_add (t : ExportTable) (b : Binding) (name : String) :
    (t.add b).exports name = (t.exports name || b.name == name) := by
  have inserted := contains_insertName t.exportedNames b.name name
  unfold exports add
  split
  · exact inserted
  · split <;> exact inserted

theorem defaultName_add (t : ExportTable) (b : Binding) :
    (t.add b).defaultName = if b.visibility = .default then some b.name else t.defaultName := by
  unfold add
  split
  · rfl
  · split <;> rfl

theorem lookup_aliases_add (t : ExportTable) (b : Binding) (name : String) :
    (t.add b).aliases.lookup name = (t.aliases.lookup name).or (aliasFor? name b) := by
  unfold add aliasFor?
  split
  · rename_i default
    simp [default]
  · rename_i other
    split
    · rename_i asName brought
      rw [lookup_assign]
      by_cases same : b.name = name <;> simp [other, same, brought]
    · rename_i none
      simp [none]

private theorem add_withAnonymous (t : ExportTable) (b : Binding) (inline : List (String × Tree)) :
    ({ t with anonymousDefaults := inline }).add b =
      { t.add b with anonymousDefaults := inline } := by
  unfold add
  split
  · rfl
  · split <;> rfl

theorem foldl_add_withAnonymous (bs : List Binding) (t : ExportTable)
    (inline : List (String × Tree)) :
    bs.foldl add { t with anonymousDefaults := inline } =
      { bs.foldl add t with anonymousDefaults := inline } := by
  induction bs generalizing t with
  | nil => rfl
  | cons b rest ih => rw [List.foldl_cons, List.foldl_cons, add_withAnonymous, ih]

theorem exports_foldl_add (bs : List Binding) (t : ExportTable) (name : String) :
    (bs.foldl add t).exports name = (t.exports name || bs.any (fun b => b.name == name)) := by
  induction bs generalizing t with
  | nil => simp
  | cons b rest ih => rw [List.foldl_cons, ih, exports_add, List.any_cons, Bool.or_assoc]

theorem defaultName_foldl_add (bs : List Binding) (t : ExportTable) :
    (bs.foldl add t).defaultName =
      ((bs.reverse.find? (fun b => b.visibility = .default)).map (·.name)).or t.defaultName := by
  induction bs using List.reverseRecOn with
  | nil => simp
  | append_singleton before b ih =>
    rw [List.foldl_append, List.foldl_cons, List.foldl_nil, defaultName_add, List.reverse_append]
    by_cases default : b.visibility = .default
    · simp [default]
    · simp [default, ih]

theorem lookup_aliases_foldl_add (bs : List Binding) (t : ExportTable) (name : String) :
    (bs.foldl add t).aliases.lookup name =
      (t.aliases.lookup name).or (bs.findSome? (aliasFor? name)) := by
  induction bs generalizing t with
  | nil => simp
  | cons b rest ih =>
    rw [List.foldl_cons, ih, lookup_aliases_add, Option.or_assoc, List.findSome?_cons]
    cases aliasFor? name b <;> simp

private theorem bindings_foldl_add (bs : List Binding) (t : ExportTable) :
    (bs.foldl add t).bindings = t.bindings ++ bs := by
  induction bs generalizing t with
  | nil => simp
  | cons b rest ih =>
    have step : (t.add b).bindings = t.bindings ++ [b] := by
      unfold add
      repeat' split
      all_goals rfl
    rw [List.foldl_cons, ih, step, List.append_assoc, List.singleton_append]

private theorem exportedNames_foldl_add (bs : List Binding) (t : ExportTable) :
    (bs.foldl add t).exportedNames = (bs.map (·.name)).foldl insertName t.exportedNames := by
  induction bs generalizing t with
  | nil => rfl
  | cons b rest ih =>
    have step : (t.add b).exportedNames = insertName t.exportedNames b.name := by
      unfold add
      repeat' split
      all_goals rfl
    rw [List.foldl_cons, ih, step, List.map_cons, List.foldl_cons]

private theorem defaultNames_foldl_add (bs : List Binding) (t : ExportTable) :
    (bs.foldl add t).defaultNames =
      ((bs.filter (fun b => b.visibility = .default)).map (·.name)).foldl insertName
        t.defaultNames := by
  induction bs generalizing t with
  | nil => rfl
  | cons b rest ih =>
    rw [List.foldl_cons, ih, List.filter_cons]
    by_cases default : b.visibility = .default
    · simp [add, default]
    · have step : (t.add b).defaultNames = t.defaultNames := by
        rw [add, if_neg default]
        split <;> rfl
      simp [step, default]

theorem nodup_keys_assign {α : Type} {pairs : List (String × α)}
    (distinct : (pairs.map Prod.fst).Nodup) (key : String) (value : α) :
    ((assign pairs key value).map Prod.fst).Nodup := by
  unfold assign
  split
  · exact distinct
  · rename_i absent
    rw [List.map_append]
    apply distinct.append (List.nodup_singleton _)
    intro name member single
    obtain ⟨pair, inside, rfl⟩ := List.mem_map.mp member
    apply absent
    exact List.any_eq_true.mpr ⟨pair, inside, by simpa using single⟩

theorem nodup_aliases_foldl_add (bs : List Binding) {t : ExportTable}
    (distinct : (t.aliases.map Prod.fst).Nodup) :
    ((bs.foldl add t).aliases.map Prod.fst).Nodup := by
  induction bs generalizing t with
  | nil => exact distinct
  | cons b rest ih =>
    apply ih
    unfold add
    repeat' split
    · exact distinct
    · exact nodup_keys_assign distinct _ _
    · exact distinct

/-- The binding publishes the local name under another one. -/
def renames (name : String) (b : Binding) : Bool :=
  b.visibility ≠ .default && b.name = name && b.exportedAs.any (fun a => a ≠ "" && a ≠ name)

private theorem aliasFor?_eq (name : String) (b : Binding) :
    aliasFor? name b = if renames name b then b.exportedAs else none := by
  unfold aliasFor? newAlias? renames
  by_cases default : b.visibility = .default
  · simp [default]
  · by_cases same : b.name = name
    · subst same
      cases b.exportedAs <;> simp [default]
    · simp [same]

private theorem findSome?_aliasFor? (bs : List Binding) (name : String) :
    bs.findSome? (aliasFor? name) = (bs.find? (renames name)).bind (·.exportedAs) := by
  induction bs with
  | nil => rfl
  | cons b rest ih =>
    rw [List.findSome?_cons, List.find?_cons, ih, aliasFor?_eq]
    cases renamed : renames name b with
    | false => simp
    | true =>
      cases shown : b.exportedAs with
      | none => simp [renames, shown] at renamed
      | some a => simp [shown]

/-- The name of the last default export among bindings. -/
def lastDefaultName? (bs : List Binding) : Option String :=
  (bs.filter (fun b => b.visibility = .default)).getLast?.map (·.name)

/-- The first other name that bindings give to a local one. -/
def firstAlias? (bs : List Binding) (name : String) : Option String :=
  (bs.find? (renames name)).bind (·.exportedAs)

theorem defaultName_of_added (bs : List Binding) :
    (bs.foldl add empty).defaultName = lastDefaultName? bs := by
  rw [defaultName_foldl_add, lastDefaultName?, List.getLast?_filter]
  exact Option.or_none

theorem lookup_aliases_of_added (bs : List Binding) (name : String) :
    (bs.foldl add empty).aliases.lookup name = firstAlias? bs name := by
  rw [lookup_aliases_foldl_add, findSome?_aliasFor?, firstAlias?]
  exact Option.none_or

/-- All that a table shows, said by the bindings that were added to it. -/
structure Shows (t : ExportTable) (bs : List Binding) : Prop where
  bindings : t.bindings = bs
  exportedNames : t.exportedNames.Nodup ∧ ∀ name, name ∈ t.exportedNames ↔ ∃ b ∈ bs, b.name = name
  defaultNames : t.defaultNames.Nodup ∧
    ∀ name, name ∈ t.defaultNames ↔ ∃ b ∈ bs, b.visibility = .default ∧ b.name = name
  defaultName : t.defaultName = lastDefaultName? bs
  aliases : (t.aliases.map Prod.fst).Nodup ∧
    ∀ name, t.aliases.lookup name = firstAlias? bs name
  exportType : ∀ name, t.exportTypeOf name = .default ↔ lastDefaultName? bs = some name
  publicName : ∀ name, t.publicNameOf name =
    if lastDefaultName? bs = some name then name else (firstAlias? bs name).getD name
  anonymousDefaults : t.anonymousDefaults = []

theorem shows_added (bs : List Binding) : (bs.foldl add empty).Shows bs := by
  have default := defaultName_of_added bs
  have known := lookup_aliases_of_added bs
  constructor
  · exact bindings_foldl_add bs empty
  · rw [exportedNames_foldl_add]
    refine ⟨nodup_foldl_insertName _ List.nodup_nil, fun name => ?_⟩
    rw [← List.contains_iff_mem, contains_foldl_insertName]
    simp [empty]
  · rw [defaultNames_foldl_add]
    refine ⟨nodup_foldl_insertName _ List.nodup_nil, fun name => ?_⟩
    rw [← List.contains_iff_mem, contains_foldl_insertName]
    simp [empty, and_assoc]
  · exact default
  · exact ⟨nodup_aliases_foldl_add bs List.nodup_nil, known⟩
  · intro name
    rw [exportTypeOf, default]
    split <;> simp_all
  · intro name
    rw [publicNameOf, default, known]
  · exact congrArg ExportTable.anonymousDefaults (foldl_add_withAnonymous bs empty [])

variable (s : Source)

/-- The part of an export statement that is read: what it declares, the value it exports as
default, or its lists of names. -/
inductive Content where
  | declaration (node : Tree)
  | value (node : Tree)
  | lists

def isDefaultExport (statement : Tree) : Bool := statement.children.any (fun c => c.kind == "default")

def contentOf (statement : Tree) : Content :=
  match statement.child? "declaration" with
  | some declaration => .declaration declaration
  | none =>
    match statement.child? "value" with
    | some value => if isDefaultExport statement then .value value.unwrapped else .lists
    | none => .lists

def declaresOne (declaration : Tree) : Bool :=
  declaration.isOneOf (Kind.functionDeclarations ++ Kind.classDeclarations)

/-- The name under which an inline value is exported: its own, or else that of the file. -/
def inlineName (value : Tree) : String :=
  match value.child? "name" with
  | some n => s.textOf n
  | none => Name.ofPath s.path

/-- What a value that is exported as default stands for, through wrappers: a name or something
inline. -/
def defaultTarget? (value : Tree) : Option Tree :=
  (if value.kind == "call_expression" then Wrapper.inner? s value else some value).filter
    (fun t => t.kind == "identifier" || t.isOneOf Kind.inlineValues)

/-- The function or class that an export statement exports as default without declaring a name
for it. -/
def inlineDefault? (statement : Tree) : Option Tree :=
  match contentOf statement with
  | .declaration declaration =>
    if declaresOne declaration && (declaration.child? "name").isNone then some declaration else none
  | .value value => (defaultTarget? s value).filter (fun t => t.isOneOf Kind.inlineValues)
  | .lists => none

def plainBinding (name : String) (visibility : Visibility) : Binding := ⟨name, visibility, none, false⟩

def declaratorBinding? (declarator : Tree) : Option Binding :=
  if declarator.kind != "variable_declarator" then none
  else
    match declarator.child? "name" with
    | some n => if n.kind == "identifier" then some (plainBinding (s.textOf n) .named) else none
    | none => none

def declarationBindings (declaration : Tree) (visibility : Visibility) : List Binding :=
  if declaresOne declaration then
    match declaration.child? "name" with
    | some n => [plainBinding (s.textOf n) visibility]
    | none => [plainBinding (inlineName s declaration) .default]
  else if declaration.isOneOf Kind.variableDeclarations then
    declaration.namedChildren.filterMap (declaratorBinding? s)
  else []

def targetBinding (target : Tree) : Binding :=
  plainBinding (if target.kind == "identifier" then s.textOf target else inlineName s target) .default

def specifierBinding? (reexport : Bool) (specifier : Tree) : Option Binding :=
  if specifier.kind != "export_specifier" then none
  else (specifier.child? "name").map fun n =>
    bindingOf (s.textOf n) ((specifier.child? "alias").map s.textOf) reexport

def clauseBindings (reexport : Bool) (clause : Tree) : List Binding :=
  if clause.kind == "export_clause" then
    clause.namedChildren.filterMap (specifierBinding? s reexport)
  else []

def listBindings (statement : Tree) : List Binding :=
  statement.namedChildren.flatMap (clauseBindings s (statement.child? "source").isSome)

def isEntered (b : Binding) : Bool := Name.isIdentifier b.name && b.name != "default"

def bindingsOf (statement : Tree) : List Binding :=
  (match contentOf statement with
    | .declaration declaration =>
      declarationBindings s declaration (if isDefaultExport statement then .default else .named)
    | .value value => ((defaultTarget? s value).map (targetBinding s)).toList
    | .lists => listBindings s statement).filter isEntered

def statements : List Tree := s.tree.preorder.filter (fun n => n.kind == "export_statement")

def allBindings : List Binding := (statements s).flatMap (bindingsOf s)

def inlineValues : List Tree := (statements s).filterMap (inlineDefault? s)

/-- The last statement that sets the default name. -/
def lastDefault? : Option Tree :=
  (statements s).reverse.find? fun statement =>
    (bindingsOf s statement).any (fun b => b.visibility = .default)

def addInline (t : ExportTable) (value : Option Tree) : ExportTable :=
  match value with
  | some v => t.addAnonymous (inlineName s v) v
  | none => t

theorem foldl_enter (bs : List Binding) (t : ExportTable) :
    bs.foldl enter t = (bs.filter isEntered).foldl add t := by
  induction bs generalizing t with
  | nil => rfl
  | cons b rest ih =>
    rw [List.foldl_cons, ih, enter, List.filter_cons, isEntered]
    split <;> rfl

theorem foldl_enterDeclarator (declarators : List Tree) (t : ExportTable) :
    declarators.foldl (enterDeclarator s) t =
      (declarators.filterMap (declaratorBinding? s)).foldl enter t := by
  induction declarators generalizing t with
  | nil => rfl
  | cons declarator rest ih =>
    rw [List.foldl_cons, ih, List.filterMap_cons]
    unfold enterDeclarator declaratorBinding?
    repeat' split
    all_goals simp_all [enterName, plainBinding]

theorem foldl_enterSpecifier (reexport : Bool) (specifiers : List Tree) (t : ExportTable) :
    specifiers.foldl (enterSpecifier s reexport) t =
      (specifiers.filterMap (specifierBinding? s reexport)).foldl enter t := by
  induction specifiers generalizing t with
  | nil => rfl
  | cons specifier rest ih =>
    rw [List.foldl_cons, ih, List.filterMap_cons]
    unfold enterSpecifier specifierBinding?
    repeat' split
    all_goals simp_all

private theorem enterClauses_eq (t : ExportTable) (statement : Tree) :
    t.enterClauses s statement = (listBindings s statement).foldl enter t := by
  unfold enterClauses listBindings
  rw [List.foldl_flatMap, List.foldl_filter]
  congr 1
  funext t clause
  rw [foldl_enterSpecifier, clauseBindings]
  split <;> rfl

private theorem enterAnonymous_eq (t : ExportTable) (value : Tree) :
    t.enterAnonymous s value =
      enter (addInline s t (some value)) (plainBinding (inlineName s value) .default) := rfl

private theorem enterDeclaration_eq (t : ExportTable) (declaration : Tree)
    (visibility : Visibility) :
    t.enterDeclaration s declaration visibility =
      (declarationBindings s declaration visibility).foldl enter
        (addInline s t (if declaresOne declaration && (declaration.child? "name").isNone then
          some declaration else none)) := by
  unfold enterDeclaration declarationBindings
  change (if declaresOne declaration then _ else _) = _
  cases one : declaresOne declaration with
  | true =>
    cases name : declaration.child? "name" with
    | some n => simp [enterDeclared, name, addInline, enterName, plainBinding]
    | none => simp [enterDeclared, name, enterAnonymous_eq]
  | false =>
    simp only [Bool.false_eq_true, if_false, Bool.false_and, addInline]
    split
    · exact foldl_enterDeclarator s _ t
    · rfl

theorem not_inline_of_identifier {t : Tree} (identifier : t.kind = "identifier") :
    t.isOneOf Kind.inlineValues = false := by
  rw [Tree.isOneOf, identifier]
  decide

private theorem enterDefault_eq (t : ExportTable) (value : Tree) :
    t.enterDefault s value =
      (((defaultTarget? s value).map (targetBinding s)).toList).foldl enter
        (addInline s t ((defaultTarget? s value).filter (fun v => v.isOneOf Kind.inlineValues))) := by
  have reached (target : Tree) :
      (if target.kind == "identifier" then t.enterName (s.textOf target) .default
        else if target.isOneOf Kind.inlineValues then t.enterAnonymous s target else t) =
      ((((some target).filter
          (fun v => v.kind == "identifier" || v.isOneOf Kind.inlineValues)).map
            (targetBinding s)).toList).foldl enter
        (addInline s t (((some target).filter
          (fun v => v.kind == "identifier" || v.isOneOf Kind.inlineValues)).filter
            (fun v => v.isOneOf Kind.inlineValues))) := by
    by_cases identifier : target.kind = "identifier"
    · simp [identifier, not_inline_of_identifier identifier, Option.filter, targetBinding,
        addInline, enterName, plainBinding]
    · cases inline : target.isOneOf Kind.inlineValues with
      | true => simp [identifier, inline, Option.filter, targetBinding, enterAnonymous_eq]
      | false => simp [identifier, inline, Option.filter, addInline]
  unfold enterDefault defaultTarget?
  by_cases call : value.kind = "call_expression"
  · simp only [call, beq_self_eq_true, if_true]
    cases inner : Wrapper.inner? s value with
    | none => rfl
    | some target => simpa using reached target
  · simpa [call] using reached value

private theorem enterStatement_eq (t : ExportTable) (statement : Tree) :
    enterStatement s t statement =
      (bindingsOf s statement).foldl add (addInline s t (inlineDefault? s statement)) := by
  rw [bindingsOf, ← foldl_enter]
  unfold enterStatement inlineDefault? contentOf
  change (match statement.child? "declaration" with
    | some declaration => t.enterDeclaration s declaration
        (if isDefaultExport statement then .default else .named)
    | none => _) = _
  cases statement.child? "declaration" with
  | some declaration => exact enterDeclaration_eq s t declaration _
  | none =>
    cases statement.child? "value" with
    | none => exact enterClauses_eq s t statement
    | some value =>
      change (if isDefaultExport statement then _ else _) = _
      cases isDefaultExport statement with
      | true => exact enterDefault_eq s t value.unwrapped
      | false => exact enterClauses_eq s t statement

def assignInline (pairs : List (String × Tree)) (values : List Tree) : List (String × Tree) :=
  values.foldl (fun pairs v => assign pairs (inlineName s v) v) pairs

theorem foldl_enterStatement (statements : List Tree) (t : ExportTable) :
    statements.foldl (enterStatement s) t =
      { (statements.flatMap (bindingsOf s)).foldl add t with
        anonymousDefaults :=
          assignInline s t.anonymousDefaults (statements.filterMap (inlineDefault? s)) } := by
  induction statements generalizing t with
  | nil => rfl
  | cons statement rest ih =>
    have step : enterStatement s t statement =
        { (bindingsOf s statement).foldl add t with
          anonymousDefaults :=
            assignInline s t.anonymousDefaults (inlineDefault? s statement).toList } := by
      rw [enterStatement_eq, ← foldl_add_withAnonymous]
      cases inlineDefault? s statement <;> rfl
    rw [List.foldl_cons, ih, step, List.flatMap_cons, List.foldl_append, foldl_add_withAnonymous,
      List.filterMap_cons]
    cases inlineDefault? s statement <;> rfl

theorem ofSource_eq :
    ofSource s = { (allBindings s).foldl add .empty with
      anonymousDefaults := assignInline s [] (inlineValues s) } :=
  foldl_enterStatement s (statements s) .empty

theorem exports_ofSource (name : String) :
    (ofSource s).exports name = (allBindings s).any (fun b => b.name == name) := by
  rw [ofSource_eq]
  exact exports_foldl_add (allBindings s) .empty name

theorem defaultName_ofSource :
    (ofSource s).defaultName =
      ((allBindings s).reverse.find? (fun b => b.visibility = .default)).map (·.name) := by
  rw [ofSource_eq]
  exact (defaultName_foldl_add (allBindings s) .empty).trans (Option.or_none)

theorem lookup_aliases_ofSource (name : String) :
    (ofSource s).aliases.lookup name = (allBindings s).findSome? (aliasFor? name) := by
  rw [ofSource_eq]
  exact lookup_aliases_foldl_add (allBindings s) .empty name

theorem anonymousDefaults_ofSource :
    (ofSource s).anonymousDefaults = assignInline s [] (inlineValues s) := by
  rw [ofSource_eq]

theorem lookup_assignInline (pairs : List (String × Tree)) (values : List Tree) (name : String) :
    (assignInline s pairs values).lookup name =
      (pairs.lookup name).or (values.find? (fun v => inlineName s v = name)) := by
  induction values generalizing pairs with
  | nil => simp [assignInline]
  | cons v rest ih =>
    have tail := ih (assign pairs (inlineName s v) v)
    rw [lookup_assign, Option.or_assoc] at tail
    refine tail.trans (congrArg (pairs.lookup name).or ?_)
    by_cases same : inlineName s v = name <;> simp [same]

theorem bindingsOf_of_inline {statement value : Tree}
    (inline : inlineDefault? s statement = some value) :
    bindingsOf s statement = [plainBinding (inlineName s value) .default].filter isEntered := by
  unfold inlineDefault? at inline
  unfold bindingsOf
  cases content : contentOf statement with
  | declaration declaration =>
    rw [content] at inline
    cases one : declaresOne declaration with
    | false => simp [one] at inline
    | true =>
      cases name : declaration.child? "name" with
      | some n => simp [one, name] at inline
      | none =>
        have same : declaration = value := by simpa [one, name] using inline
        subst same
        simp [declarationBindings, one, name]
  | value exported =>
    rw [content] at inline
    obtain ⟨target, shape⟩ := Option.filter_eq_some_iff.mp inline
    have unnamed : (value.kind == "identifier") = false := by
      cases identifier : value.kind == "identifier" with
      | false => rfl
      | true =>
        rw [not_inline_of_identifier (beq_iff_eq.mp identifier)] at shape
        cases shape
    simp [target, targetBinding, unnamed]
  | lists =>
    rw [content] at inline
    cases inline

theorem defaultName_of_lastDefault {statement : Tree} (last : lastDefault? s = some statement) :
    (ofSource s).defaultName =
      ((bindingsOf s statement).reverse.find? (fun b => b.visibility = .default)).map (·.name) := by
  obtain ⟨sets, after, before, order, none⟩ := List.find?_eq_some_iff_append.mp last
  obtain ⟨b, member, default⟩ := List.any_eq_true.mp sets
  have later : after.findSome? (fun statement =>
      (bindingsOf s statement).reverse.find? (fun b => b.visibility = .default)) = Option.none := by
    rw [List.findSome?_eq_none_iff]
    intro other after
    rw [List.find?_eq_none]
    intro b member
    have quiet := none other after
    rw [Bool.not_eq_true', List.any_eq_false] at quiet
    exact quiet b (List.mem_reverse.mp member)
  have found : ((bindingsOf s statement).reverse.find?
      (fun b => b.visibility = .default)).isSome := by
    rw [List.find?_isSome]
    exact ⟨b, List.mem_reverse.mpr member, default⟩
  obtain ⟨chosen, equal⟩ := Option.isSome_iff_exists.mp found
  rw [defaultName_ofSource, allBindings, List.reverse_flatMap, List.find?_flatMap, order,
    List.findSome?_append]
  simp only [Function.comp_apply]
  rw [later, List.findSome?_cons, equal]
  rfl

theorem defaultName_of_bindings {statement : Tree} {b : Binding}
    (last : lastDefault? s = some statement)
    (bindings : bindingsOf s statement = [b].filter isEntered) :
    isEntered b = true ∧ (ofSource s).defaultName = some b.name := by
  have sets := List.find?_some last
  cases entered : isEntered b with
  | false =>
    rw [bindings, List.filter_cons_of_neg (by simp [entered])] at sets
    cases sets
  | true =>
    rw [List.filter_cons_of_pos entered, List.filter_nil] at bindings
    have default : b.visibility = .default := by simpa [bindings] using sets
    refine ⟨rfl, ?_⟩
    rw [defaultName_of_lastDefault s last, bindings]
    simp [default]

theorem defaultName_of_inline {statement value : Tree} (last : lastDefault? s = some statement)
    (inline : inlineDefault? s statement = some value) :
    isEntered (plainBinding (inlineName s value) .default) = true ∧
      (ofSource s).defaultName = some (inlineName s value) :=
  defaultName_of_bindings s last (bindingsOf_of_inline s inline)

theorem exports_of_binding {statement : Tree} {b : Binding} (member : statement ∈ statements s)
    (bound : b ∈ bindingsOf s statement) : (ofSource s).exports b.name = true := by
  rw [exports_ofSource, List.any_eq_true]
  exact ⟨b, List.mem_flatMap.mpr ⟨statement, member, bound⟩, beq_self_eq_true b.name⟩

end ExportInventory.ExportTable
