import ExportInventory.Proofs.Classification
import ExportInventory.Proofs.Markup
import ExportInventory.Proofs.Removal

/-!
Sources without their comments. A comment is a named node, so that it takes the place of the
expression where the first named node inside parentheses or a type annotation is read. Everywhere
else comments make no difference.
-/
namespace ExportInventory

namespace Tree

def dropComment (_ t : Tree) : Bool := t.kind == "comment"

def withoutComments (t : Tree) : Tree := t.without dropComment

/-- The expressions below a node that are read through parentheses and annotations. -/
def operands (t : Tree) : List Tree :=
  (if t.isOneOf Kind.valued then (t.child? "value").toList else []) ++
    if t.kind == "call_expression" then
      (t.child? "function").toList ++ (Wrapper.firstArgument? t).toList
    else []

/-- Comments are leaves without a role, and none stands in front of an expression inside the
parentheses and annotations around it. -/
structure Commented (t : Tree) : Prop where
  leaf : ∀ n ∈ t.preorder, n.kind = "comment" → n.field = none ∧ n.children.isEmpty = true
  inFront : ∀ n ∈ t.preorder, ∀ v ∈ n.operands, v.opens dropComment = true

namespace Commented

private theorem below {t : Tree} (commented : t.Commented) {c : Tree} (child : c ∈ t.children) :
    c.Commented :=
  ⟨fun n member => commented.leaf n (preorder_subset_of_mem child member),
    fun n member => commented.inFront n (preorder_subset_of_mem child member)⟩

variable {t : Tree} (commented : t.Commented)
include commented

private theorem keeps : t.Keeps dropComment := by
  have opened {v : Tree} (operand : v ∈ t.operands) : v.Exposed dropComment :=
    exposed_of_opens v (commented.inFront t (mem_preorder_self t) v operand)
  constructor
  case noRole =>
    intro c child dropped
    have inside := preorder_subset_of_mem child (mem_preorder_self c)
    exact (commented.leaf c inside (beq_iff_eq.mp dropped)).1
  case noPart =>
    intro c _ dropped
    rw [isOneOf, beq_iff_eq.mp dropped]
    decide
  case noArgument =>
    intro _ _ c _ dropped
    exact beq_iff_eq.mp dropped
  case value =>
    intro valued v found
    exact opened (by simp [operands, valued, found])
  case callee =>
    intro call v found
    exact opened (by simp [operands, call, found])
  case argument =>
    intro call v found
    exact opened (by simp [operands, call, found])

theorem lost {kinds : List String} (other : "comment" ∉ kinds) {c : Tree} (child : c ∈ t.children)
    (dropped : dropComment t c = true) : ∀ n ∈ c.preorder, n.isOneOf kinds = false := by
  have kind : c.kind = "comment" := beq_iff_eq.mp dropped
  have inside := preorder_subset_of_mem child (mem_preorder_self c)
  have leaf := List.isEmpty_iff.mp (commented.leaf c inside kind).2
  rw [preorder_eq, leaf]
  intro n member
  rw [List.mem_singleton.mp member, isOneOf, kind]
  simpa using other

end Commented
end Tree

/-- The source without its comments. -/
def Source.withoutComments (s : Source) : Source := s.without Tree.dropComment

section Commented

variable {budget : Nat}

/-- A tree with comments all of whose nodes can be searched for markup. -/
def Tree.IsSearched (budget : Nat) (t : Tree) : Prop := t.Commented ∧ t.size ≤ budget

theorem Tree.isSearched_below (t : Tree) (searched : t.IsSearched budget) (c : Tree)
    (child : c ∈ t.children) : c.IsSearched budget :=
  ⟨searched.1.below child, Nat.le_trans (Nat.le_of_lt (size_lt_of_mem child)) searched.2⟩

private theorem containsMarkup_withoutComments {t : Tree} (searched : t.IsSearched budget) :
    t.withoutComments.containsMarkup budget = t.containsMarkup budget := by
  have fewer : t.withoutComments.size ≤ t.size := Tree.size_without_le t
  have enough := searched.2
  rw [Tree.containsMarkup_of_size_le (by omega), Tree.containsMarkup_of_size_le (by omega)]
  exact Tree.any_preorder_without Tree.isSearched_below
    (fun _ here _ child dropped => here.1.lost (by decide) child dropped) searched

private theorem correspondence_withoutComments (s : Source) (budget : Nat) :
    Correspondence s s.withoutComments
      (fun a b => a.IsSearched budget ∧ b = a.without Tree.dropComment) :=
  correspondence_without Tree.isSearched_below (fun _ here => here.1.keeps) s

private theorem visits_withoutComments {s : Source} (searched : s.tree.IsSearched budget) :
    List.Forall₂ (Visited fun a b => a.IsSearched budget ∧ b = a.without Tree.dropComment)
      s.visits s.withoutComments.visits := by
  have visits : s.withoutComments.visits =
      s.visits.map fun v => (v.1.without Tree.dropComment, v.2) :=
    Tree.filter_withScope_without Tree.isSearched_below
      (fun _ here _ child dropped => here.1.lost (by decide) child dropped) searched false
  rw [visits, List.forall₂_map_right_iff, List.forall₂_same]
  intro v member
  have walked : v.1 ∈ s.tree.preorder := by
    rw [← Tree.withScope_fst false]
    exact List.mem_map_of_mem (List.mem_filter.mp member).1
  exact ⟨⟨Tree.of_mem_preorder Tree.isSearched_below s.tree searched v.1 walked, rfl⟩, .inr rfl⟩

end Commented

namespace Classification

/-- Comments change neither the table nor the records, if none stands in front of an expression
inside its parentheses and the budget is enough for all nodes. -/
theorem records_withoutComments (s : Source) (budget : Nat) (commented : s.tree.Commented)
    (enough : s.tree.size ≤ budget) :
    ExportTable.ofSource s.withoutComments =
        { ExportTable.ofSource s with
          anonymousDefaults := (ExportTable.ofSource s).anonymousDefaults.map fun entry =>
            (entry.1, entry.2.withoutComments) } ∧
      records s.withoutComments budget = records s budget := by
  have searched : s.tree.IsSearched budget := ⟨commented, enough⟩
  have same := correspondence_withoutComments s budget
  have walk := visits_withoutComments searched
  have table := same.table (same.forall₂_statements walk)
  refine ⟨table.eq_without, same.records walk ?_⟩
  rintro a b ⟨here, rfl⟩
  exact containsMarkup_withoutComments here

/-- A module with comments in all places where lists of nodes are read. -/
def tileCommented : Source :=
  ⟨"/src/Card.jsx",
    Encoding.encode ("// page\nexport \x7b /* a */ Card as Tile /* b */ \x7d;\n" ++
      "const Card = memo(/* c */ (Inner /* d */));\n" ++
      "function Inner(/* e */ \x7b /* f */ title \x7d) \x7b /* g */ return <p/>; \x7d\n").toList,
    ⟨"program", true, 0, 160, none, false, [
      .leaf "comment" true 0 7,
      ⟨"export_statement", true, 8, 48, none, false, [
        .leaf "export" false 8 14,
        ⟨"export_clause", true, 15, 47, none, false, [
          .leaf "\x7b" false 15 16, .leaf "comment" true 17 24,
          ⟨"export_specifier", true, 25, 37, none, false, [
            (Tree.leaf "identifier" true 25 29).withField (some "name"), .leaf "as" false 30 32,
            (Tree.leaf "identifier" true 33 37).withField (some "alias")]⟩,
          .leaf "comment" true 38 45, .leaf "\x7d" false 46 47]⟩,
        .leaf ";" false 47 48]⟩,
      ⟨"lexical_declaration", true, 49, 92, none, false, [
        (Tree.leaf "const" false 49 54).withField (some "kind"),
        ⟨"variable_declarator", true, 55, 91, none, false, [
          (Tree.leaf "identifier" true 55 59).withField (some "name"), .leaf "=" false 60 61,
          ⟨"call_expression", true, 62, 91, some "value", false, [
            (Tree.leaf "identifier" true 62 66).withField (some "function"),
            ⟨"arguments", true, 66, 91, some "arguments", false, [
              .leaf "(" false 66 67, .leaf "comment" true 67 74,
              ⟨"parenthesized_expression", true, 75, 90, none, false, [
                .leaf "(" false 75 76, .leaf "identifier" true 76 81, .leaf "comment" true 82 89,
                .leaf ")" false 89 90]⟩,
              .leaf ")" false 90 91]⟩]⟩]⟩,
        .leaf ";" false 91 92]⟩,
      ⟨"function_declaration", true, 93, 159, none, false, [
        .leaf "function" false 93 101,
        (Tree.leaf "identifier" true 102 107).withField (some "name"),
        ⟨"formal_parameters", true, 107, 134, some "parameters", false, [
          .leaf "(" false 107 108, .leaf "comment" true 108 115,
          ⟨"object_pattern", true, 116, 133, none, false, [
            .leaf "\x7b" false 116 117, .leaf "comment" true 118 125,
            .leaf "shorthand_property_identifier_pattern" true 126 131,
            .leaf "\x7d" false 132 133]⟩,
          .leaf ")" false 133 134]⟩,
        ⟨"statement_block", true, 135, 159, some "body", false, [
          .leaf "\x7b" false 135 136, .leaf "comment" true 137 144,
          ⟨"return_statement", true, 145, 157, none, false, [
            .leaf "return" false 145 151,
            ⟨"jsx_self_closing_element", true, 152, 156, none, false, [
              .leaf "<" false 152 153,
              (Tree.leaf "identifier" true 153 154).withField (some "name"),
              .leaf "/>" false 154 156]⟩,
            .leaf ";" false 156 157]⟩,
          .leaf "\x7d" false 158 159]⟩]⟩]⟩⟩

theorem tile_records_withoutComments :
    tileCommented.tree.Commented ∧ tileCommented.tree.size ≤ Budget.standard ∧
      records tileCommented Budget.standard =
        [⟨"Tile", .named, "/src/Card.jsx", .component, ["title"], false, some 3⟩] ∧
      ExportTable.ofSource tileCommented.withoutComments =
        { ExportTable.ofSource tileCommented with
          anonymousDefaults := (ExportTable.ofSource tileCommented).anonymousDefaults.map
            fun entry => (entry.1, entry.2.withoutComments) } ∧
      records tileCommented.withoutComments Budget.standard =
        records tileCommented Budget.standard := by
  have commented : tileCommented.tree.Commented := ⟨by decide +kernel, by decide +kernel⟩
  have enough : tileCommented.tree.size ≤ Budget.standard := by decide +kernel
  have described : records tileCommented Budget.standard =
      [⟨"Tile", .named, "/src/Card.jsx", .component, ["title"], false, some 3⟩] := by
    rw [records_of_sorted _ _ (by decide +kernel)]
    decide +kernel
  exact ⟨commented, enough, described,
    records_withoutComments tileCommented Budget.standard commented enough⟩

/-- A comment in front of the name that is exported as default, inside its parentheses. -/
def noteSource : Source :=
  ⟨"/src/Sample.jsx",
    Encoding.encode "const Foo = () => <a/>;\nexport default (/* note */ Foo);\n".toList,
    ⟨"program", true, 0, 57, none, false, [
      ⟨"lexical_declaration", true, 0, 23, none, false, [
        (Tree.leaf "const" false 0 5).withField (some "kind"),
        ⟨"variable_declarator", true, 6, 22, none, false, [
          (Tree.leaf "identifier" true 6 9).withField (some "name"), .leaf "=" false 10 11,
          ⟨"arrow_function", true, 12, 22, some "value", false, [
            ⟨"formal_parameters", true, 12, 14, some "parameters", false, [
              .leaf "(" false 12 13, .leaf ")" false 13 14]⟩,
            .leaf "=>" false 15 17,
            ⟨"jsx_self_closing_element", true, 18, 22, some "body", false, [
              .leaf "<" false 18 19, (Tree.leaf "identifier" true 19 20).withField (some "name"),
              .leaf "/>" false 20 22]⟩]⟩]⟩,
        .leaf ";" false 22 23]⟩,
      ⟨"export_statement", true, 24, 56, none, false, [
        .leaf "export" false 24 30, .leaf "default" false 31 38,
        ⟨"parenthesized_expression", true, 39, 55, some "value", false, [
          .leaf "(" false 39 40, .leaf "comment" true 40 50, .leaf "identifier" true 51 54,
          .leaf ")" false 54 55]⟩,
        .leaf ";" false 55 56]⟩]⟩⟩

theorem note_records :
    noteSource.tree.size ≤ Budget.standard ∧
      (ExportTable.ofSource noteSource).exportedNames = [] ∧
      records noteSource Budget.standard = [] ∧
      (ExportTable.ofSource noteSource.withoutComments).exportedNames = ["Foo"] ∧
      records noteSource.withoutComments Budget.standard =
        [⟨"Foo", .default, "/src/Sample.jsx", .component, [], false, some 1⟩] := by
  rw [records_of_sorted noteSource _ (by decide +kernel),
    records_of_sorted noteSource.withoutComments _ (by decide +kernel)]
  decide +kernel

end Classification
end ExportInventory
