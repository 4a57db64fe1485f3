import ExportInventory.Tree.Basic

/-!
Families of node kinds that the analysis tells apart.
-/
namespace ExportInventory.Kind

def functionDeclarations : List String := ["function_declaration", "generator_function_declaration"]

def classDeclarations : List String := ["class_declaration", "abstract_class_declaration"]

def variableDeclarations : List String := ["lexical_declaration", "variable_declaration"]

/-- Functions that stand as values. Some grammars call a function expression just `function`. -/
def functionExpressions : List String :=
  ["function_expression", "function", "generator_function", "arrow_function"]

def classExpressions : List String := ["class"]

def functionLike : List String := functionDeclarations ++ functionExpressions

def classLike : List String := classDeclarations ++ classExpressions

def classFields : List String := ["field_definition", "public_field_definition"]

def inlineValues : List String := functionExpressions ++ classExpressions

def markup : List String := ["jsx_element", "jsx_self_closing_element", "jsx_fragment"]

def transparent : List String :=
  ["parenthesized_expression", "as_expression", "satisfies_expression", "non_null_expression"]

/-- Nodes that may stand between a declaration and the module it belongs to. -/
def moduleScope : List String := ["export_statement", "lexical_declaration", "variable_declaration"]

end ExportInventory.Kind
