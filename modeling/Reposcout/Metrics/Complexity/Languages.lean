/-!
# Node kinds of the first-class languages

Which kinds of nodes of a grammar are callables, decisions, cases and so on.
-/

namespace Reposcout.Metrics.Complexity

inductive FirstClass where
  | rust
  | javaScript
  | typeScript
  | tsx
  | python
  | go
  | php
  | csharp
  | gdScript
  | gdShader
  | godotResource
  deriving DecidableEq

structure LangConfig where
  functionKinds : List String
  decisionKinds : List String
  caseKinds : List String
  cognitiveStructureKinds : List String
  nestingKinds : List String
  elseClauseKinds : List String
  jumpKinds : List String

def rustFunctions : List String := ["function_item", "closure_expression"]

def pyFunctions : List String := ["function_definition", "lambda"]

def jsFunctions : List String :=
  ["function_declaration", "function_expression", "function", "arrow_function",
    "method_definition", "generator_function_declaration", "generator_function"]

def goFunctions : List String := ["function_declaration", "method_declaration", "func_literal"]

def phpFunctions : List String :=
  ["function_definition", "method_declaration", "anonymous_function", "arrow_function"]

def csharpFunctions : List String :=
  ["method_declaration", "constructor_declaration", "destructor_declaration",
    "operator_declaration", "conversion_operator_declaration", "local_function_statement",
    "lambda_expression", "anonymous_method_expression", "accessor_declaration"]

def rustCognitive : List String :=
  ["if_expression", "while_expression", "while_let_expression", "for_expression",
    "loop_expression", "match_expression"]

def rustConfig : LangConfig where
  functionKinds := rustFunctions
  decisionKinds := ["if_expression", "while_expression", "while_let_expression",
    "for_expression", "loop_expression"]
  caseKinds := ["match_arm"]
  cognitiveStructureKinds := rustCognitive
  nestingKinds := rustCognitive
  elseClauseKinds := ["else_clause"]
  jumpKinds := ["break_expression", "continue_expression"]

def pyCognitive : List String :=
  ["if_statement", "for_statement", "while_statement", "except_clause",
    "conditional_expression", "match_statement", "for_in_clause", "if_clause"]

def pyConfig : LangConfig where
  functionKinds := pyFunctions
  decisionKinds := ["if_statement", "elif_clause", "for_statement", "while_statement",
    "except_clause", "conditional_expression", "for_in_clause", "if_clause"]
  caseKinds := ["case_clause"]
  cognitiveStructureKinds := pyCognitive
  nestingKinds := pyCognitive
  elseClauseKinds := ["elif_clause", "else_clause"]
  jumpKinds := []

def jsCognitive : List String :=
  ["if_statement", "for_statement", "for_in_statement", "for_of_statement", "while_statement",
    "do_statement", "catch_clause", "ternary_expression", "switch_statement"]

def jsConfig : LangConfig where
  functionKinds := jsFunctions
  decisionKinds := ["if_statement", "for_statement", "for_in_statement", "for_of_statement",
    "while_statement", "do_statement", "catch_clause", "ternary_expression",
    "assignment_pattern", "object_assignment_pattern", "optional_chain"]
  caseKinds := ["switch_case"]
  cognitiveStructureKinds := jsCognitive
  nestingKinds := jsCognitive
  elseClauseKinds := ["else_clause"]
  jumpKinds := ["break_statement", "continue_statement"]

def goCognitive : List String :=
  ["if_statement", "for_statement", "switch_statement", "expression_switch_statement",
    "type_switch_statement", "select_statement"]

def goConfig : LangConfig where
  functionKinds := goFunctions
  decisionKinds := ["if_statement", "for_statement"]
  caseKinds := ["expression_case", "type_case", "communication_case"]
  cognitiveStructureKinds := goCognitive
  nestingKinds := goCognitive
  elseClauseKinds := []
  jumpKinds := ["branch_statement"]

def phpCognitive : List String :=
  ["if_statement", "for_statement", "foreach_statement", "while_statement", "do_statement",
    "catch_clause", "conditional_expression", "switch_statement", "match_expression"]

def phpConfig : LangConfig where
  functionKinds := phpFunctions
  decisionKinds := ["if_statement", "else_if_clause", "for_statement", "foreach_statement",
    "while_statement", "do_statement", "catch_clause", "conditional_expression"]
  caseKinds := ["case_statement", "match_conditional_expression"]
  cognitiveStructureKinds := phpCognitive
  nestingKinds := phpCognitive
  elseClauseKinds := ["else_if_clause", "else_clause"]
  jumpKinds := ["break_statement", "continue_statement"]

def csharpCognitive : List String :=
  ["if_statement", "for_statement", "foreach_statement", "while_statement", "do_statement",
    "catch_clause", "conditional_expression", "switch_statement", "switch_expression"]

def csharpConfig : LangConfig where
  functionKinds := csharpFunctions
  decisionKinds := ["if_statement", "for_statement", "foreach_statement", "while_statement",
    "do_statement", "catch_clause", "conditional_expression", "when_clause"]
  caseKinds := ["switch_section", "switch_expression_arm"]
  cognitiveStructureKinds := csharpCognitive
  nestingKinds := csharpCognitive
  elseClauseKinds := []
  jumpKinds := ["goto_statement"]

def gdScriptCognitive : List String :=
  ["if_statement", "for_statement", "while_statement", "conditional_expression",
    "match_statement"]

def gdScriptConfig : LangConfig where
  functionKinds := ["function_definition", "constructor_definition", "lambda", "get_body",
    "set_body"]
  decisionKinds := ["if_statement", "elif_clause", "for_statement", "while_statement",
    "conditional_expression", "pattern_guard"]
  caseKinds := ["pattern_section"]
  cognitiveStructureKinds := gdScriptCognitive
  nestingKinds := gdScriptCognitive
  elseClauseKinds := ["elif_clause", "else_clause"]
  jumpKinds := []

def gdShaderCognitive : List String :=
  ["if_statement", "for_statement", "while_statement", "do_statement", "ternary_expression",
    "switch_statement"]

def gdShaderConfig : LangConfig where
  functionKinds := ["function_definition"]
  decisionKinds := ["if_statement", "for_statement", "while_statement", "do_statement",
    "ternary_expression"]
  caseKinds := ["case_statement"]
  cognitiveStructureKinds := gdShaderCognitive
  nestingKinds := gdShaderCognitive
  elseClauseKinds := ["else_clause"]
  jumpKinds := []

def config : FirstClass → LangConfig
  | .gdScript => gdScriptConfig
  | .gdShader => gdShaderConfig
  | .godotResource => ⟨[], [], [], [], [], [], []⟩
  | .rust => rustConfig
  | .python => pyConfig
  | .javaScript | .typeScript | .tsx => jsConfig
  | .go => goConfig
  | .php => phpConfig
  | .csharp => csharpConfig

def isFunctionKind (kind : String) : Bool :=
  kind ∈ ["constructor_definition", "get_body", "set_body"] || kind ∈ rustFunctions ||
    kind ∈ pyFunctions || kind ∈ jsFunctions || kind ∈ goFunctions || kind ∈ phpFunctions ||
    kind ∈ csharpFunctions

end Reposcout.Metrics.Complexity
