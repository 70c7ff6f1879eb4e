import CallAtlas.Grammar.PythonTokens

/-!
# The grammar of Python

One grammar for both major versions of the language; what only the older one allows is sorted out
after parsing. Rules of the role `family` list what can stand in one kind of place, inlined rules
are only abbreviations, and hidden ones leave no node.
-/

namespace CallAtlas.Grammar.Python

open Rule

/-- A rule whose uses are nodes. -/
def node (name : String) (body : Rule) : RuleEntry := { name, role := .node, body }

/-- A rule whose uses leave no node. -/
def hidden (name : String) (body : Rule) : RuleEntry := { name, role := .hidden, body }

/-- A rule that lists what can stand in one kind of place. -/
def family (name : String) (members : List Rule) : RuleEntry :=
  { name, role := .family, body := oneOf members }

/-- An abbreviation. -/
def inlined (name : String) (body : Rule) : RuleEntry := { name, role := .inlined, body }

/-- Any of the named rules. -/
def anyRule (names : List String) : List Rule := names.map .ref

/-- The uses of a rule show under another name. -/
def shownAs (name : String) (body : Rule) : Rule := .shown name .named body

/-- An optional comma. -/
def trailingComma : Rule := optional ","

/-- Elements with commas between and perhaps one at the end. -/
def commaList (r : Rule) : Rule := all [commaSeparated r, trailingComma]

/-- Statements and their arrangement in lines and blocks. -/
def statementRules : List RuleEntry := [
  node "module" (many (.ref "statement")),
  hidden "statement" (oneOf (anyRule ["simple statements", "compound statement"])),
  hidden "simple statements"
    (all [separated ";" (.ref "simple statement"), optional ";", .ref "newline"]),
  inlined "simple statement" (oneOf (anyRule [
    "future_import_statement", "import_statement", "import_from_statement", "print_statement",
    "assert_statement", "expression_statement", "return_statement", "delete_statement",
    "raise_statement", "pass_statement", "break_statement", "continue_statement",
    "global_statement", "nonlocal_statement", "exec_statement", "type_alias_statement"])),
  node "import_statement" (all ["import", .ref "import list"]),
  node "import_prefix" (.many1 "."),
  node "relative_import" (all [.ref "import_prefix", optional (.ref "dotted_name")]),
  node "future_import_statement"
    (all ["from", "__future__", "import",
      oneOf [.ref "import list", all ["(", .ref "import list", ")"]]]),
  node "import_from_statement"
    (all ["from", .field "module_name" (oneOf (anyRule ["relative_import", "dotted_name"])),
      "import",
      oneOf [.ref "wildcard_import", .ref "import list", all ["(", .ref "import list", ")"]]]),
  hidden "import list"
    (commaList (.field "name" (oneOf (anyRule ["dotted_name", "aliased_import"])))),
  node "aliased_import"
    (all [.field "name" (.ref "dotted_name"), "as", .field "alias" (.ref "identifier")]),
  node "wildcard_import" "*",
  node "print_statement" (oneOf [
    precedence 1 (all ["print", .ref "chevron",
      many (all [",", .field "argument" (.ref "expression")]), trailingComma]),
    precedence (-3) (.weighted (-1)
      (all ["print", commaSeparated (.field "argument" (.ref "expression")), trailingComma]))]),
  node "chevron" (all [">>", .ref "expression"]),
  node "assert_statement" (all ["assert", commaSeparated (.ref "expression")]),
  node "expression_statement" (oneOf [
    .ref "expression", commaList (.ref "expression"), .ref "assignment",
    .ref "augmented_assignment", .ref "yield"]),
  node "named_expression"
    (all [.field "name" (.ref "named expression target"), ":=",
      .field "value" (.ref "expression")]),
  hidden "named expression target" (oneOf (anyRule ["identifier", "keyword as identifier"])),
  node "return_statement" (all ["return", optional (.ref "expressions")]),
  node "delete_statement" (all ["del", .ref "expressions"]),
  inlined "expressions" (oneOf (anyRule ["expression", "expression_list"])),
  node "raise_statement"
    (all ["raise", optional (.ref "expressions"),
      optional (all ["from", .field "cause" (.ref "expression")])]),
  node "pass_statement" (leftward 0 "pass"),
  node "break_statement" (leftward 0 "break"),
  node "continue_statement" (leftward 0 "continue"),
  inlined "compound statement" (oneOf (anyRule [
    "if_statement", "for_statement", "while_statement", "try_statement", "with_statement",
    "function_definition", "class_definition", "decorated_definition", "match_statement"])),
  node "if_statement"
    (all ["if", .field "condition" (.ref "expression"), ":", .field "consequence" (.ref "suite"),
      many (.field "alternative" (.ref "elif_clause")),
      optional (.field "alternative" (.ref "else_clause"))]),
  node "elif_clause"
    (all ["elif", .field "condition" (.ref "expression"), ":",
      .field "consequence" (.ref "suite")]),
  node "else_clause" (all ["else", ":", .field "body" (.ref "suite")]),
  node "match_statement"
    (all ["match", commaSeparated (.field "subject" (.ref "expression")), trailingComma, ":",
      .field "body" (.ref "match block")]),
  { hidden "match block" (oneOf [
      all [.ref "indent", many (.field "alternative" (.ref "case_clause")), .ref "dedent"],
      .ref "newline"]) with shownAs := some "block" },
  node "case_clause"
    (all ["case", commaSeparated (.ref "case_pattern"), trailingComma,
      optional (.field "guard" (.ref "if_clause")), ":", .field "consequence" (.ref "suite")]),
  node "for_statement"
    (all [optional "async", "for", .field "left" (.ref "left hand side"), "in",
      .field "right" (.ref "expressions"), ":", .field "body" (.ref "suite"),
      .field "alternative" (optional (.ref "else_clause"))]),
  node "while_statement"
    (all ["while", .field "condition" (.ref "expression"), ":", .field "body" (.ref "suite"),
      optional (.field "alternative" (.ref "else_clause"))]),
  node "try_statement"
    (all ["try", ":", .field "body" (.ref "suite"),
      oneOf [
        all [.many1 (.ref "except_clause"), optional (.ref "else_clause"),
          optional (.ref "finally_clause")],
        all [.many1 (.ref "except_group_clause"), optional (.ref "else_clause"),
          optional (.ref "finally_clause")],
        .ref "finally_clause"]]),
  node "except_clause"
    (all ["except",
      optional (all [.ref "expression", optional (all [oneOf ["as", ","], .ref "expression"])]),
      ":", .ref "suite"]),
  node "except_group_clause"
    (all ["except*", all [.ref "expression", optional (all ["as", .ref "expression"])], ":",
      .ref "suite"]),
  node "finally_clause" (all ["finally", ":", .ref "suite"]),
  node "with_statement"
    (all [optional "async", "with", .ref "with_clause", ":", .field "body" (.ref "suite")]),
  node "with_clause" (oneOf [
    commaList (.ref "with_item"), all ["(", commaSeparated (.ref "with_item"), trailingComma, ")"]]),
  node "with_item" (.weighted 1 (.field "value" (.ref "expression"))),
  node "function_definition"
    (all [optional "async", "def", .field "name" (.ref "identifier"),
      .field "type_parameters" (optional (.ref "type_parameter")),
      .field "parameters" (.ref "parameters"),
      optional (all ["->", .field "return_type" (.ref "type")]), ":",
      .field "body" (.ref "suite")]),
  node "parameters" (all ["(", optional (.ref "parameter list"), ")"]),
  node "lambda_parameters" (.ref "parameter list"),
  node "list_splat" (all ["*", .ref "expression"]),
  node "dictionary_splat" (all ["**", .ref "expression"]),
  node "global_statement" (all ["global", commaSeparated (.ref "identifier")]),
  node "nonlocal_statement" (all ["nonlocal", commaSeparated (.ref "identifier")]),
  node "exec_statement"
    (all ["exec", .field "code" (oneOf (anyRule ["string", "identifier"])),
      optional (all ["in", commaSeparated (.ref "expression")])]),
  node "type_alias_statement" (.weighted 1 (all ["type", .ref "type", "=", .ref "type"])),
  node "class_definition"
    (all ["class", .field "name" (.ref "identifier"),
      .field "type_parameters" (optional (.ref "type_parameter")),
      .field "superclasses" (optional (.ref "argument_list")), ":",
      .field "body" (.ref "suite")]),
  node "type_parameter" (all ["[", commaSeparated (.ref "type"), trailingComma, "]"]),
  node "parenthesized_list_splat" (precedence 1 (all ["(",
    oneOf [shownAs "parenthesized_expression" (.ref "parenthesized_list_splat"),
      .ref "list_splat"], ")"])),
  node "argument_list"
    (all ["(",
      optional (commaSeparated (oneOf [.ref "expression", .ref "list_splat",
        .ref "dictionary_splat",
        shownAs "parenthesized_expression" (.ref "parenthesized_list_splat"),
        .ref "keyword_argument"])),
      trailingComma, ")"]),
  node "decorated_definition"
    (all [.many1 (.ref "decorator"),
      .field "definition" (oneOf (anyRule ["class_definition", "function_definition"]))]),
  node "decorator" (all ["@", .ref "expression", .ref "newline"]),
  inlined "suite" (oneOf [
    shownAs "block" (.ref "simple statements"), all [.ref "indent", .ref "block"],
    shownAs "block" (.ref "newline")]),
  node "block" (all [many (.ref "statement"), .ref "dedent"]),
  node "expression_list" (rightward 0 (all [.ref "expression",
    oneOf [",", all [.many1 (all [",", .ref "expression"]), trailingComma]]])),
  node "dotted_name" (precedence 1 (separated "." (.ref "identifier")))]

/-- Patterns of `case` clauses and of assignments, and parameters. -/
def patternRules : List RuleEntry := [
  node "case_pattern" (precedence 1 (oneOf (anyRule [
    "as case pattern", "keyword_pattern", "simple pattern"]))),
  hidden "simple pattern" (precedence 1 (oneOf [
    .ref "class_pattern", .ref "splat_pattern", .ref "union_pattern", .ref "list case pattern",
    .ref "tuple case pattern", .ref "dict_pattern", .ref "string", .ref "concatenated_string",
    .ref "true", .ref "false", .ref "none",
    all [optional "-", oneOf (anyRule ["integer", "float"])], .ref "complex_pattern",
    .ref "dotted_name", "_"])),
  { hidden "as case pattern" (all [.ref "case_pattern", "as", .ref "identifier"])
    with shownAs := some "as_pattern" },
  node "union_pattern" (rightward 0
    (all [.ref "simple pattern", .many1 (leftward 0 (all ["|", .ref "simple pattern"]))])),
  { hidden "list case pattern" (all ["[", optional (commaList (.ref "case_pattern")), "]"])
    with shownAs := some "list_pattern" },
  { hidden "tuple case pattern" (all ["(", optional (commaList (.ref "case_pattern")), ")"])
    with shownAs := some "tuple_pattern" },
  node "dict_pattern" (all ["\x7b",
    optional (commaList (oneOf (anyRule ["key value pattern", "splat_pattern"]))), "\x7d"]),
  hidden "key value pattern"
    (all [.field "key" (.ref "simple pattern"), ":", .field "value" (.ref "case_pattern")]),
  node "keyword_pattern" (all [.ref "identifier", "=", .ref "simple pattern"]),
  node "splat_pattern" (precedence 1 (all [oneOf ["*", "**"], oneOf [.ref "identifier", "_"]])),
  node "class_pattern"
    (all [.ref "dotted_name", "(", optional (commaList (.ref "case_pattern")), ")"]),
  node "complex_pattern" (precedence 1 (all [optional "-",
    oneOf (anyRule ["integer", "float"]), oneOf ["+", "-"],
    oneOf (anyRule ["integer", "float"])])),
  hidden "parameter list" (commaList (.ref "parameter")),
  hidden "pattern sequence" (commaList (.ref "pattern")),
  family "parameter" (anyRule [
    "identifier", "typed_parameter", "default_parameter", "typed_default_parameter",
    "list_splat_pattern", "tuple_pattern", "keyword_separator", "positional_separator",
    "dictionary_splat_pattern"]),
  family "pattern" (anyRule [
    "identifier", "keyword as identifier", "subscript", "attribute", "list_splat_pattern",
    "tuple_pattern", "list_pattern"]),
  node "tuple_pattern" (all ["(", optional (.ref "pattern sequence"), ")"]),
  node "list_pattern" (all ["[", optional (.ref "pattern sequence"), "]"]),
  node "default_parameter"
    (all [.field "name" (oneOf (anyRule ["identifier", "tuple_pattern"])), "=",
      .field "value" (.ref "expression")]),
  node "typed_default_parameter" (precedence (-1)
    (all [.field "name" (.ref "identifier"), ":", .field "type" (.ref "type"), "=",
      .field "value" (.ref "expression")])),
  node "list_splat_pattern" (all ["*",
    oneOf (anyRule ["identifier", "keyword as identifier", "subscript", "attribute"])]),
  node "dictionary_splat_pattern" (all ["**",
    oneOf (anyRule ["identifier", "keyword as identifier", "subscript", "attribute"])]),
  node "as_pattern" (leftward 0
    (all [.ref "expression", "as",
      .field "alias" (shownAs "as_pattern_target" (.ref "expression"))]))]

/-- A binary operator with its precedence. -/
def binary (operator : String) (group : Rule → Rule) : Rule :=
  group (all [.field "left" (.ref "primary_expression"), .field "operator" operator,
    .field "right" (.ref "primary_expression")])

/-- Expressions and assignments. -/
def expressionRules : List RuleEntry := [
  hidden "expression in for clause"
    (oneOf (anyRule ["expression", "lambda in for clause"])),
  family "expression" (anyRule [
    "comparison_operator", "not_operator", "boolean_operator", "lambda", "primary_expression",
    "conditional_expression", "named_expression", "as_pattern"]),
  family "primary_expression" (anyRule [
    "await_expression", "binary_operator", "identifier", "keyword as identifier", "string",
    "concatenated_string", "integer", "float", "true", "false", "none", "unary_operator",
    "attribute", "subscript", "call", "list", "list_comprehension", "dictionary",
    "dictionary_comprehension", "set", "set_comprehension", "tuple", "parenthesized_expression",
    "generator_expression", "ellipsis"] ++ [shownAs "list_splat" (.ref "list_splat_pattern")]),
  node "not_operator" (precedence 12 (all ["not", .field "argument" (.ref "expression")])),
  node "boolean_operator" (oneOf [
    leftward 11 (all [.field "left" (.ref "expression"), .field "operator" "and",
      .field "right" (.ref "expression")]),
    leftward 10 (all [.field "left" (.ref "expression"), .field "operator" "or",
      .field "right" (.ref "expression")])]),
  node "binary_operator" (oneOf [
    binary "+" (leftward 18), binary "-" (leftward 18), binary "*" (leftward 19),
    binary "@" (leftward 19), binary "/" (leftward 19), binary "%" (leftward 19),
    binary "//" (leftward 19), binary "**" (rightward 21), binary "|" (leftward 14),
    binary "&" (leftward 15), binary "^" (leftward 16), binary "<<" (leftward 17),
    binary ">>" (leftward 17)]),
  node "unary_operator" (precedence 20
    (all [.field "operator" (oneOf ["+", "-", "~"]),
      .field "argument" (.ref "primary_expression")])),
  node "comparison_operator" (leftward 13 (all [.ref "primary_expression",
    .many1 (all [
      .field "operators" (oneOf [
        "<", "<=", "==", "!=", ">=", ">", "<>", "in",
        .shown "not in" .anonymous (all ["not", "in"]), "is",
        .shown "is not" .anonymous (all ["is", "not"])]),
      .ref "primary_expression"])])),
  node "lambda" (precedence (-2)
    (all ["lambda", .field "parameters" (optional (.ref "lambda_parameters")), ":",
      .field "body" (.ref "expression")])),
  { node "lambda in for clause"
      (all ["lambda", .field "parameters" (optional (.ref "lambda_parameters")), ":",
        .field "body" (.ref "expression in for clause")]) with shownAs := some "lambda" },
  node "assignment"
    (all [.field "left" (.ref "left hand side"),
      oneOf [
        all ["=", .field "right" (.ref "right hand side")],
        all [":", .field "type" (.ref "type")],
        all [":", .field "type" (.ref "type"), "=", .field "right" (.ref "right hand side")]]]),
  node "augmented_assignment"
    (all [.field "left" (.ref "left hand side"),
      .field "operator" (oneOf ["+=", "-=", "*=", "/=", "@=", "//=", "%=", "**=", ">>=", "<<=",
        "&=", "^=", "|="]),
      .field "right" (.ref "right hand side")]),
  inlined "left hand side" (oneOf (anyRule ["pattern", "pattern_list"])),
  node "pattern_list" (all [.ref "pattern",
    oneOf [",", all [.many1 (all [",", .ref "pattern"]), trailingComma]]]),
  hidden "right hand side" (oneOf (anyRule [
    "expression", "expression_list", "assignment", "augmented_assignment", "pattern_list",
    "yield"])),
  node "yield" (rightward 0 (all ["yield",
    oneOf [all ["from", .ref "expression"], optional (.ref "expressions")]])),
  node "attribute" (precedence 22
    (all [.field "object" (.ref "primary_expression"), ".",
      .field "attribute" (.ref "identifier")])),
  node "subscript" (precedence 22
    (all [.field "value" (.ref "primary_expression"), "[",
      commaSeparated (.field "subscript" (oneOf (anyRule ["expression", "slice"]))),
      trailingComma, "]"])),
  node "slice"
    (all [optional (.ref "expression"), ":", optional (.ref "expression"),
      optional (all [":", optional (.ref "expression")])]),
  node "call" (precedence 22
    (all [.field "function" (.ref "primary_expression"),
      .field "arguments" (oneOf (anyRule ["generator_expression", "argument_list"]))])),
  node "typed_parameter" (precedence (-1)
    (all [oneOf (anyRule ["identifier", "list_splat_pattern", "dictionary_splat_pattern"]), ":",
      .field "type" (.ref "type")])),
  node "type" (oneOf (anyRule [
    "expression", "splat_type", "generic_type", "union_type", "constrained_type",
    "member_type"])),
  node "splat_type" (precedence 1 (all [oneOf ["*", "**"], .ref "identifier"])),
  node "generic_type" (precedence 1 (all [.ref "identifier", .ref "type_parameter"])),
  node "union_type" (leftward 0 (all [.ref "type", "|", .ref "type"])),
  node "constrained_type" (rightward 0 (all [.ref "type", ":", .ref "type"])),
  node "member_type" (all [.ref "type", ".", .ref "identifier"]),
  node "keyword_argument"
    (all [.field "name" (oneOf (anyRule ["identifier", "keyword as identifier"])), "=",
      .field "value" (.ref "expression")])]

/-- Displays, comprehensions and literals. -/
def literalRules : List RuleEntry := [
  node "list" (all ["[", optional (.ref "collection elements"), "]"]),
  node "set" (all ["\x7b", .ref "collection elements", "\x7d"]),
  node "tuple" (all ["(", optional (.ref "collection elements"), ")"]),
  node "dictionary" (all ["\x7b",
    optional (commaSeparated (oneOf (anyRule ["pair", "dictionary_splat"]))), trailingComma,
    "\x7d"]),
  node "pair"
    (all [.field "key" (.ref "expression"), ":", .field "value" (.ref "expression")]),
  node "list_comprehension"
    (all ["[", .field "body" (.ref "expression"), .ref "comprehension clauses", "]"]),
  node "dictionary_comprehension"
    (all ["\x7b", .field "body" (.ref "pair"), .ref "comprehension clauses", "\x7d"]),
  node "set_comprehension"
    (all ["\x7b", .field "body" (.ref "expression"), .ref "comprehension clauses", "\x7d"]),
  node "generator_expression"
    (all ["(", .field "body" (.ref "expression"), .ref "comprehension clauses", ")"]),
  hidden "comprehension clauses"
    (all [.ref "for_in_clause", many (oneOf (anyRule ["for_in_clause", "if_clause"]))]),
  node "parenthesized_expression" (precedence 1
    (all ["(", oneOf (anyRule ["expression", "yield"]), ")"])),
  hidden "collection elements" (commaList (oneOf (anyRule [
    "expression", "yield", "list_splat", "parenthesized_list_splat"]))),
  node "for_in_clause" (leftward 0
    (all [optional "async", "for", .field "left" (.ref "left hand side"), "in",
      .field "right" (commaSeparated (.ref "expression in for clause")), trailingComma])),
  node "if_clause" (all ["if", .ref "expression"]),
  node "conditional_expression" (rightward (-1)
    (all [.ref "expression", "if", .ref "expression", "else", .ref "expression"])),
  node "concatenated_string" (all [.ref "string", .many1 (.ref "string")]),
  node "string"
    (all [.ref "string_start", many (oneOf (anyRule ["interpolation", "string_content"])),
      .ref "string_end"]),
  node "string_content" (rightward 0 (.many1 (oneOf (anyRule [
    "escape_interpolation", "escape_sequence", "lone backslash", "string text"])))),
  node "interpolation"
    (all ["\x7b", .field "expression" (.ref "formatted expression"), optional "=",
      optional (.field "type_conversion" (.ref "type_conversion")),
      optional (.field "format_specifier" (.ref "format_specifier")), "\x7d"]),
  hidden "formatted expression" (oneOf (anyRule [
    "expression", "expression_list", "pattern_list", "yield"])),
  node "format_specifier" (all [":",
    many (oneOf [.ref "format text", shownAs "format_expression" (.ref "interpolation")])]),
  inlined "keyword as identifier" (oneOf [
    precedence (-3) (shownAs "identifier" (oneOf ["print", "exec", "async", "await", "match"])),
    shownAs "identifier" "type"]),
  { node "await_expression" (precedence 20 (all ["await", .ref "primary_expression"]))
      with shownAs := some "await" },
  node "positional_separator" "/",
  node "keyword_separator" "*"]

/-- The description of the language. -/
def description : Description where
  tokens := tokens
  layout := layout
  watched := watched
  blanks := blanks
  extras := ["comment", "line_continuation"]
  word := "identifier"
  rules := statementRules ++ patternRules ++ expressionRules ++ literalRules

end CallAtlas.Grammar.Python
