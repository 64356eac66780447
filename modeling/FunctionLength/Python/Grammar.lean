import FunctionLength.Grammar.Rule
import FunctionLength.Python.Terminal

namespace FunctionLength.Python
open FunctionLength.Grammar
open FunctionLength.Grammar.Rule (call sequence choice optional anyNumber many field left right level weight
  shownAs)

namespace Rules

abbrev Form := Rule Terminal

instance : Coe String Form := ⟨fun s => .token (.word s)⟩
instance : Coe Terminal Form := ⟨.token⟩

structure Levels where
  lambda : Int := -2
  typedParameter : Int := -1
  conditional : Int := -1
  parenthesized : Int := 1
  or : Int := 10
  and : Int := 11
  not : Int := 12
  compare : Int := 13
  bitwiseOr : Int := 14
  bitwiseAnd : Int := 15
  xor : Int := 16
  shift : Int := 17
  plus : Int := 18
  times : Int := 19
  unary : Int := 20
  power : Int := 21
  call : Int := 22

def levels : Levels := {}

def commaSeparated (a : Form) : Form := Rule.separated "," a

def expression : Form := call "expression"
def primary : Form := call "primary_expression"
def suite : Form := call "_suite"
def identifier : Form := Terminal.identifier
def keywordIdentifier : Form := call "keyword_identifier"

def body (a : Form) : Form := field "body" a
def consequence : Form := field "consequence" suite

def simpleStatements : List (String × Form) := [
  ("module", anyNumber (call "_statement")),
  ("_statement", choice [call "_simple_statements", call "_compound_statement"]),
  ("_simple_statements", sequence [
    Rule.separated ";" (call "_simple_statement"), optional ";", Terminal.newline]),
  ("_simple_statement", choice ([
    "future_import_statement", "import_statement", "import_from_statement", "print_statement",
    "assert_statement", "expression_statement", "return_statement", "delete_statement",
    "raise_statement", "pass_statement", "break_statement", "continue_statement",
    "global_statement", "nonlocal_statement", "exec_statement", "type_alias_statement"].map call)),
  ("import_statement", sequence ["import", call "_import_list"]),
  ("import_prefix", many "."),
  ("relative_import", sequence [call "import_prefix", optional (call "dotted_name")]),
  ("future_import_statement", sequence [
    "from", "__future__", "import",
    choice [call "_import_list", sequence ["(", call "_import_list", ")"]]]),
  ("import_from_statement", sequence [
    "from", field "module_name" (choice [call "relative_import", call "dotted_name"]), "import",
    choice [call "wildcard_import", call "_import_list", sequence ["(", call "_import_list", ")"]]]),
  ("_import_list", sequence [
    commaSeparated (field "name" (choice [call "dotted_name", call "aliased_import"])), optional ","]),
  ("aliased_import", sequence [field "name" (call "dotted_name"), "as", field "alias" identifier]),
  ("wildcard_import", "*"),
  ("print_statement", choice [
    level 1 (sequence [
      "print", call "chevron", anyNumber (sequence [",", field "argument" expression]), optional ","]),
    level (-3) (weight (-1) (sequence [
      "print", commaSeparated (field "argument" expression), optional ","]))]),
  ("chevron", sequence [">>", expression]),
  ("assert_statement", sequence ["assert", commaSeparated expression]),
  ("expression_statement", choice [
    expression, sequence [commaSeparated expression, optional ","],
    call "assignment", call "augmented_assignment", call "yield"]),
  ("named_expression", sequence [
    field "name" (call "_named_expression_lhs"), ":=", field "value" expression]),
  ("_named_expression_lhs", choice [identifier, keywordIdentifier]),
  ("return_statement", sequence ["return", optional (call "_expressions")]),
  ("delete_statement", sequence ["del", call "_expressions"]),
  ("_expressions", choice [expression, call "expression_list"]),
  ("raise_statement", sequence [
    "raise", optional (call "_expressions"), optional (sequence ["from", field "cause" expression])]),
  ("pass_statement", left 0 "pass"),
  ("break_statement", left 0 "break"),
  ("continue_statement", left 0 "continue")]

def compoundStatements : List (String × Form) := [
  ("_compound_statement", choice ([
    "if_statement", "for_statement", "while_statement", "try_statement", "with_statement",
    "function_definition", "class_definition", "decorated_definition", "match_statement"].map call)),
  ("if_statement", sequence [
    "if", field "condition" expression, ":", consequence,
    anyNumber (field "alternative" (call "elif_clause")),
    optional (field "alternative" (call "else_clause"))]),
  ("elif_clause", sequence ["elif", field "condition" expression, ":", consequence]),
  ("else_clause", sequence ["else", ":", body suite]),
  ("match_statement", sequence [
    "match", commaSeparated (field "subject" expression), optional ",", ":",
    body ((call "_match_block").kind "block")]),
  ("_match_block", choice [
    sequence [Terminal.indent, anyNumber (field "alternative" (call "case_clause")), Terminal.dedent],
    Terminal.newline]),
  ("case_clause", sequence [
    "case", commaSeparated (call "case_pattern"), optional ",",
    optional (field "guard" (call "if_clause")), ":", consequence]),
  ("for_statement", sequence [
    optional "async", "for", field "left" (call "_left_hand_side"), "in",
    field "right" (call "_expressions"), ":", body suite,
    field "alternative" (optional (call "else_clause"))]),
  ("while_statement", sequence [
    "while", field "condition" expression, ":", body suite,
    optional (field "alternative" (call "else_clause"))]),
  ("try_statement", sequence [
    "try", ":", body suite,
    choice [
      sequence [
        many (call "except_clause"), optional (call "else_clause"), optional (call "finally_clause")],
      sequence [
        many (call "except_group_clause"), optional (call "else_clause"),
        optional (call "finally_clause")],
      call "finally_clause"]]),
  ("except_clause", sequence [
    "except",
    optional (sequence [
      field "value" expression,
      optional (sequence [choice ["as", ","], field "alias" expression])]),
    ":", suite]),
  ("except_group_clause", sequence [
    "except*", expression, optional (sequence ["as", expression]), ":", suite]),
  ("finally_clause", sequence ["finally", ":", suite]),
  ("with_statement", sequence [optional "async", "with", call "with_clause", ":", body suite]),
  ("with_clause", choice [
    sequence [commaSeparated (call "with_item"), optional ","],
    sequence ["(", commaSeparated (call "with_item"), optional ",", ")"]]),
  ("with_item", weight 1 (field "value" expression))]

def definitions : List (String × Form) := [
  ("function_definition", sequence [
    optional "async", "def", field "name" identifier,
    field "type_parameters" (optional (call "type_parameter")),
    field "parameters" (call "parameters"),
    optional (sequence ["->", field "return_type" (call "type")]), ":", body suite]),
  ("parameters", sequence ["(", optional (call "_parameters"), ")"]),
  ("lambda_parameters", call "_parameters"),
  ("list_splat", sequence ["*", expression]),
  ("dictionary_splat", sequence ["**", expression]),
  ("global_statement", sequence ["global", commaSeparated identifier]),
  ("nonlocal_statement", sequence ["nonlocal", commaSeparated identifier]),
  ("exec_statement", sequence [
    "exec", field "code" (choice [call "string", identifier]),
    optional (sequence ["in", commaSeparated expression])]),
  ("type_alias_statement", weight 1 (sequence [
    "type", field "left" (call "type"), "=", field "right" (call "type")])),
  ("class_definition", sequence [
    "class", field "name" identifier, field "type_parameters" (optional (call "type_parameter")),
    field "superclasses" (optional (call "argument_list")), ":", body suite]),
  ("type_parameter", sequence ["[", commaSeparated (call "type"), optional ",", "]"]),
  ("parenthesized_list_splat", level levels.parenthesized (sequence [
    "(",
    choice [(call "parenthesized_list_splat").kind "parenthesized_expression", call "list_splat"],
    ")"])),
  ("argument_list", sequence [
    "(",
    optional (commaSeparated (choice [
      expression, call "list_splat", call "dictionary_splat",
      (call "parenthesized_list_splat").kind "parenthesized_expression", call "keyword_argument"])),
    optional ",", ")"]),
  ("decorated_definition", sequence [
    many (call "decorator"),
    field "definition" (choice [call "class_definition", call "function_definition"])]),
  ("decorator", sequence ["@", expression, Terminal.newline]),
  ("_suite", choice [
    (call "_simple_statements").kind "block",
    sequence [Terminal.indent, call "block"],
    Rule.kind "block" Terminal.newline]),
  ("block", sequence [anyNumber (call "_statement"), Terminal.dedent]),
  ("expression_list", right 0 (sequence [
    expression,
    choice [",", sequence [many (sequence [",", expression]), optional ","]]])),
  ("dotted_name", level 1 (Rule.separated "." identifier))]

def casePatternList (opening closing : String) : Form :=
  sequence [opening, optional (sequence [commaSeparated (call "case_pattern"), optional ","]), closing]

def number : Form := choice [Terminal.integer, Terminal.float]

def constants : List Form :=
  [Terminal.constant "True", Terminal.constant "False", Terminal.constant "None"]

def casePatterns : List (String × Form) := [
  ("case_pattern", level 1 (choice [
    (call "_as_pattern").kind "as_pattern", call "keyword_pattern", call "_simple_pattern"])),
  ("_simple_pattern", level 1 (choice ([
    call "class_pattern", call "splat_pattern", call "union_pattern",
    (call "_list_pattern").kind "list_pattern", (call "_tuple_pattern").kind "tuple_pattern",
    call "dict_pattern", call "string", call "concatenated_string"] ++ constants ++ [
    sequence [optional "-", number], call "complex_pattern", call "dotted_name", "_"]))),
  ("_as_pattern", sequence [call "case_pattern", "as", identifier]),
  ("union_pattern", right 0 (sequence [
    call "_simple_pattern", many (left 0 (sequence ["|", call "_simple_pattern"]))])),
  ("_list_pattern", casePatternList "[" "]"),
  ("_tuple_pattern", casePatternList "(" ")"),
  ("dict_pattern", sequence [
    "\x7b",
    optional (sequence [
      commaSeparated (choice [call "_key_value_pattern", call "splat_pattern"]), optional ","]),
    "\x7d"]),
  ("_key_value_pattern", sequence [
    field "key" (call "_simple_pattern"), ":", field "value" (call "case_pattern")]),
  ("keyword_pattern", sequence [identifier, "=", call "_simple_pattern"]),
  ("splat_pattern", level 1 (sequence [choice ["*", "**"], choice [identifier, "_"]])),
  ("class_pattern", sequence [call "dotted_name", casePatternList "(" ")"]),
  ("complex_pattern", level 1 (sequence [optional "-", number, choice ["+", "-"], number]))]

def splatTarget : Form :=
  choice [identifier, keywordIdentifier, call "subscript", call "attribute"]

def patterns : List (String × Form) := [
  ("_parameters", sequence [commaSeparated (call "parameter"), optional ","]),
  ("_patterns", sequence [commaSeparated (call "pattern"), optional ","]),
  ("parameter", choice ([identifier] ++ [
    "typed_parameter", "default_parameter", "typed_default_parameter", "list_splat_pattern",
    "tuple_pattern", "keyword_separator", "positional_separator",
    "dictionary_splat_pattern"].map call)),
  ("pattern", choice ([identifier, keywordIdentifier] ++ [
    "subscript", "attribute", "list_splat_pattern", "tuple_pattern", "list_pattern"].map call)),
  ("tuple_pattern", sequence ["(", optional (call "_patterns"), ")"]),
  ("list_pattern", sequence ["[", optional (call "_patterns"), "]"]),
  ("default_parameter", sequence [
    field "name" (choice [identifier, call "tuple_pattern"]), "=", field "value" expression]),
  ("typed_default_parameter", level levels.typedParameter (sequence [
    field "name" identifier, ":", field "type" (call "type"), "=", field "value" expression])),
  ("list_splat_pattern", sequence ["*", splatTarget]),
  ("dictionary_splat_pattern", sequence ["**", splatTarget]),
  ("as_pattern", left 0 (sequence [
    expression, "as", field "alias" (expression.kind "as_pattern_target")]))]

def binary (bind : Int → Form → Form) (strength : Int) (operator : String) : Form :=
  bind strength (sequence [field "left" primary, field "operator" operator, field "right" primary])

def boolean (strength : Int) (operator : String) : Form :=
  left strength (sequence [
    field "left" expression, field "operator" operator, field "right" expression])

def operators : List (String × Form) := [
  ("_expression_within_for_in_clause", choice [
    expression, (call "lambda_within_for_in_clause").kind "lambda"]),
  ("expression", choice ([
    "comparison_operator", "not_operator", "boolean_operator", "lambda", "primary_expression",
    "conditional_expression", "named_expression", "as_pattern"].map call)),
  ("primary_expression", choice (
    [call "await", call "binary_operator", identifier, keywordIdentifier, call "string",
      call "concatenated_string", Terminal.integer, Terminal.float] ++ constants ++ [
      "unary_operator", "attribute", "subscript", "call", "list", "list_comprehension",
      "dictionary", "dictionary_comprehension", "set", "set_comprehension", "tuple",
      "parenthesized_expression", "generator_expression"].map call ++
    [.token .ellipsis, (call "list_splat_pattern").kind "list_splat"])),
  ("not_operator", level levels.not (sequence ["not", field "argument" expression])),
  ("boolean_operator", choice [boolean levels.and "and", boolean levels.or "or"]),
  ("binary_operator", choice [
    binary left levels.plus "+", binary left levels.plus "-", binary left levels.times "*",
    binary left levels.times "@", binary left levels.times "/", binary left levels.times "%",
    binary left levels.times "//", binary right levels.power "**", binary left levels.bitwiseOr "|",
    binary left levels.bitwiseAnd "&", binary left levels.xor "^", binary left levels.shift "<<",
    binary left levels.shift ">>"]),
  ("unary_operator", level levels.unary (sequence [
    field "operator" (choice ["+", "-", "~"]), field "argument" primary])),
  ("_not_in", sequence ["not", "in"]),
  ("_is_not", sequence ["is", "not"]),
  ("comparison_operator", left levels.compare (sequence [
    primary,
    many (sequence [
      field "operators" (choice [
        "<", "<=", "==", "!=", ">=", ">", "<>", "in",
        shownAs ⟨"not in", false⟩ (call "_not_in"), "is", shownAs ⟨"is not", false⟩ (call "_is_not")]),
      primary])])),
  ("lambda", level levels.lambda (sequence [
    "lambda", field "parameters" (optional (call "lambda_parameters")), ":", body expression])),
  ("lambda_within_for_in_clause", sequence [
    "lambda", field "parameters" (optional (call "lambda_parameters")), ":",
    body (call "_expression_within_for_in_clause")]),
  ("assignment", sequence [
    field "left" (call "_left_hand_side"),
    choice [
      sequence ["=", field "right" (call "_right_hand_side")],
      sequence [":", field "type" (call "type")],
      sequence [":", field "type" (call "type"), "=", field "right" (call "_right_hand_side")]]]),
  ("augmented_assignment", sequence [
    field "left" (call "_left_hand_side"),
    field "operator" (choice [
      "+=", "-=", "*=", "/=", "@=", "//=", "%=", "**=", ">>=", "<<=", "&=", "^=", "|="]),
    field "right" (call "_right_hand_side")]),
  ("_left_hand_side", choice [call "pattern", call "pattern_list"]),
  ("pattern_list", sequence [
    call "pattern",
    choice [",", sequence [many (sequence [",", call "pattern"]), optional ","]]]),
  ("_right_hand_side", choice [
    expression, call "expression_list", call "assignment", call "augmented_assignment",
    call "pattern_list", call "yield"]),
  ("yield", right 0 (sequence [
    "yield", choice [sequence ["from", expression], optional (call "_expressions")]]))]

def types : List (String × Form) := [
  ("attribute", level levels.call (sequence [
    field "object" primary, ".", field "attribute" identifier])),
  ("subscript", level levels.call (sequence [
    field "value" primary, "[", commaSeparated (field "subscript" (choice [expression, call "slice"])),
    optional ",", "]"])),
  ("slice", sequence [
    optional expression, ":", optional expression, optional (sequence [":", optional expression])]),
  ("call", level levels.call (sequence [
    field "function" primary,
    field "arguments" (choice [call "generator_expression", call "argument_list"])])),
  ("typed_parameter", level levels.typedParameter (sequence [
    choice [identifier, call "list_splat_pattern", call "dictionary_splat_pattern"], ":",
    field "type" (call "type")])),
  ("type", choice [
    level 1 expression, call "splat_type", call "generic_type", call "union_type",
    call "constrained_type", call "member_type"]),
  ("splat_type", level 1 (sequence [choice ["*", "**"], identifier])),
  ("generic_type", level 1 (sequence [
    choice [identifier, Rule.kind "identifier" "type"], call "type_parameter"])),
  ("union_type", left 0 (sequence [call "type", "|", call "type"])),
  ("constrained_type", right 0 (sequence [call "type", ":", call "type"])),
  ("member_type", sequence [call "type", ".", identifier]),
  ("keyword_argument", sequence [
    field "name" (choice [identifier, keywordIdentifier]), "=", field "value" expression])]

def comprehension (opening closing : String) (element : Form) : Form :=
  sequence [opening, body element, call "_comprehension_clauses", closing]

def collections : List (String × Form) := [
  ("list", sequence ["[", optional (call "_collection_elements"), "]"]),
  ("set", sequence ["\x7b", call "_collection_elements", "\x7d"]),
  ("tuple", sequence ["(", optional (call "_collection_elements"), ")"]),
  ("dictionary", sequence [
    "\x7b", optional (commaSeparated (choice [call "pair", call "dictionary_splat"])), optional ",",
    "\x7d"]),
  ("pair", sequence [field "key" expression, ":", field "value" expression]),
  ("list_comprehension", comprehension "[" "]" expression),
  ("dictionary_comprehension", comprehension "\x7b" "\x7d" (call "pair")),
  ("set_comprehension", comprehension "\x7b" "\x7d" expression),
  ("generator_expression", comprehension "(" ")" expression),
  ("_comprehension_clauses", sequence [
    call "for_in_clause", anyNumber (choice [call "for_in_clause", call "if_clause"])]),
  ("parenthesized_expression", level levels.parenthesized (sequence [
    "(", choice [expression, call "yield"], ")"])),
  ("_collection_elements", sequence [
    commaSeparated (choice [
      expression, call "yield", call "list_splat", call "parenthesized_list_splat"]),
    optional ","]),
  ("for_in_clause", left 0 (sequence [
    optional "async", "for", field "left" (call "_left_hand_side"), "in",
    field "right" (commaSeparated (call "_expression_within_for_in_clause")), optional ","])),
  ("if_clause", sequence ["if", expression]),
  ("conditional_expression", right levels.conditional (sequence [
    expression, "if", expression, "else", expression]))]

def strings : List (String × Form) := [
  ("concatenated_string", sequence [call "string", many (call "string")]),
  ("string", sequence [
    Terminal.stringStart, anyNumber (choice [call "interpolation", call "string_content"]),
    Terminal.stringEnd]),
  ("string_content", right 0 (many (choice [
    Terminal.escapedBrace, Terminal.escapeSequence, Terminal.backslash, Terminal.stringContent]))),
  ("interpolation", sequence [
    "\x7b", field "expression" (call "_f_expression"), optional "=",
    optional (field "type_conversion" Terminal.typeConversion),
    optional (field "format_specifier" (call "format_specifier")), "\x7d"]),
  ("_f_expression", choice [
    expression, call "expression_list", call "pattern_list", call "yield"]),
  ("format_specifier", sequence [
    ":",
    anyNumber (choice [Terminal.formatText, (call "interpolation").kind "format_expression"])]),
  ("keyword_identifier", choice [
    level (-3) (Rule.kind "identifier" (choice ["print", "exec", "async", "await"])),
    Rule.kind "identifier" (choice ["type", "match"])]),
  ("await", level levels.unary (sequence ["await", primary])),
  ("positional_separator", "/"),
  ("keyword_separator", "*")]

/-- The terminals. A missing token is supplied by the first of these that fits. -/
def terminals : Array Terminal := #[
  .finish, .identifier, .word ";", .word "import", .word ".", .word "from", .word "__future__",
  .word "(", .word ")", .word ",", .word "as", .word "*", .word "print", .word ">>",
  .word "assert", .word ":=", .word "return", .word "del", .word "raise", .word "pass",
  .word "break", .word "continue", .word "if", .word ":", .word "elif", .word "else",
  .word "match", .word "case", .word "async", .word "for", .word "in", .word "while", .word "try",
  .word "except", .word "except*", .word "finally", .word "with", .word "def", .word "->",
  .word "**", .word "global", .word "nonlocal", .word "exec", .word "type", .word "=",
  .word "class", .word "[", .word "]", .word "@", .word "-", .word "_", .word "|", .word "\x7b",
  .word "\x7d", .word "+", .word "not", .word "and", .word "or", .word "/", .word "%", .word "//",
  .word "&", .word "^", .word "<<", .word "~", .word "is", .word "<", .word "<=", .word "==",
  .word "!=", .word ">=", .word ">", .word "<>", .word "lambda", .word "+=", .word "-=",
  .word "*=", .word "/=", .word "@=", .word "//=", .word "%=", .word "**=", .word ">>=",
  .word "<<=", .word "&=", .word "^=", .word "|=", .word "yield", .ellipsis, .escapeSequence,
  .backslash, .formatText, .typeConversion, .integer, .float, .word "await", .constant "True",
  .constant "False", .constant "None", .comment, .lineJoin, .newline, .indent, .dedent,
  .stringStart, .stringContent, .escapedBrace, .stringEnd]

end Rules

open Rules in
def grammar : Grammar Terminal where
  rules := simpleStatements ++ compoundStatements ++ definitions ++ casePatterns ++ patterns ++
    operators ++ types ++ collections ++ strings
  groups := ["_simple_statement", "_compound_statement", "expression", "primary_expression",
    "pattern", "parameter"]
  copied := ["_simple_statement", "_compound_statement", "_suite", "_expressions",
    "_left_hand_side", "keyword_identifier"]
  terminals := terminals

end FunctionLength.Python
