import SourceChunks.Grammar.Config

/-!
# The configuration that comes with the library

The extensions that are known, the node types that serve most grammars, and the tables of the
languages that depart from them.
-/

namespace SourceChunks.Config

/-- The extensions that are known, with their languages. -/
def standardExtensions : List (String × String) :=
  [("py", "python"), ("pyi", "python"), ("js", "javascript"), ("mjs", "javascript"),
    ("cjs", "javascript"), ("jsx", "javascript"), ("ts", "typescript"), ("mts", "typescript"),
    ("cts", "typescript"), ("tsx", "tsx"), ("java", "java"), ("kt", "kotlin"),
    ("kts", "kotlin"), ("go", "go"), ("rs", "rust"), ("c", "c"), ("h", "c"), ("cc", "cpp"),
    ("cpp", "cpp"), ("cxx", "cpp"), ("hpp", "cpp"), ("hh", "cpp"), ("cs", "csharp"),
    ("php", "php"), ("rb", "ruby"), ("swift", "swift"), ("scala", "scala"), ("dart", "dart")]

/-- The node types that serve most grammars. -/
def standardDefaults : List (String × List String) :=
  [("comment_types", ["comment"]),
    ("class_types", ["class_definition", "class_declaration", "impl_item"]),
    ("function_types",
      ["function_definition", "function_declaration", "function_item",
        "method_declaration"]),
    ("class_body_types", ["block", "class_body", "declaration_list"]),
    ("function_declaration_types",
      ["method_definition", "function_definition", "function_item",
        "function_declaration", "method_declaration"]),
    ("function_body_types", ["block", "statement_block"]),
    ("brace_body_types", ["statement_block"]),
    ("method_container_types", ["block", "declaration_list"]),
    ("class_container_types", ["class_definition", "impl_item"])]

/-- Where C departs from the defaults. -/
def standardC : List (String × List String) :=
  [("function_body_types", ["compound_statement"]),
    ("brace_body_types", ["compound_statement"])]

/-- Where C++ departs from the defaults. -/
def standardCpp : List (String × List String) :=
  [("class_types", ["class_specifier", "struct_specifier"]),
    ("class_body_types", ["field_declaration_list"]),
    ("function_body_types", ["compound_statement"]),
    ("brace_body_types", ["compound_statement"]),
    ("method_container_types", ["field_declaration_list"]),
    ("class_container_types", ["class_specifier", "struct_specifier"])]

/-- Where Java departs from the defaults. -/
def standardJava : List (String × List String) :=
  [("function_declaration_types", ["method_declaration", "constructor_declaration"]),
    ("function_types", ["method_declaration", "constructor_declaration"]),
    ("function_body_types", ["block", "constructor_body"])]

/-- The tables, by language. -/
def standardTables : List (String × TypeTable) :=
  [("default", .ofTypes standardDefaults),
    ("c", .ofTypes standardC),
    ("cpp", .ofTypes standardCpp),
    ("java", .ofTypes standardJava)]

/-- The configuration that comes with the library. -/
def standard : Config where
  extensions := .ofList standardExtensions
  tables := .ofList standardTables

end SourceChunks.Config
