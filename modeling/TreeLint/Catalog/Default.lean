/-
The catalog that comes with the program.
-/
import TreeLint.Catalog.Basic

namespace TreeLint.Catalog

/-- The entry for leaked subclasses. -/
def leakedSubclassEntry : Table := [
  ("display_name", .str "Generated subclass leaked"),
  ("severity", .str "WARNING"),
  ("fixable", .bool false),
  ("summary", .str ("Do not refer to the generated implementation class of a value type " ++
    "outside the value type's own declaration.")),
  ("explanation", .str ("Value types annotated with the marker annotation get a generated " ++
    "subclass named with a fixed prefix (AutoValue_Foo for Foo). That " ++
    "subclass is an implementation detail: code outside Foo should call " ++
    "Foo's own factory methods instead of constructing or naming " ++
    "AutoValue_Foo directly. References from inside Foo, or from any " ++
    "subtype of Foo, are allowed. Every leaked reference in a unit is " ++
    "reported separately.")),
  ("references", .list [.str "https://github.com/google/auto/blob/main/value/userguide/howto.md"])
]

/-- The entry for remainders of random draws. -/
def randomRemainderEntry : Table := [
  ("display_name", .str "Random modulo integer"),
  ("severity", .str "ERROR"),
  ("fixable", .bool true),
  ("summary", .str "Use nextInt(int). nextInt() % n can have negative results."),
  ("explanation", .str ("nextInt() returns any int, including negative ones, so " ++
    "rng.nextInt() % n lies in (-n, n) rather than [0, n). The bounded " ++
    "overload rng.nextInt(n) returns a uniformly distributed value in " ++
    "[0, n). The suggested fix replaces the whole modulo expression " ++
    "with rng.nextInt(n), keeping the receiver and divisor source text.")),
  ("references", .list [.str "https://errorprone.info/bugpattern/RandomModInteger"])
]

/-- The entry for rules that failed. -/
def failureEntry : Table := [
  ("display_name", .str "Internal rule failure"),
  ("severity", .str "WARNING"),
  ("fixable", .bool false),
  ("summary", .str "A rule raised while analyzing this location; its results were discarded."),
  ("explanation", .str ("Reported in place of a rule's diagnostics when the rule fails on a " ++
    "node. Other rules and the remaining nodes are still analyzed. Run " ++
    "with --verbose to see the traceback.")),
  ("references", .list [])
]

/-- All entries. -/
def default : Catalog where
  entries := [
    ("GeneratedSubclassLeaked", leakedSubclassEntry),
    ("RandomModInteger", randomRemainderEntry),
    ("RuleFailure", failureEntry)
  ]

end TreeLint.Catalog
