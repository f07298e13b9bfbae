/-
Log entries: what the parts of the program tell about their work, with the channel that each part
writes to.
-/
namespace TreeLint

/-- How much an entry matters, ascending. -/
inductive LogLevel
  | debug | info | warning
deriving DecidableEq

/-- The part of the program that an entry comes from. -/
inductive Channel
  | settings | walk | rules | unitAnalysis | batchAnalysis | fixRun | fixer | lowering
deriving DecidableEq

/-- One entry. -/
structure LogEntry where
  level : LogLevel
  channel : Channel
  message : String
deriving DecidableEq

/-- Entries, the earliest first. -/
abbrev Log := List LogEntry

/-- The name of a level. -/
def LogLevel.name : LogLevel → String
  | debug => "DEBUG"
  | info => "INFO"
  | warning => "WARNING"

/-- The place of a level in the ascending order. -/
def LogLevel.rank : LogLevel → Nat
  | debug => 0
  | info => 1
  | warning => 2

/-- The name of a channel, as it stands in front of a printed entry. -/
def Channel.name : Channel → String
  | settings => "root"
  | walk => "bugscope.domain.traversal"
  | rules => "bugscope.domain.rules"
  | unitAnalysis => "bugscope.use_cases.analyze_unit"
  | batchAnalysis => "bugscope.use_cases.analyze_batch"
  | fixRun => "bugscope.use_cases.apply_fixes"
  | fixer => "bugscope.infrastructure.gateways.libcst_fixer_gateway"
  | lowering => "bugscope.infrastructure.gateways.astroid_gateway"

end TreeLint
