import TreeLint.Main
import TreeLint.Proofs.Analysis.Annotated
import TreeLint.Proofs.Analysis.ByRule
import TreeLint.Proofs.Analysis.Cancellation
import TreeLint.Proofs.Analysis.Checked
import TreeLint.Proofs.Analysis.Draws
import TreeLint.Proofs.Analysis.Enabled
import TreeLint.Proofs.Analysis.Isolation
import TreeLint.Proofs.Analysis.Leaks
import TreeLint.Proofs.Analysis.Log
import TreeLint.Proofs.Analysis.Nested
import TreeLint.Proofs.Analysis.Places
import TreeLint.Proofs.Analysis.Remainders
import TreeLint.Proofs.Analysis.Rules
import TreeLint.Proofs.Facts.Ancestry
import TreeLint.Proofs.Facts.Answers
import TreeLint.Proofs.Facts.LineCol
import TreeLint.Proofs.Facts.Log
import TreeLint.Proofs.Facts.Shape
import TreeLint.Proofs.Files.Places
import TreeLint.Proofs.Files.Targets
import TreeLint.Proofs.Files.Tree
import TreeLint.Proofs.Fix.Acceptance
import TreeLint.Proofs.Fix.Draft
import TreeLint.Proofs.Fix.Merge
import TreeLint.Proofs.Fix.Order
import TreeLint.Proofs.Fix.Selection
import TreeLint.Proofs.Fix.Sequence
import TreeLint.Proofs.Fix.Splice
import TreeLint.Proofs.Fixing.File
import TreeLint.Proofs.Fixing.LineEnds
import TreeLint.Proofs.Fixing.Offers
import TreeLint.Proofs.Fixing.Outcome
import TreeLint.Proofs.Fixing.Run
import TreeLint.Proofs.Pattern.Algebra
import TreeLint.Proofs.Pattern.Narrowing
import TreeLint.Proofs.Rule.Requests
import TreeLint.Proofs.Settings.Lookup
import TreeLint.Proofs.Settings.Warnings
import TreeLint.Proofs.Text.LineEnds
import TreeLint.Proofs.Walk.Reordered
import TreeLint.Rule.Script
import TreeLint.Tree.Table
import TreeLint.Walk.Descent
import TreeLint.Walk.Trace
