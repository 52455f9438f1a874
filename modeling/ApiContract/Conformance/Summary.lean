import ApiContract.Json.Basic
/-!
# Summaries

How many of the recorded outcomes are passes.
-/

namespace ApiContract

/-- The numbers of passes and failures. -/
structure Summary where
  passed : Nat
  failed : Nat
deriving DecidableEq, Repr

namespace Summary

variable {α : Type}

/-- The summary of results. -/
def of (passes : α → Bool) (results : List α) : Summary :=
  let passed := results.countP passes
  ⟨passed, results.length - passed⟩

/-- The number of results. -/
def total (summary : Summary) : Nat := summary.passed + summary.failed

/-- Whether nothing failed. -/
def allPassed (summary : Summary) : Bool := summary.failed = 0

/-- The value of a summary. -/
def toJson (summary : Summary) : Json :=
  .object [("passed", .integer summary.passed), ("failed", .integer summary.failed)]

end Summary

end ApiContract
