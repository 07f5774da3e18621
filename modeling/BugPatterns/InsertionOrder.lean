/-!
# Insertion order

A list that holds each item once, in the order in which the items came.
-/

namespace BugPatterns

/-- Adds an item at the end of a list unless it is there already. -/
def appendNew {α : Type} [DecidableEq α] (items : List α) (item : α) : List α :=
  if item ∈ items then items else items ++ [item]

end BugPatterns
