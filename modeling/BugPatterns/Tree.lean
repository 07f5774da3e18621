/-!
# Ordered trees

A tree of values and the ways to walk it. Every walk takes a node before what is below it, and the
children of a node from left to right. The monadic walks hand each value to an action, which may
fail and so end the walk; the pure ones list the values that a walk meets.
-/

namespace BugPatterns

/-- A value with the trees below it. -/
inductive Tree (α : Type) where
  | node (value : α) (children : List (Tree α))

namespace Tree

variable {α β : Type} {m : Type → Type}

/-- The value at the root. -/
def value : Tree α → α
  | .node a _ => a

mutual

/-- All values, each before those below it. -/
def preorder : Tree α → List α
  | .node a below => a :: preorderAll below

/-- All values of a list of trees, tree by tree. -/
def preorderAll : List (Tree α) → List α
  | [] => []
  | t :: ts => t.preorder ++ preorderAll ts

end

mutual

/-- The root and the values below it that can be reached through values satisfying `enter`. -/
def within (enter : α → Bool) : Tree α → List α
  | .node a below => a :: withinAll enter below

/-- What `within` lists for those trees whose root satisfies `enter`. -/
def withinAll (enter : α → Bool) : List (Tree α) → List α
  | [] => []
  | t :: ts => (if enter t.value then t.within enter else []) ++ withinAll enter ts

end

mutual

/-- Hands every value to `visit`, which answers whether the walk goes on below it. -/
def traverse [Monad m] (visit : α → m Bool) : Tree α → m Unit
  | .node a below => do if ← visit a then traverseAll visit below

/-- Traverses a list of trees, tree by tree. -/
def traverseAll [Monad m] (visit : α → m Bool) : List (Tree α) → m Unit
  | [] => pure ()
  | t :: ts => do
      traverse visit t
      traverseAll visit ts

end

mutual

/-- Hands the root to `visit`, and then the values below it that satisfy `enter`; nothing below a
    value that does not is entered. -/
def walkWithin [Monad m] (enter : α → Bool) (visit : α → m Unit) : Tree α → m Unit
  | .node a below => do
      visit a
      walkAllWithin enter visit below

/-- Walks those trees whose root satisfies `enter`. -/
def walkAllWithin [Monad m] (enter : α → Bool) (visit : α → m Unit) : List (Tree α) → m Unit
  | [] => pure ()
  | t :: ts => do
      if enter t.value then walkWithin enter visit t
      walkAllWithin enter visit ts

end

mutual

/-- The first value, in preorder, that has at least `levels` values above it. -/
def firstBelow? (levels : Nat) : Tree α → Option α
  | .node a below =>
      match levels with
      | 0 => some a
      | levels + 1 => firstBelowAll? levels below

/-- The first such value of a list of trees. -/
def firstBelowAll? (levels : Nat) : List (Tree α) → Option α
  | [] => none
  | t :: ts => (t.firstBelow? levels).or (firstBelowAll? levels ts)

end

mutual

/-- All values in preorder, each with the marks of the values above it, innermost first. A value
    has a mark when `mark` gives one. -/
def underScopes (mark : α → Option β) (scopes : List β) : Tree α → List (List β × α)
  | .node a below => (scopes, a) :: underScopesAll mark ((mark a).toList ++ scopes) below

/-- All values of a list of trees under the same marks. -/
def underScopesAll (mark : α → Option β) (scopes : List β) : List (Tree α) → List (List β × α)
  | [] => []
  | t :: ts => t.underScopes mark scopes ++ underScopesAll mark scopes ts

end

end Tree

end BugPatterns
