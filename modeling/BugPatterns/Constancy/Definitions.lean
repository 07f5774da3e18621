import BugPatterns.Catalog.Basic
import BugPatterns.Unit.Load

/-!
# Definitions that reach a use

The body of a method is walked in source order up to a use of a variable. A node takes effect when
it is left: an initializer or a plain assignment replaces what was known of the variable, a compound
assignment or a call that adds to it extends what was known. What encloses the use has not taken
effect yet: in `s = s + x` the `s` on the right is the previous one.

Type declarations inside the body run elsewhere. They are skipped, or entered only to find a use of
a captured variable; what they define never counts.
-/

namespace BugPatterns

/-- The types through which a call is looked up in a catalog: that of its receiver, then the one
    that declares the method. -/
def LoadedUnit.callCandidates (loaded : LoadedUnit) (call : Expr Site) : List TypeId :=
  let receiver := match call with
    | .call _ (.select _ target _ _ _) _ _ _ => (loaded.typeOf target).toList
    | _ => []
  let declaring := (loaded.symbolOf call).bind fun method =>
    (loaded.model.enclosingType method).bind loaded.model.declaredType
  match declaring with
  | none => receiver
  | some type => if type ∈ receiver then receiver else receiver ++ [type]

/-- What a node does to a variable when the walk leaves it. -/
inductive DefinitionEvent where
  | replace (value : Expr Site)
  | extend (values : List (Expr Site))

/-- The value last given to a variable and what was added to it since, in source order. -/
structure Definitions where
  latest : Option (Expr Site)
  updates : List (Expr Site)

namespace Definitions

/-- Nothing is known yet. -/
def empty : Definitions := ⟨none, []⟩

/-- Takes one more event into account. -/
def apply (found : Definitions) : DefinitionEvent → Definitions
  | .replace value => ⟨some value, []⟩
  | .extend values => { found with updates := found.updates ++ values }

end Definitions

/-- A search for the definitions of the variable `key` that reach the node number `use`; `captured`
    says whether the use may lie in a type declaration inside the method. -/
structure DefinitionSearch where
  loaded : LoadedUnit
  catalog : Catalog
  key : String
  use : Nat
  captured : Bool

namespace DefinitionSearch

variable (search : DefinitionSearch)

/-- The expression is the variable, possibly in parentheses. -/
def namesVariable (e : Expr Site) : Bool :=
  match e.stripParens with
  | .ident _ _ (some symbol) _ => symbol = search.key
  | _ => false

/-- The call adds to the value it is made on. -/
def mutates (call : Expr Site) (method : String) : Bool :=
  search.catalog.effect? search.loaded.model (search.loaded.callCandidates call) method =
    some .mutate

/-- A chain of calls that add to their receiver starts at the variable. -/
def isRooted : Expr Site → Bool
  | .paren _ inner _ => isRooted inner
  | e@(.call _ (.select _ target name _ _) _ _ _) => search.mutates e name && isRooted target
  | .call .. => false
  | e => search.namesVariable e

/-- What a node does to the variable. -/
def event? : Node Site → Option DefinitionEvent
  | .varDecl decl =>
      if decl.symbol = some search.key then decl.init.map .replace else none
  | .expr (.assign _ op target value _) =>
      if search.namesVariable target then
        some (if op = .assign then .replace value else .extend [value])
      else none
  | .expr e@(.call _ _ args _ _) => if search.isRooted e then some (.extend args) else none
  | _ => none

end DefinitionSearch

/-- What a search has found so far, and whether it has come to the use. -/
structure DefinitionScan where
  reached : Bool
  found : Definitions

namespace DefinitionSearch

variable (search : DefinitionSearch)

/-- Takes the effect of a node into account, unless the use has been reached or the node lies in a
    type declaration. -/
def leave (inType : Bool) (node : Node Site) (scan : DefinitionScan) : DefinitionScan :=
  if scan.reached || inType then scan
  else
    match search.event? node with
    | some event => { scan with found := scan.found.apply event }
    | none => scan

mutual

/-- Scans a tree; `inType` says whether it lies in a type declaration inside the body. -/
def scanTree (inType : Bool) : Tree (Node Site) → DefinitionScan → DefinitionScan
  | .node node below, scan =>
      if scan.reached then scan
      else
        match node with
        | .classDecl _ => if search.captured then scanTrees true below scan else scan
        | .expr e =>
            if e.label.number = search.use then { scan with reached := true }
            else search.leave inType node (scanTrees inType below scan)
        | _ => search.leave inType node (scanTrees inType below scan)

/-- Scans some trees, one after the other. -/
def scanTrees (inType : Bool) : List (Tree (Node Site)) → DefinitionScan → DefinitionScan
  | [], scan => scan
  | t :: ts, scan => scanTrees inType ts (scanTree inType t scan)

end

/-- The definitions that reach the use; nothing if the use is not found in the method body. -/
def run (method : MethodDecl Site) : Option Definitions :=
  match method.body with
  | none => none
  | some body =>
      let scan := search.scanTree false body.tree ⟨false, .empty⟩
      if scan.reached then some scan.found else none

end DefinitionSearch

namespace LoadedUnit

/-- The definitions of a local variable that reach a use of it directly in the method body. -/
def reachingDefinitions (loaded : LoadedUnit) (catalog : Catalog) (method : MethodDecl Site)
    (key : String) (use : Expr Site) : Option Definitions :=
  DefinitionSearch.run ⟨loaded, catalog, key, use.label.number, false⟩ method

/-- The definitions of a local variable that reach a use of it anywhere in the method body, be it
    in a type declaration that captures the variable. -/
def capturedDefinitions (loaded : LoadedUnit) (catalog : Catalog) (method : MethodDecl Site)
    (key : String) (use : Expr Site) : Option Definitions :=
  DefinitionSearch.run ⟨loaded, catalog, key, use.label.number, true⟩ method

end LoadedUnit

end BugPatterns
