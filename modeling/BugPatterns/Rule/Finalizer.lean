import BugPatterns.Check.Basic

/-!
# Fields nulled by finalizers

An object that is being finalized is about to go away, so nothing is gained by clearing its fields
in `finalize`. Classes declared inside the method are not looked into.
-/

namespace BugPatterns.Rule

/-- The expression is bound to a symbol that a type owns. -/
def isOwnedByType (loaded : LoadedUnit) (target : Expr Site) : Bool :=
  ((loaded.symbolOf target).bind loaded.model.owner).any loaded.model.isTypeSymbol

/-- The name of the field that is assigned to, written as `name` or as `this.name`. -/
def assignedField? (loaded : LoadedUnit) (target : Expr Site) : Option String :=
  let name := match target with
    | .ident _ name _ _ => some name
    | .select _ qualifier name _ _ => if qualifier.isThis then some name else none
    | _ => none
  name.filter fun _ => isOwnedByType loaded target

/-- The report on an expression that sets a field to `null`. -/
def nullification? (loaded : LoadedUnit) (e : Expr Site) : Option Report :=
  match e with
  | .assign _ .assign target value _ =>
      if value.isNullLiteral then
        (assignedField? loaded target).map fun name =>
          .about (.expr e) ("Remove this nullification of \"" ++ name ++ "\".")
      else none
  | _ => none

/-- Finalizers should not clear fields. -/
def finalizerNulling : Check where
  key := "S2165"
  title := "\"finalize\" should not set fields to \"null\""
  severity := .major
  tags := ["clumsy", "performance"]
  kinds := [.method]
  visit here
    | node@(.method method) =>
        if method.name = "finalize" && method.params.isEmpty then
          .ofReports (node.ownExprs.filterMap (nullification? here.loaded))
        else .nothing
    | _ => .nothing

end BugPatterns.Rule
