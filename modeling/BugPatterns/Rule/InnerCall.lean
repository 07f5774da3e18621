import BugPatterns.Check.Basic

/-!
# Inherited methods that look like outer ones

Inside an inner class an unqualified call may name a method that the class inherits, while the
class around it has a member of the same name. The inherited method is called, although a reader
may take it for the outer one. Classes nested in the inner class are looked into on their own.
-/

namespace BugPatterns.Rule

/-- An inner class: the type it declares, the symbol of the class around it, and the type that one
    declares. -/
structure InnerClass where
  type : TypeId
  outer : SymbolId
  outerType : TypeId
  deriving DecidableEq, Repr

/-- A type declaration as an inner class. One that extends the class around it is none, as both
    readings of a call then mean the same. -/
def innerClass? (loaded : LoadedUnit) (decl : ClassDecl Site) : Option InnerClass := do
  let model := loaded.model
  let symbol ← loaded.classSymbol decl
  let outer ← (model.owner symbol).filter model.isTypeSymbol
  let type ← model.declaredType symbol
  let outerType ← model.declaredType outer
  if (model.superclass type).any fun superclass => model.erasure superclass = outerType then none
  else some ⟨type, outer, outerType⟩

/-- An unqualified call of the method in the inner class may be taken for an outer one: the inner
    class inherits the method, neither of the two declares it, and the class around has a member of
    its name. -/
def isAmbiguous (model : Model) (inner : InnerClass) (method : SymbolId) : Bool :=
  model.isMethodSymbol method &&
    match (model.enclosingType method).bind model.declaredType with
    | none => false
    | some declaring =>
        !(model.symbol method).isStatic && model.isSubtype inner.type declaring &&
          declaring ≠ inner.outerType && declaring ≠ inner.type &&
          !(model.membersNamed inner.outer (model.symbol method).name).isEmpty

/-- The report on an expression that is an ambiguous call in an inner class. -/
def ambiguousCall? (loaded : LoadedUnit) (inner : InnerClass) (e : Expr Site) : Option Report :=
  match e with
  | .call _ (.ident _ name _ _) _ _ _ =>
      if (loaded.symbolOf e).any (isAmbiguous loaded.model inner) then
        some (.about (.expr e) ("Prefix this call to \"" ++ name ++ "\" with \"super.\"."))
      else none
  | _ => none

/-- Calls of inherited methods in inner classes should be qualified. -/
def innerClassCalls : Check where
  key := "S2388"
  title := "Inner class calls to super class methods should be unambiguous"
  severity := .major
  tags := ["pitfall"]
  kinds := [.ordinaryClass, .interface]
  visit here
    | node@(.classDecl decl) =>
        match innerClass? here.loaded decl with
        | none => .nothing
        | some inner => .ofReports (node.ownExprs.filterMap (ambiguousCall? here.loaded inner))
    | _ => .nothing

end BugPatterns.Rule
