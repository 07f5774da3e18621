import BugPatterns.Check.Basic

/-!
# Objects compared by identity

Two objects compared by `==` or `!=` are the same only if they are one object; mostly their
contents are meant. The method `equals` itself has to compare by identity and is left alone, and so
is every comparison in which the type of an operand is not known.
-/

namespace BugPatterns.Rule

/-- The type is given by name as the root class, or is not known. -/
def mayBeObject (model : Model) : Option String → Bool
  | none => true
  | some name => name = objectName || ((model.type? name).map model.isUnknown).getD true

/-- The method is `equals` with one parameter that may be of the root class. -/
def isEqualsMethod (model : Model) (method : MethodDecl Site) : Bool :=
  match method.params with
  | [param] => method.name = "equals" && mayBeObject model param.type
  | _ => false

/-- Values of the type are rightly compared by identity. -/
def comparedByIdentity (model : Model) (type : TypeId) : Bool :=
  model.isNullType type || model.isNumeric type ||
    model.isNamed (model.erasure type) className || model.isEnum type

/-- Values of the type are objects with contents. -/
def isObject (model : Model) (type : TypeId) : Bool :=
  model.isClassLike type && !model.isEnum type

/-- A comparison of two operands is reported. -/
def confusesIdentity (here : Surroundings) (lhs rhs : Expr Site) : Bool :=
  !here.enclosingMethods.any (isEqualsMethod here.model) &&
    !lhs.isNullLiteral && !rhs.isNullLiteral &&
    match here.loaded.typeOf lhs, here.loaded.typeOf rhs with
    | some left, some right =>
        !comparedByIdentity here.model left && !comparedByIdentity here.model right &&
          (isObject here.model left || isObject here.model right)
    | _, _ => false

/-- Objects should be compared by their contents. -/
def objectEquality : Check where
  key := "S1698"
  title := "Objects should be compared with \"equals()\""
  severity := .major
  tags := ["cert", "cwe"]
  kinds := [.equalTo, .notEqualTo]
  visit here
    | node@(.expr (.binary _ _ lhs rhs _)) =>
        if confusesIdentity here lhs rhs then
          .ofReports [.about node "Change this comparison to use the equals method."]
        else .nothing
    | _ => .nothing

end BugPatterns.Rule
