import BugPatterns.Model.Query

/-!
# Known calls

A catalog lists the methods that run queries, called sinks, the calls whose effect on a value is
known, and the classes whose constructors build a value from their arguments. Each list keeps the
order in which its entries were added, and the first entry that applies to a call counts.
-/

namespace BugPatterns

/-- What a known call does to the value that flows through it. -/
inductive Effect where
  /-- The result never carries outside input. -/
  | safe
  /-- The result is assembled from the receiver and the arguments. -/
  | propagate
  /-- The arguments are added to the receiver, which is the result. -/
  | mutate
  deriving DecidableEq, Repr

instance : Keyword Effect where
  all := [.safe, .propagate, .mutate]
  word
    | .safe => "safe"
    | .propagate => "propagate"
    | .mutate => "mutate"

/-- A method that runs a query. `remediation` is the advice given instead of the usual one. -/
structure Sink where
  owner : String
  method : String
  remediation : Option String
  deriving DecidableEq, Repr

/-- A call whose effect is known. -/
structure KnownCall where
  owner : String
  method : String
  effect : Effect
  deriving DecidableEq, Repr

/-- Sinks, known calls, and classes whose constructors propagate. -/
structure Catalog where
  sinks : List Sink
  calls : List KnownCall
  constructors : List String
  deriving DecidableEq, Repr

namespace Catalog

/-- No entries. -/
def empty : Catalog := ⟨[], [], []⟩

/-- The type, when erased, has that name or implements an interface of that name. -/
def typeMatches (model : Model) (type : TypeId) (name : String) : Bool :=
  let raw := model.erasure type
  model.isNamed raw name || model.implementsInterface raw name

/-- Known calls are inherited from superclasses too, where the model knows their owner. -/
def ownerMatches (model : Model) (type : TypeId) (name : String) : Bool :=
  typeMatches model type name || (model.type? name).any fun owner => model.isSubtype type owner

/-- The sink that a call of `method` on a value of type `receiver` reaches. -/
def sink? (catalog : Catalog) (model : Model) (receiver : TypeId) (method : String) :
    Option Sink :=
  catalog.sinks.find? fun sink => sink.method = method && typeMatches model receiver sink.owner

/-- The known call of `method` on a value of type `type`. -/
def call? (catalog : Catalog) (model : Model) (method : String) (type : TypeId) :
    Option KnownCall :=
  catalog.calls.find? fun call => call.method = method && ownerMatches model type call.owner

/-- The effect of calling `method`, looked up through each of the candidate types in turn. -/
def effect? (catalog : Catalog) (model : Model) (candidates : List TypeId) (method : String) :
    Option Effect :=
  (candidates.findSome? (catalog.call? model method)).map (·.effect)

/-- A new object of the type is built from the arguments of its constructor. -/
def constructs (catalog : Catalog) (model : Model) (type : TypeId) : Bool :=
  catalog.constructors.contains (model.type (model.erasure type)).name

/-- How many sinks there are. -/
def sinkCount (catalog : Catalog) : Nat := catalog.sinks.length

end Catalog

end BugPatterns
