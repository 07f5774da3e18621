import BugPatterns.Model.Load
import Mathlib.Logic.Relation

/-!
# How models grow

A model grows by single operations (`Model.Grows`), and every model that a description is loaded
into has grown from the prelude (`Model.prelude_grows_of_load`). What each operation preserves
therefore holds of every loaded model.

The look-up of symbols is such a property (`Model.KeysAgree`): an entry of the look-up list points
to a symbol that carries the key of the entry.
-/

namespace BugPatterns.Model

/-- One operation makes a larger model out of a model. It is the symbol of a type that is nested.
    The last two fill in what a description says of a symbol and touch neither its key nor its place
    among the others. -/
inductive Grows : Model → Model → Prop where
  | intern (model : Model) (name : String) : Grows model (model.intern name).2
  | define (model : Model) (name : String) (tag : TypeTag) :
      Grows model (model.define name tag).2
  | setSuperclass (model : Model) (id : TypeId) (superclass : Option TypeId) :
      Grows model (model.setSuperclass id superclass)
  | addInterface (model : Model) (id interface : TypeId) :
      Grows model (model.addInterface id interface)
  | nest {model : Model} {type : TypeId} {nested : SymbolId}
      (own : (model.type type).symbol = some nested) (outer : SymbolId) :
      Grows model (model.nest nested outer)
  | declare {model grown : Model} {key name : String} {kind : SymbolKind}
      {owner : Option SymbolId} {id : SymbolId}
      (declared : model.declare key name kind owner = .ok (id, grown)) : Grows model grown
  | addParam (model : Model) (method param : SymbolId) : Grows model (model.addParam method param)
  | amend (model : Model) (id : SymbolId) (type : Option TypeId) (isStatic isFinal : Bool)
      (constant : Option String) :
      Grows model (model.modifySymbol id fun info =>
        { info with type := type, isStatic := isStatic, isFinal := isFinal, constant := constant })
  | amendType (model : Model) (id : SymbolId) (type : Option TypeId) :
      Grows model (model.modifySymbol id fun info => { info with type := type })

/-- Any number of operations. -/
abbrev GrowsTo : Model → Model → Prop := Relation.ReflTransGen Grows

theorem growsTo_foldl {α : Type} {f : Model → α → Model}
    (step : ∀ model a, GrowsTo model (f model a)) (items : List α) :
    ∀ model, GrowsTo model (items.foldl f model) := by
  induction items with
  | nil => exact fun _ => .refl
  | cons a items ih => exact fun model => (step model a).trans (ih _)

theorem growsTo_foldlM {α ε : Type} {f : Model → α → Except ε Model}
    (step : ∀ {model a grown}, f model a = .ok grown → GrowsTo model grown) (items : List α) :
    ∀ {model grown}, items.foldlM f model = .ok grown → GrowsTo model grown := by
  induction items with
  | nil =>
      intro model grown folded
      cases folded
      exact .refl
  | cons a items ih =>
      intro model grown folded
      rw [List.foldlM_cons] at folded
      cases first : f model a with
      | error cause => rw [first] at folded; cases folded
      | ok next =>
          rw [first] at folded
          exact (step first).trans (ih folded)

theorem growsTo_defineTypes (entries : List TypeEntry) :
    ∀ {model grown : Model} {seen : List String},
      model.defineTypes seen entries = .ok grown → GrowsTo model grown := by
  induction entries with
  | nil =>
      intro model grown seen defined
      cases defined
      exact .refl
  | cons entry entries ih =>
      intro model grown seen defined
      unfold defineTypes at defined
      split at defined
      · cases defined
      · split at defined
        · cases defined
        · exact .head (.define model entry.name _) (ih defined)

theorem growsTo_linkSuperclass (model : Model) (id : TypeId) (entry : TypeEntry) :
    GrowsTo model (model.linkSuperclass id entry) := by
  unfold linkSuperclass
  split
  · exact .single (.setSuperclass ..)
  · exact .tail (.single (.intern ..)) (.setSuperclass ..)

theorem growsTo_linkOwner {model grown : Model} {declared : List String} {id : TypeId}
    {entry : TypeEntry} (linked : model.linkOwner declared id entry = .ok grown) :
    GrowsTo model grown := by
  unfold linkOwner at linked
  split at linked
  · cases linked
    exact .refl
  · simp only at linked
    split at linked
    · cases linked
    · next own =>
        cases linked
        exact .single (.nest own _)
    · cases linked
      exact .refl

theorem growsTo_linkType {declared : List String} {model grown : Model} {entry : TypeEntry}
    (linked : linkType declared model entry = .ok grown) : GrowsTo model grown := by
  have interned : GrowsTo model (model.intern entry.name).2 := .single (.intern ..)
  have interfaces := fun start => growsTo_foldl
    (fun model name => .tail (.single (.intern model name)) (.addInterface ..))
    entry.interfaces (f := linkInterface (model.intern entry.name).1) start
  exact ((interned.trans (growsTo_linkSuperclass ..)).trans (interfaces _)).trans
    (growsTo_linkOwner linked)

theorem growsTo_internOption (model : Model) (name : Option String) :
    GrowsTo model (model.internOption name).2 := by
  cases name with
  | none => exact .refl
  | some name => exact .single (.intern ..)

theorem growsTo_declareVariable {entry : TypeEntry} {member : MemberEntry} {method : SymbolId}
    {isParam : Bool} {model grown : Model} {var : VariableEntry}
    (declared : declareVariable entry member method isParam model var = .ok grown) :
    GrowsTo model grown := by
  unfold declareVariable at declared
  cases first : model.declare (variableKey entry member var) var.name .variable (some method) with
  | error cause => rw [first] at declared; cases declared
  | ok result =>
      obtain ⟨id, next⟩ := result
      rw [first] at declared
      have typed := (Relation.ReflTransGen.single (Grows.declare first)).trans
        ((growsTo_internOption next var.type).tail
          (.amendType _ id (next.internOption var.type).1))
      cases isParam with
      | true =>
          cases declared
          exact typed.tail (.addParam ..)
      | false =>
          cases declared
          exact typed

theorem growsTo_declareMember {entry : TypeEntry} {owner : SymbolId} {model grown : Model}
    {member : MemberEntry} (declared : declareMember entry owner model member = .ok grown) :
    GrowsTo model grown := by
  unfold declareMember at declared
  cases first : model.declare (memberKey entry member) member.name
      (memberSymbolKind member.kind) (some owner) with
  | error cause => rw [first] at declared; cases declared
  | ok result =>
      obtain ⟨id, next⟩ := result
      rw [first] at declared
      have amended := (Relation.ReflTransGen.single (Grows.declare first)).trans
        ((growsTo_internOption next member.type).tail
          (.amend _ id (next.internOption member.type).1 member.isStatic member.isFinal
            member.constant))
      simp only [bind, Except.bind] at declared
      split at declared
      · cases declared
      · next params heq =>
          exact (amended.trans (growsTo_foldlM growsTo_declareVariable _ heq)).trans
            (growsTo_foldlM growsTo_declareVariable _ declared)

theorem growsTo_declareMembers {model grown : Model} {entry : TypeEntry}
    (declared : declareMembers model entry = .ok grown) : GrowsTo model grown := by
  have interned : GrowsTo model (model.intern entry.name).2 := .single (.intern ..)
  unfold declareMembers at declared
  simp only at declared
  split at declared
  · cases declared
    exact interned
  · exact interned.trans (growsTo_foldlM growsTo_declareMember _ declared)

/-- The model of a description has grown from the prelude. -/
theorem prelude_grows_of_load {document : ModelDocument} {model : Model}
    (loaded : load document = .ok model) : GrowsTo prelude model := by
  unfold load at loaded
  simp only [bind, Except.bind] at loaded
  split at loaded
  · cases loaded
  · next defined hdefined =>
      split at loaded
      · cases loaded
      · next linked hlinked =>
          exact ((growsTo_defineTypes _ hdefined).trans
            (growsTo_foldlM growsTo_linkType _ hlinked)).trans
              (growsTo_foldlM growsTo_declareMembers _ loaded)

end BugPatterns.Model
