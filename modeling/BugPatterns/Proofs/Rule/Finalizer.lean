import BugPatterns.Proofs.Check.Regional
import BugPatterns.Proofs.Engine.Selection

/-!
# Nulled fields, one by one

What it means that an assignment nulls a field, and that an expression is directly in a finalizer,
is said without the check (`Rule.Nulls`, `LoadedUnit.DirectlyIn`). The check is shown the methods,
and looks through each finalizer without entering type declarations. A method stands in a type
declaration only, so what the check looks through is what has the method as the closest declaration
around it, and no two finalizers share an assignment, however they are nested
(`Rule.finalizerNulling_reports_once`).
-/

namespace BugPatterns

/-- The method is the closest declaration of a type or method around an expression. -/
def LoadedUnit.DirectlyIn (loaded : LoadedUnit) (x : Expr Site) (method : MethodDecl Site) : Prop :=
  ∃ above, (above, .expr x) ∈ loaded.lineages ∧
    above.findSome? Scope.ofNode? = some (.method method)

/-- The method is one without parameters that is named as finalizers are. -/
def MethodDecl.IsFinalizer {α : Type} (method : MethodDecl α) : Prop :=
  method.name = "finalize" ∧ method.params = []

instance {α : Type} (method : MethodDecl α) : Decidable method.IsFinalizer :=
  decidable_of_iff (method.name = "finalize" ∧ method.params.isEmpty = true)
    (and_congr_right fun _ => List.isEmpty_iff)

namespace Rule

/-- An expression names something plainly, or as a part of `this`. -/
inductive OwnName : Expr Site → String → Prop where
  | plain (label : Site) (name : String) (symbol type : Option String) :
      OwnName (.ident label name symbol type) name
  | ofThis (label thisLabel : Site) (name : String)
      (thisSymbol thisType symbol type : Option String) :
      OwnName (.select label (.ident thisLabel "this" thisSymbol thisType) name symbol type) name

/-- A plain assignment of the literal `null` to what is named as one's own and bound to a symbol
    that a type symbol owns. -/
inductive Nulls (loaded : LoadedUnit) : Expr Site → String → Prop where
  | assign {label nullLabel : Site} {target : Expr Site} {nullText name : String}
      {nullType type : Option String} {symbol owner : SymbolId} (named : OwnName target name)
      (bound : loaded.symbolOf target = some symbol)
      (owned : loaded.model.owner symbol = some owner)
      (byType : loaded.model.isTypeSymbol owner = true) :
      Nulls loaded (.assign label .assign target (.literal nullLabel .null nullText nullType) type)
        name

section Nulled

variable {loaded : LoadedUnit}

/-- The name under which an expression sets a field to `null`. -/
def nulledField? (loaded : LoadedUnit) : Expr Site → Option String
  | .assign _ .assign target value _ =>
      if value.isNullLiteral then assignedField? loaded target else none
  | _ => none

theorem isOwnedByType_iff {target : Expr Site} :
    isOwnedByType loaded target = true ↔ ∃ symbol owner, loaded.symbolOf target = some symbol ∧
      loaded.model.owner symbol = some owner ∧ loaded.model.isTypeSymbol owner = true := by
  simp only [isOwnedByType, Option.any_eq_true, Option.bind_eq_some_iff]
  constructor
  · rintro ⟨owner, ⟨symbol, bound, owned⟩, byType⟩
    exact ⟨symbol, owner, bound, owned, byType⟩
  · rintro ⟨symbol, owner, bound, owned, byType⟩
    exact ⟨owner, ⟨symbol, bound, owned⟩, byType⟩

theorem isThis_iff {α : Type} {e : Expr α} :
    e.isThis = true ↔ ∃ label symbol type, e = .ident label "this" symbol type := by
  cases e <;> simp [Expr.isThis]

theorem isNullLiteral_iff {α : Type} {e : Expr α} :
    e.isNullLiteral = true ↔ ∃ label text type, e = .literal label .null text type := by
  cases e with
  | literal label kind text type => cases kind <;> simp [Expr.isNullLiteral]
  | _ => simp [Expr.isNullLiteral]

theorem assignedField?_eq_some_iff {target : Expr Site} {name : String} :
    assignedField? loaded target = some name ↔
      OwnName target name ∧ isOwnedByType loaded target = true := by
  unfold assignedField?
  rw [Option.filter_eq_some_iff]
  refine and_congr_left fun _ => ?_
  constructor
  · intro found
    split at found
    · cases found
      exact .plain ..
    · split at found
      · next isThis =>
          cases found
          obtain ⟨label, symbol, type, rfl⟩ := isThis_iff.mp isThis
          exact .ofThis ..
      · cases found
    · cases found
  · rintro (_ | _) <;> rfl

theorem nulledField?_eq_some_iff {e : Expr Site} {name : String} :
    nulledField? loaded e = some name ↔ Nulls loaded e name := by
  constructor
  · intro found
    unfold nulledField? at found
    split at found
    · split at found
      · next isNull =>
          obtain ⟨label, text, type, rfl⟩ := isNullLiteral_iff.mp isNull
          obtain ⟨named, owned⟩ := assignedField?_eq_some_iff.mp found
          obtain ⟨symbol, owner, bound, owned, byType⟩ := isOwnedByType_iff.mp owned
          exact .assign named bound owned byType
      · cases found
    · cases found
  · rintro ⟨named, bound, owned, byType⟩
    have owner := isOwnedByType_iff.mpr ⟨_, _, bound, owned, byType⟩
    exact assignedField?_eq_some_iff.mpr ⟨named, owner⟩

/-- The report on an assignment that nulls a field. -/
def nullingReport (nulling : Expr Site × String) : Report :=
  .about (.expr nulling.1) ("Remove this nullification of \"" ++ nulling.2 ++ "\".")

theorem nullification?_eq (e : Expr Site) : nullification? loaded e =
    (nulledField? loaded e).map fun name => nullingReport (e, name) := by
  cases e with
  | assign label op target value type =>
      cases op with
      | assign =>
          simp only [nullification?, nulledField?]
          cases value.isNullLiteral <;> rfl
      | _ => rfl
  | _ => rfl

/-- The node with the field that it nulls, if it does and the declaration it is in is a
    finalizer. -/
def nulledAt (loaded : LoadedUnit) : Scope → Node Site → List (Expr Site × String)
  | .method method, .expr e =>
      if method.IsFinalizer then ((nulledField? loaded e).map (e, ·)).toList else []
  | _, _ => []

theorem mem_nulledAt {scope : Scope} {n : Node Site} {e : Expr Site} {name : String} :
    (e, name) ∈ nulledAt loaded scope n ↔
      (∃ method, scope = .method method ∧ method.IsFinalizer) ∧ n = .expr e ∧
        Nulls loaded e name := by
  rw [← nulledField?_eq_some_iff]
  cases scope with
  | classDecl decl => simp [nulledAt]
  | method method =>
      cases n with
      | expr x =>
          by_cases finalizer : method.IsFinalizer
          · rw [nulledAt, if_pos finalizer, Option.mem_toList, Option.map_eq_some_iff]
            constructor
            · rintro ⟨_, found, same⟩
              obtain ⟨rfl, rfl⟩ := Prod.mk.inj same
              exact ⟨⟨method, rfl, finalizer⟩, rfl, found⟩
            · rintro ⟨-, same, found⟩
              obtain rfl := Node.expr.inj same
              exact ⟨name, found, rfl⟩
          · simp [nulledAt, finalizer]
      | _ => simp [nulledAt]

theorem nodup_nulledAt (scope : Scope) (n : Node Site) :
    ((nulledAt loaded scope n).map Prod.fst).Nodup := by
  unfold nulledAt
  split
  · split
    · cases nulledField? loaded _ with
      | none => exact .nil
      | some name => exact List.nodup_singleton _
    · exact .nil
  · exact .nil

theorem nulledAt_placed (scope : Scope) (n : Node Site) :
    ∀ nulling ∈ nulledAt loaded scope n, n = .expr nulling.1 :=
  fun _ member => (mem_nulledAt.mp member).2.1

theorem flatMap_nulledAt {method : MethodDecl Site} (finalizer : method.IsFinalizer)
    (nodes : List (Node Site)) : (nodes.flatMap (nulledAt loaded (.method method))).map
      nullingReport = (nodes.filterMap Node.expr?).filterMap (nullification? loaded) := by
  induction nodes with
  | nil => rfl
  | cons n nodes ih =>
      rw [List.flatMap_cons, List.map_append, ih, List.filterMap_cons]
      cases n with
      | expr e =>
          simp only [Node.expr?, List.filterMap_cons, nullification?_eq, nulledAt,
            if_pos finalizer]
          cases nulledField? loaded e <;> rfl
      | _ => rfl

end Nulled

end Rule

namespace Node

/-- Below an inner node methods are met in type declarations only. -/
theorem within_scope_of_isInner {n : Node Site} (inner : n.isInner) :
    n.tree.within (fun m => (Scope.ofNode? m).isNone) = n.ownNodes := by
  induction n using Node.induct with
  | node n ih =>
      have same : n.children.filter (fun c => (Scope.ofNode? c).isNone) =
          n.children.filter fun c => !c.isClassDecl := by
        refine List.filter_congr fun c child => ?_
        cases entered : c.isClassDecl with
        | true => cases c <;> first | rfl | cases entered
        | false => rw [Scope.ofNode?_of_isInner (isInner_of_child inner child entered)]; rfl
      rw [within_tree, ownNodes_eq, same]
      refine congrArg _ (List.flatMap_congr fun c member => ?_)
      obtain ⟨child, entered⟩ := List.mem_filter.mp member
      exact ih c child (isInner_of_child inner child (Bool.not_eq_true' _ ▸ entered))

theorem isInner_of_child_method {method : MethodDecl Site} {c : Node Site}
    (child : c ∈ (Node.method method).children) : c.isInner := by
  rcases List.mem_append.mp child with param | body
  · obtain ⟨decl, -, rfl⟩ := List.mem_map.mp param
    rfl
  · rw [Option.toList_map] at body
    obtain ⟨block, -, rfl⟩ := List.mem_map.mp body
    rfl

theorem within_scope_method (method : MethodDecl Site) :
    (Node.method method).tree.within (fun m => (Scope.ofNode? m).isNone) =
      (Node.method method).ownNodes := by
  have all (p : Node Site → Bool) (holds : ∀ c : Node Site, c.isInner → p c = true) :
      (Node.method method).children.filter p = (Node.method method).children :=
    List.filter_eq_self.mpr fun c child => holds c (isInner_of_child_method child)
  rw [within_tree, ownNodes_eq, all _ fun c inner => ?_, all _ fun c inner => ?_]
  · exact congrArg _ (List.flatMap_congr fun c child =>
      within_scope_of_isInner (isInner_of_child_method child))
  · cases c <;> first | rfl | cases inner
  · rw [Scope.ofNode?_of_isInner inner]
    rfl

end Node

namespace Rule

variable {loaded : LoadedUnit}

/-- Shown a method, the check reports the nulled fields of its region. -/
theorem readsRegions_finalizerNulling (loaded : LoadedUnit) :
    finalizerNulling.ReadsRegions Scope.ofNode? (nulledAt loaded) loaded nullingReport := by
  rintro here rfl n
  cases n with
  | method method =>
      have region : (Node.method method).readMarked Scope.ofNode? (nulledAt here.loaded) =
          (Node.method method).ownNodes.flatMap (nulledAt here.loaded (.method method)) := by
        rw [← Node.within_scope_method]
        exact List.flatMap_singleton ..
      have shown : (Node.method method).kind ∈ finalizerNulling.kinds := List.mem_singleton.mpr rfl
      rw [region, if_pos shown]
      simp only [finalizerNulling]
      by_cases finalizer : method.IsFinalizer
      · have named : (method.name = "finalize" && method.params.isEmpty) = true := by
          simp [finalizer.1, finalizer.2]
        rw [if_pos named, flatMap_nulledAt finalizer]
        rfl
      · have other : ¬ (method.name = "finalize" && method.params.isEmpty) = true := by
          simpa [MethodDecl.IsFinalizer] using finalizer
        have nothing : (Node.method method).ownNodes.flatMap
            (nulledAt here.loaded (.method method)) = [] := by
          refine List.flatMap_eq_nil_iff.mpr fun n _ => List.eq_nil_iff_forall_not_mem.mpr ?_
          rintro ⟨e, name⟩ member
          obtain ⟨_, same, isFinalizer⟩ := (mem_nulledAt.mp member).1
          exact finalizer (Scope.method.inj same ▸ isFinalizer)
        rw [if_neg other, nothing]
        rfl
  | classDecl decl =>
      have unread (n : Node Site) : nulledAt here.loaded (.classDecl decl) n = [] := by
        cases n <;> rfl
      have nothing : (Node.classDecl decl).readMarked Scope.ofNode? (nulledAt here.loaded) = [] :=
        List.flatMap_eq_nil_iff.mpr fun scope marked => by
          obtain rfl := Option.some.inj (Option.mem_toList.mp marked)
          exact List.flatMap_eq_nil_iff.mpr fun n _ => unread n
      rw [nothing]
      exact ite_self _
  | _ => exact ite_self _

/-- The expressions that have a method as the closest declaration around them are those that lie in
    it and in no type declaration in it. -/
theorem directlyIn_iff {x : Expr Site} {method : MethodDecl Site} :
    loaded.DirectlyIn x method ↔
      .method method ∈ loaded.nodes ∧ .expr x ∈ (Node.method method).ownNodes := by
  unfold LoadedUnit.DirectlyIn
  rw [LoadedUnit.nearest_iff rfl, ← Node.within_scope_method]
  constructor
  · rintro ⟨root, listed, marked, own⟩
    cases root with
    | method decl =>
        obtain rfl := Scope.method.inj (Option.some.inj marked)
        exact ⟨listed, own⟩
    | _ => cases marked
  · rintro ⟨listed, own⟩
    exact ⟨_, listed, rfl, own⟩

/-- What the region of a node holds are the nulled fields that lie in a finalizer and in no type
    declaration in it. -/
theorem mem_readMarked_nulledAt {n : Node Site} {e : Expr Site} {name : String} :
    (e, name) ∈ n.readMarked Scope.ofNode? (nulledAt loaded) ↔
      ∃ method, n = .method method ∧ method.IsFinalizer ∧
        .expr e ∈ (Node.method method).ownNodes ∧ Nulls loaded e name := by
  simp only [Node.readMarked, Node.readRegion, List.mem_flatMap, Option.mem_toList, mem_nulledAt]
  constructor
  · rintro ⟨_, marked, _, own, ⟨method, rfl, finalizer⟩, rfl, nulls⟩
    cases n with
    | method decl =>
        obtain rfl := Scope.method.inj (Option.some.inj marked)
        exact ⟨decl, rfl, finalizer, Node.within_scope_method decl ▸ own, nulls⟩
    | _ => cases marked
  · rintro ⟨method, rfl, finalizer, own, nulls⟩
    exact ⟨.method method, rfl, .expr e, Node.within_scope_method method ▸ own,
      ⟨method, rfl, finalizer⟩, rfl, nulls⟩

/-- A report on a nulled field as it comes up in a pass. -/
def nullingFinding (loaded : LoadedUnit) (nulling : Expr Site × String) : Diagnostic where
  rule := "S2165"
  severity := .major
  file := loaded.file
  span := nulling.1.label.span
  kind := nulling.1.kind
  message := "Remove this nullification of \"" ++ nulling.2 ++ "\"."

theorem silent_nulledAt (scope : Scope) (n : Node Site) (marked : (Scope.ofNode? n).isSome) :
    nulledAt loaded scope n = [] := by
  cases n with
  | method _ => cases scope <;> rfl
  | classDecl _ => cases scope <;> rfl
  | _ => cases marked

/-- Each assignment that nulls a field directly in a finalizer is reported once, with its span and
    the name of the field. What a finalizer is reported for lies in no type declaration in it: an
    assignment in such a one counts where it is directly in a finalizer itself. -/
theorem finalizerNulling_reports_once {document : UnitDocument} {loaded : LoadedUnit}
    (made : LoadedUnit.ofDocument document = .ok loaded) {checks : List Check}
    {registry : Registry} (registered : Registry.ofChecks checks = .ok registry)
    (listed : finalizerNulling ∈ checks) (catalog : Catalog) (maxDepth : Nat) :
    ∃ nullings : List (Expr Site × String), (nullings.map Prod.fst).Nodup ∧
      (∀ e name, (e, name) ∈ nullings ↔
        (∃ method, loaded.DirectlyIn e method ∧ method.IsFinalizer) ∧ Nulls loaded e name) ∧
      ((registry.run loaded catalog maxDepth).diagnostics.filter
        (fun found => found.rule = "S2165")).Perm (nullings.map (nullingFinding loaded)) ∧
      ∀ showing ∈ registry.showings loaded catalog maxDepth, showing.check.key = "S2165" →
        ∃ own : List (Expr Site × String),
          showing.answer.reports = own.map nullingReport ∧ (own.map Prod.fst).Nodup ∧
          ∀ e name, (e, name) ∈ own ↔ ∃ method, showing.node = .method method ∧
            method.IsFinalizer ∧ loaded.DirectlyIn e method ∧ Nulls loaded e name := by
  have coherent := LoadedUnit.coherent_ofDocument made
  have whole := Registry.madeOf_of_ofChecks registered
  have reads := readsRegions_finalizerNulling loaded
  refine ⟨loaded.readPlaced Scope.ofNode? (nulledAt loaded),
    LoadedUnit.nodup_readPlaced coherent nodup_nulledAt nulledAt_placed, fun e name => ?_,
    Registry.perm_findings whole listed reads catalog maxDepth silent_nulledAt,
    fun showing shown key => ?_⟩
  · rw [LoadedUnit.mem_readPlaced]
    constructor
    · rintro ⟨above, n, scope, placed, nearest, member⟩
      obtain ⟨⟨method, rfl, finalizer⟩, rfl, nulls⟩ := mem_nulledAt.mp member
      exact ⟨⟨method, ⟨above, placed, nearest⟩, finalizer⟩, nulls⟩
    · rintro ⟨⟨method, ⟨above, placed, nearest⟩, finalizer⟩, nulls⟩
      exact ⟨above, .expr e, .method method, placed, nearest,
        mem_nulledAt.mpr ⟨⟨method, rfl, finalizer⟩, rfl, nulls⟩⟩
  · obtain ⟨member, reports⟩ :=
      Registry.reports_of_showing whole listed reads catalog maxDepth shown key
    refine ⟨_, reports, Node.nodup_readMarked coherent nodup_nulledAt nulledAt_placed member,
      fun e name => ?_⟩
    rw [mem_readMarked_nulledAt]
    refine exists_congr fun method => and_congr_right fun isMethod => ?_
    rw [isMethod] at member
    rw [directlyIn_iff]
    exact and_congr_right fun _ => ⟨fun ⟨own, nulls⟩ => ⟨⟨member, own⟩, nulls⟩,
      fun ⟨⟨_, own⟩, nulls⟩ => ⟨own, nulls⟩⟩

/-- A finalizer that nulls a field and creates an object of an anonymous class with a finalizer and
    another method, each of which nulls the field too. -/
def finalizerInFinalizer : UnitDocument :=
  let nulling (line : UInt32) : Stmt Span := .expression .unknown
    (.assign (.point line 7) .assign
      (.select .unknown (.ident .unknown "this" none none) "conn" (some "p.Res#conn") none)
      (.literal .unknown .null "null" none) none)
  let method (name : String) (body : List (Stmt Span)) : Member Span :=
    .method ⟨.unknown, name, none, [], some ⟨.unknown, body⟩⟩
  let nameless : ClassDecl Span := ⟨.unknown, .ordinary, none, none,
    [method "close" [nulling 6], method "finalize" [nulling 7]]⟩
  { model := ⟨[⟨"p.Res", .ordinary, none, [], none,
      [⟨"conn", none, .field, false, false, none, none, [], []⟩]⟩]⟩
    tree := ⟨"Res.java", none, [⟨.unknown, .ordinary, some "Res", some "p.Res",
      [method "finalize" [nulling 5, .expression .unknown
        (.creation .unknown [] (some nameless) none none)]]⟩]⟩ }

/-- Both finalizers are reported for what is directly in them, the other method is not. -/
theorem finalizerNulling_reports_once_nested : ∃ loaded registry,
    ∃ nullings : List (Expr Site × String),
      LoadedUnit.ofDocument finalizerInFinalizer = .ok loaded ∧
        Registry.ofChecks [finalizerNulling] = .ok registry ∧
        (∀ e name, (e, name) ∈ nullings ↔
          (∃ method, loaded.DirectlyIn e method ∧ method.IsFinalizer) ∧ Nulls loaded e name) ∧
        (nullings.map (·.1.label.span.line)).Perm [5, 7] := by
  have evaluated : ((Registry.ofChecks [finalizerNulling]).toOption.bind fun registry =>
      (LoadedUnit.ofDocument finalizerInFinalizer).toOption.map fun loaded => decide
        (((registry.run loaded .empty 5).diagnostics.filter fun found =>
          found.rule = "S2165").map (·.span.line) = [5, 7])) = some true := by
    decide +kernel
  cases registered : Registry.ofChecks [finalizerNulling] with
  | error cause => rw [registered] at evaluated; cases evaluated
  | ok registry =>
      cases made : LoadedUnit.ofDocument finalizerInFinalizer with
      | error cause => rw [registered, made] at evaluated; cases evaluated
      | ok loaded =>
          rw [registered, made] at evaluated
          have lines := of_decide_eq_true (Option.some.inj evaluated)
          obtain ⟨nullings, -, characterized, found, -⟩ :=
            finalizerNulling_reports_once made registered List.mem_cons_self .empty 5
          refine ⟨loaded, registry, nullings, rfl, rfl, characterized, ?_⟩
          have same := found.map (·.span.line)
          rw [lines, List.map_map] at same
          exact same.symm

end Rule

end BugPatterns
