import BugPatterns.Proofs.Check.Regional
import BugPatterns.Proofs.Engine.Selection

/-!
# Ambiguous calls, one by one

When it is an inner class that a call of an inherited method is ambiguous in is said without the
check (`Rule.AmbiguousIn`). The check is shown the type declarations and looks through what lies in
each of them but in no other one below it, so every call is looked at once, for the type declaration
that is closest to it. In the end each ambiguous call is reported once
(`Rule.innerClassCalls_reports_once`).
-/

namespace BugPatterns

/-- The closest type declaration around an expression. -/
def LoadedUnit.NearestClass (loaded : LoadedUnit) (x : Expr Site) (decl : ClassDecl Site) : Prop :=
  ∃ above, (above, .expr x) ∈ loaded.lineages ∧ above.findSome? Node.classDecl? = some decl

/-- The name by which a call is made on nothing. -/
def Expr.plainCallee? {α : Type} : Expr α → Option String
  | .call _ (.ident _ name _ _) _ _ _ => some name
  | _ => none

namespace Rule

section Ambiguous

variable (loaded : LoadedUnit)

/-- The symbol of a type declaration declares the type of an inner class, and its owner is a type
    symbol that declares another one, which is not the superclass. -/
structure DeclaresInner (decl : ClassDecl Site) (inner : InnerClass) : Prop where
  symbol : ∃ symbol, loaded.classSymbol decl = some symbol ∧
    loaded.model.declaredType symbol = some inner.type ∧
    loaded.model.owner symbol = some inner.outer
  isType : loaded.model.isTypeSymbol inner.outer = true
  outer : loaded.model.declaredType inner.outer = some inner.outerType
  apart : ∀ superclass, loaded.model.superclass inner.type = some superclass →
    loaded.model.erasure superclass ≠ inner.outerType

/-- A method that an inner class inherits while neither it nor the class around it declares the
    method, and while that class has a member of its name. -/
structure InheritedAside (inner : InnerClass) (method : SymbolId) : Prop where
  isMethod : loaded.model.isMethodSymbol method = true
  notStatic : (loaded.model.symbol method).isStatic = false
  declaring : ∃ owner type, loaded.model.enclosingType method = some owner ∧
    loaded.model.declaredType owner = some type ∧
    loaded.model.isSubtype inner.type type = true ∧ type ≠ inner.type ∧ type ≠ inner.outerType
  namesake : ∃ member ∈ (loaded.model.symbol inner.outer).members,
    (loaded.model.symbol member).name = (loaded.model.symbol method).name

/-- A call by a plain name, in a class or interface that is an inner one, of a method that this one
    inherits. -/
structure AmbiguousIn (decl : ClassDecl Site) (call : Expr Site) : Prop where
  kind : decl.kind = .ordinary ∨ decl.kind = .interface
  plain : call.plainCallee?.isSome
  inherited : ∃ inner method, DeclaresInner loaded decl inner ∧
    loaded.symbolOf call = some method ∧ InheritedAside loaded inner method

variable {loaded}

theorem innerClass?_eq_some_iff {decl : ClassDecl Site} {inner : InnerClass} :
    innerClass? loaded decl = some inner ↔ DeclaresInner loaded decl inner := by
  simp only [innerClass?, Option.bind_eq_bind, Option.bind_eq_some_iff, Option.filter_eq_some_iff]
  constructor
  · rintro ⟨symbol, named, outer, ⟨owned, isType⟩, type, declares, outerType, outerDeclares, kept⟩
    split at kept
    · cases kept
    · next other =>
        obtain rfl := Option.some.inj kept
        refine ⟨⟨symbol, named, declares, owned⟩, isType, outerDeclares, ?_⟩
        intro superclass above same
        exact other ((Option.any_eq_true _ _).mpr ⟨superclass, above, decide_eq_true same⟩)
  · rintro ⟨⟨symbol, named, declares, owned⟩, isType, outerDeclares, apart⟩
    refine ⟨symbol, named, _, ⟨owned, isType⟩, _, declares, _, outerDeclares, if_neg ?_⟩
    intro extended
    obtain ⟨superclass, above, same⟩ := (Option.any_eq_true _ _).mp extended
    exact apart superclass above (of_decide_eq_true same)

theorem isAmbiguous_iff {inner : InnerClass} {method : SymbolId} :
    isAmbiguous loaded.model inner method = true ↔ InheritedAside loaded inner method := by
  unfold isAmbiguous
  rw [Bool.and_eq_true]
  constructor
  · rintro ⟨isMethod, inherited⟩
    split at inherited
    · cases inherited
    · next type declared =>
        obtain ⟨owner, around, declares⟩ := Option.bind_eq_some_iff.mp declared
        simp only [Bool.and_eq_true, Bool.not_eq_true', decide_eq_true_eq,
          List.isEmpty_eq_false_iff_exists_mem, Model.membersNamed, List.mem_filter] at inherited
        obtain ⟨⟨⟨⟨notStatic, below⟩, notOuter⟩, notInner⟩, member, listed, named⟩ := inherited
        exact ⟨isMethod, notStatic, ⟨owner, type, around, declares, below, notInner, notOuter⟩,
          member, listed, named⟩
  · rintro ⟨isMethod, notStatic, ⟨owner, type, around, declares, below, notInner, notOuter⟩,
      member, listed, named⟩
    have declared : (loaded.model.enclosingType method).bind loaded.model.declaredType =
        some type := Option.bind_eq_some_iff.mpr ⟨owner, around, declares⟩
    refine ⟨isMethod, ?_⟩
    simp only [declared, Bool.and_eq_true, Bool.not_eq_true', decide_eq_true_eq,
      List.isEmpty_eq_false_iff_exists_mem, Model.membersNamed, List.mem_filter]
    exact ⟨⟨⟨⟨notStatic, below⟩, notOuter⟩, notInner⟩, member, listed, named⟩

/-- The report on an ambiguous call. -/
def ambiguousReport (call : Expr Site) : Report :=
  .about (.expr call)
    ("Prefix this call to \"" ++ call.plainCallee?.getD "" ++ "\" with \"super.\".")

theorem ambiguousCall?_eq_some_iff {inner : InnerClass} {e : Expr Site} {report : Report} :
    ambiguousCall? loaded inner e = some report ↔
      e.plainCallee?.isSome ∧ (∃ method, loaded.symbolOf e = some method ∧
        InheritedAside loaded inner method) ∧ report = ambiguousReport e := by
  have any : (loaded.symbolOf e).any (isAmbiguous loaded.model inner) = true ↔
      ∃ method, loaded.symbolOf e = some method ∧ InheritedAside loaded inner method := by
    simp only [Option.any_eq_true, isAmbiguous_iff]
  unfold ambiguousCall?
  split
  · rw [← any]
    split
    · next ambiguous => simp [ambiguous, Expr.plainCallee?, ambiguousReport, eq_comm]
    · next plain => simp [plain]
  · next other =>
      have unnamed : e.plainCallee? = none := by
        unfold Expr.plainCallee?
        split
        · exact absurd rfl (other _ _ _ _ _ _ _ _)
        · rfl
      simp [unnamed]

theorem mem_kinds_innerClassCalls {decl : ClassDecl Site} :
    (Node.classDecl decl).kind ∈ innerClassCalls.kinds ↔
      decl.kind = .ordinary ∨ decl.kind = .interface := by
  have kind : (Node.classDecl decl).kind = .ofClassKind decl.kind := rfl
  rw [kind]
  cases decl.kind <;> decide

/-- A call is ambiguous in a type declaration if the check is shown that one, takes it for an inner
    class, and would report the call there. -/
theorem ambiguousIn_iff {decl : ClassDecl Site} {call : Expr Site} :
    (((Node.classDecl decl).kind ∈ innerClassCalls.kinds) ∧
      (innerClass? loaded decl).any (fun inner => (ambiguousCall? loaded inner call).isSome)) ↔
      AmbiguousIn loaded decl call := by
  simp only [mem_kinds_innerClassCalls, Option.any_eq_true, innerClass?_eq_some_iff,
    Option.isSome_iff_exists, ambiguousCall?_eq_some_iff]
  constructor
  · rintro ⟨kind, inner, declares, _, plain, ⟨method, called, inherited⟩, -⟩
    exact ⟨kind, Option.isSome_iff_exists.mpr plain, inner, method, declares, called, inherited⟩
  · rintro ⟨kind, plain, inner, method, declares, called, inherited⟩
    exact ⟨kind, inner, declares, _, Option.isSome_iff_exists.mp plain,
      ⟨method, called, inherited⟩, rfl⟩

instance (decl : ClassDecl Site) (call : Expr Site) : Decidable (AmbiguousIn loaded decl call) :=
  decidable_of_iff _ ambiguousIn_iff

/-- The node, if it is a call that is ambiguous in a type declaration. -/
def ambiguousAt (loaded : LoadedUnit) (decl : ClassDecl Site) (n : Node Site) : List (Expr Site) :=
  n.expr?.toList.filter fun e => AmbiguousIn loaded decl e

theorem mem_ambiguousAt {decl : ClassDecl Site} {n : Node Site} {call : Expr Site} :
    call ∈ ambiguousAt loaded decl n ↔ n = .expr call ∧ AmbiguousIn loaded decl call := by
  rw [ambiguousAt, List.mem_filter, Option.mem_toList, decide_eq_true_iff]
  refine and_congr_left fun _ => ?_
  cases n <;> simp [Node.expr?]

theorem nodup_ambiguousAt {decl : ClassDecl Site} {n : Node Site} :
    (ambiguousAt loaded decl n).Nodup := by
  unfold ambiguousAt
  cases n.expr? with
  | none => exact .nil
  | some e => exact (List.nodup_singleton e).filter _

theorem flatMap_ambiguousAt (decl : ClassDecl Site) (nodes : List (Node Site)) :
    nodes.flatMap (ambiguousAt loaded decl) =
      (nodes.filterMap Node.expr?).filter fun e => AmbiguousIn loaded decl e := by
  induction nodes with
  | nil => rfl
  | cons n nodes ih =>
      rw [List.flatMap_cons, ih, List.filterMap_cons, ambiguousAt]
      cases n.expr? with
      | none => rfl
      | some e => rw [Option.toList_some, ← List.filter_append]; rfl

/-- In an inner class of its kinds the check reports an expression just when it is an ambiguous
    call. -/
theorem ambiguousCall?_eq_ite {decl : ClassDecl Site} {inner : InnerClass}
    (wanted : (Node.classDecl decl).kind ∈ innerClassCalls.kinds)
    (found : innerClass? loaded decl = some inner) (e : Expr Site) :
    ambiguousCall? loaded inner e =
      if AmbiguousIn loaded decl e then some (ambiguousReport e) else none := by
  cases reported : ambiguousCall? loaded inner e with
  | none =>
      have plain : ¬ AmbiguousIn loaded decl e := by
        rw [← ambiguousIn_iff, found, Option.any_some, reported]
        exact fun absurd => Bool.false_ne_true absurd.2
      rw [if_neg plain]
  | some report =>
      have ambiguous : AmbiguousIn loaded decl e := by
        rw [← ambiguousIn_iff, found, Option.any_some, reported]
        exact ⟨wanted, rfl⟩
      rw [if_pos ambiguous, (ambiguousCall?_eq_some_iff.mp reported).2.2]

theorem filterMap_ite {α β : Type} (p : α → Prop) [DecidablePred p] (f : α → β) (items : List α) :
    (items.filterMap fun a => if p a then some (f a) else none) =
      (items.filter fun a => p a).map f := by
  induction items with
  | nil => rfl
  | cons a items ih => by_cases holds : p a <;> simp [holds, ih]

/-- For a type declaration of its kinds the check reports the ambiguous calls of its region. -/
theorem reports_innerClassCalls {here : Surroundings} {decl : ClassDecl Site}
    (wanted : (Node.classDecl decl).kind ∈ innerClassCalls.kinds) :
    (innerClassCalls.visit here (.classDecl decl)).reports =
      ((Node.classDecl decl).readRegion Node.classDecl? (ambiguousAt here.loaded) decl).map
        ambiguousReport := by
  have region : (Node.classDecl decl).readRegion Node.classDecl? (ambiguousAt here.loaded) decl =
      (Node.classDecl decl).ownExprs.filter fun e => AmbiguousIn here.loaded decl e := by
    simp only [Node.readRegion, Node.ownExprs, Node.not_isClassDecl, flatMap_ambiguousAt]
  rw [region]
  simp only [innerClassCalls]
  cases found : innerClass? here.loaded decl with
  | none =>
      have silent (e : Expr Site) : ¬ AmbiguousIn here.loaded decl e := by
        rw [← ambiguousIn_iff, found]
        exact fun absurd => Bool.false_ne_true absurd.2
      simp [silent, Answer.nothing, Answer.ofReports]
  | some inner =>
      simp only [Answer.ofReports, ambiguousCall?_eq_ite wanted found]
      exact filterMap_ite _ _ _

/-- Shown any node of its kinds, the check reports the ambiguous calls of the region of the node; it
    has none to report in type declarations of other kinds. -/
theorem readsRegions_innerClassCalls (loaded : LoadedUnit) :
    innerClassCalls.ReadsRegions Node.classDecl? (ambiguousAt loaded) loaded ambiguousReport := by
  rintro here rfl n
  cases n with
  | classDecl decl =>
      have marked : (Node.classDecl decl).readMarked Node.classDecl? (ambiguousAt here.loaded) =
          (Node.classDecl decl).readRegion Node.classDecl? (ambiguousAt here.loaded) decl :=
        List.flatMap_singleton ..
      rw [marked]
      split
      · next wanted => exact reports_innerClassCalls wanted
      · next unwanted =>
          have silent (n : Node Site) : ambiguousAt here.loaded decl n = [] := by
            refine List.eq_nil_iff_forall_not_mem.mpr fun call member => unwanted ?_
            exact mem_kinds_innerClassCalls.mpr (mem_ambiguousAt.mp member).2.kind
          have none : (Node.classDecl decl).readRegion Node.classDecl? (ambiguousAt here.loaded)
              decl = [] := List.flatMap_eq_nil_iff.mpr fun n _ => silent n
          rw [none, List.map_nil]
  | _ => exact ite_self _

end Ambiguous

end Rule

/-- The calls of a unit that are ambiguous in the type declarations that are closest to them. -/
def LoadedUnit.ambiguousCalls (loaded : LoadedUnit) : List (Expr Site) :=
  loaded.lineages.flatMap fun (above, n) =>
    (above.findSome? Node.classDecl?).toList.flatMap fun decl => Rule.ambiguousAt loaded decl n

namespace LoadedUnit

variable {loaded : LoadedUnit}

/-- A type declaration is the closest one around the expressions that lie in it and in no other one
    below it. -/
theorem nearestClass_iff {x : Expr Site} {decl : ClassDecl Site} :
    loaded.NearestClass x decl ↔
      .classDecl decl ∈ loaded.nodes ∧ .expr x ∈ (Node.classDecl decl).ownNodes := by
  unfold NearestClass
  rw [nearest_iff rfl, Node.ownNodes]
  simp only [Node.not_isClassDecl]
  constructor
  · rintro ⟨root, listed, marked, own⟩
    cases root with
    | classDecl c =>
        obtain rfl := Option.some.inj marked
        exact ⟨listed, own⟩
    | _ => cases marked
  · rintro ⟨listed, own⟩
    exact ⟨_, listed, rfl, own⟩

theorem mem_ambiguousCalls {call : Expr Site} : call ∈ loaded.ambiguousCalls ↔
    ∃ decl, loaded.NearestClass call decl ∧ Rule.AmbiguousIn loaded decl call := by
  simp only [ambiguousCalls, List.mem_flatMap, Option.mem_toList, Rule.mem_ambiguousAt]
  constructor
  · rintro ⟨⟨above, _⟩, placed, decl, nearest, rfl, ambiguous⟩
    exact ⟨decl, ⟨above, placed, nearest⟩, ambiguous⟩
  · rintro ⟨decl, ⟨above, placed, nearest⟩, ambiguous⟩
    exact ⟨_, placed, decl, nearest, rfl, ambiguous⟩

end LoadedUnit

namespace Rule

section Region

variable {loaded : LoadedUnit} {n : Node Site}

theorem mem_readMarked {call : Expr Site} :
    call ∈ n.readMarked Node.classDecl? (ambiguousAt loaded) ↔
      ∃ decl, n = .classDecl decl ∧ .expr call ∈ n.ownNodes ∧ AmbiguousIn loaded decl call := by
  simp only [Node.readMarked, Node.readRegion, List.mem_flatMap, Option.mem_toList,
    mem_ambiguousAt, ← Node.not_isClassDecl]
  constructor
  · rintro ⟨decl, marked, _, own, rfl, ambiguous⟩
    cases n with
    | classDecl _ => exact ⟨decl, congrArg _ (Option.some.inj marked), own, ambiguous⟩
    | _ => cases marked
  · rintro ⟨decl, rfl, own, ambiguous⟩
    exact ⟨decl, rfl, _, own, rfl, ambiguous⟩

end Region

/-- A report as it comes up in a pass. -/
def innerCallFinding (loaded : LoadedUnit) (call : Expr Site) : Diagnostic where
  rule := "S2388"
  severity := .major
  file := loaded.file
  span := call.label.span
  kind := call.kind
  message := "Prefix this call to \"" ++ call.plainCallee?.getD "" ++ "\" with \"super.\"."

/-- Each ambiguous call of a unit is reported once, with its span, for the type declaration that is
    closest to it. For a type declaration the check reports no call that lies in another one
    nested in it. -/
theorem innerClassCalls_reports_once {document : UnitDocument} {loaded : LoadedUnit}
    (made : LoadedUnit.ofDocument document = .ok loaded) {checks : List Check}
    {registry : Registry} (registered : Registry.ofChecks checks = .ok registry)
    (listed : innerClassCalls ∈ checks) (catalog : Catalog) (maxDepth : Nat) :
    ∃ calls : List (Expr Site), calls.Nodup ∧
      (∀ call, call ∈ calls ↔
        ∃ decl, loaded.NearestClass call decl ∧ AmbiguousIn loaded decl call) ∧
      ((registry.run loaded catalog maxDepth).diagnostics.filter
        (fun found => found.rule = "S2388")).Perm (calls.map (innerCallFinding loaded)) ∧
      ∀ showing ∈ registry.showings loaded catalog maxDepth, showing.check.key = "S2388" →
        ∃ own : List (Expr Site), showing.answer.reports = own.map ambiguousReport ∧ own.Nodup ∧
          ∀ call, call ∈ own ↔ ∃ decl, showing.node = .classDecl decl ∧
            loaded.NearestClass call decl ∧ AmbiguousIn loaded decl call := by
  have coherent := LoadedUnit.coherent_ofDocument made
  have whole := Registry.madeOf_of_ofChecks registered
  have reads := readsRegions_innerClassCalls loaded
  have once (decl : ClassDecl Site) (n : Node Site) :
      ((ambiguousAt loaded decl n).map id).Nodup := by
    rw [List.map_id]
    exact nodup_ambiguousAt
  have placed (decl : ClassDecl Site) (n : Node Site) (call : Expr Site)
      (member : call ∈ ambiguousAt loaded decl n) : n = .expr call := (mem_ambiguousAt.mp member).1
  have silent (decl : ClassDecl Site) (n : Node Site) (marked : n.classDecl?.isSome) :
      ambiguousAt loaded decl n = [] := by
    cases n with
    | classDecl _ => rfl
    | _ => cases marked
  have nodup : (loaded.ambiguousCalls.map id).Nodup :=
    LoadedUnit.nodup_readPlaced coherent once placed
  rw [List.map_id] at nodup
  refine ⟨loaded.ambiguousCalls, nodup, fun _ => LoadedUnit.mem_ambiguousCalls,
    Registry.perm_findings whole listed reads catalog maxDepth silent, fun showing shown key => ?_⟩
  obtain ⟨member, reports⟩ :=
    Registry.reports_of_showing whole listed reads catalog maxDepth shown key
  have nodup := @Node.nodup_readMarked _ _ Node.classDecl? _ _ coherent _ once placed _ member
  rw [List.map_id] at nodup
  refine ⟨_, reports, nodup, fun call => ?_⟩
  rw [mem_readMarked]
  constructor
  · rintro ⟨decl, isDecl, own, ambiguous⟩
    rw [isDecl] at member own
    exact ⟨decl, isDecl, LoadedUnit.nearestClass_iff.mpr ⟨member, own⟩, ambiguous⟩
  · rintro ⟨decl, isDecl, nearest, ambiguous⟩
    rw [isDecl]
    exact ⟨decl, rfl, (LoadedUnit.nearestClass_iff.mp nearest).2, ambiguous⟩

/-- A call of an inherited method in an inner class, and one more in an anonymous class there. -/
def twiceInherited : UnitDocument :=
  let member (name : String) : MemberEntry :=
    ⟨name, none, .method, false, false, none, none, [], []⟩
  let call (line : UInt32) : Stmt Span := .expression .unknown
    (.call (.point line 7) (.ident .unknown "foo" none none) [] (some "p.Base#foo") none)
  let method (name : String) (body : List (Stmt Span)) : Member Span :=
    .method ⟨.unknown, name, none, [], some ⟨.unknown, body⟩⟩
  let nameless : ClassDecl Span := ⟨.unknown, .ordinary, none, none, [method "go" [call 8]]⟩
  { model := ⟨[⟨"p.Base", .ordinary, none, [], none, [member "foo"]⟩,
      ⟨"p.Outer", .ordinary, none, [], none, [member "foo"]⟩,
      ⟨"p.Outer$Inner", .ordinary, some "p.Base", [], some "p.Outer", [member "run"]⟩]⟩
    tree := ⟨"Outer.java", none, [⟨.unknown, .ordinary, some "Outer", some "p.Outer",
      [.classDecl ⟨.unknown, .ordinary, some "Inner", some "p.Outer$Inner",
        [method "run" [call 6, .expression .unknown
          (.creation .unknown [] (some nameless) none none)]]⟩]⟩]⟩ }

/-- The call in the inner class is reported, that in the anonymous class is not. -/
theorem innerClassCalls_reports_once_nested : ∃ loaded registry, ∃ calls : List (Expr Site),
    LoadedUnit.ofDocument twiceInherited = .ok loaded ∧
      Registry.ofChecks [innerClassCalls] = .ok registry ∧
      (∀ call, call ∈ calls ↔
        ∃ decl, loaded.NearestClass call decl ∧ AmbiguousIn loaded decl call) ∧
      calls.map (·.label.span.line) = [6] := by
  have evaluated : ((Registry.ofChecks [innerClassCalls]).toOption.bind fun registry =>
      (LoadedUnit.ofDocument twiceInherited).toOption.map fun loaded => decide
        (((registry.run loaded .empty 5).diagnostics.filter fun found =>
          found.rule = "S2388").map (·.span.line) = [6])) = some true := by
    decide +kernel
  cases registered : Registry.ofChecks [innerClassCalls] with
  | error cause => rw [registered] at evaluated; cases evaluated
  | ok registry =>
      cases made : LoadedUnit.ofDocument twiceInherited with
      | error cause => rw [registered, made] at evaluated; cases evaluated
      | ok loaded =>
          rw [registered, made] at evaluated
          have lines := of_decide_eq_true (Option.some.inj evaluated)
          obtain ⟨calls, -, characterized, found, -⟩ :=
            innerClassCalls_reports_once made registered List.mem_cons_self .empty 5
          refine ⟨loaded, registry, calls, rfl, rfl, characterized, ?_⟩
          have same := found.map (·.span.line)
          rw [lines, List.map_map] at same
          exact List.singleton_perm.mp same |>.symm

end Rule

end BugPatterns
