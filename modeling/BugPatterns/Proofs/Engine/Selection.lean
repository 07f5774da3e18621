import BugPatterns.Engine.Basic
import BugPatterns.Proofs.Check.Registry
import BugPatterns.Proofs.Engine.Order

/-!
# Choosing rules

An engine for some of the rules finds in a unit what the engine for all rules finds under them, in
the same order (`Engine.analyze_selected`). The rules do not bear on one another, no rule of the
built-in ones ever fails, and the findings are sorted stably.
-/

namespace BugPatterns

/-- The keys of all rules. -/
def builtinKeys : List String := builtinChecks.map (·.key)

/-- What holds of each rule holds of all. -/
theorem forall_builtin {P : Check → Prop} :
    (∀ check ∈ builtinChecks, P check) ↔
      P Rule.objectEquality ∧ P Rule.sqlInjection ∧ P Rule.finalizerNulling ∧
        P Rule.innerClassCalls := by
  simp [builtinChecks]

theorem registrable_of_builtin : ∀ check ∈ builtinChecks, check.Registrable := by
  rw [forall_builtin]
  refine ⟨⟨?_, ?_⟩, ⟨?_, ?_⟩, ⟨?_, ?_⟩, ⟨?_, ?_⟩⟩ <;> decide +kernel

theorem nodup_builtinKeys : builtinKeys.Nodup := by decide

/-- The answer is without a failure. -/
theorem failure_of_builtin : ∀ check ∈ builtinChecks, ∀ here node,
    (check.visit here node).failure = none := by
  rw [forall_builtin]
  refine ⟨fun here node => ?_, fun here node => ?_, fun here node => ?_, fun here node => ?_⟩
  · simp only [Rule.objectEquality]
    split
    · split <;> rfl
    · rfl
  · simp only [Rule.sqlInjection]
    split
    · split
      · rfl
      · split <;> rfl
    · rfl
  · simp only [Rule.finalizerNulling]
    split
    · split <;> rfl
    · rfl
  · simp only [Rule.innerClassCalls]
    split
    · split <;> rfl
    · rfl

namespace Diagnostic

theorem startsNoLater_trans (a b c : Diagnostic) (first : a.span.startsNoLater b.span)
    (second : b.span.startsNoLater c.span) : a.span.startsNoLater c.span :=
  Span.startsNoLater_trans a.span b.span c.span first second

theorem startsNoLater_total (a b : Diagnostic) :
    a.span.startsNoLater b.span || b.span.startsNoLater a.span :=
  Span.startsNoLater_total a.span b.span

end Diagnostic

namespace Engine

section Findings

/-- The findings of the pass of an engine, before they are ordered. -/
def findings (engine : Engine) (loaded : LoadedUnit) : List Diagnostic :=
  (engine.registry.run loaded engine.catalog engine.options.maxTraceDepth.toNat).diagnostics

/-- Findings, each put in front of those that were found later and start no earlier. -/
def inOrder (findings : List Diagnostic) : List Diagnostic :=
  findings.foldr (fun a sorted => sorted.filter (fun b => !a.span.startsNoLater b.span) ++
    a :: sorted.filter fun b => a.span.startsNoLater b.span) []

variable {engine other : Engine} {loaded otherLoaded : LoadedUnit}

theorem diagnostics_analyze (engine : Engine) (loaded : LoadedUnit) :
    (engine.analyze loaded).diagnostics = inOrder (engine.findings loaded) :=
  mergeSort_eq_foldr Diagnostic.startsNoLater_trans Diagnostic.startsNoLater_total _

/-- Some of the findings are ordered as they are among all of them. -/
theorem filter_diagnostics_analyze (keep : Diagnostic → Bool) :
    (engine.analyze loaded).diagnostics.filter keep =
      ((engine.findings loaded).filter keep).mergeSort
        fun a b => a.span.startsNoLater b.span :=
  filter_mergeSort Diagnostic.startsNoLater_trans Diagnostic.startsNoLater_total keep _

/-- What passes find alike is reported alike. -/
theorem filter_diagnostics_congr {keep : Diagnostic → Bool}
    (same : (engine.findings loaded).filter keep = (other.findings otherLoaded).filter keep) :
    (engine.analyze loaded).diagnostics.filter keep =
      (other.analyze otherLoaded).diagnostics.filter keep := by
  rw [filter_diagnostics_analyze, filter_diagnostics_analyze, same]

/-- What is found besides other things is reported besides them. -/
theorem diagnostics_sublist
    (fewer : (engine.findings loaded).Sublist (other.findings otherLoaded)) :
    (engine.analyze loaded).diagnostics.Sublist (other.analyze otherLoaded).diagnostics :=
  mergeSort_sublist Diagnostic.startsNoLater_trans Diagnostic.startsNoLater_total fewer

end Findings

/-- An engine with some options, to whose catalog some texts have been added in turn. -/
def build (options : Options) (extensions : List String) : Except EngineError Engine := do
  extensions.foldlM extendText (← ofOptions options)

/-- Extending leaves everything but the catalog alone, and asks nothing but the catalog. -/
theorem foldlM_extendText (extensions : List String) : ∀ engine : Engine,
    extensions.foldlM extendText engine =
      engine.withCatalog (extensions.foldlM Catalog.extendText engine.catalog) := by
  induction extensions with
  | nil => exact fun _ => rfl
  | cons text extensions ih =>
      intro engine
      rw [List.foldlM_cons, List.foldlM_cons, extendText]
      cases engine.catalog.extendText text with
      | error cause => rfl
      | ok catalog => exact ih { engine with catalog := catalog }

/-- The rules that are named by options. -/
def keeps (rules : Option (List String)) (key : String) : Bool :=
  (rules.map fun rules => rules.contains key).getD true

/-- Checks can be chosen if there are rules of all the names. -/
theorem chooseChecks_eq_ok_iff {checks chosen : List Check} {rules : Option (List String)} :
    chooseChecks checks rules = .ok chosen ↔
      (∀ names, rules = some names → ∀ name ∈ names, name ∈ checks.map (·.key)) ∧
        chosen = checks.filter fun check => keeps rules check.key := by
  cases rules with
  | none =>
      have everything : (checks.filter fun check => keeps none check.key) = checks :=
        List.filter_eq_self.mpr fun _ _ => rfl
      rw [everything]
      constructor
      · intro same
        exact ⟨fun _ absurd => (by cases absurd), (Except.ok.inj same).symm⟩
      · rintro ⟨-, rfl⟩
        rfl
  | some names =>
      rw [chooseChecks]
      cases found : names.find? fun name => !(checks.map (·.key)).contains name with
      | some unknown =>
          have missing := List.find?_some found
          have named := List.mem_of_find?_eq_some found
          constructor
          · intro absurd
            cases absurd
          · rintro ⟨known, -⟩
            have present := known names rfl unknown named
            rw [← List.contains_iff_mem] at present
            rw [present] at missing
            cases missing
      | none =>
          have known : ∀ name ∈ names, name ∈ checks.map (·.key) := by
            intro name named
            have present := List.find?_eq_none.mp found name named
            rwa [Bool.not_eq_true, Bool.not_eq_false', List.contains_iff_mem] at present
          constructor
          · intro same
            exact ⟨fun _ same => Option.some.inj same ▸ known, (Except.ok.inj same).symm⟩
          · rintro ⟨-, rfl⟩
            rfl

/-- The steps in which an engine is made. -/
theorem ofOptions_eq_ok_iff {options : Options} {engine : Engine} :
    ofOptions options = .ok engine ↔
      ∃ checks registry, chooseChecks builtinChecks options.rules = .ok checks ∧
        Registry.ofChecks checks = .ok registry ∧ engine = ⟨registry, .builtin, options⟩ := by
  constructor
  · intro made
    rw [ofOptions] at made
    cases chosen : chooseChecks builtinChecks options.rules with
    | error cause =>
        rw [chosen] at made
        cases made
    | ok checks =>
        simp only [chosen, bind, Except.bind] at made
        cases registered : Registry.ofChecks checks with
        | error cause =>
            rw [registered] at made
            cases made
        | ok registry =>
            rw [registered] at made
            exact ⟨checks, registry, rfl, registered, (Except.ok.inj made).symm⟩
  · rintro ⟨checks, registry, chosen, registered, rfl⟩
    simp only [ofOptions, chosen, bind, Except.bind, registered]
    rfl

/-- An engine has the chosen checks, in the order of all checks. -/
theorem ofOptions_eq_ok {options : Options}
    (known : ∀ names, options.rules = some names → ∀ name ∈ names, name ∈ builtinKeys) :
    ∃ registry, ofOptions options = .ok ⟨registry, .builtin, options⟩ ∧ registry.Indexed ∧
      registry.checks = builtinChecks.filter fun check => keeps options.rules check.key := by
  have fine : ∀ check ∈ builtinChecks.filter fun check => keeps options.rules check.key,
      check.Registrable := fun check member =>
    registrable_of_builtin check (List.mem_filter.mp member).1
  have distinct : ((builtinChecks.filter fun check =>
      keeps options.rules check.key).map (·.key)).Nodup :=
    List.Nodup.sublist (List.Sublist.map _ List.filter_sublist) nodup_builtinKeys
  obtain ⟨registry, made, indexed, checks⟩ := Registry.ofChecks_eq_ok fine distinct
  refine ⟨registry, ofOptions_eq_ok_iff.mpr ⟨_, registry, ?_, made, rfl⟩, indexed, checks⟩
  exact chooseChecks_eq_ok_iff.mpr ⟨known, rfl⟩

/-- An engine that was built has the chosen checks, and a catalog that the options have no part
    in. -/
theorem build_eq_ok (options : Options)
    (known : ∀ rules, options.rules = some rules → ∀ rule ∈ rules, rule ∈ builtinKeys)
    {extensions : List String} {catalog : Catalog}
    (accepted : extensions.foldlM Catalog.extendText .builtin = .ok catalog) :
    ∃ registry, build options extensions = .ok ⟨registry, catalog, options⟩ ∧ registry.Indexed ∧
      registry.checks = builtinChecks.filter fun check => keeps options.rules check.key := by
  obtain ⟨registry, made, indexed, checks⟩ := ofOptions_eq_ok known
  refine ⟨registry, ?_, indexed, checks⟩
  simp only [build, made, bind, Except.bind]
  rw [foldlM_extendText]
  simp only [accepted]
  rfl

/-- The extensions that an engine accepts are those that the built-in catalog accepts. -/
theorem accepted_of_build {options : Options} {extensions : List String} {engine : Engine}
    (built : build options extensions = .ok engine) :
    ∃ catalog, extensions.foldlM Catalog.extendText .builtin = .ok catalog := by
  rw [build] at built
  cases made : ofOptions options with
  | error cause =>
      rw [made] at built
      cases built
  | ok plain =>
      obtain ⟨checks, registry, -, -, rfl⟩ := ofOptions_eq_ok_iff.mp made
      simp only [made, bind, Except.bind] at built
      rw [foldlM_extendText] at built
      cases accepted : extensions.foldlM Catalog.extendText .builtin with
      | error cause =>
          rw [accepted] at built
          cases built
      | ok extended => exact ⟨extended, rfl⟩

theorem checks_builtin {registry : Registry} {rules : Option (List String)}
    (checks : registry.checks = builtinChecks.filter fun check => keeps rules check.key) :
    ∀ check ∈ registry.checks, check ∈ builtinChecks := by
  rw [checks]
  intro check member
  exact (List.mem_filter.mp member).1

/-- Choosing rules is filtering: whatever the depth and the extensions of the catalog, the findings
    of chosen rules are those of all rules that are found under them. The findings of all rules are
    those of a pass, ordered by where they start, and in the order of the pass where they start
    together. No rule ever fails. -/
theorem analyze_selected {depth : UInt64} {extensions : List String} {whole : Engine}
    (built : build ⟨none, depth⟩ extensions = .ok whole) {rules : List String}
    (known : ∀ rule ∈ rules, rule ∈ builtinKeys) :
    ∃ part, build ⟨some rules, depth⟩ extensions = .ok part ∧ part.catalog = whole.catalog ∧
      ∀ loaded,
        (part.analyze loaded).diagnostics =
          (whole.analyze loaded).diagnostics.filter (fun found => rules.contains found.rule) ∧
        (whole.analyze loaded).diagnostics.Pairwise
          (fun a b => a.span.startsNoLater b.span = true) ∧
        (whole.analyze loaded).diagnostics.Perm
          (whole.registry.run loaded whole.catalog depth.toNat).diagnostics ∧
        (∀ line col, (whole.analyze loaded).diagnostics.filter
            (fun found => found.span.line = line && found.span.col = col) =
          (whole.registry.run loaded whole.catalog depth.toNat).diagnostics.filter
            (fun found => found.span.line = line && found.span.col = col)) ∧
        (part.analyze loaded).failures = [] ∧ (whole.analyze loaded).failures = [] := by
  obtain ⟨catalog, accepted⟩ := accepted_of_build built
  obtain ⟨all, madeAll, allIndexed, allChecks⟩ :=
    build_eq_ok ⟨none, depth⟩ (fun _ absurd => by cases absurd) accepted
  obtain ⟨chosen, madeChosen, chosenIndexed, chosenChecks⟩ :=
    build_eq_ok ⟨some rules, depth⟩ (fun _ same => Option.some.inj same ▸ known) accepted
  obtain rfl := Except.ok.inj (built.symm.trans madeAll)
  have everything : all.checks = builtinChecks := by
    rw [allChecks]
    exact List.filter_eq_self.mpr fun _ _ => rfl
  have filtered : chosen.checks = all.checks.filter fun check => rules.contains check.key := by
    rw [everything, chosenChecks]
    rfl
  have trans := Diagnostic.startsNoLater_trans
  have total := Diagnostic.startsNoLater_total
  refine ⟨⟨chosen, catalog, ⟨some rules, depth⟩⟩, madeChosen, rfl, fun loaded => ?_⟩
  refine ⟨?_, List.pairwise_mergeSort trans total _, List.mergeSort_perm _ _, fun line col => ?_,
    Registry.failures_eq_nil loaded catalog _ chosenIndexed fun check member =>
      failure_of_builtin check (checks_builtin chosenChecks check member),
    Registry.failures_eq_nil loaded catalog _ allIndexed fun check member =>
      failure_of_builtin check (checks_builtin allChecks check member)⟩
  · have found := Registry.diagnostics_filter loaded catalog depth.toNat allIndexed chosenIndexed
      filtered
    rw [filter_diagnostics_analyze, findings, ← found, analyze]
  · refine filter_mergeSort_of_equal trans total (fun a b first second => ?_) _
    simp only [Bool.and_eq_true, decide_eq_true_eq] at first second
    rw [Span.startsNoLater_iff, first.1, first.2, second.1, second.2]
    exact Or.inr ⟨rfl, Nat.le_refl _⟩

/-- The rule of a finding, with the place that it is about. -/
def place (found : Diagnostic) : String × Span := (found.rule, found.span)

/-- A method that runs queries in lines 7 to 3, and compares two texts in line 2. The query in
    line 7 is seen to be constant in one step, and that in line 6 in two. That in line 5 is a new
    `p.Text` made of a constant. Those in lines 4 and 3 are a parameter, which is handed to a `p.Db`
    in line 3. -/
def faultyMethod : MethodDecl Span :=
  let literal : Expr Span := .literal .unknown .string "x" none
  let use (name : String) : Expr Span := .ident .unknown name (some ("p.Q#run." ++ name)) none
  let text (name : String) : Expr Span := .ident .unknown name none (some "java.lang.String")
  let run (line : UInt32) (owner method : String) (query : Expr Span) : Stmt Span :=
    .expression .unknown (.call (.point line 1)
      (.select .unknown (.ident .unknown "db" none (some owner)) method none none) [query] none
      none)
  ⟨.unknown, "run", some "p.Q#run", [⟨.unknown, "p", some "p.Q#run.p", none, none⟩],
    some ⟨.unknown, [
      .varDecl ⟨.unknown, "s", some "p.Q#run.s", none, some literal⟩,
      .varDecl ⟨.unknown, "t", some "p.Q#run.t", none, some (use "s")⟩,
      run 7 "java.sql.Statement" "execute" (use "s"),
      run 6 "java.sql.Statement" "execute" (use "t"),
      run 5 "java.sql.Statement" "execute"
        (.creation .unknown [literal] none none (some "p.Text")),
      run 4 "java.sql.Statement" "execute" (use "p"),
      run 3 "p.Db" "run" (use "p"),
      .ret .unknown (some (.binary (.point 2 1) .equalTo (text "a") (text "b") none))]⟩⟩

/-- A class with that method, and with a finalizer that clears a field. -/
def faulty : UnitDocument where
  model := ⟨[⟨"p.Db", .interface, none, [], none, []⟩, ⟨"p.Q", .ordinary, none, [], none, [
    ⟨"f", none, .field, false, false, none, none, [], []⟩,
    ⟨"finalize", none, .method, false, false, none, none, [], []⟩,
    ⟨"run", none, .method, false, false, none, none, [⟨"p", none, none⟩],
      [⟨"s", none, none⟩, ⟨"t", none, none⟩]⟩]⟩]⟩
  tree :=
    let clearing : Expr Span := .assign (.point 1 1) .assign
      (.ident .unknown "f" (some "p.Q#f") none) (.literal .unknown .null "null" none) none
    ⟨"Q.java", none, [⟨.unknown, .ordinary, some "Q", some "p.Q", [
      .method faultyMethod,
      .method ⟨.unknown, "finalize", some "p.Q#finalize", [],
        some ⟨.unknown, [.expression .unknown clearing]⟩⟩]⟩]⟩

/-- Two rules are chosen, one of them twice, and a class is added to the catalog. The finding of a
    third rule is left out, and the others come in the order of their lines. -/
theorem analyze_selected_injection : ∃ loaded whole part,
    LoadedUnit.ofDocument faulty = .ok loaded ∧
      build ⟨none, 5⟩ ["[[],[],[\"p.Text\"]]"] = .ok whole ∧
      build ⟨some ["S2077", "S1698", "S2077"], 5⟩ ["[[],[],[\"p.Text\"]]"] = .ok part ∧
      (whole.findings loaded).map place =
        [("S2077", .point 4 1), ("S1698", .point 2 1), ("S2165", .point 1 1)] ∧
      (whole.analyze loaded).diagnostics.map place =
        [("S2165", .point 1 1), ("S1698", .point 2 1), ("S2077", .point 4 1)] ∧
      (part.analyze loaded).diagnostics = (whole.analyze loaded).diagnostics.filter
        (fun found => ["S2077", "S1698", "S2077"].contains found.rule) ∧
      (part.analyze loaded).diagnostics.map place =
        [("S1698", .point 2 1), ("S2077", .point 4 1)] := by
  have evaluated : (LoadedUnit.ofDocument faulty).toOption.bind (fun loaded =>
      (build ⟨none, 5⟩ ["[[],[],[\"p.Text\"]]"]).toOption.map fun whole => decide (
        (whole.findings loaded).map place =
          [("S2077", .point 4 1), ("S1698", .point 2 1), ("S2165", .point 1 1)] ∧
        (inOrder (whole.findings loaded)).map place =
          [("S2165", .point 1 1), ("S1698", .point 2 1), ("S2077", .point 4 1)])) = some true := by
    decide +kernel
  obtain ⟨loaded, made, evaluated⟩ := exists_ok_of_toOption_bind evaluated
  obtain ⟨whole, built, checked⟩ := exists_ok_of_toOption_map evaluated
  rw [← diagnostics_analyze] at checked
  obtain ⟨met, ordered⟩ := of_decide_eq_true checked
  have known : ∀ rule ∈ ["S2077", "S1698", "S2077"], rule ∈ builtinKeys := by decide
  obtain ⟨part, madePart, -, found⟩ := analyze_selected built known
  obtain ⟨filtered, -⟩ := found loaded
  have chosen : (part.analyze loaded).diagnostics.map place =
      ((whole.analyze loaded).diagnostics.map place).filter
        fun found => ["S2077", "S1698", "S2077"].contains found.1 := by
    rw [filtered, List.filter_map]
    rfl
  rw [ordered] at chosen
  exact ⟨loaded, whole, part, made, built, madePart, met, ordered, filtered, chosen⟩

end Engine

end BugPatterns
