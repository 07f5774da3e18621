import BugPatterns.Check.Registry
import BugPatterns.Proofs.Except
import BugPatterns.Proofs.InsertionOrder
import Mathlib.Data.List.Basic
import Mathlib.Data.List.Nodup

/-!
# Who is shown what

A registry shows a node to the checks that name its kind, in the order of their registration
(`Registry.Indexed`), whatever other checks there are. So a registry of some of the checks of
another one has, in one pass, exactly the output of those checks (`Registry.diagnostics_filter`).
-/

namespace BugPatterns

namespace Subscriptions

theorem positions_cons (k : NodeKind) (listed : List Nat) (table : Subscriptions)
    (other : NodeKind) :
    positions ((k, listed) :: table) other =
      if other = k then listed else positions table other := by
  unfold positions
  rw [List.lookup_cons]
  by_cases same : other = k
  · simp [same]
  · rw [beq_eq_false_iff_ne.mpr same, if_neg same]

theorem positions_insert (position : Nat) (kind other : NodeKind) (table : Subscriptions) :
    (table.insert position kind).positions other =
      if other = kind then appendNew (table.positions other) position
      else table.positions other := by
  induction table with
  | nil => rw [insert, positions_cons]; rfl
  | cons entry table ih =>
      obtain ⟨k, listed⟩ := entry
      rw [insert]
      by_cases here : k = kind
      · rw [if_pos here, positions_cons, positions_cons]
        by_cases same : other = k
        · rw [if_pos same, if_pos (same.trans here), if_pos same]
        · rw [if_neg same, if_neg (here ▸ same), if_neg same]
      · rw [if_neg here, positions_cons, positions_cons, ih]
        by_cases same : other = k
        · rw [if_pos same, if_neg (same ▸ here), if_pos same]
        · rw [if_neg same, if_neg same]

/-- A position that is subscribed to some kinds is added once for each of them. -/
theorem positions_foldl_insert (position : Nat) (other : NodeKind) (kinds : List NodeKind) :
    ∀ table : Subscriptions,
      (kinds.foldl (fun table kind => table.insert position kind) table).positions other =
        if other ∈ kinds then appendNew (table.positions other) position
        else table.positions other := by
  induction kinds with
  | nil => simp
  | cons kind kinds ih =>
      intro table
      rw [List.foldl_cons, ih, positions_insert]
      by_cases same : other = kind <;> by_cases later : other ∈ kinds <;>
        simp [same, later, appendNew_appendNew]

end Subscriptions

/-- A check that can be registered, as far as it goes by itself. -/
structure Check.Registrable (check : Check) : Prop where
  named : isBlankText check.key = false
  subscribed : check.kinds ≠ []

namespace Registry

/-- The registry with one more check. -/
def snoc (registry : Registry) (check : Check) : Registry where
  checks := registry.checks ++ [check]
  table := check.kinds.foldl (fun table kind => table.insert registry.checks.length kind)
    registry.table

theorem any_key_eq_decide (registry : Registry) (check : Check) :
    (registry.checks.any fun c => c.key = check.key) = decide (check.key ∈ registry.keys) := by
  rw [Bool.eq_iff_iff, List.any_eq_true, decide_eq_true_iff, keys, List.mem_map]
  simp only [decide_eq_true_iff]

/-- A check is registered if it is well formed and its key is new. -/
theorem add_eq_ok {registry : Registry} {check : Check} (fine : check.Registrable)
    (fresh : check.key ∉ registry.keys) : registry.add check = .ok (registry.snoc check) := by
  have unused : (registry.checks.any fun c => c.key = check.key) = false := by
    rw [any_key_eq_decide]
    exact decide_eq_false fresh
  have subscribed : check.kinds.isEmpty = false := by
    rw [List.isEmpty_eq_false_iff]
    exact fine.subscribed
  simp only [add, validateName, fine.named, unused, subscribed]
  rfl

/-- Checks that are well formed and have different keys make a registry. -/
theorem foldlM_add_eq_ok (checks : List Check) :
    ∀ {registry : Registry}, (∀ check ∈ checks, check.Registrable) →
      (registry.keys ++ checks.map (·.key)).Nodup →
      checks.foldlM add registry = .ok (checks.foldl snoc registry) := by
  induction checks with
  | nil => exact fun _ _ => rfl
  | cons check checks ih =>
      intro registry fine distinct
      have fresh : check.key ∉ registry.keys := by
        intro member
        rw [List.map_cons, List.nodup_append] at distinct
        exact distinct.2.2 _ member _ List.mem_cons_self rfl
      have next : (snoc registry check).keys = registry.keys ++ [check.key] := by
        simp [keys, snoc]
      rw [List.foldlM_cons, add_eq_ok (fine check List.mem_cons_self) fresh]
      refine ih (fun c member => fine c (List.mem_cons_of_mem _ member)) ?_
      rw [next, List.append_assoc]
      exact distinct

/-- The table lists, for every kind, the checks that name it, in the order of registration. -/
structure Indexed (registry : Registry) : Prop where
  bounded : ∀ kind, ∀ p ∈ registry.table.positions kind, p < registry.checks.length
  subscribers : ∀ kind, registry.subscribers kind =
    registry.checks.filter fun check => kind ∈ check.kinds

theorem indexed_empty : empty.Indexed where
  bounded _ _ absurd := by cases absurd
  subscribers _ := rfl

theorem Indexed.snoc {registry : Registry} (indexed : registry.Indexed) (check : Check) :
    (registry.snoc check).Indexed where
  bounded kind p member := by
    rw [Registry.snoc, Subscriptions.positions_foldl_insert] at member
    rw [Registry.snoc, List.length_append, List.length_singleton]
    split at member
    · rcases mem_appendNew.mp member with member | rfl
      · exact Nat.lt_succ_of_lt (indexed.bounded kind p member)
      · exact Nat.lt_succ_self _
    · exact Nat.lt_succ_of_lt (indexed.bounded kind p member)
  subscribers kind := by
    have old : (registry.table.positions kind).filterMap ((registry.checks ++ [check])[·]?) =
        registry.checks.filter fun check => kind ∈ check.kinds := by
      rw [← indexed.subscribers kind]
      refine List.filterMap_congr ?_
      intro p member
      exact List.getElem?_append_left (indexed.bounded kind p member)
    have fresh : registry.checks.length ∉ registry.table.positions kind := fun member =>
      Nat.lt_irrefl _ (indexed.bounded kind _ member)
    unfold Registry.subscribers Registry.snoc
    simp only [Subscriptions.positions_foldl_insert, List.filter_append]
    by_cases named : kind ∈ check.kinds
    · rw [if_pos named, appendNew, if_neg fresh, List.filterMap_append, old]
      simp [named]
    · rw [if_neg named, old]
      simp [named]

theorem Indexed.foldl_snoc (checks : List Check) :
    ∀ {registry : Registry}, registry.Indexed → (checks.foldl Registry.snoc registry).Indexed := by
  induction checks with
  | nil => exact fun indexed => indexed
  | cons check checks ih => exact fun indexed => ih (indexed.snoc check)

theorem checks_foldl_snoc (checks : List Check) :
    ∀ registry : Registry, (checks.foldl snoc registry).checks = registry.checks ++ checks := by
  induction checks with
  | nil => simp
  | cons check checks ih =>
      intro registry
      rw [List.foldl_cons, ih, snoc, List.append_assoc, List.singleton_append]

/-- A registry of checks that are well formed and have different keys. -/
theorem ofChecks_eq_ok {checks : List Check} (fine : ∀ check ∈ checks, check.Registrable)
    (distinct : (checks.map (·.key)).Nodup) :
    ∃ registry, ofChecks checks = .ok registry ∧ registry.Indexed ∧ registry.checks = checks :=
  ⟨checks.foldl snoc empty, foldlM_add_eq_ok checks fine distinct,
    indexed_empty.foldl_snoc checks, checks_foldl_snoc checks empty⟩

/-- Only a well-formed check with a new key is registered. -/
theorem eq_snoc_of_add {registry grown : Registry} {check : Check}
    (added : registry.add check = .ok grown) :
    check.Registrable ∧ check.key ∉ registry.keys ∧ grown = registry.snoc check := by
  obtain ⟨⟨⟩, named, added⟩ := bind_eq_ok.mp added
  have nonblank : isBlankText check.key = false := by
    by_contra blank
    simp [validateName, blank] at named
  cases taken : registry.checks.any fun c => c.key = check.key with
  | true => simp only [taken, if_true] at added; cases added
  | false =>
      cases silent : check.kinds.isEmpty with
      | true => simp only [taken, silent, if_true] at added; cases added
      | false =>
          simp only [taken, silent, Bool.false_eq_true, if_false] at added
          rw [any_key_eq_decide] at taken
          exact ⟨⟨nonblank, List.isEmpty_eq_false_iff.mp silent⟩, of_decide_eq_false taken,
            (Except.ok.inj added).symm⟩

/-- Checks that make a registry are well formed and have different keys. -/
theorem eq_foldl_snoc_of_foldlM_add (checks : List Check) :
    ∀ {registry grown : Registry}, checks.foldlM add registry = .ok grown →
      registry.keys.Nodup → (∀ check ∈ checks, check.Registrable) ∧
        (registry.keys ++ checks.map (·.key)).Nodup ∧ grown = checks.foldl snoc registry := by
  induction checks with
  | nil =>
      intro registry grown made distinct
      refine ⟨by simp, by simpa using distinct, foldlM_nil_eq_ok.mp made⟩
  | cons check checks ih =>
      intro registry grown made distinct
      obtain ⟨next, added, made⟩ := foldlM_cons_eq_ok.mp made
      obtain ⟨fine, fresh, rfl⟩ := eq_snoc_of_add added
      have keys : (registry.snoc check).keys = registry.keys ++ [check.key] := by
        simp [Registry.keys, snoc]
      have longer : (registry.snoc check).keys.Nodup := by
        rw [keys, ← List.concat_eq_append]
        exact distinct.concat fresh
      obtain ⟨rest, distinct, same⟩ := ih made longer
      refine ⟨List.forall_mem_cons.mpr ⟨fine, rest⟩, ?_, same⟩
      rwa [keys, List.append_assoc] at distinct

/-- What a registry is that was made of some checks. -/
structure MadeOf (registry : Registry) (checks : List Check) : Prop where
  registrable : ∀ check ∈ checks, check.Registrable
  distinct : (checks.map (·.key)).Nodup
  indexed : registry.Indexed
  checks : registry.checks = checks

theorem madeOf_of_ofChecks {registry : Registry} {checks : List Check}
    (made : ofChecks checks = .ok registry) : registry.MadeOf checks := by
  obtain ⟨fine, distinct, rfl⟩ := eq_foldl_snoc_of_foldlM_add checks made List.nodup_nil
  exact ⟨fine, distinct, indexed_empty.foldl_snoc checks, checks_foldl_snoc checks empty⟩

/-- Items that have no part in a concatenation can be left out of it. -/
theorem flatMap_eq_flatMap_filter {α β : Type} {f g : α → List β} {chosen : α → Bool}
    {items : List α} (parts : ∀ a ∈ items, g a = if chosen a then f a else []) :
    items.flatMap g = (items.filter chosen).flatMap f := by
  induction items with
  | nil => rfl
  | cons a items ih =>
      rw [List.flatMap_cons, parts a List.mem_cons_self,
        ih fun b member => parts b (List.mem_cons_of_mem _ member), List.filter_cons]
      split
      · rw [List.flatMap_cons]
      · rfl

/-- A concatenation of parts that have one item or none. -/
theorem flatMap_eq_map_filter {α β : Type} {f : α → List β} {chosen : α → Bool} {g : α → β}
    {items : List α} (parts : ∀ a ∈ items, f a = if chosen a then [g a] else []) :
    items.flatMap f = (items.filter chosen).map g := by
  rw [flatMap_eq_flatMap_filter parts, List.map_eq_flatMap]

section Output

variable {whole part : Registry} (loaded : LoadedUnit) (catalog : Catalog) (maxDepth : Nat)

theorem diagnostics_run (registry : Registry) :
    (registry.run loaded catalog maxDepth).diagnostics =
      (registry.showings loaded catalog maxDepth).flatMap fun showing =>
        showing.diagnostics showing.answer :=
  List.flatMap_map _ _ _

theorem failures_run (registry : Registry) :
    (registry.run loaded catalog maxDepth).failures =
      (registry.showings loaded catalog maxDepth).filterMap fun showing =>
        showing.failure? showing.answer :=
  List.filterMap_map

/-- A registry of some of the checks shows the same nodes, to them alone. -/
theorem showings_filter (wholeIndexed : whole.Indexed) (partIndexed : part.Indexed)
    {chosen : Check → Bool} (checks : part.checks = whole.checks.filter chosen) :
    part.showings loaded catalog maxDepth =
      (whole.showings loaded catalog maxDepth).filter fun showing => chosen showing.check := by
  unfold showings
  rw [List.filter_flatMap]
  refine List.flatMap_congr ?_
  intro placed _
  simp only [List.filter_map, partIndexed.subscribers, wholeIndexed.subscribers, checks,
    List.filter_filter, Function.comp_def, Bool.and_comm]

/-- A registry of the checks with certain keys finds what all checks find under those keys. -/
theorem diagnostics_filter (wholeIndexed : whole.Indexed) (partIndexed : part.Indexed)
    {keep : String → Bool}
    (checks : part.checks = whole.checks.filter fun check => keep check.key) :
    (part.run loaded catalog maxDepth).diagnostics =
      (whole.run loaded catalog maxDepth).diagnostics.filter fun found => keep found.rule := by
  rw [diagnostics_run, diagnostics_run,
    showings_filter loaded catalog maxDepth wholeIndexed partIndexed checks, List.filter_flatMap]
  refine (flatMap_eq_flatMap_filter fun showing _ => ?_).symm
  unfold Showing.diagnostics
  rw [List.filter_map]
  by_cases kept : keep showing.check.key <;> simp [Function.comp_def, kept]

/-- A registry of the checks with certain keys has the failures that all checks have under them. -/
theorem failures_filter (wholeIndexed : whole.Indexed) (partIndexed : part.Indexed)
    {keep : String → Bool}
    (checks : part.checks = whole.checks.filter fun check => keep check.key) :
    (part.run loaded catalog maxDepth).failures =
      (whole.run loaded catalog maxDepth).failures.filter fun failed => keep failed.rule := by
  rw [failures_run, failures_run,
    showings_filter loaded catalog maxDepth wholeIndexed partIndexed checks,
    List.filterMap_filter, List.filter_filterMap]
  refine List.filterMap_congr ?_
  intro showing _
  unfold Showing.failure?
  by_cases kept : keep showing.check.key <;> cases showing.answer.failure <;>
    simp [kept, Option.filter]

/-- Every check of a registry is one that was registered. -/
theorem check_mem_of_showing (indexed : whole.Indexed) {showing : Showing}
    (shown : showing ∈ whole.showings loaded catalog maxDepth) : showing.check ∈ whole.checks := by
  obtain ⟨placed, -, listed⟩ := List.mem_flatMap.mp shown
  obtain ⟨check, subscribed, rfl⟩ := List.mem_map.mp listed
  rw [indexed.subscribers] at subscribed
  exact (List.mem_filter.mp subscribed).1

/-- Where no check ever fails there are no failures. -/
theorem failures_eq_nil (indexed : whole.Indexed)
    (sound : ∀ check ∈ whole.checks, ∀ here node, (check.visit here node).failure = none) :
    (whole.run loaded catalog maxDepth).failures = [] := by
  rw [failures_run]
  refine List.filterMap_eq_nil_iff.mpr ?_
  intro showing shown
  rw [Showing.failure?, Showing.answer,
    sound _ (check_mem_of_showing loaded catalog maxDepth indexed shown)]
  rfl

end Output

end Registry

end BugPatterns
