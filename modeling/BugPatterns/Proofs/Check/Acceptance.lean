import BugPatterns.Proofs.Check.Registry

/-!
# Which checks make a registry

Checks make a registry exactly if each has a key that is not blank and names a kind, and no two have
the same key. Else the first check is told that cannot follow those before it, and one thing that is
wrong with it (`Registry.Refused`). A registry shows nodes of a kind to the checks that name it,
each once, in the order of registration (`Registry.ofChecks_exact`).
-/

namespace BugPatterns

namespace Registry

/-- Each check is well formed, and their keys are all different. -/
structure Valid (checks : List Check) : Prop where
  registrable : ∀ check ∈ checks, check.Registrable
  distinct : (checks.map (·.key)).Nodup

/-- What is wrong with a check that follows some others. A blank key counts before a key that one of
    them has, and that before a lack of kinds. -/
inductive Refused (before : List Check) (check : Check) : RegistryError → Prop where
  | blank (blank : isBlankText check.key = true) :
      Refused before check (.invalidName kindName check.key)
  | taken (named : isBlankText check.key = false) (taken : check.key ∈ before.map (·.key)) :
      Refused before check (.alreadyExists kindName check.key)
  | silent (named : isBlankText check.key = false) (fresh : check.key ∉ before.map (·.key))
      (silent : check.kinds = []) :
      Refused before check (.noSubscriptions kindName check.key)

/-- There is at most one thing that a check is refused for. -/
theorem Refused.unique {before : List Check} {check : Check} {error other : RegistryError}
    (first : Refused before check error) (second : Refused before check other) : error = other := by
  cases first <;> cases second <;> first | rfl | simp_all

theorem valid_iff_exists {checks : List Check} :
    Valid checks ↔ ∃ registry, ofChecks checks = .ok registry := by
  constructor
  · rintro ⟨registrable, distinct⟩
    obtain ⟨registry, made, -⟩ := ofChecks_eq_ok registrable distinct
    exact ⟨registry, made⟩
  · rintro ⟨registry, made⟩
    obtain ⟨registrable, distinct, -, -⟩ := madeOf_of_ofChecks made
    exact ⟨registrable, distinct⟩

/-- A check is added unless something is wrong with it, which is told then. -/
theorem add_eq_error {registry : Registry} {check : Check} {error : RegistryError} :
    registry.add check = .error error ↔ Refused registry.checks check error := by
  -- Whatever is wrong with a check, it is the one thing that it can be refused for.
  have settled {told : RegistryError} (refusal : Refused registry.checks check told)
      (added : registry.add check = .error told) :
      registry.add check = .error error ↔ Refused registry.checks check error := by
    rw [added, Except.error.injEq]
    exact ⟨fun same => same ▸ refusal, fun also => refusal.unique also⟩
  cases blank : isBlankText check.key with
  | true =>
      refine settled (.blank blank) ?_
      simp only [add, validateName, blank]
      rfl
  | false =>
      by_cases taken : check.key ∈ registry.keys
      · refine settled (.taken blank taken) ?_
        simp only [add, validateName, blank, any_key_eq_decide, taken]
        rfl
      · by_cases silent : check.kinds = []
        · refine settled (.silent blank taken silent) ?_
          simp only [add, validateName, blank, any_key_eq_decide, taken, silent]
          rfl
        · rw [add_eq_ok ⟨blank, silent⟩ taken]
          refine iff_of_false (fun made => by cases made) fun refusal => ?_
          cases refusal with
          | blank also => cases blank.symm.trans also
          | taken _ also => exact taken also
          | silent _ _ also => exact silent also

theorem ofChecks_eq_error {checks : List Check} {error : RegistryError} :
    ofChecks checks = .error error ↔ ∃ before check after,
      checks = before ++ check :: after ∧ Valid before ∧ Refused before check error := by
  rw [ofChecks, foldlM_eq_error]
  constructor
  · rintro ⟨before, check, after, registry, split, made, refused⟩
    have same := (madeOf_of_ofChecks made).checks
    exact ⟨before, check, after, split, valid_iff_exists.mpr ⟨registry, made⟩,
      same ▸ add_eq_error.mp refused⟩
  · rintro ⟨before, check, after, split, valid, refused⟩
    obtain ⟨registry, made⟩ := valid_iff_exists.mp valid
    have same := (madeOf_of_ofChecks made).checks
    exact ⟨before, check, after, registry, split, made, add_eq_error.mpr (same ▸ refused)⟩

/-- Checks make a registry exactly if they are valid. Else they are refused for the first of them
    that cannot follow those before it. A registry has the keys of all its checks in their order,
    and a kind has as subscribers the checks that name it, in the same order, each once. -/
theorem ofChecks_exact (checks : List Check) :
    ((∃ registry, ofChecks checks = .ok registry) ↔ Valid checks) ∧
    (∀ error, ofChecks checks = .error error ↔ ∃ before check after,
      checks = before ++ check :: after ∧ Valid before ∧ Refused before check error) ∧
    ∀ registry, ofChecks checks = .ok registry →
      registry.keys = checks.map (·.key) ∧
      ∀ kind, (registry.subscribers kind).map (·.key) =
          (checks.filter fun check => kind ∈ check.kinds).map (·.key) ∧
        ((registry.subscribers kind).map (·.key)).Nodup := by
  refine ⟨valid_iff_exists.symm, fun error => ofChecks_eq_error, fun registry made => ?_⟩
  obtain ⟨-, distinct, indexed, rfl⟩ := madeOf_of_ofChecks made
  refine ⟨rfl, fun kind => ?_⟩
  rw [indexed.subscribers]
  exact ⟨rfl, distinct.sublist (List.filter_sublist.map _)⟩

end Registry

/-- A check that says nothing about the nodes of the kinds that it names. -/
def Check.quiet (key : String) (kinds : List NodeKind) : Check where
  key := key
  title := "quiet"
  severity := .minor
  tags := []
  kinds := kinds
  visit _ _ := .nothing

namespace Registry

/-- A check that has the key of another one is refused for that, though it names no kind either,
    and though a check with a blank key comes after it. A check that names a kind twice is shown its
    nodes once. -/
theorem ofChecks_exact_quiet :
    ofChecks [.quiet "X1" [.method], .quiet "X1" [], .quiet " " []] =
      .error (.alreadyExists "check" "X1") ∧
    ∃ registry,
      ofChecks [.quiet "X1" [.method], .quiet "X2" [.block, .method, .method]] = .ok registry ∧
      registry.keys = ["X1", "X2"] ∧ (registry.subscribers .method).map (·.key) = ["X1", "X2"] := by
  constructor
  · have valid : Valid [.quiet "X1" [.method]] :=
      ⟨List.forall_mem_singleton.mpr ⟨by decide, by decide⟩, by decide⟩
    exact ((ofChecks_exact _).2.1 _).mpr
      ⟨[.quiet "X1" [.method]], .quiet "X1" [], [.quiet " " []], rfl, valid,
        .taken (by decide) (by decide)⟩
  · have valid : Valid [.quiet "X1" [.method], .quiet "X2" [.block, .method, .method]] :=
      ⟨List.forall_mem_cons.mpr ⟨⟨by decide, by decide⟩,
        List.forall_mem_singleton.mpr ⟨by decide, by decide⟩⟩, by decide⟩
    obtain ⟨registry, made⟩ := (ofChecks_exact _).1.mpr valid
    obtain ⟨keys, subscribers⟩ := (ofChecks_exact _).2.2 registry made
    exact ⟨registry, made, keys, (subscribers .method).1⟩

end Registry

end BugPatterns
