import BugPatterns.Proofs.Check.Isolation
import BugPatterns.Proofs.Regions

/-!
# Checks that look through regions

Some checks are shown the nodes that regions begin at, and look through what lies in each region
(`Check.ReadsRegions`). Regions do not overlap, so what such a check finds in a pass is what is read
off all nodes of the unit, each under the closest mark above it (`Registry.perm_findings`): no node
is looked at twice, and none is missed that lies below a mark.
-/

namespace BugPatterns

section Placed

variable {β γ : Type} (mark : Node Site → Option β) (read : β → Node Site → List γ)

namespace LoadedUnit

/-- What is read off the nodes of a unit, each under the closest of the marks above it. -/
def readPlaced (loaded : LoadedUnit) : List γ :=
  loaded.lineages.flatMap fun (above, n) => (above.findSome? mark).toList.flatMap (read · n)

variable {loaded : LoadedUnit} {mark read}

theorem mem_readPlaced {c : γ} : c ∈ loaded.readPlaced mark read ↔
    ∃ above n b, (above, n) ∈ loaded.lineages ∧ above.findSome? mark = some b ∧ c ∈ read b n := by
  simp only [readPlaced, List.mem_flatMap, Option.mem_toList]
  constructor
  · rintro ⟨⟨above, n⟩, placed, b, marked, member⟩
    exact ⟨above, n, b, placed, marked, member⟩
  · rintro ⟨above, n, b, placed, marked, member⟩
    exact ⟨(above, n), placed, b, marked, member⟩

/-- Read under the closest marks, or region by region: each node is met once. -/
theorem perm_regions (silent : ∀ b n, (mark n).isSome → read b n = []) :
    (loaded.readPlaced mark read).Perm (loaded.nodes.flatMap (Node.readMarked mark read)) := by
  have regions := Node.perm_regions silent (.unit loaded.unit)
  have marks := Tree.underScopes_filterMap mark (Node.unit loaded.unit).tree []
  rw [List.filterMap_nil] at marks
  rw [marks, List.flatMap_map] at regions
  simp only [Node.readPlaced, List.head?_filterMap] at regions
  exact regions

/-- The closest mark above a node is that of the node whose region it lies in. -/
theorem nearest_iff {n : Node Site} (unmarked : mark n = none) {b : β} :
    (∃ above, (above, n) ∈ loaded.lineages ∧ above.findSome? mark = some b) ↔
      ∃ root ∈ loaded.nodes, mark root = some b ∧
        n ∈ root.tree.within fun m => (mark m).isNone := by
  let read (b : β) (m : Node Site) : List (β × Node Site) :=
    if (mark m).isSome then [] else [(b, m)]
  have regions := (@perm_regions _ _ mark read loaded fun b m marked => if_pos marked).mem_iff
    (a := (b, n))
  have read_iff {d : β} {m : Node Site} : (b, n) ∈ read d m ↔ b = d ∧ n = m := by
    cases marked : mark m with
    | none => simp [read, marked]
    | some _ =>
        have apart : n ≠ m := by
          rintro rfl
          rw [unmarked] at marked
          cases marked
        simp [read, marked, apart]
  simp only [mem_readPlaced, List.mem_flatMap, Node.readMarked, Node.readRegion, Option.mem_toList,
    read_iff] at regions
  constructor
  · rintro ⟨above, placed, nearest⟩
    obtain ⟨root, listed, _, marked, _, own, rfl, rfl⟩ :=
      regions.mp ⟨above, n, b, placed, nearest, rfl, rfl⟩
    exact ⟨root, listed, marked, own⟩
  · rintro ⟨root, listed, marked, own⟩
    obtain ⟨above, _, _, placed, nearest, rfl, rfl⟩ :=
      regions.mpr ⟨root, listed, b, marked, n, own, rfl, rfl⟩
    exact ⟨above, placed, nearest⟩

end LoadedUnit

/-- Read off nodes that differ, nothing comes twice. -/
theorem nodup_flatMap_of_differ {ι : Type} {node : ι → Node Site} {expr : γ → Expr Site}
    {items : List ι} {read : ι → List γ} (differ : (items.map node).Nodup)
    (once : ∀ i, ((read i).map expr).Nodup)
    (placed : ∀ i, ∀ c ∈ read i, node i = .expr (expr c)) :
    ((items.flatMap read).map expr).Nodup := by
  rw [List.map_flatMap, List.nodup_flatMap]
  refine ⟨fun i _ => once i, (List.pairwise_map.mp differ).imp ?_⟩
  intro i j apart e here there
  obtain ⟨c, readHere, rfl⟩ := List.mem_map.mp here
  obtain ⟨d, readThere, same⟩ := List.mem_map.mp there
  refine apart ((placed i c readHere).trans ?_)
  rw [← same, placed j d readThere]

section Once

variable {mark read} {loaded : LoadedUnit} (coherent : loaded.Coherent) {expr : γ → Expr Site}
  (once : ∀ b n, ((read b n).map expr).Nodup)
  (placed : ∀ b n, ∀ c ∈ read b n, n = .expr (expr c))

include once placed

theorem nodup_bind_mark (found : Option β) (n : Node Site) :
    ((found.toList.flatMap (read · n)).map expr).Nodup ∧
      ∀ c ∈ found.toList.flatMap (read · n), n = .expr (expr c) := by
  cases found with
  | none => exact ⟨.nil, fun _ absurd => by cases absurd⟩
  | some b =>
      rw [Option.toList_some, List.flatMap_singleton]
      exact ⟨once b n, placed b n⟩

include coherent

/-- No expression of a unit is read twice. -/
theorem LoadedUnit.nodup_readPlaced : ((loaded.readPlaced mark read).map expr).Nodup := by
  have distinct : (loaded.lineages.map Prod.snd).Nodup := by
    rw [LoadedUnit.map_snd_lineages]
    exact coherent.nodup_numbers.of_map _
  refine nodup_flatMap_of_differ distinct ?_ ?_
  · exact fun (above, n) => (nodup_bind_mark once placed (above.findSome? mark) n).1
  · exact fun (above, n) => (nodup_bind_mark once placed (above.findSome? mark) n).2

/-- No expression of a region is read twice. -/
theorem Node.nodup_readMarked {n : Node Site} (listed : n ∈ loaded.nodes) :
    ((n.readMarked mark read).map expr).Nodup := by
  unfold Node.readMarked
  cases mark n with
  | none => exact .nil
  | some b =>
      rw [Option.toList_some, List.flatMap_singleton]
      have distinct := (coherent.nodup_numbers_below listed).of_map _
      refine nodup_flatMap_of_differ ?_ (once b) (placed b)
      rw [List.map_id']
      exact distinct.sublist (Tree.within_sublist_preorder _ _)

end Once

/-- Shown a node of its kinds, a check reports what it reads off the region of the node; where no
    region begins, or one of a kind that it is not shown, there is nothing to report. -/
def Check.ReadsRegions (check : Check) (loaded : LoadedUnit) (report : γ → Report) : Prop :=
  ∀ here : Surroundings, here.loaded = loaded → ∀ n : Node Site,
    (if n.kind ∈ check.kinds then (check.visit here n).reports else []) =
      (n.readMarked mark read).map report

end Placed

/-- A report of a check as it comes up in a pass. -/
def Check.finding (check : Check) (loaded : LoadedUnit) (report : Report) : Diagnostic :=
  ⟨check.key, check.severity, loaded.file, report.span, report.kind, report.message⟩

namespace Registry

variable {β γ : Type} {mark : Node Site → Option β} {read : β → Node Site → List γ}
  {report : γ → Report} {loaded : LoadedUnit} {check : Check} {checks : List Check}
  {registry : Registry} (whole : registry.MadeOf checks) (listed : check ∈ checks)
  (reads : check.ReadsRegions mark read loaded report) (catalog : Catalog) (maxDepth : Nat)

include whole listed reads

/-- What a check answers in a pass, region by region. -/
theorem findings_by_region :
    (registry.run loaded catalog maxDepth).diagnostics.filter
        (fun found => found.rule = check.key) =
      (loaded.nodes.flatMap (Node.readMarked mark read)).map
        fun c => check.finding loaded (report c) := by
  rw [whole.diagnostics_of_key loaded catalog maxDepth listed, Check.answers, List.flatMap_map,
    List.map_flatMap, ← LoadedUnit.map_snd_scopedNodes, List.flatMap_map]
  let chosen (placed : List Scope × Node Site) : Bool := placed.2.kind ∈ check.kinds
  refine (@flatMap_eq_flatMap_filter _ _ _ _ chosen _ fun placed _ => ?_).symm
  have reports := reads ⟨loaded, catalog, maxDepth, placed.1⟩ rfl placed.2
  have findings := congrArg (List.map (check.finding loaded)) reports
  rw [List.map_map] at findings
  refine findings.symm.trans ?_
  simp only [chosen, decide_eq_true_eq]
  split <;> rfl

/-- What comes up under the key of a check is what is read off all nodes under the closest marks
    above them. -/
theorem perm_findings (silent : ∀ b n, (mark n).isSome → read b n = []) :
    ((registry.run loaded catalog maxDepth).diagnostics.filter
        (fun found => found.rule = check.key)).Perm
      ((loaded.readPlaced mark read).map fun c => check.finding loaded (report c)) := by
  rw [findings_by_region whole listed reads catalog maxDepth]
  exact ((LoadedUnit.perm_regions silent).map _).symm

/-- Whenever the check is shown a node, it reports what it reads off the region of that node. -/
theorem reports_of_showing {showing : Showing}
    (shown : showing ∈ registry.showings loaded catalog maxDepth)
    (key : showing.check.key = check.key) :
    showing.node ∈ loaded.nodes ∧
      showing.answer.reports = (showing.node.readMarked mark read).map report := by
  obtain ⟨⟨scopes, n⟩, met, subscribed⟩ := List.mem_flatMap.mp shown
  obtain ⟨found, subscribes, rfl⟩ := List.mem_map.mp subscribed
  rw [whole.indexed.subscribers, whole.checks, List.mem_filter, decide_eq_true_iff] at subscribes
  obtain rfl : found = check := List.inj_on_of_nodup_map whole.distinct subscribes.1 listed key
  have reports := reads ⟨loaded, catalog, maxDepth, scopes⟩ rfl n
  rw [if_pos subscribes.2] at reports
  exact ⟨LoadedUnit.mem_nodes_of_scoped met, reports⟩

end Registry

end BugPatterns
