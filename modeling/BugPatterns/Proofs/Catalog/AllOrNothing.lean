import BugPatterns.Catalog.Builtin
import BugPatterns.Catalog.InPlace
import BugPatterns.Proofs.Catalog.Growth

/-!
# All or nothing

A host changes its catalog in place, and a document that cannot be merged leaves it as it was. What
merging makes of a copy, entry by entry, is what the extension makes (`Catalog.onCopy_merge`), so
from there it is known which documents are accepted and what they leave
(`Catalog.extendInPlace_allOrNothing`).
-/

namespace BugPatterns

namespace CatalogM

theorem start_bind (one two : CatalogM Unit) (catalog : Catalog) :
    (one >>= fun _ => two).start catalog =
      match one.start catalog with
      | (.ok _, next) => two.start next
      | (.error cause, next) => (.error cause, next) := by
  show (match one.start catalog with
    | (outcome, next) => StateT.run (ExceptT.bindCont (fun _ => two) outcome) next) = _
  cases started : one.start catalog with
  | mk outcome next => cases outcome <;> rfl

theorem start_replace (make : Catalog → Except CatalogError Catalog) (catalog : Catalog) :
    (replace make).start catalog =
      match make catalog with
      | .error cause => (.error cause, catalog)
      | .ok made => (.ok (), made) := by
  have started : (replace make).start catalog = (match make catalog with
      | .error cause => throw cause
      | .ok made => set made : CatalogM Unit).start catalog := rfl
  rw [started]
  cases make catalog <;> rfl

theorem onCopy_replace (make : Catalog → Except CatalogError Catalog) :
    (replace make).onCopy = make := by
  funext catalog
  rw [onCopy, start_replace]
  cases make catalog <;> rfl

/-- One change after the other makes of a copy what the second makes of what the first made. -/
theorem onCopy_bind (one two : CatalogM Unit) (catalog : Catalog) :
    (one >>= fun _ => two).onCopy catalog = one.onCopy catalog >>= two.onCopy := by
  simp only [onCopy, start_bind]
  cases one.start catalog with
  | mk outcome next => cases outcome <;> rfl

/-- A check that fails keeps a change from being made. -/
theorem onCopy_check (check : Except CatalogError Unit) (change : CatalogM Unit)
    (catalog : Catalog) : (liftExcept check >>= fun _ => change).onCopy catalog =
      check >>= fun _ => change.onCopy catalog := by
  rw [onCopy, start_bind]
  cases check <;> rfl

/-- Changes for some items, one after the other, fold what they each make. -/
theorem onCopy_forM {α : Type} {change : α → CatalogM Unit}
    {f : Catalog → α → Except CatalogError Catalog}
    (step : ∀ a, (change a).onCopy = (f · a)) (items : List α) :
    (items.forM change).onCopy = fun catalog => items.foldlM f catalog := by
  induction items with
  | nil => rfl
  | cons a items ih =>
      funext catalog
      show (change a >>= fun _ => items.forM change).onCopy catalog = _
      rw [List.foldlM_cons, onCopy_bind, step, ih]

end CatalogM

namespace Catalog

open CatalogM

theorem onCopy_mergeSinks (entry : SinkEntry) :
    (mergeSinks entry).onCopy = (addSinkEntry · entry) := by
  funext catalog
  have folded := onCopy_forM (fun sink => onCopy_replace (addSink · sink)) entry.sinks
  rw [mergeSinks, onCopy_check, folded, addSinkEntry]

theorem onCopy_mergeCalls (entry : CallEntry) :
    (mergeCalls entry).onCopy = (addCallEntry · entry) := by
  funext catalog
  have folded := onCopy_forM (fun call => onCopy_replace (addCall · call)) entry.calls
  rw [mergeCalls, onCopy_check, folded, addCallEntry]

/-- In place, merging a document makes of a copy what the extension makes. -/
theorem onCopy_merge (document : CatalogDocument) :
    (merge document).onCopy = (extend · document) := by
  funext catalog
  have types := onCopy_forM (fun type => onCopy_replace (addConstructor · type))
    document.constructors
  rw [merge, onCopy_bind, onCopy_forM onCopy_mergeSinks, extend]
  congr 1
  funext sunk
  rw [onCopy_bind, onCopy_forM onCopy_mergeCalls, types]

/-- An extension in place fails as that of a copy does, without a trace, or else leaves the copy. -/
theorem start_extendInPlace (text : String) (catalog : Catalog) :
    (extendInPlace text).start catalog =
      match catalog.extendText text with
      | .error cause => (.error cause, catalog)
      | .ok extended => (.ok (), extended) := by
  simp only [extendInPlace, onCopy_merge, start_replace]
  rfl

/-- A catalog that a host can have: the empty one, and what documents made of it. -/
inductive Built : Catalog → Prop
  | empty : Built .empty
  | extended {catalog extended : Catalog} {document : CatalogDocument} (built : Built catalog)
      (accepted : catalog.extend document = .ok extended) : Built extended

/-- No sink and no known call is listed twice. -/
structure Distinct (catalog : Catalog) : Prop where
  sinks : (catalog.sinks.map Sink.pair).Nodup
  calls : (catalog.calls.map KnownCall.pair).Nodup

theorem Built.distinct {catalog : Catalog} (built : catalog.Built) : catalog.Distinct := by
  induction built with
  | empty => exact ⟨.nil, .nil⟩
  | extended _ accepted ih =>
      obtain ⟨-, newSinks, newCalls, rfl⟩ := extend_eq_ok.mp accepted
      constructor
      · have once := (nodup_append_iff_fresh ih.sinks).mpr newSinks
        rwa [← List.map_append] at once
      · have once := (nodup_append_iff_fresh ih.calls).mpr newCalls
        rwa [← List.map_append] at once

theorem built_builtin : Built .builtin := by
  have evaluated : (empty.extend .builtin).toOption.map id = some builtin := by
    rw [toOption_extend_empty_builtin, Option.map_some, id]
  obtain ⟨catalog, accepted, rfl⟩ := exists_ok_of_toOption_map evaluated
  exact .extended .empty accepted

/-- All names of a document are there, and with the catalog it lists no pair twice. -/
structure Accepts (catalog : Catalog) (document : CatalogDocument) : Prop where
  named : document.Named
  sinks : ((catalog.sinks ++ document.allSinks).map Sink.pair).Nodup
  calls : ((catalog.calls ++ document.allCalls).map KnownCall.pair).Nodup

instance (catalog : Catalog) (document : CatalogDocument) : Decidable (catalog.Accepts document) :=
  decidable_of_iff
    (document.Named ∧ ((catalog.sinks ++ document.allSinks).map Sink.pair).Nodup ∧
      ((catalog.calls ++ document.allCalls).map KnownCall.pair).Nodup)
    ⟨fun ⟨named, sinks, calls⟩ => ⟨named, sinks, calls⟩,
      fun accepts => ⟨accepts.named, accepts.sinks, accepts.calls⟩⟩

/-- A catalog without repetitions is extended by exactly the documents that add none. -/
theorem Distinct.extend_eq_ok_iff {catalog extended : Catalog} {document : CatalogDocument}
    (distinct : catalog.Distinct) : catalog.extend document = .ok extended ↔
      catalog.Accepts document ∧ extended = catalog.withDocument document := by
  rw [extend_eq_ok, ← nodup_append_iff_fresh distinct.sinks,
    ← nodup_append_iff_fresh distinct.calls, ← List.map_append, ← List.map_append]
  constructor
  · rintro ⟨named, sinks, calls, same⟩
    exact ⟨⟨named, sinks, calls⟩, same⟩
  · rintro ⟨⟨named, sinks, calls⟩, same⟩
    exact ⟨named, sinks, calls, same⟩

theorem Distinct.extendText_eq_ok_iff {catalog extended : Catalog} {text : String}
    (distinct : catalog.Distinct) : catalog.extendText text = .ok extended ↔
      ∃ document, CatalogDocument.parse text = .ok document ∧ catalog.Accepts document ∧
        extended = catalog.withDocument document := by
  rw [extendText]
  cases CatalogDocument.parse text with
  | error cause => simp
  | ok document => simp [distinct.extend_eq_ok_iff]

/-- The sinks of one method, in the order in which they are tried. -/
def sinksOf (catalog : Catalog) (method : String) : List Sink :=
  catalog.sinks.filter (·.method = method)

/-- The known calls of one method, in the order in which they are tried. -/
def callsOf (catalog : Catalog) (method : String) : List KnownCall :=
  catalog.calls.filter (·.method = method)

/-- A call reaches the first sink of its method that applies. -/
theorem sink?_eq_find?_sinksOf (catalog : Catalog) (model : Model) (receiver : TypeId)
    (method : String) : catalog.sink? model receiver method =
      (catalog.sinksOf method).find? fun sink => typeMatches model receiver sink.owner := by
  simp [sink?, sinksOf, List.find?_filter]

/-- A call is known by the first entry of its method that applies. -/
theorem call?_eq_find?_callsOf (catalog : Catalog) (model : Model) (method : String)
    (type : TypeId) : catalog.call? model method type =
      (catalog.callsOf method).find? fun call => ownerMatches model type call.owner := by
  simp [call?, callsOf, List.find?_filter]

/-- What a catalog is after it took a document. -/
structure Extends (catalog : Catalog) (document : CatalogDocument) (extended : Catalog) : Prop where
  sinkCount : extended.sinkCount = catalog.sinkCount + document.allSinks.length
  sinksOf : ∀ method, catalog.sinksOf method <+: extended.sinksOf method
  callsOf : ∀ method, catalog.callsOf method <+: extended.callsOf method
  constructors : ∀ type, type ∈ extended.constructors ↔
    type ∈ catalog.constructors ∨ type ∈ document.constructors

theorem extends_withDocument (catalog : Catalog) (document : CatalogDocument) :
    catalog.Extends document (catalog.withDocument document) where
  sinkCount := List.length_append
  sinksOf _ := (List.prefix_append _ _).filter _
  callsOf _ := (List.prefix_append _ _).filter _
  constructors _ := mem_foldl_appendNew _

/-- Extending a catalog in place is all or nothing. An extension that fails leaves the catalog as it
    was. One succeeds exactly when its text describes a document that has all its names and lists no
    pair twice, with the catalog or in itself; then the catalog has grown by that document. -/
theorem extendInPlace_allOrNothing {catalog : Catalog} (built : catalog.Built) (text : String) :
    (∀ cause left, (extendInPlace text).start catalog = (.error cause, left) → left = catalog) ∧
    ((∃ left, (extendInPlace text).start catalog = (.ok (), left)) ↔
      ∃ document, CatalogDocument.parse text = .ok document ∧ catalog.Accepts document) ∧
    (∀ document left, CatalogDocument.parse text = .ok document →
      (extendInPlace text).start catalog = (.ok (), left) → catalog.Extends document left) := by
  have accepted {left} : catalog.extendText text = .ok left ↔ _ :=
    built.distinct.extendText_eq_ok_iff
  rw [start_extendInPlace]
  cases outcome : catalog.extendText text with
  | error cause =>
      refine ⟨?_, ?_, ?_⟩
      · rintro _ left ended
        exact (congrArg Prod.snd ended).symm
      · constructor
        · rintro ⟨left, ended⟩
          cases congrArg Prod.fst ended
        · rintro ⟨document, parsed, accepts⟩
          have extended := accepted.mpr ⟨document, parsed, accepts, rfl⟩
          rw [outcome] at extended
          cases extended
      · rintro document left - ended
        cases congrArg Prod.fst ended
  | ok extended =>
      obtain ⟨document, parsed, accepts, rfl⟩ := accepted.mp outcome
      refine ⟨?_, ?_, ?_⟩
      · rintro cause left ended
        cases congrArg Prod.fst ended
      · exact ⟨fun _ => ⟨document, parsed, accepts⟩, fun _ => ⟨_, rfl⟩⟩
      · rintro same left read ended
        obtain rfl := Except.ok.inj (parsed.symm.trans read)
        obtain rfl := congrArg Prod.snd ended
        exact extends_withDocument catalog document

/-- A vendor's method becomes a sink, once: listed twice it is refused, and nothing is added. -/
theorem extendInPlace_allOrNothing_vendor :
    (∃ left, (extendInPlace "[[[\"p.Db\",[\"run\"]]]]").start .builtin = (.ok (), left) ∧
      left.sinkCount = 12 ∧ builtin.sinksOf "execute" <+: left.sinksOf "execute") ∧
    ∃ cause, (extendInPlace "[[[\"p.Db\",[\"run\",\"run\"]]]]").start .builtin =
      (.error cause, .builtin) := by
  have fresh : CatalogDocument.parse "[[[\"p.Db\",[\"run\"]]]]" =
      .ok ⟨[⟨"p.Db", ["run"], none⟩], [], []⟩ := by decide +kernel
  have twice : CatalogDocument.parse "[[[\"p.Db\",[\"run\",\"run\"]]]]" =
      .ok ⟨[⟨"p.Db", ["run", "run"], none⟩], [], []⟩ := by decide +kernel
  constructor
  · obtain ⟨-, accepted, grown⟩ := extendInPlace_allOrNothing built_builtin
      "[[[\"p.Db\",[\"run\"]]]]"
    obtain ⟨left, ended⟩ := accepted.mpr ⟨_, fresh, by decide +kernel⟩
    have grew := grown _ left fresh ended
    exact ⟨left, ended, grew.sinkCount, grew.sinksOf "execute"⟩
  · obtain ⟨unchanged, accepted, -⟩ := extendInPlace_allOrNothing built_builtin
      "[[[\"p.Db\",[\"run\",\"run\"]]]]"
    cases ended : (extendInPlace "[[[\"p.Db\",[\"run\",\"run\"]]]]").start builtin with
    | mk outcome left =>
        cases outcome with
        | ok _ =>
            obtain ⟨document, parsed, accepts⟩ := accepted.mp ⟨left, ended⟩
            obtain rfl := Except.ok.inj (twice.symm.trans parsed)
            exact absurd accepts (by decide +kernel)
        | error cause =>
            obtain rfl := unchanged cause left ended
            exact ⟨cause, rfl⟩

end Catalog

end BugPatterns
