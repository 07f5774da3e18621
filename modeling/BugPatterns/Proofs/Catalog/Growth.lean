import BugPatterns.Catalog.Document
import BugPatterns.Proofs.Except
import BugPatterns.Proofs.InsertionOrder

/-!
# Which documents a catalog accepts

A list of a catalog grows at its end, and it may hold no key twice: not the pair of owner and method
of a sink, nor that of a known call. A step that adds some items goes through when their keys are
new (`Listing.Admits`), and so does any number of such steps (`Listing.Admits.foldlM`). So a
document is accepted when all its names are there and none of its pairs is taken, and then its items
follow those of the catalog (`Catalog.extend_eq_ok`).
-/

namespace BugPatterns

/-- None of the new keys is listed, and none of them comes twice. -/
def Fresh {κ : Type} (listed new : List κ) : Prop :=
  new.Nodup ∧ ∀ key ∈ new, key ∉ listed

section Fresh

variable {κ : Type} {listed first rest : List κ}

theorem fresh_nil : Fresh listed [] := ⟨.nil, by simp⟩

theorem fresh_singleton {key : κ} : Fresh listed [key] ↔ key ∉ listed := by
  simp [Fresh]

/-- Keys are new when the first of them are, and the rest are new after these. -/
theorem fresh_append :
    Fresh listed (first ++ rest) ↔ Fresh listed first ∧ Fresh (listed ++ first) rest := by
  simp only [Fresh, List.nodup_append, List.mem_append, not_or]
  constructor
  · rintro ⟨⟨nodup, nodupRest, apart⟩, unlisted⟩
    exact ⟨⟨nodup, fun key member => unlisted key (.inl member)⟩, nodupRest,
      fun key member => ⟨unlisted key (.inr member),
        fun taken => apart key taken key member rfl⟩⟩
  · rintro ⟨⟨nodup, unlisted⟩, nodupRest, unlistedRest⟩
    refine ⟨⟨nodup, nodupRest, ?_⟩, ?_⟩
    · rintro key taken _ member rfl
      exact (unlistedRest key member).2 taken
    · rintro key (member | member)
      · exact unlisted key member
      · exact (unlistedRest key member).1

/-- Where nothing is listed twice, keys are new just when nothing is listed twice with them. -/
theorem nodup_append_iff_fresh (once : listed.Nodup) :
    (listed ++ first).Nodup ↔ Fresh listed first := by
  rw [List.nodup_append, Fresh]
  constructor
  · rintro ⟨-, nodup, apart⟩
    exact ⟨nodup, fun key member taken => apart key taken key member rfl⟩
  · rintro ⟨nodup, unlisted⟩
    refine ⟨once, nodup, ?_⟩
    rintro key taken _ member rfl
    exact unlisted key member taken

end Fresh

/-- A list of a catalog: how items are added at its end, and the keys that it holds. -/
structure Listing (ι κ : Type) where
  add : Catalog → List ι → Catalog
  listed : Catalog → List κ
  keys : ι → List κ
  add_nil : ∀ catalog, add catalog [] = catalog
  add_add : ∀ catalog items more, add (add catalog items) more = add catalog (items ++ more)
  listed_add : ∀ catalog items, listed (add catalog items) = listed catalog ++ items.flatMap keys

namespace Listing

variable {ι κ α : Type} {listing : Listing ι κ} {f : Catalog → α → Except CatalogError Catalog}
  {fine : α → Prop} {items : α → List ι}

/-- A step goes through when what it adds is fine and has new keys, and then it adds just that. -/
def Admits (listing : Listing ι κ) (f : Catalog → α → Except CatalogError Catalog)
    (fine : α → Prop) (items : α → List ι) : Prop :=
  ∀ {catalog a extended}, f catalog a = .ok extended ↔
    fine a ∧ Fresh (listing.listed catalog) ((items a).flatMap listing.keys) ∧
      extended = listing.add catalog (items a)

/-- Steps that each admit what is new admit it together. -/
theorem Admits.foldlM (step : listing.Admits f fine items) {as : List α} :
    ∀ {catalog extended}, as.foldlM f catalog = .ok extended ↔
      (∀ a ∈ as, fine a) ∧
      Fresh (listing.listed catalog) ((as.flatMap items).flatMap listing.keys) ∧
      extended = listing.add catalog (as.flatMap items) := by
  induction as with
  | nil =>
      intro catalog extended
      rw [foldlM_nil_eq_ok, List.flatMap_nil, listing.add_nil]
      simp [fresh_nil]
  | cons a as ih =>
      intro catalog extended
      simp only [foldlM_cons_eq_ok, List.forall_mem_cons, List.flatMap_cons, List.flatMap_append,
        fresh_append]
      constructor
      · rintro ⟨next, first, rest⟩
        obtain ⟨one, new, rfl⟩ := step.mp first
        obtain ⟨all, newRest, rfl⟩ := ih.mp rest
        rw [listing.listed_add] at newRest
        exact ⟨⟨one, all⟩, ⟨new, newRest⟩, listing.add_add ..⟩
      · rintro ⟨⟨one, all⟩, ⟨new, newRest⟩, rfl⟩
        refine ⟨_, step.mpr ⟨one, new, rfl⟩, ih.mpr ⟨all, ?_, (listing.add_add ..).symm⟩⟩
        rwa [listing.listed_add]

end Listing

/-- The pair that may be listed once. -/
def Sink.pair (sink : Sink) : String × String := (sink.owner, sink.method)

/-- The pair that may be listed once. -/
def KnownCall.pair (call : KnownCall) : String × String := (call.owner, call.method)

namespace CatalogDocument

/-- An entry has a type, and its methods have names. -/
def NamedEntry (type : String) (methods : List String) : Prop :=
  isBlankText type = false ∧ ∀ method ∈ methods, isBlankText method = false

instance (type : String) (methods : List String) : Decidable (NamedEntry type methods) :=
  inferInstanceAs (Decidable (_ ∧ _))

/-- Everything that a document lists has a name. -/
structure Named (document : CatalogDocument) : Prop where
  sinks : ∀ entry ∈ document.sinks, NamedEntry entry.type entry.methods
  calls : ∀ entry ∈ document.calls, NamedEntry entry.type entry.methods
  constructors : ∀ type ∈ document.constructors, isBlankText type = false

instance (document : CatalogDocument) : Decidable document.Named :=
  decidable_of_iff
    ((∀ entry ∈ document.sinks, NamedEntry entry.type entry.methods) ∧
      (∀ entry ∈ document.calls, NamedEntry entry.type entry.methods) ∧
      ∀ type ∈ document.constructors, isBlankText type = false)
    ⟨fun ⟨sinks, calls, types⟩ => ⟨sinks, calls, types⟩,
      fun named => ⟨named.sinks, named.calls, named.constructors⟩⟩

/-- The sinks of all entries. -/
def allSinks (document : CatalogDocument) : List Sink :=
  document.sinks.flatMap SinkEntry.sinks

/-- The known calls of all entries. -/
def allCalls (document : CatalogDocument) : List KnownCall :=
  document.calls.flatMap CallEntry.calls

end CatalogDocument

namespace Catalog

/-- The catalog with some more sinks. -/
def withSinks (catalog : Catalog) (added : List Sink) : Catalog :=
  { catalog with sinks := catalog.sinks ++ added }

/-- The catalog with some more known calls. -/
def withCalls (catalog : Catalog) (added : List KnownCall) : Catalog :=
  { catalog with calls := catalog.calls ++ added }

/-- The catalog with some more constructors, each listed once. -/
def withConstructors (catalog : Catalog) (added : List String) : Catalog :=
  { catalog with constructors := added.foldl appendNew catalog.constructors }

/-- The catalog with all that a document lists. -/
def withDocument (catalog : Catalog) (document : CatalogDocument) : Catalog :=
  ((catalog.withSinks document.allSinks).withCalls document.allCalls).withConstructors
    document.constructors

/-- The sinks, told apart by their pairs. -/
def sinkListing : Listing Sink (String × String) where
  add := withSinks
  listed catalog := catalog.sinks.map Sink.pair
  keys sink := [sink.pair]
  add_nil catalog := by simp [withSinks]
  add_add catalog items more := by simp [withSinks]
  listed_add catalog items := by simp [withSinks, List.map_eq_flatMap]

/-- The known calls, told apart by their pairs. -/
def callListing : Listing KnownCall (String × String) where
  add := withCalls
  listed catalog := catalog.calls.map KnownCall.pair
  keys call := [call.pair]
  add_nil catalog := by simp [withCalls]
  add_add catalog items more := by simp [withCalls]
  listed_add catalog items := by simp [withCalls, List.map_eq_flatMap]

/-- The constructors, which have no keys: one that is there may come again. -/
def constructorListing : Listing String Empty where
  add := withConstructors
  listed _ := []
  keys _ := []
  add_nil catalog := rfl
  add_add catalog items more := by simp [withConstructors]
  listed_add catalog items := by simp

theorem flatMap_sinkKeys (sinks : List Sink) :
    sinks.flatMap sinkListing.keys = sinks.map Sink.pair := List.map_eq_flatMap.symm

theorem flatMap_callKeys (calls : List KnownCall) :
    calls.flatMap callListing.keys = calls.map KnownCall.pair := List.map_eq_flatMap.symm

theorem flatMap_constructorKeys (types : List String) :
    types.flatMap constructorListing.keys = [] := List.flatMap_eq_nil_iff.mpr fun _ _ => rfl

theorem checkNames_eq_ok {kind : EntryKind} {type : String} {methods : List String} {done : Unit} :
    checkNames kind type methods = .ok done ↔ CatalogDocument.NamedEntry type methods := by
  unfold checkNames CatalogDocument.NamedEntry
  rw [ite_error_eq_ok]
  simp

theorem admits_addSink : sinkListing.Admits addSink (fun _ => True) ([·]) := by
  intro catalog sink extended
  have taken : (catalog.sinks.any fun s => s.method = sink.method && s.owner = sink.owner) ↔
      sink.pair ∈ catalog.sinks.map Sink.pair := by
    simp [Sink.pair, and_comm]
  rw [addSink, ite_error_eq_ok, taken, true_and]
  exact and_congr_left fun _ => fresh_singleton.symm

theorem admits_addCall : callListing.Admits addCall (fun _ => True) ([·]) := by
  intro catalog call extended
  have taken : (catalog.calls.any fun c => c.method = call.method && c.owner = call.owner) ↔
      call.pair ∈ catalog.calls.map KnownCall.pair := by
    simp [KnownCall.pair, and_comm]
  rw [addCall, ite_error_eq_ok, taken, true_and]
  exact and_congr_left fun _ => fresh_singleton.symm

theorem admits_addConstructor :
    constructorListing.Admits addConstructor (isBlankText · = false) ([·]) := by
  intro catalog type extended
  rw [addConstructor, ite_error_eq_ok, Bool.not_eq_true]
  exact and_congr_right fun _ => (and_iff_right fresh_nil).symm

/-- The items of an entry are added once its names are checked. -/
theorem admits_entry {ι κ α : Type} {listing : Listing ι κ} {kind : EntryKind}
    {f : Catalog → ι → Except CatalogError Catalog} {type : α → String}
    {methods : α → List String} {items : α → List ι}
    (step : listing.Admits f (fun _ => True) ([·])) :
    listing.Admits (fun catalog entry => do
        checkNames kind (type entry) (methods entry)
        (items entry).foldlM f catalog)
      (fun entry => CatalogDocument.NamedEntry (type entry) (methods entry)) items := by
  intro catalog entry extended
  simp only [bind_eq_ok, checkNames_eq_ok, step.foldlM, List.flatMap_singleton']
  simp

theorem admits_addSinkEntry : sinkListing.Admits addSinkEntry
    (fun entry => CatalogDocument.NamedEntry entry.type entry.methods) SinkEntry.sinks :=
  admits_entry admits_addSink

theorem admits_addCallEntry : callListing.Admits addCallEntry
    (fun entry => CatalogDocument.NamedEntry entry.type entry.methods) CallEntry.calls :=
  admits_entry admits_addCall

/-- A document is accepted when everything in it has a name and none of its pairs is taken, and then
    all that it lists is added. -/
theorem extend_eq_ok {catalog extended : Catalog} {document : CatalogDocument} :
    catalog.extend document = .ok extended ↔
      document.Named ∧
      Fresh (catalog.sinks.map Sink.pair) (document.allSinks.map Sink.pair) ∧
      Fresh (catalog.calls.map KnownCall.pair) (document.allCalls.map KnownCall.pair) ∧
      extended = catalog.withDocument document := by
  simp only [extend, bind_eq_ok, admits_addSinkEntry.foldlM, admits_addCallEntry.foldlM,
    admits_addConstructor.foldlM, flatMap_sinkKeys, flatMap_callKeys, flatMap_constructorKeys]
  constructor
  · rintro ⟨_, ⟨sinks, newSinks, rfl⟩, _, ⟨calls, newCalls, rfl⟩, types, -, rfl⟩
    exact ⟨⟨sinks, calls, types⟩, newSinks, newCalls, by rw [List.flatMap_singleton']; rfl⟩
  · rintro ⟨named, newSinks, newCalls, rfl⟩
    refine ⟨_, ⟨named.sinks, newSinks, rfl⟩, _, ⟨named.calls, newCalls, rfl⟩,
      named.constructors, fresh_nil, ?_⟩
    rw [List.flatMap_singleton']
    rfl

end Catalog

end BugPatterns
