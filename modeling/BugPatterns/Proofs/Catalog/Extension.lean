import BugPatterns.Proofs.Catalog.Growth

/-!
# Extended catalogs

An accepted extension adds entries after those that are there. So the sink that a call reaches stays
the sink it reaches, whatever sinks are added (`Catalog.sink?_of_withSinks`), and constructors that
are known stay known (`Catalog.constructors_subset`).
-/

namespace BugPatterns.Catalog

/-- A document of sinks alone adds just these. -/
theorem withSinks_of_extend {catalog extended : Catalog} {document : CatalogDocument}
    (noCalls : document.calls = []) (noConstructors : document.constructors = [])
    (accepted : catalog.extend document = .ok extended) :
    extended = catalog.withSinks document.allSinks := by
  obtain ⟨-, -, -, rfl⟩ := extend_eq_ok.mp accepted
  rw [withDocument, CatalogDocument.allCalls, noCalls, noConstructors]
  exact callListing.add_nil (catalog.withSinks document.allSinks)

/-- A document of constructors alone adds just these. -/
theorem withConstructors_of_extend {catalog extended : Catalog} {document : CatalogDocument}
    (noSinks : document.sinks = []) (noCalls : document.calls = [])
    (accepted : catalog.extend document = .ok extended) :
    extended = catalog.withConstructors document.constructors := by
  obtain ⟨-, -, -, rfl⟩ := extend_eq_ok.mp accepted
  have sinks : catalog.withSinks [] = catalog := sinkListing.add_nil catalog
  have calls : catalog.withCalls [] = catalog := callListing.add_nil catalog
  rw [withDocument, CatalogDocument.allSinks, CatalogDocument.allCalls, noSinks, noCalls,
    List.flatMap_nil, List.flatMap_nil, sinks, calls]

theorem constructors_subset (catalog : Catalog) (added : List String) :
    catalog.constructors ⊆ (catalog.withConstructors added).constructors :=
  fun _ listed => (mem_foldl_appendNew added).mpr (.inl listed)

/-- The first sink that applies to a call still comes first. -/
theorem sink?_of_withSinks {catalog : Catalog} {model : Model} {receiver : TypeId}
    {method : String} {sink : Sink} (reached : catalog.sink? model receiver method = some sink)
    (added : List Sink) : (catalog.withSinks added).sink? model receiver method = some sink := by
  have before : catalog.sinks.find? (fun sink =>
      sink.method = method && typeMatches model receiver sink.owner) = some sink := reached
  simp only [sink?, withSinks]
  rw [List.find?_append, before, Option.some_or]

end BugPatterns.Catalog
