import BugPatterns.Catalog.Document

/-!
# The built-in catalog

The query methods and text classes of the standard libraries. It is given as a document, so that it
obeys the rules that every extension obeys.
-/

namespace BugPatterns

/-- The entries of the built-in catalog. -/
def CatalogDocument.builtin : CatalogDocument where
  sinks := [
    ⟨"java.sql.Statement",
      ["executeQuery", "execute", "executeUpdate", "executeLargeUpdate", "addBatch"], none⟩,
    ⟨"java.sql.Connection", ["prepareStatement", "prepareCall"], none⟩,
    ⟨"org.hibernate.Session", ["createQuery", "createSQLQuery"],
      some "Use Hibernate's parameter binding instead of concatenation."⟩,
    ⟨"javax.persistence.EntityManager", ["createQuery", "createNativeQuery"],
      some "Use JPA's parameter binding instead of concatenation."⟩]
  calls := [
    ⟨"java.lang.Class", ["getName", "getSimpleName", "getCanonicalName", "getTypeName"], .safe⟩,
    ⟨"java.lang.Enum", ["name"], .safe⟩,
    ⟨"java.lang.Integer", ["toString"], .safe⟩,
    ⟨"java.lang.Long", ["toString"], .safe⟩,
    ⟨"java.lang.String",
      ["trim", "strip", "toUpperCase", "toLowerCase", "concat", "substring", "replace", "format",
        "valueOf", "intern", "toString"], .propagate⟩,
    ⟨"java.lang.StringBuilder", ["toString"], .propagate⟩,
    ⟨"java.lang.StringBuffer", ["toString"], .propagate⟩,
    ⟨"java.lang.StringBuilder", ["append", "insert"], .mutate⟩,
    ⟨"java.lang.StringBuffer", ["append", "insert"], .mutate⟩]
  constructors := ["java.lang.StringBuilder", "java.lang.StringBuffer", "java.lang.String"]

namespace Catalog

/-- The built-in catalog: exactly the entries of its document, in their order. -/
def builtin : Catalog where
  sinks := CatalogDocument.builtin.sinks.flatMap SinkEntry.sinks
  calls := CatalogDocument.builtin.calls.flatMap CallEntry.calls
  constructors := CatalogDocument.builtin.constructors

/-- The document of the built-in catalog can be added to an empty one, and that is the catalog. -/
theorem toOption_extend_empty_builtin : (empty.extend .builtin).toOption = some builtin := by
  decide +kernel

end Catalog

end BugPatterns
