import VectorQuery.Value.Mapping

/-! Hits of a search, and the rows they flatten to. -/
namespace VectorQuery

/-- A result: the primary key, the distance and the returned fields. -/
structure Hit where
  key : Value
  score : Binary64
  entity : Mapping
deriving BEq, DecidableEq, Repr

namespace Hit

/-- The fields that a row asks of an entity: all of them for `*`, and otherwise the
named ones, null where they are missing. -/
def requested (hit : Hit) (fields : List String) : List (String × Value) :=
  if fields.contains "*" then hit.entity.entries
  else fields.map fun name => (name, (hit.entity.get? name).getD .null)

/-- Key and score come first. A requested field of the same name takes their place. -/
def row (hit : Hit) (fields : List String) : Mapping :=
  (Mapping.ofList [("pk", hit.key), ("score", .float hit.score)]).insertAll
    (hit.requested fields)

def flatten (results : List (List Hit)) (fields : List String) : List Mapping :=
  results.flatten.map fun hit => hit.row fields

end Hit

end VectorQuery
