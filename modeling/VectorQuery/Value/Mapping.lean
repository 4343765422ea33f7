import VectorQuery.Value

/-! Mappings from keys to values that remember the order in which keys first came.
A key that comes again keeps its place and takes the later value. -/
namespace VectorQuery

structure Mapping where
  entries : List (String × Value)
deriving DecidableEq, Repr, Inhabited

namespace Mapping

def empty : Mapping := ⟨[]⟩

def keys (mapping : Mapping) : List String :=
  mapping.entries.map Prod.fst

def get? (mapping : Mapping) (key : String) : Option Value :=
  mapping.entries.lookup key

def insertEntry (key : String) (value : Value) : List (String × Value) → List (String × Value)
  | [] => [(key, value)]
  | (other, old) :: rest =>
    if other = key then (key, value) :: rest else (other, old) :: insertEntry key value rest

def insert (mapping : Mapping) (key : String) (value : Value) : Mapping :=
  ⟨insertEntry key value mapping.entries⟩

def insertAll (mapping : Mapping) (entries : List (String × Value)) : Mapping :=
  entries.foldl (fun mapping entry => mapping.insert entry.1 entry.2) mapping

def ofList (entries : List (String × Value)) : Mapping :=
  empty.insertAll entries

def erase (mapping : Mapping) (key : String) : Mapping :=
  ⟨mapping.entries.filter fun entry => entry.1 ≠ key⟩

def toValue (mapping : Mapping) : Value :=
  .object mapping.entries

/-- Mappings are equal as objects are, in any order. -/
instance : BEq Mapping := ⟨fun left right => left.toValue == right.toValue⟩

end Mapping

end VectorQuery
