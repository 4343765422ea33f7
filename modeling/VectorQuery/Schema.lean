import VectorQuery.StatementError

/-! The fields of a collection and the rules that their attributes obey. -/
namespace VectorQuery

inductive FieldType where
  | scalar (name : String)
  | sized (name : String) (maxLength : Int64)
  | vector (element : String) (dimension : Int64)
  | array (element : String) (capacity : Int64) (maxLength : Option Int64)
deriving DecidableEq, Repr

namespace FieldType

def name : FieldType → String
  | .scalar name | .sized name _ => name
  | .vector element _ => element ++ "_VECTOR"
  | .array _ _ _ => "ARRAY"

/-- What a type tells beside its name. -/
def entries : FieldType → List (String × Value)
  | .scalar _ => []
  | .sized _ maxLength => [("max_length", .integer maxLength)]
  | .vector _ dimension => [("dim", .integer dimension)]
  | .array element capacity maxLength =>
    [("element_type", .text element), ("max_capacity", .integer capacity)] ++
      maxLength.elim [] fun length => [("max_length", .integer length)]

end FieldType

structure FieldDefinition where
  name : String
  type : FieldType
  isPrimary : Bool := false
  isPartitionKey : Bool := false
  autoId : Bool := false
  isDynamic : Bool := false
  description : Option String := none
deriving DecidableEq, Repr

namespace FieldDefinition

def validate (field : FieldDefinition) : Except StatementError Unit :=
  if field.isPrimary && field.isPartitionKey then .error (.primaryAndPartitionKey field.name)
  else if field.autoId && !field.isPrimary then .error (.autoIdWithoutPrimaryKey field.name)
  else .ok ()

/-- Attributes appear where they are set. -/
def toValue (field : FieldDefinition) : Value :=
  let flag (name : String) (set : Bool) : List (String × Value) :=
    if set then [(name, .boolean true)] else []
  .object ([("name", .text field.name), ("type", .text field.type.name)] ++ field.type.entries ++
    flag "is_primary" field.isPrimary ++ flag "is_partition_key" field.isPartitionKey ++
    flag "auto_id" field.autoId ++ flag "is_dynamic" field.isDynamic ++
    field.description.elim [] fun description => [("description", .text description)])

end FieldDefinition

end VectorQuery
