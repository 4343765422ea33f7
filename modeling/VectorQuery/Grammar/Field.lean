import VectorQuery.Grammar.Rule
import VectorQuery.Schema

/-! Fields of a collection: a name, a type and attributes in any order. Type words and
attribute words may be identifiers or keywords, in any letter case. -/
namespace VectorQuery

inductive FieldAttribute where
  | primaryKey
  | partitionKey
  | autoId
  | dynamic
  | description (text : String)
deriving DecidableEq, Repr

/-- An attribute given again changes nothing, save that the last description counts. -/
def FieldDefinition.add (field : FieldDefinition) : FieldAttribute → FieldDefinition
  | .primaryKey => { field with isPrimary := true }
  | .partitionKey => { field with isPartitionKey := true }
  | .autoId => { field with autoId := true }
  | .dynamic => { field with isDynamic := true }
  | .description text => { field with description := some text }

namespace Grammar

/-- Any bare word, in upper case. -/
def typeWord : Rule String :=
  take fun token => if token.kind.isWord then some (Text.upper token.text) else none

def word (expected : String) : Rule Unit :=
  take fun token => if token.isWord expected then some () else none

def size : Rule Int64 :=
  bracketed integer

/-- A word with a number in round brackets follows: a container, not an attribute. -/
def containerFollows : List Token → Bool
  | first :: second :: third :: _ =>
    first.kind.isWord && second.kind == .operator .openParen && third.kind == .literal .integer
  | _ => false

def peekContainer : Rule Bool := fun tokens =>
  .ok (containerFollows tokens, tokens)

/-- `T`, `T(length)`, `T VECTOR(dimension)`, `T ARRAY(capacity)` or
`T(length) ARRAY(capacity)`. An array of VARCHAR needs the length, and others may give
one. -/
def fieldType : Rule FieldType := do
  let name ← typeWord
  if (← peek) = some (.operator .openParen) then
    let length ← size
    if ← peekContainer then
      word "ARRAY"
      return .array name (← size) (some length)
    else return .sized name length
  else if ← peekContainer then
    let container ← token
    let number ← size
    if container.isWord "VECTOR" then return .vector name number
    else if container.isWord "ARRAY" && name != "VARCHAR" then return .array name number none
    else refuseToken container
  else return .scalar name

def acceptWord (expected : String) : Rule Bool := do
  if (← next?).any (·.isWord expected) then
    let _ ← token
    return true
  else return false

/-- An attribute, if one follows. -/
def fieldAttribute : Rule (Option FieldAttribute) := do
  if ← acceptWord "PRIMARY" then
    word "KEY"
    return some .primaryKey
  else if ← acceptWord "PARTITION" then
    word "KEY"
    return some .partitionKey
  else if ← acceptWord "AUTO" then
    word "ID"
    return some .autoId
  else if ← acceptWord "DYNAMIC" then return some .dynamic
  else if ← acceptWord "DESCRIPTION" then return some (.description (← bracketed text))
  else return none

def field : Rule FieldDefinition := do
  let name ← identifier
  let type ← fieldType
  let attributes ← many fieldAttribute
  return attributes.foldl FieldDefinition.add { name, type }

/-- A field with the comma that may stand before it, or the bracket that ends the
fields. -/
def nextField : Rule (Option FieldDefinition) := do
  let _ ← comma
  if ← accept (.operator .closeParen) then return none
  else return some (← field)

/-- Fields between round brackets, where commas may be left out. -/
def fields : Rule (List FieldDefinition) := do
  operator .openParen
  many nextField

end Grammar

end VectorQuery
