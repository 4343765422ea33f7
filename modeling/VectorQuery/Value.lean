import VectorQuery.Binary64

/-! Dynamic values: the literals a statement may hold, the options of a command and
the documents commands are written as. An object lists its entries in order. -/
namespace VectorQuery

inductive Value where
  | null
  | boolean (truth : Bool)
  | integer (number : Int64)
  | float (number : Binary64)
  | text (text : String)
  | array (items : List Value)
  | object (entries : List (String × Value))
deriving Repr, Inhabited

namespace Value

def isArray : Value → Bool
  | .array _ => true
  | _ => false

mutual
/-- Equality of values: integers differ from floats, floats compare as numbers,
and the order of an object's entries does not matter. -/
def equal : Value → Value → Bool
  | .null, .null => true
  | .boolean left, .boolean right => left == right
  | .integer left, .integer right => left == right
  | .float left, .float right => left == right
  | .text left, .text right => left == right
  | .array left, .array right => equalItems left right
  | .object left, .object right => left.length == right.length && equalEntries left right
  | _, _ => false

def equalItems : List Value → List Value → Bool
  | [], [] => true
  | left :: lefts, right :: rights => equal left right && equalItems lefts rights
  | _, _ => false

/-- Every entry on the left has an equal one on the right. -/
def equalEntries : List (String × Value) → List (String × Value) → Bool
  | [], _ => true
  | (key, left) :: rest, entries =>
    (match entries.lookup key with
      | some right => equal left right
      | none => false) && equalEntries rest entries
end

instance : BEq Value := ⟨equal⟩

mutual
/-- Whether two values are the same, to the last digit and in the same order. -/
def decideSame : (left right : Value) → Decidable (left = right)
  | .null, right => match right with
    | .null => isTrue rfl
    | .boolean _ | .integer _ | .float _ | .text _ | .array _ | .object _ => isFalse nofun
  | .boolean left, right => match right with
    | .boolean right => decidable_of_iff (left = right) (by simp)
    | .null | .integer _ | .float _ | .text _ | .array _ | .object _ => isFalse nofun
  | .integer left, right => match right with
    | .integer right => decidable_of_iff (left = right) (by simp)
    | .null | .boolean _ | .float _ | .text _ | .array _ | .object _ => isFalse nofun
  | .float left, right => match right with
    | .float right => decidable_of_iff (left = right) (by simp)
    | .null | .boolean _ | .integer _ | .text _ | .array _ | .object _ => isFalse nofun
  | .text left, right => match right with
    | .text right => decidable_of_iff (left = right) (by simp)
    | .null | .boolean _ | .integer _ | .float _ | .array _ | .object _ => isFalse nofun
  | .array left, right => match right with
    | .array right =>
      match decideSameItems left right with
      | isTrue same => isTrue (by simp [same])
      | isFalse differ => isFalse (by simp [differ])
    | .null | .boolean _ | .integer _ | .float _ | .text _ | .object _ => isFalse nofun
  | .object left, right => match right with
    | .object right =>
      match decideSameEntries left right with
      | isTrue same => isTrue (by simp [same])
      | isFalse differ => isFalse (by simp [differ])
    | .null | .boolean _ | .integer _ | .float _ | .text _ | .array _ => isFalse nofun

def decideSameItems : (left right : List Value) → Decidable (left = right)
  | [], [] => isTrue rfl
  | [], _ :: _ | _ :: _, [] => isFalse nofun
  | left :: lefts, right :: rights =>
    match decideSame left right, decideSameItems lefts rights with
    | isTrue same, isTrue rest => isTrue (by simp [same, rest])
    | isFalse differ, _ => isFalse (by simp [differ])
    | _, isFalse differ => isFalse (by simp [differ])

def decideSameEntries : (left right : List (String × Value)) → Decidable (left = right)
  | [], [] => isTrue rfl
  | [], _ :: _ | _ :: _, [] => isFalse nofun
  | (key, left) :: lefts, (key', right) :: rights =>
    match decideSame left right, decideSameEntries lefts rights with
    | isTrue same, isTrue rest =>
      if keys : key = key' then isTrue (by simp [same, rest, keys])
      else isFalse (by simp [keys])
    | isFalse differ, _ => isFalse (by simp [differ])
    | _, isFalse differ => isFalse (by simp [differ])
end

instance : DecidableEq Value := decideSame

end Value

end VectorQuery
