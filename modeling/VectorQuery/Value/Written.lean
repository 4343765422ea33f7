import VectorQuery.Text.Quoted
import VectorQuery.Value

/-! Values as text. One traversal writes both forms: the literal form of predicates,
with spaces and positional floats, and compact JSON. `sorted` prepares a document
whose objects hold each key once, in order. -/
namespace VectorQuery.Value

/-- What the forms decide differently. -/
structure Form where
  separator : String
  colon : String
  float : Binary64 → String

/-- Literals as predicates hold them. -/
def literalForm : Form where
  separator := ", "
  colon := ": "
  float := fun number => String.ofList (Binary64.plain.write number)

/-- Compact JSON, which has no word for a number that is not finite. -/
def jsonForm : Form where
  separator := ","
  colon := ":"
  float := fun number =>
    if number.isFinite then String.ofList (Binary64.compact.write number) else "null"

mutual
def write (form : Form) : Value → String
  | .null => "null"
  | .boolean true => "true"
  | .boolean false => "false"
  | .integer number => String.ofList (writeInteger number)
  | .float number => form.float number
  | .text content => Text.quoted content
  | .array items => "[" ++ form.separator.intercalate (writeItems form items) ++ "]"
  | .object entries =>
    "\x7b" ++ form.separator.intercalate (writeEntries form entries) ++ "\x7d"

def writeItems (form : Form) : List Value → List String
  | [] => []
  | item :: rest => write form item :: writeItems form rest

def writeEntries (form : Form) : List (String × Value) → List String
  | [] => []
  | (key, value) :: rest =>
    (Text.quoted key ++ form.colon ++ write form value) :: writeEntries form rest
end

def literal (value : Value) : String :=
  write literalForm value

def json (value : Value) : String :=
  write jsonForm value

/-- Puts an entry into entries that are in the order of their keys. An equal key
gives way. -/
def place (key : String) (value : Value) : List (String × Value) → List (String × Value)
  | [] => [(key, value)]
  | (other, old) :: rest =>
    if key = other then (key, value) :: rest
    else if key < other then (key, value) :: (other, old) :: rest
    else (other, old) :: place key value rest

def placeAll (entries : List (String × Value)) : List (String × Value) :=
  entries.foldl (fun placed entry => place entry.1 entry.2 placed) []

mutual
/-- The value with every object in the order of its keys, where the last entry of a
key stands for all. -/
def sorted : Value → Value
  | .array items => .array (sortedItems items)
  | .object entries => .object (placeAll (sortedEntries entries))
  | value => value

def sortedItems : List Value → List Value
  | [] => []
  | item :: rest => sorted item :: sortedItems rest

def sortedEntries : List (String × Value) → List (String × Value)
  | [] => []
  | (key, value) :: rest => (key, sorted value) :: sortedEntries rest
end

end VectorQuery.Value
