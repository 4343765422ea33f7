/-! Letter case of ASCII words. -/
namespace VectorQuery.Text

def upper (text : String) : String :=
  String.ofList (text.toList.map Char.toUpper)

def equalIgnoringCase (left right : String) : Bool :=
  upper left == upper right

end VectorQuery.Text
