import VectorQuery.Diagnostic

/-! The causes for which a statement or a schema is refused, and their diagnostics. -/
namespace VectorQuery

inductive StatementError where
  | illegalCharacter (character : Char) (fragment : Option Fragment)
  | integerOutOfRange (fragment : Option Fragment)
  | unexpectedToken (fragment : Option Fragment)
  | unexpectedEnd
  | statementTooLong (length limit : Nat)
  | nestingTooDeep (fragment : Option Fragment) (limit : Nat)
  | primaryAndPartitionKey (field : String)
  | autoIdWithoutPrimaryKey (field : String)
deriving DecidableEq, Repr

namespace StatementError

def summary : StatementError → String
  | .illegalCharacter character _ => "Illegal character '" ++ String.ofList [character] ++ "'"
  | .integerOutOfRange _ => "integer literal out of range"
  | .unexpectedToken _ | .unexpectedEnd => "Syntax error in input!"
  | .statementTooLong _ _ => "statement exceeds maximum length"
  | .nestingTooDeep _ limit =>
    "statement nests deeper than " ++ Decimal.text limit ++ " levels"
  | .primaryAndPartitionKey field => "field `" ++ field ++ "` is both primary key and partition key"
  | .autoIdWithoutPrimaryKey field => "field `" ++ field ++ "` uses AUTO ID without PRIMARY KEY"

def diagnostic (error : StatementError) : Diagnostic :=
  match error with
  | .illegalCharacter _ fragment =>
    { code := "LEX_001"
      message := error.summary ++ " at line " ++ Decimal.text (Fragment.lineOf fragment) ++
        " column " ++ Decimal.text (Fragment.columnOf fragment)
      fragment := fragment
      label := some "no token starts with this character" }
  | .integerOutOfRange fragment =>
    { code := "LEX_002"
      message := "integer literal `" ++ Fragment.textOf fragment ++ "` does not fit into 64 bits"
      fragment := fragment
      label := some "out of range"
      help := some "use a float literal for values outside the 64-bit integer range" }
  | .unexpectedToken fragment =>
    { code := "PARSE_001"
      message := error.summary
      fragment := fragment
      label := some ("unexpected `" ++ Fragment.textOf fragment ++ "`") }
  | .unexpectedEnd =>
    { code := "PARSE_001"
      message := error.summary
      help := some "every statement ends with `;`" }
  | .statementTooLong length limit =>
    { code := "PARSE_002"
      message := error.summary
      notes := ["statement is " ++ Decimal.text length ++ " bytes long, the limit is " ++
        Decimal.text limit] }
  | .nestingTooDeep fragment _ =>
    { code := "PARSE_003"
      message := error.summary
      fragment := fragment
      label := some "nesting limit reached here"
      help := some "raise `ParseOptions::max_depth` or flatten the expression" }
  | .primaryAndPartitionKey _ =>
    { code := "SCHEMA_001"
      message := error.summary
      help := some "a field is either PRIMARY KEY or PARTITION KEY, not both" }
  | .autoIdWithoutPrimaryKey _ =>
    { code := "SCHEMA_002"
      message := error.summary
      help := some "declare the field as PRIMARY KEY AUTO ID" }

end StatementError

end VectorQuery
