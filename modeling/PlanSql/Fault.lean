import PlanSql.Operator
import PlanSql.ValueType

namespace PlanSql

/-- Errors of a backend, passed on unchanged. -/
inductive BackendFault
  /-- The server refused or broke off a statement. -/
  | server (message : String)
  /-- A column that does not decode. -/
  | undecodable
  | badUrl
  | unreachable
  /-- The connection is to be secured, which is not supported. -/
  | unsecured
  /-- An error of another backend, with its own message. -/
  | other (message : String)
  deriving DecidableEq

def BackendFault.message : BackendFault → String
  | server message => "error returned from database: " ++ message
  | undecodable => "error occurred while decoding a column"
  | badUrl => "error with configuration"
  | unreachable => "error communicating with database"
  | unsecured => "error occurred while attempting to establish a TLS connection"
  | other message => message

inductive PlanError
  /-- A partition operator where only a scalar can be written. -/
  | unsupportedExpression (kind : PartitionKind)
  /-- An entry of a partition list that is no partition operator. -/
  | unimplementedOperator (node : NodeKind)
  | missingArgument (kind : PartitionKind)
  | fieldNotFound (name : String)
  /-- `found` is absent for a null. -/
  | typeMismatch (field expected : String) (found : Option ValueType)
  /-- The table is quoted. -/
  | emptyUpdate (table : String)
  | missingParameter (name : String)
  | unsupportedColumnType (column typeName : String)
  | backend (fault : BackendFault)
  | config
  | io
  deriving DecidableEq

namespace PlanError

def message : PlanError → String
  | unsupportedExpression kind =>
    "Unsupported expression: " ++ kind.name ++ " operator inside a filter, sort or projection"
  | unimplementedOperator node =>
    "Unimplemented operator: " ++ node.name ++ " node in partition list"
  | missingArgument kind => "Partition operator " ++ kind.name ++ " requires a count argument"
  | fieldNotFound name => "Field not found: '" ++ name ++ "'"
  | typeMismatch field expected found =>
    "Type mismatch on field '" ++ field ++ "': expected " ++ expected ++ ", found " ++
      (match found with
        | none => "NULL"
        | some t => t.sqlName)
  | emptyUpdate table => "Update of " ++ table ++ " sets no columns"
  | missingParameter name => "Missing parameter: '@" ++ name ++ "'"
  | unsupportedColumnType column typeName =>
    "Unsupported column type '" ++ typeName ++ "' for column '" ++ column ++ "'"
  | backend fault => fault.message
  | config => "Configuration error: "
  | io => "IO error: "

end PlanError

end PlanSql
