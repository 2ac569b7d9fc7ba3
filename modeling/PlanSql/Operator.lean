import PlanSql.Json

namespace PlanSql

inductive InfixOperator
  | add
  | subtract
  | multiply
  | divide
  | power
  | modulo
  | bitwiseAnd
  | bitwiseOr
  | exclusiveOr
  | logicalAnd
  | logicalOr
  | equal
  | notEqual
  | greaterThan
  | greaterOrEqual
  | lessThan
  | lessOrEqual
  deriving DecidableEq

namespace InfixOperator

def all : List InfixOperator :=
  [add, subtract, multiply, divide, power, modulo, bitwiseAnd, bitwiseOr, exclusiveOr, logicalAnd,
    logicalOr, equal, notEqual, greaterThan, greaterOrEqual, lessThan, lessOrEqual]

def name : InfixOperator → String
  | add => "Add"
  | subtract => "Subtract"
  | multiply => "Multiply"
  | divide => "Divide"
  | power => "Power"
  | modulo => "Modulo"
  | bitwiseAnd => "BitwiseAnd"
  | bitwiseOr => "BitwiseOr"
  | exclusiveOr => "ExclusiveOr"
  | logicalAnd => "LogicalAnd"
  | logicalOr => "LogicalOr"
  | equal => "Equal"
  | notEqual => "NotEqual"
  | greaterThan => "GreaterThan"
  | greaterOrEqual => "GreaterOrEqual"
  | lessThan => "LessThan"
  | lessOrEqual => "LessOrEqual"

/-- The symbol between the two operands. -/
def symbol : InfixOperator → List Char
  | add => ['+']
  | subtract => ['-']
  | multiply => ['*']
  | divide => ['/']
  | power => ['^']
  | modulo => ['%']
  | bitwiseAnd => ['&']
  | bitwiseOr => ['|']
  | exclusiveOr => ['#']
  | logicalAnd => ['A', 'N', 'D']
  | logicalOr => ['O', 'R']
  | equal => ['=']
  | notEqual => ['<', '>']
  | greaterThan => ['>']
  | greaterOrEqual => ['>', '=']
  | lessThan => ['<']
  | lessOrEqual => ['<', '=']

def ofName? (s : String) : Option InfixOperator := all.find? fun o => o.name == s

theorem ofName?_name (o : InfixOperator) : ofName? o.name = some o := by
  cases o <;> decide +kernel

end InfixOperator

inductive SortDirection
  | ascending
  | descending
  deriving DecidableEq

namespace SortDirection

def name : SortDirection → String
  | ascending => "Ascending"
  | descending => "Descending"

def keyword : SortDirection → List Char
  | ascending => ['A', 'S', 'C']
  | descending => ['D', 'E', 'S', 'C']

def ofName? (s : String) : Option SortDirection :=
  [ascending, descending].find? fun d => d.name == s

theorem ofName?_name (d : SortDirection) : ofName? d.name = some d := by
  cases d <;> decide +kernel

end SortDirection

/-- The operators that restrict the rows of a query after it is selected. -/
inductive PartitionKind
  | first
  | firstOrDefault
  | last
  | lastOrDefault
  | single
  | singleOrDefault
  | take
  | skip
  deriving DecidableEq

namespace PartitionKind

def all : List PartitionKind :=
  [first, firstOrDefault, last, lastOrDefault, single, singleOrDefault, take, skip]

def name : PartitionKind → String
  | first => "First"
  | firstOrDefault => "FirstOrDefault"
  | last => "Last"
  | lastOrDefault => "LastOrDefault"
  | single => "Single"
  | singleOrDefault => "SingleOrDefault"
  | take => "Take"
  | skip => "Skip"

def ofName? (s : String) : Option PartitionKind := all.find? fun k => k.name == s

theorem ofName?_name (k : PartitionKind) : ofName? k.name = some k := by
  cases k <;> decide +kernel

/-- Whether the operator carries a count of rows. -/
def takesCount : PartitionKind → Bool
  | take | skip => true
  | _ => false

end PartitionKind

inductive NodeKind
  | operation
  | constant
  | parameter
  | column
  | order
  | partition
  deriving DecidableEq

/-- The name of a node kind in stored texts and in messages. -/
def NodeKind.name : NodeKind → String
  | .operation => "Binary"
  | .constant => "Constant"
  | .parameter => "BoundParameter"
  | .column => "Member"
  | .order => "Order"
  | .partition => "Method"

end PlanSql
