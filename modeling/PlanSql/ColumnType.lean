import PlanSql.ValueType

namespace PlanSql

/-- The types whose numbers are fixed. -/
def typeNames : List (Nat × String) :=
  [(16, "BOOL"), (17, "BYTEA"), (18, "\"CHAR\""), (19, "NAME"), (20, "INT8"), (21, "INT2"),
    (23, "INT4"), (25, "TEXT"), (26, "OID"), (114, "JSON"), (199, "JSON[]"), (600, "POINT"),
    (601, "LSEG"), (602, "PATH"), (603, "BOX"), (604, "POLYGON"), (628, "LINE"),
    (629, "LINE[]"), (650, "CIDR"), (651, "CIDR[]"), (700, "FLOAT4"), (701, "FLOAT8"),
    (705, "UNKNOWN"), (718, "CIRCLE"), (719, "CIRCLE[]"), (774, "MACADDR8"),
    (775, "MACADDR8[]"), (790, "MONEY"), (791, "MONEY[]"), (829, "MACADDR"), (869, "INET"),
    (1000, "BOOL[]"), (1001, "BYTEA[]"), (1002, "\"CHAR\"[]"), (1003, "NAME[]"),
    (1005, "INT2[]"), (1007, "INT4[]"), (1009, "TEXT[]"), (1014, "CHAR[]"),
    (1015, "VARCHAR[]"), (1016, "INT8[]"), (1017, "POINT[]"), (1018, "LSEG[]"),
    (1019, "PATH[]"), (1020, "BOX[]"), (1021, "FLOAT4[]"), (1022, "FLOAT8[]"),
    (1027, "POLYGON[]"), (1028, "OID[]"), (1040, "MACADDR[]"), (1041, "INET[]"),
    (1042, "CHAR"), (1043, "VARCHAR"), (1082, "DATE"), (1083, "TIME"), (1114, "TIMESTAMP"),
    (1115, "TIMESTAMP[]"), (1182, "DATE[]"), (1183, "TIME[]"), (1184, "TIMESTAMPTZ"),
    (1185, "TIMESTAMPTZ[]"), (1186, "INTERVAL"), (1187, "INTERVAL[]"), (1231, "NUMERIC[]"),
    (1266, "TIMETZ"), (1270, "TIMETZ[]"), (1560, "BIT"), (1561, "BIT[]"), (1562, "VARBIT"),
    (1563, "VARBIT[]"), (1700, "NUMERIC"), (2249, "RECORD"), (2278, "VOID"),
    (2287, "RECORD[]"), (2950, "UUID"), (2951, "UUID[]"), (3802, "JSONB"), (3807, "JSONB[]"),
    (3904, "INT4RANGE"), (3905, "INT4RANGE[]"), (3906, "NUMRANGE"), (3907, "NUMRANGE[]"),
    (3908, "TSRANGE"), (3909, "TSRANGE[]"), (3910, "TSTZRANGE"), (3911, "TSTZRANGE[]"),
    (3912, "DATERANGE"), (3913, "DATERANGE[]"), (3926, "INT8RANGE"), (3927, "INT8RANGE[]"),
    (4072, "JSONPATH"), (4073, "JSONPATH[]")]

/-- The name of a type by its number; `?` for one that is not known. -/
def typeName (oid : Nat) : String := (typeNames.lookup oid).getD "?"

/-- The number of the type that values of a kind are sent as. -/
def ValueType.oid : ValueType → Nat
  | bool => 16
  | smallInt => 21
  | int => 23
  | bigInt => 20
  | real => 700
  | double => 701
  | numeric => 1700
  | text => 25
  | uuid => 2950
  | timestamp => 1114
  | timestampTz => 1184
  | date => 1082
  | time => 1083
  | interval => 1186
  | bytes => 17
  | json => 3802
  | array => 25
  | unknown => 25

/-- The number of the array type for elements of a kind that arrays are sent of. -/
def ValueType.arrayOid? : ValueType → Option Nat
  | bool => some 1000
  | smallInt => some 1005
  | int => some 1007
  | bigInt => some 1016
  | real => some 1021
  | double => some 1022
  | numeric => some 1231
  | text => some 1009
  | uuid => some 2951
  | timestamp => some 1115
  | timestampTz => some 1185
  | date => some 1182
  | time => some 1183
  | _ => none

end PlanSql
