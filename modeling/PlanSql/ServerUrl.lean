import PlanSql.Characters
import PlanSql.HostName

namespace PlanSql

structure ServerUrl where
  host : String := ""
  /-- The number of the endpoint on the host. -/
  endpoint : Nat := 5432
  /-- The directory of a socket, which takes the place of the host. -/
  socket : Option String := none
  secured : Bool := false
  deriving DecidableEq

namespace ServerUrl

def isIgnored (c : Char) : Bool := c == '\t' || c == '\n' || c == '\r'

/-- The text without control characters and blanks at its ends and line breaks within. -/
def cleaned (s : List Char) : List Char :=
  let trimmed (s : List Char) : List Char := s.dropWhile fun c => c.toNat ≤ 32
  (trimmed (trimmed s).reverse).reverse.filter fun c => !isIgnored c

def isSchemeChar (c : Char) : Bool := c.isAlphanum || c == '+' || c == '-' || c == '.'

/-- The scheme in small letters, and the rest after its colon. -/
def scheme? (s : List Char) : Option (String × List Char) :=
  let (scheme, rest) := splitWhile isSchemeChar s
  match rest with
  | ':' :: rest =>
    if scheme.head?.any Char.isAlpha then some (foldCase (String.ofList scheme), rest) else none
  | _ => none

/-- The schemes whose hosts are names in the net. -/
def netSchemes : List String := ["http", "https", "ws", "wss", "ftp"]

def isSlash (c : Char) : Bool := c == '/' || c == '\\'

/-- Where a query or a fragment starts. -/
def isMark (c : Char) : Bool := c == '?' || c == '#'

/-- Splits user and password from the host at the last `@`. -/
def splitUser (s : List Char) : Option (List Char) × List Char :=
  let (back, rest) := splitWhile (· != '@') s.reverse
  match rest with
  | [] => (none, s)
  | _ :: user => (some user.reverse, back.reverse)

/-- Whether user and password are text once their escapes are undone. -/
def isUser (s : List Char) : Bool :=
  let (name, rest) := splitWhile (· != ':') s
  (unescaped? name).isSome && (unescaped? rest.tail).isSome

/-- Splits a host before its colon; colons in brackets belong to it. -/
def splitHost (inside : Bool) : List Char → List Char × List Char
  | [] => ([], [])
  | c :: s =>
    if c = ':' && !inside then ([], c :: s)
    else
      let (host, rest) := splitHost (if c = '[' then true else if c = ']' then false else inside) s
      (c :: host, rest)

/-- Reads the number of an endpoint, if one is given; a backslash after it starts the path. -/
def endpoint? : List Char → Option (Option Nat)
  | ':' :: s =>
    let (ds, rest) := splitWhile Char.isDigit s
    if !rest.isEmpty && rest.head? != some '\\' then none
    else if ds.isEmpty then some none
    else if readDecimal ds < 2 ^ 16 then some (some (readDecimal ds)) else none
  | s => if s.isEmpty then some none else none

/-- A host that starts with an escaped slash is the directory of a socket. -/
def atHost? (host : String) (endpoint : Nat) : Option ServerUrl :=
  if (unescapedBytes host.toList).head? = some 0x2F then
    (unescaped? host.toList).map fun path => { endpoint := endpoint, socket := some path }
  else some { host := host, endpoint := endpoint }

/-- Reads what stands between two slashes and the path; `read` reads the host. Only a URL that ends
here may have an `@` and nothing beside it, and only one without a user may have no host. -/
def authority? (read : List Char → Option String) (ends : Bool) (s : List Char) :
    Option ServerUrl := do
  let (user, s) := splitUser s
  if user = some [] && s.isEmpty && !ends then none
  if !(user.all isUser) then none
  let (name, rest) := splitHost false s
  let host ← read name
  let endpoint ← endpoint? rest
  if host.isEmpty && (!rest.isEmpty || user.any fun u => !(u = [] || u = [':'])) then none
  atHost? host (endpoint.getD 5432)

/-- The host of a file, before its path; a letter of a drive is none. -/
def fileHost? (s : List Char) : Option ServerUrl :=
  match s with
  | [] => some {}
  | [c, d] =>
    if c.isAlpha && (d == ':' || d == '|') then some {}
    else (HostName.named? [c, d]).map fun host => { host := host }
  | s => (HostName.named? s).map fun host => { host := host }

/-- Reads what comes after the scheme up to the path. -/
def place? (scheme : String) (s : List Char) : Option (ServerUrl × List Char) :=
  if scheme = "file" then
    match s with
    | c :: d :: s =>
      if isSlash c && isSlash d then
        let (front, rest) := splitWhile (fun c => !isSlash c && !isMark c) s
        (fileHost? front).map fun url => (url, rest)
      else some ({}, c :: d :: s)
    | s => some ({}, s)
  else if netSchemes.contains scheme then
    let (front, rest) := splitWhile (fun c => !isSlash c && !isMark c) (s.dropWhile isSlash)
    (authority? HostName.named? rest.isEmpty front).map fun url => (url, rest)
  else match dropHead? ['/', '/'] s with
    | none => some ({}, s)
    | some s =>
      let (front, rest) := splitWhile (fun c => c != '/' && !isMark c) s
      (authority? HostName.verbatim? rest.isEmpty front).map fun url => (url, rest)

/-- A part of a query, where a plus sign is a blank. -/
def formText (s : List Char) : String :=
  (unescaped? (s.map fun c => if c = '+' then ' ' else c)).getD "\uFFFD"

/-- The parameters of a query, in order. -/
def parameters (s : List Char) : List (String × String) :=
  (((String.ofList s).splitOn "&").filter (· != "")).map fun pair =>
    let (name, value) := splitWhile (· != '=') pair.toList
    (formText name, formText value.tail)

/-- The modes of a connection, and whether each of them secures it. -/
def securityModes : List (String × Bool) :=
  [("disable", false), ("allow", false), ("prefer", false), ("require", true),
    ("verify-ca", true), ("verify-full", true)]

/-- A whole number below `2 ^ bits`, with or without a plus sign. -/
def word? (bits : Nat) (s : String) : Option Nat :=
  match s.toList with
  | '-' :: _ => none
  | cs => ((readInteger? cs).map Int.toNat).filter (· < 2 ^ bits)

def withSecurity? (u : ServerUrl) (mode : String) : Option ServerUrl :=
  (securityModes.lookup (foldCase mode)).map fun secured => { u with secured := secured }

/-- A parameter takes the place of what stands elsewhere in the URL. -/
def withParameter? (u : ServerUrl) : String × String → Option ServerUrl
  | ("host", host) =>
    some (if host.startsWith "/" then { u with socket := some host } else { u with host := host })
  | ("hostaddr", host) => if HostName.isAddress host then some { u with host := host } else none
  | ("port", number) => (word? 16 number).map fun n => { u with endpoint := n }
  | ("sslmode", mode) => u.withSecurity? mode
  | ("ssl-mode", mode) => u.withSecurity? mode
  | ("statement-cache-capacity", n) => (word? 64 n).map fun _ => u
  | _ => some u

def read? (s : String) : Option ServerUrl := do
  let (scheme, rest) ← scheme? (cleaned s.toList)
  let (url, rest) ← place? scheme rest
  let query := ((rest.takeWhile (· != '#')).dropWhile (· != '?')).tail
  (parameters query).foldlM withParameter? url

end ServerUrl

end PlanSql
