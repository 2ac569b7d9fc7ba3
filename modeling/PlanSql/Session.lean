import PlanSql.Binding
import PlanSql.ColumnValue
import PlanSql.Database
import PlanSql.Numbered
import PlanSql.QuotedText

namespace PlanSql

/-- What a server sends for a statement that it runs. -/
structure Reply where
  rows : List (List (Option (List UInt8)))
  affected : Nat
  /-- The message of an error after the rows. -/
  failure : Option String

/-- The server's side of a connection, of state `ℓ`. A refusal carries the server's message. -/
class Server (ℓ : Type) where
  connect : StateM ℓ (Except String Unit)
  /-- Declares a statement and its parameters' types, and gives its columns and their types. -/
  declare : (sql : String) → (types : List Nat) → StateM ℓ (Except String (List (String × Nat)))
  /-- Runs a declared statement; with a limit, the server stops after that many rows. -/
  execute : (sql : String) → (types : List Nat) → (values : List (Option (List UInt8))) →
    (limit : Option Nat) → StateM ℓ Reply
  /-- Runs a text without parameters. -/
  run : (sql : String) → StateM ℓ (Except String Reply)

/-- A statement that the server knows. -/
structure Declared where
  sql : String
  types : List Nat
  columns : List (String × Nat)

structure Session (ℓ : Type) where
  link : ℓ
  /-- The statements that are known, the last used one first. -/
  declared : List Declared := []
  /-- The text of the last query. -/
  statement : String := ""
  /-- The message of an error that the server has sent and nobody has read. -/
  unread : Option String := none

/-- The rows of a query: not asked for yet, or received. -/
inductive SessionRows
  | unsent (n : Numbered)
  | received (columns : List (String × Nat)) (current : List (Option (List UInt8)))
      (rest : List (List (Option (List UInt8)))) (failure : Option String)

namespace Session

/-- What is told of a session: the text of its last query. -/
def summary {ℓ : Type} (s : Session ℓ) : String :=
  "PgExecutor \x7b statement: " ++ quotedText s.statement ++ ", .. \x7d"

variable {ℓ : Type} [Server ℓ]

def connect (link : ℓ) : Except PlanError (Session ℓ) :=
  match Server.connect link with
  | (.ok (), link) => .ok ⟨link, [], "", none⟩
  | (.error message, _) => .error (.backend (.server message))

/-- Lets the link do its part. -/
def onLink {α : Type} (f : StateM ℓ α) : Action (Session ℓ) α := ExceptT.lift fun s =>
  let (a, link) := f s.link
  (a, { s with link := link })

def refused {α : Type} (message : String) : Action (Session ℓ) α :=
  throw (.backend (.server message))

/-- Reports an error that nobody has read, once. -/
def settle : Action (Session ℓ) Unit := do
  let s ← get
  match s.unread with
  | none => return
  | some message =>
    set { s with unread := none }
    refused message

/-- How many statements are known at a time. -/
def capacity : Nat := 100

/-- Notes the use of a statement; of too many the one that was not used for longest is forgotten. -/
def used (d : Declared) (ds : List Declared) : List Declared :=
  (d :: ds.filter fun e => e.sql != d.sql).take capacity

/-- The statement of a text; it is declared where the server does not know it. -/
def known (sql : String) (types : List Nat) : Action (Session ℓ) Declared := do
  let s ← get
  let d ← match s.declared.find? fun d => d.sql == sql with
    | some d => pure d
    | none =>
      match ← onLink (Server.declare sql types) with
      | .error message => refused message
      | .ok columns => pure ⟨sql, types, columns⟩
  modify fun s => { s with declared := used d s.declared }
  return d

/-- Sends a numbered command; an error after its rows stays unread. -/
def send (n : Numbered) (limit : Option Nat) : Action (Session ℓ) (Declared × Reply) := do
  settle
  let bound := n.values.map Value.bound
  let d ← known (String.ofList n.sql) (bound.map Bound.oid)
  let reply ← onLink (Server.execute d.sql d.types (bound.map Bound.bytes?) limit)
  modify fun s => { s with unread := reply.failure }
  return (d, reply)

/-- Reads a reply to its end. -/
def finish (reply : Reply) : Action (Session ℓ) Unit := do
  modify fun s => { s with unread := none }
  match reply.failure with
  | none => return
  | some message => refused message

/-- What the end of the rows brings. -/
def ended : (failure : Option String) → Except PlanError Bool
  | none => .ok false
  | some message => .error (.backend (.server message))

/-- Moves within received rows; at their end an error after them is read. -/
def move (columns : List (String × Nat)) (failure : Option String)
    (rows : List (List (Option (List UInt8)))) (s : Session ℓ) :
    (Except PlanError Bool × SessionRows) × Session ℓ :=
  match rows with
  | row :: rest => ((.ok true, .received columns row rest failure), s)
  | [] => ((ended failure, .received columns [] [] none), { s with unread := none })

/-- Moves to the next row; a query that is not sent yet is sent first. -/
def advance (rows : SessionRows) : StateM (Session ℓ) (Except PlanError Bool × SessionRows) :=
  fun s =>
    match rows with
    | .received columns _ rest failure => move columns failure rest s
    | .unsent n =>
      match (send n none).run s with
      | (.error e, s) => ((.error e, .received [] [] [] none), s)
      | (.ok (d, reply), s) => move d.columns reply.failure reply.rows s

def columns : SessionRows → List Column
  | .unsent _ => []
  | .received columns _ _ _ => columns.map fun (name, oid) => ⟨name, columnType (typeName oid)⟩

/-- The value of a column in a row. -/
def cell (columns : List (String × Nat)) (row : List (Option (List UInt8))) (index : Nat) :
    Except PlanError Value :=
  match columns[index]? with
  | none => .ok .null
  | some (name, oid) => columnValue name (typeName oid) (row[index]?.join)

def value (rows : SessionRows) (index : Nat) : Except PlanError Value :=
  match rows with
  | .unsent _ => .ok .null
  | .received columns current _ _ => cell columns current index

/-- The rows still to come; those of a query that is not sent yet are the ones it would get. -/
def pending (rows : SessionRows) (s : Session ℓ) : Nat :=
  match rows with
  | .unsent n =>
    match (send n none).run s with
    | (.ok (_, reply), _) => reply.rows.length
    | (.error _, _) => 0
  | .received _ _ rest _ => rest.length

theorem move_pending {columns : List (String × Nat)} {failure : Option String}
    {rows : List (List (Option (List UInt8)))} {c' : SessionRows} {s s' : Session ℓ}
    (h : move columns failure rows s = ((.ok true, c'), s')) : pending c' s' < rows.length := by
  cases rows with
  | nil =>
    have h : ended failure = .ok true := congrArg (·.1.1) h
    cases failure <;> simp [ended] at h
  | cons row rest =>
    have h : SessionRows.received columns row rest failure = c' := congrArg (·.1.2) h
    simp [← h, pending]

instance : RowSource (Session ℓ) SessionRows where
  advance := advance
  columns := columns
  value := value

instance : FiniteRows (Session ℓ) SessionRows where
  pending := pending
  pending_lt := by
    intro c c' s s' h
    cases c with
    | received columns current rest failure => exact move_pending h
    | unsent n =>
      have moved : advance (.unsent n) s = ((.ok true, c'), s') := h
      unfold advance at moved
      unfold pending
      dsimp only at moved ⊢
      split at moved
      · cases congrArg (·.1.1) moved
      · next hs =>
        simp only [hs]
        exact move_pending moved

/-- The number of rows that a text affects. Without parameters it is run as it is. -/
def nonQuery (c : Command) : Action (Session ℓ) Nat := do
  let n ← c.numbered
  if n.values.isEmpty then
    settle
    match ← onLink (Server.run (String.ofList n.sql)) with
    | .error message => refused message
    | .ok reply =>
      finish reply
      return reply.affected
  else
    let (_, reply) ← send n none
    finish reply
    return reply.affected

/-- The first column of the first row, which is the only one asked for. -/
def scalar (c : Command) : Action (Session ℓ) Value := do
  let n ← c.numbered
  let (d, reply) ← send n (some 1)
  finish reply
  match reply.rows with
  | [] => return .null
  | row :: _ => cell d.columns row 0

instance : Executor (Session ℓ) SessionRows where
  query c := do
    let n ← c.numbered
    modify fun s => { s with statement := String.ofList n.sql }
    return .unsent n
  nonQuery := nonQuery
  scalar := scalar

end Session

end PlanSql
