import PlanSql.Database
import PlanSql.Proofs.RecordSequence

namespace PlanSql

/-- A call, with the type of what it returns. A reader takes a number of items and then drops the
sequence. -/
inductive Call : Type → Type 1
  | read (p : Plan) (ps : List Parameter) (taken : Nat) :
    Call (List (Option (Except PlanError Record)))
  | retrieve (p : Plan) (ps : List Parameter) : Call (List Record)
  | readText (c : Command) (taken : Nat) : Call (List (Option (Except PlanError Record)))
  | retrieveText (c : Command) : Call (List Record)
  | nonQuery (c : Command) : Call Nat
  | scalar (α : Type) [Readable α] (c : Command) : Call α
  | create (m : Mutation) : Call (Option Record)
  | update (m : Mutation) : Call (Option Record)
  | delete (m : Mutation) : Call (Option Record)
  | createRecord (t : TableRef) (r : Record) : Call (Option Record)
  | updateRecord (t : TableRef) (r : Record) : Call (Option Record)
  | deleteRecord (t : TableRef) (r : Record) : Call (Option Record)

/-- What a command is executed for. -/
inductive Purpose
  | rows
  | count
  | value
  deriving DecidableEq

/-- What a backend answers, its rows by a cursor. -/
def Purpose.Answer (κ : Type) : Purpose → Type
  | rows => κ
  | count => Nat
  | value => Value

structure Execution where
  purpose : Purpose
  command : Command

/-- The backend executes a command. -/
def execute {σ κ : Type} [Executor σ κ] (c : Command) : (p : Purpose) → Action σ (p.Answer κ)
  | .rows => Executor.query c
  | .count => Executor.nonQuery c
  | .value => Executor.scalar c

namespace Call

variable {σ κ α : Type}

/-- The call as the database makes it. -/
def run [Executor σ κ] [FiniteRows σ κ] : Call α → Action σ α
  | read p ps taken => do
    let r ← Database.read p ps
    ExceptT.lift (Prod.fst <$> r.nexts taken)
  | retrieve p ps => Database.retrieve p ps
  | readText c taken => do
    let r ← Database.readText c
    ExceptT.lift (Prod.fst <$> r.nexts taken)
  | retrieveText c => Database.retrieveText c
  | nonQuery c => Database.nonQuery c
  | scalar α c => Database.scalar α c
  | create m => Database.create m
  | update m => Database.update m
  | delete m => Database.delete m
  | createRecord t r => Database.createRecord t r
  | updateRecord t r => Database.updateRecord t r
  | deleteRecord t r => Database.deleteRecord t r

/-- What the call compiles to: the text of a plan with the caller's parameters, the caller's own
command, or the command of a mutation. -/
def command : Call α → Except PlanError Command
  | read p ps _ | retrieve p ps => p.sql.map fun text => ⟨text, ps⟩
  | readText c _ | retrieveText c | nonQuery c | scalar _ c => .ok c
  | create m => .ok m.insert
  | update m => m.update
  | delete m => m.delete
  | createRecord t r => .ok (Mutation.ofRecord t r).insert
  | updateRecord t r => (Mutation.ofRecord t r).update
  | deleteRecord t r => (Mutation.ofRecord t r).delete

def purpose : Call α → Purpose
  | nonQuery _ => .count
  | scalar _ _ => .value
  | _ => .rows

/-- What the backend is to receive from the call. -/
def executions (call : Call α) : List Execution :=
  match call.command with
  | .ok c => [⟨call.purpose, c⟩]
  | .error _ => []

/-- What the call makes of an answer. Only the cursor of an answer is moved. -/
def finish [RowSource σ κ] [FiniteRows σ κ] : (call : Call α) → call.purpose.Answer κ → Action σ α
  | read _ _ taken, c | readText _ taken, c =>
    ExceptT.lift (Prod.fst <$> (Records.ofCursor (κ := κ) c).nexts taken)
  | retrieve _ _, c | retrieveText _, c => ExceptT.mk (Records.ofCursor (κ := κ) c).toList
  | nonQuery _, n => pure (f := Action σ) (α := Nat) n
  | scalar α _, v => Readable.convert α "<scalar>" (Value.type v) v
  | create _, c | update _, c | delete _, c | createRecord _ _, c | updateRecord _ _, c
  | deleteRecord _ _, c => ExceptT.mk (Prod.fst <$> (Records.ofCursor (κ := κ) c).first)

theorem readText_bind {β : Type} [Executor σ κ] (c : Command) (f : Records κ → Action σ β) :
    (Database.readText c >>= f) = (Executor.query c >>= fun a => f (.ofCursor a)) := by
  rw [Database.readText, bind_assoc]
  rfl

/-- A call compiles, then its command is executed, then the answer is made use of. -/
theorem run_eq [Executor σ κ] [FiniteRows σ κ] (call : Call α) : call.run (σ := σ) = (do
    let c ← call.command
    let a ← execute c call.purpose
    call.finish a) := by
  cases call with
  | read p ps taken =>
    rw [run, Database.read, bind_assoc]
    exact bind_congr fun c => readText_bind c _
  | retrieve p ps =>
    rw [run, Database.retrieve, Database.read, bind_assoc]
    exact bind_congr fun c => readText_bind c _
  | readText c _ | retrieveText c => exact readText_bind c _
  | nonQuery c => exact (bind_pure _).symm
  | scalar α c => rfl
  | create m => exact readText_bind m.insert _
  | createRecord t r => exact readText_bind (Mutation.ofRecord t r).insert _
  | update m => exact bind_congr fun c => readText_bind c _
  | updateRecord t r => exact bind_congr fun c => readText_bind c _
  | delete m => exact bind_congr fun c => readText_bind c _
  | deleteRecord t r => exact bind_congr fun c => readText_bind c _

end Call

/-- A backend with what it was told to execute, in order. -/
structure Logged (σ : Type) where
  base : σ
  log : List Execution

namespace Logged

variable {σ κ α β : Type}

/-- The backend does its part, and what it executes is noted. -/
def noting (qs : List Execution) (f : StateM σ α) : StateM (Logged σ) α := fun s =>
  ((f s.base).1, ⟨(f s.base).2, s.log ++ qs⟩)

instance [RowSource σ κ] : RowSource (Logged σ) κ where
  advance c := noting [] (RowSource.advance c)
  columns c := RowSource.columns σ c
  value c i := RowSource.value σ c i

instance [RowSource σ κ] [FiniteRows σ κ] : FiniteRows (Logged σ) κ where
  pending c s := FiniteRows.pending c s.base
  pending_lt := by
    intro c c' s s' h
    obtain ⟨moved, rfl⟩ := Prod.mk.inj h
    exact FiniteRows.pending_lt (Prod.ext moved rfl)

instance [Executor σ κ] : Executor (Logged σ) κ where
  query c := ExceptT.mk (noting [⟨.rows, c⟩] (Executor.query c))
  nonQuery c := ExceptT.mk (noting [⟨.count, c⟩] (Executor.nonQuery c))
  scalar c := ExceptT.mk (noting [⟨.value, c⟩] (Executor.scalar c))

/-- What is done with the log is what is done without it, and just these executions are added to
it. -/
def Mirrors (f' : StateM (Logged σ) α) (f : StateM σ α) (qs : List Execution) : Prop :=
  f' = noting qs f

theorem mirrors_pure (a : α) : Mirrors (σ := σ) (pure a) (pure a) [] := by
  funext s
  rw [noting, List.append_nil]
  rfl

namespace Mirrors

variable {f' : StateM (Logged σ) α} {f : StateM σ α} {qs : List Execution}

theorem bind {g' : α → StateM (Logged σ) β} {g : α → StateM σ β} (h : Mirrors f' f qs)
    (silent : ∀ a, Mirrors (g' a) (g a) []) : Mirrors (f' >>= g') (f >>= g) qs := by
  funext s
  have first : f' s = ((f s.base).1, ⟨(f s.base).2, s.log ++ qs⟩) := congrFun h s
  have rest := congrFun (silent (f s.base).1) ⟨(f s.base).2, s.log ++ qs⟩
  rw [noting, List.append_nil] at rest
  simp only [Bind.bind, StateT.bind, noting, first]
  exact rest

theorem map (g : α → β) (h : Mirrors f' f qs) : Mirrors (g <$> f') (g <$> f) qs := by
  rw [map_eq_pure_bind, map_eq_pure_bind]
  exact h.bind fun a => mirrors_pure (g a)

/-- An action goes on where it has no error. -/
theorem bindOk {f' : Action (Logged σ) α} {f : Action σ α} {g' : α → Action (Logged σ) β}
    {g : α → Action σ β} (h : Mirrors f' f qs) (silent : ∀ a, Mirrors (g' a) (g a) []) :
    Mirrors (f' >>= g' : Action (Logged σ) β) (f >>= g : Action σ β) qs := by
  have both : Mirrors (σ := σ) (f' >>= ExceptT.bindCont g') (f >>= ExceptT.bindCont g) qs := by
    refine Mirrors.bind h fun r => ?_
    cases r with
    | error e => exact mirrors_pure _
    | ok a => exact silent a
  exact both

end Mirrors

section Reading

variable [RowSource σ κ]

theorem next_mirrors (r : Records κ) : Mirrors (σ := σ) r.next r.next [] := by
  obtain ⟨cursor, read⟩ := r
  cases cursor with
  | none => exact mirrors_pure _
  | some c =>
    have move : Mirrors (σ := σ) (RowSource.advance c) (RowSource.advance c) [] := rfl
    refine move.bind fun (moved, c') => ?_
    rcases moved with e | _ | _
    · exact mirrors_pure _
    · exact mirrors_pure _
    · have row : readRecord (Logged σ) c' = readRecord σ c' := rfl
      dsimp only
      rw [row]
      cases readRecord σ c' <;> exact mirrors_pure _

theorem nexts_mirrors (n : Nat) (r : Records κ) : Mirrors (σ := σ) (r.nexts n) (r.nexts n) [] := by
  induction n generalizing r with
  | zero => exact mirrors_pure _
  | succ n ih => exact (next_mirrors r).bind fun (_, r) => (ih r).bind fun _ => mirrors_pure _

theorem collect_mirrors (n : Nat) (r : Records κ) :
    Mirrors (σ := σ) (r.collect n) (r.collect n) [] := by
  induction n generalizing r with
  | zero => exact mirrors_pure _
  | succ n ih =>
    refine (next_mirrors r).bind fun (item, r) => ?_
    rcases item with _ | _ | record
    · exact mirrors_pure _
    · exact mirrors_pure _
    · exact (ih r).bind fun _ => mirrors_pure _

theorem first_mirrors (r : Records κ) : Mirrors (σ := σ) r.first r.first [] := by
  refine (next_mirrors r).bind fun (item, r) => ?_
  rcases item with _ | _ | record <;> exact mirrors_pure _

variable [FiniteRows σ κ]

theorem toList_mirrors (r : Records κ) : Mirrors (σ := σ) r.toList r.toList [] :=
  funext fun s => congrFun (collect_mirrors (r.pending s.base + 1) r) s

theorem finish_mirrors (call : Call α) (a : call.purpose.Answer κ) :
    Mirrors (σ := σ) (call.finish a) (call.finish a) [] := by
  cases call with
  | read _ _ taken | readText _ taken =>
    exact ((nexts_mirrors (κ := κ) taken (.ofCursor a)).map Prod.fst).map Except.ok
  | retrieve | retrieveText => exact toList_mirrors (κ := κ) (.ofCursor a)
  | nonQuery | scalar => exact mirrors_pure _
  | create | update | delete | createRecord | updateRecord | deleteRecord =>
    exact (first_mirrors (κ := κ) (.ofCursor a)).map Prod.fst

end Reading

variable [Executor σ κ]

theorem execute_mirrors (c : Command) (p : Purpose) :
    Mirrors (σ := σ) (execute c p) (execute c p) [⟨p, c⟩] := by
  cases p <;> rfl

theorem run_mirrors [FiniteRows σ κ] (call : Call α) :
    Mirrors (σ := σ) call.run call.run call.executions := by
  rw [Call.run_eq, Call.run_eq, Call.executions]
  cases call.command with
  | error e => exact mirrors_pure _
  | ok c => exact (execute_mirrors c call.purpose).bindOk fun a => finish_mirrors call a

end Logged

/-- The backend after a list of calls. -/
def after {σ κ : Type} [Executor σ κ] [FiniteRows σ κ] (calls : List (Σ α, Call α)) (s : σ) : σ :=
  calls.foldl (fun s call => (call.2.run s).2) s

/-- All records among the items, or the first error. -/
def gathered (items : List (Option (Except PlanError Record))) : Except PlanError (List Record) :=
  inOrder id (items.filterMap id)

theorem gathered_ok (r : Record) (items : List (Option (Except PlanError Record))) :
    gathered (some (.ok r) :: items) = (gathered items).map (r :: ·) := by
  have step : gathered (some (.ok r) :: items) = (gathered items >>= fun rs => .ok (r :: rs)) := rfl
  rw [step]
  cases gathered items <;> rfl

theorem gathered_of_ends (records : List Record) (stop : Option PlanError) (m : Nat) :
    gathered (records.map (fun r => some (.ok r)) ++ stop.map .error :: List.replicate m none) =
      drained records stop := by
  induction records with
  | nil =>
    have rest : (List.replicate m none).filterMap
        (id : Option (Except PlanError Record) → _) = [] :=
      List.filterMap_replicate_of_none rfl
    cases stop with
    | none => exact congrArg (inOrder id) rest
    | some e => rfl
  | cons r records ih =>
    rw [List.map_cons, List.cons_append, gathered_ok, ih]
    cases stop <;> rfl

section Histories

variable {σ κ α : Type} [Executor σ κ] [FiniteRows σ κ]

/-- One call notes its request, and a list of calls those of all. -/
theorem after_logged (calls : List (Σ α, Call α)) (s : Logged σ) : after calls s =
    ⟨after calls s.base, s.log ++ calls.flatMap fun call => call.2.executions⟩ := by
  induction calls generalizing s with
  | nil =>
    rw [List.flatMap_nil, List.append_nil]
    rfl
  | cons call calls ih =>
    have one : call.2.run s =
        ((call.2.run s.base).1, ⟨(call.2.run s.base).2, s.log ++ call.2.executions⟩) :=
      congrFun (Logged.run_mirrors call.2) s
    rw [List.flatMap_cons, ← List.append_assoc, after, List.foldl_cons, one]
    exact ih _

theorem run_apply (call : Call α) (s : σ) : call.run s =
    match call.command with
    | .error e => (.error e, s)
    | .ok c => match execute c call.purpose s with
      | (.error e, s') => (.error e, s')
      | (.ok a, s') => call.finish a s' := by
  cases compiled : call.command with
  | error e =>
    rw [Call.run_eq, compiled]
    rfl
  | ok c =>
    dsimp only
    have executed : (call.run s : Except PlanError α × σ) = ExceptT.bindCont call.finish
        (execute c call.purpose s).1 (execute c call.purpose s).2 := by
      rw [Call.run_eq, compiled]
      rfl
    rw [executed]
    rcases execute c call.purpose s with ⟨e | a, s'⟩ <;> rfl

theorem toList_drains (c : κ) (s : σ) : ∃ least, ∀ more,
    (Records.ofCursor c).toList s =
      (gathered ((Records.ofCursor c).nexts (least + more) s).1.1,
        ((Records.ofCursor c).nexts (least + more) s).2) := by
  obtain ⟨records, stop, s', ends, within⟩ := ends_within c s
  refine ⟨records.length + 1, fun more => ?_⟩
  have items := Records.nexts_of_ends ends 0 more
  rw [Records.ofCursor, items, gathered_of_ends]
  exact Records.toList_of_ends ends within 0

theorem retrieve_drains (p : Plan) (ps : List Parameter) (s : σ) : ∃ least, ∀ more,
    Database.retrieve p ps s =
      match (Call.read p ps (least + more)).run s with
      | (.error e, s') => (.error e, s')
      | (.ok items, s') => (gathered items, s') := by
  have all : Database.retrieve p ps s = _ := run_apply (.retrieve p ps) s
  have taken := fun n => run_apply (.read p ps n) s
  simp only [all, taken, Call.command]
  cases p.sql with
  | error e => exact ⟨0, fun _ => rfl⟩
  | ok text =>
    simp only [Except.map, Call.purpose]
    rcases execute (κ := κ) ⟨text, ps⟩ .rows s with ⟨e | a, s'⟩
    · exact ⟨0, fun _ => rfl⟩
    · exact toList_drains (κ := κ) a s'

/-- From any list of calls the backend receives the commands of those that compile, once each and in
order, and the log changes nothing of what the calls do. A call that does not compile returns its
error and leaves the backend alone; an error of the backend is returned as it is; and no answer is
made use of but by moving its cursor. Retrieving is reading until there is nothing more, reading a
plan is reading its text, and a record is written as its mutation. -/
theorem calls_run_what_compiles :
    (∀ (calls : List (Σ α, Call α)) (s : Logged σ), after calls s =
      ⟨after calls s.base, s.log ++ calls.flatMap fun call => call.2.executions⟩) ∧
    (∀ {α : Type} (call : Call α), (∀ s : Logged σ, (call.run s).1 = (call.run s.base).1) ∧
      ∀ s : σ, call.run s =
        match call.command with
        | .error e => (.error e, s)
        | .ok c => match execute c call.purpose s with
          | (.error e, s') => (.error e, s')
          | (.ok a, s') => call.finish a s') ∧
    (∀ p ps (s : σ), ∃ least, ∀ more, Database.retrieve p ps s =
      match (Call.read p ps (least + more)).run s with
      | (.error e, s') => (.error e, s')
      | (.ok items, s') => (gathered items, s')) ∧
    (∀ p ps (s : σ), Database.read p ps s =
      match p.sql with
      | .error e => (.error e, s)
      | .ok text => Database.readText ⟨text, ps⟩ s) ∧
    ∀ t r, (Database.createRecord t r : Action σ _) = Database.create (.ofRecord t r) ∧
      (Database.updateRecord t r : Action σ _) = Database.update (.ofRecord t r) ∧
      (Database.deleteRecord t r : Action σ _) = Database.delete (.ofRecord t r) := by
  refine ⟨after_logged, fun call => ⟨fun s => ?_, run_apply call⟩, retrieve_drains,
    fun p ps s => ?_, fun t r => ⟨rfl, rfl, rfl⟩⟩
  · have mirrored := congrFun (Logged.run_mirrors call) s
    exact congrArg Prod.fst mirrored
  · rw [Database.read, Plan.command]
    cases p.sql <;> rfl

end Histories

/-- A backend with two scores for every query, that counts no rows. -/
instance : Executor Nat ScriptedRows where
  query _ := pure ScriptedRows.twoScores
  nonQuery _ := throw .io
  scalar _ := pure (.int 2)

/-- An update without a key is not executed; a command that fails is, and so is the next one. -/
example : (after [⟨_, .update ⟨⟨"Hr", "Employee"⟩, []⟩⟩, ⟨_, .nonQuery ⟨"VACUUM", []⟩⟩,
    ⟨_, .readText ⟨"SELECT 1", []⟩ 5⟩] (⟨0, []⟩ : Logged Nat)).log =
      [⟨.count, ⟨"VACUUM", []⟩⟩, ⟨.rows, ⟨"SELECT 1", []⟩⟩] := rfl

end PlanSql
