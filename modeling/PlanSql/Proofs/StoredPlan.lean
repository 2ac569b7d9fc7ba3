import PlanSql.Record
import PlanSql.Proofs.StoredValue

namespace PlanSql

theorem ValueType.decode?_document (t : ValueType) (depth : Nat) :
    ValueType.decode? depth t.document = some t := by
  rw [decode?, document, Document.bareVariant?_ofString, Option.bind_some, ofName?_name]

theorem TableRef.decode?_document (t : TableRef) {depth : Nat} (nests : t.document.Nests depth) :
    TableRef.decode? depth t.document = some t := by
  obtain ⟨depth, rfl, -⟩ := nests.of_record
  simp [decode?, document]

theorem ColumnRef.decode?_document (c : ColumnRef) {depth : Nat} (nests : c.document.Nests depth) :
    ColumnRef.decode? depth c.document = some c := by
  obtain ⟨depth, rfl, -⟩ := nests.of_record
  simp [decode?, document]

theorem written_texts (fields : List (String × String)) :
    (Document.record (fields.map fun f => (f.1, .ofString f.2))).Written :=
  Document.written_record fun f hf => by
    obtain ⟨g, -, rfl⟩ := List.mem_map.mp hf
    exact .string _

theorem TableRef.written (t : TableRef) : t.document.Written :=
  written_texts [("namespace", t.space), ("name", t.name)]

theorem ColumnRef.written (c : ColumnRef) : c.document.Written :=
  written_texts [("namespace", c.table.space), ("object_name", c.table.name),
    ("member_name", c.name)]

namespace Expression

/-- Expressions all of whose constants are storable. -/
inductive Storable : Expression → Prop
  | operation {op l r} : Storable l → Storable r → Storable (.operation op l r)
  | constant {v : Value} {t} : v.Storable → Storable (.constant v t)
  | parameter (name) : Storable (.parameter name)
  | column (c) : Storable (.column c)
  | order (c d) : Storable (.order c d)
  | partition {kind operand count} : (∀ e, operand = some e → Storable e) →
      (∀ e, count = some e → Storable e) → Storable (.partition kind operand count)

inductive Equal : Expression → Expression → Prop
  | operation {op l l' r r'} : Equal l l' → Equal r r' →
      Equal (.operation op l r) (.operation op l' r')
  | constant {v w : Value} {t} : v.Equal w → Equal (.constant v t) (.constant w t)
  | parameter (name) : Equal (.parameter name) (.parameter name)
  | column (c) : Equal (.column c) (.column c)
  | order (c d) : Equal (.order c d) (.order c d)
  | partition {kind a a' b b'} : Option.Rel Equal a a' → Option.Rel Equal b b' →
      Equal (.partition kind a b) (.partition kind a' b')

theorem written_tagged {k : NodeKind} {fields : List (String × Document)}
    (h : ∀ f ∈ fields, f.2.Written) : (tagged k fields).Written :=
  Document.written_record fun f hf => by
    obtain rfl := List.mem_singleton.mp hf
    exact Document.written_record h

theorem nests_tagged {k : NodeKind} {fields : List (String × Document)} {depth : Nat}
    (h : (tagged k fields).Nests depth) : ∃ d, depth = d + 2 ∧ ∀ f ∈ fields, f.2.Nests d := by
  obtain ⟨outer, rfl, tag⟩ := h.of_record
  obtain ⟨d, rfl, each⟩ := (tag _ List.mem_cons_self).of_record
  exact ⟨d, rfl, each⟩

theorem written_option {e? : Option Expression} (h : ∀ e, e? = some e → e.document.Written) :
    (optionDocument e?).Written := by
  cases e? with
  | none => exact .null
  | some e => exact h e rfl

theorem Storable.written {e : Expression} (h : e.Storable) : e.document.Written := by
  induction h with
  | operation _ _ ihl ihr =>
    rw [document]
    exact written_tagged (by simp [ihl, ihr])
  | constant h =>
    rw [document]
    exact written_tagged (by simp [h.written, ValueType.document])
  | parameter name =>
    rw [document]
    exact written_tagged (by simp)
  | column c =>
    rw [document]
    exact Document.written_record (by simp [c.written])
  | order c d =>
    rw [document]
    exact written_tagged (by simp [c.written])
  | partition _ _ iho ihc =>
    rw [document]
    exact written_tagged (by simp [written_option iho, written_option ihc])

theorem optional?_document {α : Type} (e : Expression) (read : Document → Option α) :
    e.document.optional? read = (read e.document).map some := by
  cases e <;> rfl

/-- What may be absent is read as absent or as an equal expression. -/
theorem optional?_optionDocument (e? : Option Expression) {depth : Nat}
    (h : ∀ e, e? = some e → ∃ e', decode? depth e.document = some e' ∧ e'.Equal e) :
    ∃ e?', (optionDocument e?).optional? (decode? depth) = some e?' ∧ Option.Rel Equal e?' e? := by
  cases e? with
  | none => exact ⟨none, rfl, .none⟩
  | some e =>
    obtain ⟨e', read, equal⟩ := h e rfl
    exact ⟨some e', by rw [optionDocument, optional?_document, read, Option.map_some], .some equal⟩

/-- An expression is read as an equal one. -/
theorem decode?_document {e : Expression} (h : e.Storable) {depth : Nat}
    (nests : e.document.Nests depth) :
    ∃ e', decode? depth e.document = some e' ∧ e'.Equal e := by
  induction h generalizing depth with
  | @operation op l r _ _ ihl ihr =>
    obtain ⟨depth, rfl, each⟩ := nests_tagged nests
    obtain ⟨l', left, equal_l⟩ := ihl (each ("left", l.document) (by simp))
    obtain ⟨r', right, equal_r⟩ := ihr (each ("right", r.document) (by simp))
    refine ⟨_, ?_, .operation equal_l equal_r⟩
    simp [document, tagged, decode?, InfixOperator.ofName?_name, left, right]
  | @constant v t h =>
    obtain ⟨depth, rfl, each⟩ := nests_tagged nests
    obtain ⟨w, read, equal⟩ :=
      Value.decode?_document h false (each ("value", v.document) (by simp))
    refine ⟨_, ?_, .constant equal⟩
    simp [document, tagged, decode?, NodeKind.name, read, ValueType.decode?_document]
  | parameter name =>
    obtain ⟨depth, rfl, -⟩ := nests_tagged nests
    refine ⟨_, ?_, .parameter name⟩
    simp [document, tagged, decode?, NodeKind.name]
  | column c =>
    obtain ⟨outer, rfl, tag⟩ := nests.of_record
    have inner := tag _ List.mem_cons_self
    obtain ⟨depth, rfl, -⟩ := inner.of_record
    refine ⟨_, ?_, .column c⟩
    simp [document, decode?, NodeKind.name, c.decode?_document inner]
  | order c d =>
    obtain ⟨depth, rfl, each⟩ := nests_tagged nests
    refine ⟨_, ?_, .order c d⟩
    simp [document, tagged, decode?, NodeKind.name, SortDirection.ofName?_name,
      c.decode?_document (each ("member", c.document) (by simp))]
  | @partition kind operand count _ _ iho ihc =>
    obtain ⟨depth, rfl, each⟩ := nests_tagged nests
    have nests_operand := each ("operand", optionDocument operand) (by simp)
    have nests_count := each ("argument", optionDocument count) (by simp)
    obtain ⟨operand', read_operand, equal_operand⟩ := optional?_optionDocument operand fun e he =>
      iho e he (by subst he; exact nests_operand)
    obtain ⟨count', read_count, equal_count⟩ := optional?_optionDocument count fun e he =>
      ihc e he (by subst he; exact nests_count)
    refine ⟨_, ?_, .partition equal_operand equal_count⟩
    simp [document, tagged, decode?, NodeKind.name, PartitionKind.ofName?_name, read_operand,
      read_count]

end Expression

/-- A list of documents is read item by item, as deep as it nests. -/
theorem exists_list {α : Type} {f : α → Document} {read : Nat → Document → Option α}
    {R : α → α → Prop} {xs : List α} {depth : Nat}
    (nests : (Document.array (xs.map f)).Nests depth)
    (h : ∀ x ∈ xs, ∀ {depth}, (f x).Nests depth → ∃ y, read depth (f x) = some y ∧ R y x) :
    ∃ ys, Plan.list? read depth (some (.array (xs.map f))) = some ys ∧ List.Forall₂ R ys xs := by
  obtain ⟨depth, rfl, each⟩ := nests.of_array
  exact exists_mapM fun x hx => h x hx (each _ (List.mem_map_of_mem hx))

theorem written_list {α : Type} {f : α → Document} {xs : List α} (h : ∀ x ∈ xs, (f x).Written) :
    (Document.array (xs.map f)).Written :=
  .array fun d hd => by
    obtain ⟨x, hx, rfl⟩ := List.mem_map.mp hd
    exact h x hx

structure Level.Storable (l : Level) : Prop where
  expressions : ∀ e ∈ l.filters ++ l.sorts ++ l.projections ++ l.partitions, e.Storable
  index_lt : l.index < 2 ^ 32

structure Level.Equal (l k : Level) : Prop where
  tables : l.tables = k.tables
  filters : List.Forall₂ Expression.Equal l.filters k.filters
  sorts : List.Forall₂ Expression.Equal l.sorts k.sorts
  projections : List.Forall₂ Expression.Equal l.projections k.projections
  partitions : List.Forall₂ Expression.Equal l.partitions k.partitions
  index : l.index = k.index

namespace Plan

def Storable : Plan → Prop
  | base l => l.Storable
  | nested l p => l.Storable ∧ p.Storable

inductive Equal : Plan → Plan → Prop
  | base {l k} : l.Equal k → Equal (.base l) (.base k)
  | nested {l k p q} : l.Equal k → Equal p q → Equal (.nested l p) (.nested k q)

theorem written_level {l : Level} (h : l.Storable) {inner : Document} (hi : inner.Written) :
    (document.levelDocument l inner).Written := by
  have list {es : List Expression} (hes : ∀ e ∈ es, e ∈ l.filters ++ l.sorts ++ l.projections ++
      l.partitions) : (Document.array (es.map Expression.document)).Written :=
    written_list fun e he => (h.expressions e (hes e he)).written
  have tables : (Document.array (l.tables.map TableRef.document)).Written :=
    written_list fun t _ => t.written
  refine Document.written_record fun f hf => ?_
  simp only [List.mem_cons, List.not_mem_nil, or_false] at hf
  rcases hf with rfl | rfl | rfl | rfl | rfl | rfl | rfl
  · exact tables
  · exact list (by simp +contextual)
  · exact list (by simp +contextual)
  · exact list (by simp +contextual)
  · exact hi
  · exact list (by simp +contextual)
  · exact .int _

theorem Storable.written {p : Plan} (h : p.Storable) : p.document.Written := by
  induction p with
  | base l => exact written_level h .null
  | nested l p ih => exact written_level h.1 (ih h.2)

theorem optional?_document {α : Type} (p : Plan) (read : Document → Option α) :
    p.document.optional? read = (read p.document).map some := by
  cases p <;> rfl

/-- A level is read as an equal one, over the plan that is read inside it. -/
theorem decode?_level {l : Level} (h : l.Storable) {inner : Document} {depth : Nat}
    (inner? : Option Plan) (nests : (document.levelDocument l inner).Nests (depth + 1))
    (read : inner.optional? (decode? depth) = some inner?) :
    ∃ k, decode? (depth + 1) (document.levelDocument l inner) =
      some (match inner? with
        | none => base k
        | some p => nested k p) ∧ k.Equal l := by
  obtain ⟨_, e, each⟩ := nests.of_record
  obtain rfl := Nat.succ.inj e
  have list (name : String) (es : List Expression)
      (hf : (name, Document.array (es.map Expression.document)) ∈ _)
      (hes : ∀ e ∈ es, e ∈ l.filters ++ l.sorts ++ l.projections ++ l.partitions) :
      ∃ es', list? Expression.decode? depth (some (.array (es.map Expression.document))) =
        some es' ∧ List.Forall₂ Expression.Equal es' es :=
    exists_list (each _ hf) fun e he => Expression.decode?_document (h.expressions e (hes e he))
  obtain ⟨tables, read_tables, equal_tables⟩ := exists_list (R := Eq)
    (each ("types", .array (l.tables.map TableRef.document)) (by simp))
    fun t _ _ ht => ⟨t, t.decode?_document ht, rfl⟩
  rw [List.forall₂_eq_eq_eq] at equal_tables
  obtain ⟨filters, read_filters, equal_filters⟩ :=
    list "filters" l.filters (by simp) (by simp +contextual)
  obtain ⟨sorts, read_sorts, equal_sorts⟩ :=
    list "sorts" l.sorts (by simp) (by simp +contextual)
  obtain ⟨projections, read_projections, equal_projections⟩ :=
    list "projections" l.projections (by simp) (by simp +contextual)
  obtain ⟨partitions, read_partitions, equal_partitions⟩ :=
    list "partitions" l.partitions (by simp) (by simp +contextual)
  have index_lt := h.index_lt
  have index : (Document.ofInt l.index).int? 0 4294967295 = some (l.index : Int) :=
    Document.int?_ofInt (by omega) (by omega) (by decide) (by decide)
  refine ⟨⟨tables, filters, sorts, projections, partitions, l.index⟩, ?_, equal_tables,
    equal_filters, equal_sorts, equal_projections, equal_partitions, rfl⟩
  cases inner? with
  | none =>
    simp [document.levelDocument, decode?, read_tables, read_filters, read_sorts, read_projections,
      read_partitions, read, index]
  | some p =>
    simp [document.levelDocument, decode?, read_tables, read_filters, read_sorts, read_projections,
      read_partitions, read, index]

/-- A plan is read as an equal one. -/
theorem decode?_document {p : Plan} (h : p.Storable) {depth : Nat}
    (nests : p.document.Nests depth) :
    ∃ q, decode? depth p.document = some q ∧ q.Equal p := by
  induction p generalizing depth with
  | base l =>
    obtain ⟨depth, rfl, -⟩ := nests.of_record
    obtain ⟨k, read, equal⟩ := decode?_level h none nests rfl
    exact ⟨_, read, .base equal⟩
  | nested l p ih =>
    obtain ⟨depth, rfl, each⟩ := nests.of_record
    obtain ⟨q, read_inner, equal_inner⟩ := ih h.2 (each ("sub_plan", p.document) (by simp))
    obtain ⟨k, read, equal⟩ := decode?_level h.1 (some q) nests (by
      rw [optional?_document, read_inner, Option.map_some])
    exact ⟨_, read, .nested equal equal_inner⟩

end Plan

def Command.Storable (c : Command) : Prop := ∀ p ∈ c.parameters, p.value.Storable

structure Parameter.Equal (p q : Parameter) : Prop where
  name : p.name = q.name
  value : p.value.Equal q.value

structure Command.Equal (c d : Command) : Prop where
  text : c.text = d.text
  parameters : List.Forall₂ Parameter.Equal c.parameters d.parameters

theorem Parameter.decode?_document {p : Parameter} (h : p.value.Storable) {depth : Nat}
    (nests : p.document.Nests depth) :
    ∃ q, Parameter.decode? depth p.document = some q ∧ q.Equal p := by
  obtain ⟨depth, rfl, each⟩ := nests.of_record
  obtain ⟨v, read, equal⟩ :=
    Value.decode?_document h false (each ("value", p.value.document) (by simp))
  refine ⟨⟨p.name, v⟩, ?_, rfl, equal⟩
  simp [decode?, document, read]

theorem Parameter.written {p : Parameter} (h : p.value.Storable) : p.document.Written :=
  Document.written_record (by simp [h.written])

theorem Command.written {c : Command} (h : c.Storable) : c.document.Written := by
  have parameters : (Document.array (c.parameters.map Parameter.document)).Written :=
    written_list fun p hp => Parameter.written (h p hp)
  exact Document.written_record (by simp [parameters])

theorem Command.decode?_document {c : Command} (h : c.Storable) {depth : Nat}
    (nests : c.document.Nests depth) :
    ∃ d, Command.decode? depth c.document = some d ∧ d.Equal c := by
  obtain ⟨depth, rfl, each⟩ := nests.of_record
  obtain ⟨ps, read, equal⟩ := exists_list
    (each ("parameters", .array (c.parameters.map Parameter.document)) (by simp))
    fun p hp => Parameter.decode?_document (h p hp)
  refine ⟨⟨c.text, ps⟩, ?_, rfl, equal⟩
  simp [decode?, document, read]

def Record.Storable (r : Record) : Prop := ∀ f ∈ r.fields, f.value.Storable

structure Field.Equal (f g : Field) : Prop where
  name : f.name = g.name
  type : f.type = g.type
  value : f.value.Equal g.value

def Record.Equal (r s : Record) : Prop := List.Forall₂ Field.Equal r.fields s.fields

theorem Field.decode?_document {f : Field} (h : f.value.Storable) {depth : Nat}
    (nests : f.document.Nests depth) :
    ∃ g, Field.decode? depth f.document = some g ∧ g.Equal f := by
  obtain ⟨depth, rfl, each⟩ := nests.of_record
  obtain ⟨v, read, equal⟩ :=
    Value.decode?_document h false (each ("value", f.value.document) (by simp))
  refine ⟨⟨f.name, f.type, v⟩, ?_, rfl, rfl, equal⟩
  simp [decode?, document, ValueType.decode?_document, read]

theorem Field.written {f : Field} (h : f.value.Storable) : f.document.Written :=
  Document.written_record (by simp [h.written, ValueType.document])

theorem Record.written {r : Record} (h : r.Storable) : r.document.Written := by
  have fields : (Document.array (r.fields.map Field.document)).Written :=
    written_list fun f hf => Field.written (h f hf)
  exact Document.written_record (by simp [fields])

theorem Record.decode?_document {r : Record} (h : r.Storable) {depth : Nat}
    (nests : r.document.Nests depth) :
    ∃ s, Record.decode? depth r.document = some s ∧ s.Equal r := by
  obtain ⟨depth, rfl, each⟩ := nests.of_record
  obtain ⟨fs, read, equal⟩ := exists_list
    (each ("fields", .array (r.fields.map Field.document)) (by simp))
    fun f hf => Field.decode?_document (h f hf)
  refine ⟨⟨fs⟩, ?_, equal⟩
  simp [decode?, document, read]

/-- Plans, commands and records without floats, nested no deeper than texts are read, are read from
their texts as equal ones. -/
theorem stored_reads_back :
    (∀ p : Plan, p.Storable → p.document.Nests Document.depthLimit →
      ∃ q, Plan.read? p.document.text = some q ∧ q.Equal p) ∧
    (∀ c : Command, c.Storable → c.document.Nests Document.depthLimit →
      ∃ d, Command.read? c.document.text = some d ∧ d.Equal c) ∧
    ∀ r : Record, r.Storable → r.document.Nests Document.depthLimit →
      ∃ s, Record.read? r.document.text = some s ∧ s.Equal r := by
  refine ⟨fun p h nests => ?_, fun c h nests => ?_, fun r h nests => ?_⟩
  · rw [Plan.read?, Document.read?_text h.written]
    exact Plan.decode?_document h nests
  · rw [Command.read?, Document.read?_text (Command.written h)]
    exact Command.decode?_document h nests
  · rw [Record.read?, Document.read?_text (Record.written h)]
    exact Record.decode?_document h nests

/-- The employees with one note or a start before a leap second, behind the first ones of them. -/
def storedPlan : Plan :=
  let table : TableRef := ⟨"Acme.Hr", "Employee"⟩
  let note := .operation .equal (.column ⟨table, "Note"⟩) (.ofValue (.text "\"C:\\\" \x01 ü"))
  let start := .operation .lessThan (.column ⟨table, "Start"⟩)
    (.constant (.time ⟨23, 59, 60, 0, by decide, by decide, by decide, by decide⟩) .time)
  ((((Plan.ofTable table).filter (.operation .logicalOr note start)).orderBy ⟨table, "Id"⟩
    .descending).wrapped.project (.column ⟨table, "Id"⟩)).partition (.skip (.parameter "from"))

def storedCommand : Command where
  text := "INSERT INTO t VALUES (@a, @d)"
  parameters := [
    ⟨"a", .array [.null, .array [], .numeric
      ⟨true, 0, 2, Decimal.zero.mantissa_lt, Decimal.zero.dvd_mantissa⟩]⟩,
    ⟨"d", .array [.date ⟨-44, 3, 15, rfl⟩, .date ⟨10000, 1, 1, rfl⟩]⟩]

def storedRecord : Record where
  fields := [⟨"Data", .unknown, .json .null⟩,
    ⟨"Keys", .json, .json (.object [("a", .number (.integer (-1))), ("b", .array [])])⟩,
    ⟨"For", .interval, .interval ⟨-1, 30, 0⟩⟩, ⟨"Raw", .bytes, .bytes [0, 255]⟩]

theorem storedPlan_storable : storedPlan.Storable := by
  refine ⟨⟨List.forall_mem_cons.mpr ⟨.column _, List.forall_mem_singleton.mpr ?_⟩, by decide⟩,
    List.forall_mem_cons.mpr ⟨?_, List.forall_mem_singleton.mpr (.order _ _)⟩, by decide⟩
  · refine .partition nofun ?_
    rintro _ ⟨⟩
    exact .parameter _
  · exact .operation (.operation (.column _) (.constant (.scalar (by decide))))
      (.operation (.column _) (.constant (.scalar (by decide))))

theorem storedCommand_storable : storedCommand.Storable := by
  refine List.forall_mem_cons.mpr ⟨.array ?_, List.forall_mem_singleton.mpr (.array ?_)⟩
  · exact List.forall_mem_cons.mpr ⟨.scalar (by decide), List.forall_mem_cons.mpr
      ⟨.array (List.forall_mem_nil _), List.forall_mem_singleton.mpr (.scalar (by decide))⟩⟩
  · exact List.forall_mem_cons.mpr
      ⟨.scalar (by decide), List.forall_mem_singleton.mpr (.scalar (by decide))⟩

theorem storedRecord_storable : storedRecord.Storable := by
  refine List.forall_mem_cons.mpr ⟨.json .null, List.forall_mem_cons.mpr ⟨.json (.object ?_ ?_),
    List.forall_mem_cons.mpr ⟨.scalar (by decide), List.forall_mem_singleton.mpr
      (.scalar (by decide))⟩⟩⟩
  · decide
  · exact List.forall_mem_cons.mpr ⟨.integer ⟨by decide, by decide⟩,
      List.forall_mem_singleton.mpr (.array (List.forall_mem_nil _))⟩

theorem stored_reads_back_archive :
    (storedPlan.Storable ∧ storedPlan.document.Nests Document.depthLimit ∧
      ∃ q, Plan.read? storedPlan.document.text = some q ∧ q.Equal storedPlan) ∧
    (storedCommand.Storable ∧ storedCommand.document.Nests Document.depthLimit ∧
      ∃ d, Command.read? storedCommand.document.text = some d ∧ d.Equal storedCommand) ∧
    storedRecord.Storable ∧ storedRecord.document.Nests Document.depthLimit ∧
      ∃ s, Record.read? storedRecord.document.text = some s ∧ s.Equal storedRecord := by
  have plan : storedPlan.document.Nests Document.depthLimit := by decide
  have command : storedCommand.document.Nests Document.depthLimit := by decide
  have record : storedRecord.document.Nests Document.depthLimit := by decide
  exact ⟨⟨storedPlan_storable, plan, stored_reads_back.1 _ storedPlan_storable plan⟩,
    ⟨storedCommand_storable, command, stored_reads_back.2.1 _ storedCommand_storable command⟩,
    storedRecord_storable, record, stored_reads_back.2.2 _ storedRecord_storable record⟩

end PlanSql
