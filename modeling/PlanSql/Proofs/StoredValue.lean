import Mathlib.Data.List.Forall2
import PlanSql.Value
import PlanSql.Proofs.CalendarReading
import PlanSql.Proofs.DocumentReading

namespace PlanSql

theorem mapM_of_forall₂ {α β : Type} {f : α → Option β} {xs : List α} {ys : List β}
    (h : List.Forall₂ (fun x y => f x = some y) xs ys) : xs.mapM f = some ys := by
  induction h with
  | nil => rfl
  | cons hx _ ih => simp [hx, ih]

/-- A list of documents is read item by item. -/
theorem exists_mapM {α β γ : Type} {f : α → Option β} {g : γ → α} {R : β → γ → Prop}
    {xs : List γ} (h : ∀ x ∈ xs, ∃ y, f (g x) = some y ∧ R y x) :
    ∃ ys, (xs.map g).mapM f = some ys ∧ List.Forall₂ R ys xs := by
  induction xs with
  | nil => exact ⟨[], rfl, .nil⟩
  | cons x xs ih =>
    obtain ⟨y, hy, first⟩ := h x List.mem_cons_self
    obtain ⟨ys, hys, rest⟩ := ih fun z hz => h z (List.mem_cons_of_mem x hz)
    exact ⟨y :: ys, by simp [hy, hys], .cons first rest⟩

theorem mapM_map_eq {α β γ : Type} {f : α → Option β} {g : γ → α} {k : γ → β} {xs : List γ}
    (h : ∀ x ∈ xs, f (g x) = some (k x)) : (xs.map g).mapM f = some (xs.map k) := by
  refine mapM_of_forall₂ ?_
  rw [List.forall₂_map_left_iff, List.forall₂_map_right_iff, List.forall₂_same]
  exact h

theorem filter_name {α : Type} {fields : List (String × α)} (nodup : (fields.map Prod.fst).Nodup)
    {f : String × α} (hf : f ∈ fields) : fields.filter (fun g => g.1 = f.1) = [f] := by
  induction fields with
  | nil => cases hf
  | cons g fields ih =>
    rw [List.map_cons, List.nodup_cons] at nodup
    rcases List.mem_cons.mp hf with rfl | hf
    · have others : fields.filter (fun g => g.1 = f.1) = [] := by
        rw [List.filter_eq_nil_iff]
        intro h hh same
        exact nodup.1 (List.mem_map.mpr ⟨h, hh, of_decide_eq_true same⟩)
      simp [others]
    · have other : g.1 ≠ f.1 := fun same => nodup.1 (same ▸ List.mem_map_of_mem hf)
      simp [other, ih nodup.2 hf]

namespace Document

/-- The fields of a record are read by their names. -/
@[simp]
theorem record?_record {fields : List (String × Document)} {names : List String}
    (e : fields.map Prod.fst = names) (nodup : names.Nodup) (least : Nat) :
    (record fields).record? names least = some (fields.map fun f => some f.2) := by
  subst e
  have read : (fields.map fun (f : String × Document) => (escape f.1.toList, f.2)).mapM
      (fun f => (unescape? f.1).map fun s => (String.ofList s, f.2)) = some fields := by
    rw [mapM_map_eq (k := id) fun f _ => by simp [unescape?_escape], List.map_id]
  unfold record record?
  refine (congrArg (Option.bind · _) read).trans ?_
  rw [Option.bind_some]
  refine mapM_map_eq fun f hf => ?_
  simp only [filter_name nodup hf]

@[simp]
theorem variant?_record (name : String) (d : Document) :
    (record [(name, d)]).variant? = some (name, some d) := by
  simp [record, variant?, unescape?_escape]

@[simp]
theorem text?_ofString (s : String) : (ofString s).text? = some s := by
  simp [ofString, text?, unescape?_escape]

theorem bind_text? {α β : Type} {read : List Char → Option α} {t : List Char} {x : α}
    (h : read t = some x) (k : α → β) :
    ((ofString (String.ofList t)).text?.bind fun s => (read s.toList).map k) = some (k x) := by
  rw [text?_ofString, Option.bind_some, String.toList_ofList, h, Option.map_some]

theorem variant?_ofString (s : String) : (ofString s).variant? = some (s, none) := by
  simp [ofString, variant?, unescape?_escape]

@[simp]
theorem bareVariant?_ofString (depth : Nat) (s : String) :
    (ofString s).bareVariant? depth = some s := by
  simp [bareVariant?, variant?_ofString]

theorem number?_ofInt {n : Int} (h : IsJsonInteger n) : (ofInt n).number? = some (.integer n) :=
  JsonNumber.ofNumeral?_integer h

theorem int?_ofInt {least greatest n : Int} (low : least ≤ n) (high : n ≤ greatest)
    (hl : -2 ^ 63 ≤ least) (hg : greatest < 2 ^ 64) : (ofInt n).int? least greatest = some n := by
  simp [int?, number?_ofInt ⟨hl.trans low, high.trans_lt hg⟩, low, high]

end Document

namespace Document

/-- Whether arrays and objects nest at most `depth` deep. -/
def Nests : (depth : Nat) → Document → Prop
  | 0, array _ | 0, object _ => False
  | depth + 1, array items => ∀ d ∈ items, Nests depth d
  | depth + 1, object fields => ∀ f ∈ fields, Nests depth f.2
  | _, _ => True

instance decidableNests : (depth : Nat) → (d : Document) → Decidable (Nests depth d)
  | 0, array _ | 0, object _ => isFalse id
  | depth + 1, array items => @List.decidableBAll _ _ (decidableNests depth) items
  | depth + 1, object fields =>
    @List.decidableBAll _ (fun f : List Char × Document => Nests depth f.2)
      (fun f => decidableNests depth f.2) fields
  | 0, null | 0, bool _ | 0, number _ | 0, string _ => isTrue trivial
  | _ + 1, null | _ + 1, bool _ | _ + 1, number _ | _ + 1, string _ => isTrue trivial

theorem Nests.of_array {depth : Nat} {items : List Document} (h : Nests depth (.array items)) :
    ∃ k, depth = k + 1 ∧ ∀ d ∈ items, Nests k d := by
  cases depth with
  | zero => exact h.elim
  | succ k => exact ⟨k, rfl, h⟩

theorem Nests.of_object {depth : Nat} {fields : List (List Char × Document)}
    (h : Nests depth (.object fields)) : ∃ k, depth = k + 1 ∧ ∀ f ∈ fields, Nests k f.2 := by
  cases depth with
  | zero => exact h.elim
  | succ k => exact ⟨k, rfl, h⟩

theorem Nests.of_record {depth : Nat} {fields : List (String × Document)}
    (h : Nests depth (record fields)) : ∃ k, depth = k + 1 ∧ ∀ f ∈ fields, Nests k f.2 := by
  obtain ⟨k, rfl, each⟩ := Nests.of_object h
  exact ⟨k, rfl, fun f hf => each _ (List.mem_map_of_mem hf)⟩

@[simp]
theorem written_ofString (s : String) : (ofString s).Written :=
  .string _

theorem written_record {fields : List (String × Document)} (h : ∀ f ∈ fields, Written f.2) :
    Written (record fields) := by
  refine .object (fun f hf => ?_) fun f hf => ?_
  all_goals obtain ⟨g, hg, rfl⟩ := List.mem_map.mp hf
  · exact ⟨_, rfl⟩
  · exact h g hg

end Document

namespace Json

/-- JSON values with whole numbers of 64 bits, and with the fields of objects in the order of their
names. -/
inductive Storable : Json → Prop
  | null : Storable .null
  | bool (b : Bool) : Storable (.bool b)
  | integer {n : Int} : IsJsonInteger n → Storable (.number (.integer n))
  | string (s : String) : Storable (.string s)
  | array {items} : (∀ j ∈ items, Storable j) → Storable (.array items)
  | object {fields : List (String × Json)} : (fields.map Prod.fst).Pairwise (· < ·) →
      (∀ f ∈ fields, Storable f.2) → Storable (.object fields)

theorem insert_of_lt {name : String} {fields : List (String × Json)}
    (h : ∀ f ∈ fields, f.1 < name) (j : Json) : insert name j fields = fields ++ [(name, j)] := by
  induction fields with
  | nil => rfl
  | cons f fields ih =>
    have less := h f List.mem_cons_self
    have ne : name ≠ f.1 := fun e => String.lt_irrefl _ (e ▸ less)
    rw [insert, if_neg ne, if_neg (String.lt_asymm less),
      ih fun g hg => h g (List.mem_cons_of_mem f hg), List.cons_append]

theorem foldl_insert {acc fields : List (String × Json)}
    (sorted : ((acc ++ fields).map Prod.fst).Pairwise (· < ·)) :
    fields.foldl (fun fs (name, j) => insert name j fs) acc = acc ++ fields := by
  induction fields generalizing acc with
  | nil => simp
  | cons f fields ih =>
    have less : ∀ g ∈ acc, g.1 < f.1 := by
      rw [List.map_append, List.pairwise_append] at sorted
      exact fun g hg => sorted.2.2 _ (List.mem_map_of_mem hg) _ (by simp)
    obtain ⟨name, j⟩ := f
    rw [List.append_cons] at sorted ⊢
    rw [List.foldl_cons]
    dsimp only
    rw [insert_of_lt less, ih sorted]

theorem ofFields_sorted {fields : List (String × Json)}
    (sorted : (fields.map Prod.fst).Pairwise (· < ·)) : ofFields fields = .object fields := by
  exact congrArg object (foldl_insert sorted)

theorem documents_eq_map (items : List Json) : documents items = items.map document := by
  induction items with
  | nil => rfl
  | cons j items ih => rw [documents, ih, List.map_cons]

theorem fieldDocuments_eq_map (fields : List (String × Json)) :
    fieldDocuments fields = fields.map fun f => (Document.escape f.1.toList, f.2.document) := by
  induction fields with
  | nil => rfl
  | cons f fields ih => rw [fieldDocuments, ih, List.map_cons]

theorem Storable.written {j : Json} (h : j.Storable) : j.document.Written := by
  induction h with
  | null => exact .null
  | bool b => exact .bool b
  | integer h => exact .int _
  | string s => exact .string _
  | array _ ih =>
    rw [document, documents_eq_map]
    refine .array fun d hd => ?_
    obtain ⟨j, hj, rfl⟩ := List.mem_map.mp hd
    exact ih j hj
  | object _ _ ih =>
    rw [document, fieldDocuments_eq_map]
    refine .object (fun f hf => ?_) fun f hf => ?_
    all_goals obtain ⟨g, hg, rfl⟩ := List.mem_map.mp hf
    · exact ⟨_, rfl⟩
    · exact ih g hg

theorem json?_document {j : Json} (h : j.Storable) {depth : Nat}
    (nests : j.document.Nests depth) : j.document.json? depth = some j := by
  induction h generalizing depth with
  | null => cases depth <;> rfl
  | bool b => cases depth <;> rfl
  | @integer n h =>
    have read : (Document.ofInt n).json? depth = (Document.ofInt n).number?.map .number := by
      cases depth <;> rfl
    rw [document, Document.ofNumber, read, Document.number?_ofInt h, Option.map_some]
  | string s =>
    have read : (Document.ofString s).json? depth = (Document.ofString s).text?.map .string := by
      cases depth <;> rfl
    rw [document, read, Document.text?_ofString, Option.map_some]
  | @array items _ ih =>
    obtain ⟨depth, rfl, each⟩ := nests.of_array
    rw [documents_eq_map] at each
    rw [document, documents_eq_map, Document.json?,
      mapM_map_eq (k := id) fun j hj => ih j hj (each _ (List.mem_map_of_mem hj)), List.map_id,
      Option.map_some]
  | @object fields sorted _ ih =>
    obtain ⟨depth, rfl, each⟩ := nests.of_object
    rw [fieldDocuments_eq_map] at each
    rw [document, fieldDocuments_eq_map, Document.json?, mapM_map_eq (k := id), List.map_id,
      Option.map_some, ofFields_sorted sorted]
    intro f hf
    have value := ih f hf (each _ (List.mem_map_of_mem hf))
    simp [Document.unescape?_escape, value]

end Json

namespace Value

/-- Values without floats, whose JSON is storable. -/
inductive Storable : Value → Prop
  | scalar {v : Value} :
      v.type ≠ .real ∧ v.type ≠ .double ∧ v.type ≠ .json ∧ v.type ≠ .array → Storable v
  | json {j : Json} : j.Storable → Storable (.json j)
  | array {items : List Value} : (∀ v ∈ items, Storable v) → Storable (.array items)

/-- Equality of values: decimals of different scales may be equal. -/
inductive Equal : Value → Value → Prop
  | same (v : Value) : Equal v v
  | numeric {x y : Decimal} : x.Same y → Equal (.numeric x) (.numeric y)
  | array {vs ws : List Value} : List.Forall₂ Equal vs ws → Equal (.array vs) (.array ws)

theorem documents_eq_map (items : List Value) : documents items = items.map document := by
  induction items with
  | nil => rfl
  | cons v items ih => rw [documents, ih, List.map_cons]

theorem written_tagged {t : ValueType} {body : Document} (h : body.Written) :
    (tagged t body).Written :=
  Document.written_record fun f hf => by
    obtain rfl := List.mem_singleton.mp hf
    exact h

theorem written_interval (i : Interval) : (intervalDocument i).Written := by
  refine Document.written_record fun f hf => ?_
  simp only [List.mem_cons, List.not_mem_nil, or_false] at hf
  rcases hf with rfl | rfl | rfl <;> exact .int _

theorem decode?_tagged {t : ValueType} (ht : t ≠ .array) (floatTexts : Bool) (depth : Nat)
    (body : Document) :
    decode? floatTexts (depth + 1) (tagged t body) = scalar? floatTexts depth body t := by
  have notNullName : t.name ≠ "Null" := by cases t <;> decide
  have notArrayName : t.name ≠ "Array" := by cases t <;> first | decide | exact absurd rfl ht
  unfold decode? tagged
  rw [Document.variant?_record]
  simp [notNullName, notArrayName, ValueType.ofName?_name]

theorem interval?_document (i : Interval) (depth : Nat) :
    interval? (depth + 1) (intervalDocument i) = some i := by
  have months := Document.int?_ofInt i.months.le_toInt (Int.le_sub_one_of_lt i.months.toInt_lt)
    (by decide) (by decide)
  have days := Document.int?_ofInt i.days.le_toInt (Int.le_sub_one_of_lt i.days.toInt_lt)
    (by decide) (by decide)
  have micros := Document.int?_ofInt i.microseconds.le_toInt
    (Int.le_sub_one_of_lt i.microseconds.toInt_lt) (by decide) (by decide)
  norm_num at months days micros
  simp [interval?, intervalDocument, months, days, micros]

theorem bytes?_document (bs : List UInt8) (depth : Nat) :
    bytes? (depth + 1) (.array (bs.map fun b => .ofInt b.toNat)) = some bs := by
  have byte (b : UInt8) :
      ((Document.ofInt b.toNat).int? 0 255).map (fun n => n.toNat.toUInt8) = some b := by
    have high := b.toNat_lt
    rw [Document.int?_ofInt (by omega) (by omega) (by decide) (by decide)]
    simp
  have all : (bs.map fun b => Document.ofInt b.toNat).mapM
      (fun d => (d.int? 0 255).map fun n => n.toNat.toUInt8) = some (bs.map id) :=
    mapM_map_eq fun b _ => byte b
  rwa [List.map_id] at all

theorem decimal?_text (x : Decimal) :
    ∃ y, decimal? (.ofString (String.ofList x.text)) = some y ∧ y.Same x := by
  obtain ⟨y, read, same⟩ := x.read?_text
  refine ⟨y, ?_, same⟩
  have number : (Document.ofString (String.ofList x.text)).number? = none := rfl
  rw [decimal?, number]
  dsimp only
  rw [Document.text?_ofString, Option.bind_some, String.toList_ofList, read]

/-- The contents of a value that is neither null nor an array, and what is read from them. -/
theorem exists_body {v : Value} (h : v.Storable) (notNull : v ≠ .null)
    (single : v.type ≠ .array) : ∃ body, v.document = tagged v.type body ∧ body.Written ∧
      ∀ floatTexts depth, body.Nests depth →
        ∃ w, scalar? floatTexts depth body v.type = some w ∧ w.Equal v := by
  cases h with
  | array => exact absurd rfl single
  | @json j h =>
    refine ⟨_, rfl, h.written, fun _ _ nests => ⟨_, ?_, .same _⟩⟩
    rw [type, scalar?, Json.json?_document h nests, Option.map_some]
  | scalar h =>
    obtain ⟨not_real, not_double, not_json, -⟩ := h
    cases v with
    | null => exact absurd rfl notNull
    | real x => exact absurd rfl not_real
    | double x => exact absurd rfl not_double
    | json j => exact absurd rfl not_json
    | array items => exact absurd rfl single
    | bool b => exact ⟨_, rfl, .bool b, fun _ _ _ => ⟨_, rfl, .same _⟩⟩
    | smallInt n =>
      refine ⟨_, rfl, .int _, fun _ _ _ => ⟨_, ?_, .same _⟩⟩
      rw [type, scalar?, Document.int?_ofInt n.le_toInt (Int.le_sub_one_of_lt n.toInt_lt)
        (by decide) (by decide), Option.map_some, Int16.ofInt_toInt]
    | int n =>
      refine ⟨_, rfl, .int _, fun _ _ _ => ⟨_, ?_, .same _⟩⟩
      rw [type, scalar?, Document.int?_ofInt n.le_toInt (Int.le_sub_one_of_lt n.toInt_lt)
        (by decide) (by decide), Option.map_some, Int32.ofInt_toInt]
    | bigInt n =>
      refine ⟨_, rfl, .int _, fun _ _ _ => ⟨_, ?_, .same _⟩⟩
      rw [type, scalar?, Document.int?_ofInt n.le_toInt (Int.le_sub_one_of_lt n.toInt_lt)
        (by decide) (by decide), Option.map_some, Int64.ofInt_toInt]
    | numeric x =>
      obtain ⟨y, read, same⟩ := decimal?_text x
      refine ⟨_, rfl, .string _, fun _ _ _ => ⟨_, ?_, .numeric same⟩⟩
      rw [type, scalar?, read, Option.map_some]
    | text s =>
      refine ⟨_, rfl, .string _, fun _ _ _ => ⟨_, ?_, .same _⟩⟩
      rw [type, scalar?, Document.text?_ofString, Option.map_some]
    | uuid u =>
      refine ⟨_, rfl, .string _, fun _ _ _ => ⟨_, ?_, .same _⟩⟩
      rw [type, scalar?, Document.bind_text? u.read?_text]
    | timestamp t =>
      refine ⟨_, rfl, .string _, fun _ _ _ => ⟨_, ?_, .same _⟩⟩
      rw [type, scalar?, Document.bind_text? t.read?_text]
    | timestampTz t =>
      refine ⟨_, rfl, .string _, fun _ _ _ => ⟨_, ?_, .same _⟩⟩
      rw [type, scalar?, Document.bind_text? t.read?_text]
    | date d =>
      refine ⟨_, rfl, .string _, fun _ _ _ => ⟨_, ?_, .same _⟩⟩
      rw [type, scalar?, Document.bind_text? d.read?_text]
    | time t =>
      refine ⟨_, rfl, .string _, fun _ _ _ => ⟨_, ?_, .same _⟩⟩
      rw [type, scalar?, Document.bind_text? t.read?_text]
    | interval i =>
      refine ⟨_, rfl, written_interval i, fun _ _ nests => ⟨_, ?_, .same _⟩⟩
      obtain ⟨depth, rfl, -⟩ := nests.of_record
      rw [type, scalar?, interval?_document, Option.map_some]
    | bytes bs =>
      refine ⟨_, rfl, .array fun d hd => ?_, fun _ _ nests => ⟨_, ?_, .same _⟩⟩
      · obtain ⟨b, -, rfl⟩ := List.mem_map.mp hd
        exact .int _
      · obtain ⟨depth, rfl, -⟩ := nests.of_array
        rw [type, scalar?, bytes?_document, Option.map_some]

theorem Storable.written {v : Value} (h : v.Storable) : v.document.Written := by
  induction h with
  | array _ ih =>
    rw [document, documents_eq_map]
    refine written_tagged (.array fun d hd => ?_)
    obtain ⟨v, hv, rfl⟩ := List.mem_map.mp hd
    exact ih v hv
  | json h =>
    obtain ⟨body, text, written, -⟩ := exists_body (.json h) (by simp) (by simp [type])
    rw [text]
    exact written_tagged written
  | @scalar v h =>
    by_cases null : v = .null
    · rw [null]
      exact .string _
    · obtain ⟨body, text, written, -⟩ := exists_body (.scalar h) null h.2.2.2
      rw [text]
      exact written_tagged written

theorem decode?_body {v : Value} (h : v.Storable) (single : v.type ≠ .array) (floatTexts : Bool)
    {depth : Nat} (nests : v.document.Nests depth) :
    ∃ w, decode? floatTexts depth v.document = some w ∧ w.Equal v := by
  by_cases null : v = .null
  · rw [null]
    refine ⟨.null, ?_, .same _⟩
    rw [document, decode?, Document.variant?_ofString]
    rfl
  · obtain ⟨body, text, -, read⟩ := exists_body h null single
    rw [text] at nests ⊢
    obtain ⟨depth, rfl, each⟩ := nests.of_record
    rw [decode?_tagged single]
    exact read floatTexts depth (each _ List.mem_cons_self)

/-- A value is read as an equal one. -/
theorem decode?_document {v : Value} (h : v.Storable) (floatTexts : Bool) {depth : Nat}
    (nests : v.document.Nests depth) :
    ∃ w, decode? floatTexts depth v.document = some w ∧ w.Equal v := by
  induction h generalizing depth with
  | scalar h => exact decode?_body (.scalar h) h.2.2.2 floatTexts nests
  | json h => exact decode?_body (.json h) (by simp [type]) floatTexts nests
  | @array items _ ih =>
    rw [document, documents_eq_map] at nests ⊢
    obtain ⟨outer, rfl, tag⟩ := nests.of_record
    obtain ⟨depth, rfl, each⟩ := (tag _ List.mem_cons_self).of_array
    obtain ⟨ws, read, equal⟩ := exists_mapM (R := Equal) fun v hv =>
      ih v hv (each _ (List.mem_map_of_mem hv))
    refine ⟨_, ?_, .array equal⟩
    have arrayName : ValueType.array.name = "Array" := rfl
    unfold decode? tagged
    rw [Document.variant?_record]
    simp [arrayName, read]

end Value

end PlanSql
