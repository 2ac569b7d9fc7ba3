import PlanSql.Proofs.AddressReading
import PlanSql.Proofs.DeclaredType

namespace PlanSql

/-- A column type without values of its own: not known, or an array whose items are not read. -/
def Unmapped (typeName : String) : Prop :=
  ValueType.ofColumnType? typeName = none ∨ ValueType.ofColumnType? typeName = some .unknown ∨
    ItemsUnread typeName

/-- The column types of network addresses. -/
def OfNets (typeName : String) : Prop := typeName = "INET" ∨ typeName = "CIDR"

/-- Without control characters other than white space. -/
def Printable (s : String) : Prop := ∀ c ∈ s.toList, isControlChar c = true → isBlankChar c = true

theorem isPlainText_iff {s : String} : isPlainText s = true ↔ Printable s := by
  rw [isPlainText, List.all_eq_true]
  refine forall₂_congr fun c _ => ?_
  cases isControlChar c <;> simp

theorem readUtf8?_eq_some_iff {bs : List UInt8} {s : String} :
    readUtf8? bs = some s ↔ utf8Bytes s = bs := by
  have bytes : utf8Bytes s = bs ↔ s.toByteArray = ⟨bs.toArray⟩ := by
    rw [utf8Bytes, String.toUTF8_eq_toByteArray, ByteArray.ext_iff]
    exact ⟨fun h => by rw [← h, Array.toArray_toList], fun h => by rw [h, List.toList_toArray]⟩
  rw [bytes, readUtf8?, String.fromUTF8?]
  constructor
  · intro h
    split at h
    next => cases h; rfl
    next => cases h
  · rintro h
    have valid : ByteArray.IsValidUTF8 ⟨bs.toArray⟩ := h ▸ s.isValidUTF8
    rw [dif_pos valid, Option.some_inj, ← String.toByteArray_inj, h]
    rfl

section Column

variable {column typeName : String} {bs : List UInt8}

theorem columnValue_of_unmapped (h : Unmapped typeName) :
    columnValue column typeName (some bs) = untypedValue column typeName bs := by
  rw [columnValue, typedValue]
  rcases h with other | unknown | unread
  · rw [other]
  · rw [unknown]
  · obtain ⟨array, element⟩ := itemsUnread_iff.mp unread
    rw [array]
    dsimp only
    rw [element]

theorem untypedValue_of_net {a : Address} {bits : Nat} (h : OfNets typeName)
    (net : Address.NetBytes bs a bits) : untypedValue column typeName bs =
      .ok (.text (String.ofList (a.netText (typeName == "CIDR") bits))) := by
  rw [untypedValue, if_pos (by simpa [OfNets] using h), Address.decode?_eq_some_iff.mpr net]

theorem untypedValue_of_no_net (h : OfNets typeName)
    (malformed : ∀ a bits, ¬Address.NetBytes bs a bits) :
    untypedValue column typeName bs = .error (.unsupportedColumnType column typeName) := by
  have undecoded : Address.decode? bs = none :=
    Option.eq_none_iff_forall_ne_some.mpr fun (a, bits) h =>
      malformed a bits (Address.decode?_eq_some_iff.mp h)
  rw [untypedValue, if_pos (by simpa [OfNets] using h), undecoded]

/-- Bytes of other types are the text that they are in UTF-8, if it is printable. -/
theorem untypedValue_of_other (h : ¬OfNets typeName) :
    (∃ s, utf8Bytes s = bs ∧ Printable s ∧ untypedValue column typeName bs = .ok (.text s)) ∨
    (∀ s, utf8Bytes s = bs → ¬Printable s) ∧
      untypedValue column typeName bs = .ok (.bytes bs) := by
  rw [untypedValue, if_neg (by simpa [OfNets] using h)]
  cases text : (readUtf8? bs).filter isPlainText with
  | some s =>
    rw [Option.filter_eq_some_iff, readUtf8?_eq_some_iff, isPlainText_iff] at text
    exact .inl ⟨s, text.1, text.2, rfl⟩
  | none =>
    rw [Option.filter_eq_none_iff] at text
    exact .inr ⟨fun s bytes plain => text s (readUtf8?_eq_some_iff.mpr bytes)
      (isPlainText_iff.mpr plain), rfl⟩

/-- The value of a net gives back its address and its bits; a slash is in front of them unless they
are all bits of a host. -/
theorem untypedValue_readNet? (column : String) {a : Address} {bits : Nat} (h : OfNets typeName)
    (net : Address.NetBytes bs a bits) :
    ∃ s, untypedValue column typeName bs = .ok (.text s) ∧
      Address.readNet? s.toList = some (a, bits) ∧
      ('/' ∈ s.toList ↔ typeName = "CIDR" ∨ bits ≠ a.width) := by
  refine ⟨_, untypedValue_of_net h net, ?_, ?_⟩
  · rw [String.toList_ofList, net.readNet?_netText]
  · rw [String.toList_ofList, Address.slash_mem_netText_iff, beq_iff_eq]

end Column

/-- A column of an unmapped type is read without loss: its value is its text or its bytes, or the
text of a net that no other net of the type has; reading fails for the types of nets alone, just
when the bytes are none of a net. -/
theorem unmapped_column_lossless (column typeName : String) (bs : List UInt8)
    (h : Unmapped typeName) :
    (OfNets typeName →
      (∀ a bits, Address.NetBytes bs a bits →
        (∃ s, columnValue column typeName (some bs) = .ok (.text s) ∧
          Address.readNet? s.toList = some (a, bits) ∧
          ('/' ∈ s.toList ↔ typeName = "CIDR" ∨ bits ≠ a.width)) ∧
        ∀ bs' a' bits', Address.NetBytes bs' a' bits' →
          columnValue column typeName (some bs') = columnValue column typeName (some bs) →
            a' = a ∧ bits' = bits) ∧
      ((∀ a bits, ¬Address.NetBytes bs a bits) →
        columnValue column typeName (some bs) =
          .error (.unsupportedColumnType column typeName))) ∧
    (¬OfNets typeName →
      (∃ s, utf8Bytes s = bs ∧ Printable s ∧
        columnValue column typeName (some bs) = .ok (.text s)) ∨
      (∀ s, utf8Bytes s = bs → ¬Printable s) ∧
        columnValue column typeName (some bs) = .ok (.bytes bs)) := by
  simp only [columnValue_of_unmapped h]
  refine ⟨fun nets => ⟨fun a bits net => ⟨untypedValue_readNet? column nets net, ?_⟩,
    untypedValue_of_no_net nets⟩, untypedValue_of_other⟩
  intro bs' a' bits' net' same
  obtain ⟨s, value, read, -⟩ := untypedValue_readNet? column nets net
  obtain ⟨s', value', read', -⟩ := untypedValue_readNet? column nets net'
  obtain rfl : s' = s := by
    rw [value, value'] at same
    cases same
    rfl
  rw [read, Option.some_inj, Prod.mk.injEq] at read'
  exact ⟨read'.1.symm, read'.2.symm⟩

/-- A payload of the column type `CIDR`. -/
def privateNet : List UInt8 := [2, 24, 1, 4, 10, 0, 0, 0]

/-- A payload of the column type `OID`. -/
def seventhObject : List UInt8 := [0, 0, 0, 7]

theorem unmapped_column_lossless_payloads :
    (Unmapped "CIDR" ∧ OfNets "CIDR" ∧ Address.NetBytes privateNet (.v4 [10, 0, 0, 0]) 24 ∧
      columnValue "net" "CIDR" (some privateNet) = .ok (.text "10.0.0.0/24") ∧
      Address.readNet? "10.0.0.0/24".toList = some (.v4 [10, 0, 0, 0], 24)) ∧
    (Unmapped "OID" ∧ ¬OfNets "OID" ∧ (∀ s, utf8Bytes s = seventhObject → ¬Printable s) ∧
      columnValue "object" "OID" (some seventhObject) = .ok (.bytes seventhObject)) := by
  have nets : Unmapped "CIDR" := .inl (by decide +kernel)
  have objects : Unmapped "OID" := .inl (by decide +kernel)
  have net : Address.NetBytes privateNet (.v4 [10, 0, 0, 0]) 24 := .v4 24 1 rfl
  have other : ¬OfNets "OID" := by simp [OfNets]
  have text : columnValue "net" "CIDR" (some privateNet) = .ok (.text "10.0.0.0/24") := by cbv
  have bytes : columnValue "object" "OID" (some seventhObject) = .ok (.bytes seventhObject) := by
    cbv
  refine ⟨⟨nets, .inr rfl, net, text, ?_⟩, objects, other, ?_, bytes⟩
  · obtain ⟨s, value, read, -⟩ :=
      (((unmapped_column_lossless "net" "CIDR" privateNet nets).1 (.inr rfl)).1 _ _ net).1
    rw [text] at value
    cases value
    exact read
  · rcases (unmapped_column_lossless "object" "OID" seventhObject objects).2 other with
      ⟨s, -, -, value⟩ | ⟨plain, -⟩
    · rw [bytes] at value
      cases value
    · exact plain

end PlanSql
