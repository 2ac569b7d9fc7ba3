import Mathlib
import PlanSql.Address
import PlanSql.Proofs.PartitionRows
import PlanSql.Proofs.StoredValue
import PlanSql.Proofs.TableCells

namespace PlanSql

theorem splitOn_joined {mark : Char} {ss : List (List Char)} (h : ∀ s ∈ ss, mark ∉ s)
    (nonempty : ss ≠ []) : (joined [mark] ss).splitOn mark = ss := by
  rw [joined_eq_intercalate, List.splitOn_intercalate mark h nonempty]

theorem mark_mem_joined {mark : Char} {ss : List (List Char)} (h : 1 < ss.length) :
    mark ∈ joined [mark] ss := by
  match ss with
  | s :: t :: rest => simp [joined]

theorem readHex?_dropWhile (s : List Char) : readHex? (s.dropWhile (· == '0')) = readHex? s := by
  induction s with
  | nil => rfl
  | cons c s ih =>
    by_cases zero : c = '0'
    · rw [zero, List.dropWhile_cons_of_pos rfl, ih]
      rfl
    · rw [List.dropWhile_cons_of_neg (by simpa using zero)]

namespace Address

/-- At least one decimal digit, as a number below 256. -/
def byte? (s : List Char) : Option UInt8 :=
  if s ≠ [] ∧ s.all Char.isDigit ∧ readDecimal s < 256 then some (UInt8.ofNat (readDecimal s))
  else none

/-- Four numbers with points between them. -/
def v4? (s : List Char) : Option (List UInt8) :=
  ((s.splitOn '.').mapM byte?).filter (·.length == 4)

/-- One to four hexadecimal digits, as two bytes. -/
def group? (s : List Char) : Option (List UInt8) :=
  if 1 ≤ s.length ∧ s.length ≤ 4 then (readHex? s).map (naturalBytes 2) else none

/-- The bytes of groups, the last of which may be an address of four numbers. -/
def wordBytes? : List (List Char) → Option (List UInt8)
  | [] => some []
  | [word] => if '.' ∈ word then v4? word else group? word
  | word :: rest => do return (← group? word) ++ (← wordBytes? rest)

/-- The bytes of groups with colons between them; an empty text has none. -/
def groupBytes? (s : List Char) : Option (List UInt8) :=
  if s = [] then some [] else wordBytes? (s.splitOn ':')

/-- The text in front of the first two colons in a row and the text behind them. -/
def cutGap? : List Char → Option (List Char × List Char)
  | [] => none
  | ':' :: ':' :: s => some ([], s)
  | c :: s => (cutGap? s).map fun (front, back) => (c :: front, back)

/-- Groups of sixteen bytes; two colons in a row stand for zeros that fill up to them. -/
def v6? (s : List Char) : Option (List UInt8) :=
  match cutGap? s with
  | none => (groupBytes? s).filter (·.length == 16)
  | some (front, back) => do
    let front ← groupBytes? front
    let back ← groupBytes? back
    if front.length + back.length < 16 then
      some (front ++ List.replicate (16 - (front.length + back.length)) 0 ++ back)
    else none

def read? (s : List Char) : Option Address :=
  if ':' ∈ s then (v6? s).map v6 else (v4? s).map v4

/-- An address and the bits of its net behind a slash; without them they are all of its bits. -/
def readNet? (s : List Char) : Option (Address × Nat) :=
  match s.splitOn '/' with
  | [address] => (read? address).map fun a => (a, a.width)
  | [address, bits] => do return (← read? address, (← byte? bits).toNat)
  | _ => none

theorem byte?_decimalDigits (b : UInt8) : byte? (decimalDigits b.toNat) = some b := by
  have digits : (decimalDigits b.toNat).all Char.isDigit = true :=
    List.all_eq_true.mpr fun c => isDigit_of_mem_decimalDigits
  have value := readDecimal_decimalDigits b.toNat
  rw [byte?, if_pos ⟨decimalDigits_ne_nil _, digits, by rw [value]; exact b.toNat_lt⟩, value,
    UInt8.ofNat_toNat]

theorem not_mem_v4Text {c : Char} (point : c ≠ '.') (digit : c.isDigit = false) (bs : List UInt8) :
    c ∉ v4Text bs := by
  refine Report.not_mem_joined (by simpa using point) fun s hs mem => ?_
  obtain ⟨b, -, rfl⟩ := List.mem_map.mp hs
  exact not_mem_decimalDigits digit b.toNat mem

theorem v4?_v4Text {bs : List UInt8} (h : bs.length = 4) : v4? (v4Text bs) = some bs := by
  have numbers : ∀ s ∈ bs.map fun b => decimalDigits b.toNat, '.' ∉ s := by
    intro s hs
    obtain ⟨b, -, rfl⟩ := List.mem_map.mp hs
    exact not_mem_decimalDigits rfl b.toNat
  have nonempty : (bs.map fun b => decimalDigits b.toNat) ≠ [] := by
    rintro e
    rw [List.map_eq_nil_iff.mp e] at h
    cases h
  have bytes : (bs.map fun b => decimalDigits b.toNat).mapM byte? = some bs := by
    refine mapM_of_forall₂ (List.forall₂_map_left_iff.mpr (List.forall₂_same.mpr fun b _ => ?_))
    exact byte?_decimalDigits b
  rw [v4?, v4Text, splitOn_joined numbers nonempty, bytes, Option.filter_some,
    if_pos (beq_iff_eq.mpr h)]

theorem mem_groupText {n : Nat} {c : Char} (h : c ∈ groupText n) : (hexValue? c).isSome = true := by
  unfold groupText at h
  split at h
  next =>
    rw [List.mem_singleton.mp h]
    rfl
  next => exact isHex_of_mem_hexDigits ((List.dropWhile_suffix _).mem h)

theorem length_groupText (n : Nat) : 1 ≤ (groupText n).length ∧ (groupText n).length ≤ 4 := by
  unfold groupText
  split
  next => decide
  next nonempty =>
    have short := (List.dropWhile_suffix (l := hexDigits 4 n) (· == '0')).length_le
    rw [length_hexDigits] at short
    exact ⟨List.length_pos_of_ne_nil nonempty, short⟩

theorem readHex?_groupText {n : Nat} (h : n < 65536) : readHex? (groupText n) = some n := by
  have value : readHex? ((hexDigits 4 n).dropWhile (· == '0')) = some n := by
    rw [readHex?_dropWhile, readHex?_hexDigits, Nat.mod_eq_of_lt h]
  unfold groupText
  split
  next empty =>
    rw [empty] at value
    exact value
  next => exact value

theorem group?_groupText {n : Nat} (h : n < 65536) :
    group? (groupText n) = some (naturalBytes 2 n) := by
  rw [group?, if_pos (length_groupText n), readHex?_groupText h, Option.map_some]

theorem not_mem_groupText {c : Char} (h : hexValue? c = none) (n : Nat) : c ∉ groupText n := by
  intro mem
  have hex := mem_groupText mem
  rw [h] at hex
  cases hex

theorem not_mem_groupsText {c : Char} (colon : c ≠ ':') (h : hexValue? c = none) (ns : List Nat) :
    c ∉ groupsText ns := by
  refine Report.not_mem_joined (by simpa using colon) fun s hs => ?_
  obtain ⟨n, -, rfl⟩ := List.mem_map.mp hs
  exact not_mem_groupText h n

theorem wordBytes?_map_groupText {ns : List Nat} (h : ∀ n ∈ ns, n < 65536) :
    wordBytes? (ns.map groupText) = some (ns.flatMap (naturalBytes 2)) := by
  induction ns with
  | nil => rfl
  | cons n ns ih =>
    have first := group?_groupText (h n List.mem_cons_self)
    have rest := ih fun m hm => h m (List.mem_cons_of_mem n hm)
    cases ns with
    | nil =>
      rw [List.map_singleton, wordBytes?, if_neg (not_mem_groupText rfl n), first]
      simp
    | cons m ms =>
      rw [List.map_cons] at rest
      rw [List.map_cons, List.map_cons, wordBytes?, first, rest]
      · rfl
      · exact List.cons_ne_nil _ _

/-- Groups begin with a digit of the first one. -/
theorem exists_groupsText_cons (n : Nat) (ns : List Nat) :
    ∃ c rest, groupsText (n :: ns) = c :: rest ∧ c ≠ ':' := by
  obtain ⟨c, digits, hc⟩ := List.exists_cons_of_length_pos (length_groupText n).1
  have first : c ≠ ':' := by
    rintro rfl
    exact not_mem_groupText (c := ':') rfl n (by rw [hc]; exact List.mem_cons_self)
  cases ns <;> exact ⟨c, _, by rw [groupsText, List.map_cons, hc]; rfl, first⟩

theorem groupsText_ne_nil {ns : List Nat} (h : ns ≠ []) : groupsText ns ≠ [] := by
  obtain ⟨n, rest, rfl⟩ := List.exists_cons_of_ne_nil h
  obtain ⟨c, s, text, -⟩ := exists_groupsText_cons n rest
  rw [text]
  exact List.cons_ne_nil c s

theorem groupBytes?_groupsText {ns : List Nat} (h : ∀ n ∈ ns, n < 65536) :
    groupBytes? (groupsText ns) = some (ns.flatMap (naturalBytes 2)) := by
  by_cases empty : ns = []
  · rw [empty]
    rfl
  · have colons : ∀ s ∈ ns.map groupText, ':' ∉ s := by
      intro s hs
      obtain ⟨n, -, rfl⟩ := List.mem_map.mp hs
      exact not_mem_groupText rfl n
    rw [groupBytes?, if_neg (groupsText_ne_nil empty), groupsText,
      splitOn_joined colons (by simpa using empty), wordBytes?_map_groupText h]

theorem cutGap?_append {word : List Char} (h : ':' ∉ word) (s : List Char) :
    cutGap? (word ++ s) = (cutGap? s).map fun (front, back) => (word ++ front, back) := by
  induction word with
  | nil => simp
  | cons c word ih =>
    rw [List.mem_cons, not_or] at h
    rw [List.cons_append, cutGap?, ih h.2, Option.map_map]
    · rfl
    · rintro s rfl
      exact absurd rfl h.1

/-- There is no gap between groups. -/
theorem cutGap?_groupsText_append (ns : List Nat) (s : List Char) :
    cutGap? (groupsText ns ++ s) =
      (cutGap? s).map fun (front, back) => (groupsText ns ++ front, back) := by
  induction ns with
  | nil => simp [groupsText, joined]
  | cons n ns ih =>
    have first : ':' ∉ groupText n := not_mem_groupText rfl n
    cases ns with
    | nil => simpa [groupsText, joined] using cutGap?_append first s
    | cons m ms =>
      obtain ⟨c, rest, second, other⟩ := exists_groupsText_cons m ms
      have text : groupsText (n :: m :: ms) = groupText n ++ ':' :: groupsText (m :: ms) := rfl
      have colon : cutGap? (':' :: (groupsText (m :: ms) ++ s)) =
          (cutGap? (groupsText (m :: ms) ++ s)).map
            fun (front, back) => (':' :: front, back) := by
        rw [second, List.cons_append, cutGap?]
        exact fun _ _ e => other (List.cons.inj e).1
      rw [text, List.append_assoc, cutGap?_append first, List.cons_append, colon, ih]
      simp [Function.comp_def]

theorem cutGap?_groupsText (ns : List Nat) : cutGap? (groupsText ns) = none := by
  simpa [cutGap?] using cutGap?_groupsText_append ns []

theorem cutGap?_gap (ns : List Nat) (s : List Char) :
    cutGap? (groupsText ns ++ ':' :: ':' :: s) = some (groupsText ns, s) := by
  rw [cutGap?_groupsText_append, cutGap?, Option.map_some]
  dsimp only
  rw [List.append_nil]

/-- The run that is left out consists of zeros. -/
theorem longestRun_zeros (start : Nat) (ns : List Nat) : ∃ front back,
    ns = front ++ List.replicate (longestRun start ns).2 0 ++ back ∧
      (longestRun start ns).1 = start + front.length := by
  induction ns generalizing start with
  | nil => exact ⟨[], [], rfl, rfl⟩
  | cons n ns ih =>
    unfold longestRun
    dsimp only
    split
    next =>
      have run : (n :: ns).takeWhile (· == 0) = List.replicate (zeros (n :: ns)) 0 :=
        List.eq_replicate_of_mem fun m hm => by simpa using List.mem_takeWhile_imp hm
      refine ⟨[], (n :: ns).dropWhile (· == 0), ?_, rfl⟩
      rw [List.nil_append, ← run, List.takeWhile_append_dropWhile]
    next =>
      obtain ⟨front, back, split, place⟩ := ih (start + 1)
      refine ⟨n :: front, back, ?_, ?_⟩
      · rw [List.cons_append, List.cons_append, ← split]
      · rw [place, List.length_cons]
        omega

theorem groups_lt {bs : List UInt8} {n : Nat} (h : n ∈ groups bs) : n < 65536 := by
  induction bs using groups.induct with
  | case1 a b rest ih =>
    have := a.toNat_lt
    have := b.toNat_lt
    rcases List.mem_cons.mp h with rfl | later
    · omega
    · exact ih later
  | case2 bs short => rw [groups] at h; cases h; exact short

theorem naturalBytes_group (a b : UInt8) : naturalBytes 2 (a.toNat * 256 + b.toNat) = [a, b] := by
  have := a.toNat_lt
  have := b.toNat_lt
  have high : (a.toNat * 256 + b.toNat) / 256 = a.toNat := by omega
  have low : UInt8.ofNat (a.toNat * 256 + b.toNat) = b := by
    rw [← UInt8.toNat_inj, UInt8.toNat_ofNat']
    omega
  simp [naturalBytes, high, low]

theorem flatMap_groups (bs : List UInt8) (h : bs.length % 2 = 0) :
    (groups bs).flatMap (naturalBytes 2) = bs := by
  induction bs using groups.induct with
  | case1 a b rest ih =>
    have even : rest.length % 2 = 0 := by
      rw [List.length_cons, List.length_cons] at h
      omega
    rw [groups, List.flatMap_cons, ih even, naturalBytes_group]
    rfl
  | case2 bs short =>
    match bs with
    | [] => rfl
    | [_] => cases h
    | a :: b :: rest => exact absurd rfl (short a b rest)

theorem take_groups (k : Nat) (bs : List UInt8) :
    (groups bs).take k = groups (bs.take (2 * k)) := by
  induction k generalizing bs with
  | zero => rfl
  | succ k ih =>
    match bs with
    | [] => rfl
    | [_] => rfl
    | a :: b :: rest =>
      rw [groups, List.take_succ_cons, ih]
      rfl

theorem length_flatMap_naturalBytes (ns : List Nat) :
    (ns.flatMap (naturalBytes 2)).length = 2 * ns.length := by
  simp [naturalBytes, List.length_flatMap, Nat.mul_comm]

theorem flatMap_replicate_zero (k : Nat) :
    (List.replicate k 0).flatMap (naturalBytes 2) = List.replicate (2 * k) 0 := by
  induction k with
  | zero => rfl
  | succ k ih => rw [List.replicate_succ, List.flatMap_cons, ih]; rfl

/-- The zeros of the gap fill the groups up to sixteen bytes. -/
theorem v6?_gap {front back : List Nat} {zeros : Nat} {bs : List UInt8} (length : bs.length = 16)
    (split : groups bs = front ++ List.replicate zeros 0 ++ back) (nonempty : zeros ≠ 0) :
    v6? (groupsText front ++ ':' :: ':' :: groupsText back) = some bs := by
  have small : ∀ n ∈ front ++ List.replicate zeros 0 ++ back, n < 65536 := by
    rw [← split]
    exact fun n => groups_lt
  have first : groupBytes? (groupsText front) = some (front.flatMap (naturalBytes 2)) :=
    groupBytes?_groupsText fun n hn => small n (by simp [hn])
  have last : groupBytes? (groupsText back) = some (back.flatMap (naturalBytes 2)) :=
    groupBytes?_groupsText fun n hn => small n (by simp [hn])
  have bytes : (front ++ List.replicate zeros 0 ++ back).flatMap (naturalBytes 2) = bs := by
    rw [← split, flatMap_groups bs (by rw [length])]
  have count := congrArg List.length bytes
  rw [length_flatMap_naturalBytes, length, List.length_append, List.length_append,
    List.length_replicate] at count
  have gap : 16 - (2 * front.length + 2 * back.length) = 2 * zeros := by omega
  rw [List.flatMap_append, List.flatMap_append, flatMap_replicate_zero] at bytes
  rw [v6?, cutGap?_gap]
  dsimp only
  rw [first, last]
  simp only [Option.bind_eq_bind, Option.bind_some, length_flatMap_naturalBytes]
  rw [if_pos (by omega), gap, bytes]

/-- Ten zeros and two bytes of ones are in front of an address of four bytes. -/
theorem v6?_mapped {bs : List UInt8} (length : bs.length = 16)
    (mapped : (groups bs).take 6 = [0, 0, 0, 0, 0, 0xffff]) :
    v6? ("::ffff:".toList ++ v4Text (bs.drop 12)) = some bs := by
  have front : bs.take 12 = List.replicate 10 0 ++ [0xff, 0xff] := by
    rw [take_groups] at mapped
    rw [← flatMap_groups (bs.take 12) (by simp [length]), mapped]
    rfl
  have back : v4? (v4Text (bs.drop 12)) = some (bs.drop 12) := v4?_v4Text (by simp [length])
  have colons : ':' ∉ v4Text (bs.drop 12) := not_mem_v4Text (by decide) rfl _
  have words : ("ffff:".toList ++ v4Text (bs.drop 12)).splitOn ':' =
      ["ffff".toList, v4Text (bs.drop 12)] := by
    have first : ':' ∉ "ffff".toList := by decide
    rw [← List.splitOn_eq_singleton colons]
    exact List.splitOn_append_cons_self_of_not_mem first _
  have point : '.' ∈ v4Text (bs.drop 12) := mark_mem_joined (by simp [length])
  have bytes : groupBytes? ("ffff:".toList ++ v4Text (bs.drop 12)) =
      some ([0xff, 0xff] ++ bs.drop 12) := by
    rw [groupBytes?, if_neg (by simp), words, wordBytes?, wordBytes?, if_pos point, back]
    · rfl
    · exact List.cons_ne_nil _ _
  have gap : cutGap? ("::ffff:".toList ++ v4Text (bs.drop 12)) =
      some ([], "ffff:".toList ++ v4Text (bs.drop 12)) := rfl
  rw [v6?, gap]
  dsimp only
  rw [bytes, groupBytes?, if_pos rfl]
  have whole : bs = List.replicate 10 0 ++ ([0xff, 0xff] ++ bs.drop 12) := by
    rw [← List.append_assoc, ← front, List.take_append_drop]
  simpa [length] using whole.symm

theorem v6?_v6Text {bs : List UInt8} (h : bs.length = 16) : v6? (v6Text bs) = some bs := by
  unfold v6Text
  dsimp only
  split
  next mapped => exact v6?_mapped h mapped
  next =>
    obtain ⟨front, back, split, start⟩ := longestRun_zeros 0 (groups bs)
    generalize longestRun 0 (groups bs) = run at split start
    obtain ⟨place, zeros⟩ := run
    dsimp only at split start ⊢
    obtain rfl : place = front.length := by omega
    split
    next many =>
      have taken : (groups bs).take front.length = front := by
        rw [split, List.append_assoc, List.take_left]
      have dropped : (groups bs).drop (front.length + zeros) = back := by
        rw [split, List.drop_left' (by simp)]
      rw [taken, dropped]
      exact v6?_gap h split (by omega)
    next =>
      rw [v6?, cutGap?_groupsText]
      dsimp only
      rw [groupBytes?_groupsText fun n => groups_lt, flatMap_groups bs (by rw [h]),
        Option.filter_some, if_pos (beq_iff_eq.mpr h)]

theorem slash_not_mem_text (a : Address) : '/' ∉ a.text := by
  have numbers (bs : List UInt8) : '/' ∉ v4Text bs := not_mem_v4Text (by decide) rfl bs
  have groups (ns : List Nat) : '/' ∉ groupsText ns := not_mem_groupsText (by decide) rfl ns
  cases a with
  | v4 bs => exact numbers bs
  | v6 bs =>
    rw [text, v6Text]
    dsimp only
    split
    next => simp [numbers]
    next => split <;> simp [groups]

theorem colon_mem_v6Text {bs : List UInt8} (h : bs.length = 16) : ':' ∈ v6Text bs := by
  unfold v6Text
  dsimp only
  split
  next => simp
  next =>
    split
    next => simp
    next =>
      have count := congrArg List.length (flatMap_groups bs (by rw [h]))
      rw [length_flatMap_naturalBytes, h] at count
      exact mark_mem_joined (by rw [List.length_map]; omega)

/-- The bytes of a net: its family, its bits, any flag, its address's length and the address. -/
inductive NetBytes : List UInt8 → Address → Nat → Prop
  | v4 (bits flag : UInt8) {bs : List UInt8} (length : bs.length = 4) :
    NetBytes (2 :: bits :: flag :: 4 :: bs) (.v4 bs) bits.toNat
  | v6 (bits flag : UInt8) {bs : List UInt8} (length : bs.length = 16) :
    NetBytes (3 :: bits :: flag :: 16 :: bs) (.v6 bs) bits.toNat

theorem decode?_eq_some_iff {bs : List UInt8} {a : Address} {bits : Nat} :
    decode? bs = some (a, bits) ↔ NetBytes bs a bits := by
  constructor
  · intro h
    unfold decode? at h
    split at h
    next family bits flag length address =>
      split at h
      next four =>
        obtain ⟨⟨rfl, rfl⟩, whole⟩ := by simpa using four
        cases h
        exact .v4 bits flag whole
      next =>
        split at h
        next sixteen =>
          obtain ⟨⟨rfl, rfl⟩, whole⟩ := by simpa using sixteen
          cases h
          exact .v6 bits flag whole
        next => cases h
    next => cases h
  · intro h
    cases h with
    | v4 bits flag length => simp [decode?, length]
    | v6 bits flag length => simp [decode?, length]

theorem NetBytes.read?_text {bs : List UInt8} {a : Address} {bits : Nat} (h : NetBytes bs a bits) :
    read? a.text = some a := by
  cases h with
  | v4 _ _ length =>
    rw [text, read?, if_neg (not_mem_v4Text (by decide) rfl _), v4?_v4Text length, Option.map_some]
  | v6 _ _ length =>
    rw [text, read?, if_pos (colon_mem_v6Text length), v6?_v6Text length, Option.map_some]

theorem NetBytes.exists_byte {bs : List UInt8} {a : Address} {bits : Nat}
    (h : NetBytes bs a bits) : ∃ b : UInt8, b.toNat = bits := by
  cases h <;> exact ⟨_, rfl⟩

theorem NetBytes.readNet?_netText {bs : List UInt8} {a : Address} {bits : Nat} (always : Bool)
    (h : NetBytes bs a bits) : readNet? (a.netText always bits) = some (a, bits) := by
  have slash := slash_not_mem_text a
  obtain ⟨b, rfl⟩ := h.exists_byte
  have digits : '/' ∉ decimalDigits b.toNat := not_mem_decimalDigits rfl b.toNat
  unfold netText
  split
  next =>
    rw [readNet?, List.splitOn_append_cons_self_of_not_mem slash, List.splitOn_eq_singleton digits]
    simp [h.read?_text, byte?_decimalDigits]
  next same =>
    have whole : always = false ∧ b.toNat = a.width := by simpa using same
    rw [readNet?, List.splitOn_eq_singleton slash]
    simp [h.read?_text, whole.2]

example : netText false (v6 [32, 1, 13, 184, 0, 0, 0, 0, 0, 0, 0, 0, 0, 0, 0, 1]) 64 =
    "2001:db8::1/64".toList := by decide +kernel

theorem slash_mem_netText_iff {a : Address} {always : Bool} {bits : Nat} :
    '/' ∈ a.netText always bits ↔ always = true ∨ bits ≠ a.width := by
  have slash := slash_not_mem_text a
  unfold netText
  split
  next named => simpa using named
  next plain => simpa [slash] using plain

end Address

end PlanSql
