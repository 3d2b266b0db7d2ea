import Edk2Nvidia.Fru.Area

/-! When the decoding of an area is what it is for. -/
namespace Fru
open Flash

/-! The text of a field. -/

/-- The text that stands for the bytes of a field. -/
def fieldText (encoding : Encoding) (bytes : List UInt8) : List UInt8 :=
  match encoding with
  | .binary => bytes.flatMap hexByte
  | .bcdPlus => bytes.flatMap fun b => [bcdPlusDigit (b.toNat / 16), bcdPlusDigit (b.toNat % 16)]
  | .sixBitAscii =>
    (List.range (bytes.length * 8 / 6)).map (sixBitCharacter (fromLittleEndian bytes))
  | .eightBitAscii => bytes

/-- The lengths for which the string is that text. -/
def Rendered (encoding : Encoding) (len : Nat) : Prop :=
  (encoding = .binary → len < 50) ∧ (encoding = .sixBitAscii → len % 3 = 0)

theorem length_flatMap_hexByte (bytes : List UInt8) :
    (bytes.flatMap hexByte).length = 2 * bytes.length := by
  induction bytes with
  | nil => rfl
  | cons b rest ih =>
    rw [List.flatMap_cons, List.length_append, ih, List.length_cons]
    change 2 + _ = _
    omega

/-- What is printed is what there is room for in front of the terminator. -/
theorem printBytes_eq (bytes : List UInt8) (left : Nat) (hleft : 0 < left) :
    printBytes bytes left = (bytes.flatMap hexByte).take (left - 1) := by
  induction bytes generalizing left with
  | nil => rw [printBytes, List.flatMap_nil, List.take_nil]
  | cons b rest ih =>
    have hprinted : ((hexByte b).take (left - 1)).length = min (left - 1) 2 := List.length_take
    simp only [printBytes]
    rw [if_neg (by omega), ih _ (by omega), List.flatMap_cons, List.take_append, hprinted]
    have hrest : left - min (left - 1) 2 - 1 = left - 1 - (hexByte b).length := by
      change _ = left - 1 - 2
      omega
    rw [hrest]

theorem length_convertRawBytesToString (bytes : List UInt8) :
    (convertRawBytesToString bytes).length = min 99 (2 * bytes.length) := by
  rw [convertRawBytesToString, printBytes_eq _ _ (by decide), List.length_take,
    length_flatMap_hexByte]
  rfl

theorem convertRawBytesToString_eq_iff (bytes : List UInt8) :
    convertRawBytesToString bytes = bytes.flatMap hexByte ↔ bytes.length < 50 := by
  constructor
  · intro h
    have hlength := congrArg List.length h
    rw [length_convertRawBytesToString, length_flatMap_hexByte] at hlength
    omega
  · intro h
    rw [convertRawBytesToString, printBytes_eq _ _ (by decide), List.take_of_length_le]
    rw [length_flatMap_hexByte]
    change _ ≤ 99
    omega

theorem bcdText_eq (bytes : List UInt8) :
    bcdText bytes =
      bytes.flatMap fun b => [bcdPlusDigit (b.toNat / 16), bcdPlusDigit (b.toNat % 16)] := by
  induction bytes with
  | nil => rfl
  | cons b rest ih =>
    have hlength : (b :: rest).length * 2 = rest.length * 2 + 1 + 1 := by
      rw [List.length_cons]
      omega
    rw [List.flatMap_cons, ← ih]
    unfold bcdText
    rw [hlength, List.range_succ_eq_map, List.map_cons, List.range_succ_eq_map]
    simp only [List.map_cons, List.map_map, List.cons_append, List.nil_append]
    refine congrArg₂ _ ?_ (congrArg₂ _ ?_ (List.map_congr_left fun k _ => ?_))
    · have hlt := b.toNat_lt
      have hhigh : b.toNat / 16 % 16 = b.toNat / 16 := by omega
      simp only [Nat.zero_div, List.getD_cons_zero, if_true, hhigh]
    · simp only [Nat.succ_eq_add_one, Nat.zero_add, Nat.reduceDiv, Nat.reduceMod,
        List.getD_cons_zero, one_ne_zero, if_false, Nat.div_one]
    · have hdiv : (k + 1 + 1) / 2 = k / 2 + 1 := by omega
      have hmod : (k + 1 + 1) % 2 = k % 2 := by omega
      simp only [Function.comp_apply, Nat.succ_eq_add_one, hdiv, hmod, List.getD_cons_succ]

theorem length_sixBitText (bytes : List UInt8) :
    (sixBitText bytes).length = (bytes.length + 2) / 3 * 4 := by
  fun_induction sixBitText bytes with
  | case1 => rfl
  | case2 a =>
    rw [sixBitGroup, List.length_map, List.length_range, List.length_singleton]
  | case3 a b =>
    rw [sixBitGroup, List.length_map, List.length_range]
    change 4 = (2 + 2) / 3 * 4
    decide
  | case4 a b c rest ih =>
    rw [List.length_append, ih]
    change 4 + _ = (rest.length + 3 + 2) / 3 * 4
    omega

/-- A character of the first group is one of the whole number. -/
theorem sixBitCharacter_first {group rest k : Nat} (hk : k < 4) :
    sixBitCharacter (group + 2 ^ 24 * rest) k = sixBitCharacter group k := by
  unfold sixBitCharacter
  match k with
  | 0 => congr 2; omega
  | 1 => congr 2; omega
  | 2 => congr 2; omega
  | 3 => congr 2; omega

theorem sixBitCharacter_later {group rest : Nat} (hgroup : group < 2 ^ 24) (k : Nat) :
    sixBitCharacter (group + 2 ^ 24 * rest) (k + 4) = sixBitCharacter rest k := by
  have hpow : 64 ^ (k + 4) = 2 ^ 24 * 64 ^ k := by
    rw [Nat.pow_add, Nat.mul_comm]
    exact congrArg (· * 64 ^ k) (by decide : 64 ^ 4 = 2 ^ 24)
  have hdiv : (group + 2 ^ 24 * rest) / 2 ^ 24 = rest := by omega
  unfold sixBitCharacter
  rw [hpow, ← Nat.div_div_eq_div_mul, hdiv]

theorem sixBitText_eq {bytes : List UInt8} (h : bytes.length % 3 = 0) :
    sixBitText bytes =
      (List.range (bytes.length * 8 / 6)).map (sixBitCharacter (fromLittleEndian bytes)) := by
  fun_induction sixBitText bytes with
  | case1 => rfl
  | case2 => cases h
  | case3 => cases h
  | case4 a b c rest ih =>
    have hlength : (a :: b :: c :: rest).length = rest.length + 3 := rfl
    rw [hlength] at h ⊢
    have hcount : (rest.length + 3) * 8 / 6 = 4 + rest.length * 8 / 6 := by omega
    have hnumber : fromLittleEndian (a :: b :: c :: rest)
        = fromLittleEndian [a, b, c] + 2 ^ 24 * fromLittleEndian rest := by
      simp only [fromLittleEndian]
      omega
    have hgroup : fromLittleEndian [a, b, c] < 2 ^ 24 :=
      lt_of_lt_of_eq (fromLittleEndian_lt [a, b, c]) (by decide : 256 ^ 3 = 2 ^ 24)
    rw [hcount, List.range_add, List.map_append, List.map_map, hnumber, ih (by omega)]
    refine congrArg₂ _ ?_ ?_
    · refine List.map_congr_left fun k hk => ?_
      exact (sixBitCharacter_first (List.mem_range.mp hk)).symm
    · refine List.map_congr_left fun k _ => ?_
      rw [Function.comp_apply, Nat.add_comm 4 k, sixBitCharacter_later hgroup]

theorem rendered_of_ne {encoding : Encoding} {len : Nat} (hbinary : encoding ≠ .binary)
    (hsixBit : encoding ≠ .sixBitAscii) : Rendered encoding len :=
  ⟨fun h => absurd h hbinary, fun h => absurd h hsixBit⟩

theorem stringText_eq_iff (encoding : Encoding) (bytes : List UInt8) :
    stringText encoding bytes = fieldText encoding bytes ↔ Rendered encoding bytes.length := by
  cases encoding with
  | binary =>
    refine (convertRawBytesToString_eq_iff bytes).trans ?_
    constructor
    · intro h
      refine ⟨fun _ => h, fun hsixBit => ?_⟩
      cases hsixBit
    · intro h
      exact h.1 rfl
  | bcdPlus => exact iff_of_true (bcdText_eq bytes) (rendered_of_ne (by decide) (by decide))
  | sixBitAscii =>
    constructor
    · intro h
      refine ⟨fun hbinary => ?_, fun _ => ?_⟩
      · cases hbinary
      have hlength := congrArg List.length h
      simp only [stringText, fieldText, length_sixBitText, List.length_map,
        List.length_range] at hlength
      omega
    · intro h
      exact sixBitText_eq (h.2 rfl)
  | eightBitAscii => exact iff_of_true rfl (rendered_of_ne (by decide) (by decide))

theorem length_stringText_le (encoding : Encoding) (bytes : List UInt8) :
    (stringText encoding bytes).length ≤ stringSize encoding bytes.length := by
  cases encoding with
  | binary =>
    simp only [stringText, stringSize, length_convertRawBytesToString]
    omega
  | bcdPlus =>
    simp only [stringText, stringSize, bcdText, List.length_map, List.length_range]
    exact Nat.le_refl _
  | sixBitAscii =>
    simp only [stringText, stringSize, length_sixBitText]
    omega
  | eightBitAscii => exact Nat.le_refl _

/-! The fields of an area. -/

variable (allocates : Nat → Bool) (area : Area) (format : Format)

/-- The offset of the `i`-th type/length byte, as far as there are any: the fields lie one behind
the other, and those that are not predefined end at the marker. -/
def fieldOffset : Nat → Option Nat
  | 0 => some format.start
  | i + 1 =>
    (fieldOffset i).bind fun p =>
      if p < area.size ∧ (i < format.predefined ∨ area.data p ≠ fruEndOfFields) then
        some (p + 1 + area.lengthAt p)
      else none

structure IsField (i p : Nat) : Prop where
  offset : fieldOffset area format i = some p
  inside : p < area.size
  unmarked : i < format.predefined ∨ area.data p ≠ fruEndOfFields

/-- The call reads in the area, writes in its buffer and moves the offset on. -/
structure AreaString.Safe (string : AreaString) : Prop where
  inside : ∀ read ∈ string.reads, read.1 + read.2 ≤ area.size
  room : ∀ text, string.text = some text → text.length ≤ string.size
  increases : string.before < area.size → string.before < string.after

/-- The `j`-th string is the text of the field at an offset. -/
def Returned (strings : List AreaString) (j p : Nat) : Prop :=
  (strings[j]?).bind AreaString.text =
    some (fieldText (area.encodingAt p) (area.bytes (p + 1) (area.lengthAt p)))

/-- What a run of a parser is to be. -/
structure Parsed.Sound (parsed : Parsed) : Prop where
  returns : parsed.returns = true
  reads : ∀ read ∈ parsed.reads, read.1 + read.2 ≤ area.size
  safe : ∀ string ∈ parsed.kept ++ parsed.printed, string.Safe area
  texts : ∀ i < format.predefined + maxExtraFruAreaEntries, ∀ p, IsField area format i p →
    0 < area.lengthAt p → p + 1 + area.lengthAt p ≤ area.size →
      Returned area parsed.kept i p

/-- What `GetFruAreaStr` needs of a field: it starts in front of the length in eight bits, ends in
the area and at an offset of eight bits, the pool has its buffer, and a string that is kept is
rendered in full. -/
structure FieldFits (i p : Nat) : Prop where
  start_lt : p < area.fruLen
  inside : p + 1 + area.lengthAt p ≤ area.size
  end_lt : p + 1 + area.lengthAt p < 2 ^ 8
  buffer : stringSize (area.encodingAt p) (area.lengthAt p) = 0 ∨
    allocates (stringSize (area.encodingAt p) (area.lengthAt p) + 1) = true
  rendered : i < format.predefined + maxExtraFruAreaEntries →
    Rendered (area.encodingAt p) (area.lengthAt p)

/-- The offset is inside, and its field fits unless it is the end marker. -/
def CleanAt (i p : Nat) : Prop :=
  p < area.size ∧
    (i < format.predefined ∨ area.data p ≠ fruEndOfFields → FieldFits allocates area format i p)

/-- Every offset the walk comes to is clean. -/
def CleanArea (debugCode : Bool) : Prop :=
  ∀ i p, fieldOffset area format i = some p →
    debugCode = true ∨ i < format.predefined + maxExtraFruAreaEntries →
      CleanAt allocates area format i p

variable {allocates : Nat → Bool} {area : Area} {format : Format}

theorem fieldOffset_succ {i p : Nat} (h : IsField area format i p) :
    fieldOffset area format (i + 1) = some (p + 1 + area.lengthAt p) := by
  rw [fieldOffset, h.offset, Option.bind_some, if_pos ⟨h.inside, h.unmarked⟩]

theorem fieldOffset_none {i j : Nat} (h : fieldOffset area format i = none) (hle : i ≤ j) :
    fieldOffset area format j = none := by
  induction j, hle using Nat.le_induction with
  | base => exact h
  | succ j _ ih => rw [fieldOffset, ih, Option.bind_none]

theorem fieldOffset_marked {i p : Nat} (h : fieldOffset area format i = some p)
    (hi : format.predefined ≤ i) (hmarked : area.data p = fruEndOfFields) :
    fieldOffset area format (i + 1) = none := by
  rw [fieldOffset, h, Option.bind_some, if_neg]
  rintro ⟨-, hlt | hne⟩
  · omega
  · exact hne hmarked

theorem length_bytes (area : Area) (offset count : Nat) :
    (area.bytes offset count).length = count := by
  rw [Area.bytes, List.length_map, List.length_range]

theorem lengthAt_lt (area : Area) (p : Nat) : area.lengthAt p < 64 := Nat.mod_lt _ (by decide)

theorem fruLen_le_size (area : Area) : area.fruLen ≤ area.size := Nat.mod_le _ _

theorem fruLen_lt (area : Area) : area.fruLen < 2 ^ 8 := Nat.mod_lt _ (by decide)

theorem stringSize_eq_zero {encoding : Encoding} {len : Nat} (h : stringSize encoding len = 0) :
    len = 0 := by
  cases encoding with
  | binary =>
    simp only [stringSize] at h
    omega
  | bcdPlus =>
    simp only [stringSize] at h
    omega
  | sixBitAscii =>
    simp only [stringSize] at h
    omega
  | eightBitAscii => exact h

/-! One call of `GetFruAreaStr`. -/

theorem getFruAreaStr_before (p : Nat) : (getFruAreaStr allocates area p).before = p := by
  simp only [getFruAreaStr]
  split
  · rfl
  split
  · rfl
  split
  · rfl
  · rfl

theorem getFruAreaStr_stuck {p : Nat} (h : area.fruLen ≤ p) :
    (getFruAreaStr allocates area p).after = p := by
  simp only [getFruAreaStr]
  rw [if_pos h]

theorem FieldFits.string {i p : Nat} (h : FieldFits allocates area format i p) :
    (getFruAreaStr allocates area p).after = p + 1 + area.lengthAt p ∧
      (getFruAreaStr allocates area p).Safe area ∧
      (0 < area.lengthAt p → (getFruAreaStr allocates area p).text =
        some (stringText (area.encodingAt p) (area.bytes (p + 1) (area.lengthAt p)))) := by
  have hstart := h.start_lt
  have hinside := h.inside
  have hend := h.end_lt
  have hindex : u8 (p + 1) = p + 1 := Nat.mod_eq_of_lt (by omega)
  have hnext : u8 (p + 1 + area.lengthAt p) = p + 1 + area.lengthAt p := Nat.mod_eq_of_lt hend
  simp only [getFruAreaStr, hindex, hnext]
  rw [if_neg (by omega)]
  split
  next hempty =>
    have hlen := stringSize_eq_zero hempty
    refine ⟨?_, ⟨?_, ?_, ?_⟩, ?_⟩
    · change p + 1 = _
      omega
    · intro read hread
      rw [List.mem_singleton.mp hread]
      change p + 1 ≤ _
      omega
    · intro text htext
      cases htext
    · intro _
      exact Nat.lt_succ_self p
    · intro hpos
      omega
  next hsize =>
    have hbuffer := h.buffer.resolve_left hsize
    rw [if_neg (by rw [hbuffer]; decide)]
    refine ⟨rfl, ⟨?_, ?_, ?_⟩, fun _ => rfl⟩
    · intro read hread
      rcases List.mem_cons.mp hread with rfl | hread
      · change p + 1 ≤ _
        omega
      · rw [List.mem_singleton.mp hread]
        exact hinside
    · intro text htext
      cases htext
      have hroom := length_stringText_le (area.encodingAt p)
        (area.bytes (p + 1) (area.lengthAt p))
      rw [length_bytes] at hroom
      exact hroom
    · intro _
      change p < p + 1 + area.lengthAt p
      omega

/-- A call that is safe and returns the text is at a field that fits. -/
theorem FieldFits.of_string {i p : Nat} (hp : p < area.size)
    (hsafe : (getFruAreaStr allocates area p).Safe area)
    (htext : i < format.predefined + maxExtraFruAreaEntries → 0 < area.lengthAt p →
      p + 1 + area.lengthAt p ≤ area.size → (getFruAreaStr allocates area p).text =
        some (fieldText (area.encodingAt p) (area.bytes (p + 1) (area.lengthAt p)))) :
    FieldFits allocates area format i p := by
  obtain ⟨hinside, -, hincreases⟩ := hsafe
  rw [getFruAreaStr_before] at hincreases
  have hmoved := hincreases hp
  have hstart : p < area.fruLen := by
    by_contra hstuck
    rw [getFruAreaStr_stuck (Nat.le_of_not_lt hstuck)] at hmoved
    exact Nat.lt_irrefl p hmoved
  have hfruLen := fruLen_lt area
  have hindex : u8 (p + 1) = p + 1 := Nat.mod_eq_of_lt (by omega)
  have hlt := lengthAt_lt area p
  simp only [getFruAreaStr, hindex] at hinside hmoved htext
  rw [if_neg (by omega)] at hinside hmoved htext
  by_cases hempty : stringSize (area.encodingAt p) (area.lengthAt p) = 0
  · have hlen := stringSize_eq_zero hempty
    exact
      { start_lt := hstart
        inside := by omega
        end_lt := by omega
        buffer := .inl hempty
        rendered := fun _ =>
          ⟨fun _ => by rw [hlen]; decide, fun _ => by rw [hlen]⟩ }
  · rw [if_neg hempty] at hinside hmoved htext
    by_cases hbuffer : allocates (stringSize (area.encodingAt p) (area.lengthAt p) + 1) = true
    · rw [if_neg (by rw [hbuffer]; decide)] at hinside hmoved htext
      have hend : p + 1 + area.lengthAt p ≤ area.size :=
        hinside (p + 1, area.lengthAt p) (List.mem_cons_of_mem _ (List.mem_singleton_self _))
      have hnext : p < u8 (p + 1 + area.lengthAt p) := hmoved
      unfold u8 at hnext
      refine
        { start_lt := hstart
          inside := hend
          end_lt := by omega
          buffer := .inr hbuffer
          rendered := fun hi => ?_ }
      by_cases hpos : 0 < area.lengthAt p
      · have heq := (stringText_eq_iff _ _).mp (Option.some.inj (htext hi hpos hend))
        rw [length_bytes] at heq
        exact heq
      · have hlen : area.lengthAt p = 0 := by omega
        exact ⟨fun _ => by rw [hlen]; decide, fun _ => by rw [hlen]⟩
    · rw [if_pos (by rw [Bool.eq_false_of_not_eq_true hbuffer]; rfl)] at hmoved
      exact absurd hmoved (Nat.lt_irrefl p)

/-! The loop over the predefined fields. -/

theorem length_readPredefined (count p : Nat) :
    (readPredefined allocates area count p).1.length = count := by
  induction count generalizing p with
  | zero => rfl
  | succ count ih => exact congrArg Nat.succ (ih _)

theorem readPredefined_stuck {p : Nat} (h : area.fruLen ≤ p) (count : Nat) :
    (readPredefined allocates area count p).2 = p := by
  induction count with
  | zero => rfl
  | succ count ih =>
    simp only [readPredefined]
    rw [getFruAreaStr_stuck h, ih]

theorem readPredefined_of_clean (allocates : Nat → Bool) {count i p : Nat}
    (hp : fieldOffset area format i = some p)
    (hi : i + count ≤ format.predefined)
    (hclean : ∀ j q, i ≤ j → j < i + count → fieldOffset area format j = some q →
      CleanAt allocates area format j q) :
    (∀ string ∈ (readPredefined allocates area count p).1, string.Safe area) ∧
      fieldOffset area format (i + count) = some (readPredefined allocates area count p).2 ∧
      ∀ j < count, ∀ q, IsField area format (i + j) q →
        (readPredefined allocates area count p).1[j]? = some (getFruAreaStr allocates area q) := by
  induction count generalizing i p with
  | zero =>
    refine ⟨?_, hp, ?_⟩
    · intro string hmem
      cases hmem
    · intro j hj
      omega
  | succ count ih =>
    obtain ⟨hlt, hfits⟩ := hclean i p (Nat.le_refl i) (by omega) hp
    have hunmarked : i < format.predefined ∨ area.data p ≠ fruEndOfFields := .inl (by omega)
    obtain ⟨hafter, hsafe, -⟩ := (hfits hunmarked).string
    have hnext := fieldOffset_succ ⟨hp, hlt, hunmarked⟩
    rw [← hafter] at hnext
    obtain ⟨hrest, hlast, hstrings⟩ := ih hnext (by omega)
      fun j q hle hj => hclean j q (by omega) (by omega)
    refine ⟨?_, ?_, ?_⟩
    · intro string hmem
      rcases List.mem_cons.mp hmem with rfl | hmem
      · exact hsafe
      · exact hrest string hmem
    · rw [Nat.add_right_comm] at hlast
      exact hlast
    · intro j hj q hq
      cases j with
      | zero =>
        have heq : p = q := Option.some.inj (hp.symm.trans hq.offset)
        rw [heq]
        rfl
      | succ j =>
        rw [← Nat.add_assoc, Nat.add_right_comm] at hq
        exact hstrings j (by omega) q hq

/-- Where the loop is safe and ends inside, the predefined fields are clean. -/
theorem readPredefined_clean (allocates : Nat → Bool) {count i p : Nat}
    (hp : fieldOffset area format i = some p)
    (hi : i + count ≤ format.predefined)
    (hsafe : ∀ string ∈ (readPredefined allocates area count p).1, string.Safe area)
    (hlast : (readPredefined allocates area count p).2 < area.size)
    (htexts : ∀ j < count, ∀ q, IsField area format (i + j) q → 0 < area.lengthAt q →
      q + 1 + area.lengthAt q ≤ area.size →
        Returned area (readPredefined allocates area count p).1 j q) :
    (∀ j q, i ≤ j → j < i + count → fieldOffset area format j = some q →
      CleanAt allocates area format j q) ∧
      fieldOffset area format (i + count) = some (readPredefined allocates area count p).2 := by
  induction count generalizing i p with
  | zero =>
    refine ⟨?_, hp⟩
    intro j q hle hj
    omega
  | succ count ih =>
    have hlt : p < area.size := by
      by_contra hout
      have hle := fruLen_le_size area
      rw [readPredefined_stuck (by omega)] at hlast
      exact hout hlast
    have hfield : IsField area format i p := ⟨hp, hlt, .inl (by omega)⟩
    have hfits : FieldFits allocates area format i p :=
      FieldFits.of_string hlt (hsafe _ List.mem_cons_self)
        fun _ hpos hend => htexts 0 (by omega) p hfield hpos hend
    have hnext := fieldOffset_succ hfield
    rw [← hfits.string.1] at hnext
    obtain ⟨hrest, hend⟩ := ih hnext (by omega)
      (fun string hmem => hsafe string (List.mem_cons_of_mem _ hmem)) hlast
      (fun j hj q hq => htexts (j + 1) (by omega) q (by
        rw [← Nat.add_assoc, Nat.add_right_comm]
        exact hq))
    refine ⟨?_, ?_⟩
    · intro j q hle hj hq
      rcases Nat.eq_or_lt_of_le hle with rfl | hlt'
      · have heq : p = q := Option.some.inj (hp.symm.trans hq)
        rw [← heq]
        exact ⟨hlt, fun _ => hfits⟩
      · exact hrest j q hlt' (by omega) hq
    · rw [Nat.add_right_comm] at hend
      exact hend

/-! The loops over the custom fields. -/

theorem readExtra_of_clean {count i p : Nat} (hp : fieldOffset area format i = some p)
    (hi : format.predefined ≤ i)
    (hclean : ∀ j q, i ≤ j → j < i + count → fieldOffset area format j = some q →
      CleanAt allocates area format j q) :
    (∀ string ∈ (readExtra allocates area count p).strings, string.Safe area) ∧
      (∀ check ∈ (readExtra allocates area count p).checks, check < area.size) ∧
      ((readExtra allocates area count p).ended = false →
        fieldOffset area format (i + count) = some (readExtra allocates area count p).last ∧
          (count = 0 ∨ p + count ≤ area.size)) ∧
      ∀ j < count, ∀ q, IsField area format (i + j) q →
        (readExtra allocates area count p).strings[j]? =
          some (getFruAreaStr allocates area q) := by
  induction count generalizing i p with
  | zero =>
    refine ⟨?_, ?_, fun _ => ⟨hp, .inl rfl⟩, ?_⟩
    · intro string hmem
      cases hmem
    · intro check hmem
      cases hmem
    · intro j hj
      omega
  | succ count ih =>
    obtain ⟨hlt, hfits⟩ := hclean i p (Nat.le_refl i) (by omega) hp
    rw [readExtra]
    split
    next hmarked =>
      refine ⟨?_, ?_, ?_, ?_⟩
      · intro string hmem
        cases hmem
      · intro check hmem
        rw [List.mem_singleton.mp hmem]
        exact hlt
      · intro hended
        cases hended
      · intro j hj q hq
        cases j with
        | zero =>
          have heq : p = q := Option.some.inj (hp.symm.trans hq.offset)
          rcases hq.unmarked with hlt' | hne
          · omega
          · exact absurd (heq ▸ hmarked) hne
        | succ j =>
          have hnone := fieldOffset_none (fieldOffset_marked hp hi hmarked)
            (by omega : i + 1 ≤ i + (j + 1))
          rw [hq.offset] at hnone
          cases hnone
    next hunmarked =>
      obtain ⟨hafter, hsafe, -⟩ := (hfits (.inr hunmarked)).string
      have hnext := fieldOffset_succ ⟨hp, hlt, .inr hunmarked⟩
      rw [← hafter] at hnext
      obtain ⟨hrest, hchecks, hlast, hstrings⟩ := ih hnext (by omega)
        fun j q hle hj => hclean j q (by omega) (by omega)
      simp only
      rw [if_neg (by omega)]
      refine ⟨?_, ?_, ?_, ?_⟩
      · intro string hmem
        rcases List.mem_cons.mp hmem with rfl | hmem
        · exact hsafe
        · exact hrest string hmem
      · intro check hmem
        rcases List.mem_cons.mp hmem with rfl | hmem
        · exact hlt
        · exact hchecks check hmem
      · intro hended
        obtain ⟨hoffset, hcount⟩ := hlast hended
        rw [Nat.add_right_comm] at hoffset
        exact ⟨hoffset, .inr (by omega)⟩
      · intro j hj q hq
        cases j with
        | zero =>
          have heq : p = q := Option.some.inj (hp.symm.trans hq.offset)
          rw [heq]
          rfl
        | succ j =>
          rw [← Nat.add_assoc, Nat.add_right_comm] at hq
          exact hstrings j (by omega) q hq

/-- Where a loop is safe, the custom fields it comes to are clean. -/
theorem readExtra_clean {count i p : Nat} (hp : fieldOffset area format i = some p)
    (hi : format.predefined ≤ i)
    (hsafe : ∀ string ∈ (readExtra allocates area count p).strings, string.Safe area)
    (hchecks : ∀ check ∈ (readExtra allocates area count p).checks, check < area.size)
    (htexts : ∀ j < count, i + j < format.predefined + maxExtraFruAreaEntries → ∀ q,
      IsField area format (i + j) q → 0 < area.lengthAt q →
        q + 1 + area.lengthAt q ≤ area.size →
          Returned area (readExtra allocates area count p).strings j q) :
    (∀ j q, i ≤ j → j < i + count ∨ (readExtra allocates area count p).ended = true →
      fieldOffset area format j = some q → CleanAt allocates area format j q) ∧
      ((readExtra allocates area count p).ended = false →
        fieldOffset area format (i + count) =
          some (readExtra allocates area count p).last) := by
  induction count generalizing i p with
  | zero =>
    refine ⟨?_, fun _ => hp⟩
    rintro j q hle (hj | hended)
    · omega
    · cases hended
  | succ count ih =>
    rw [readExtra] at hsafe hchecks htexts ⊢
    split
    next hmarked =>
      rw [if_pos hmarked] at hchecks
      refine ⟨?_, ?_⟩
      · intro j q hle _ hq
        rcases Nat.eq_or_lt_of_le hle with rfl | hlt'
        · have heq : p = q := Option.some.inj (hp.symm.trans hq)
          rw [← heq]
          refine ⟨hchecks p (List.mem_singleton_self p), ?_⟩
          rintro (hlt | hne)
          · omega
          · exact absurd hmarked hne
        · rw [fieldOffset_none (fieldOffset_marked hp hi hmarked) hlt'] at hq
          cases hq
      · intro hended
        cases hended
    next hunmarked =>
      rw [if_neg hunmarked] at hsafe hchecks htexts
      simp only at hsafe hchecks htexts ⊢
      have hmoved : (getFruAreaStr allocates area p).after ≠ p := by
        intro hstuck
        rw [if_pos hstuck] at hsafe hchecks
        have hsafe' := (hsafe _ (List.mem_singleton_self _)).increases
        rw [getFruAreaStr_before, hstuck] at hsafe'
        exact Nat.lt_irrefl p (hsafe' (hchecks p (List.mem_singleton_self p)))
      rw [if_neg hmoved] at hsafe hchecks htexts ⊢
      have hlt : p < area.size := hchecks p List.mem_cons_self
      have hfield : IsField area format i p := ⟨hp, hlt, .inr hunmarked⟩
      have hfits : FieldFits allocates area format i p :=
        FieldFits.of_string hlt (hsafe _ List.mem_cons_self)
          fun hkept hpos hend => htexts 0 (by omega) hkept p hfield hpos hend
      have hnext := fieldOffset_succ hfield
      rw [← hfits.string.1] at hnext
      obtain ⟨hrest, hend⟩ := ih hnext (by omega)
        (fun string hmem => hsafe string (List.mem_cons_of_mem _ hmem))
        (fun check hmem => hchecks check (List.mem_cons_of_mem _ hmem))
        (fun j hj hkept q hq => htexts (j + 1) (by omega) (by omega) q (by
          rw [← Nat.add_assoc, Nat.add_right_comm]
          exact hq))
      refine ⟨?_, ?_⟩
      · intro j q hle hj hq
        rcases Nat.eq_or_lt_of_le hle with rfl | hlt'
        · have heq : p = q := Option.some.inj (hp.symm.trans hq)
          rw [← heq]
          exact ⟨hlt, fun _ => hfits⟩
        · exact hrest j q hlt' (hj.imp_left fun h => by omega) hq
      · intro hended
        have hoffset := hend hended
        rw [Nat.add_right_comm] at hoffset
        exact hoffset

/-! The parsers. -/

/-- The text a call returns for a field that fits and is kept. -/
theorem returned_of_fits {strings : List AreaString} {i j p : Nat}
    (hfits : FieldFits allocates area format i p)
    (hi : i < format.predefined + maxExtraFruAreaEntries) (hpos : 0 < area.lengthAt p)
    (hstring : strings[j]? = some (getFruAreaStr allocates area p)) :
    Returned area strings j p := by
  have hrendered := hfits.rendered hi
  rw [← length_bytes area (p + 1) (area.lengthAt p)] at hrendered
  unfold Returned
  rw [hstring, Option.bind_some, hfits.string.2.2 hpos, (stringText_eq_iff _ _).mpr hrendered]

/-- The first thing a loop does is the comparison at its offset. -/
theorem mem_checks (count p : Nat) : p ∈ (readExtra allocates area (count + 1) p).checks := by
  rw [readExtra]
  split
  · exact List.mem_singleton_self p
  simp only
  split
  · exact List.mem_singleton_self p
  · exact List.mem_cons_self

variable (allocates area format) in
def keptStrings : List AreaString :=
  let predefined := readPredefined allocates area format.predefined format.start
  predefined.1 ++ (readExtra allocates area maxExtraFruAreaEntries predefined.2).strings

theorem keptStrings_predefined {i : Nat} (hi : i < format.predefined) :
    (keptStrings allocates area format)[i]? =
      (readPredefined allocates area format.predefined format.start).1[i]? :=
  List.getElem?_append_left (by rw [length_readPredefined]; exact hi)

theorem keptStrings_custom (j : Nat) :
    (keptStrings allocates area format)[format.predefined + j]? =
      (readExtra allocates area maxExtraFruAreaEntries
        (readPredefined allocates area format.predefined format.start).2).strings[j]? := by
  rw [keptStrings, List.getElem?_append_right (by rw [length_readPredefined]; omega),
    length_readPredefined, Nat.add_sub_cancel_left]

/-- In a clean area the run is what it is to be. -/
theorem parseFruArea_sound {debugCode : Bool}
    (hheader : ∀ read ∈ format.header, read.1 + read.2 ≤ area.size)
    (h : CleanArea allocates area format debugCode) :
    (parseFruArea allocates area format debugCode (area.size + 1)).Sound area format := by
  obtain ⟨hsafe, hoffset, hstrings⟩ := readPredefined_of_clean allocates rfl
    (Nat.le_of_eq (Nat.zero_add format.predefined))
    fun j q _ hj hq => h j q hq (.inr (by omega))
  rw [Nat.zero_add] at hoffset
  obtain ⟨hsafe', hchecks, hended, hstrings'⟩ :=
    readExtra_of_clean hoffset (Nat.le_refl _) fun j q _ hj hq =>
      h j q hq (.inr (hj : j < format.predefined + maxExtraFruAreaEntries))
  have hkept : ∀ string ∈ keptStrings allocates area format, string.Safe area := by
    intro string hmem
    rcases List.mem_append.mp hmem with hmem | hmem
    · exact hsafe string hmem
    · exact hsafe' string hmem
  have htexts : ∀ i < format.predefined + maxExtraFruAreaEntries, ∀ p, IsField area format i p →
      0 < area.lengthAt p → p + 1 + area.lengthAt p ≤ area.size →
        Returned area (keptStrings allocates area format) i p := by
    intro i hi p hp hpos _
    refine returned_of_fits ((h i p hp.offset (.inr hi)).2 hp.unmarked) hi hpos ?_
    by_cases hpredefined : i < format.predefined
    · rw [keptStrings_predefined hpredefined]
      exact hstrings i hpredefined p (by rw [Nat.zero_add]; exact hp)
    · obtain ⟨j, rfl⟩ := Nat.exists_eq_add_of_le (Nat.le_of_not_lt hpredefined)
      rw [keptStrings_custom]
      exact hstrings' j (by omega) p hp
  have hreads : ∀ checks : List Nat, (∀ check ∈ checks, check < area.size) →
      ∀ read ∈ format.header ++ checks.map (·, 1), read.1 + read.2 ≤ area.size := by
    intro checks hinside read hmem
    rcases List.mem_append.mp hmem with hmem | hmem
    · exact hheader read hmem
    · obtain ⟨check, hcheck, rfl⟩ := List.mem_map.mp hmem
      exact hinside check hcheck
  simp only [parseFruArea]
  split
  next hdebug =>
    rw [Bool.and_eq_true, Bool.not_eq_true'] at hdebug
    obtain ⟨hdebugCode, hopen⟩ := hdebug
    obtain ⟨hrest, hrestChecks, hrestEnded, -⟩ :=
      readExtra_of_clean (hended hopen).1 (Nat.le_add_right _ _) fun j q _ hj hq =>
        h j q hq (.inl hdebugCode)
    refine ⟨?_, ?_, ?_, htexts⟩
    · -- each field of the last loop takes a byte of the area
      by_contra hopen'
      have hcount := (hrestEnded (Bool.eq_false_of_not_eq_true hopen')).2
      omega
    · refine hreads _ fun check hmem => ?_
      rcases List.mem_append.mp hmem with hmem | hmem
      · exact hchecks check hmem
      · exact hrestChecks check hmem
    · intro string hmem
      rcases List.mem_append.mp hmem with hmem | hmem
      · exact hkept string hmem
      · exact hrest string hmem
  · refine ⟨rfl, hreads _ hchecks, ?_, htexts⟩
    intro string hmem
    rw [List.append_nil] at hmem
    exact hkept string hmem

/-- A run that is what it is to be comes to clean offsets only. -/
theorem cleanArea_of_sound {debugCode : Bool} {fuel : Nat}
    (h : (parseFruArea allocates area format debugCode fuel).Sound area format) :
    CleanArea allocates area format debugCode := by
  have hkept : (parseFruArea allocates area format debugCode fuel).kept =
      keptStrings allocates area format := by
    simp only [parseFruArea]
    split
    · rfl
    · rfl
  have hchecks : ∀ check ∈ (readExtra allocates area maxExtraFruAreaEntries
      (readPredefined allocates area format.predefined format.start).2).checks,
      check < area.size := by
    intro check hmem
    refine h.reads (check, 1) ?_
    simp only [parseFruArea]
    split
    · exact List.mem_append_right _
        (List.mem_map_of_mem (List.mem_append_left _ hmem))
    · exact List.mem_append_right _ (List.mem_map_of_mem hmem)
  have hsafe : ∀ string ∈ keptStrings allocates area format, string.Safe area := by
    intro string hmem
    rw [← hkept] at hmem
    exact h.safe string (List.mem_append_left _ hmem)
  have htexts := h.texts
  rw [hkept] at htexts
  have hlast := hchecks _ (mem_checks 9 _)
  obtain ⟨hpredefined, hoffset⟩ := readPredefined_clean allocates rfl
    (Nat.le_of_eq (Nat.zero_add format.predefined))
    (fun string hmem => hsafe string (List.mem_append_left _ hmem)) hlast (by
      intro j hj q hq hpos hend
      rw [Nat.zero_add] at hq
      have htext := htexts j (by omega) q hq hpos hend
      unfold Returned at htext ⊢
      rw [keptStrings_predefined hj] at htext
      exact htext)
  rw [Nat.zero_add] at hoffset
  obtain ⟨hcustom, hended⟩ := readExtra_clean hoffset (Nat.le_refl _)
    (fun string hmem => hsafe string (List.mem_append_right _ hmem)) hchecks (by
      intro j hj hi q hq hpos hend
      have htext := htexts _ hi q hq hpos hend
      unfold Returned at htext ⊢
      rw [keptStrings_custom] at htext
      exact htext)
  intro i p hp hi
  by_cases hlt : i < format.predefined
  · exact hpredefined i p (Nat.zero_le i) (by rw [Nat.zero_add]; exact hlt) hp
  have hle : format.predefined ≤ i := Nat.le_of_not_lt hlt
  by_cases hkeeps : i < format.predefined + maxExtraFruAreaEntries
  · exact hcustom i p hle (.inl hkeeps) hp
  by_cases hclosed : (readExtra allocates area maxExtraFruAreaEntries
      (readPredefined allocates area format.predefined format.start).2).ended = true
  · exact hcustom i p hle (.inr hclosed) hp
  -- only the last loop comes to this field
  have hopen := Bool.eq_false_of_not_eq_true hclosed
  have hdebug := hi.resolve_right hkeeps
  have hbranch := h
  simp only [parseFruArea] at hbranch
  rw [if_pos (by rw [hdebug, hopen]; rfl)] at hbranch
  obtain ⟨hreturns, hreads, hsafe', -⟩ := hbranch
  refine (readExtra_clean (hended hopen) (Nat.le_add_right _ _)
    (fun string hmem => hsafe' string (List.mem_append_right _ hmem)) ?_ ?_).1 i p
    (Nat.le_of_not_lt hkeeps) (.inr hreturns) hp
  · intro check hmem
    exact hreads (check, 1) (List.mem_append_right _
      (List.mem_map_of_mem (List.mem_append_right _ hmem)))
  · intro j _ hj
    omega

/-! The three areas. -/

def formatOf : AreaType → Format
  | .chassis => chassisFormat
  | .board => boardFormat
  | .product => productFormat

theorem parseSpecificFruArea_eq (allocates : Nat → Bool) (area : Area) (type : AreaType) :
    parseSpecificFruArea allocates area type = parseFruArea allocates area (formatOf type) := by
  cases type with
  | chassis => rfl
  | board => rfl
  | product => rfl

theorem header_inside (area : Area) (type : AreaType) :
    ∀ read ∈ (formatOf type).header, read.1 + read.2 ≤ area.size := by
  have hheader : ∀ read ∈ (formatOf type).header, read.1 + read.2 ≤ 8 := by
    cases type with
    | chassis => decide
    | board => decide
    | product => decide
  have hsize : 8 ≤ area.size := Nat.mul_le_mul_right 8 area.eighths_pos
  intro read hmem
  exact Nat.le_trans (hheader read hmem) hsize

/-- An area is decoded as it is to be exactly when it is clean. -/
theorem decoded_iff_clean (allocates : Nat → Bool) (area : Area) (type : AreaType)
    (debugCode : Bool) :
    (∃ fuel, (parseSpecificFruArea allocates area type debugCode fuel).Sound area
      (formatOf type)) ↔ CleanArea allocates area (formatOf type) debugCode := by
  rw [parseSpecificFruArea_eq]
  constructor
  · rintro ⟨fuel, hsound⟩
    exact cleanArea_of_sound hsound
  · intro hclean
    exact ⟨area.size + 1, parseFruArea_sound (header_inside area type) hclean⟩

/-- A chassis area of 256 bytes: the part number "A", no serial number, and the end marker. -/
def longArea : Area where
  eighths := 32
  data offset := if offset = 4 then 0x41 else if offset = 5 then 0 else fruEndOfFields
  eighths_pos := by decide
  eighths_lt := by decide

/-- The length of that area is zero in eight bits, and its strings are not found. -/
theorem not_always_decoded :
    ¬ ∀ (allocates : Nat → Bool) (area : Area) (type : AreaType) (debugCode : Bool),
      (∀ size, allocates size = true) →
        ∃ fuel, (parseSpecificFruArea allocates area type debugCode fuel).Sound area
          (formatOf type) := by
  intro h
  obtain ⟨fuel, hsound⟩ := h (fun _ => true) longArea .chassis false fun _ => rfl
  rw [parseSpecificFruArea_eq] at hsound
  have hclean := cleanArea_of_sound hsound 0 3 rfl (.inr (by decide))
  exact absurd (hclean.2 (.inl (by decide))).start_lt (by decide)

end Fru
