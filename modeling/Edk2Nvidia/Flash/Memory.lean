import Mathlib.Algebra.Order.Ring.Nat
import Mathlib.Data.List.Basic
import Mathlib.Data.List.GetD
import Mathlib.Tactic.Common

/-! NOR flash as a byte memory. A program only clears bits, so it is a bitwise
and; an erase sets a whole range back to ones. Nothing here knows what the bytes
mean. -/
namespace Flash

abbrev Memory := Nat → UInt8

abbrev erasedByte : UInt8 := 0xFF

@[simp] theorem and_erasedByte (b : UInt8) : b &&& erasedByte = b := by
  rw [← UInt8.toBitVec_inj, UInt8.toBitVec_and]
  exact BitVec.and_allOnes

@[simp] theorem erasedByte_and (b : UInt8) : erasedByte &&& b = b := by
  rw [UInt8.and_comm, and_erasedByte]

/-- The bytes of `[offset, offset + size)`. -/
def slice (m : Memory) (offset size : Nat) : List UInt8 :=
  (List.range' offset size).map m

@[simp] theorem length_slice (m : Memory) (offset size : Nat) :
    (slice m offset size).length = size := by
  simp [slice]

@[simp] theorem getElem_slice (m : Memory) (offset size i : Nat)
    (h : i < (slice m offset size).length) : (slice m offset size)[i] = m (offset + i) := by
  simp [slice]

theorem getD_slice (m : Memory) (offset size i : Nat) (d : UInt8) (h : i < size) :
    (slice m offset size).getD i d = m (offset + i) := by
  rw [List.getD_eq_getElem _ _ (by simpa using h), getElem_slice]

theorem slice_add (m : Memory) (offset a b : Nat) :
    slice m offset (a + b) = slice m offset a ++ slice m (offset + a) b := by
  simp [slice, ← List.range'_append_1]

theorem slice_congr {m m' : Memory} {offset size : Nat}
    (h : ∀ a, offset ≤ a → a < offset + size → m' a = m a) :
    slice m' offset size = slice m offset size := by
  apply List.map_congr_left
  intro a ha
  simp only [List.mem_range'_1] at ha
  exact h a ha.1 ha.2

theorem take_slice (m : Memory) (offset size k : Nat) (h : k ≤ size) :
    (slice m offset size).take k = slice m offset k := by
  obtain ⟨r, rfl⟩ := Nat.exists_eq_add_of_le h
  rw [slice_add, List.take_left' (by simp)]

theorem drop_slice (m : Memory) (offset size k : Nat) (h : k ≤ size) :
    (slice m offset size).drop k = slice m (offset + k) (size - k) := by
  obtain ⟨r, rfl⟩ := Nat.exists_eq_add_of_le h
  rw [slice_add, List.drop_left' (by simp), Nat.add_sub_cancel_left]

/-- Programming `data` at `offset`: bits are only ever cleared. -/
def program (m : Memory) (offset : Nat) (data : List UInt8) : Memory := fun a =>
  if a < offset then m a else m a &&& data.getD (a - offset) erasedByte

def erase (m : Memory) (offset size : Nat) : Memory := fun a =>
  if offset ≤ a ∧ a < offset + size then erasedByte else m a

/-- Plain memory takes `data` as it is. -/
def overwrite (m : Memory) (offset : Nat) (data : List UInt8) : Memory := fun a =>
  if a < offset then m a else data.getD (a - offset) (m a)

theorem program_outside (m : Memory) (offset : Nat) (data : List UInt8) (a : Nat)
    (h : a < offset ∨ offset + data.length ≤ a) : program m offset data a = m a := by
  unfold program
  split
  · rfl
  · rw [List.getD_eq_default _ _ (by omega), and_erasedByte]

theorem program_inside (m : Memory) (offset : Nat) (data : List UInt8) (i : Nat)
    (h : i < data.length) : program m offset data (offset + i) = m (offset + i) &&& data[i] := by
  simp only [program, Nat.not_lt.mpr (Nat.le_add_right offset i), if_false, Nat.add_sub_cancel_left,
    List.getD_eq_getElem _ _ h]

@[simp] theorem program_nil (m : Memory) (offset : Nat) : program m offset [] = m := by
  funext a
  simp [program]

theorem erase_outside (m : Memory) (offset size a : Nat)
    (h : a < offset ∨ offset + size ≤ a) : erase m offset size a = m a := by
  unfold erase
  rw [if_neg (by omega)]

@[simp] theorem erase_zero (m : Memory) (offset : Nat) : erase m offset 0 = m := by
  funext a
  unfold erase
  rw [if_neg (by omega)]

theorem erase_inside (m : Memory) (offset size a : Nat)
    (h : offset ≤ a) (h' : a < offset + size) : erase m offset size a = erasedByte := by
  simp [erase, h, h']

theorem slice_program_disjoint (m : Memory) (offset : Nat) (data : List UInt8) (at' size : Nat)
    (h : at' + size ≤ offset ∨ offset + data.length ≤ at') :
    slice (program m offset data) at' size = slice m at' size := by
  apply slice_congr
  intro a ha ha'
  exact program_outside m offset data a (by omega)

theorem slice_erase_disjoint (m : Memory) (offset size at' n : Nat)
    (h : at' + n ≤ offset ∨ offset + size ≤ at') :
    slice (erase m offset size) at' n = slice m at' n := by
  apply slice_congr
  intro a ha ha'
  exact erase_outside m offset size a (by omega)

/-- `bytes` stand at `offset`. -/
def Holds (m : Memory) (offset : Nat) (bytes : List UInt8) : Prop :=
  slice m offset bytes.length = bytes

instance (m : Memory) (offset : Nat) (bytes : List UInt8) : Decidable (Holds m offset bytes) :=
  inferInstanceAs (Decidable (_ = _))

theorem holds_iff (m : Memory) (offset : Nat) (bytes : List UInt8) :
    Holds m offset bytes ↔ ∀ i (h : i < bytes.length), m (offset + i) = bytes[i] := by
  constructor
  · intro h i hi
    rw [← getElem_slice m offset bytes.length i (by simpa using hi)]
    simp only [show slice m offset bytes.length = bytes from h]
  · intro h
    apply List.ext_getElem (by simp)
    intro i h1 h2
    rw [getElem_slice, h i h2]

theorem Holds.congr {m m' : Memory} {offset : Nat} {bytes : List UInt8}
    (h : Holds m offset bytes)
    (same : ∀ a, offset ≤ a → a < offset + bytes.length → m' a = m a) :
    Holds m' offset bytes := by
  unfold Holds
  rw [slice_congr same]
  exact h

theorem overwrite_outside (m : Memory) (offset : Nat) (data : List UInt8) (a : Nat)
    (h : a < offset ∨ offset + data.length ≤ a) : overwrite m offset data a = m a := by
  unfold overwrite
  split
  · rfl
  · rw [List.getD_eq_default _ _ (by omega)]

theorem overwrite_inside (m : Memory) (offset : Nat) (data : List UInt8) (i : Nat)
    (h : i < data.length) (d : UInt8) : overwrite m offset data (offset + i) = data.getD i d := by
  unfold overwrite
  rw [if_neg (by omega), Nat.add_sub_cancel_left, List.getD_eq_getElem _ _ h,
    List.getD_eq_getElem _ _ h]

theorem holds_overwrite (m : Memory) (offset : Nat) (data : List UInt8) :
    Holds (overwrite m offset data) offset data := by
  rw [holds_iff]
  intro i hi
  rw [overwrite_inside m offset data i hi 0, List.getD_eq_getElem _ _ hi]

@[simp] theorem holds_nil (m : Memory) (offset : Nat) : Holds m offset [] := rfl

theorem holds_append {m : Memory} {offset : Nat} {front back : List UInt8} :
    Holds m offset (front ++ back) ↔
      Holds m offset front ∧ Holds m (offset + front.length) back := by
  unfold Holds
  rw [List.length_append, slice_add]
  constructor
  · intro h
    exact List.append_inj h (by simp)
  · intro h
    rw [h.1, h.2]

theorem Holds.slice {m : Memory} {offset : Nat} {bytes : List UInt8} (h : Holds m offset bytes)
    (k : Nat) (hk : k ≤ bytes.length) : Flash.slice m offset k = bytes.take k := by
  rw [← take_slice m offset bytes.length k hk, show Flash.slice m offset bytes.length = bytes from h]

def Blank (m : Memory) (offset size : Nat) : Prop :=
  ∀ a, offset ≤ a → a < offset + size → m a = erasedByte

theorem Blank.congr {m m' : Memory} {offset size : Nat} (h : Blank m offset size)
    (same : ∀ a, offset ≤ a → a < offset + size → m' a = m a) : Blank m' offset size :=
  fun a ha ha' => (same a ha ha').trans (h a ha ha')

theorem Blank.sub {m : Memory} {offset size offset' size' : Nat} (h : Blank m offset size)
    (lo : offset ≤ offset') (hi : offset' + size' ≤ offset + size) : Blank m offset' size' :=
  fun a ha ha' => h a (by omega) (by omega)

theorem Blank.erase_eq {m : Memory} {offset size offset' size' : Nat} (h : Blank m offset size)
    (lo : offset ≤ offset') (hi : offset' + size' ≤ offset + size) : erase m offset' size' = m := by
  funext a
  unfold erase
  split
  next ha => exact (h a (by omega) (by omega)).symm
  next => rfl

theorem blank_erase (m : Memory) (offset size : Nat) : Blank (erase m offset size) offset size :=
  fun a ha ha' => erase_inside m offset size a ha ha'

/-- The test drivers make of a buffer they read back. -/
def isErased (bytes : List UInt8) : Bool := bytes.all (· == erasedByte)

theorem isErased_slice (m : Memory) (offset size : Nat) :
    isErased (slice m offset size) = true ↔ Blank m offset size := by
  simp only [isErased, slice, List.all_map, List.all_eq_true, List.mem_range'_1, Function.comp,
    beq_iff_eq, Blank, and_imp]

/-- The bits of `data` can be reached from what the flash holds without an erase. -/
def Permits (m : Memory) (offset : Nat) (data : List UInt8) : Prop :=
  ∀ i (h : i < data.length), m (offset + i) &&& data[i] = data[i]

theorem Permits.overwrite_eq {m : Memory} {offset : Nat} {data : List UInt8}
    (h : Permits m offset data) : overwrite m offset data = program m offset data := by
  funext a
  unfold overwrite program
  split
  · rfl
  · by_cases hi : a - offset < data.length
    · have hbits := h (a - offset) hi
      rw [Nat.add_sub_cancel' (by omega)] at hbits
      rw [List.getD_eq_getElem _ _ hi, List.getD_eq_getElem _ _ hi, hbits]
    · rw [List.getD_eq_default _ _ (by omega), List.getD_eq_default _ _ (by omega), and_erasedByte]

theorem holds_program {m : Memory} {offset : Nat} {data : List UInt8} (h : Permits m offset data) :
    Holds (program m offset data) offset data := by
  rw [holds_iff]
  intro i hi
  rw [program_inside m offset data i hi, h i hi]

theorem Blank.permits {m : Memory} {offset : Nat} {data : List UInt8}
    (h : Blank m offset data.length) : Permits m offset data := by
  intro i hi
  rw [h (offset + i) (by omega) (by omega), erasedByte_and]

theorem program_byte (m : Memory) (a : Nat) (b : UInt8) (x : Nat) :
    program m a [b] x = if x = a then m x &&& b else m x := by
  split
  next heq =>
    subst heq
    have hbyte := program_inside m x [b] 0 (by simp)
    rwa [Nat.add_zero] at hbyte
  next hne => exact program_outside _ _ _ _ (by simp only [List.length_singleton]; omega)

theorem program_singleton {m : Memory} {a : Nat} {b : UInt8} (h : m a &&& b = b) (x : Nat) :
    program m a [b] x = if x = a then b else m x := by
  rw [program_byte]
  split
  next heq => rw [heq, h]
  next => rfl

theorem Holds.program_byte {m : Memory} {offset : Nat} {bytes : List UInt8} {k : Nat} {b : UInt8}
    (h : Holds m offset bytes) (hk : k < bytes.length) (clears : bytes[k] &&& b = b) :
    Holds (program m (offset + k) [b]) offset (bytes.set k b) := by
  rw [holds_iff] at h ⊢
  intro i hi
  rw [List.length_set] at hi
  rw [List.getElem_set]
  split
  · subst i
    have := program_inside m (offset + k) [b] 0 (by simp)
    rw [Nat.add_zero] at this
    rw [this, h k hk]
    exact clears
  · rw [program_outside _ _ _ _ (by simp only [List.length_singleton]; omega), h i hi]

/-- What a program that stopped after `j` bytes leaves on erased flash. -/
theorem holds_program_take {m : Memory} {offset : Nat} {data : List UInt8}
    (h : Blank m offset data.length) (j : Nat) :
    Holds (program m offset (data.take j)) offset
      (data.take j ++ List.replicate (data.length - j) erasedByte) := by
  rw [holds_iff]
  intro i hi
  simp only [List.length_append, List.length_take, List.length_replicate] at hi
  by_cases hj : i < (data.take j).length
  · rw [program_inside _ _ _ _ hj, List.getElem_append_left hj,
      h _ (by omega) (by simp only [List.length_take] at hj; omega), erasedByte_and]
  · rw [program_outside _ _ _ _ (by omega), List.getElem_append_right (by omega),
      List.getElem_replicate]
    simp only [List.length_take] at hj
    exact h _ (by omega) (by omega)

end Flash
