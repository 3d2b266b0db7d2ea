import Mathlib.Algebra.Order.Ring.Nat
import Mathlib.Data.List.TakeWhile
import Mathlib.Tactic.Common

/-! Data packed end to end, the way packed C structures lay it out: little-endian and big-endian
integers and terminated strings, with what a reader gets back from the front of a buffer. -/
namespace Flash

def fromLittleEndian : List UInt8 → Nat
  | [] => 0
  | b :: rest => b.toNat + 256 * fromLittleEndian rest

/-- The low `width` bytes of `n`, least significant first. -/
def toLittleEndian : Nat → Nat → List UInt8
  | 0, _ => []
  | width + 1, n => UInt8.ofNat n :: toLittleEndian width (n / 256)

@[simp] theorem length_toLittleEndian (width n : Nat) : (toLittleEndian width n).length = width := by
  induction width generalizing n with
  | zero => rfl
  | succ width ih => simp [toLittleEndian, ih]

theorem fromLittleEndian_lt (bytes : List UInt8) : fromLittleEndian bytes < 256 ^ bytes.length := by
  induction bytes with
  | nil => simp [fromLittleEndian]
  | cons b rest ih =>
    have hb := b.toNat_lt
    simp only [fromLittleEndian, List.length_cons, Nat.pow_succ]
    omega

theorem fromLittleEndian_toLittleEndian (width n : Nat) (h : n < 256 ^ width) :
    fromLittleEndian (toLittleEndian width n) = n := by
  induction width generalizing n with
  | zero =>
    simp only [Nat.pow_zero] at h
    simp only [toLittleEndian, fromLittleEndian]
    omega
  | succ width ih =>
    have hq : n / 256 < 256 ^ width := by
      rw [Nat.pow_succ] at h
      omega
    simp only [toLittleEndian, fromLittleEndian, ih _ hq, UInt8.toNat_ofNat']
    omega

/-- The little-endian field of `width` bytes at `offset` of a structure. -/
def field (bytes : List UInt8) (offset width : Nat) : Nat :=
  fromLittleEndian ((bytes.drop offset).take width)

end Flash

namespace Parse
open Flash

/-- The low `width` bytes of `n`, most significant first. -/
def toBigEndian (width n : Nat) : List UInt8 := (toLittleEndian width n).reverse

def fromBigEndian (bytes : List UInt8) : Nat := fromLittleEndian bytes.reverse

@[simp] theorem length_toBigEndian (width n : Nat) : (toBigEndian width n).length = width := by
  rw [toBigEndian, List.length_reverse, length_toLittleEndian]

theorem fromBigEndian_toBigEndian {width n : Nat} (h : n < 256 ^ width) :
    fromBigEndian (toBigEndian width n) = n := by
  rw [fromBigEndian, toBigEndian, List.reverse_reverse, fromLittleEndian_toLittleEndian width n h]

/-- The characters of a string that ends at its first zero byte. -/
@[ext] structure CString where
  chars : List UInt8
  nonzero : ∀ c ∈ chars, c ≠ 0
deriving DecidableEq

namespace CString

def terminated (s : CString) : List UInt8 := s.chars ++ [0]

def size (s : CString) : Nat := s.chars.length + 1

@[simp] theorem length_terminated (s : CString) : s.terminated.length = s.size := by
  simp [terminated, size]

theorem terminated_ne_nil (s : CString) : s.terminated ≠ [] := by
  simp [terminated]

/-- The string at the front of a buffer. -/
def first (bytes : List UInt8) : CString where
  chars := bytes.takeWhile (· ≠ 0)
  nonzero := fun _ hc => by simpa using List.mem_takeWhile_imp hc

@[simp] theorem first_terminated (s : CString) (rest : List UInt8) :
    first (s.terminated ++ rest) = s := by
  ext1
  show (s.chars ++ [0] ++ rest).takeWhile (· ≠ 0) = s.chars
  rw [List.append_assoc, List.takeWhile_append_of_pos fun c hc => by simpa using s.nonzero c hc]
  simp

end CString

theorem drop_front {front : List α} (back : List α) {n : Nat} (h : front.length = n) :
    (front ++ back).drop n = back := by
  subst h
  exact List.drop_left

theorem take_front {front : List α} (back : List α) {n : Nat} (h : front.length = n) :
    (front ++ back).take n = front := by
  subst h
  exact List.take_left

end Parse
