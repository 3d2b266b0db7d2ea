import Mathlib.Algebra.Order.Ring.Nat
import Mathlib.Tactic.Common

/-! Fields of a word: what is read back after one of them has been set. -/
namespace Parse

/-- `width` bits of a word of `n`, from bit `shift` on. -/
structure BitField (n : Nat) where
  shift : Nat
  width : Nat
  fits : shift + width ≤ n

namespace BitField

variable {n : Nat}

def low (f : BitField n) : BitVec n := BitVec.ofNat n (2 ^ f.width - 1)

def mask (f : BitField n) : BitVec n := f.low <<< f.shift

def get (f : BitField n) (word : BitVec n) : BitVec n := (word &&& f.mask) >>> f.shift

def set (f : BitField n) (value word : BitVec n) : BitVec n :=
  (word &&& ~~~ f.mask) ||| ((value &&& f.low) <<< f.shift)

/-- One of two fields ends before the other one starts. -/
def Apart (f g : BitField n) : Prop :=
  f.shift + f.width ≤ g.shift ∨ g.shift + g.width ≤ f.shift

instance (f g : BitField n) : Decidable (Apart f g) := inferInstanceAs (Decidable (_ ∨ _))

@[simp] theorem getLsbD_low (f : BitField n) (i : Nat) :
    f.low.getLsbD i = (decide (i < n) && decide (i < f.width)) := by
  rw [low, BitVec.getLsbD_ofNat, Nat.testBit_two_pow_sub_one]

@[simp] theorem getLsbD_mask (f : BitField n) (i : Nat) :
    f.mask.getLsbD i = decide (f.shift ≤ i ∧ i < f.shift + f.width) := by
  have hfits := f.fits
  rw [mask, BitVec.getLsbD_shiftLeft, getLsbD_low, Bool.eq_iff_iff]
  simp only [Bool.and_eq_true, Bool.not_eq_true', decide_eq_true_eq, decide_eq_false_iff_not]
  omega

theorem getLsbD_get (f : BitField n) (word : BitVec n) (i : Nat) :
    (f.get word).getLsbD i = (decide (i < f.width) && word.getLsbD (f.shift + i)) := by
  rw [get, BitVec.getLsbD_ushiftRight, BitVec.getLsbD_and, getLsbD_mask, Bool.and_comm]
  simp

theorem getLsbD_set (f : BitField n) (value word : BitVec n) (i : Nat) :
    (f.set value word).getLsbD i =
      if f.shift ≤ i ∧ i < f.shift + f.width then value.getLsbD (i - f.shift)
      else word.getLsbD i := by
  have hfits := f.fits
  rw [set, BitVec.getLsbD_or, BitVec.getLsbD_and, BitVec.getLsbD_not, getLsbD_mask,
    BitVec.getLsbD_shiftLeft, BitVec.getLsbD_and, getLsbD_low]
  split
  · rename_i h
    have hn : i < n := by omega
    have hlow : i - f.shift < n ∧ i - f.shift < f.width := by omega
    simp [h, hn, hlow]
  · rename_i h
    by_cases hi : i < n
    · have hlow : ¬ (f.shift ≤ i ∧ i - f.shift < f.width) := by omega
      rw [not_and] at hlow
      simp only [h, hi, decide_true, decide_false, Bool.not_false, Bool.and_true, Bool.true_and]
      by_cases hshift : i < f.shift
      · simp [hshift]
      · simp [hlow (by omega)]
    · simp [hi, BitVec.getLsbD_of_ge word i (by omega)]

@[simp] theorem get_set (f : BitField n) (value word : BitVec n) :
    f.get (f.set value word) = value &&& f.low := by
  apply BitVec.eq_of_getLsbD_eq
  intro i hi
  rw [getLsbD_get, getLsbD_set, BitVec.getLsbD_and, getLsbD_low]
  by_cases h : i < f.width
  · simp [h, hi]
  · simp [h]

theorem get_set_of_apart {f g : BitField n} (h : Apart f g) (value word : BitVec n) :
    f.get (g.set value word) = f.get word := by
  apply BitVec.eq_of_getLsbD_eq
  intro i hi
  rw [getLsbD_get, getLsbD_get, getLsbD_set]
  by_cases hwidth : i < f.width
  · rw [if_neg]
    unfold Apart at h
    omega
  · simp [hwidth]

theorem toNat_and_low (f : BitField n) (value : BitVec n) :
    (value &&& f.low).toNat = value.toNat % 2 ^ f.width := by
  have hfits := f.fits
  have hlow : f.low.toNat = 2 ^ f.width - 1 := by
    rw [low, BitVec.toNat_ofNat, Nat.mod_eq_of_lt]
    have hpow : 2 ^ f.width ≤ 2 ^ n := Nat.pow_le_pow_right (by decide) (by omega)
    have hpos : 0 < 2 ^ f.width := Nat.two_pow_pos _
    omega
  rw [BitVec.toNat_and, hlow, Nat.and_two_pow_sub_one_eq_mod]

theorem toNat_get_lt (f : BitField n) (word : BitVec n) : (f.get word).toNat < 2 ^ f.width := by
  have hlow : f.get word = f.get word &&& f.low := by
    apply BitVec.eq_of_getLsbD_eq
    intro i hi
    rw [BitVec.getLsbD_and, getLsbD_low, getLsbD_get]
    by_cases h : i < f.width <;> simp [h, hi]
  rw [hlow, toNat_and_low]
  exact Nat.mod_lt _ (Nat.two_pow_pos _)

end BitField
end Parse
