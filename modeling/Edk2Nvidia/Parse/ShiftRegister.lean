import Mathlib.Algebra.Order.Ring.Nat
import Mathlib.Logic.Function.Iterate
import Mathlib.Tactic.Common

/-! A feedback shift register that divides the bits it is fed by a polynomial. It is linear in what
it holds and what it is fed, so two inputs leave it alike exactly when their difference leaves an
empty register empty. -/
namespace Parse.ShiftRegister

variable {w : Nat} (poly : BitVec w)

/-- One bit goes in at the low end; the bit that falls out at the high end is fed back. -/
def feed (s : BitVec w) (bit : Bool) : BitVec w :=
  (s <<< 1) ^^^ (if bit then 1#w else 0#w) ^^^ if s.msb then poly else 0#w

/-- `ys` is `xs` with an error burst of at most `length` bits. -/
def Burst (length : Nat) (xs ys : List Bool) : Prop :=
  xs.length = ys.length ∧ ∃ before window behind, window.length ≤ length ∧ true ∈ window ∧
    List.zipWith xor xs ys = List.replicate before false ++ window ++ List.replicate behind false

variable {poly}

theorem ite_xor (x y : Bool) (a : BitVec w) : (if x ^^ y then a else 0#w) =
    (if x then a else 0#w) ^^^ if y then a else 0#w := by
  cases x <;> cases y <;> simp

variable (poly) in
theorem feed_xor (a b : BitVec w) (x y : Bool) :
    feed poly (a ^^^ b) (x ^^ y) = feed poly a x ^^^ feed poly b y := by
  unfold feed
  rw [BitVec.msb_xor, BitVec.shiftLeft_xor_distrib, ite_xor, ite_xor]
  ac_rfl

variable (poly) in
theorem foldl_feed_xor {xs ys : List Bool} (h : xs.length = ys.length) (a b : BitVec w) :
    (List.zipWith xor xs ys).foldl (feed poly) (a ^^^ b) =
      xs.foldl (feed poly) a ^^^ ys.foldl (feed poly) b := by
  induction xs generalizing ys a b with
  | nil =>
    cases ys with
    | nil => rfl
    | cons y ys => cases h
  | cons x xs ih =>
    cases ys with
    | nil => cases h
    | cons y ys =>
      rw [List.zipWith_cons_cons, List.foldl_cons, List.foldl_cons, List.foldl_cons, feed_xor]
      exact ih (Nat.succ.inj h) _ _

@[simp] theorem feed_zero : feed poly 0#w false = 0#w := by
  simp [feed]

theorem foldl_feed_zero (n : Nat) : (List.replicate n false).foldl (feed poly) 0#w = 0#w := by
  induction n with
  | zero => rfl
  | succ n ih => rw [List.replicate_succ, List.foldl_cons, feed_zero, ih]

/-- What is fed back shows at the low end, and otherwise nothing is lost. -/
theorem feed_ne_zero (hlow : poly.getLsbD 0 = true) {s : BitVec w} (h : s ≠ 0#w) :
    feed poly s false ≠ 0#w := by
  intro hzero
  apply h
  have hbits : ∀ i, (feed poly s false).getLsbD i = false := fun i => by rw [hzero]; simp
  cases hmsb : s.msb with
  | true =>
    have hfirst := hbits 0
    simp [feed, hmsb, hlow] at hfirst
  | false =>
    refine BitVec.eq_of_getLsbD_eq fun i hi => ?_
    rw [BitVec.getLsbD_zero]
    by_cases hlast : i + 1 < w
    · have hnext := hbits (i + 1)
      rw [BitVec.getLsbD_eq_getElem hi]
      simpa [feed, hmsb, hlast] using hnext
    · have hi : i = w - 1 := by omega
      rw [hi, ← BitVec.msb_eq_getLsbD_last]
      exact hmsb

theorem foldl_feed_ne_zero (hlow : poly.getLsbD 0 = true) (n : Nat) {s : BitVec w} (h : s ≠ 0#w) :
    (List.replicate n false).foldl (feed poly) s ≠ 0#w := by
  induction n generalizing s with
  | zero => exact h
  | succ n ih =>
    rw [List.replicate_succ, List.foldl_cons]
    exact ih (feed_ne_zero hlow h)

/-- As long as nothing falls out, the register holds the bits themselves. -/
theorem load_ne_zero (hlow : poly.getLsbD 0 = true) {s : BitVec w} (held : Nat) {bits : List Bool}
    (hheld : ∀ i, held ≤ i → s.getLsbD i = false) (hlength : held + bits.length ≤ w)
    (h : s ≠ 0#w ∨ true ∈ bits) : bits.foldl (feed poly) s ≠ 0#w := by
  induction bits generalizing s held with
  | nil => exact h.resolve_right List.not_mem_nil
  | cons bit bits ih =>
    rw [List.length_cons] at hlength
    have hmsb : s.msb = false := by
      rw [BitVec.msb_eq_getLsbD_last]
      exact hheld _ (by omega)
    refine ih (held + 1) (fun i hi => ?_) (by omega) ?_
    · obtain ⟨j, rfl⟩ := Nat.exists_eq_succ_of_ne_zero (by omega : i ≠ 0)
      have hclear := hheld j (by omega)
      cases bit <;> simp [feed, hmsb, hclear]
    · cases bit with
      | true =>
        refine .inl fun hzero => ?_
        have hfirst : (feed poly s true).getLsbD 0 = false := by rw [hzero]; simp
        have hw : 0 < w := by omega
        simp [feed, hmsb, hw] at hfirst
      | false =>
        rcases h with h | h
        · exact .inl (feed_ne_zero hlow h)
        · exact .inr ((List.mem_cons.mp h).resolve_left Bool.noConfusion)

theorem Burst.append {length : Nat} {xs ys : List Bool} (h : Burst length xs ys) (zs : List Bool) :
    Burst length (xs ++ zs) (ys ++ zs) := by
  obtain ⟨hsame, before, window, behind, hwindow, htrue, hdifference⟩ := h
  have hzero : List.zipWith xor zs zs = List.replicate zs.length false := by
    simp [List.map_const']
  refine ⟨by simp [hsame], before, window, behind + zs.length, hwindow, htrue, ?_⟩
  rw [List.zipWith_append hsame, hdifference, hzero, List.append_assoc,
    List.replicate_append_replicate]

/-- No burst that fits into the register leaves it as it would have been. -/
theorem Burst.detected (hlow : poly.getLsbD 0 = true) {xs ys : List Bool} (h : Burst w xs ys)
    (seed : BitVec w) : xs.foldl (feed poly) seed ≠ ys.foldl (feed poly) seed := by
  obtain ⟨hsame, before, window, behind, hwindow, htrue, hdifference⟩ := h
  intro heq
  have hxor := foldl_feed_xor poly hsame seed seed
  rw [heq, BitVec.xor_self, BitVec.xor_self, hdifference, List.foldl_append, List.foldl_append,
    foldl_feed_zero] at hxor
  refine foldl_feed_ne_zero hlow behind ?_ hxor
  exact load_ne_zero hlow 0 (by simp) (by simpa using hwindow) (.inr htrue)

end Parse.ShiftRegister

/-! The checksum of the bytes of a buffer that `CalculateCrc32` computes. -/
namespace Parse

def crc32Bit (crc : BitVec 32) : BitVec 32 :=
  if crc.getLsbD 0 then crc >>> 1 ^^^ 0xEDB88320#32 else crc >>> 1

def crc32Byte (crc : BitVec 32) (byte : UInt8) : BitVec 32 :=
  crc32Bit^[8] (crc ^^^ byte.toBitVec.setWidth 32)

def crc32 (bytes : List UInt8) : BitVec 32 := ~~~ bytes.foldl crc32Byte 0xFFFFFFFF#32

/-- The check value of the code. -/
example : crc32 [0x31, 0x32, 0x33, 0x34, 0x35, 0x36, 0x37, 0x38, 0x39] = 0xCBF43926#32 := by
  decide +kernel

end Parse
