import Edk2Nvidia.Parse.Reader

/-! Programs that read a buffer of known length and stop where they would leave it. -/
namespace Parse
open Flash

structure Buffer where
  length : Nat
  content : Memory

/-- A value, or the span outside the buffer that was to be read for it. -/
abbrev Checked := Except Span

def Checked.Inside {α : Type} (program : Checked α) : Prop := ∃ value, program = .ok value

section
variable {α β : Type} {program : Checked α} {continuation : α → Checked β}

@[simp] theorem pure_eq (value : α) : (pure value : Checked α) = .ok value := rfl

@[simp] theorem inside_ok (value : α) : Checked.Inside (.ok value) := ⟨value, rfl⟩

@[simp] theorem not_inside_error (span : Span) : ¬ Checked.Inside (α := α) (.error span) := by
  rintro ⟨value, ⟨⟩⟩

theorem inside_bind : (program >>= continuation).Inside ↔
    ∃ value, program = .ok value ∧ (continuation value).Inside := by
  cases program with
  | error span => exact ⟨nofun, nofun⟩
  | ok value => exact ⟨fun h => ⟨value, rfl, h⟩, fun ⟨_, heq, h⟩ => by cases heq; exact h⟩

@[simp] theorem ok_bind (value : α) : (.ok value >>= continuation : Checked β) = continuation value :=
  rfl

@[simp] theorem error_bind (span : Span) :
    (.error span >>= continuation : Checked β) = .error span := rfl

end

namespace Buffer
variable (buffer : Buffer)

def field (offset size : Nat) : Nat := fromLittleEndian (slice buffer.content offset size)

def bytes (offset size : Nat) : Checked (List UInt8) :=
  if offset + size ≤ buffer.length then .ok (slice buffer.content offset size)
  else .error ⟨offset, size⟩

def uint (offset size : Nat) : Checked Nat :=
  if offset + size ≤ buffer.length then .ok (buffer.field offset size)
  else .error ⟨offset, size⟩

/-- The 16-bit characters up to a zero, as long as there is fuel. -/
def string16From (offset : Nat) : Nat → Checked (List UInt16)
  | 0 => .error ⟨offset, 2⟩
  | fuel + 1 => do
    let c ← buffer.uint offset 2
    if c = 0 then pure []
    else
      let rest ← string16From (offset + 2) fuel
      pure (c.toUInt16 :: rest)

def string16 (offset : Nat) : Checked (List UInt16) :=
  buffer.string16From offset (buffer.length + 1)

/-- The string at `offset` ends inside the buffer. -/
def Terminated (offset : Nat) : Prop :=
  ∃ k, offset + 2 * (k + 1) ≤ buffer.length ∧ buffer.field (offset + 2 * k) 2 = 0

variable {buffer} {offset size : Nat}

theorem uint_eq (h : offset + size ≤ buffer.length) :
    buffer.uint offset size = .ok (buffer.field offset size) := if_pos h

theorem bytes_eq (h : offset + size ≤ buffer.length) :
    buffer.bytes offset size = .ok (slice buffer.content offset size) := if_pos h

theorem bytes_outside (h : ¬ offset + size ≤ buffer.length) :
    buffer.bytes offset size = .error ⟨offset, size⟩ := if_neg h

theorem uint_outside (h : ¬ offset + size ≤ buffer.length) :
    buffer.uint offset size = .error ⟨offset, size⟩ := if_neg h

theorem string16From_ok_iff (fuel : Nat) :
    (∃ text, buffer.string16From offset fuel = .ok text) ↔
      ∃ k < fuel, offset + 2 * (k + 1) ≤ buffer.length ∧
        buffer.field (offset + 2 * k) 2 = 0 := by
  induction fuel generalizing offset with
  | zero => simp [string16From]
  | succ fuel ih =>
    unfold string16From
    by_cases hin : offset + 2 ≤ buffer.length
    · rw [uint_eq hin]
      show (∃ text, (if buffer.field offset 2 = 0 then pure [] else _) = Except.ok text) ↔ _
      by_cases hzero : buffer.field offset 2 = 0
      · rw [if_pos hzero]
        exact ⟨fun _ => ⟨0, Nat.succ_pos _, hin, hzero⟩, fun _ => ⟨[], rfl⟩⟩
      · rw [if_neg hzero]
        have hrest : (∃ text, (do
              let rest ← buffer.string16From (offset + 2) fuel
              pure ((buffer.field offset 2).toUInt16 :: rest) : Checked _) = .ok text) ↔
            ∃ text, buffer.string16From (offset + 2) fuel = .ok text := by
          cases buffer.string16From (offset + 2) fuel with
          | error span => exact ⟨nofun, nofun⟩
          | ok rest => exact ⟨fun _ => ⟨rest, rfl⟩, fun _ => ⟨_, rfl⟩⟩
        rw [hrest, ih]
        constructor
        · rintro ⟨k, hk, hend, hnul⟩
          refine ⟨k + 1, by omega, by omega, ?_⟩
          rwa [show offset + 2 * (k + 1) = offset + 2 + 2 * k by omega]
        · rintro ⟨k, hk, hend, hnul⟩
          cases k with
          | zero => exact absurd hnul hzero
          | succ k =>
            refine ⟨k, by omega, by omega, ?_⟩
            rwa [show offset + 2 + 2 * k = offset + 2 * (k + 1) by omega]
    · rw [uint_outside hin]
      constructor
      · rintro ⟨text, htext⟩
        cases htext
      · rintro ⟨k, -, hend, -⟩
        omega

theorem Terminated.inside (h : buffer.Terminated offset) : offset + 2 ≤ buffer.length := by
  obtain ⟨k, hend, -⟩ := h
  omega

end Buffer

end Parse
