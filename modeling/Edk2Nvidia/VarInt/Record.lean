import Edk2Nvidia.NorFlash

/-! The records of the variable integrity journal: a header byte that only loses
bits on its way from pending to valid to invalid, then a signed measurement. -/
namespace VarInt
open Flash

def fvbErasedByte : UInt8 := 0xFF
def varIntPending : UInt8 := 0xFE
def varIntValid : UInt8 := 0xFC
def varIntInvalid : UInt8 := 0xF8
def varIntV1Pending : UInt8 := 0xEE
def varIntV1Valid : UInt8 := 0xEC
def varIntV1Invalid : UInt8 := 0xE8
def headerSzBytes : Nat := 1
def maxValidRecords : Nat := 2

inductive RecordVersion where
  | v0
  | v1
deriving DecidableEq, Repr

def isRecordPending (header : UInt8) : Bool :=
  header == varIntPending || header == varIntV1Pending

def isRecordValid (header : UInt8) : Bool :=
  header == varIntValid || header == varIntV1Valid

def isRecordLive (header : UInt8) : Bool :=
  isRecordPending header || isRecordValid header

def isRecordV0 (header : UInt8) : Bool :=
  header == varIntPending || header == varIntValid || header == varIntInvalid

def isRecordV1 (header : UInt8) : Bool :=
  header == varIntV1Pending || header == varIntV1Valid || header == varIntV1Invalid

def makeRecordHeader (version : RecordVersion) (v0State : UInt8) : UInt8 :=
  match version with
  | .v1 =>
    if v0State = varIntPending then varIntV1Pending
    else if v0State = varIntValid then varIntV1Valid
    else if v0State = varIntInvalid then varIntV1Invalid
    else v0State
  | .v0 => v0State

def setRecordStatePreserveVersion (header v0State : UInt8) : UInt8 :=
  if isRecordV1 header then makeRecordHeader .v1 v0State else makeRecordHeader .v0 v0State

structure Measurement where
  header : UInt8
  payload : List UInt8
deriving DecidableEq, Repr

namespace Measurement

def bytes (measurement : Measurement) : List UInt8 := measurement.header :: measurement.payload

def ofBytes (buffer : List UInt8) : Measurement :=
  ⟨buffer.headD 0, buffer.drop headerSzBytes⟩

/-- `ZeroMem` of a whole buffer. -/
def zeroMem (size : Nat) : Measurement := ofBytes (List.replicate size 0)

@[simp] theorem length_bytes (measurement : Measurement) :
    measurement.bytes.length = measurement.payload.length + 1 := rfl

@[simp] theorem ofBytes_bytes (measurement : Measurement) : ofBytes measurement.bytes = measurement :=
  rfl

@[simp] theorem zeroMem_header (size : Nat) : (zeroMem size).header = 0 := by
  cases size with
  | zero => rfl
  | succ n => rfl

end Measurement

structure MeasureRec where
  measurement : Measurement
  byteOffset : Nat
deriving DecidableEq, Repr

/-! A live header can be moved to every later state by a program alone. -/

theorem isRecordLive_cases {header : UInt8} (h : isRecordLive header = true) :
    header = varIntPending ∨ header = varIntV1Pending ∨
      header = varIntValid ∨ header = varIntV1Valid := by
  simp only [isRecordLive, isRecordPending, isRecordValid, Bool.or_eq_true, beq_iff_eq] at h
  tauto

theorem isRecordV0_not_v1 {header : UInt8} (h : isRecordV0 header = true) :
    isRecordV1 header = false := by
  simp only [isRecordV0, Bool.or_eq_true, beq_iff_eq] at h
  rcases h with (rfl | rfl) | rfl <;> decide

theorem isRecordLive_ne_erased {header : UInt8} (h : isRecordLive header = true) :
    header ≠ fvbErasedByte := by
  rcases isRecordLive_cases h with rfl | rfl | rfl | rfl <;> decide

theorem invalid_clears {header : UInt8} (h : isRecordLive header = true) :
    header &&& setRecordStatePreserveVersion header varIntInvalid =
      setRecordStatePreserveVersion header varIntInvalid := by
  rcases isRecordLive_cases h with rfl | rfl | rfl | rfl <;> decide

theorem valid_clears {header : UInt8} (h : isRecordLive header = true) :
    header &&& setRecordStatePreserveVersion header varIntValid =
      setRecordStatePreserveVersion header varIntValid := by
  rcases isRecordLive_cases h with rfl | rfl | rfl | rfl <;> decide

theorem invalid_not_live {header : UInt8} (h : isRecordLive header = true) :
    isRecordLive (setRecordStatePreserveVersion header varIntInvalid) = false := by
  rcases isRecordLive_cases h with rfl | rfl | rfl | rfl <;> decide

end VarInt
