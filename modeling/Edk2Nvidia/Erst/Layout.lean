import Mathlib.Algebra.BigOperators.Group.Finset.Basic
import Mathlib.Algebra.Order.BigOperators.Group.List
import Mathlib.Algebra.Order.Group.Nat
import Mathlib.Tactic.Abel
import Edk2Nvidia.Erst.Driver

/-! What the partition holds: in every block a log of records one behind the other, and erased
flash behind them. A record that is deleted stays where it is, with another status. -/
namespace Erst
open Flash

/-- A record on the flash, with the id it is tracked under. -/
structure Entry where
  id : Nat
  bytes : List UInt8
  live : Bool

namespace Entry
variable (entry : Entry)

def size : Nat := entry.bytes.length

/-- How the entry is tracked when it stands at `offset`. -/
def info (offset : Nat) : CperInfo := ⟨entry.id, entry.size, offset⟩

def deleted : Entry :=
  { entry with bytes := entry.bytes.set statusOffset statusDeleted, live := false }

@[simp] theorem size_deleted : entry.deleted.size = entry.size := by
  simp [size, deleted]

end Entry

abbrev Log := List Entry

namespace Log

def size (log : Log) : Nat := (log.map Entry.size).sum

def bytes (log : Log) : List UInt8 := log.flatMap Entry.bytes

def liveCount (log : Log) : Nat := log.countP Entry.live

def liveSize (log : Log) : Nat := ((log.filter Entry.live).map Entry.size).sum

/-- The table entries of a log at `offset`. -/
def infos : Nat → Log → List CperInfo
  | _, [] => []
  | offset, entry :: rest =>
    (if entry.live then [entry.info offset] else []) ++ infos (offset + entry.size) rest

section Lemmas
variable (front back : Log) (entry : Entry) (offset : Nat)

@[simp] theorem size_nil : size [] = 0 := rfl

@[simp] theorem size_cons : size (entry :: back) = entry.size + size back := by
  simp [size]

@[simp] theorem size_append : size (front ++ back) = size front + size back := by
  simp [size]

@[simp] theorem length_bytes (log : Log) : log.bytes.length = log.size := by
  induction log with
  | nil => rfl
  | cons entry rest ih =>
    rw [size_cons, ← ih]
    simp [bytes, Entry.size]

@[simp] theorem bytes_nil : bytes [] = [] := rfl

@[simp] theorem bytes_cons : bytes (entry :: back) = entry.bytes ++ bytes back := by
  simp [bytes]

@[simp] theorem bytes_append : bytes (front ++ back) = bytes front ++ bytes back := by
  simp [bytes]

@[simp] theorem infos_nil : infos offset [] = [] := rfl

theorem infos_append :
    infos offset (front ++ back) = infos offset front ++ infos (offset + front.size) back := by
  induction front generalizing offset with
  | nil => rfl
  | cons entry rest ih =>
    simp only [List.cons_append, infos, ih, size_cons, List.append_assoc, Nat.add_assoc]

@[simp] theorem length_infos (log : Log) : (log.infos offset).length = log.liveCount := by
  induction log generalizing offset with
  | nil => rfl
  | cons entry rest ih =>
    have hrest := ih (offset + entry.size)
    unfold liveCount at hrest ⊢
    rw [infos, List.length_append, hrest, List.countP_cons]
    split <;> simp [Nat.add_comm]

theorem mem_infos {log : Log} {record : CperInfo} :
    record ∈ log.infos offset ↔ ∃ (front : Log) (entry : Entry) (back : Log),
      log = front ++ entry :: back ∧ entry.live ∧ record = entry.info (offset + front.size) := by
  induction log generalizing offset with
  | nil => simp
  | cons first rest ih =>
    rw [infos, List.mem_append, ih]
    constructor
    · rintro (h | ⟨front, entry, back, rfl, hlive, rfl⟩)
      · split at h
        · next hlive =>
          rw [List.mem_singleton] at h
          exact ⟨[], first, rest, rfl, hlive, h⟩
        · simp at h
      · exact ⟨first :: front, entry, back, rfl, hlive, by rw [size_cons, Nat.add_assoc]⟩
    · rintro ⟨front, entry, back, heq, hlive, rfl⟩
      cases front with
      | nil =>
        cases heq
        exact .inl (by simp [hlive])
      | cons entry' front =>
        cases heq
        exact .inr ⟨front, entry, back, rfl, hlive, by rw [size_cons, Nat.add_assoc]⟩

theorem infos_concat (hlive : entry.live) :
    infos offset (front ++ [entry]) = infos offset front ++ [entry.info (offset + front.size)] := by
  simp [infos_append, infos, hlive]

theorem infos_deleted (hlive : entry.live) :
    (infos offset (front ++ entry.deleted :: back) : Multiset CperInfo) +
        {entry.info (offset + front.size)} = infos offset (front ++ entry :: back) := by
  have hdead : entry.deleted.live = false := rfl
  simp only [infos_append, infos, hlive, hdead, if_true, Entry.size_deleted, Bool.false_eq_true,
    if_false, List.nil_append, ← Multiset.coe_add, Multiset.coe_singleton]
  rw [add_assoc]
  congr 1
  rw [add_comm]

theorem size_deleted :
    size (front ++ entry.deleted :: back) = size (front ++ entry :: back) := by
  simp

theorem liveCount_deleted (hlive : entry.live) :
    liveCount (front ++ entry :: back) = liveCount (front ++ entry.deleted :: back) + 1 := by
  have hdead : entry.deleted.live = false := rfl
  simp only [liveCount, List.countP_append, List.countP_cons, hlive, hdead, if_true,
    Bool.false_eq_true, if_false]
  omega

theorem liveCount_concat (hlive : entry.live) :
    liveCount (front ++ [entry]) = liveCount front + 1 := by
  simp [liveCount, hlive]

end Lemmas

end Log

/-! The logs of all blocks. -/

abbrev Logs := Nat → Log

/-- `entry` behind the log of `block`. -/
def Logs.append (logs : Logs) (block : Nat) (entry : Entry) : Logs :=
  Function.update logs block (logs block ++ [entry])

section Placement
variable (config : Config)

def Config.place (block : Nat) : Nat := config.norErstOffset + block * config.blockSize

def Logs.infos (logs : Logs) : Multiset CperInfo :=
  ∑ block ∈ Finset.range config.numBlocks,
    ((logs block).infos (block * config.blockSize) : Multiset CperInfo)

theorem Logs.infos_update (logs : Logs) {block : Nat} (hblock : block < config.numBlocks)
    (log : Log) :
    Logs.infos config (Function.update logs block log) +
        (logs block).infos (block * config.blockSize) =
      logs.infos config + log.infos (block * config.blockSize) := by
  have hmem : block ∈ Finset.range config.numBlocks := Finset.mem_range.mpr hblock
  unfold Logs.infos
  rw [← Finset.add_sum_erase _ _ hmem, ← Finset.add_sum_erase _ (fun b =>
    ((logs b).infos (b * config.blockSize) : Multiset CperInfo)) hmem]
  have hrest : ∑ b ∈ (Finset.range config.numBlocks).erase block,
        ((Function.update logs block log b).infos (b * config.blockSize) : Multiset CperInfo) =
      ∑ b ∈ (Finset.range config.numBlocks).erase block,
        ((logs b).infos (b * config.blockSize) : Multiset CperInfo) := by
    apply Finset.sum_congr rfl
    intro b hb
    rw [Function.update_of_ne (Finset.ne_of_mem_erase hb)]
  rw [hrest, Function.update_self]
  abel

theorem Logs.infos_append (logs : Logs) {block : Nat} (hblock : block < config.numBlocks)
    {entry : Entry} (hlive : entry.live) :
    (logs.append block entry).infos config =
      logs.infos config + {entry.info (block * config.blockSize + (logs block).size)} := by
  have h := Logs.infos_update config logs hblock (logs block ++ [entry])
  rw [Log.infos_concat _ _ _ hlive, ← Multiset.coe_add, ← add_assoc, add_right_comm] at h
  exact add_right_cancel h

theorem Logs.infos_deleted (logs : Logs) {block : Nat} (hblock : block < config.numBlocks)
    {front back : Log} {entry : Entry} (hlog : logs block = front ++ entry :: back)
    (hlive : entry.live) :
    Logs.infos config (Function.update logs block (front ++ entry.deleted :: back)) +
        {entry.info (block * config.blockSize + front.size)} = logs.infos config := by
  have h := Logs.infos_update config logs hblock (front ++ entry.deleted :: back)
  rw [hlog, ← Log.infos_deleted _ _ _ _ hlive, add_comm _ ({_} : Multiset CperInfo),
    ← add_assoc] at h
  exact add_right_cancel h

theorem Logs.mem_infos {logs : Logs} {record : CperInfo} (h : record ∈ logs.infos config) :
    ∃ block < config.numBlocks, ∃ (front : Log) (entry : Entry) (back : Log), logs block = front ++ entry :: back ∧
      entry.live ∧ record = entry.info (block * config.blockSize + front.size) := by
  unfold Logs.infos at h
  rw [Multiset.mem_sum] at h
  obtain ⟨block, hblock, hmem⟩ := h
  exact ⟨block, Finset.mem_range.mp hblock, (Log.mem_infos _).mp hmem⟩

end Placement

/-- The flash holds the logs, with nothing behind them. -/
structure Stored (config : Config) (m : Memory) (logs : Logs) : Prop where
  fits : ∀ b < config.numBlocks, (logs b).size ≤ config.blockSize
  long : ∀ b < config.numBlocks, ∀ entry ∈ logs b, sizeofCperHeader ≤ entry.size
  valid : ∀ b < config.numBlocks, ∀ entry ∈ logs b, entry.live → cperStatus entry.bytes = statusValid
  written : ∀ b < config.numBlocks, Holds m (config.place b) (logs b).bytes
  blank : ∀ b < config.numBlocks,
    Blank m (config.place b + (logs b).size) (config.blockSize - (logs b).size)

section Stored
variable {config : Config} {m m' : Memory} {logs : Logs}

theorem Config.place_disjoint {b b' : Nat} (h : b ≠ b') (a : Nat)
    (ha : config.place b ≤ a ∧ a < config.place b + config.blockSize) :
    a < config.place b' ∨ config.place b' + config.blockSize ≤ a := by
  unfold Config.place at *
  rcases Nat.lt_or_gt_of_ne h with hlt | hlt
  · have hmul := Nat.mul_le_mul_right config.blockSize (Nat.succ_le_of_lt hlt)
    rw [Nat.succ_mul] at hmul
    omega
  · have hmul := Nat.mul_le_mul_right config.blockSize (Nat.succ_le_of_lt hlt)
    rw [Nat.succ_mul] at hmul
    omega

theorem Stored.update (h : Stored config m logs) {block : Nat} {log : Log}
    (same : ∀ a, a < config.place block ∨ config.place block + config.blockSize ≤ a → m' a = m a)
    (fits : log.size ≤ config.blockSize)
    (long : ∀ entry ∈ log, sizeofCperHeader ≤ entry.size)
    (valid : ∀ entry ∈ log, entry.live → cperStatus entry.bytes = statusValid)
    (written : Holds m' (config.place block) log.bytes)
    (blank : Blank m' (config.place block + log.size) (config.blockSize - log.size)) :
    Stored config m' (Function.update logs block log) := by
  have hother : ∀ b, b ≠ block → b < config.numBlocks → ∀ a, config.place b ≤ a →
      a < config.place b + config.blockSize → m' a = m a := by
    intro b hb hlt a ha ha'
    exact same a (Config.place_disjoint hb a ⟨ha, ha'⟩)
  constructor
  · intro b hb
    by_cases heq : b = block
    · rwa [heq, Function.update_self]
    · rw [Function.update_of_ne heq]
      exact h.fits b hb
  · intro b hb
    by_cases heq : b = block
    · rwa [heq, Function.update_self]
    · rw [Function.update_of_ne heq]
      exact h.long b hb
  · intro b hb
    by_cases heq : b = block
    · rwa [heq, Function.update_self]
    · rw [Function.update_of_ne heq]
      exact h.valid b hb
  · intro b hb
    by_cases heq : b = block
    · rwa [heq, Function.update_self]
    · rw [Function.update_of_ne heq]
      have hfits := h.fits b hb
      apply (h.written b hb).congr
      intro a ha ha'
      rw [Log.length_bytes] at ha'
      exact hother b heq hb a ha (by omega)
  · intro b hb
    by_cases heq : b = block
    · rwa [heq, Function.update_self]
    · rw [Function.update_of_ne heq]
      have hfits := h.fits b hb
      apply (h.blank b hb).congr
      intro a ha ha'
      exact hother b heq hb a (by omega) (by omega)

theorem Stored.append (h : Stored config m logs) {block : Nat} (hblock : block < config.numBlocks)
    {entry : Entry} (hroom : (logs block).size + entry.size ≤ config.blockSize)
    (hlong : sizeofCperHeader ≤ entry.size)
    (hvalid : entry.live → cperStatus entry.bytes = statusValid) :
    Stored config (overwrite m (config.place block + (logs block).size) entry.bytes)
      (logs.append block entry) := by
  apply h.update
  · intro a ha
    exact overwrite_outside _ _ _ _ (by unfold Entry.size at hroom; omega)
  · simpa using hroom
  · intro e he
    rcases List.mem_append.mp he with he | he
    · exact h.long block hblock e he
    · rwa [List.mem_singleton.mp he]
  · intro e he
    rcases List.mem_append.mp he with he | he
    · exact h.valid block hblock e he
    · rwa [List.mem_singleton.mp he]
  · rw [Log.bytes_append, holds_append, Log.length_bytes]
    constructor
    · apply (h.written block hblock).congr
      intro a ha ha'
      rw [Log.length_bytes] at ha'
      exact overwrite_outside _ _ _ _ (.inl ha')
    · simpa using holds_overwrite _ _ _
  · have hsize : Log.size (logs block ++ [entry]) = (logs block).size + entry.size := by simp
    rw [hsize]
    intro a ha ha'
    rw [overwrite_outside _ _ _ _ (.inr (by unfold Entry.size at ha; omega))]
    exact h.blank block hblock a (by omega) (by omega)

theorem Stored.delete (h : Stored config m logs) {block : Nat} (hblock : block < config.numBlocks)
    {front back : Log} {entry : Entry} (hlog : logs block = front ++ entry :: back) :
    Stored config
      (overwrite m (config.place block + front.size + statusOffset) [statusDeleted])
      (Function.update logs block (front ++ entry.deleted :: back)) := by
  have hmem : entry ∈ logs block := by simp [hlog]
  have hlong := h.long block hblock entry hmem
  have hfits := h.fits block hblock
  have hsize : (logs block).size = front.size + (entry.size + Log.size back) := by simp [hlog]
  have hstatus : statusOffset < sizeofCperHeader := by decide
  have hwritten := h.written block hblock
  rw [hlog, Log.bytes_append, Log.bytes_cons, holds_append, holds_append, Log.length_bytes]
    at hwritten
  apply h.update
  · intro a ha
    exact overwrite_outside _ _ _ _ (by simp only [List.length_singleton]; omega)
  · rw [Log.size_deleted, ← hlog]
    exact hfits
  · intro e he
    rcases List.mem_append.mp he with he | he
    · exact h.long block hblock e (by simp [hlog, he])
    · rcases List.mem_cons.mp he with rfl | he
      · rwa [Entry.size_deleted]
      · exact h.long block hblock e (by simp [hlog, he])
  · intro e he
    rcases List.mem_append.mp he with he | he
    · exact h.valid block hblock e (by simp [hlog, he])
    · rcases List.mem_cons.mp he with rfl | he
      · intro hlive
        cases hlive
      · exact h.valid block hblock e (by simp [hlog, he])
  · rw [Log.bytes_append, Log.bytes_cons, holds_append, holds_append, Log.length_bytes]
    refine ⟨?_, ?_, ?_⟩
    · apply hwritten.1.congr
      intro a ha ha'
      rw [Log.length_bytes] at ha'
      exact overwrite_outside _ _ _ _ (by omega)
    · have hbytes := (holds_iff _ _ _).mp hwritten.2.1
      rw [holds_iff]
      intro i hi
      have hi' : i < entry.bytes.length := by simpa [Entry.deleted] using hi
      by_cases heq : i = statusOffset
      · subst i
        rw [Nat.add_assoc, ← Nat.add_assoc]
        have hinside := overwrite_inside m (config.place block + front.size + statusOffset)
          [statusDeleted] 0 (by simp) 0
        rw [Nat.add_zero] at hinside
        rw [hinside]
        simp [Entry.deleted]
      · rw [overwrite_outside _ _ _ _ (by simp only [List.length_singleton]; omega), hbytes i hi']
        simp [Entry.deleted, List.getElem_set_ne (Ne.symm heq)]
    · have hdeleted : entry.deleted.bytes.length = entry.bytes.length := entry.size_deleted
      rw [hdeleted]
      apply hwritten.2.2.congr
      intro a ha ha'
      unfold Entry.size at hlong
      exact overwrite_outside _ _ _ _ (by simp only [List.length_singleton]; omega)
  · rw [Log.size_deleted, ← hlog]
    apply (h.blank block hblock).congr
    intro a ha ha'
    exact overwrite_outside _ _ _ _ (by simp only [List.length_singleton]; omega)

theorem Stored.erase (h : Stored config m logs) (block : Nat) :
    Stored config (Flash.erase m (config.place block) config.blockSize)
      (Function.update logs block []) := by
  apply h.update
  · intro a ha
    exact erase_outside _ _ _ _ ha
  · simp
  · simp
  · simp
  · simp
  · simpa using blank_erase m (config.place block) config.blockSize

theorem Stored.entry (h : Stored config m logs) {block : Nat} (hblock : block < config.numBlocks)
    {front back : Log} {entry : Entry} (hlog : logs block = front ++ entry :: back) :
    Holds m (config.place block + front.size) entry.bytes := by
  have hwritten := h.written block hblock
  rw [hlog, Log.bytes_append, Log.bytes_cons, holds_append, holds_append, Log.length_bytes]
    at hwritten
  exact hwritten.2.1

end Stored

end Erst
