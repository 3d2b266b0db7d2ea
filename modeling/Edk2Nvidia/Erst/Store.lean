import Edk2Nvidia.Erst.Handler
import Edk2Nvidia.Erst.Reclaiming
import Edk2Nvidia.Erst.Adding

/-! The driver as a store of records by their ids. A record is put in place of the one with its id
or dropped; what else the driver does, with its searches and reclaims, the store does not see. -/
namespace Erst
open Flash

/-! The store. -/

/-- The contents of the records, with their ids. -/
abbrev Store := Multiset (Nat × List UInt8)

namespace Store
variable {store rest : Store} {record : Nat × List UInt8} {id : Nat}

def drop (store : Store) (id : Nat) : Store := store.filter fun record => record.1 ≠ id

def put (store : Store) (id : Nat) (contents : List UInt8) : Store :=
  store.drop id + {(id, contents)}

def Distinct (store : Store) : Prop := (store.map Prod.fst).Nodup

theorem drop_eq (h : ∀ record ∈ store, record.1 ≠ id) : store.drop id = store :=
  Multiset.filter_eq_self.mpr h

theorem Distinct.of_le (h : store.Distinct) (hle : rest ≤ store) : rest.Distinct :=
  Multiset.nodup_of_le (Multiset.map_le_map hle) h

theorem Distinct.drop (h : store.Distinct) (id : Nat) : (store.drop id).Distinct :=
  h.of_le (Multiset.filter_le _ _)

theorem Distinct.put (h : store.Distinct) (id : Nat) (contents : List UInt8) :
    (store.put id contents).Distinct := by
  unfold Distinct Store.put
  rw [Multiset.map_add, Multiset.map_singleton, add_comm, Multiset.singleton_add,
    Multiset.nodup_cons]
  refine ⟨?_, h.drop id⟩
  intro hmem
  obtain ⟨record, hrecord, hid⟩ := Multiset.mem_map.mp hmem
  exact (Multiset.mem_filter.mp hrecord).2 hid

theorem Distinct.drop_add (h : (rest + {record}).Distinct) :
    Store.drop (rest + {record}) record.1 = rest := by
  unfold Distinct at h
  rw [Multiset.map_add, Multiset.map_singleton, add_comm, Multiset.singleton_add,
    Multiset.nodup_cons] at h
  unfold Store.drop
  rw [Multiset.filter_add, Multiset.filter_singleton, if_neg (by simp), Multiset.empty_eq_zero,
    add_zero]
  exact Multiset.filter_eq_self.mpr fun other hother heq =>
    h.1 (heq ▸ Multiset.mem_map_of_mem Prod.fst hother)

theorem Distinct.drop_of_add (h : store.Distinct) (heq : rest + {record} = store) :
    store.drop record.1 = rest := by
  subst heq
  exact h.drop_add

theorem Distinct.put_eq (h : store.Distinct) {moved : Store} {new : Nat × List UInt8}
    (hmem : record ∈ store) (hid : new.1 = record.1)
    (hmoved : moved + {record} = store + {new}) : moved = store.put new.1 new.2 := by
  obtain ⟨rest, hrest⟩ := Multiset.exists_cons_of_mem hmem
  have hsplit : rest + {record} = store := by
    rw [hrest, add_comm, Multiset.singleton_add]
  unfold Store.put
  rw [hid, h.drop_of_add hsplit]
  rw [← hsplit, add_right_comm] at hmoved
  rw [add_right_cancel hmoved, ← hid]

end Store

/-! The order of the records. -/

/-- A record keeps its place when it is written again, and a new one comes last. -/
def putId (ids : List Nat) (id : Nat) : List Nat := if id ∈ ids then ids else ids ++ [id]

/-- The ids in the order of the tables. -/
def Driver.ids (driver : Driver) : List Nat := driver.cperInfo.map CperInfo.recordId

theorem Driver.length_ids (driver : Driver) : driver.ids.length = driver.recordCount :=
  List.length_map _

theorem Driver.getElem_ids {driver : Driver} {k : Nat} (hk : k < driver.recordCount) :
    driver.ids.get ⟨k, driver.length_ids ▸ hk⟩ = (driver.info k).recordId :=
  (List.getElem_map CperInfo.recordId).trans
    (congrArg CperInfo.recordId (List.getD_eq_getElem _ _ hk).symm)

theorem Driver.Alike.ids {driver driver' : Driver} (h : driver.Alike driver') :
    driver'.ids = driver.ids := by
  have hrecords := congrArg (List.map Prod.fst) h.records
  rw [List.map_map, List.map_map] at hrecords
  exact hrecords

/-! The driver between two requests. -/

/-- The tables track what the flash holds, and the flash holds the store. -/
structure Idle (config : Config) (driver : Driver) (m : Memory) (store : Store) : Prop where
  sync : ∃ logs, InSync config driver m logs ∧ logs.contents config = store ∧ logs.Headed config
  distinct : store.Distinct
  room : store.card ≤ config.maxRecords
  unsynced : driver.unsyncedSpinorChanges = 0
  initStatus : EfiCode.isError driver.initStatus = false

section Idle
variable {config : Config} {driver driver' : Driver} {m m' : Memory} {logs : Logs} {store : Store}

theorem Log.map_recordId (log : Log) (offset : Nat) :
    ((log.infos offset).map CperInfo.recordId : Multiset Nat) = log.contents.map Prod.fst := by
  induction log generalizing offset with
  | nil => rfl
  | cons entry rest ih =>
    rw [Log.infos, List.map_append, ← Multiset.coe_add, ih]
    by_cases hlive : entry.live
    · rw [if_pos hlive, Log.contents_cons hlive, Multiset.map_add]
      rfl
    · rw [if_neg hlive, Log.contents_cons_dead (Bool.eq_false_iff.mpr hlive)]
      exact zero_add _

theorem InSync.ids (hsync : InSync config driver m logs) :
    (driver.ids : Multiset Nat) = (logs.contents config).map Prod.fst := by
  unfold Driver.ids
  rw [← Multiset.map_coe, hsync.tables.infos]
  unfold Logs.infos Logs.contents
  rw [← Multiset.coe_mapAddMonoidHom, ← Multiset.coe_mapAddMonoidHom, map_sum, map_sum]
  apply Finset.sum_congr rfl
  intro b hb
  exact Log.map_recordId (logs b) _

theorem InSync.recordCount (hsync : InSync config driver m logs) :
    driver.recordCount = (logs.contents config).card := by
  have hcard := congrArg Multiset.card hsync.ids
  rw [Multiset.coe_card, Driver.ids, List.length_map, Multiset.card_map] at hcard
  exact hcard

theorem erstFindRecord_some {id k : Nat}
    (h : driver.erstFindRecord id = some k) :
    k < driver.recordCount ∧ (driver.info k).recordId = id := by
  unfold Driver.erstFindRecord at h
  have hfound := List.find?_some h
  have hmem := List.mem_range.mp (List.mem_of_find?_eq_some h)
  rw [decide_eq_true_iff] at hfound
  exact ⟨hmem, hfound.1⟩

theorem erstFindRecord_none (hsync : InSync config driver m logs) {id : Nat}
    (h : driver.erstFindRecord id = none) : ∀ record ∈ logs.contents config, record.1 ≠ id := by
  rintro record hrecord rfl
  have hmem := Multiset.mem_map_of_mem Prod.fst hrecord
  rw [← hsync.ids, Multiset.mem_coe] at hmem
  obtain ⟨info, hinfo, hid⟩ := List.mem_map.mp hmem
  obtain ⟨k, hk, rfl⟩ := List.getElem_of_mem hinfo
  unfold Driver.erstFindRecord at h
  have hnone := List.find?_eq_none.mp h k (List.mem_range.mpr hk)
  have hk' : driver.info k = driver.cperInfo[k] := by
    unfold Driver.info
    rw [List.getD_eq_getElem _ _ hk]
  rw [hk', hsync.tables.incoming, hsync.tables.outgoing] at hnone
  simp [hid] at hnone

theorem InSync.erstFindRecord_eq_none (hsync : InSync config driver m logs) {id : Nat}
    (h : ∀ record ∈ logs.contents config, record.1 ≠ id) : driver.erstFindRecord id = none := by
  cases hfind : driver.erstFindRecord id with
  | none => rfl
  | some k =>
    obtain ⟨hk, hid⟩ := erstFindRecord_some hfind
    have hmem : (driver.info k).recordId ∈ (logs.contents config).map Prod.fst := by
      rw [← hsync.ids, Multiset.mem_coe]
      unfold Driver.info
      rw [List.getD_eq_getElem _ _ hk]
      exact List.mem_map_of_mem (List.getElem_mem hk)
    obtain ⟨record, hrecord, heq⟩ := Multiset.mem_map.mp hmem
    exact absurd (heq.trans hid) (h record hrecord)

theorem Driver.Alike.recordId (h : driver.Alike driver') (k : Nat) :
    (driver'.info k).recordId = (driver.info k).recordId := by
  have hrecords := congrArg (fun records => (records.getD k
    ((default : CperInfo).recordId, (default : CperInfo).recordLength)).1) h.records
  have hmap : ∀ l : List CperInfo, ((l.map fun record => (record.recordId, record.recordLength)).getD k
      ((default : CperInfo).recordId, (default : CperInfo).recordLength)).1 =
        (l.getD k default).recordId := by
    intro l
    rw [List.getD_map l default fun record : CperInfo => (record.recordId, record.recordLength)]
  rw [hmap, hmap] at hrecords
  exact hrecords

theorem Idle.take (h : Idle config driver m store) (pool : Nat) :
    Idle config (driver.take pool) m store := by
  obtain ⟨logs, hsync, hlogs⟩ := h.sync
  exact ⟨⟨logs, hsync.take pool, hlogs⟩, h.distinct, h.room, h.unsynced, h.initStatus⟩

theorem Idle.release (h : Idle config driver m store) (pool : Nat) (memory : List UInt8) :
    Idle config (driver.release pool memory) m store := by
  obtain ⟨logs, hsync, hlogs⟩ := h.sync
  exact ⟨⟨logs, hsync.release pool memory, hlogs⟩, h.distinct, h.room, h.unsynced, h.initStatus⟩

theorem Idle.recordCount (h : Idle config driver m store) : driver.recordCount = store.card := by
  obtain ⟨logs, hsync, rfl, _⟩ := h.sync
  exact hsync.recordCount

theorem Idle.preserved (h : Idle config driver m store) : Preserved config m store := by
  obtain ⟨logs, hsync, rfl, _⟩ := h.sync
  exact hsync.stored.preserved

end Idle

end Erst
