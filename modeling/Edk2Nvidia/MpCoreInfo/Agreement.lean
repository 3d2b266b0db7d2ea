import Edk2Nvidia.MpCoreInfo.Topology
import Mathlib.Algebra.BigOperators.Group.List.Basic

/-! The three views of the core list and the walk over its sockets add up. -/
namespace MpCoreInfo

/-- The greatest of the values, which is one of them. -/
structure Peak (values : List UInt32) (peak : UInt32) : Prop where
  attained : peak ∈ values
  le : ∀ value ∈ values, value ≤ peak

/-- What a query that matches exactly these cores has to report. -/
structure Reports (processorIds : List UInt64) (info : Info) : Prop where
  cores : info.numEnabledCores.toNat = processorIds.length
  socket : Peak (processorIds.map fun id => (getProcessorLocation id).socket) info.maxSocket
  cluster : Peak (processorIds.map fun id => (getProcessorLocation id).cluster) info.maxCluster
  core : Peak (processorIds.map fun id => (getProcessorLocation id).core) info.maxCore
  thread : Peak (processorIds.map fun id => (getProcessorLocation id).thread) info.maxThread
  first : processorIds.head? = some info.firstCoreId

theorem peak_single (value : UInt32) : Peak [value] (raise value 0) := by
  have hraise : raise value 0 = value := by
    unfold raise
    split
    · rfl
    · next h =>
      have hle : value.toNat ≤ 0 := UInt32.le_iff_toNat_le.mp (UInt32.not_lt.mp h)
      exact UInt32.toNat_inj.mp (Nat.le_zero.mp hle).symm
  rw [hraise]
  exact ⟨List.mem_singleton_self value, fun v hv => by rw [List.mem_singleton.mp hv]; exact UInt32.le_refl _⟩

theorem Peak.raise {values : List UInt32} {peak : UInt32} (h : Peak values peak) (value : UInt32) :
    Peak (values ++ [value]) (raise value peak) := by
  unfold MpCoreInfo.raise
  split
  · next hlt =>
    refine ⟨by simp, fun v hv => ?_⟩
    rcases List.mem_append.mp hv with hv | hv
    · exact UInt32.le_trans (h.le v hv) (UInt32.le_of_lt hlt)
    · rw [List.mem_singleton.mp hv]
      exact UInt32.le_refl _
  · next hle =>
    refine ⟨List.mem_append_left _ h.attained, fun v hv => ?_⟩
    rcases List.mem_append.mp hv with hv | hv
    · exact h.le v hv
    · rw [List.mem_singleton.mp hv]
      exact UInt32.not_lt.mp hle

theorem reports_single (processorId : UInt64) :
    Reports [processorId] (Info.zero.count processorId) where
  cores := rfl
  socket := peak_single _
  cluster := peak_single _
  core := peak_single _
  thread := peak_single _
  first := rfl

theorem Reports.count {processorIds : List UInt64} {info : Info} (h : Reports processorIds info)
    (hlength : processorIds.length + 1 < 2 ^ 32) (processorId : UInt64) :
    Reports (processorIds ++ [processorId]) (info.count processorId) where
  cores := by
    have hcores := h.cores
    show (info.numEnabledCores + 1).toNat = _
    rw [UInt32.toNat_add, List.length_append, hcores]
    exact Nat.mod_eq_of_lt hlength
  socket := by rw [List.map_append]; exact h.socket.raise _
  cluster := by rw [List.map_append]; exact h.cluster.raise _
  core := by rw [List.map_append]; exact h.core.raise _
  thread := by rw [List.map_append]; exact h.thread.raise _
  first := by
    have hfirst := h.first
    cases processorIds with
    | nil => cases hfirst
    | cons id rest =>
      have hne : info.numEnabledCores ≠ 0 := fun hzero => by
        have hcores := h.cores
        rw [hzero] at hcores
        simp at hcores
      show some id = some (if info.numEnabledCores = 0 then processorId else info.firstCoreId)
      rw [if_neg hne]
      exact hfirst

theorem Reports.foldl_count {processorIds : List UInt64} {info : Info}
    (h : Reports processorIds info) (rest : List UInt64)
    (hlength : processorIds.length + rest.length < 2 ^ 32) :
    Reports (processorIds ++ rest) (rest.foldl Info.count info) := by
  induction rest generalizing processorIds info with
  | nil => simpa using h
  | cons id rest ih =>
    rw [List.length_cons] at hlength
    have hcount := h.count (by omega) id
    have hrest := ih hcount (by rw [List.length_append, List.length_singleton]; omega)
    rw [List.append_assoc] at hrest
    exact hrest

namespace CoreHob

variable {hob : CoreHob}

theorem toNat_succ {index : UInt32} (h : index < hob.coresPresent) :
    (index + 1).toNat = index.toNat + 1 := by
  have hlt := toNat_lt h
  have hlength := hob.length_lt
  rw [UInt32.toNat_add]
  exact Nat.mod_eq_of_lt (Nat.lt_of_lt_of_le (Nat.lt_succ_of_le hlt)
    (Nat.le_trans hlength (by decide)))

variable (hob) in
theorem getInfoLoop_eq (query : Query) (index : UInt32) (info : Info) :
    hob.getInfoLoop query index info =
      ((hob.mpidrs.drop index.toNat).filter query.accepts).foldl Info.count info := by
  induction index, info using CoreHob.getInfoLoop.induct hob query with
  | case1 index info _ h =>
    have hend : hob.mpidrs.length ≤ index.toNat := by
      unfold getProcessorIdFromIndex at h
      split at h
      · cases h
      · next hge =>
        rw [← coresPresent_toNat]
        exact UInt32.le_iff_toNat_le.mp (UInt32.not_lt.mp hge)
    unfold getInfoLoop
    rw [List.drop_eq_nil_of_le hend]
    split
    · rfl
    · next h' => rw [h] at h'; cases h'
  | case2 index info processorId h ih =>
    have hlt := toNat_lt (lt_of_ok h)
    have hget : hob.mpidrs[index.toNat] = processorId := by
      have hget := h
      rw [getProcessorIdFromIndex, dif_pos (lt_of_ok h)] at hget
      exact Except.ok.inj hget
    simp only [dite_eq_ite] at ih
    unfold getInfoLoop
    split
    · next h' => rw [h] at h'; cases h'
    · next id h' =>
      rw [h] at h'
      cases h'
      rw [ih, toNat_succ (lt_of_ok h), List.drop_eq_getElem_cons hlt, hget]
      by_cases hmatch : query.accepts processorId = true
      · rw [if_pos hmatch, List.filter_cons_of_pos hmatch]
        rfl
      · rw [if_neg hmatch, List.filter_cons_of_neg hmatch]

def matching (hob : CoreHob) (query : Query) : List UInt64 := hob.mpidrs.filter query.accepts

variable (hob) in
theorem matching_length (query : Query) : (hob.matching query).length < 2 ^ 16 :=
  Nat.lt_of_le_of_lt (List.length_filter_le _ _) hob.length_lt

theorem getInfoCommon_nil {query : Query} (hvalid : (query.isClusterSpecified &&
    !query.isSocketSpecified) = false) (h : hob.matching query = []) :
    hob.getInfoCommon query = .error .notFound := by
  have hloop := getInfoLoop_eq hob query 0 .zero
  unfold matching at h
  rw [UInt32.toNat_zero, List.drop_zero, h] at hloop
  unfold getInfoCommon
  rw [hvalid, hloop]
  rfl

/-- One scan says what it has to say of the cores it matches. -/
theorem getInfoCommon_cons {query : Query} (hvalid : (query.isClusterSpecified &&
    !query.isSocketSpecified) = false) (h : hob.matching query ≠ []) :
    ∃ info, hob.getInfoCommon query = .ok info ∧ Reports (hob.matching query) info := by
  have hloop := getInfoLoop_eq hob query 0 .zero
  have hlength := matching_length hob query
  rw [UInt32.toNat_zero, List.drop_zero] at hloop
  change hob.getInfoLoop query 0 .zero = (hob.matching query).foldl Info.count .zero at hloop
  obtain ⟨id, rest, hcons⟩ := List.exists_cons_of_ne_nil h
  have hreports : Reports (hob.matching query) (hob.getInfoLoop query 0 .zero) := by
    rw [hcons, List.length_cons] at hlength
    rw [hloop, hcons]
    refine (reports_single id).foldl_count rest ?_
    rw [List.length_singleton]
    exact Nat.lt_trans (by omega) (show 2 ^ 16 < 2 ^ 32 by decide)
  have hne : (hob.getInfoLoop query 0 .zero).numEnabledCores ≠ 0 := fun hzero => by
    have hcores := hreports.cores
    rw [hzero, hcons] at hcores
    simp at hcores
  refine ⟨_, ?_, hreports⟩
  unfold getInfoCommon
  rw [hvalid]
  exact if_neg hne

def Enabled (hob : CoreHob) (socketId : UInt32) : Prop :=
  ∃ id ∈ hob.mpidrs, (getProcessorLocation id).socket = socketId

theorem matching_platform : hob.matching ⟨false, 0, false, 0⟩ = hob.mpidrs :=
  List.filter_eq_self.mpr fun _ _ => rfl

theorem matching_socket (socketId : UInt32) : hob.matching ⟨true, socketId, false, 0⟩ =
    hob.mpidrs.filter fun id => (getProcessorLocation id).socket == socketId := by
  refine List.filter_congr fun id _ => ?_
  simp [Query.accepts, bne]

theorem matching_cluster (socketId clusterId : UInt32) :
    hob.matching ⟨true, socketId, true, clusterId⟩ =
      (hob.mpidrs.filter fun id => (getProcessorLocation id).socket == socketId).filter
        fun id => (getProcessorLocation id).cluster == clusterId := by
  rw [List.filter_filter]
  refine List.filter_congr fun id _ => ?_
  simp [Query.accepts, bne, Bool.and_comm]

theorem enabled_iff (socketId : UInt32) :
    hob.Enabled socketId ↔ hob.matching ⟨true, socketId, false, 0⟩ ≠ [] := by
  rw [matching_socket, ne_eq, List.filter_eq_nil_iff]
  simp [Enabled]

theorem getSocketInfo_ok {socketId : UInt32} (h : hob.Enabled socketId) :
    ∃ info, hob.getSocketInfo socketId = .ok info :=
  let ⟨info, hinfo, _⟩ := getInfoCommon_cons rfl ((enabled_iff socketId).mp h)
  ⟨info, hinfo⟩

theorem getSocketInfo_error {socketId : UInt32} (h : ¬ hob.Enabled socketId) :
    hob.getSocketInfo socketId = .error .notFound :=
  getInfoCommon_nil rfl (Classical.not_not.mp (mt (enabled_iff socketId).mpr h))

theorem toNat_add_one {socketId : UInt32} {bound : Nat} (h : socketId.toNat + 1 < bound)
    (hbound : bound ≤ 2 ^ 32) : (socketId + 1).toNat = socketId.toNat + 1 := by
  rw [UInt32.toNat_add]
  exact Nat.mod_eq_of_lt (Nat.lt_of_lt_of_le h hbound)

theorem searchSockets_some {left : Nat} {start found : UInt32}
    (hbound : start.toNat + left ≤ 2 ^ 32) (h : hob.searchSockets left start = some found) :
    start ≤ found ∧ hob.Enabled found ∧
      ∀ socketId, start ≤ socketId → socketId < found → ¬ hob.Enabled socketId := by
  induction left generalizing start with
  | zero => cases h
  | succ left ih =>
    unfold searchSockets at h
    by_cases henabled : hob.Enabled start
    · obtain ⟨info, hinfo⟩ := getSocketInfo_ok henabled
      rw [hinfo] at h
      cases h
      exact ⟨UInt32.le_refl _, henabled, fun socketId hle hlt _ =>
        absurd (UInt32.lt_iff_toNat_lt.mp hlt) (Nat.not_lt.mpr (UInt32.le_iff_toNat_le.mp hle))⟩
    · rw [getSocketInfo_error henabled] at h
      dsimp only at h
      cases left with
      | zero => cases h
      | succ left =>
        have hsucc := toNat_add_one (by omega : start.toNat + 1 < start.toNat + (left + 1 + 1)) hbound
        obtain ⟨hle, hfound, hbetween⟩ := ih (by omega) h
        rw [UInt32.le_iff_toNat_le, hsucc] at hle
        refine ⟨UInt32.le_iff_toNat_le.mpr (by omega), hfound, fun socketId hstart hlt => ?_⟩
        rcases Nat.eq_or_lt_of_le (UInt32.le_iff_toNat_le.mp hstart) with heq | hlater
        · rw [← UInt32.toNat_inj.mp heq]
          exact henabled
        · exact hbetween socketId (UInt32.le_iff_toNat_le.mpr (by omega)) hlt

theorem searchSockets_none {left : Nat} {start : UInt32}
    (hbound : start.toNat + left ≤ 2 ^ 32) (h : hob.searchSockets left start = none) :
    ∀ socketId : UInt32, start ≤ socketId → socketId.toNat < start.toNat + left →
      ¬ hob.Enabled socketId := by
  induction left generalizing start with
  | zero =>
    intro socketId hstart hlt
    have hle := UInt32.le_iff_toNat_le.mp hstart
    omega
  | succ left ih =>
    unfold searchSockets at h
    by_cases henabled : hob.Enabled start
    · obtain ⟨info, hinfo⟩ := getSocketInfo_ok henabled
      rw [hinfo] at h
      cases h
    · rw [getSocketInfo_error henabled] at h
      dsimp only at h
      intro socketId hstart hlt
      rcases Nat.eq_or_lt_of_le (UInt32.le_iff_toNat_le.mp hstart) with heq | hlater
      · rw [← UInt32.toNat_inj.mp heq]
        exact henabled
      · have hsucc := toNat_add_one (by omega : start.toNat + 1 < start.toNat + (left + 1)) hbound
        exact ih (by omega) h socketId (UInt32.le_iff_toNat_le.mpr (by omega)) (by omega)

theorem getPlatformInfo_ok (hne : hob.mpidrs ≠ []) :
    ∃ info, hob.getPlatformInfo = .ok info ∧ Reports hob.mpidrs info := by
  have hmatching : hob.matching ⟨false, 0, false, 0⟩ ≠ [] := by
    rw [matching_platform]
    exact hne
  have h := getInfoCommon_cons rfl hmatching
  rw [matching_platform] at h
  exact h

theorem Enabled.le_maxSocket {socketId : UInt32} (h : hob.Enabled socketId) {info : Info}
    (hinfo : Reports hob.mpidrs info) : socketId.toNat ≤ info.maxSocket.toNat := by
  obtain ⟨id, hid, rfl⟩ := h
  exact UInt32.le_iff_toNat_le.mp (hinfo.socket.le _ (List.mem_map_of_mem hid))

theorem socket_lt (processorId : UInt64) : (getProcessorLocation processorId).socket.toNat < 2 ^ 8 := by
  show (getMpidrAff3 processorId).toUInt32.toNat < 2 ^ 8
  have hmask : processorId.toNat &&& ((0xFF : UInt64) <<< 32).toNat ≤ 0xFF * 2 ^ 32 :=
    Nat.and_le_right
  have haff : (getMpidrAff3 processorId).toNat < 2 ^ 8 := by
    rw [getMpidrAff3, UInt64.toNat_shiftRight, UInt64.toNat_and]
    simp only [UInt64.reduceToNat, Nat.reduceMod, Nat.shiftRight_eq_div_pow]
    omega
  rw [UInt64.toNat_toUInt32]
  exact Nat.lt_of_le_of_lt (Nat.mod_le _ _) haff

theorem Enabled.lt {socketId : UInt32} (h : hob.Enabled socketId) : socketId.toNat < 2 ^ 8 := by
  obtain ⟨id, _, rfl⟩ := h
  exact socket_lt id

theorem getFirstEnabledSocket_least (hne : hob.mpidrs ≠ []) :
    hob.Enabled hob.getFirstEnabledSocket ∧
      ∀ socketId, hob.Enabled socketId → hob.getFirstEnabledSocket ≤ socketId := by
  obtain ⟨info, hinfo, hreports⟩ := getPlatformInfo_ok hne
  have hmax : info.maxSocket.toNat + 1 ≤ 2 ^ 32 := info.maxSocket.toNat_lt
  unfold getFirstEnabledSocket
  rw [hinfo]
  dsimp only
  cases hsearch : hob.searchSockets (info.maxSocket.toNat + 1) 0 with
  | none =>
    obtain ⟨id, hid⟩ := List.exists_mem_of_ne_nil _ hne
    have henabled : hob.Enabled (getProcessorLocation id).socket := ⟨id, hid, rfl⟩
    have hle := henabled.le_maxSocket hreports
    exact absurd henabled (searchSockets_none (by simpa using hmax) hsearch _ (by simp)
      (by rw [UInt32.toNat_zero]; omega))
  | some found =>
    obtain ⟨-, henabled, hleast⟩ := searchSockets_some (by simpa using hmax) hsearch
    refine ⟨henabled, fun socketId hsocket => ?_⟩
    by_contra hlt
    exact hleast socketId (by simp) (UInt32.not_le.mp hlt) hsocket

theorem getNextEnabledSocket_cases (hne : hob.mpidrs ≠ []) {socketId : UInt32}
    (hsocket : hob.Enabled socketId) :
    (∃ next, hob.getNextEnabledSocket socketId = .ok next ∧ socketId < next ∧ hob.Enabled next ∧
      ∀ other, socketId < other → other < next → ¬ hob.Enabled other) ∨
    (hob.getNextEnabledSocket socketId = .error .notFound ∧
      ∀ other, socketId < other → ¬ hob.Enabled other) := by
  obtain ⟨info, hinfo, hreports⟩ := getPlatformInfo_ok hne
  have hmax : info.maxSocket.toNat + 1 ≤ 2 ^ 32 := info.maxSocket.toNat_lt
  have hlt := hsocket.lt
  have hsucc := toNat_add_one (Nat.succ_lt_succ hlt) (show 2 ^ 8 + 1 ≤ 2 ^ 32 by decide)
  have hbound : (socketId + 1).toNat + (info.maxSocket.toNat + 1 - (socketId + 1).toNat) ≤ 2 ^ 32 := by
    omega
  have hstart : ∀ other, socketId < other → socketId + 1 ≤ other := fun other hother => by
    rw [UInt32.le_iff_toNat_le, hsucc]
    exact UInt32.lt_iff_toNat_lt.mp hother
  unfold getNextEnabledSocket
  rw [hinfo]
  dsimp only
  cases hsearch : hob.searchSockets (info.maxSocket.toNat + 1 - (socketId + 1).toNat)
      (socketId + 1) with
  | none =>
    refine .inr ⟨rfl, fun other hother hother' => ?_⟩
    have hle := hother'.le_maxSocket hreports
    exact searchSockets_none hbound hsearch other (hstart other hother) (by omega) hother'
  | some next =>
    obtain ⟨hle, henabled, hbetween⟩ := searchSockets_some hbound hsearch
    rw [UInt32.le_iff_toNat_le, hsucc] at hle
    exact .inl ⟨next, rfl, UInt32.lt_iff_toNat_lt.mpr hle, henabled,
      fun other hother hnext => hbetween other (hstart other hother) hnext⟩

/-- Starting with the first socket, each answer is passed to the next call. -/
structure Walks (hob : CoreHob) (sockets : List UInt32) : Prop where
  first : sockets.head? = some hob.getFirstEnabledSocket
  next : sockets.IsChain fun socketId next => hob.getNextEnabledSocket socketId = .ok next
  last : ∀ socketId ∈ sockets.getLast?, hob.getNextEnabledSocket socketId = .error .notFound

theorem walks_from (hne : hob.mpidrs ≠ []) (fuel : Nat) {socketId : UInt32}
    (hsocket : hob.Enabled socketId) (hfuel : 2 ^ 8 - socketId.toNat ≤ fuel) :
    ∃ rest, (socketId :: rest).IsChain (fun socketId next =>
        hob.getNextEnabledSocket socketId = .ok next) ∧
      (∀ last ∈ (socketId :: rest).getLast?, hob.getNextEnabledSocket last = .error .notFound) ∧
      (socketId :: rest).Pairwise (· < ·) ∧
      ∀ other, other ∈ socketId :: rest ↔ hob.Enabled other ∧ socketId ≤ other := by
  induction fuel generalizing socketId with
  | zero =>
    have hlt := hsocket.lt
    omega
  | succ fuel ih =>
    have hlt := hsocket.lt
    rcases getNextEnabledSocket_cases hne hsocket with
      ⟨next, hnext, hgreater, henabled, hbetween⟩ | ⟨hend, hlast⟩
    · have hless := UInt32.lt_iff_toNat_lt.mp hgreater
      obtain ⟨rest, hchain, hfinish, hpairwise, hmem⟩ := ih henabled (by omega)
      refine ⟨next :: rest, hchain.cons_cons hnext, ?_, ?_, fun other => ?_⟩
      · rw [List.getLast?_cons_cons]
        exact hfinish
      · refine List.pairwise_cons.mpr ⟨fun other hother => ?_, hpairwise⟩
        exact UInt32.lt_of_lt_of_le hgreater ((hmem other).mp hother).2
      · rw [List.mem_cons, hmem]
        refine ⟨?_, fun ⟨hother, hle⟩ => ?_⟩
        · rintro (rfl | ⟨hother, hle⟩)
          · exact ⟨hsocket, UInt32.le_refl _⟩
          · exact ⟨hother, UInt32.le_trans (UInt32.le_of_lt hgreater) hle⟩
        · rcases UInt32.lt_or_eq_of_le hle with hlater | heq
          · refine .inr ⟨hother, ?_⟩
            by_contra hnot
            exact hbetween other hlater (UInt32.not_le.mp hnot) hother
          · exact .inl heq.symm
    · refine ⟨[], List.IsChain.singleton _, ?_, List.pairwise_singleton _ _, fun other => ?_⟩
      · rintro last ⟨⟩
        exact hend
      · rw [List.mem_singleton]
        refine ⟨?_, fun ⟨hother, hle⟩ => ?_⟩
        · rintro rfl
          exact ⟨hsocket, UInt32.le_refl _⟩
        · rcases UInt32.lt_or_eq_of_le hle with hlater | heq
          · exact absurd hother (hlast other hlater)
          · exact heq.symm

end CoreHob

theorem sum_indicator (values : List UInt32) (target : UInt32) :
    (values.map fun value => if target = value then 1 else 0).sum = values.count target := by
  induction values with
  | nil => rfl
  | cons value values ih =>
    rw [List.map_cons, List.sum_cons, ih, List.count_cons, Nat.add_comm]
    by_cases h : target = value
    · simp [h]
    · simp [h, Ne.symm h]

/-- The counts over the classes of a function add up to the whole. -/
theorem sum_filter_length {values : List UInt32} (hnodup : values.Nodup) (classOf : UInt64 → UInt32)
    (ids : List UInt64) (hmem : ∀ id ∈ ids, classOf id ∈ values) :
    (values.map fun value => (ids.filter fun id => classOf id == value).length).sum = ids.length := by
  induction ids with
  | nil => simp
  | cons id rest ih =>
    have hcount : (values.map fun value => if classOf id = value then 1 else 0).sum = 1 :=
      (sum_indicator _ _).trans (List.count_eq_one_of_mem hnodup (hmem id List.mem_cons_self))
    have hsplit : ∀ value, ((id :: rest).filter fun id => classOf id == value).length =
        (if classOf id = value then 1 else 0) +
          (rest.filter fun id => classOf id == value).length := fun value => by
      by_cases h : classOf id = value <;> simp [h, Nat.add_comm]
    have hrest := ih fun other hother => hmem other (List.mem_cons_of_mem _ hother)
    simp only [hsplit]
    rw [List.sum_map_add, hcount, hrest, List.length_cons, Nat.add_comm]

/-- `EFI_NOT_FOUND` counts as no core. -/
def enabledCores : Except EfiStatus Info → Nat
  | .ok info => info.numEnabledCores.toNat
  | .error _ => 0

namespace CoreHob

variable {hob : CoreHob}

theorem enabledCores_getInfoCommon {query : Query} (hvalid : (query.isClusterSpecified &&
    !query.isSocketSpecified) = false) :
    enabledCores (hob.getInfoCommon query) = (hob.matching query).length := by
  by_cases h : hob.matching query = []
  · rw [getInfoCommon_nil hvalid h, h]
    rfl
  · obtain ⟨info, hinfo, hreports⟩ := getInfoCommon_cons hvalid h
    rw [hinfo]
    exact hreports.cores

theorem getInfoCommon_reports {query : Query} (hvalid : (query.isClusterSpecified &&
    !query.isSocketSpecified) = false) {info : Info} (h : hob.getInfoCommon query = .ok info) :
    Reports (hob.matching query) info := by
  by_cases hnil : hob.matching query = []
  · rw [getInfoCommon_nil hvalid hnil] at h
    cases h
  · obtain ⟨info', hinfo, hreports⟩ := getInfoCommon_cons hvalid hnil
    rw [h] at hinfo
    cases hinfo
    exact hreports

theorem sum_clusters {socketId : UInt32} {info : Info}
    (hreports : Reports (hob.mpidrs.filter fun id =>
      (getProcessorLocation id).socket == socketId) info) :
    ((List.range (info.maxCluster.toNat + 1)).map fun clusterId =>
      enabledCores (hob.getSocketClusterInfo socketId (.ofNat clusterId))).sum =
      info.numEnabledCores.toNat := by
  have hmax := info.maxCluster.toNat_lt
  have hofNat : ∀ clusterId ∈ List.range (info.maxCluster.toNat + 1),
      (UInt32.ofNat clusterId).toNat = clusterId := fun clusterId h => by
    rw [List.mem_range] at h
    exact UInt32.toNat_ofNat_of_lt' (Nat.lt_of_lt_of_le h hmax)
  have hnodup : ((List.range (info.maxCluster.toNat + 1)).map UInt32.ofNat).Nodup := by
    refine List.Nodup.map_on (fun a ha b hb hab => ?_) List.nodup_range
    rw [← hofNat a ha, ← hofNat b hb, hab]
  have hsum := sum_filter_length hnodup (fun id => (getProcessorLocation id).cluster) _
    fun id hid => by
      have hle := UInt32.le_iff_toNat_le.mp (hreports.cluster.le _ (List.mem_map_of_mem hid))
      exact List.mem_map.mpr ⟨(getProcessorLocation id).cluster.toNat,
        List.mem_range.mpr (by omega), UInt32.ofNat_toNat⟩
  rw [hreports.cores, ← hsum, List.map_map]
  refine congrArg List.sum (List.map_congr_left fun clusterId _ => ?_)
  rw [getSocketClusterInfo, enabledCores_getInfoCommon rfl, matching_cluster]
  rfl

structure Agrees (hob : CoreHob) (sockets : List UInt32) (platform : Info) : Prop where
  walks : hob.Walks sockets
  increasing : sockets.Pairwise (· < ·)
  enabled : ∀ socketId, socketId ∈ sockets ↔ hob.Enabled socketId
  answered : hob.getPlatformInfo = .ok platform
  reports : Reports hob.mpidrs platform
  sum : (sockets.map fun socketId => enabledCores (hob.getSocketInfo socketId)).sum =
    platform.numEnabledCores.toNat
  found : ∀ socketId ∈ sockets, ∃ info, hob.getSocketInfo socketId = .ok info
  socket : ∀ socketId info, hob.getSocketInfo socketId = .ok info →
    Reports (hob.mpidrs.filter fun id => (getProcessorLocation id).socket == socketId) info ∧
      ((List.range (info.maxCluster.toNat + 1)).map fun clusterId =>
        enabledCores (hob.getSocketClusterInfo socketId (.ofNat clusterId))).sum =
        info.numEnabledCores.toNat
  cluster : ∀ socketId clusterId info, hob.getSocketClusterInfo socketId clusterId = .ok info →
    Reports ((hob.mpidrs.filter fun id => (getProcessorLocation id).socket == socketId).filter
      fun id => (getProcessorLocation id).cluster == clusterId) info

/-- Two cores at one place would be counted twice by every query, so it does not matter here
whether the places are distinct. -/
theorem views_agree (hne : hob.mpidrs ≠ []) :
    ∃ sockets platform, hob.Agrees sockets platform := by
  obtain ⟨platform, hplatform, hreports⟩ := getPlatformInfo_ok hne
  obtain ⟨hfirst, hleast⟩ := getFirstEnabledSocket_least hne
  obtain ⟨rest, hchain, hlast, hpairwise, hmem⟩ := walks_from hne _ hfirst le_rfl
  have henabled : ∀ socketId, socketId ∈ hob.getFirstEnabledSocket :: rest ↔
      hob.Enabled socketId := fun socketId =>
    (hmem socketId).trans ⟨And.left, fun h => ⟨h, hleast socketId h⟩⟩
  refine ⟨_, platform, ⟨⟨rfl, hchain, hlast⟩, hpairwise, henabled, hplatform, hreports, ?_,
    fun socketId h => getSocketInfo_ok ((henabled socketId).mp h), fun socketId info h => ?_,
    fun socketId clusterId info h => ?_⟩⟩
  · have hsum := sum_filter_length (hpairwise.imp fun h => UInt32.ne_of_lt h)
      (fun id => (getProcessorLocation id).socket) hob.mpidrs
      fun id hid => (henabled _).mpr ⟨id, hid, rfl⟩
    rw [hreports.cores, ← hsum]
    refine congrArg List.sum (List.map_congr_left fun socketId _ => ?_)
    rw [getSocketInfo, enabledCores_getInfoCommon rfl, matching_socket]
  · have hsocket := getInfoCommon_reports rfl h
    rw [matching_socket] at hsocket
    exact ⟨hsocket, sum_clusters hsocket⟩
  · have hcluster := getInfoCommon_reports rfl h
    rw [matching_cluster] at hcluster
    exact hcluster

end CoreHob

/-- Two cores of cluster 1 in socket 2 and one of cluster 3 in socket 0. -/
def threeCores : CoreHob where
  mpidrs := [0x200010000, 0x30000, 0x200010100]
  length_lt := by decide

theorem threeCores_agree : ∃ sockets platform, threeCores.Agrees sockets platform :=
  CoreHob.views_agree (by decide)

end MpCoreInfo
