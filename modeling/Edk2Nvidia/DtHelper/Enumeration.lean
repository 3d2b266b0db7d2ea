import Edk2Nvidia.Cursor.Enumerate
import Edk2Nvidia.DtHelper.Tree

/-! The enumeration of the nodes of a device tree, and the search for a phandle. Each function keeps
one status for the tree, the last lookup and the match. -/
namespace DtHelper
open Parse Cursor
open DeviceTree (Properties deviceTreeGetNodePropertyValue64)

variable (allocates : Nat → Bool) (tree : Tree)

/-! The functions. -/

def checkCompatible (compatibleInfo : List CString) (i : Nat) : EfiStatus × Bool :=
  let status := deviceTreeCheckNodeCompatibility allocates compatibleInfo (tree.properties i)
  (status, status = .success)

def deviceTreeGetNextCompatibleNode (compatibleInfo : List CString) (nodeOffset : Int) :
    EfiStatus × Int :=
  advance .success Int.ofNat fdtErrNotFound nodeOffset
    (search (checkCompatible allocates tree compatibleInfo) .notFound (tree.following nodeOffset))

/-- The status is still that of the tree pointer where there is no subnode to look at. -/
def deviceTreeGetNextCompatibleSubnode (compatibleInfo : List CString) (parentOffset : Nat)
    (nodeOffset : Int) : EfiStatus × Int :=
  advance .success Int.ofNat fdtErrNotFound nodeOffset
    (search (checkCompatible allocates tree compatibleInfo) .success
      (if nodeOffset = 0 then tree.subnodes parentOffset else tree.nextSubnodes nodeOffset))

/-- A device type that differs leaves the success of the lookup. -/
def checkDeviceType (deviceType : CString) (i : Nat) : EfiStatus × Bool :=
  match tree.properties i "device_type" with
  | none => (.notFound, false)
  | some data =>
    if propertyString data = deviceType then
      let status := deviceTreeNodeIsEnabled (tree.properties i)
      (status, status = .success)
    else (.success, false)

def deviceTreeGetNextDeviceTypeNode (deviceType : CString) (nodeOffset : Int) :
    EfiStatus × Int :=
  advance .success Int.ofNat fdtErrNotFound nodeOffset
    (search (checkDeviceType tree deviceType) .success (tree.following nodeOffset))

def cpu : CString := ⟨[0x63, 0x70, 0x75], by simp⟩
def memory : CString := ⟨[0x6D, 0x65, 0x6D, 0x6F, 0x72, 0x79], by simp⟩

def deviceTreeGetNextCpuNode : Int → EfiStatus × Int := deviceTreeGetNextDeviceTypeNode tree cpu
def deviceTreeGetNextMemoryNode : Int → EfiStatus × Int :=
  deviceTreeGetNextDeviceTypeNode tree memory

/-- The body of the three functions that count. -/
def nodeCount (next : Int → EfiStatus × Int) (fuel : Nat) : Option (EfiStatus × Nat) :=
  (count .success next fuel (-1) 0).map fun last =>
    (if last.1 = .notFound then if last.2 = 0 then .notFound else .success else last.1, last.2)

def deviceTreeGetCompatibleNodeCount (compatibleInfo : List CString) :
    Nat → Option (EfiStatus × Nat) :=
  nodeCount (deviceTreeGetNextCompatibleNode allocates tree compatibleInfo)
def deviceTreeGetCpuNodeCount : Nat → Option (EfiStatus × Nat) :=
  nodeCount (deviceTreeGetNextCpuNode tree)
def deviceTreeGetMemoryNodeCount : Nat → Option (EfiStatus × Nat) :=
  nodeCount (deviceTreeGetNextMemoryNode tree)

def checkPHandle (nodePHandle : UInt32) (i : Nat) : EfiStatus × Bool :=
  match deviceTreeGetNodePHandle (tree.properties i) with
  | .error status => (status, false)
  | .ok value => if value = nodePHandle then (.success, true) else (.notFound, false)

def deviceTreeGetNodeByPHandle (nodePHandle : UInt32) : EfiStatus × Int :=
  let found := search (checkPHandle tree nodePHandle) .success (tree.following (-1))
  (found.1, (found.2.map Int.ofNat).getD fdtErrNotFound)

/-! What they are for. -/

/-- The calls from `start` on until one fails visit the nodes in their order, and the one that
fails says that there are no more and leaves the offset. -/
def Visits (next : Int → EfiStatus × Int) (start : Int) (nodes : List Nat) : Prop :=
  ∃ fuel, enumerate .success next fuel start =
    (nodes.map Int.ofNat, some (.notFound, ((nodes.map Int.ofNat).getLast?).getD start))

def CountsNodes (result : Nat → Option (EfiStatus × Nat)) (nodes : List Nat) : Prop :=
  ∃ fuel, result fuel = some (if nodes = [] then .notFound else .success, nodes.length)

def Tree.isCompatible (compatibleInfo : List CString) (i : Nat) : Bool :=
  (compatibleInfo.any fun compatible =>
    (deviceTreeLocateStringIndex allocates (tree.properties i "compatible") [0] compatible).status
      = .success) &&
    deviceTreeNodeIsEnabled (tree.properties i) = .success

def Tree.isOfType (deviceType : CString) (i : Nat) : Bool :=
  (tree.properties i "device_type").map propertyString = some deviceType &&
    deviceTreeNodeIsEnabled (tree.properties i) = .success

/-- The last node has no device type, or has this one and is disabled. -/
def Tree.EndsBeside (deviceType : CString) : Prop :=
  ∃ last, (List.range tree.nodes.length).getLast? = some last ∧
    (tree.properties last "device_type" = none ∨
      (tree.properties last "device_type").map propertyString = some deviceType ∧
        deviceTreeNodeIsEnabled (tree.properties last) ≠ .success)

/-- There are subnodes, and the last one is not compatible. -/
def Tree.SubnodesEndBeside (compatibleInfo : List CString) (parentOffset : Nat) : Prop :=
  ∃ last, (tree.subnodes parentOffset).getLast? = some last ∧
    tree.isCompatible allocates compatibleInfo last = false

/-- The first node that has the phandle, if there is one. -/
def FindsPHandle (nodePHandle : UInt32) (result : EfiStatus × Int) : Prop :=
  (result.1 = .success ↔ ∃ i < tree.nodes.length,
    deviceTreeGetNodePHandle (tree.properties i) = .ok nodePHandle) ∧
  (result.1 = .success → ∃ i < tree.nodes.length, result.2 = Int.ofNat i ∧
    deviceTreeGetNodePHandle (tree.properties i) = .ok nodePHandle ∧
      ∀ j < i, deviceTreeGetNodePHandle (tree.properties j) ≠ .ok nodePHandle)

variable {allocates : Nat → Bool} {tree : Tree}

/-! The walks. -/

theorem range_split {n : Nat} {before rest : List Nat} {a : Nat}
    (h : List.range n = before ++ a :: rest) : a = before.length ∧
      (List.range n).drop (a + 1) = rest := by
  have ha : a = before.length := by
    have hget := congrArg (·[before.length]?) h
    simp only [List.getElem?_append_right (Nat.le_refl before.length), Nat.sub_self,
      List.getElem?_cons_zero] at hget
    obtain ⟨hlt, heq⟩ := List.getElem?_eq_some_iff.mp hget
    rw [List.getElem_range] at heq
    exact heq.symm
  refine ⟨ha, ?_⟩
  have hsplit : before ++ a :: rest = (before ++ [a]) ++ rest := by simp
  rw [h, hsplit]
  exact Parse.drop_front rest (by rw [List.length_append, ha]; rfl)

theorem walk_following (tree : Tree) :
    Walk Int.ofNat (List.range tree.nodes.length) tree.following (-1) where
  start := rfl
  next := by
    intro before a rest h
    exact (range_split h).2

theorem filter_lt_of_sorted {order before rest : List Nat} {a : Nat}
    (hsorted : order.Pairwise (· < ·)) (h : order = before ++ a :: rest) :
    order.filter (fun i => decide (a < i)) = rest := by
  rw [h] at hsorted ⊢
  obtain ⟨-, hrest, hbefore⟩ := List.pairwise_append.mp hsorted
  rw [List.filter_append, List.filter_cons_of_neg (by simp)]
  have hnone : before.filter (fun i => decide (a < i)) = [] := by
    rw [List.filter_eq_nil_iff]
    intro b hb
    have hlt := hbefore b hb a List.mem_cons_self
    simp only [decide_eq_true_iff]
    omega
  rw [hnone, List.nil_append, List.filter_eq_self]
  intro b hb
  exact decide_eq_true ((List.pairwise_cons.mp hrest).1 b hb)

theorem walk_subnodes (tree : Tree) (parentOffset : Nat) :
    Walk Int.ofNat (tree.subnodes parentOffset)
      (fun offset => if offset = 0 then tree.subnodes parentOffset else tree.nextSubnodes offset)
      0 where
  start := rfl
  next := by
    intro before a rest h
    have hmem : a ∈ tree.subnodes parentOffset := by
      rw [h]
      exact List.mem_append_right _ List.mem_cons_self
    obtain ⟨hrange, hparent⟩ := List.mem_filter.mp hmem
    have hparent := of_decide_eq_true hparent
    obtain ⟨node, hnode, hnodeParent⟩ := Option.bind_eq_some_iff.mp hparent
    have hpos := tree.parent_lt a node hnode
    rw [hnodeParent] at hpos
    have hne : ¬ Int.ofNat a = 0 := by
      have hlt : parentOffset < a := hpos
      change ¬ (a : Int) = 0
      omega
    have hsorted : (tree.subnodes parentOffset).Pairwise (· < ·) :=
      List.pairwise_lt_range.filter _
    rw [if_neg hne, Tree.nextSubnodes]
    have hlookup : (tree.node? (Int.ofNat a)).bind Node.parent = some parentOffset := by
      rw [Tree.node?, if_neg (by change ¬ (a : Int) < 0; omega)]
      exact hparent
    rw [hlookup]
    have hcast : (fun i : Nat => decide (Int.ofNat a < (i : Int))) = fun i => decide (a < i) := by
      funext i
      exact decide_eq_decide.mpr Int.ofNat_lt
    change (tree.subnodes parentOffset).filter
      (fun i : Nat => decide (Int.ofNat a < (i : Int))) = rest
    rw [hcast]
    exact filter_lt_of_sorted hsorted h

/-! The statuses. -/

theorem deviceTreeNodeIsEnabled_cases (properties : Properties) :
    deviceTreeNodeIsEnabled properties = .success ∨
      deviceTreeNodeIsEnabled properties = .notFound := by
  unfold deviceTreeNodeIsEnabled
  split
  · exact .inl rfl
  split
  · exact .inl rfl
  · exact .inr rfl

theorem locateFrom_status (allocates : Nat → Bool) (string : CString) (memory : List UInt8)
    (left offset index : Nat) :
    (locateFrom allocates string memory left offset index).status = .success ∨
      (locateFrom allocates string memory left offset index).status = .notFound := by
  fun_induction locateFrom allocates string memory left offset index with
  | case1 => exact .inl rfl
  | case2 memory left offset index hroom found hmatch rest ih => exact ih
  | case3 => exact .inr rfl

theorem locateAny_cases (allocates : Nat → Bool) (properties : Properties)
    (compatibleInfo : List CString) :
    (locateAny allocates properties .notFound compatibleInfo = .success ∧
        compatibleInfo.any (fun compatible =>
          (deviceTreeLocateStringIndex allocates (properties "compatible") [0] compatible).status
            = .success) = true) ∨
      ((locateAny allocates properties .notFound compatibleInfo = .notFound ∨
          locateAny allocates properties .notFound compatibleInfo = .noMapping) ∧
        compatibleInfo.any (fun compatible =>
          (deviceTreeLocateStringIndex allocates (properties "compatible") [0] compatible).status
            = .success) = false) := by
  cases hproperty : properties "compatible" with
  | none =>
    refine .inr ⟨?_, List.any_eq_false.mpr ?_⟩
    · cases compatibleInfo with
      | nil => exact .inl rfl
      | cons compatible rest =>
        rw [locateAny, hproperty]
        exact .inr rfl
    · intro compatible _
      exact of_decide_eq_false rfl
  | some data =>
    induction compatibleInfo with
    | nil => exact .inr ⟨.inl rfl, rfl⟩
    | cons compatible rest ih =>
      rw [locateAny, List.any_cons, hproperty]
      rcases locateFrom_status allocates compatible (data ++ [0]) data.length 0 0 with
        hstatus | hstatus
      · simp only [deviceTreeLocateStringIndex, hstatus]
        exact .inl ⟨rfl, rfl⟩
      · simp only [deviceTreeLocateStringIndex, hstatus] at ih ⊢
        exact ih

theorem deviceTreeCheckNodeCompatibility_cases (allocates : Nat → Bool) (tree : Tree)
    (compatibleInfo : List CString) (i : Nat) :
    deviceTreeCheckNodeCompatibility allocates compatibleInfo (tree.properties i) = .success ∧
        tree.isCompatible allocates compatibleInfo i = true ∨
      deviceTreeCheckNodeCompatibility allocates compatibleInfo (tree.properties i) = .notFound ∧
        tree.isCompatible allocates compatibleInfo i = false := by
  unfold deviceTreeCheckNodeCompatibility Tree.isCompatible
  rcases locateAny_cases allocates (tree.properties i) compatibleInfo with
    ⟨hstatus, hany⟩ | ⟨hstatus | hstatus, hany⟩
  · simp only [hstatus, hany]
    rcases deviceTreeNodeIsEnabled_cases (tree.properties i) with henabled | henabled
    · exact .inl ⟨henabled, decide_eq_true henabled⟩
    · refine .inr ⟨henabled, ?_⟩
      rw [henabled]
      rfl
  · simp only [hstatus, hany]
    exact .inr ⟨rfl, rfl⟩
  · simp only [hstatus, hany]
    exact .inr ⟨rfl, rfl⟩

theorem checkCompatible_snd (compatibleInfo : List CString) (i : Nat) :
    (checkCompatible allocates tree compatibleInfo i).2 =
      tree.isCompatible allocates compatibleInfo i := by
  rcases deviceTreeCheckNodeCompatibility_cases allocates tree
    compatibleInfo i with ⟨hstatus, hmatch⟩ | ⟨hstatus, hmatch⟩
  · rw [checkCompatible, hstatus, hmatch]
    rfl
  · rw [checkCompatible, hstatus, hmatch]
    rfl

theorem checkDeviceType_cases (tree : Tree) (deviceType : CString) (i : Nat) :
    checkDeviceType tree deviceType i = (.success, true) ∧ tree.isOfType deviceType i = true ∨
      tree.isOfType deviceType i = false ∧
        (checkDeviceType tree deviceType i = (.notFound, false) ∧
            (tree.properties i "device_type" = none ∨
              (tree.properties i "device_type").map propertyString = some deviceType ∧
                deviceTreeNodeIsEnabled (tree.properties i) ≠ .success) ∨
          checkDeviceType tree deviceType i = (.success, false) ∧
            tree.properties i "device_type" ≠ none ∧
              (tree.properties i "device_type").map propertyString ≠ some deviceType) := by
  unfold checkDeviceType Tree.isOfType
  cases hproperty : tree.properties i "device_type" with
  | none => exact .inr ⟨rfl, .inl ⟨rfl, .inl rfl⟩⟩
  | some data =>
    rw [Option.map_some]
    simp only
    by_cases htype : propertyString data = deviceType
    · rw [if_pos htype, htype]
      rcases deviceTreeNodeIsEnabled_cases (tree.properties i) with henabled | henabled
      · rw [henabled]
        exact .inl ⟨rfl, by simp⟩
      · rw [henabled]
        exact .inr ⟨by simp, .inl ⟨rfl, .inr ⟨rfl, by decide⟩⟩⟩
    · rw [if_neg htype]
      refine .inr ⟨?_, .inr ⟨rfl, Option.some_ne_none data, ?_⟩⟩
      · simp [htype]
      · intro heq
        exact htype (Option.some.inj heq)

/-! The laws. -/

theorem visits_iff {next : Int → EfiStatus × Int} {start : Int} {check : Nat → EfiStatus × Bool}
    {order : List Nat} {init : EfiStatus} {after : Int → List Nat}
    (hnext : ∀ offset, next offset =
      step .success Int.ofNat fdtErrNotFound check init after offset)
    (hfound : ∀ i, (check i).2 = true → (check i).1 = .success)
    (hwalk : Walk Int.ofNat order after start) :
    Visits next start (order.filter fun i => (check i).2) ↔
      finalStatus check init order = .notFound := by
  have heq : next = step .success Int.ofNat fdtErrNotFound check init after := funext hnext
  rw [heq, ← enumerates_iff fdtErrNotFound (by decide) hfound hwalk]
  rfl

theorem countsNodes_iff {next : Int → EfiStatus × Int} {check : Nat → EfiStatus × Bool}
    {order : List Nat} {init : EfiStatus} {after : Int → List Nat}
    (hnext : ∀ offset, next offset =
      step .success Int.ofNat fdtErrNotFound check init after offset)
    (hfound : ∀ i, (check i).2 = true → (check i).1 = .success)
    (hwalk : Walk Int.ofNat order after (-1))
    (hfinal : finalStatus check init order = .success ∨
      finalStatus check init order = .notFound) :
    CountsNodes (nodeCount next) (order.filter fun i => (check i).2) ↔
      finalStatus check init order = .notFound := by
  have heq : next = step .success Int.ofNat fdtErrNotFound check init after := funext hnext
  have hstop : after fdtErrNotFound = order := hwalk.start
  rw [heq, ← counts_iff (by decide) hfound hwalk hstop hfinal]
  unfold CountsNodes Counts nodeCount
  constructor
  · rintro ⟨fuel, hcount⟩
    obtain ⟨⟨status, n⟩, hlast, hresult⟩ := Option.map_eq_some_iff.mp hcount
    refine ⟨fuel, ?_⟩
    rw [hlast]
    have hn : n = (order.filter fun i => (check i).2).length := congrArg Prod.snd hresult
    have hstatus := congrArg Prod.fst hresult
    have hfails := count_fails hlast
    simp only at hstatus hfails
    split at hstatus
    next hmissing => rw [hmissing, hn]
    next hmissing =>
      split at hstatus
      · exact absurd hstatus hmissing
      · exact absurd hstatus hfails
  · rintro ⟨fuel, hcount⟩
    refine ⟨fuel, ?_⟩
    rw [hcount, Option.map_some, if_pos rfl]
    simp only [List.length_eq_zero_iff]

theorem finalStatus_compatible (allocates : Nat → Bool) (tree : Tree)
    (compatibleInfo : List CString) (init : EfiStatus) (order : List Nat) :
    finalStatus (checkCompatible allocates tree compatibleInfo) init order = .notFound ↔
      (init = .notFound ∨
        ∃ last, order.getLast? = some last ∧
          tree.isCompatible allocates compatibleInfo last = false) := by
  unfold finalStatus
  cases order.getLast? with
  | none =>
    simp only
    constructor
    · intro h
      exact .inl h
    · rintro (h | ⟨last, hlast, -⟩)
      · exact h
      · cases hlast
  | some last =>
    simp only [checkCompatible_snd]
    rcases deviceTreeCheckNodeCompatibility_cases allocates tree
      compatibleInfo last with ⟨-, hmatch⟩ | ⟨hstatus, hmatch⟩
    · rw [if_pos hmatch]
      constructor
      · intro h
        exact .inl h
      · rintro (h | ⟨last', hlast, hno⟩)
        · exact h
        · cases hlast
          rw [hmatch] at hno
          cases hno
    · rw [if_neg (by rw [hmatch]; decide)]
      exact iff_of_true hstatus (.inr ⟨last, rfl, hmatch⟩)

theorem finalStatus_deviceType (tree : Tree) (deviceType : CString) :
    (finalStatus (checkDeviceType tree deviceType) .success (List.range tree.nodes.length)
        = .success ∨
      finalStatus (checkDeviceType tree deviceType) .success (List.range tree.nodes.length)
        = .notFound) ∧
    (finalStatus (checkDeviceType tree deviceType) .success (List.range tree.nodes.length)
        = .notFound ↔ tree.EndsBeside deviceType) := by
  unfold finalStatus Tree.EndsBeside
  cases (List.range tree.nodes.length).getLast? with
  | none =>
    refine ⟨.inl rfl, iff_of_false ?_ ?_⟩
    · intro h
      cases h
    · rintro ⟨last, hlast, -⟩
      cases hlast
  | some last =>
    rcases checkDeviceType_cases tree deviceType last with
      ⟨hcheck, hmatch⟩ | ⟨-, ⟨hcheck, hbeside⟩ | ⟨hcheck, hthere, hother⟩⟩
    · simp only [hcheck, if_true]
      refine ⟨.inl trivial, iff_of_false (by decide) ?_⟩
      rintro ⟨last', hlast, hbeside⟩
      cases hlast
      rw [Tree.isOfType, Bool.and_eq_true] at hmatch
      rcases hbeside with hnone | ⟨-, hdisabled⟩
      · rw [hnone] at hmatch
        cases of_decide_eq_true hmatch.1
      · exact hdisabled (of_decide_eq_true hmatch.2)
    · simp only [hcheck]
      exact ⟨.inr rfl, iff_of_true rfl ⟨last, rfl, hbeside⟩⟩
    · simp only [hcheck]
      refine ⟨.inl rfl, iff_of_false (by decide) ?_⟩
      rintro ⟨last', hlast, hbeside⟩
      cases hlast
      rcases hbeside with hnone | ⟨hsame, -⟩
      · exact hthere hnone
      · exact hother hsame

theorem checkDeviceType_snd (deviceType : CString) (i : Nat) :
    (checkDeviceType tree deviceType i).2 = tree.isOfType deviceType i := by
  rcases checkDeviceType_cases tree deviceType i with
    ⟨hcheck, hmatch⟩ | ⟨hmatch, ⟨hcheck, -⟩ | ⟨hcheck, -⟩⟩
  · rw [hcheck, hmatch]
  · rw [hcheck, hmatch]
  · rw [hcheck, hmatch]

theorem checkDeviceType_found (deviceType : CString) (i : Nat)
    (h : (checkDeviceType tree deviceType i).2 = true) :
    (checkDeviceType tree deviceType i).1 = .success := by
  rcases checkDeviceType_cases tree deviceType i with
    ⟨hcheck, -⟩ | ⟨-, ⟨hcheck, -⟩ | ⟨hcheck, -⟩⟩
  · rw [hcheck]
  · rw [hcheck] at h
    cases h
  · rw [hcheck]

theorem checkCompatible_found (compatibleInfo : List CString) (i : Nat)
    (h : (checkCompatible allocates tree compatibleInfo i).2 = true) :
    (checkCompatible allocates tree compatibleInfo i).1 = .success := of_decide_eq_true h

/-- The enumeration of the nodes of a device type, and their number. -/
theorem deviceType_iff (tree : Tree) (deviceType : CString) :
    (Visits (deviceTreeGetNextDeviceTypeNode tree deviceType) (-1)
        ((List.range tree.nodes.length).filter (tree.isOfType deviceType)) ↔
      tree.EndsBeside deviceType) ∧
    (CountsNodes (nodeCount (deviceTreeGetNextDeviceTypeNode tree deviceType))
        ((List.range tree.nodes.length).filter (tree.isOfType deviceType)) ↔
      tree.EndsBeside deviceType) := by
  obtain ⟨hcases, hfinal⟩ := finalStatus_deviceType tree deviceType
  have hfilter : (fun i => (checkDeviceType tree deviceType i).2) = tree.isOfType deviceType :=
    funext (checkDeviceType_snd deviceType)
  rw [← hfilter, ← hfinal]
  exact ⟨visits_iff (fun _ => rfl) (checkDeviceType_found deviceType) (walk_following tree),
    countsNodes_iff (fun _ => rfl) (checkDeviceType_found deviceType) (walk_following tree)
      hcases⟩

theorem compatibleNodes (allocates : Nat → Bool) (tree : Tree) (compatibleInfo : List CString) :
    Visits (deviceTreeGetNextCompatibleNode allocates tree compatibleInfo) (-1)
        ((List.range tree.nodes.length).filter (tree.isCompatible allocates compatibleInfo)) ∧
      CountsNodes (deviceTreeGetCompatibleNodeCount allocates tree compatibleInfo)
        ((List.range tree.nodes.length).filter (tree.isCompatible allocates compatibleInfo)) := by
  have hfilter : (fun i => (checkCompatible allocates tree compatibleInfo i).2) =
      tree.isCompatible allocates compatibleInfo := funext (checkCompatible_snd compatibleInfo)
  have hfinal := (finalStatus_compatible allocates tree compatibleInfo
    .notFound (List.range tree.nodes.length)).mpr (.inl rfl)
  rw [← hfilter]
  exact ⟨(visits_iff (fun _ => rfl) (checkCompatible_found compatibleInfo)
      (walk_following tree)).mpr hfinal,
    (countsNodes_iff (fun _ => rfl) (checkCompatible_found compatibleInfo) (walk_following tree)
      (.inr hfinal)).mpr hfinal⟩

theorem compatibleSubnodes_iff (allocates : Nat → Bool) (tree : Tree)
    (compatibleInfo : List CString) (parentOffset : Nat) :
    Visits (deviceTreeGetNextCompatibleSubnode allocates tree compatibleInfo parentOffset) 0
        ((tree.subnodes parentOffset).filter (tree.isCompatible allocates compatibleInfo)) ↔
      tree.SubnodesEndBeside allocates compatibleInfo parentOffset := by
  have hfilter : (fun i => (checkCompatible allocates tree compatibleInfo i).2) =
      tree.isCompatible allocates compatibleInfo := funext (checkCompatible_snd compatibleInfo)
  rw [← hfilter]
  refine (visits_iff (fun _ => rfl) (checkCompatible_found compatibleInfo)
    (walk_subnodes tree parentOffset)).trans ?_
  rw [finalStatus_compatible, or_iff_right (by decide)]
  rfl

theorem finalStatus_ne_of_all {check : Nat → EfiStatus × Bool} (init : EfiStatus)
    {order : List Nat} (hne : order ≠ [])
    (hfails : ∀ i, (check i).2 = false → (check i).1 ≠ .success)
    (hnone : ∀ i ∈ order, (check i).2 = false) : finalStatus check init order ≠ .success := by
  unfold finalStatus
  cases hlast : order.getLast? with
  | none => exact absurd (List.getLast?_eq_none_iff.mp hlast) hne
  | some last =>
    have hfalse := hnone last (List.mem_of_getLast? hlast)
    simp only [hfalse, Bool.false_eq_true, if_false]
    exact hfails last hfalse

theorem deviceTreeGetNodePHandle_ne_success (properties : Properties) :
    deviceTreeGetNodePHandle properties ≠ .error .success := by
  have hvalue : ∀ property, deviceTreeGetNodePropertyValue32 properties property
      ≠ .error .success := by
    intro property h
    unfold deviceTreeGetNodePropertyValue32 at h
    split at h
    next status hstatus =>
      have hsuccess : status = .success := by
        cases status <;> first | rfl | cases h
      subst hsuccess
      unfold deviceTreeGetNodePropertyValue64 at hstatus
      unfold DeviceTree.deviceTreeGetNodeProperty at hstatus
      cases hproperty : properties property with
      | none =>
        simp only [hproperty] at hstatus
        split at hstatus
        · cases hstatus
        · cases hstatus
      | some data =>
        simp only [hproperty] at hstatus
        split at hstatus
        · cases hstatus
        · cases hstatus
    · split at h
      · cases h
      · cases h
  unfold deviceTreeGetNodePHandle
  split
  · intro h
    cases h
  · exact hvalue "linux,phandle"

theorem checkPHandle_cases (tree : Tree) (nodePHandle : UInt32) (i : Nat) :
    checkPHandle tree nodePHandle i = (.success, true) ∧
        deviceTreeGetNodePHandle (tree.properties i) = .ok nodePHandle ∨
      (checkPHandle tree nodePHandle i).2 = false ∧
        (checkPHandle tree nodePHandle i).1 ≠ .success ∧
          deviceTreeGetNodePHandle (tree.properties i) ≠ .ok nodePHandle := by
  unfold checkPHandle
  cases hvalue : deviceTreeGetNodePHandle (tree.properties i) with
  | error status =>
    refine .inr ⟨rfl, ?_, ?_⟩
    · rintro rfl
      exact deviceTreeGetNodePHandle_ne_success _ hvalue
    · intro h
      cases h
  | ok value =>
    simp only
    by_cases hsame : value = nodePHandle
    · rw [if_pos hsame, hsame]
      exact .inl ⟨rfl, rfl⟩
    · rw [if_neg hsame]
      refine .inr ⟨rfl, by decide, ?_⟩
      intro h
      exact hsame (Except.ok.inj h)

theorem findsPHandle (tree : Tree) (nodePHandle : UInt32) :
    FindsPHandle tree nodePHandle (deviceTreeGetNodeByPHandle tree nodePHandle) := by
  have hfollowing : tree.following (-1) = List.range tree.nodes.length := rfl
  have hhas : ∀ i, (checkPHandle tree nodePHandle i).2 = true ↔
      deviceTreeGetNodePHandle (tree.properties i) = .ok nodePHandle := by
    intro i
    rcases checkPHandle_cases tree nodePHandle i with ⟨hcheck, h⟩ | ⟨hcheck, -, h⟩
    · rw [hcheck]
      exact iff_of_true rfl h
    · rw [hcheck]
      exact iff_of_false Bool.false_ne_true h
  unfold FindsPHandle deviceTreeGetNodeByPHandle
  simp only [hfollowing]
  rcases search_spec (checkPHandle tree nodePHandle) .success (List.range tree.nodes.length) with
    ⟨skipped, a, rest, horder, hskipped, ha, hsearch⟩ | ⟨hnone, hsearch⟩
  · obtain ⟨hlength, -⟩ := range_split horder
    have hlt : a < tree.nodes.length := by
      rw [← List.mem_range, horder]
      exact List.mem_append_right _ List.mem_cons_self
    have hstatus : (checkPHandle tree nodePHandle a).1 = .success := by
      rcases checkPHandle_cases tree nodePHandle a with ⟨hcheck, -⟩ | ⟨hcheck, -, -⟩
      · rw [hcheck]
      · rw [hcheck] at ha
        cases ha
    rw [hsearch]
    have hvalue := (hhas a).mp ha
    refine ⟨iff_of_true hstatus ⟨a, hlt, hvalue⟩, fun _ => ⟨a, hlt, rfl, hvalue, ?_⟩⟩
    intro j hj h
    have hmem : j ∈ skipped := by
      have hget : (List.range tree.nodes.length)[j]? = some j := by
        rw [List.getElem?_range (by omega)]
      rw [horder, List.getElem?_append_left (by omega)] at hget
      exact List.mem_of_getElem? hget
    rw [← hhas, hskipped j hmem] at h
    cases h
  · have hne : List.range tree.nodes.length ≠ [] := by
      intro hnil
      exact tree.root (List.length_eq_zero_iff.mp (List.range_eq_nil.mp hnil))
    have hfinal := finalStatus_ne_of_all .success hne (fun i hi => by
      rcases checkPHandle_cases tree nodePHandle i with ⟨hcheck, -⟩ | ⟨-, hcheck, -⟩
      · rw [hcheck] at hi
        cases hi
      · exact hcheck) hnone
    rw [hsearch]
    refine ⟨iff_of_false hfinal ?_, fun h => absurd h hfinal⟩
    rintro ⟨i, hi, h⟩
    rw [← hhas, hnone i (List.mem_range.mpr hi)] at h
    cases h

/-- When the functions that enumerate the nodes of a tree do so. -/
theorem enumeration_law (allocates : Nat → Bool) (tree : Tree) :
    (∀ compatibleInfo,
      Visits (deviceTreeGetNextCompatibleNode allocates tree compatibleInfo) (-1)
          ((List.range tree.nodes.length).filter (tree.isCompatible allocates compatibleInfo)) ∧
        CountsNodes (deviceTreeGetCompatibleNodeCount allocates tree compatibleInfo)
          ((List.range tree.nodes.length).filter
            (tree.isCompatible allocates compatibleInfo))) ∧
    (∀ compatibleInfo parentOffset,
      Visits (deviceTreeGetNextCompatibleSubnode allocates tree compatibleInfo parentOffset) 0
          ((tree.subnodes parentOffset).filter (tree.isCompatible allocates compatibleInfo)) ↔
        tree.SubnodesEndBeside allocates compatibleInfo parentOffset) ∧
    ((Visits (deviceTreeGetNextCpuNode tree) (-1)
          ((List.range tree.nodes.length).filter (tree.isOfType cpu)) ↔ tree.EndsBeside cpu) ∧
      (CountsNodes (deviceTreeGetCpuNodeCount tree)
          ((List.range tree.nodes.length).filter (tree.isOfType cpu)) ↔
        tree.EndsBeside cpu)) ∧
    ((Visits (deviceTreeGetNextMemoryNode tree) (-1)
          ((List.range tree.nodes.length).filter (tree.isOfType memory)) ↔
        tree.EndsBeside memory) ∧
      (CountsNodes (deviceTreeGetMemoryNodeCount tree)
          ((List.range tree.nodes.length).filter (tree.isOfType memory)) ↔
        tree.EndsBeside memory)) ∧
    ∀ nodePHandle,
      FindsPHandle tree nodePHandle (deviceTreeGetNodeByPHandle tree nodePHandle) :=
  ⟨compatibleNodes allocates tree, compatibleSubnodes_iff allocates tree, deviceType_iff tree cpu,
    deviceType_iff tree memory, findsPHandle tree⟩

/-- A root, and below it one enabled processor node. -/
def oneCpu : Tree where
  nodes := [⟨[], none, fun _ => none⟩,
    ⟨[], some 0, fun name => if name = "device_type" then some [0x63, 0x70, 0x75, 0] else none⟩]
  root := List.cons_ne_nil _ _
  parent_lt := by
    intro i node h
    match i with
    | 0 =>
      cases h
      rfl
    | 1 =>
      cases h
      exact Nat.one_pos
    | i + 2 => cases h

/-- The last node of the tree is a processor, and the search for the next one succeeds. -/
theorem cpu_count_never_ends :
    ¬ ∀ tree : Tree, CountsNodes (deviceTreeGetCpuNodeCount tree)
      ((List.range tree.nodes.length).filter (tree.isOfType cpu)) := by
  intro h
  obtain ⟨last, hlast, hbeside⟩ := (deviceType_iff oneCpu cpu).2.mp (h oneCpu)
  have hone : last = 1 := (Option.some.inj hlast).symm
  subst hone
  rcases hbeside with hnone | ⟨-, hdisabled⟩
  · cases hnone
  · exact hdisabled rfl

end DtHelper
