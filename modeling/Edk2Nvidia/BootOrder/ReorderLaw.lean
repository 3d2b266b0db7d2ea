import Edk2Nvidia.BootOrder.Reordering
import Mathlib.Data.List.GetD

/-! What a request over IPMI writes to `BootOrder`, and which of its elements are accessed on the
way. -/
namespace BootOrder
open Effect Reorder

/-- The values `BootOrder` is set to when every call succeeds. -/
def ordersWritten : Ipmi α → List (List UInt16)
  | .ret _ => []
  | .call (.setBootOrder order) k => order :: ordersWritten (k .success)
  | .call _ k => ordersWritten (k .success)

def searchDownReads (buffer : List UInt16) (optionNumber : UInt16) : Nat → List Nat
  | 0 => []
  | index + 1 =>
    (index + 1) :: if buffer[index + 1]? = some optionNumber then []
      else searchDownReads buffer optionNumber index

/-- The elements `MOVE_INDEX_TO_START` moves. -/
def moveTouches (index : Nat) : List Nat :=
  if 0 < index then List.range (index + 1) else []

def moveInstancesTouches : List UInt16 → List UInt16 → Nat → List Nat
  | [], _, _ => []
  | optionNumber :: rest, buffer, index =>
    let found := searchDown buffer optionNumber index
    searchDownReads buffer optionNumber index ++
      if 0 < found then
        moveTouches found ++ moveInstancesTouches rest (moveIndexToStart buffer found) found
      else []

/-- The elements `reordered` accesses. -/
def reorderedTouches (behind : UInt16) (bootOrder : List UInt16) (desired : Desired) : List Nat :=
  let index := bootOrder.idxOf desired.optionNumber
  let buffer := moveIndexToStart (bootOrder ++ [behind]) index
  moveTouches index ++
    if desired.requestedInstance = 0 then
      moveInstancesTouches desired.classRemaining.reverse buffer index ++
        match moveInstances desired.classRemaining.reverse buffer index with
        | none => []
        | some (buffer, _) =>
          moveInstancesTouches desired.virtualRemaining.reverse buffer bootOrder.length
    else []

/-- The elements of `BootOrder` a request accesses: two loops run over all of it, two comparisons
over its start. -/
def touches (behind : UInt16) (bootOrder classInstances virtualInstances : List UInt16)
    (desired : Desired) : List Nat :=
  List.range bootOrder.length ++
    if classInstances = [] ∧ virtualInstances = [] then []
    else
      (if desired.requestedInstance = 0 then
        List.range (virtualInstances.length + classInstances.length)
      else []) ++
        if willModifyBootOrder bootOrder classInstances virtualInstances desired then
          reorderedTouches behind bootOrder desired
        else []

theorem searchDown_le (buffer : List UInt16) (optionNumber : UInt16) (index : Nat) :
    searchDown buffer optionNumber index ≤ index := by
  induction index with
  | zero => exact le_rfl
  | succ index ih =>
    unfold searchDown
    split
    · exact le_rfl
    · exact Nat.le_succ_of_le ih

theorem searchDownReads_le {buffer : List UInt16} {optionNumber : UInt16} {index i : Nat}
    (h : i ∈ searchDownReads buffer optionNumber index) : i ≤ index := by
  induction index with
  | zero => cases h
  | succ index ih =>
    unfold searchDownReads at h
    rcases List.mem_cons.mp h with rfl | h
    · exact le_rfl
    · split at h
      · cases h
      · exact Nat.le_succ_of_le (ih h)

theorem moveTouches_le {index i : Nat} (h : i ∈ moveTouches index) : i ≤ index := by
  unfold moveTouches at h
  split at h
  · exact Nat.le_of_lt_succ (List.mem_range.mp h)
  · cases h

theorem moveInstancesTouches_le {options buffer : List UInt16} {index i : Nat}
    (h : i ∈ moveInstancesTouches options buffer index) : i ≤ index := by
  induction options generalizing buffer index with
  | nil => cases h
  | cons optionNumber rest ih =>
    have hle := searchDown_le buffer optionNumber index
    unfold moveInstancesTouches at h
    rcases List.mem_append.mp h with h | h
    · exact searchDownReads_le h
    · split at h
      · rcases List.mem_append.mp h with h | h
        · exact Nat.le_trans (moveTouches_le h) hle
        · exact Nat.le_trans (ih h) hle
      · cases h

theorem length_mem_moveInstancesTouches {options buffer : List UInt16} {index : Nat}
    (hoptions : options ≠ []) (hpos : 0 < index) :
    index ∈ moveInstancesTouches options buffer index := by
  obtain ⟨optionNumber, rest, rfl⟩ := List.exists_cons_of_ne_nil hoptions
  obtain ⟨index, rfl⟩ := Nat.exists_eq_succ_of_ne_zero (Nat.pos_iff_ne_zero.mp hpos)
  unfold moveInstancesTouches searchDownReads
  exact List.mem_append_left _ List.mem_cons_self

/-- No access reaches the end of the order unless a virtual instance is searched for. -/
theorem reorderedTouches_lt {behind : UInt16} {bootOrder : List UInt16} {desired : Desired}
    (hmem : desired.optionNumber ∈ bootOrder)
    (hvirtual : desired.requestedInstance = 0 → desired.virtualRemaining = []) :
    ∀ i ∈ reorderedTouches behind bootOrder desired, i < bootOrder.length := by
  have hindex := List.idxOf_lt_length_of_mem hmem
  intro i hi
  unfold reorderedTouches at hi
  rcases List.mem_append.mp hi with hi | hi
  · exact Nat.lt_of_le_of_lt (moveTouches_le hi) hindex
  · split at hi
    · next hzero =>
      rcases List.mem_append.mp hi with hi | hi
      · exact Nat.lt_of_le_of_lt (moveInstancesTouches_le hi) hindex
      · rw [hvirtual hzero] at hi
        split at hi <;> cases hi
    · cases hi

theorem length_mem_reorderedTouches {behind : UInt16} {bootOrder order : List UInt16}
    {desired : Desired} (hmem : desired.optionNumber ∈ bootOrder)
    (hzero : desired.requestedInstance = 0) (hvirtual : desired.virtualRemaining ≠ [])
    (hreordered : reordered behind bootOrder desired = some order) :
    bootOrder.length ∈ reorderedTouches behind bootOrder desired := by
  unfold reordered at hreordered
  rw [if_pos hzero] at hreordered
  obtain ⟨⟨buffer, index⟩, hclass, -⟩ := Option.bind_eq_some_iff.mp hreordered
  unfold reorderedTouches
  simp only [if_pos hzero, hclass]
  refine List.mem_append_right _ (List.mem_append_right _ ?_)
  exact length_mem_moveInstancesTouches (mt List.reverse_eq_nil_iff.mp hvirtual)
    (List.length_pos_of_mem hmem)

def requestedOrder (p q : UInt16 → Bool) (requestedInstance : Nat) (bootOrder : List UInt16) :
    List UInt16 :=
  let matching := sorted (bootOrder.filter p) ++ sorted (bootOrder.filter fun a => !p a && q a)
  if requestedInstance = 0 ∨ matching.length < requestedInstance then arrange p q bootOrder
  else
    let option := matching.getD (requestedInstance - 1) 0
    option :: bootOrder.erase option

theorem moveIndexToStart_idxOf {bootOrder : List UInt16} {option : UInt16} (h : option ∈ bootOrder) :
    moveIndexToStart bootOrder (bootOrder.idxOf option) = option :: bootOrder.erase option := by
  obtain ⟨front, back, hsplit, hfront⟩ := List.eq_append_cons_of_mem h
  have hidx : bootOrder.idxOf option = front.length := by
    rw [hsplit, List.idxOf_append_of_notMem hfront, List.idxOf_cons_self, Nat.add_zero]
  rw [hidx, hsplit, moveIndexToStart_append, List.erase_append_right _ hfront,
    List.erase_cons_head]

theorem idxOf_pos_iff {bootOrder : List UInt16} {option : UInt16} (h : option ∈ bootOrder) :
    0 < bootOrder.idxOf option ↔ option :: bootOrder.erase option ≠ bootOrder := by
  cases bootOrder with
  | nil => cases h
  | cons a rest =>
    by_cases heq : a = option
    · subst heq
      simp
    · have hbeq : (a == option) = false := by simpa using heq
      rw [List.idxOf_cons, hbeq, List.erase_cons_tail (by simpa using heq)]
      simp [Ne.symm heq]

theorem arrange_eq_self_iff (p q : α → Bool) (l : List α) :
    arrange p q l = l ↔ l.take (l.filter p).length = l.filter p ∧
      (l.drop (l.filter p).length).take (l.filter fun a => !p a && q a).length =
        l.filter fun a => !p a && q a := by
  refine ⟨fun h => ?_, fun ⟨htake, hdrop⟩ => ?_⟩
  · unfold arrange at h
    generalize l.filter p = first at h ⊢
    generalize (l.filter fun a => !p a && q a) = second at h ⊢
    generalize (l.filter fun a => !p a && !q a) = others at h
    subst h
    simp
  · have hsplit : l = l.filter p ++ ((l.filter fun a => !p a && q a) ++
        (l.drop (l.filter p).length).drop (l.filter fun a => !p a && q a).length) := by
      conv_lhs => rw [← List.take_append_drop (l.filter p).length l, htake,
        ← List.take_append_drop (l.filter fun a => !p a && q a).length
          (l.drop (l.filter p).length), hdrop]
    have hothers : (l.filter fun a => !p a && !q a) =
        ((l.drop (l.filter p).length).drop (l.filter fun a => !p a && q a).length).filter
          fun a => !p a && !q a := by
      conv_lhs => rw [hsplit]
      rw [List.filter_append, List.filter_append, List.filter_filter, List.filter_filter]
      have hnone : ∀ a, (!p a && !q a && p a) = false := fun a => by cases p a <;> simp
      have hnone' : ∀ a, (!p a && !q a && (!p a && q a)) = false := fun a => by
        cases q a <;> simp
      simp [hnone, hnone']
    have hlength := length_arrange p q l
    have hlength' := congrArg List.length hsplit
    simp only [arrange, List.length_append] at hlength hlength'
    have hsame := (List.filter_sublist (p := fun a => !p a && !q a)
      (l := (l.drop (l.filter p).length).drop (l.filter fun a => !p a && q a).length)).eq_of_length
      (by rw [← hothers]; omega)
    rw [arrange, hothers, hsame]
    exact hsplit.symm

variable {classes : Classes}

theorem ordersWritten_acknowledge (store : Store) (bootToUiApp : Bool) :
    ordersWritten (acknowledgeAndCleanup store bootToUiApp) = [] := by
  cases bootToUiApp <;> rfl

theorem ordersWritten_prepareRestore {platform : Platform} (hevent : platform.createEvent = .success)
    (bootOrder : List UInt16) (flags : UInt8) (k : Status → Ipmi α) :
    ordersWritten (prepareRestore platform bootOrder flags >>= k) = ordersWritten (k .success) := by
  unfold prepareRestore
  rw [if_neg (not_not.mpr hevent)]
  by_cases hflags : flags ≠ 0
  · simp only [if_pos hflags]
    rfl
  · simp only [if_neg hflags]
    rfl

variable (classes) in
theorem ordersWritten_processInstances (ipv6 : Bool) (behind : UInt16) (request : Request)
    (virtual : Option BootClass) (store : Store) (bootOrder : List UInt16)
    {classInstances virtualInstances : List UInt16} (hsome : ¬ (classInstances = [] ∧ virtualInstances = [])) :
    ordersWritten (processInstances ⟨classes.lookup, ipv6, .success⟩ behind request virtual store
        bootOrder (classInstances, virtualInstances)) =
      let desired := desired (request.deviceInstanceSelector.toNat % 16) classInstances
        virtualInstances
      if willModifyBootOrder bootOrder classInstances virtualInstances desired then
        (reordered behind bootOrder desired).toList
      else [] := by
  unfold processInstances
  simp only [if_neg hsome]
  split
  · cases request.persistentOptions
    · rw [if_neg Bool.false_ne_true, ordersWritten_prepareRestore rfl]
      cases reordered behind bootOrder _ with
      | none => exact ordersWritten_acknowledge store store.bootToUiApp
      | some order => rfl
    · cases reordered behind bootOrder _ with
      | none => exact ordersWritten_acknowledge store store.bootToUiApp
      | some order => rfl
  · cases request.persistentOptions <;> rfl

theorem desired_cases (requestedInstance : Nat) (classInstances virtualInstances : List UInt16) :
    (requestedInstance = 0 ∨ virtualInstances.length + classInstances.length < requestedInstance) ∧
        desired requestedInstance classInstances virtualInstances =
          allInstances classInstances virtualInstances ∨
      ¬ (requestedInstance = 0 ∨
          virtualInstances.length + classInstances.length < requestedInstance) ∧
        (desired requestedInstance classInstances virtualInstances).requestedInstance ≠ 0 ∧
        (desired requestedInstance classInstances virtualInstances).optionNumber =
          (sorted virtualInstances ++ sorted classInstances).getD (requestedInstance - 1) 0 := by
  have hlength : (sorted virtualInstances).length = virtualInstances.length := by simp [sorted]
  unfold desired
  by_cases hzero : requestedInstance = 0
  · exact .inl ⟨.inl hzero, if_pos hzero⟩
  · rw [if_neg hzero]
    by_cases hvirtual : requestedInstance - 1 < virtualInstances.length
    · rw [if_pos hvirtual]
      exact .inr ⟨by omega, hzero, by rw [List.getD_append _ _ _ _ (by omega)]⟩
    · rw [if_neg hvirtual]
      by_cases hclass : requestedInstance - 1 - virtualInstances.length < classInstances.length
      · rw [if_pos hclass]
        exact .inr ⟨by omega, hzero, by rw [List.getD_append_right _ _ _ _ (by omega), hlength]⟩
      · rw [if_neg hclass]
        exact .inl ⟨by omega, rfl⟩

variable (classes) in
def selectedOrder (requested : BootClass) (virtual : Option BootClass) (requestedInstance : Nat)
    (bootOrder : List UInt16) : List UInt16 :=
  requestedOrder (classes.is virtual) (classes.is (some requested)) requestedInstance bootOrder

variable {requested : BootClass} {virtual : Option BootClass} {bootOrder : List UInt16}
  {requestedInstance : Nat}

theorem allInstances_mem {classInstances virtualInstances : List UInt16}
    (hsome : ¬ (classInstances = [] ∧ virtualInstances = [])) :
    (allInstances classInstances virtualInstances).optionNumber ∈
      classInstances ++ virtualInstances := by
  unfold allInstances
  split
  · next h =>
    rw [List.getLastD_eq_getLast?, List.getLast?_eq_some_getLast h]
    exact List.mem_append_left _ (List.getLast_mem h)
  · next h =>
    have hvirtual : virtualInstances ≠ [] := fun hnil => hsome ⟨not_not.mp h, hnil⟩
    rw [List.getLastD_eq_getLast?, List.getLast?_eq_some_getLast hvirtual]
    exact List.mem_append_right _ (List.getLast_mem hvirtual)

variable (classes requested virtual) in
theorem mem_of_mem_instances {option : UInt16}
    (h : option ∈ classInstances classes requested virtual bootOrder ++
      virtualInstances classes virtual bootOrder) : option ∈ bootOrder := by
  rcases List.mem_append.mp h with h | h <;> exact List.mem_of_mem_filter h

variable (requestedInstance) in
theorem desired_mem_bootOrder
    (hsome : ¬ (classInstances classes requested virtual bootOrder = [] ∧
      virtualInstances classes virtual bootOrder = [])) :
    (desired requestedInstance (classInstances classes requested virtual bootOrder)
      (virtualInstances classes virtual bootOrder)).optionNumber ∈ bootOrder := by
  refine mem_of_mem_instances classes requested virtual ?_
  rcases desired_cases requestedInstance (classInstances classes requested virtual bootOrder)
    (virtualInstances classes virtual bootOrder) with ⟨-, hall⟩ | ⟨-, hone, -⟩
  · rw [hall]
    exact allInstances_mem hsome
  · exact desired_mem hone

variable (requestedInstance) in
/-- The order is written if and only if it is another one. -/
theorem willModifyBootOrder_iff
    (hsome : ¬ (classInstances classes requested virtual bootOrder = [] ∧
      virtualInstances classes virtual bootOrder = [])) :
    willModifyBootOrder bootOrder (classInstances classes requested virtual bootOrder)
        (virtualInstances classes virtual bootOrder)
        (desired requestedInstance (classInstances classes requested virtual bootOrder)
          (virtualInstances classes virtual bootOrder)) = true ↔
      selectedOrder classes requested virtual requestedInstance bootOrder ≠ bootOrder := by
  have hmem := desired_mem_bootOrder requestedInstance hsome
  unfold willModifyBootOrder selectedOrder requestedOrder
  rcases desired_cases requestedInstance (classInstances classes requested virtual bootOrder)
    (virtualInstances classes virtual bootOrder) with ⟨hcount, hall⟩ | ⟨hcount, hone, hoption⟩
  · have harrange := arrange_eq_self_iff (classes.is virtual) (classes.is (some requested)) bootOrder
    rw [hall, if_pos (allInstances_requestedInstance _ _), decide_eq_true_eq,
      if_pos (by simpa [sorted, classInstances, virtualInstances] using hcount)]
    exact not_and_or.symm.trans (not_congr harrange.symm)
  · rw [if_neg hone, decide_eq_true_eq,
      if_neg (by simpa [sorted, classInstances, virtualInstances] using hcount),
      idxOf_pos_iff hmem, hoption]
    rfl

/-- A request that succeeds in moving what it wants gets the order it asks for. -/
theorem reordered_selected (hnodup : bootOrder.Nodup) {behind : UInt16}
    (hsome : ¬ (classInstances classes requested virtual bootOrder = [] ∧
      virtualInstances classes virtual bootOrder = []))
    (hremaining : (desired requestedInstance (classInstances classes requested virtual bootOrder)
        (virtualInstances classes virtual bootOrder)).requestedInstance = 0 →
      (desired requestedInstance (classInstances classes requested virtual bootOrder)
        (virtualInstances classes virtual bootOrder)).virtualRemaining = []) :
    reordered behind bootOrder
        (desired requestedInstance (classInstances classes requested virtual bootOrder)
          (virtualInstances classes virtual bootOrder)) =
      some (selectedOrder classes requested virtual requestedInstance bootOrder) := by
  have hmem := desired_mem_bootOrder requestedInstance hsome
  unfold selectedOrder requestedOrder
  rcases desired_cases requestedInstance (classInstances classes requested virtual bootOrder)
    (virtualInstances classes virtual bootOrder) with ⟨hcount, hall⟩ | ⟨hcount, hone, hoption⟩
  · rw [if_pos (by simpa [sorted, classInstances, virtualInstances] using hcount), hall]
    rw [hall] at hremaining
    refine reordered_all hnodup hsome ?_
    have hnil := hremaining (allInstances_requestedInstance _ _)
    unfold classInstances virtualInstances at hnil
    rw [hnil]
    exact fun h => by cases h
  · rw [if_neg (by simpa [sorted, classInstances, virtualInstances] using hcount),
      reordered_one hnodup hone hmem, moveIndexToStart_idxOf hmem, hoption]
    rfl

/-- What a request writes, and that it accesses `BootOrder` only. -/
structure Lawful (platform : Platform) (behind : UInt16) (request : Request) (store : Store)
    (classInstances virtualInstances bootOrder order : List UInt16) : Prop where
  written : ordersWritten (processIPMIBootOrderUpdates platform behind (some request) store) =
    if order = bootOrder then [] else [order]
  inside : ∀ i ∈ touches behind bootOrder classInstances virtualInstances
    (desired (request.deviceInstanceSelector.toNat % 16) classInstances virtualInstances),
    i < bootOrder.length

theorem allInstances_virtualRemaining {classInstances virtualInstances : List UInt16} :
    (allInstances classInstances virtualInstances).virtualRemaining = [] ↔
      virtualInstances = [] ∨ classInstances = [] ∧ virtualInstances.length = 1 := by
  unfold allInstances
  split
  · next h =>
    simp [h]
  · next h =>
    rw [not_not.mp h]
    cases virtualInstances with
    | nil => simp
    | cons a rest => cases rest <;> simp

theorem selectedOrder_nil (hnone : classInstances classes requested virtual bootOrder = [] ∧
    virtualInstances classes virtual bootOrder = []) :
    selectedOrder classes requested virtual requestedInstance bootOrder = bootOrder := by
  obtain ⟨hclass, hvirtual⟩ := hnone
  unfold classInstances at hclass
  unfold virtualInstances at hvirtual
  unfold selectedOrder requestedOrder
  rw [hclass, hvirtual, if_pos (by simp [sorted, Nat.eq_zero_or_pos]), arrange_eq_self_iff, hclass,
    hvirtual]
  exact ⟨rfl, rfl⟩

variable (classes) in
theorem processIPMIBootOrderUpdates_instances {ipv6 : Bool} (behind : UInt16) {request : Request}
    {store : Store} (hvalid : request.bootFlagValid = true)
    (hselect : selection ipv6 request.bootDeviceSelector = .bootClass requested virtual)
    (horder : store.bootOrder = some bootOrder) :
    processIPMIBootOrderUpdates ⟨classes.lookup, ipv6, .success⟩ behind (some request) store =
      processInstances ⟨classes.lookup, ipv6, .success⟩ behind request virtual store bootOrder
        (classInstances classes requested virtual bootOrder,
          virtualInstances classes virtual bootOrder) := by
  unfold processIPMIBootOrderUpdates
  simp only [hvalid, hselect, horder, findInstances_eq, not_true_eq_false, if_false]
  rfl

theorem mem_touches_lt {behind : UInt16}
    (hsome : ¬ (classInstances classes requested virtual bootOrder = [] ∧
      virtualInstances classes virtual bootOrder = []))
    (hmoves : selectedOrder classes requested virtual requestedInstance bootOrder ≠ bootOrder →
      (desired requestedInstance (classInstances classes requested virtual bootOrder)
        (virtualInstances classes virtual bootOrder)).requestedInstance = 0 →
      (desired requestedInstance (classInstances classes requested virtual bootOrder)
        (virtualInstances classes virtual bootOrder)).virtualRemaining = []) :
    ∀ i ∈ touches behind bootOrder (classInstances classes requested virtual bootOrder)
      (virtualInstances classes virtual bootOrder)
      (desired requestedInstance (classInstances classes requested virtual bootOrder)
        (virtualInstances classes virtual bootOrder)), i < bootOrder.length := by
  have hmodify := willModifyBootOrder_iff requestedInstance hsome
  have hlength : (virtualInstances classes virtual bootOrder).length +
      (classInstances classes requested virtual bootOrder).length ≤ bootOrder.length := by
    have hall := length_arrange (classes.is virtual) (classes.is (some requested)) bootOrder
    simp only [arrange, List.length_append] at hall
    unfold virtualInstances classInstances
    omega
  intro i hi
  unfold touches at hi
  rw [if_neg hsome] at hi
  rcases List.mem_append.mp hi with hi | hi
  · exact List.mem_range.mp hi
  · rcases List.mem_append.mp hi with hi | hi
    · split at hi
      · exact Nat.lt_of_lt_of_le (List.mem_range.mp hi) hlength
      · cases hi
    · split at hi
      · next h =>
        exact reorderedTouches_lt (desired_mem_bootOrder requestedInstance hsome) (hmoves (hmodify.mp h)) i hi
      · cases hi

/-- The search for virtual instances reads the element behind the order. -/
theorem lawful_iff (ipv6 : Bool) (behind : UInt16) (request : Request) (store : Store)
    (hvalid : request.bootFlagValid = true)
    (hselect : selection ipv6 request.bootDeviceSelector = .bootClass requested virtual)
    (horder : store.bootOrder = some bootOrder) (hnodup : bootOrder.Nodup) :
    Lawful ⟨classes.lookup, ipv6, .success⟩ behind request store
        (classInstances classes requested virtual bootOrder)
        (virtualInstances classes virtual bootOrder) bootOrder
        (selectedOrder classes requested virtual (request.deviceInstanceSelector.toNat % 16)
          bootOrder) ↔
      selectedOrder classes requested virtual (request.deviceInstanceSelector.toNat % 16)
          bootOrder = bootOrder ∨
        (1 ≤ request.deviceInstanceSelector.toNat % 16 ∧
          request.deviceInstanceSelector.toNat % 16 ≤
            (virtualInstances classes virtual bootOrder).length +
              (classInstances classes requested virtual bootOrder).length) ∨
        virtualInstances classes virtual bootOrder = [] ∨
        classInstances classes requested virtual bootOrder = [] ∧
          (virtualInstances classes virtual bootOrder).length = 1 := by
  have hprocess := processIPMIBootOrderUpdates_instances classes behind hvalid hselect horder
  generalize hinstance : request.deviceInstanceSelector.toNat % 16 = requestedInstance
  by_cases hsome : classInstances classes requested virtual bootOrder = [] ∧
      virtualInstances classes virtual bootOrder = []
  · refine iff_of_true ⟨?_, ?_⟩ (.inl (selectedOrder_nil hsome))
    · rw [hprocess, if_pos (selectedOrder_nil hsome)]
      unfold processInstances
      simp only [if_pos hsome]
      exact ordersWritten_acknowledge store store.bootToUiApp
    · intro i hi
      unfold touches at hi
      rw [if_pos hsome, List.append_nil] at hi
      exact List.mem_range.mp hi
  · have hwritten := ordersWritten_processInstances classes ipv6 behind request virtual store
      bootOrder hsome
    have hmodify := willModifyBootOrder_iff requestedInstance hsome
    simp only [hinstance] at hwritten
    have hcases := desired_cases requestedInstance
      (classInstances classes requested virtual bootOrder)
      (virtualInstances classes virtual bootOrder)
    refine ⟨fun ⟨hlaw, hinside⟩ => ?_, fun hcondition => ?_⟩
    · by_contra hnot
      obtain ⟨hchanged, hmany, hvirtual⟩ := not_or.mp hnot |>.imp_right not_or.mp
      obtain ⟨-, hall⟩ := hcases.resolve_right fun h => hmany (by omega)
      rw [hprocess, hwritten, if_pos (hmodify.mpr hchanged), if_neg hchanged] at hlaw
      have hreordered := Option.toList_eq_singleton_iff.mp hlaw
      have hremaining := mt allInstances_virtualRemaining.mp hvirtual
      have hreached := length_mem_reorderedTouches (desired_mem_bootOrder requestedInstance hsome)
        (by rw [hall]; exact allInstances_requestedInstance _ _) (by rw [hall]; exact hremaining)
        hreordered
      refine Nat.lt_irrefl _ (hinside bootOrder.length ?_)
      unfold touches
      rw [if_neg hsome, hinstance, if_pos (hmodify.mpr hchanged)]
      exact List.mem_append_right _ (List.mem_append_right _ hreached)
    · have hmoves : selectedOrder classes requested virtual requestedInstance bootOrder ≠
          bootOrder → (desired requestedInstance (classInstances classes requested virtual bootOrder)
            (virtualInstances classes virtual bootOrder)).requestedInstance = 0 →
          (desired requestedInstance (classInstances classes requested virtual bootOrder)
            (virtualInstances classes virtual bootOrder)).virtualRemaining = [] := by
        intro hchanged hzero
        rcases hcases with ⟨hcount, hall⟩ | ⟨-, hone, -⟩
        · rw [hall]
          exact allInstances_virtualRemaining.mpr
            ((hcondition.resolve_left hchanged).resolve_left (by omega))
        · exact absurd hzero hone
      refine ⟨?_, by rw [hinstance]; exact mem_touches_lt hsome hmoves⟩
      rw [hprocess, hwritten]
      by_cases hchanged : selectedOrder classes requested virtual requestedInstance bootOrder =
          bootOrder
      · rw [if_neg (fun h => hmodify.mp h hchanged), if_pos hchanged]
      · rw [if_pos (hmodify.mpr hchanged), if_neg hchanged,
          reordered_selected hnodup hsome (hmoves hchanged)]
        rfl

/-- Option 2 is a USB device and option 3 a virtual one. -/
def usbClasses : Classes
  | 2 => some .usb
  | 3 => some .virtual
  | _ => none

def usbRequest : Request := ⟨true, false, 0xF, 0⟩

def usbStore : Store := ⟨some [1, 2, 3], none, none, false, 0⟩

/-- The first device of the class, which is the virtual one. -/
def firstRequest : Request := ⟨true, false, 0xF, 1⟩

theorem lawful_first : Lawful ⟨usbClasses.lookup, false, .success⟩ 7 firstRequest usbStore
    (classInstances usbClasses .usb (some .virtual) [1, 2, 3])
    (virtualInstances usbClasses (some .virtual) [1, 2, 3]) [1, 2, 3]
    (selectedOrder usbClasses .usb (some .virtual) 1 [1, 2, 3]) :=
  (lawful_iff false 7 firstRequest usbStore rfl rfl rfl (by decide)).mpr (.inr (.inl (by decide)))

theorem reads_behind : ¬ Lawful ⟨usbClasses.lookup, false, .success⟩ 7 usbRequest usbStore
    (classInstances usbClasses .usb (some .virtual) [1, 2, 3])
    (virtualInstances usbClasses (some .virtual) [1, 2, 3]) [1, 2, 3]
    (selectedOrder usbClasses .usb (some .virtual) 0 [1, 2, 3]) := fun h =>
  absurd (h.inside 3 (by decide)) (by decide)

end BootOrder
