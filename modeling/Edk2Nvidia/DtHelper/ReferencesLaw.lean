import Mathlib.Data.Set.Finite.List
import Mathlib.Order.Interval.Finset.Basic
import Mathlib.Data.Int.Interval
import Edk2Nvidia.DtHelper.References

/-! A reference is resolved when following it comes to an end, and that is when nothing is met twice
on the way. -/
namespace DtHelper
open Parse (CString)
open DeviceTree (Properties deviceTreeGetNodePropertyValue64 deviceTreeGetNodeProperty defaultCells)

/-! What the functions are for. -/
namespace Tree
variable (tree : Tree)

def parentOf (i : Nat) : Option Nat := tree.nodes[i]?.bind Node.parent

inductive Within : Nat → Nat → Prop
  | self (i : Nat) : Within i i
  | under {p q i : Nat} (hparent : tree.parentOf i = some q) (h : Within p q) : Within p i

/-- A node is below the one in front of it, or beside that one or a node above it. -/
def Nested : Prop :=
  ∀ i, i + 1 < tree.nodes.length → ∃ p, tree.parentOf (i + 1) = some p ∧ tree.Within p i

/-- From a node to the one its interrupts go to next. -/
inductive Link : Nat → Nat → Prop
  | reference {i j : Nat} {phandle : UInt64}
      (hphandle : deviceTreeGetNodePropertyValue64 (tree.properties i) "interrupt-parent"
        = .ok phandle)
      (hsmall : phandle < 0xFFFFFFFF)
      (hnode : deviceTreeGetNodePHandle (tree.properties j) = .ok phandle.toUInt32)
      (hlt : j < tree.nodes.length) : Link i j
  | parent {i j : Nat} (hnone : tree.properties i "interrupt-parent" = none)
      (hparent : tree.parentOf i = some j) : Link i j

inductive Reaches : Nat → Nat → Prop
  | here {i j : Nat} (hlink : Link tree i j)
      (hcontroller : (tree.properties j "interrupt-controller").isSome) : Reaches i j
  | on {i j k : Nat} (hlink : Link tree i k)
      (hcontroller : tree.properties k "interrupt-controller" = none) (h : Reaches k j) :
      Reaches i j

inductive Descends : Nat → List (List UInt8) → Nat → Prop
  | here (i : Nat) : Descends i [] i
  | down {i j k : Nat} {name : List UInt8} {rest : List (List UInt8)}
      (hchild : fdtSubnodeOffsetNameLen tree i name = some j) (h : Descends j rest k) :
      Descends i (name :: rest) k

/-- The node of a path, after the alias in front of it is replaced by what it stands for. -/
inductive HasPath : CString → Nat → Prop
  | absolute {path : CString} {i : Nat} (hslash : path.chars.head? = some slash)
      (h : tree.Descends 0 (components path.chars) i) : HasPath path i
  | alias {path : CString} {aliases i j : Nat} {data : List UInt8}
      (hslash : path.chars.head? ≠ some slash)
      (haliases : tree.Descends 0 [aliasesName] aliases)
      (hdata : tree.properties aliases (propertyName (firstComponent path)) = some data)
      (htarget : HasPath (propertyString data) i)
      (h : tree.Descends i (components (behindFirst path)) j) : HasPath path j

end Tree

variable {tree : Tree}

/-! The parent of a node. -/

theorem parentOf_lt {i p : Nat} (h : tree.parentOf i = some p) :
    p < i ∧ i < tree.nodes.length := by
  unfold Tree.parentOf at h
  obtain ⟨node, hnode, hparent⟩ := Option.bind_eq_some_iff.mp h
  have hlt := tree.parent_lt i node hnode
  rw [hparent] at hlt
  exact ⟨hlt, (List.getElem?_eq_some_iff.mp hnode).1⟩

theorem parentOf_exists {i : Nat} (hi : i < tree.nodes.length) (hpos : i ≠ 0) :
    ∃ p, tree.parentOf i = some p := by
  unfold Tree.parentOf
  have hlt := tree.parent_lt i tree.nodes[i] (List.getElem?_eq_getElem hi)
  cases hparent : tree.nodes[i].parent with
  | none =>
    rw [hparent] at hlt
    exact absurd hlt hpos
  | some p => exact ⟨p, by rw [List.getElem?_eq_getElem hi]; exact hparent⟩

theorem depthFrom_eq {fuel fuel' i : Nat} (h : i ≤ fuel) (h' : i ≤ fuel') :
    tree.depthFrom fuel i = tree.depthFrom fuel' i := by
  have hroot : tree.nodes[0]?.bind Node.parent = none := by
    cases hparent : tree.nodes[0]?.bind Node.parent with
    | none => rfl
    | some p => exact absurd (parentOf_lt (i := 0) hparent).1 (Nat.not_lt_zero p)
  induction fuel generalizing i fuel' with
  | zero =>
    cases Nat.le_zero.mp h
    cases fuel' with
    | zero => rfl
    | succ fuel' => simp only [Tree.depthFrom, hroot]
  | succ fuel ih =>
    cases fuel' with
    | zero =>
      cases Nat.le_zero.mp h'
      simp only [Tree.depthFrom, hroot]
    | succ fuel' =>
      unfold Tree.depthFrom
      cases hparent : tree.nodes[i]?.bind Node.parent with
      | none => rfl
      | some p =>
        have hlt := (parentOf_lt hparent).1
        have hrec : tree.depthFrom fuel p = tree.depthFrom fuel' p := ih (by omega) (by omega)
        simp only [hrec]

theorem depth_parent {i p : Nat} (h : tree.parentOf i = some p) :
    tree.depth i = tree.depth p + 1 := by
  have hlt := (parentOf_lt h).1
  obtain ⟨k, rfl⟩ : ∃ k, i = k + 1 := ⟨i - 1, by omega⟩
  unfold Tree.parentOf at h
  rw [Tree.depth, Tree.depthFrom, h]
  simp only
  rw [Tree.depth, depthFrom_eq (by omega) (Nat.le_refl p)]

theorem Tree.Within.trans {p q i : Nat} (hpq : tree.Within p q) (hqi : tree.Within q i) :
    tree.Within p i := by
  induction hqi with
  | self => exact hpq
  | under hparent _ ih => exact .under hparent ih

theorem Tree.Within.depth_le {p i : Nat} (h : tree.Within p i) : p = i ∨ tree.depth p < tree.depth i := by
  induction h with
  | self => exact .inl rfl
  | under hparent _ ih =>
    rw [depth_parent hparent]
    rcases ih with rfl | ih
    · exact .inr (Nat.lt_succ_self _)
    · exact .inr (Nat.lt_succ_of_lt ih)

/-- What lies between a node and its parent lies below the parent. -/
theorem within_between (hnested : tree.Nested) {i p : Nat} (hparent : tree.parentOf i = some p)
    (k : Nat) (hk : p + k ≤ i) : tree.Within p (i - k) := by
  induction k with
  | zero => exact .under hparent (.self p)
  | succ k ih =>
    have hlt := (parentOf_lt hparent).2
    have hwithin := ih (by omega)
    obtain ⟨q, hq, hfront⟩ := hnested (i - (k + 1)) (by omega)
    rw [show i - (k + 1) + 1 = i - k by omega] at hq
    cases hwithin with
    | self => omega
    | under hparent' habove =>
      rw [hq] at hparent'
      cases hparent'
      exact habove.trans hfront

theorem foldl_logNode (hnested : tree.Nested) {i p base entries : Nat}
    (hparent : tree.parentOf i = some p) (hbase : base ≤ tree.depth p)
    (hentries : tree.depth p - base < entries) (array : Nat → Int) {m : Nat} (hm : p < m)
    (hmi : m ≤ i + 1) :
    (List.range m).foldl (logNode tree base entries) array (tree.depth p - base) = Int.ofNat p := by
  induction m with
  | zero => omega
  | succ m ih =>
    rw [List.range_succ, List.foldl_append]
    show logNode tree base entries _ m _ = _
    rw [logNode]
    by_cases heq : m = p
    · rw [heq, if_pos ⟨hbase, hentries, rfl⟩]
    · have hwithin := within_between hnested hparent (i - m) (by omega)
      rw [show i - (i - m) = m by omega] at hwithin
      have hdepth := hwithin.depth_le
      rw [if_neg (by omega)]
      exact ih (by omega) (by omega)

theorem depth_zero {p : Nat} (hp : p < tree.nodes.length) (h : tree.depth p = 0) : p = 0 := by
  by_contra hpos
  obtain ⟨q, hq⟩ := parentOf_exists hp hpos
  rw [depth_parent hq] at h
  cases h

theorem getNodeHierarchyInfo_eq {i entries nodeDepth base : Nat} (hi : i < tree.nodes.length)
    (array : Nat → Int)
    (hbase : (if entries < nodeDepth then nodeDepth - entries - 1 else 1) = base) :
    getNodeHierarchyInfo tree i array entries nodeDepth =
      ⟨if tree.depth i < base ∨ entries ≤ tree.depth i - base then .bufferTooSmall else .success,
        (List.range (i + 1)).foldl (logNode tree base entries) array, tree.depth i⟩ := by
  unfold getNodeHierarchyInfo
  rw [if_neg (by omega), hbase, Int.toNat_natCast, if_pos hi, Nat.min_eq_left (by omega)]

theorem deviceTreeGetParent_eq (hnested : tree.Nested) (stack : Nat → Int) {i p : Nat}
    (hparent : tree.parentOf i = some p) :
    deviceTreeGetParent tree stack i =
      if tree.depth i ≤ nodeHierarchyDepthGuess then .ok (Int.ofNat p) else .error .deviceError := by
  have hlt := parentOf_lt hparent
  have hdepth := depth_parent hparent
  have hfirst := getNodeHierarchyInfo_eq hlt.2 stack
    (show (if nodeHierarchyDepthGuess < 0 then 0 - nodeHierarchyDepthGuess - 1 else 1) = 1 from rfl)
  have hguess : nodeHierarchyDepthGuess = 32 := rfl
  unfold deviceTreeGetParent
  by_cases hdeep : tree.depth i ≤ nodeHierarchyDepthGuess
  · have hstatus : (if tree.depth i < 1 ∨ nodeHierarchyDepthGuess ≤ tree.depth i - 1 then
        EfiStatus.bufferTooSmall else .success) = .success := if_neg (by omega)
    rw [if_pos hdeep]
    simp only [hfirst, hstatus, reduceCtorEq, if_false, ne_eq, not_true_eq_false]
    by_cases hone : tree.depth i = 1
    · have hroot : tree.depth p = 0 := by omega
      rw [if_pos hone, depth_zero (by omega) hroot]
      rfl
    · rw [if_neg hone, if_neg (by omega), show tree.depth i - 2 = tree.depth p - 1 by omega,
        foldl_logNode hnested hparent (by omega) (by omega) stack (by omega) (Nat.le_refl _)]
  · have hstatus : (if tree.depth i < 1 ∨ nodeHierarchyDepthGuess ≤ tree.depth i - 1 then
        EfiStatus.bufferTooSmall else .success) = .bufferTooSmall := if_pos (by omega)
    have hlast := fun array : Nat → Int => getNodeHierarchyInfo_eq hlt.2 array
      (show (if nodeHierarchyDepthGuess < tree.depth i then
        tree.depth i - nodeHierarchyDepthGuess - 1 else 1) = tree.depth i - nodeHierarchyDepthGuess - 1
        from if_pos (by omega))
    have hagain : (if tree.depth i < tree.depth i - nodeHierarchyDepthGuess - 1 ∨
        nodeHierarchyDepthGuess ≤ tree.depth i - (tree.depth i - nodeHierarchyDepthGuess - 1) then
          EfiStatus.bufferTooSmall else .success) = .bufferTooSmall := if_pos (by omega)
    rw [if_neg hdeep]
    simp only [hfirst, hstatus, if_true, hlast, hagain, ne_eq, reduceCtorEq, not_false_eq_true]

theorem deviceTreeGetParent_outside (stack : Nat → Int) {nodeOffset : Int}
    (h : nodeOffset < 0 ∨ tree.nodes.length ≤ nodeOffset.toNat) :
    deviceTreeGetParent tree stack nodeOffset = .error .deviceError := by
  unfold deviceTreeGetParent getNodeHierarchyInfo
  by_cases hneg : nodeOffset < 0
  · simp [hneg]
  · simp [hneg, show ¬ (nodeOffset.toNat < tree.nodes.length) by omega]

/-! Interrupt parents. -/

/-- One lookup: on to the parent, or the end. -/
def interruptStep (tree : Tree) (stack : Nat → Int) (nodeOffset : Int) :
    Int ⊕ Except EfiStatus Int :=
  match interruptParent tree stack nodeOffset with
  | .error status => .inr (.error status)
  | .ok parent => if isInterruptController tree parent then .inr (.ok parent) else .inl parent

theorem getInterruptParentOffset_eq (stack : Nat → Int) (fuel : Nat) (nodeOffset : Int) :
    getInterruptParentOffset tree stack fuel nodeOffset =
      Chain.follow (interruptStep tree stack) fuel nodeOffset := by
  induction fuel generalizing nodeOffset with
  | zero => rfl
  | succ fuel ih =>
    rw [getInterruptParentOffset, Chain.follow, interruptStep]
    cases interruptParent tree stack nodeOffset with
    | error status => rfl
    | ok parent =>
      simp only
      split
      · rfl
      · exact ih parent

theorem value64_notFound {properties : Properties}
    (h : deviceTreeGetNodePropertyValue64 properties "interrupt-parent" = .error .notFound) :
    properties "interrupt-parent" = none := by
  unfold deviceTreeGetNodePropertyValue64 deviceTreeGetNodeProperty at h
  cases hproperty : properties "interrupt-parent" with
  | none => rfl
  | some data =>
    simp only [hproperty] at h
    split at h <;> cases h

theorem properties_outside {nodeOffset : Int}
    (h : nodeOffset < 0 ∨ tree.nodes.length ≤ nodeOffset.toNat) (name : String) :
    tree.properties nodeOffset name = none := by
  unfold Tree.properties Tree.node?
  by_cases hneg : nodeOffset < 0
  · rw [if_pos hneg]
    rfl
  · rw [if_neg hneg, List.getElem?_eq_none (by omega)]
    rfl

/-- The phandle of a node, or what is no node where it belongs to none. -/
theorem nodeByPHandle_cases (tree : Tree) (phandle : UInt32) :
    (deviceTreeGetNodeByPHandle tree phandle).2 = fdtErrNotFound ∨
      ∃ j < tree.nodes.length, (deviceTreeGetNodeByPHandle tree phandle).2 = Int.ofNat j ∧
        deviceTreeGetNodePHandle (tree.properties j) = .ok phandle := by
  have hfinds := findsPHandle tree phandle
  by_cases hsuccess : (deviceTreeGetNodeByPHandle tree phandle).1 = .success
  · obtain ⟨j, hj, heq, hphandle, -⟩ := hfinds.2 hsuccess
    exact .inr ⟨j, hj, heq, hphandle⟩
  · refine .inl ?_
    have hnone : (Cursor.search (checkPHandle tree phandle) .success (tree.following (-1))).2 =
        none := by
      cases hfound : (Cursor.search (checkPHandle tree phandle) .success
          (tree.following (-1))).2 with
      | none => rfl
      | some a =>
        rcases Cursor.search_spec (checkPHandle tree phandle) .success (tree.following (-1)) with
          ⟨-, b, -, -, -, hb, hsearch⟩ | ⟨-, hsearch⟩
        · refine absurd ?_ hsuccess
          unfold deviceTreeGetNodeByPHandle
          rw [hsearch]
          rcases checkPHandle_cases tree phandle b with ⟨hcheck, -⟩ | ⟨hcheck, -, -⟩
          · rw [hcheck]
          · rw [hcheck] at hb
            cases hb
        · rw [hsearch] at hfound
          cases hfound
    unfold deviceTreeGetNodeByPHandle
    simp only [hnone]
    rfl

/-- A lookup ends at a node that is linked, or at what is no node for a phandle that is not found. -/
theorem interruptParent_ok (hnested : tree.Nested) {stack : Nat → Int} {nodeOffset parent : Int}
    (h : interruptParent tree stack nodeOffset = .ok parent) :
    parent = fdtErrNotFound ∨ ∃ i j, nodeOffset = Int.ofNat i ∧ parent = Int.ofNat j ∧
      j < tree.nodes.length ∧ tree.Link i j := by
  unfold interruptParent at h
  split at h
  · cases h
  rename_i hpos
  have hinside : ∀ {name data}, tree.properties nodeOffset name = some data →
      ∃ i, nodeOffset = Int.ofNat i := by
    intro name data hdata
    refine ⟨nodeOffset.toNat, (Int.toNat_of_nonneg ?_).symm⟩
    by_contra hneg
    rw [properties_outside (.inl (by omega))] at hdata
    cases hdata
  split at h
  · rename_i phandle hphandle
    split at h
    · cases h
    rename_i hsmall
    cases h
    rcases nodeByPHandle_cases tree phandle.toUInt32 with heq | ⟨j, hj, heq, hnode⟩
    · exact .inl heq
    · have hsome : ∃ data, tree.properties nodeOffset "interrupt-parent" = some data := by
        cases hproperty : tree.properties nodeOffset "interrupt-parent" with
        | some data => exact ⟨data, rfl⟩
        | none =>
          unfold deviceTreeGetNodePropertyValue64 deviceTreeGetNodeProperty at hphandle
          rw [hproperty] at hphandle
          simp [defaultCells] at hphandle
      obtain ⟨data, hdata⟩ := hsome
      obtain ⟨i, rfl⟩ := hinside hdata
      exact .inr ⟨i, j, rfl, heq, hj, .reference hphandle (UInt64.not_le.mp hsmall) hnode hj⟩
  · rename_i hnotFound
    have hnone := value64_notFound hnotFound
    by_cases houtside : nodeOffset < 0 ∨ tree.nodes.length ≤ nodeOffset.toNat
    · rw [deviceTreeGetParent_outside stack houtside] at h
      cases h
    obtain ⟨i, rfl⟩ : ∃ i : Nat, nodeOffset = i :=
      ⟨nodeOffset.toNat, (Int.toNat_of_nonneg (by omega)).symm⟩
    have hexists : ∃ p, tree.parentOf i = some p := parentOf_exists (by omega) (by omega)
    obtain ⟨p, hp⟩ := hexists
    rw [deviceTreeGetParent_eq hnested stack hp] at h
    split at h
    · cases h
      have hlt := parentOf_lt hp
      exact .inr ⟨i, p, rfl, rfl, by omega, .parent hnone hp⟩
    · cases h
  · cases h

/-- The search ends, and where it succeeds it is at the controller the links reach. -/
def FindsInterruptParent (tree : Tree) (nodeOffset : Int)
    (run : Nat → Option (Except EfiStatus Int)) : Prop :=
  (∃ fuel result, run fuel = some result) ∧
    ∀ fuel parent, run fuel = some (.ok parent) →
      ∃ i j, nodeOffset = Int.ofNat i ∧ parent = Int.ofNat j ∧ tree.Reaches i j

theorem interruptStep_cases (hnested : tree.Nested) (stack : Nat → Int) (nodeOffset : Int) :
    (∃ status, interruptStep tree stack nodeOffset = .inr (.error status)) ∨
      interruptStep tree stack nodeOffset = .inl fdtErrNotFound ∨
      ∃ i j, nodeOffset = Int.ofNat i ∧ j < tree.nodes.length ∧ tree.Link i j ∧
        ((tree.properties j "interrupt-controller").isSome ∧
            interruptStep tree stack nodeOffset = .inr (.ok (Int.ofNat j)) ∨
          tree.properties j "interrupt-controller" = none ∧
            interruptStep tree stack nodeOffset = .inl (Int.ofNat j)) := by
  unfold interruptStep
  cases hparent : interruptParent tree stack nodeOffset with
  | error status => exact .inl ⟨status, rfl⟩
  | ok parent =>
    rcases interruptParent_ok hnested hparent with rfl | ⟨i, j, rfl, rfl, hj, hlink⟩
    · refine .inr (.inl (if_neg ?_))
      rw [isInterruptController, properties_outside (.inl (by decide))]
      exact Bool.false_ne_true
    · refine .inr (.inr ⟨i, j, rfl, hj, hlink, ?_⟩)
      cases hcontroller : tree.properties j "interrupt-controller" with
      | some data =>
        refine .inl ⟨rfl, if_pos ?_⟩
        show (tree.properties (j : Int) "interrupt-controller").isSome = true
        rw [hcontroller]
        rfl
      | none =>
        refine .inr ⟨rfl, if_neg ?_⟩
        show ¬ (tree.properties (j : Int) "interrupt-controller").isSome = true
        rw [hcontroller]
        exact Bool.false_ne_true

theorem findsInterruptParent_iff (hnested : tree.Nested) (stack : Nat → Int) (nodeOffset : Int) :
    FindsInterruptParent tree nodeOffset
        (fun fuel => getInterruptParentOffset tree stack fuel nodeOffset) ↔
      ¬ Chain.Returns (interruptStep tree stack) nodeOffset := by
  have hplaces : ∀ n b, Chain.place (interruptStep tree stack) nodeOffset n = some b →
      b ∈ insert nodeOffset (Set.Icc fdtErrNotFound (tree.nodes.length : Int)) := by
    intro n b hb
    cases n with
    | zero =>
      cases hb
      exact Set.mem_insert _ _
    | succ n =>
      obtain ⟨a, -, hstep⟩ := Option.bind_eq_some_iff.mp hb
      refine Set.mem_insert_of_mem _ ?_
      rcases interruptStep_cases hnested stack a with
        ⟨status, h⟩ | h | ⟨i, j, -, hj, -, ⟨-, h⟩ | ⟨-, h⟩⟩
      · rw [h] at hstep
        cases hstep
      · rw [h] at hstep
        cases hstep
        exact ⟨le_refl _, show (-1 : Int) ≤ _ by omega⟩
      · rw [h] at hstep
        cases hstep
      · rw [h] at hstep
        cases hstep
        exact ⟨show (-1 : Int) ≤ (j : Int) by omega, show (j : Int) ≤ _ by omega⟩
  have hends := Chain.ends_iff ((Set.finite_Icc _ _).insert nodeOffset) hplaces
  unfold FindsInterruptParent
  simp only [getInterruptParentOffset_eq]
  rw [hends]
  refine and_iff_left ?_
  intro fuel parent hfollow
  refine Chain.follow_induct (P := fun nodeOffset result => ∀ parent, result = Except.ok parent →
    ∃ i j, nodeOffset = Int.ofNat i ∧ parent = Int.ofNat j ∧ tree.Reaches i j) ?_ ?_ hfollow parent rfl
  · rintro a result hstep parent rfl
    rcases interruptStep_cases hnested stack a with
      ⟨status, h⟩ | h | ⟨i, j, rfl, hj, hlink, ⟨hcontroller, h⟩ | ⟨-, h⟩⟩
    · rw [h] at hstep
      cases hstep
    · rw [h] at hstep
      cases hstep
    · rw [h] at hstep
      cases hstep
      exact ⟨i, j, rfl, rfl, .here hlink hcontroller⟩
    · rw [h] at hstep
      cases hstep
  · intro a next result hstep ih parent hresult
    obtain ⟨k, j, rfl, rfl, hreaches⟩ := ih parent hresult
    rcases interruptStep_cases hnested stack a with
      ⟨status, h⟩ | h | ⟨i, m, rfl, hm, hlink, ⟨-, h⟩ | ⟨hcontroller, h⟩⟩
    · rw [h] at hstep
      cases hstep
    · rw [h] at hstep
      cases hstep
    · rw [h] at hstep
      cases hstep
    · rw [h] at hstep
      cases hstep
      exact ⟨i, j, rfl, rfl, .on hlink hcontroller hreaches⟩

/-! Paths. -/

theorem descend_ok {i j : Nat} {names : List (List UInt8)} :
    descend tree i names = .ok j ↔ tree.Descends i names j := by
  induction names generalizing i with
  | nil =>
    constructor
    · rintro ⟨⟩
      exact .here _
    · rintro ⟨⟩
      rfl
  | cons name rest ih =>
    unfold descend
    cases hchild : fdtSubnodeOffsetNameLen tree i name with
    | none =>
      constructor
      · nofun
      · intro h
        cases h with
        | down hother _ =>
          rw [hchild] at hother
          cases hother
    | some next =>
      simp only [ih]
      constructor
      · exact .down hchild
      · intro h
        cases h with
        | down hother h =>
          rw [hchild] at hother
          cases hother
          exact h

/-- One alias: on to what it stands for, or the end. -/
def aliasStep (tree : Tree) (stack : CString → CString) (path : CString) : CString ⊕ Unit :=
  if path.chars.head? = some slash then .inr ()
  else
    match aliasPath tree stack path with
    | .error _ => .inr ()
    | .ok target => .inl target

theorem getNodeByPath_none (stack : CString → CString) (fuel : Nat) (path : CString) :
    deviceTreeGetNodeByPath tree stack fuel path = none ↔
      Chain.follow (aliasStep tree stack) fuel path = none := by
  induction fuel generalizing path with
  | zero => exact ⟨fun _ => rfl, fun _ => rfl⟩
  | succ fuel ih =>
    rw [deviceTreeGetNodeByPath, Chain.follow, aliasStep]
    split
    · exact ⟨by intros; contradiction, by intros; contradiction⟩
    cases aliasPath tree stack path with
    | error status => exact ⟨by intros; contradiction, by intros; contradiction⟩
    | ok target =>
      simp only [← ih]
      cases deviceTreeGetNodeByPath tree stack fuel target with
      | none => exact ⟨fun _ => rfl, fun _ => rfl⟩
      | some result =>
        cases result with
        | error status => exact ⟨by intros; contradiction, by intros; contradiction⟩
        | ok current => exact ⟨by intros; contradiction, by intros; contradiction⟩

/-- The alias in front of each path on the way fits into the name buffer. -/
def Short (tree : Tree) (stack : CString → CString) (path : CString) : Prop :=
  ∀ n q, Chain.place (aliasStep tree stack) path n = some q → q.chars.head? ≠ some slash →
    (firstComponent q).length < deviceTreeMaxNameLength

theorem aliasStep_inl {stack : CString → CString} {path target : CString}
    (h : aliasStep tree stack path = .inl target) :
    path.chars.head? ≠ some slash ∧ ∃ aliases data, tree.Descends 0 [aliasesName] aliases ∧
      tree.properties aliases (propertyName (aliasName stack path)) = some data ∧
        target = propertyString data := by
  unfold aliasStep at h
  split at h
  · cases h
  rename_i hslash
  refine ⟨hslash, ?_⟩
  unfold aliasPath at h
  cases haliases : descend tree 0 [aliasesName] with
  | error status =>
    rw [haliases] at h
    cases h
  | ok aliases =>
    simp only [haliases] at h
    cases hdata : tree.properties aliases (propertyName (aliasName stack path)) with
    | none =>
      simp only [hdata] at h
      cases h
    | some data =>
      simp only [hdata] at h
      cases h
      exact ⟨aliases, data, descend_ok.mp haliases, hdata, rfl⟩

theorem getNodeByPath_sound {stack : CString → CString} {fuel : Nat} {path : CString} {i : Nat}
    (hshort : Short tree stack path)
    (h : deviceTreeGetNodeByPath tree stack fuel path = some (.ok i)) : tree.HasPath path i := by
  induction fuel generalizing path i with
  | zero => cases h
  | succ fuel ih =>
    rw [deviceTreeGetNodeByPath] at h
    by_cases hslash : path.chars.head? = some slash
    · rw [if_pos hslash] at h
      exact .absolute hslash (descend_ok.mp (Option.some.inj h))
    rw [if_neg hslash] at h
    cases htarget : aliasPath tree stack path with
    | error status =>
      rw [htarget] at h
      cases h
    | ok target =>
      have hstep : aliasStep tree stack path = .inl target := by
        rw [aliasStep, if_neg hslash, htarget]
      obtain ⟨-, aliases, data, haliases, hdata, rfl⟩ := aliasStep_inl hstep
      rw [aliasName, if_pos (hshort 0 path rfl hslash)] at hdata
      simp only [htarget] at h
      cases hcurrent : deviceTreeGetNodeByPath tree stack fuel (propertyString data) with
      | none =>
        rw [hcurrent] at h
        cases h
      | some result =>
        cases result with
        | error status =>
          rw [hcurrent] at h
          cases h
        | ok current =>
          simp only [hcurrent] at h
          refine .alias hslash haliases hdata (ih ?_ hcurrent) (descend_ok.mp (Option.some.inj h))
          intro n q hq
          refine hshort (n + 1) q ?_
          rw [Chain.place_succ, hstep]
          exact hq

/-- The search ends, and where it succeeds it is at the node of the path. -/
def FindsPath (tree : Tree) (path : CString) (run : Nat → Option (Except EfiStatus Nat)) : Prop :=
  (∃ fuel result, run fuel = some result) ∧
    ∀ fuel i, run fuel = some (.ok i) → tree.HasPath path i

theorem finite_uint8 : Finite UInt8 :=
  Finite.of_injective UInt8.toFin fun _ _ h => UInt8.toFin_inj.mp h

theorem findsPath_iff {stack : CString → CString} {path : CString}
    (hshort : Short tree stack path) :
    FindsPath tree path (fun fuel => deviceTreeGetNodeByPath tree stack fuel path) ↔
      ¬ Chain.Returns (aliasStep tree stack) path := by
  have := finite_uint8
  have hnames : {name : List UInt8 | name.length < deviceTreeMaxNameLength}.Finite :=
    List.finite_length_lt UInt8 deviceTreeMaxNameLength
  -- There are finitely many names that fit, and each stands for one path at most.
  let target : List UInt8 → CString := fun name =>
    (((descend tree 0 [aliasesName]).toOption.bind fun aliases =>
      tree.properties aliases (propertyName name)).map propertyString).getD path
  have hplaces : ∀ n q, Chain.place (aliasStep tree stack) path n = some q →
      q ∈ insert path
        (Set.image target {name : List UInt8 | name.length < deviceTreeMaxNameLength}) := by
    intro n q hq
    cases n with
    | zero =>
      cases hq
      exact Set.mem_insert _ _
    | succ n =>
      obtain ⟨p, hp, hstep⟩ := Option.bind_eq_some_iff.mp hq
      have hstep : aliasStep tree stack p = .inl q := by
        cases hcase : aliasStep tree stack p with
        | inl next =>
          rw [hcase] at hstep
          cases hstep
          rfl
        | inr result =>
          rw [hcase] at hstep
          cases hstep
      obtain ⟨hslash, aliases, data, haliases, hdata, rfl⟩ := aliasStep_inl hstep
      have hlength := hshort n p hp hslash
      rw [aliasName, if_pos hlength] at hdata
      refine Set.mem_insert_of_mem _ ⟨firstComponent p, hlength, ?_⟩
      show (((descend tree 0 [aliasesName]).toOption.bind fun aliases =>
        tree.properties aliases (propertyName (firstComponent p))).map propertyString).getD path = _
      rw [descend_ok.mpr haliases]
      simp only [Except.toOption, Option.bind_some, hdata]
      rfl
  have hends := Chain.ends_iff ((hnames.image target).insert path) hplaces
  unfold FindsPath
  rw [← hends]
  have hexists : (∃ fuel result, deviceTreeGetNodeByPath tree stack fuel path = some result) ↔
      ∃ fuel result, Chain.follow (aliasStep tree stack) fuel path = some result := by
    refine exists_congr fun fuel => ?_
    rw [← Option.ne_none_iff_exists', ← Option.ne_none_iff_exists', ne_eq, ne_eq,
      getNodeByPath_none]
  rw [hexists]
  exact and_iff_left fun fuel i h => getNodeByPath_sound hshort h

/-- When the two searches come to the node that is referred to. -/
theorem references_law (tree : Tree) (hnested : tree.Nested) :
    (∀ stack nodeOffset,
      FindsInterruptParent tree nodeOffset
          (fun fuel => getInterruptParentOffset tree stack fuel nodeOffset) ↔
        ¬ Chain.Returns (interruptStep tree stack) nodeOffset) ∧
    ∀ stack path, Short tree stack path →
      (FindsPath tree path (fun fuel => deviceTreeGetNodeByPath tree stack fuel path) ↔
        ¬ Chain.Returns (aliasStep tree stack) path) :=
  ⟨fun stack nodeOffset => findsInterruptParent_iff hnested stack nodeOffset,
    fun _ _ hshort => findsPath_iff hshort⟩

/-- A root, and a node below it that is its own interrupt parent and no controller. -/
def selfParent : Tree where
  nodes := [⟨[], none, fun _ => none⟩,
    ⟨[], some 0, fun name =>
      if name = "phandle" then some [0, 0, 0, 1]
      else if name = "interrupt-parent" then some [0, 0, 0, 1]
      else none⟩]
  root := List.cons_ne_nil _ _
  parent_lt := by
    intro i node h
    match i with
    | 0 =>
      cases h
      rfl
    | 1 =>
      cases h
      exact Nat.zero_lt_one
    | i + 2 => cases h

/-- The search for the interrupt parent never ends. -/
theorem selfParent_never_ends : ¬ FindsInterruptParent selfParent 1
    (fun fuel => getInterruptParentOffset selfParent (fun _ => 0) fuel 1) := by
  rintro ⟨⟨fuel, result, hresult⟩, -⟩
  have hstep : interruptStep selfParent (fun _ => 0) 1 = .inl 1 := by decide
  have hnone : ∀ fuel, getInterruptParentOffset selfParent (fun _ => 0) fuel 1 = none := by
    intro fuel
    rw [getInterruptParentOffset_eq]
    induction fuel with
    | zero => rfl
    | succ fuel ih =>
      rw [Chain.follow, hstep]
      exact ih
  change getInterruptParentOffset selfParent (fun _ => 0) fuel 1 = _ at hresult
  rw [hnone] at hresult
  cases hresult

/-- A root, and below it the aliases with `/c` for `c`, a controller `c`, and a device whose
interrupts go there. -/
def aliasedController : Tree where
  nodes := [⟨[], none, fun _ => none⟩,
    ⟨aliasesName, some 0, fun name => if name = "c" then some [slash, 0x63, 0] else none⟩,
    ⟨[0x63], some 0, fun name =>
      if name = "phandle" then some [0, 0, 0, 1]
      else if name = "interrupt-controller" then some []
      else none⟩,
    ⟨[0x64], some 0, fun name =>
      if name = "interrupt-parent" then some [0, 0, 0, 1] else none⟩]
  root := List.cons_ne_nil _ _
  parent_lt := by
    intro i node h
    match i with
    | 0 =>
      cases h
      rfl
    | 1 =>
      cases h
      exact Nat.zero_lt_one
    | 2 =>
      cases h
      exact Nat.zero_lt_two
    | 3 =>
      cases h
      exact Nat.zero_lt_succ 2
    | i + 4 => cases h

theorem nested_aliasedController : aliasedController.Nested := by
  intro i hi
  match i with
  | 0 => exact ⟨0, rfl, .self 0⟩
  | 1 => exact ⟨0, rfl, .under (q := 0) rfl (.self 0)⟩
  | 2 => exact ⟨0, rfl, .under (q := 0) rfl (.self 0)⟩
  | i + 3 =>
    change i + 3 + 1 < 4 at hi
    omega

def aliasPathC : CString := ⟨[0x63], by simp⟩
def absolutePathC : CString := ⟨[slash, 0x63], by simp [slash]⟩

theorem references_found :
    FindsInterruptParent aliasedController 3
        (fun fuel => getInterruptParentOffset aliasedController (fun _ => 0) fuel 3) ∧
      FindsPath aliasedController aliasPathC
        (fun fuel => deviceTreeGetNodeByPath aliasedController id fuel aliasPathC) := by
  have hlaw := references_law aliasedController nested_aliasedController
  have hparent : interruptStep aliasedController (fun _ => 0) 3 = .inr (.ok 2) := by rfl
  have halias : aliasStep aliasedController id aliasPathC = .inl absolutePathC := by rfl
  have habsolute : aliasStep aliasedController id absolutePathC = .inr () := by rfl
  have hplace : ∀ n, Chain.place (aliasStep aliasedController id) aliasPathC (n + 2) = none := by
    intro n
    rw [Chain.place_succ, halias, Sum.getLeft?_inl, Option.bind_some, Chain.place_succ, habsolute]
    rfl
  refine ⟨(hlaw.1 _ 3).mpr ?_, (hlaw.2 id aliasPathC ?_).mpr ?_⟩
  · rintro ⟨i, j, b, hij, -, hj⟩
    obtain ⟨k, rfl⟩ : ∃ k, j = k + 1 := ⟨j - 1, by omega⟩
    rw [Chain.place_succ, hparent] at hj
    cases hj
  · intro n q hq hslash
    match n with
    | 0 =>
      cases hq
      decide
    | 1 =>
      rw [Chain.place_succ, halias] at hq
      cases hq
      exact absurd rfl hslash
    | n + 2 =>
      rw [hplace] at hq
      cases hq
  · rintro ⟨i, j, b, hij, hi, hj⟩
    match j with
    | 0 => omega
    | 1 =>
      obtain rfl : i = 0 := by omega
      rw [Chain.place_succ, halias] at hj
      cases hi
      cases hj
    | j + 2 =>
      rw [hplace] at hj
      cases hj

end DtHelper
