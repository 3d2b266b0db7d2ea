import Edk2Nvidia.FloorSweep.IpEntry

/-! When the floorsweeping of IPs disables exactly the nodes that it should. -/
namespace FloorSweep
open Parse (CString)
open Cursor
open DeviceTree (Properties)
open DtHelper

def hexDigit (c : UInt8) : Option Nat :=
  if 0x30 ≤ c.toNat ∧ c.toNat ≤ 0x39 then some (c.toNat - 0x30)
  else if 0x41 ≤ c.toNat ∧ c.toNat ≤ 0x46 then some (c.toNat - 0x41 + 10)
  else if 0x61 ≤ c.toNat ∧ c.toNat ≤ 0x66 then some (c.toNat - 0x61 + 10)
  else none

/-- The number that the digits at the start of a text spell, behind a value. -/
def hexFrom (value : Nat) : List UInt8 → Nat
  | [] => value
  | c :: text =>
    match hexDigit c with
    | some digit => hexFrom (value * 16 + digit) text
    | none => value

def unitAddress (nodeName : List UInt8) : Nat :=
  match unitAddressString nodeName with
  | none => 0
  | some text => hexFrom 0 text

variable (info : Info) (ipEntry : IpEntry)

def socketOf (nodeName : List UInt8) : Nat :=
  if info.maxPossibleSockets = 1 then 0
  else (unitAddress nodeName >>> info.addressToSocketShift.toNat) &&& info.socketAddressMask.toNat

/-- The socket that the code takes a node to belong to. -/
def takenSocket (nodeName : List UInt8) : Nat :=
  if info.maxPossibleSockets = 1 then 0 else floorSweepGetDtbNodeSocket info nodeName

/-- Whether a node is to be disabled that belongs to a socket: the socket is not enabled, or its
register has the bit of the node's id, any bit when the entry has no id property. -/
def Verdict (bitOf : Nat → Nat) (properties : Properties) (socket : Nat) : Bool :=
  if socket < info.maxPossibleSockets ∧ info.socketMask.toNat.testBit socket = true then
    ipEntry.disableReg socket ≠ 0 &&
      match ipEntry.idProperty with
      | none => true
      | some idProperty =>
        match deviceTreeGetNodePropertyValue32 properties idProperty with
        | .error _ => false
        | .ok id => (ipEntry.disableReg socket).toNat.testBit (bitOf id.toNat)
  else true

variable (allocates room : Nat → Bool) (ipsOffset : Nat) (tree : Tree)

def nodeName (i : Nat) : List UInt8 := ((tree.nodes[i]?).map Node.name).getD []

/-- The enabled compatible children of the root of the IPs. -/
def Concerned (i : Nat) : Prop :=
  i ∈ tree.subnodes ipsOffset ∧ tree.isCompatible allocates ipEntry.compatibilityList i = true

instance (i : Nat) : Decidable (Concerned ipEntry allocates ipsOffset tree i) :=
  inferInstanceAs (Decidable (_ ∧ _))

def toDisable (i : Nat) : Bool :=
  decide (Concerned ipEntry allocates ipsOffset tree i) &&
    Verdict info ipEntry id (tree.properties i) (socketOf info (nodeName tree i))

/-- The floorsweeping ends, with no access outside a register array or to no node, and the tree has
exactly these children disabled. -/
def Exact : Prop :=
  ∃ fuel, floorSweepIpEntry info ipEntry allocates room ipsOffset fuel tree =
    some (.done (disable tree (toDisable info ipEntry allocates ipsOffset tree)))

def Sweepable : Prop :=
  if ipIsDisabled info ipEntry then
    tree.SubnodesEndBeside allocates ipEntry.compatibilityList ipsOffset ∧
    ∀ i, Concerned ipEntry allocates ipsOffset tree i →
      (isSocketEnabled info (takenSocket info (nodeName tree i)) = true →
        takenSocket info (nodeName tree i) < info.maxPossibleSockets) ∧
      (Verdict info ipEntry (· % 64) (tree.properties i) (takenSocket info (nodeName tree i)) &&
          room i) =
        Verdict info ipEntry id (tree.properties i) (socketOf info (nodeName tree i))
  else ∀ i, Concerned ipEntry allocates ipsOffset tree i →
    Verdict info ipEntry id (tree.properties i) (socketOf info (nodeName tree i)) = false

section Nodes
variable {info ipEntry allocates room ipsOffset tree}

theorem getElem?_disable (which : Nat → Bool) (i : Nat) :
    (disable tree which).nodes[i]? =
      (tree.nodes[i]?).map fun node => if which i then disabled node else node := by
  rw [disable, List.getElem?_mapIdx]

theorem length_disable (which : Nat → Bool) :
    (disable tree which).nodes.length = tree.nodes.length := by
  rw [disable, List.length_mapIdx]

theorem disabled_disabled (node : Node) : disabled (disabled node) = disabled node := by
  unfold disabled
  congr 1
  funext name
  simp only
  split <;> rfl

theorem tree_ext {tree other : Tree} (h : tree.nodes = other.nodes) : tree = other := by
  cases tree
  cases other
  cases h
  rfl

theorem disable_disable (which other : Nat → Bool) :
    disable (disable tree which) other = disable tree fun i => which i || other i := by
  refine tree_ext (List.ext_getElem? fun i => ?_)
  rw [getElem?_disable, getElem?_disable, getElem?_disable, Option.map_map]
  congr 1
  funext node
  cases which i <;> cases other i <;> simp [disabled_disabled]

theorem disable_congr {which other : Nat → Bool} (h : ∀ i, which i = other i) :
    disable tree which = disable tree other := by
  rw [show which = other from funext h]

theorem disable_false (tree : Tree) : disable tree (fun _ => false) = tree := by
  refine tree_ext (List.ext_getElem? fun i => ?_)
  rw [getElem?_disable]
  cases tree.nodes[i]? <;> rfl

theorem parent_disable (which : Nat → Bool) (i : Nat) :
    ((disable tree which).nodes[i]?).bind Node.parent = (tree.nodes[i]?).bind Node.parent := by
  rw [getElem?_disable]
  cases tree.nodes[i]? with
  | none => rfl
  | some node =>
    simp only [Option.map_some, Option.bind_some]
    split <;> rfl

theorem subnodes_disable (which : Nat → Bool) (parent : Nat) :
    (disable tree which).subnodes parent = tree.subnodes parent := by
  unfold Tree.subnodes
  simp only [length_disable, parent_disable]

theorem node?_disable (which : Nat → Bool) (offset : Int) :
    (disable tree which).node? offset = (tree.node? offset).map fun node =>
      if which offset.toNat then disabled node else node := by
  unfold Tree.node?
  split
  · rfl
  · exact getElem?_disable which offset.toNat

theorem nextSubnodes_disable (which : Nat → Bool) (offset : Int) :
    (disable tree which).nextSubnodes offset = tree.nextSubnodes offset := by
  have hparent : ((disable tree which).node? offset).bind Node.parent =
      (tree.node? offset).bind Node.parent := by
    unfold Tree.node?
    split
    · rfl
    · exact parent_disable which offset.toNat
  unfold Tree.nextSubnodes
  rw [hparent]
  simp only [subnodes_disable]

theorem properties_disable {which : Nat → Bool} {offset : Int} (h : which offset.toNat = false) :
    (disable tree which).properties offset = tree.properties offset := by
  funext name
  rw [Tree.properties, Tree.properties, node?_disable]
  cases tree.node? offset with
  | none => rfl
  | some node => simp [h]

theorem name_disable (tree : Tree) (which : Nat → Bool) (offset : Int) :
    ((disable tree which).node? offset).map Node.name = (tree.node? offset).map Node.name := by
  rw [node?_disable, Option.map_map]
  congr 1
  funext node
  simp only [Function.comp_apply]
  split <;> rfl

theorem disable_injective {which other : Nat → Bool} (h : disable tree which = disable tree other)
    {i : Nat} (henabled : deviceTreeNodeIsEnabled (tree.properties i) = .success)
    (hi : i < tree.nodes.length) : which i = other i := by
  have hget := congrArg (fun t : Tree => t.nodes[i]?) h
  simp only [getElem?_disable, List.getElem?_eq_getElem hi, Option.map_some,
    Option.some.injEq] at hget
  have hstatus : ∀ value, tree.nodes[i].properties "status" = some value →
      value ≠ disabledText := by
    rintro value hvalue rfl
    have hproperty : tree.properties i "status" = some disabledText := by
      rw [Tree.properties, Tree.node?, if_neg (by omega)]
      simpa [List.getElem?_eq_getElem hi] using hvalue
    rw [deviceTreeNodeIsEnabled, hproperty] at henabled
    revert henabled
    decide
  have hne : disabled tree.nodes[i] ≠ tree.nodes[i] := by
    intro heq
    have hproperty := congrArg (fun node : Node => node.properties "status") heq
    exact hstatus disabledText hproperty.symm rfl
  cases hw : which i <;> cases ho : other i
  · rfl
  · simp only [hw, ho, if_true, Bool.false_eq_true, if_false] at hget
    exact absurd hget.symm hne
  · simp only [hw, ho, if_true, Bool.false_eq_true, if_false] at hget
    exact absurd hget hne
  · rfl

theorem search_congr {check other : Nat → DtHelper.EfiStatus × Bool} (init : DtHelper.EfiStatus)
    {ahead : List Nat}
    (h : ∀ i ∈ ahead, check i = other i) : search check init ahead = search other init ahead := by
  induction ahead generalizing init with
  | nil => rfl
  | cons a ahead ih =>
    obtain ⟨ha, hrest⟩ := List.forall_mem_cons.mp h
    rw [search, search, ha, ih _ hrest]

/-- What lies behind a cursor of the loop. -/
def ahead (tree : Tree) (ipsOffset : Nat) (cursor : Int) : List Nat :=
  if cursor = 0 then tree.subnodes ipsOffset else tree.nextSubnodes cursor

theorem ahead_disable (tree : Tree) (ipsOffset : Nat) (which : Nat → Bool) (cursor : Int) :
    ahead (disable tree which) ipsOffset cursor = ahead tree ipsOffset cursor := by
  rw [ahead, ahead, subnodes_disable, nextSubnodes_disable]

theorem next_disable (ipEntry : IpEntry) (allocates : Nat → Bool) {which : Nat → Bool} {cursor : Int}
    (h : ∀ i ∈ ahead tree ipsOffset cursor, which i = false) :
    deviceTreeGetNextCompatibleSubnode allocates (disable tree which) ipEntry.compatibilityList
        ipsOffset cursor =
      advance .success Int.ofNat fdtErrNotFound cursor
        (search (checkCompatible allocates tree ipEntry.compatibilityList) .success
          (ahead tree ipsOffset cursor)) := by
  have hahead := ahead_disable tree ipsOffset which cursor
  unfold ahead at hahead
  rw [deviceTreeGetNextCompatibleSubnode, hahead]
  congr 1
  refine search_congr _ fun i hi => ?_
  rw [checkCompatible, checkCompatible, properties_disable (h i hi)]

end Nodes

section Loop
variable {info ipEntry allocates room ipsOffset tree}

/-- Where nothing lies ahead, the stale success of the helper leads to no node, and the loop does not
end any more. -/
theorem sweep_lost (fuel : Nat) {t : Tree} {cursor : Int} (h : ahead t ipsOffset cursor = [])
    (result : Tree) : sweep info ipEntry allocates room ipsOffset fuel t cursor ≠
      some (.done result) := by
  induction fuel generalizing t cursor with
  | zero => rintro ⟨⟩
  | succ fuel ih =>
    have hnext : deviceTreeGetNextCompatibleSubnode allocates t ipEntry.compatibilityList ipsOffset
        cursor = (.success, fdtErrNotFound) := by
      unfold ahead at h
      rw [deviceTreeGetNextCompatibleSubnode, h]
      rfl
    rw [sweep, hnext]
    simp only [ne_eq, not_true_eq_false, if_false]
    split
    · rintro ⟨⟩
    · exact ih rfl
    · exact ih rfl

def found (info : Info) (ipEntry : IpEntry) (tree : Tree) (i : Nat) : Option Bool :=
  nodeIsDisabled info ipEntry (tree.properties i) (takenSocket info (nodeName tree i))

def marked (info : Info) (ipEntry : IpEntry) (allocates room : Nat → Bool) (tree : Tree) (i : Nat) :
    Bool :=
  tree.isCompatible allocates ipEntry.compatibilityList i && (found info ipEntry tree i == some true)
    && room i

theorem takenSocket_eq (info : Info) {i : Nat} (hi : i < tree.nodes.length) (which : Nat → Bool) :
    (if info.maxPossibleSockets = 1 then some 0
      else ((disable tree which).node? (Int.ofNat i)).map fun node =>
        floorSweepGetDtbNodeSocket info node.name) =
      some (takenSocket info (nodeName tree i)) := by
  unfold takenSocket nodeName
  split
  · rfl
  · change ((disable tree which).node? (i : Int)).map _ = _
    have hnode : tree.node? (i : Int) = some tree.nodes[i] := by
      rw [Tree.node?, if_neg (by omega)]
      exact List.getElem?_eq_getElem hi
    have hname := name_disable tree which (i : Int)
    rw [hnode, Option.map_some] at hname
    obtain ⟨node, hnode', heq⟩ := Option.map_eq_some_iff.mp hname
    rw [hnode', Option.map_some, heq, List.getElem?_eq_getElem hi]
    rfl

theorem floorSweepDisableNode_eq {i : Nat} (hi : i < tree.nodes.length) (which : Nat → Bool) :
    floorSweepDisableNode room (disable tree which) i =
      disable tree fun j => which j || (j == i && room i) := by
  have hnode : (disable tree which).node? (i : Int) =
      some (if which i then disabled tree.nodes[i] else tree.nodes[i]) := by
    rw [node?_disable, Tree.node?, if_neg (by omega)]
    change (tree.nodes[i]?).map _ = _
    rw [List.getElem?_eq_getElem hi]
    rfl
  unfold floorSweepDisableNode
  rw [hnode]
  simp only [Int.toNat_natCast]
  cases room i with
  | true => simp [disable_disable]
  | false => simp

/-- One pass at a compatible node that is still as it was. -/
theorem sweep_step (info : Info) (room : Nat → Bool) (fuel : Nat) {which : Nat → Bool}
    {cursor : Int} {a : Nat}
    (hnext : deviceTreeGetNextCompatibleSubnode allocates (disable tree which)
      ipEntry.compatibilityList ipsOffset cursor = (.success, Int.ofNat a))
    (ha : a < tree.nodes.length) (hwhich : which a = false)
    (hcompatible : tree.isCompatible allocates ipEntry.compatibilityList a = true) :
    sweep info ipEntry allocates room ipsOffset (fuel + 1) (disable tree which) cursor =
      match found info ipEntry tree a with
      | none => some .outside
      | some _ => sweep info ipEntry allocates room ipsOffset fuel
          (disable tree fun i => which i || (i == a && marked info ipEntry allocates room tree a))
          (Int.ofNat a) := by
  have hproperties : (disable tree which).properties (Int.ofNat a) = tree.properties a :=
    properties_disable hwhich
  have hsocket := takenSocket_eq info ha which
  rw [sweep, hnext]
  simp only [ne_eq, not_true_eq_false, if_false, hproperties]
  rw [hsocket, Option.bind_some]
  have hverdict : nodeIsDisabled info ipEntry (tree.properties a)
      (takenSocket info (nodeName tree a)) = found info ipEntry tree a := rfl
  rw [hverdict]
  cases hfound : found info ipEntry tree a with
  | none => rfl
  | some verdict =>
    cases verdict with
    | false =>
      have hmarked : marked info ipEntry allocates room tree a = false := by
        simp [marked, hfound]
      simp only [hmarked, Bool.and_false, Bool.or_false]
    | true =>
      have hmarked : marked info ipEntry allocates room tree a = room a := by
        simp [marked, hfound, hcompatible]
      rw [hmarked]
      exact congrArg (fun t => sweep info ipEntry allocates room ipsOffset fuel t (Int.ofNat a))
        (floorSweepDisableNode_eq ha which)

/-- From a cursor on, the loop ends exactly when the status behind the nodes ahead says so and
every compatible one of them can be judged, and then these are disabled that are marked. -/
theorem sweep_iff (info : Info) (ipEntry : IpEntry) (allocates room : Nat → Bool)
    (before rest : List Nat) (horder : tree.subnodes ipsOffset = before ++ rest)
    (cursor : Int) (hcursor : ahead tree ipsOffset cursor = rest) (which : Nat → Bool)
    (hwhich : ∀ i ∈ rest, which i = false) (result : Tree) :
    (∃ fuel, sweep info ipEntry allocates room ipsOffset fuel (disable tree which) cursor =
      some (.done result)) ↔
    finalStatus (checkCompatible allocates tree ipEntry.compatibilityList) .success rest =
        .notFound ∧
      (∀ i ∈ rest, tree.isCompatible allocates ipEntry.compatibilityList i = true →
        (found info ipEntry tree i).isSome = true) ∧
      result = disable tree fun i =>
        which i || (decide (i ∈ rest) && marked info ipEntry allocates room tree i) := by
  induction hlength : rest.length using Nat.strong_induction_on generalizing before rest cursor which
    with
  | _ length ih =>
  subst hlength
  have hnext := next_disable ipEntry allocates (hcursor ▸ hwhich)
  rw [hcursor] at hnext
  rcases search_spec (checkCompatible allocates tree ipEntry.compatibilityList) .success rest with
    ⟨skipped, a, later, rfl, hskipped, ha, hsearch⟩ | ⟨hnone, hsearch⟩
  · -- a compatible node ahead
    have hsplit : tree.subnodes ipsOffset = (before ++ skipped) ++ a :: later := by
      rw [horder, List.append_assoc]
    have hmem : a ∈ tree.subnodes ipsOffset := by
      rw [hsplit]
      exact List.mem_append_right _ List.mem_cons_self
    have hlt : a < tree.nodes.length := List.mem_range.mp (List.mem_filter.mp hmem).1
    have hcompatible : tree.isCompatible allocates ipEntry.compatibilityList a = true := by
      rw [← checkCompatible_snd]
      exact ha
    have hnone : ∀ i ∈ skipped,
        tree.isCompatible allocates ipEntry.compatibilityList i = false := fun i hi => by
      rw [← checkCompatible_snd]
      exact hskipped i hi
    have hstatus := checkCompatible_found ipEntry.compatibilityList a ha
    rw [hsearch, hstatus] at hnext
    have hstep := fun fuel => sweep_step info room fuel hnext hlt
      (hwhich a (by simp)) hcompatible
    have hcursor' : ahead tree ipsOffset (Int.ofNat a) = later :=
      (walk_subnodes tree ipsOffset).next _ _ _ hsplit
    have hnotin : ∀ i ∈ later, i ≠ a := by
      have hsorted : (tree.subnodes ipsOffset).Pairwise (· < ·) :=
        List.pairwise_lt_range.filter _
      rw [hsplit] at hsorted
      intro i hi heq
      have hlt := (List.pairwise_cons.mp (List.pairwise_append.mp hsorted).2.1).1 i hi
      omega
    cases hfound : found info ipEntry tree a with
    | none =>
      constructor
      · rintro ⟨fuel, hrun⟩
        cases fuel with
        | zero => cases hrun
        | succ fuel =>
          rw [hstep, hfound] at hrun
          cases hrun
      · rintro ⟨-, hjudged, -⟩
        have hsome := hjudged a (by simp) hcompatible
        rw [hfound] at hsome
        cases hsome
    | some verdict =>
      have hih := ih later.length (by simp; omega) (before ++ skipped ++ [a]) later
        (by rw [hsplit]; simp) _ hcursor'
        (fun i => which i || (i == a && marked info ipEntry allocates room tree a))
        (fun i hi => by simp [hwhich i (by simp [hi]), hnotin i hi]) rfl
      have hfuel : (∃ fuel, sweep info ipEntry allocates room ipsOffset fuel (disable tree which)
          cursor = some (.done result)) ↔ ∃ fuel, sweep info ipEntry allocates room ipsOffset fuel
            (disable tree fun i =>
              which i || (i == a && marked info ipEntry allocates room tree a)) (Int.ofNat a) =
                some (.done result) := by
        constructor
        · rintro ⟨fuel, hrun⟩
          cases fuel with
          | zero => cases hrun
          | succ fuel =>
            rw [hstep, hfound] at hrun
            exact ⟨fuel, hrun⟩
        · rintro ⟨fuel, hrun⟩
          refine ⟨fuel + 1, ?_⟩
          rw [hstep, hfound]
          exact hrun
      rw [hfuel, hih, finalStatus_behind _ skipped later ha]
      refine and_congr Iff.rfl (and_congr ?_ ?_)
      · constructor
        · intro h i hi hi'
          rcases List.mem_append.mp hi with hi | hi
          · rw [hnone i hi] at hi'
            cases hi'
          · rcases List.mem_cons.mp hi with rfl | hi
            · rw [hfound]
              rfl
            · exact h i hi hi'
        · intro h i hi
          exact h i (by simp [hi])
      · rw [disable_congr fun i => ?_]
        by_cases hskip : i ∈ skipped
        · have hmarked : marked info ipEntry allocates room tree i = false := by
            simp [marked, hnone i hskip]
          by_cases hia : i = a
          · subst hia
            simp [hmarked]
          · simp [hmarked, hia]
        · by_cases hia : i = a
          · subst hia
            cases marked info ipEntry allocates room tree i <;> simp [hskip]
          · cases which i <;> simp [hia, hskip]
  · -- no compatible node ahead
    have hnone' : ∀ i ∈ rest,
        tree.isCompatible allocates ipEntry.compatibilityList i = false := fun i hi => by
      rw [← checkCompatible_snd]
      exact hnone i hi
    have hsame : (disable tree fun i =>
        which i || (decide (i ∈ rest) && marked info ipEntry allocates room tree i)) =
          disable tree which := by
      refine disable_congr fun i => ?_
      by_cases hi : i ∈ rest
      · simp [marked, hnone' i hi]
      · simp [hi]
    rw [hsame]
    by_cases hrest : rest = []
    · subst hrest
      constructor
      · rintro ⟨fuel, hrun⟩
        have hlost := (ahead_disable tree ipsOffset which cursor).trans hcursor
        exact absurd hrun (sweep_lost fuel hlost result)
      · rintro ⟨hstatus, -⟩
        cases hstatus
    · have hfinal : finalStatus (checkCompatible allocates tree ipEntry.compatibilityList) .success
          rest = .notFound := by
        rw [finalStatus_compatible]
        cases hlast : rest.getLast? with
        | none => exact absurd (List.getLast?_eq_none_iff.mp hlast) hrest
        | some last => exact .inr ⟨last, rfl, hnone' last (List.mem_of_getLast? hlast)⟩
      rw [hsearch, hfinal] at hnext
      have hrun : ∀ fuel, sweep info ipEntry allocates room ipsOffset (fuel + 1)
          (disable tree which) cursor = some (.done (disable tree which)) := by
        intro fuel
        rw [sweep, hnext]
        rfl
      constructor
      · rintro ⟨fuel, hrun'⟩
        cases fuel with
        | zero => cases hrun'
        | succ fuel =>
          rw [hrun] at hrun'
          cases hrun'
          refine ⟨hfinal, fun i hi hi' => ?_, rfl⟩
          rw [hnone' i hi] at hi'
          cases hi'
      · rintro ⟨-, -, rfl⟩
        exact ⟨1, hrun 0⟩

end Loop

section Law
variable {info ipEntry allocates room ipsOffset tree}

/-- The code's judgement of a node: it stays inside the registers when an enabled socket is a
possible one, and is the verdict with the id taken modulo 64. -/
theorem nodeIsDisabled_eq_some {properties : Properties} {socket : Nat} {verdict : Bool} :
    nodeIsDisabled info ipEntry properties socket = some verdict ↔
      (isSocketEnabled info socket = true → socket < info.maxPossibleSockets) ∧
        Verdict info ipEntry (· % 64) properties socket = verdict := by
  have hle := info.sockets_le
  unfold nodeIsDisabled Verdict
  cases henabled : isSocketEnabled info socket with
  | false =>
    have hbit : ¬ (socket < info.maxPossibleSockets ∧
        info.socketMask.toNat.testBit socket = true) := by
      rintro ⟨hlt, hbit⟩
      rw [isSocketEnabled, Nat.mod_eq_of_lt (hlt.trans_le hle), hbit] at henabled
      cases henabled
    rw [if_neg hbit]
    simp
  | true =>
    by_cases hlt : socket < info.maxPossibleSockets
    · have hbit : socket < info.maxPossibleSockets ∧
          info.socketMask.toNat.testBit socket = true := by
        rw [isSocketEnabled, Nat.mod_eq_of_lt (hlt.trans_le hle)] at henabled
        exact ⟨hlt, henabled⟩
      rw [if_neg (show ¬ (!true) = true by simp), if_neg (not_le.mpr hlt), if_pos hbit]
      by_cases hreg : ipEntry.disableReg socket = 0
      · simp [hreg, hlt]
      · rw [if_neg hreg]
        cases ipEntry.idProperty with
        | none => simp [hreg, hlt]
        | some idProperty =>
          simp only [hlt, hreg, ne_eq, not_false_eq_true, decide_true, Bool.true_and, imp_self,
            true_and]
          cases deviceTreeGetNodePropertyValue32 properties idProperty with
          | error status => simp
          | ok id => simp
    · rw [if_neg (show ¬ (!true) = true by simp), if_pos (not_lt.mp hlt)]
      simp [hlt]

theorem mem_subnodes_lt {i : Nat} (h : i ∈ tree.subnodes ipsOffset) : i < tree.nodes.length :=
  List.mem_range.mp (List.mem_filter.mp h).1

theorem Concerned.shows {i : Nat} (h : Concerned ipEntry allocates ipsOffset tree i)
    {which other : Nat → Bool} (heq : disable tree which = disable tree other) :
    which i = other i := by
  refine disable_injective heq ?_ (mem_subnodes_lt h.1)
  have henabled := (Bool.and_eq_true_iff.mp h.2).2
  exact of_decide_eq_true henabled

theorem toDisable_of_concerned {i : Nat} (h : Concerned ipEntry allocates ipsOffset tree i) :
    toDisable info ipEntry allocates ipsOffset tree i =
      Verdict info ipEntry id (tree.properties i) (socketOf info (nodeName tree i)) := by
  rw [toDisable, decide_eq_true h, Bool.true_and]

theorem toDisable_of_not {i : Nat} (h : ¬ Concerned ipEntry allocates ipsOffset tree i) :
    toDisable info ipEntry allocates ipsOffset tree i = false := by
  rw [toDisable, decide_eq_false h, Bool.false_and]

/-- What is marked among the subnodes, once a node can be judged. -/
theorem marked_of_concerned {i : Nat} (h : Concerned ipEntry allocates ipsOffset tree i)
    (hfound : (found info ipEntry tree i).isSome = true) :
    marked info ipEntry allocates room tree i =
      (Verdict info ipEntry (· % 64) (tree.properties i) (takenSocket info (nodeName tree i)) &&
        room i) := by
  obtain ⟨verdict, hverdict⟩ := Option.isSome_iff_exists.mp hfound
  have hjudged := (nodeIsDisabled_eq_some.mp hverdict).2
  rw [marked, h.2, hverdict, hjudged]
  cases verdict <;> simp

end Law

/-- For every tree, every entry and every configuration of sockets: the floorsweeping is exact when
the condition holds, and only then. -/
theorem ip_floorsweeping_exact_iff (info : Info) (ipEntry : IpEntry) (allocates room : Nat → Bool)
    (ipsOffset : Nat) (tree : Tree) :
    Exact info ipEntry allocates room ipsOffset tree ↔
      Sweepable info ipEntry allocates room ipsOffset tree := by
  unfold Exact Sweepable floorSweepIpEntry
  cases hany : ipIsDisabled info ipEntry with
  | false =>
    simp only [Bool.not_false, if_true, Bool.false_eq_true, if_false, exists_const,
      Option.some.injEq, Outcome.done.injEq]
    constructor
    · intro heq i hi
      have hshows := hi.shows ((disable_false tree).trans heq)
      rw [← toDisable_of_concerned hi]
      exact hshows.symm
    · intro h
      have hnone : ∀ i, toDisable info ipEntry allocates ipsOffset tree i = false := by
        intro i
        by_cases hi : Concerned ipEntry allocates ipsOffset tree i
        · rw [toDisable_of_concerned hi, h i hi]
        · exact toDisable_of_not hi
      rw [disable_congr hnone, disable_false]
  | true =>
    simp only [Bool.not_true, Bool.false_eq_true, if_false, if_true]
    have hsweep := sweep_iff info ipEntry allocates room [] (tree.subnodes ipsOffset) rfl 0 rfl
      (fun _ => false) (fun _ _ => rfl)
      (disable tree (toDisable info ipEntry allocates ipsOffset tree))
    rw [disable_false] at hsweep
    rw [hsweep, finalStatus_compatible, or_iff_right (by decide)]
    refine and_congr Iff.rfl ?_
    constructor
    · rintro ⟨hjudged, heq⟩ i hi
      have hfound := hjudged i hi.1 hi.2
      obtain ⟨verdict, hverdict⟩ := Option.isSome_iff_exists.mp hfound
      refine ⟨(nodeIsDisabled_eq_some.mp hverdict).1, ?_⟩
      have hshows := hi.shows heq
      rw [toDisable_of_concerned hi, Bool.false_or, decide_eq_true hi.1, Bool.true_and,
        marked_of_concerned hi hfound] at hshows
      exact hshows.symm
    · intro h
      have hjudged : ∀ i, Concerned ipEntry allocates ipsOffset tree i →
          (found info ipEntry tree i).isSome = true := fun i hi =>
        Option.isSome_iff_exists.mpr ⟨_, nodeIsDisabled_eq_some.mpr ⟨(h i hi).1, rfl⟩⟩
      refine ⟨fun i hmem hcompatible => hjudged i ⟨hmem, hcompatible⟩, disable_congr fun i => ?_⟩
      by_cases hi : Concerned ipEntry allocates ipsOffset tree i
      · rw [toDisable_of_concerned hi, Bool.false_or, decide_eq_true hi.1, Bool.true_and,
          marked_of_concerned hi (hjudged i hi), (h i hi).2]
      · rw [toDisable_of_not hi, Bool.false_or]
        by_cases hmem : i ∈ tree.subnodes ipsOffset
        · have hcompatible : tree.isCompatible allocates ipEntry.compatibilityList i = false := by
            simpa using fun hc => hi ⟨hmem, hc⟩
          simp [marked, hcompatible]
        · simp [hmem]

/-- The string of the compatible property of the sample. -/
def nvdec : CString := ⟨[0x6E, 0x76, 0x64, 0x65, 0x63], by simp⟩

/-- A root whose only child is an enabled `nvdec`. -/
def oneNvdec : Tree where
  nodes := [⟨[], none, fun _ => none⟩,
    ⟨[0x6E, 0x76, 0x64, 0x65, 0x63, 0x40, 0x30], some 0, fun name =>
      if name = "compatible" then some [0x6E, 0x76, 0x64, 0x65, 0x63, 0] else none⟩]
  root := by decide
  parent_lt := by
    intro i node h
    match i with
    | 0 => cases h; rfl
    | 1 => cases h; decide
    | i + 2 => simp at h

/-- One socket, enabled, and a register with a bit set for the entry. -/
def oneSocket : Info := ⟨1, 1, 0, 0, by decide⟩
def nvdecEntry : IpEntry := ⟨[nvdec], none, fun _ => 1⟩

/-- A matching node that is the last child: the floorsweeping of its entry does not end. -/
theorem last_child_never_ends :
    ¬ Exact oneSocket nvdecEntry (fun _ => true) (fun _ => true) 0 oneNvdec := by
  rintro ⟨fuel, hrun⟩
  have hsweep := (sweep_iff oneSocket nvdecEntry (fun _ => true) (fun _ => true) []
    (oneNvdec.subnodes 0) rfl 0 rfl (fun _ => false) (fun _ _ => rfl) _).mp
      ⟨fuel, by rw [disable_false]; exact hrun⟩
  revert hsweep
  refine not_and_of_not_left _ ?_
  decide +kernel

end FloorSweep
