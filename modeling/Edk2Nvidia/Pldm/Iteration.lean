import Edk2Nvidia.Pldm.Updating
import Edk2Nvidia.Pldm.ProtocolOrder

/-! Which requests a device that accepts everything is sent, and when that is one for each
pair of an image and a component. -/
namespace Pldm
open Flash Parse Transition

def Commands (command : UInt8) (request : List UInt8) : Bool := request.head? == some command

/-- The flags of request `j` of `count`. -/
def frameFlag (j count : Nat) : UInt8 :=
  if count = 1 then transferFlagStart ||| transferFlagEnd
  else if j = 0 then transferFlagStart
  else if j + 1 = count then transferFlagEnd
  else transferFlagMiddle

/-- The number of components a `RequestUpdate` announces. -/
def announcedComponents (request : List UInt8) : Nat := field request 5 2

/-- The component table is passed before the first update, each pair once and in the order of
the package, the first with START, the last with END. -/
def Framed (plan : Plan) (pkgLen : Nat) (events : Nat → Input × Globals) : Prop :=
  ∃ n s front update back, At plan.pkg pkgLen events n = some s ∧
    requestsOf s.log = front ++ update :: back ∧ Commands Command.updateComponent update = true ∧
      (∀ request ∈ front, Commands Command.updateComponent request = false) ∧
        front.filter (Commands Command.passComponentTable) = plan.pairs.mapIdx fun j pair =>
          Command.passComponentTable ::
            plan.passRequest pair.1 pair.2 (frameFlag j plan.pairs.length)

/-- The firmware is activated, after each pair has been offered once and in the order of the
package, and as many as have been announced. -/
def Iterates (plan : Plan) (pkgLen : Nat) (events : Nat → Input × Globals) : Prop :=
  ∃ n s front activate back, At plan.pkg pkgLen events n = some s ∧
    requestsOf s.log = front ++ activate :: back ∧ Commands Command.activateFw activate = true ∧
      front.filter (Commands Command.updateComponent) = plan.pairs.map plan.offers ∧
        (front.filter (Commands Command.requestUpdate)).map announcedComponents = [plan.pairs.length]

/-! Requests are only added. -/

theorem requestsOf_advance {s s' : Session} {event : Input × Globals}
    (h : s.advance event = some s') : requestsOf s.log <+: requestsOf s'.log := by
  unfold Session.advance at h
  split at h
  · cases h
    exact List.prefix_rfl
  · obtain ⟨result, hstep, rfl⟩ := Option.map_eq_some_iff.mp h
    obtain ⟨outcome, -, hresult⟩ := Option.bind_eq_some_iff.mp hstep
    cases hresult
    exact ⟨_, (requestsOf_after s event.1 outcome).symm⟩

section
variable {pkg : Memory} {record : Nat} {table : List UInt8} {pkgLen : Nat}
  {events : Nat → Input × Globals} {plan : Plan} {n m i k : Nat} {s s' : Session}
  {requests : List (List UInt8)}

theorem requestsOf_mono (h : At pkg pkgLen events n = some s) (h' : At pkg pkgLen events m = some s')
    (hle : n ≤ m) : requestsOf s.log <+: requestsOf s'.log := by
  obtain ⟨d, rfl⟩ := Nat.exists_eq_add_of_le hle
  induction d generalizing s' with
  | zero =>
    cases h.symm.trans h'
    exact List.prefix_rfl
  | succ d ih =>
    obtain ⟨s₁, h₁, hstep⟩ := Option.bind_eq_some_iff.mp h'
    exact (ih h₁ (Nat.le_add_right n d)).trans (requestsOf_advance hstep)

theorem at_complete (h : At pkg pkgLen events n = some s) (complete : s.task.complete = true)
    (h' : At pkg pkgLen events m = some s') (hle : n ≤ m) : s' = s := by
  obtain ⟨d, rfl⟩ := Nat.exists_eq_add_of_le hle
  induction d generalizing s' with
  | zero => exact Option.some.inj (h'.symm.trans h)
  | succ d ih =>
    obtain ⟨s₁, h₁, hstep⟩ := Option.bind_eq_some_iff.mp h'
    cases ih h₁ (Nat.le_add_right n d)
    rw [Session.advance, if_pos complete] at hstep
    exact (Option.some.inj hstep).symm

/-- A device that has completed the update with a list of events, and is asked nothing any
more. -/
theorem acceptingDevice_of_list {front : List (Input × Globals)} {later : Input × Globals}
    (along : Along Session.advance (fun s event => Accepts pkg record table s event ∧
      (s.task.taskState = .receive → Delivers s event)) front (Session.create pkg pkgLen))
    (hlater : later.2.cancelAllUpdates = false ∧ later.1.sendStatus.isError = false)
    (hrun : run Session.advance front (Session.create pkg pkgLen) = some s)
    (complete : s.task.complete = true) (hstate : s.task.taskState ≠ .receive) :
    AcceptingDevice pkg record table pkgLen fun n => front.getD n later := by
  have hat : ∀ n t, At pkg pkgLen (fun n => front.getD n later) n = some t →
      Accepts pkg record table t (front.getD n later) ∧
        (t.task.taskState = .receive → Delivers t (front.getD n later)) := by
    intro n t h
    by_cases hn : n < front.length
    · have htrace : run Session.advance (front.take n) (Session.create pkg pkgLen) = some t :=
        (trace_of_list front later _ (Nat.le_of_lt hn)).symm.trans h
      have hsplit : front = front.take n ++ front[n] :: front.drop (n + 1) := by
        rw [← List.drop_eq_getElem_cons hn, List.take_append_drop]
      have hget : front.getD n later = front[n] := by
        rw [List.getD, List.getElem?_eq_getElem hn, Option.getD_some]
      rw [hget]
      rw [hsplit] at along
      exact along.at htrace
    · have hn := Nat.le_of_not_lt hn
      have hend : At pkg pkgLen (fun n => front.getD n later) front.length = some s := by
        refine (trace_of_list front later _ (Nat.le_refl _)).trans ?_
        rw [List.take_length, hrun]
      have hget : front.getD n later = later := by
        rw [List.getD, List.getElem?_eq_none hn, Option.getD_none]
      rw [hget, at_complete hend complete h hn]
      exact ⟨⟨hlater.1, hlater.2, fun h => absurd h hstate⟩, fun h => absurd h hstate⟩
  exact ⟨fun n t h => (hat n t h).1, fun n t h hreceive => ⟨n, t, Nat.le_refl n, h, (hat n t h).2 hreceive⟩⟩

/-- The requests in front of the first update. -/
def Plan.preamble (plan : Plan) : List (List UInt8) :=
  [[Command.queryDeviceIds], [Command.getFwParams]] ++ [plan.announces] ++ plan.pairs.map plan.tells

variable (device : AcceptingDevice pkg record table pkgLen events)
include device

theorem gets_first_update (hplan : plan = planOf pkg record table) (some_pair : 0 < plan.pairs.length) :
    Gets pkg pkgLen events 0 (Stands plan 0 0 plan.preamble .readyXfer .updateComponentSetupReq) := by
  subst hplan
  refine (gets_identified device).trans fun m s _ h identified => ?_
  refine (gets_granted device some_pair h identified).trans fun m s _ h stands => ?_
  exact gets_updates device h stands

/-- With no other component matching, every pair is updated, and all are activated. -/
theorem gets_all (h : At pkg pkgLen events n = some s)
    (stands : Stands plan i 0 requests .readyXfer .updateComponentSetupReq s)
    (single : ∀ j < plan.imageCount, ¬ plan.additional j) :
    Gets pkg pkgLen events n (fun s' =>
      requestsOf s'.log = requests ++ (plan.pairsFrom i).map plan.offers ++ [[Command.activateFw, 0]]) := by
  obtain ⟨d, hd⟩ : ∃ d, plan.imageCount - i = d := ⟨_, rfl⟩
  have himage : i < plan.imageCount := by
    have himage := stands.standing.setUp.image
    rwa [stands.standing.image] at himage
  induction d generalizing n s i requests with
  | zero => omega
  | succ d ih =>
    rw [plan.pairsFrom_cons himage, List.map_append, ← List.append_assoc]
    by_cases hmore : i + 1 < plan.imageCount
    · refine ((gets_next_image device h stands (single i himage) hmore).later (Nat.le_succ n)).trans
        fun m s _ h stands => ?_
      exact ih h stands (by omega) hmore
    · have hlast := Nat.le_of_not_lt hmore
      rw [plan.pairsFrom_nil hlast, List.map_nil, List.append_nil]
      exact (gets_activated device h stands (single i himage) hlast).later (Nat.le_succ n)

/-- An image on the way to `b` no other component matches is passed by. -/
theorem gets_to_image {b : Nat} (h : At pkg pkgLen events n = some s)
    (stands : Stands plan i 0 requests .readyXfer .updateComponentSetupReq s)
    (hle : i ≤ b) (hb : b < plan.imageCount) (single : ∀ j < b, ¬ plan.additional j) :
    Gets pkg pkgLen events n (fun s' => ∃ front, plan.pairsFrom i = front ++ plan.pairsFrom b ∧
      Stands plan b 0 (requests ++ front.map plan.offers) .readyXfer .updateComponentSetupReq s') := by
  obtain ⟨d, hd⟩ : ∃ d, b - i = d := ⟨_, rfl⟩
  induction d generalizing n s i requests with
  | zero =>
    obtain rfl : i = b := by omega
    refine Reaches.now h ⟨[], rfl, ?_⟩
    rw [List.map_nil, List.append_nil]
    exact stands
  | succ d ih =>
    refine ((gets_next_image device h stands (single i (by omega)) (by omega)).later
      (Nat.le_succ n)).trans fun m s _ h stands => ?_
    refine (ih h stands (by omega) (by omega)).mono fun s' hfront => ?_
    obtain ⟨front, hpairs, stands⟩ := hfront
    refine ⟨plan.pairsOf i 0 ++ front, ?_, ?_⟩
    · rw [plan.pairsFrom_cons (by omega), hpairs, List.append_assoc]
    · rw [List.map_append, ← List.append_assoc]
      exact stands

omit device in
theorem prefix_of_first {P : List UInt8 → Bool} {front back later : List (List UInt8)}
    {request : List UInt8} (h : later <+: front ++ request :: back)
    (hnone : ∀ r ∈ later, P r = false) (hrequest : P request = true) : later <+: front := by
  have hfront : front <+: front ++ request :: back := List.prefix_append _ _
  by_cases hle : later.length ≤ front.length
  · exact List.prefix_of_prefix_length_le h hfront hle
  · have hnext : front ++ [request] <+: front ++ request :: back := ⟨back, by simp⟩
    have hin : front ++ [request] <+: later :=
      List.prefix_of_prefix_length_le hnext h (by simp; omega)
    have hmem : request ∈ later := hin.subset (by simp)
    exact absurd ((hnone request hmem).symm.trans hrequest) Bool.false_ne_true

omit device in
/-- Whatever has been sent without an update was sent in front of the first. -/
theorem prefix_of_sent {P : List UInt8 → Bool} {front back : List (List UInt8)}
    {request : List UInt8} (h : At pkg pkgLen events n = some s)
    (hlog : requestsOf s.log = front ++ request :: back) (hrequest : P request = true)
    (h' : At pkg pkgLen events m = some s') (hnone : ∀ r ∈ requestsOf s'.log, P r = false) :
    requestsOf s'.log <+: front := by
  rcases Nat.le_total m n with hle | hle
  · have hlonger := requestsOf_mono h' h hle
    rw [hlog] at hlonger
    exact prefix_of_first hlonger hnone hrequest
  · have hlonger := requestsOf_mono h h' hle
    rw [hlog] at hlonger
    have hmem := hlonger.subset (List.mem_append_right front (List.mem_cons_self ..))
    exact absurd ((hnone request hmem).symm.trans hrequest) Bool.false_ne_true

end

section
variable {plan : Plan} {pkgLen : Nat} {command sent : UInt8}

theorem commands_none {f : Nat × Nat → List UInt8} (hf : ∀ pair, (f pair).head? = some sent)
    (hne : sent ≠ command) (pairs : List (Nat × Nat)) :
    ∀ request ∈ pairs.map f, Commands command request = false := by
  intro request hrequest
  obtain ⟨pair, -, rfl⟩ := List.mem_map.mp hrequest
  rw [Commands, hf, beq_eq_false_iff_ne]
  exact fun h => hne (Option.some.inj h)

theorem filter_commands_none {requests : List (List UInt8)}
    (h : ∀ request ∈ requests, Commands command request = false) :
    requests.filter (Commands command) = [] :=
  List.filter_eq_nil_iff.mpr fun request hrequest => by simp [h request hrequest]

theorem filter_commands_all {f : Nat × Nat → List UInt8} (hf : ∀ pair, (f pair).head? = some command)
    (pairs : List (Nat × Nat)) : (pairs.map f).filter (Commands command) = pairs.map f := by
  refine List.filter_eq_self.mpr fun request hrequest => ?_
  obtain ⟨pair, -, rfl⟩ := List.mem_map.mp hrequest
  rw [Commands, hf, beq_self_eq_true]

/-- Only the component table is passed in front of the first update. -/
theorem preamble_none (hne : command ∉ [Command.queryDeviceIds, Command.getFwParams,
    Command.requestUpdate, Command.passComponentTable]) :
    ∀ request ∈ plan.preamble, Commands command request = false := by
  simp only [List.mem_cons, List.not_mem_nil, or_false, not_or] at hne
  intro request hrequest
  rcases List.mem_append.mp hrequest with hfirst | htells
  · simp only [List.cons_append, List.nil_append, List.mem_cons, List.not_mem_nil, or_false] at hfirst
    rcases hfirst with rfl | rfl | rfl
    · exact beq_eq_false_iff_ne.mpr fun h => hne.1 (Option.some.inj h).symm
    · exact beq_eq_false_iff_ne.mpr fun h => hne.2.1 (Option.some.inj h).symm
    · exact beq_eq_false_iff_ne.mpr fun h => hne.2.2.1 (Option.some.inj h).symm
  · exact commands_none (fun _ => rfl) (fun h => hne.2.2.2 h.symm) _ request htells

theorem preamble_passes :
    plan.preamble.filter (Commands Command.passComponentTable) = plan.pairs.map plan.tells := by
  rw [Plan.preamble, List.filter_append, filter_commands_all fun _ => rfl]
  rfl

theorem preamble_announces :
    plan.preamble.filter (Commands Command.requestUpdate) = [plan.announces] := by
  rw [Plan.preamble, List.filter_append, filter_commands_none (commands_none (fun _ => rfl) (by decide) _)]
  rfl

/-- Every request carries the flag of the first, so only the first is framed right. -/
theorem framed_pairs (some_pair : 0 < plan.pairs.length) :
    (plan.pairs.map plan.tells = plan.pairs.mapIdx fun j pair => Command.passComponentTable ::
      plan.passRequest pair.1 pair.2 (frameFlag j plan.pairs.length)) ↔ plan.pairs.length = 1 := by
  constructor
  · intro heq
    by_contra hne
    have htwo : 1 < plan.pairs.length := by omega
    have hsecond := congrArg (fun requests => requests[1]?) heq
    simp only [List.getElem?_map, List.getElem?_mapIdx, List.getElem?_eq_getElem htwo,
      Option.map_some, Option.some.injEq, Plan.tells, List.cons.injEq, true_and] at hsecond
    have hflag : transferFlag 0 plan.pairs.length = frameFlag 1 plan.pairs.length :=
      Option.some.inj (congrArg List.head? hsecond)
    have hstart : transferFlag 0 plan.pairs.length = transferFlagStart := by
      simp only [transferFlag, if_neg (show ¬ 0 + 1 = plan.pairs.length by omega)]
      rfl
    rw [hstart, frameFlag, if_neg (by omega), if_neg (by decide)] at hflag
    split at hflag
    · exact absurd hflag (by decide)
    · exact absurd hflag (by decide)
  · intro hone
    obtain ⟨pair, hpair⟩ := List.length_eq_one_iff.mp hone
    have htells : plan.tells pair = Command.passComponentTable ::
        plan.passRequest pair.1 pair.2 (transferFlag 0 1) := by
      rw [Plan.tells, hone]
    rw [hone, hpair, List.map_singleton, htells]
    rfl

end

section
variable {pkg : Memory} {record : Nat} {table : List UInt8} {pkgLen : Nat}
  {events : Nat → Input × Globals}

/-- The first pair is offered before the component table is passed again. -/
theorem gets_framed {plan : Plan} (device : AcceptingDevice pkg record table pkgLen events)
    (hplan : plan = planOf pkg record table) {pair : Nat × Nat} (hpair : plan.pairs = [pair])
    (single : ∀ i < pair.1, ¬ plan.additional i) :
    Gets pkg pkgLen events 0 (fun s => requestsOf s.log = plan.preamble ++ [plan.offers pair]) := by
  have some_pair : 0 < plan.pairs.length := by
    rw [hpair]
    exact Nat.one_pos
  have hmem : pair ∈ plan.pairs := by
    rw [hpair]
    exact List.mem_singleton_self _
  obtain ⟨himage, hof⟩ := plan.image_of_pair hmem
  refine (gets_first_update device hplan some_pair).trans fun m s _ h stands => ?_
  refine (gets_to_image device h stands (Nat.zero_le _) himage single).trans fun m s _ h hfront => ?_
  obtain ⟨front, hpairs, stands⟩ := hfront
  have hlater := plan.mem_pairsFrom_of_le hmem (Nat.le_refl _)
  have hfront : front = [] := by
    have hlength := congrArg List.length (hpair.symm.trans hpairs)
    rw [List.length_append, List.length_singleton] at hlength
    have hpos := List.length_pos_of_mem hlater
    exact List.eq_nil_of_length_eq_zero (by omega)
  subst hfront
  rw [List.map_nil, List.append_nil] at stands
  have happ : plan.applicable pair.1 = true := by
    cases happ : plan.applicable pair.1 with
    | true => rfl
    | false =>
      rw [plan.pairsOf_skip happ] at hof
      cases hof
  cases hnext : plan.next pair.1 0 with
  | mk found k =>
    cases found with
    | false =>
      rw [plan.pairsOf_none hnext] at hof
      cases hof
    | true =>
      have hk : (pair.1, k) ∈ plan.pairs := by
        change (pair.1, k) ∈ plan.pairsFrom 0
        rw [hpairs, List.nil_append, plan.pairsFrom_cons himage, plan.pairsOf_found happ hnext]
        exact List.mem_cons_self ..
      rw [hpair, List.mem_singleton] at hk
      rw [← hk]
      exact ((gets_offered device h stands happ hnext).later (Nat.le_succ _)).mono
        fun s' offered => offered.1.log

/-- In front of an image another component matches there is nothing to update, or the
component table is passed again before the only update. -/
theorem gets_again {plan : Plan} (device : AcceptingDevice pkg record table pkgLen events)
    (hplan : plan = planOf pkg record table) {pair : Nat × Nat} (hpair : plan.pairs = [pair])
    {b : Nat} (hb : b < pair.1) (hadditional : plan.additional b)
    (single : ∀ i < b, ¬ plan.additional i) :
    Gets pkg pkgLen events 0 (fun s => requestsOf s.log = plan.preamble ++ [plan.tells pair]) := by
  have hmem : pair ∈ plan.pairs := by
    rw [hpair]
    exact List.mem_singleton_self _
  have himage := (plan.image_of_pair hmem).1
  have some_pair : 0 < plan.pairs.length := List.length_pos_of_mem hmem
  refine (gets_first_update device hplan some_pair).trans fun m s _ h stands => ?_
  refine (gets_to_image device h stands (Nat.zero_le _) (Nat.lt_trans hb himage) single).trans
    fun m s _ h hfront => ?_
  obtain ⟨front, hpairs, stands⟩ := hfront
  refine ((gets_anew device h stands hadditional).later (Nat.le_succ _)).mono fun s' hanew => ?_
  obtain ⟨first, again, hof, stands⟩ := hanew
  have hlater : pair ∈ plan.pairsFrom (b + 1) := plan.mem_pairsFrom_of_le hmem hb
  rw [plan.pairsFrom_cons (Nat.lt_trans hb himage), hof] at hpairs
  have hlength := congrArg List.length (hpair.symm.trans hpairs)
  simp only [List.length_append, List.length_singleton] at hlength
  have hpos := List.length_pos_of_mem hlater
  obtain rfl : front = [] := List.eq_nil_of_length_eq_zero (by omega)
  obtain rfl : first = [] := List.eq_nil_of_length_eq_zero (by omega)
  obtain rfl : again = [] := List.eq_nil_of_length_eq_zero (by omega)
  have hrest : plan.pairsFrom (b + 1) = [pair] := (hpair.symm.trans hpairs).symm
  have hlog := stands.log
  rw [hrest] at hlog
  simpa using hlog

/-- Framing leaves room for one pair, and for nothing behind the first component table. -/
theorem one_of_framed {plan : Plan} (device : AcceptingDevice pkg record table pkgLen events)
    (hplan : plan = planOf pkg record table) (some_pair : 0 < plan.pairs.length)
    (framed : Framed plan pkgLen events) :
    plan.pairs.length = 1 ∧ ∀ later,
      Gets pkg pkgLen events 0 (fun s => requestsOf s.log = plan.preamble ++ later) →
        (∀ request ∈ later, Commands Command.updateComponent request = false) →
          later.filter (Commands Command.passComponentTable) = [] := by
  have hpkg : plan.pkg = pkg := by
    rw [hplan]
    rfl
  rw [Framed, hpkg] at framed
  obtain ⟨n, s, front, update, back, h, hlog, hupdate, hfront, hframed⟩ := framed
  have hpreamble : ∀ request ∈ plan.preamble, Commands Command.updateComponent request = false :=
    preamble_none (by decide)
  have hsent : ∀ (later : List (List UInt8)),
      Gets pkg pkgLen events 0 (fun s => requestsOf s.log = plan.preamble ++ later) →
        (∀ request ∈ later, Commands Command.updateComponent request = false) →
          plan.preamble ++ later <+: front := by
    rintro later ⟨m, s', -, h', hlog'⟩ hnone
    rw [← hlog']
    refine prefix_of_sent h hlog hupdate h' fun request hrequest => ?_
    rw [hlog'] at hrequest
    exact (List.mem_append.mp hrequest).elim (hpreamble request) (hnone request)
  have hcount := congrArg List.length hframed
  rw [List.length_mapIdx] at hcount
  obtain ⟨more, rfl⟩ := hsent [] ((gets_first_update device hplan some_pair).mono fun s stands =>
    stands.log.trans (List.append_nil _).symm) nofun
  rw [List.append_nil, List.filter_append, preamble_passes, List.length_append, List.length_map]
    at hcount
  have hmore : more.filter (Commands Command.passComponentTable) = [] :=
    List.eq_nil_of_length_eq_zero (by omega)
  rw [List.append_nil, List.filter_append, preamble_passes, hmore, List.append_nil] at hframed
  refine ⟨(framed_pairs some_pair).mp hframed, fun later hlater hnone => ?_⟩
  obtain ⟨rest, hrest⟩ := hsent later hlater hnone
  rw [List.append_nil, List.append_assoc] at hrest
  rw [← List.append_cancel_left hrest, List.filter_append] at hmore
  exact (List.append_eq_nil_iff.mp hmore).1

/-- Exactly when there is one pair, and no image in front of it that another component
matches, the component table is framed as it should be. -/
theorem framed_iff (device : AcceptingDevice pkg record table pkgLen events)
    (some_pair : 0 < (planOf pkg record table).pairs.length) :
    Framed (planOf pkg record table) pkgLen events ↔
      (planOf pkg record table).pairs.length = 1 ∧
        ∀ pair ∈ (planOf pkg record table).pairs, ∀ i < pair.1,
          ¬ (planOf pkg record table).additional i := by
  obtain ⟨plan, hplan⟩ : ∃ plan, plan = planOf pkg record table := ⟨_, rfl⟩
  rw [← hplan] at some_pair ⊢
  constructor
  · intro framed
    obtain ⟨hone, hnothing⟩ := one_of_framed device hplan some_pair framed
    refine ⟨hone, fun pair hmem i => ?_⟩
    obtain ⟨pair', hpair⟩ := List.length_eq_one_iff.mp hone
    have hpair : plan.pairs = [pair] := by
      rw [hpair, List.mem_singleton] at hmem
      rw [hpair, hmem]
    induction i using Nat.strongRecOn with
    | _ b ih =>
      intro hb hadditional
      have hagain := gets_again device hplan hpair hb hadditional
        fun i hi => ih i hi (Nat.lt_trans hi hb)
      have hnone := hnothing [plan.tells pair] hagain fun request hrequest => by
        rw [List.mem_singleton.mp hrequest]
        rfl
      cases hnone
  · rintro ⟨hone, single⟩
    obtain ⟨pair, hpair⟩ := List.length_eq_one_iff.mp hone
    have hmem : pair ∈ plan.pairs := by
      rw [hpair]
      exact List.mem_singleton_self _
    have hpkg : plan.pkg = pkg := by
      rw [hplan]
      rfl
    rw [Framed, hpkg]
    obtain ⟨n, s, -, h, hlog⟩ := gets_framed device hplan hpair (single pair hmem)
    refine ⟨n, s, plan.preamble, plan.offers pair, [], h, hlog, rfl, preamble_none (by decide), ?_⟩
    exact preamble_passes.trans ((framed_pairs some_pair).mpr hone)

end

/-! Devices with one component and with two. -/

/-- The parameters of a device with a component for each of these ids. -/
def parametersFor (ids : List UInt8) : List UInt8 :=
  [0, 0, 0, 0, UInt8.ofNat ids.length, 0, 0, 0, 0, 0] ++
    ids.flatMap fun id => [10, 0, id, 0] ++ List.replicate 35 0

def tableFor (ids : List UInt8) : List UInt8 :=
  [mctpTypePldm, 2, pldmTypeFwUpdate, Command.getFwParams, Completion.success] ++ parametersFor ids

def grants (ids : List UInt8) (fits : (parametersFor ids).length ≤ 100) : List (Input × Globals) :=
  [tick] ++ exchange 1 Command.queryDeviceIds [0, 0, 0, 0, 0] deviceIds_fit ++
    exchange 2 Command.getFwParams (parametersFor ids) fits ++ [tick] ++
    exchange 3 Command.requestUpdate [0, 0, 0] update_fits

/-- It takes an entry of the component table. -/
def takes (instanceId : UInt8) : List (Input × Globals) :=
  exchange instanceId Command.passComponentTable [0, 0] table_fits ++ [tick]

def installs (instanceId : UInt8) : List (Input × Globals) :=
  exchange instanceId Command.updateComponent [0, 0, 0, 0, 0, 0, 0, 0] component_fits ++ [tick] ++
    reports Command.transferComplete ++ reports Command.verifyComplete ++
    reports Command.applyComplete

/-- It activates what it was given, and is not asked anything any more. -/
def activates (instanceId : UInt8) : List (Input × Globals) :=
  exchange instanceId Command.activateFw [0, 0] table_fits ++ [tick]

/-- The events of a device with one component. -/
def oneComponent (n : Nat) : Input × Globals :=
  (grants [1] (by decide) ++ takes 4 ++ installs 5 ++ activates 6).getD n tick

theorem oneComponent_accepting :
    AcceptingDevice samplePackage 37 (tableFor [1]) 100 oneComponent := by
  have hdone : (run Session.advance (grants [1] (by decide) ++ takes 4 ++ installs 5 ++ activates 6)
      (Session.create samplePackage 100)).map (fun s => (s.task.complete, s.task.taskState)) =
        some (true, .max) := by
    decide +kernel
  obtain ⟨s, hrun, hs⟩ := Option.map_eq_some_iff.mp hdone
  obtain ⟨complete, hstate⟩ := Prod.mk.inj hs
  refine acceptingDevice_of_list (by decide +kernel) ⟨rfl, rfl⟩ hrun complete ?_
  rw [hstate]
  exact nofun

theorem framed_sample : Framed (planOf samplePackage 37 (tableFor [1])) 100 oneComponent :=
  (framed_iff oneComponent_accepting (by decide)).mpr (by decide)

/-- A package with two images, for the two components of a device. -/
def twoImages : Memory := memoryOf <|
  List.replicate 16 0 ++ [1, 0, 0] ++ List.replicate 13 0 ++ [8, 0, 0, 0] ++
    [1] ++ [12, 0, 0, 0, 0, 0, 0, 0, 0, 0, 0, 3] ++ [2, 0] ++
    ([1, 2] : List UInt8).flatMap fun id => [10, 0, id, 0] ++ List.replicate 18 0

/-- The events of a device with two components. -/
def twoComponents (n : Nat) : Input × Globals :=
  (grants [1, 2] (by decide) ++ takes 4 ++ takes 5 ++ installs 6 ++ installs 7 ++ activates 8).getD n tick

theorem twoComponents_accepting : AcceptingDevice twoImages 37 (tableFor [1, 2]) 100 twoComponents := by
  have hdone : (run Session.advance (grants [1, 2] (by decide) ++ takes 4 ++ takes 5 ++ installs 6 ++
      installs 7 ++ activates 8) (Session.create twoImages 100)).map
        (fun s => (s.task.complete, s.task.taskState)) = some (true, .max) := by
    decide +kernel
  obtain ⟨s, hrun, hs⟩ := Option.map_eq_some_iff.mp hdone
  obtain ⟨complete, hstate⟩ := Prod.mk.inj hs
  refine acceptingDevice_of_list (by decide +kernel) ⟨rfl, rfl⟩ hrun complete ?_
  rw [hstate]
  exact nofun

/-- Both entries of the component table carry START. -/
theorem framed_broken : AcceptingDevice twoImages 37 (tableFor [1, 2]) 100 twoComponents ∧
    (planOf twoImages 37 (tableFor [1, 2])).pairs.length = 2 ∧
      ¬ Framed (planOf twoImages 37 (tableFor [1, 2])) 100 twoComponents := by
  have htwo : (planOf twoImages 37 (tableFor [1, 2])).pairs.length = 2 := by decide
  refine ⟨twoComponents_accepting, htwo, fun framed => ?_⟩
  have hone := (one_of_framed twoComponents_accepting rfl (by rw [htwo]; decide) framed).1
  rw [htwo] at hone
  exact absurd hone (by decide)

/-! The updates. -/

section
variable {plan : Plan}

/-- With no other component matching, no image has more than one pair. -/
theorem length_pairs_le (single : ∀ i < plan.imageCount, ¬ plan.additional i) :
    plan.pairs.length ≤ plan.imageCount := by
  have hof : ∀ i < plan.imageCount, (plan.pairsOf i 0).length ≤ 1 := by
    intro i hi
    have hnot := single i hi
    unfold Plan.additional at hnot
    unfold Plan.pairsOf
    split at hnot
    · rename_i happ
      rw [if_pos happ, List.length_map]
      omega
    · rename_i happ
      rw [if_neg happ]
      exact Nat.zero_le 1
  have hfrom : ∀ d i, plan.imageCount - i = d → (plan.pairsFrom i).length ≤ d := by
    intro d
    induction d with
    | zero =>
      intro i hi
      rw [plan.pairsFrom_nil (by omega)]
      exact Nat.le_refl 0
    | succ d ih =>
      intro i hi
      rw [plan.pairsFrom_cons (by omega), List.length_append]
      have himage := hof i (by omega)
      have hrest := ih (i + 1) (by omega)
      omega
  exact hfrom plan.imageCount 0 rfl

theorem imageCount_lt (plan : Plan) : plan.imageCount < 256 ^ 2 :=
  Nat.lt_of_lt_of_eq (fromLittleEndian_lt _) (by rw [length_slice])

/-- The announcement is right, as long as the count fits its field. -/
theorem announced_pairs (h : plan.pairs.length < 256 ^ 2) :
    announcedComponents plan.announces = plan.pairs.length := by
  have hcount : plan.announces.drop 5 = toLittleEndian 2 plan.pairs.length ++
      (plan.announces.drop 5).drop 2 := by
    simp only [Plan.announces, requestUpdateRequest, List.append_assoc, List.drop_succ_cons,
      List.drop_left' (length_toLittleEndian 4 _), List.drop_left' (length_toLittleEndian 2 _)]
  rw [announcedComponents, field, hcount, List.take_left' (length_toLittleEndian 2 _)]
  exact fromLittleEndian_toLittleEndian 2 _ h

end

section
variable {pkg : Memory} {record : Nat} {table : List UInt8} {pkgLen : Nat}
  {events : Nat → Input × Globals} {n i : Nat} {s : Session}

abbrev Inactive (requests : List (List UInt8)) : Prop :=
  ∀ request ∈ requests, Commands Command.activateFw request = false

/-- Where another component matches some image, the updates begin anew again and again. -/
theorem gets_round {plan : Plan} (device : AcceptingDevice pkg record table pkgLen events)
    (h : At pkg pkgLen events n = some s) {requests : List (List UInt8)}
    (stands : Stands plan i 0 requests .readyXfer .updateComponentSetupReq s)
    (inactive : Inactive requests) {b : Nat} (hle : i ≤ b) (hb : b < plan.imageCount)
    (hadditional : plan.additional b) :
    Gets pkg pkgLen events (n + 1) (fun s' => ∃ requests', Inactive requests' ∧
      Stands plan 0 0 requests' .readyXfer .updateComponentSetupReq s') := by
  have hoffers : ∀ (requests : List (List UInt8)) (pairs : List (Nat × Nat)), Inactive requests →
      Inactive (requests ++ pairs.map plan.offers) := by
    intro requests pairs inactive request hrequest
    rcases List.mem_append.mp hrequest with hold | hnew
    · exact inactive request hold
    · exact commands_none (fun _ => rfl) (by decide) pairs request hnew
  obtain ⟨d, hd⟩ : ∃ d, b - i = d := ⟨_, rfl⟩
  induction d generalizing n s i requests with
  | zero =>
    obtain rfl : i = b := by omega
    refine (gets_anew device h stands hadditional).mono fun s' hanew => ?_
    obtain ⟨first, again, -, stands⟩ := hanew
    refine ⟨_, fun request hrequest => ?_, stands⟩
    rcases List.mem_append.mp hrequest with hold | hnew
    · exact hoffers _ first inactive request hold
    · exact commands_none (fun _ => rfl) (by decide) _ request hnew
  | succ d ih =>
    by_cases hsingle : plan.additional i
    · refine (gets_anew device h stands hsingle).mono fun s' hanew => ?_
      obtain ⟨first, again, -, stands⟩ := hanew
      refine ⟨_, fun request hrequest => ?_, stands⟩
      rcases List.mem_append.mp hrequest with hold | hnew
      · exact hoffers _ first inactive request hold
      · exact commands_none (fun _ => rfl) (by decide) _ request hnew
    · refine (gets_next_image device h stands hsingle (by omega)).trans fun m s hm h stands => ?_
      exact (ih h stands (hoffers _ _ inactive) (by omega) (by omega)).later (Nat.le_succ m)

theorem gets_rounds {plan : Plan} (device : AcceptingDevice pkg record table pkgLen events)
    (hplan : plan = planOf pkg record table) (some_pair : 0 < plan.pairs.length) {b : Nat}
    (hb : b < plan.imageCount) (hadditional : plan.additional b) (n : Nat) :
    Gets pkg pkgLen events n (fun s => Inactive (requestsOf s.log)) := by
  have hround : Gets pkg pkgLen events n (fun s' => ∃ requests', Inactive requests' ∧
      Stands plan 0 0 requests' .readyXfer .updateComponentSetupReq s') := by
    induction n with
    | zero =>
      exact (gets_first_update device hplan some_pair).mono fun s stands =>
        ⟨_, preamble_none (by decide), stands⟩
    | succ n ih =>
      obtain ⟨m, s, hm, h, requests, inactive, stands⟩ := ih
      exact (gets_round device h stands inactive (Nat.zero_le b) hb hadditional).later
        (Nat.succ_le_succ hm)
  refine hround.mono fun s hs => ?_
  obtain ⟨requests, inactive, stands⟩ := hs
  rw [stands.log]
  exact inactive

/-- Where the pairs are updated and activated, at some time something has been activated. -/
theorem active_of_iterates {plan : Plan} (iterates : Iterates plan pkgLen events) :
    ∃ n s, At plan.pkg pkgLen events n = some s ∧
      ¬ Gets plan.pkg pkgLen events n (fun s => Inactive (requestsOf s.log)) := by
  obtain ⟨n, s, front, activate, back, h, hlog, hactivate, -⟩ := iterates
  refine ⟨n, s, h, ?_⟩
  rintro ⟨m, s', hm, h', inactive⟩
  have hlonger := requestsOf_mono h h' hm
  have hmem : activate ∈ requestsOf s.log := by
    rw [hlog]
    exact List.mem_append_right _ (List.mem_cons_self ..)
  exact absurd ((inactive activate (hlonger.subset hmem)).symm.trans hactivate) Bool.false_ne_true

/-- Exactly when there is something to update, and no image that another component matches,
each pair is updated once and everything is activated. -/
theorem iterates_iff (device : AcceptingDevice pkg record table pkgLen events) :
    Iterates (planOf pkg record table) pkgLen events ↔
      0 < (planOf pkg record table).pairs.length ∧
        ∀ i < (planOf pkg record table).imageCount, ¬ (planOf pkg record table).additional i := by
  obtain ⟨plan, hplan⟩ : ∃ plan, plan = planOf pkg record table := ⟨_, rfl⟩
  have hpkg : plan.pkg = pkg := by
    rw [hplan]
    rfl
  rw [← hplan]
  constructor
  · intro iterates
    obtain ⟨n, s, h, hactive⟩ := active_of_iterates iterates
    rw [hpkg] at h hactive
    have some_pair : 0 < plan.pairs.length := by
      by_contra hnone
      obtain ⟨m, s', -, h', complete, hlog'⟩ := (gets_identified device).trans
        fun m s _ h identified => gets_refused (hplan ▸ Nat.eq_zero_of_not_pos hnone) h identified
      have inactive : Inactive (requestsOf s'.log) := by
        rw [hlog']
        decide
      rcases Nat.le_total n m with hle | hle
      · exact hactive ⟨m, s', hle, h', inactive⟩
      · exact hactive ⟨n, s, Nat.le_refl n, h, at_complete h' complete h hle ▸ inactive⟩
    refine ⟨some_pair, fun b hb hadditional => hactive ?_⟩
    exact gets_rounds device hplan some_pair hb hadditional n
  · rintro ⟨some_pair, single⟩
    rw [Iterates, hpkg]
    obtain ⟨n, s, -, h, hlog⟩ := (gets_first_update device hplan some_pair).trans
      fun m s _ h stands => gets_all device h stands single
    refine ⟨n, s, plan.preamble ++ plan.pairs.map plan.offers, [Command.activateFw, 0], [], h, hlog, rfl,
      ?_, ?_⟩
    · rw [List.filter_append, filter_commands_none (preamble_none (by decide)),
        filter_commands_all fun _ => rfl]
      rfl
    · rw [List.filter_append, preamble_announces,
        filter_commands_none (commands_none (fun _ => rfl) (by decide) _), List.append_nil,
        List.map_singleton, announced_pairs]
      exact Nat.lt_of_le_of_lt (length_pairs_le single) (imageCount_lt plan)

end

theorem iterates_sample : Iterates (planOf twoImages 37 (tableFor [1, 2])) 100 twoComponents :=
  (iterates_iff twoComponents_accepting).mpr (by decide)

/-- What a device with two components for one image has been asked when it is offered the first
one again. -/
def oneForTwo : List (Input × Globals) :=
  grants [1, 1] (by decide) ++ takes 4 ++ takes 5 ++ installs 6 ++ takes 7 ++ [tick, tick]

/-- A device with two components for one image is offered the first one over and over; nothing is
ever activated. -/
theorem iterates_broken :
    (planOf samplePackage 37 (tableFor [1, 1])).pairs = [(0, 0), (0, 1)] ∧
    Along Session.advance (fun s event => Accepts samplePackage 37 (tableFor [1, 1]) s event ∧
      (s.task.taskState = .receive → Delivers s event)) oneForTwo (Session.create samplePackage 100) ∧
    (run Session.advance oneForTwo (Session.create samplePackage 100)).map
      (fun s => (requestsOf s.log).filter (Commands Command.updateComponent)) =
        some [(planOf samplePackage 37 (tableFor [1, 1])).offers (0, 0),
          (planOf samplePackage 37 (tableFor [1, 1])).offers (0, 0)] ∧
    ∀ events, AcceptingDevice samplePackage 37 (tableFor [1, 1]) 100 events →
      ¬ Iterates (planOf samplePackage 37 (tableFor [1, 1])) 100 events := by
  refine ⟨by decide +kernel, by decide +kernel, by decide +kernel, fun events device iterates => ?_⟩
  obtain ⟨n, s, h, hactive⟩ := active_of_iterates iterates
  exact hactive (gets_rounds device rfl (by decide) (show 0 < _ by decide)
    (by decide) n)

end Pldm
