import Edk2Nvidia.NorFlash
import Mathlib.Data.List.Induction

/-! One request to every ERoT the library has located. What the boot services and the ERoTs answer
is an input of each call. -/
namespace Erot
open Flash

def deviceTypeErot : UInt8 := 1

/-- `MCTP_DEVICE_ATTRIBUTES`, without the name. -/
structure Attributes where
  deviceType : UInt8
  socket : UInt8
deriving DecidableEq, Repr

variable {P : Type}

/-- What `HandleProtocol` and then `GetDeviceAttributes` answer for a handle. -/
structure Handle (P : Type) where
  handleProtocol : EfiStatus
  protocol : P
  getDeviceAttributes : EfiStatus
  attributes : Attributes

/-- What the boot services answer when the ERoTs are located. -/
structure Services (P : Type) where
  locateHandleBuffer : EfiStatus
  handles : List (Handle P)
  allocateRuntimeZeroPool : Bool

/-- `mErotLibInitialized`, and `mErots` as far as `mNumErots`. -/
structure Library (P : Type) where
  initialized : Bool
  erots : List P
deriving DecidableEq, Repr

namespace Library

def start : Library P := ⟨false, []⟩

/-- The loop over the handles, and the test behind it; `erots` are those found so far. -/
def locateLoop : List (Handle P) → List P → EfiStatus × List P
  | [], erots => (if erots.length = 0 then .notFound else .success, erots)
  | handle :: handles, erots =>
    if handle.handleProtocol.isError then
      (handle.handleProtocol, erots)
    else if handle.getDeviceAttributes.isError then
      locateLoop handles erots
    else if handle.attributes.deviceType ≠ deviceTypeErot then
      locateLoop handles erots
    else
      locateLoop handles (erots ++ [handle.protocol])

/-- `ErotLocateProtocols`, up to `Done`. -/
def locate (services : Services P) (erots : List P) : EfiStatus × List P :=
  if services.locateHandleBuffer.isError then
    (services.locateHandleBuffer, erots)
  else if services.allocateRuntimeZeroPool = false then
    (.outOfResources, erots)
  else
    locateLoop services.handles []

def erotLocateProtocols (services : Services P) (s : Library P) : EfiStatus × Library P :=
  let (status, erots) := locate services s.erots
  if status.isError then
    (status, { s with erots := [] })
  else
    (status, { s with erots })

def erotLibInit (services : Services P) (s : Library P) : EfiStatus × Library P :=
  if s.initialized then
    (.success, s)
  else
    let (status, s) := erotLocateProtocols services s
    if status.isError then
      (status, s)
    else
      (.success, { s with initialized := true })

def erotLibDeinit (s : Library P) : EfiStatus × Library P :=
  if s.initialized = false then
    (.success, s)
  else
    (.success, { initialized := true, erots := [] })

end Library

/-- What a `DoRequest` does: it succeeds with the response and its length, or fails, having written
what it received so far and perhaps a length. -/
inductive Exchange where
  | answered (response : List UInt8)
  | failed (received : List UInt8) (length : Option Nat)
deriving DecidableEq, Repr

/-- The response buffer and `ResponseLength`. -/
structure Response where
  buffer : Memory
  length : Nat

/-- The buffer and the length after the exchange. -/
def Exchange.deliver (exchange : Exchange) (response : Response) : Response :=
  match exchange with
  | answered bytes => ⟨overwrite response.buffer 0 bytes, bytes.length⟩
  | failed received length => ⟨overwrite response.buffer 0 received, length.getD response.length⟩

/-- What one ERoT does in a call: the status of `GetDeviceAttributes`, and the exchange. -/
structure Answer where
  getDeviceAttributes : EfiStatus
  doRequest : Exchange
deriving DecidableEq, Repr

/-- A call of `ErotSendRequestToAll`: its request and response check, the buffers as they are at
the call, and what the services and each ERoT do. -/
structure Call (P : Type) where
  request : List UInt8
  responseCheck : P → List UInt8 → Memory → Nat → EfiStatus
  response : Response
  services : Services P
  answers : Nat → Answer

namespace Call

/-- One turn of the loop, for the ERoT with this index. The status of `DoRequest` is dropped:
`Status` is still that of `GetDeviceAttributes`. -/
def turn (call : Call P) (index : Nat) (protocol : P) (response : Response) (error : Bool) :
    Response × Bool :=
  let answer := call.answers index
  let status := answer.getDeviceAttributes
  let response := answer.doRequest.deliver response
  if status.isError then
    (response, true)
  else
    let status := call.responseCheck protocol call.request response.buffer response.length
    if status.isError then
      (response, true)
    else
      (response, error)

/-- The loop over the ERoTs from this index on. -/
def loop (call : Call P) : Nat → List P → Response → Bool → Response × Bool
  | _, [], response, error => (response, error)
  | index, protocol :: erots, response, error =>
    let (response, error) := call.turn index protocol response error
    call.loop (index + 1) erots response error

end Call

def Library.erotSendRequestToAll (call : Call P) (s : Library P) : EfiStatus × Library P :=
  let (status, s) := s.erotLibInit call.services
  if status.isError then
    (status, s)
  else
    let (_, error) := call.loop 0 s.erots call.response false
    if error then
      (.deviceError, s)
    else
      (.success, s)

/-! One broadcast. -/

namespace Call

/-- The buffer and the length in front of the turn with this index. -/
def before (call : Call P) : Nat → Response
  | 0 => call.response
  | index + 1 => (call.answers index).doRequest.deliver (call.before index)

/-- The turn sets `Error`. -/
def Rejects (call : Call P) (index : Nat) (protocol : P) : Prop :=
  (call.answers index).getDeviceAttributes.isError = true ∨
    (call.responseCheck protocol call.request (call.before (index + 1)).buffer
      (call.before (index + 1)).length).isError = true

/-- This ERoT answered the request, and the check accepted what it answered. -/
def Acknowledged (call : Call P) (index : Nat) (protocol : P) : Prop :=
  ∃ bytes, (call.answers index).doRequest = .answered bytes ∧
    ∃ buffer, slice buffer 0 bytes.length = bytes ∧
      (call.responseCheck protocol call.request buffer bytes.length).isError = false

def Noticed (call : Call P) (erots : List P) : Prop :=
  (∃ index < erots.length, ∃ received length,
      (call.answers index).doRequest = .failed received length) →
    ∃ index protocol, erots[index]? = some protocol ∧ call.Rejects index protocol

variable {call : Call P}

theorem turn_before (index : Nat) (protocol : P) (error : Bool) :
    (call.turn index protocol (call.before index) error).1 = call.before (index + 1) := by
  unfold turn
  dsimp only
  split
  · rfl
  · split <;> rfl

theorem turn_error (index : Nat) (protocol : P) (error : Bool) :
    (call.turn index protocol (call.before index) error).2 = true ↔
      error = true ∨ call.Rejects index protocol := by
  unfold turn Rejects
  simp only [before]
  split
  · simp [*]
  · split <;> simp [*]

theorem loop_error (erots : List P) (index : Nat) (error : Bool) :
    (call.loop index erots (call.before index) error).2 = true ↔
      error = true ∨ ∃ i protocol, erots[i]? = some protocol ∧ call.Rejects (index + i) protocol := by
  induction erots generalizing index error with
  | nil => simp [loop]
  | cons first erots ih =>
    simp only [loop, turn_before, ih, turn_error]
    constructor
    · rintro ((herror | hfirst) | ⟨i, protocol, hget, hreject⟩)
      · exact .inl herror
      · exact .inr ⟨0, first, rfl, hfirst⟩
      · refine .inr ⟨i + 1, protocol, hget, ?_⟩
        rwa [Nat.add_right_comm] at hreject
    · rintro (herror | ⟨i, protocol, hget, hreject⟩)
      · exact .inl (.inl herror)
      · cases i with
        | zero =>
          cases hget
          exact .inl (.inr hreject)
        | succ i =>
          refine .inr ⟨i, protocol, hget, ?_⟩
          rwa [Nat.add_right_comm]

theorem acknowledged_of_not_rejects {index : Nat} {protocol : P} {bytes : List UInt8}
    (hanswer : (call.answers index).doRequest = .answered bytes)
    (h : ¬ call.Rejects index protocol) : call.Acknowledged index protocol := by
  refine ⟨bytes, hanswer, overwrite (call.before index).buffer 0 bytes, holds_overwrite _ _ _, ?_⟩
  rw [Rejects, not_or, before, hanswer] at h
  exact Bool.eq_false_iff.mpr h.2

end Call

namespace Library

/-- The library has been initialized, and no ERoT is known any more. -/
def Dismissed (s : Library P) : Prop := s.initialized = true ∧ s.erots = []

/-- A broadcast that reports success has reached an ERoT, and every ERoT has acknowledged. -/
def Honest (call : Call P) (s : Library P) : Prop :=
  (s.erotSendRequestToAll call).1 = .success →
    (s.erotSendRequestToAll call).2.erots ≠ [] ∧
      ∀ index protocol, (s.erotSendRequestToAll call).2.erots[index]? = some protocol →
        call.Acknowledged index protocol

def reached (call : Call P) (s : Library P) : List P := (s.erotLibInit call.services).2.erots

theorem locateLoop_ne_nil (handles : List (Handle P)) (erots : List P)
    (h : (locateLoop handles erots).1.isError = false) : (locateLoop handles erots).2 ≠ [] := by
  fun_induction locateLoop handles erots with
  | case1 erots =>
    rintro rfl
    cases h
  | case2 erots handle handles herror => exact absurd h (by simp [herror])
  | case3 erots handle handles hhandle hattributes ih => exact ih h
  | case4 erots handle handles hhandle hattributes htype ih => exact ih h
  | case5 erots handle handles hhandle hattributes htype ih => exact ih h

theorem locate_ne_nil (services : Services P) (erots : List P)
    (h : (locate services erots).1.isError = false) : (locate services erots).2 ≠ [] := by
  unfold locate at h ⊢
  split at h
  · rename_i herror
    exact absurd h (by simp [herror])
  · rename_i hlocate
    split at h
    · cases h
    · rename_i halloc
      rw [if_neg hlocate, if_neg halloc]
      exact locateLoop_ne_nil _ _ h

theorem erotLocateProtocols_spec (services : Services P) (s : Library P) :
    (s.erotLocateProtocols services).2.initialized = s.initialized ∧
      ((s.erotLocateProtocols services).1.isError = true →
        (s.erotLocateProtocols services).2.erots = []) ∧
      ((s.erotLocateProtocols services).1.isError = false →
        (s.erotLocateProtocols services).2.erots ≠ []) := by
  have hfound := locate_ne_nil services s.erots
  unfold erotLocateProtocols
  generalize locate services s.erots = located at hfound ⊢
  dsimp only
  by_cases herror : located.1.isError = true
  · simp [herror]
  · rw [if_neg herror]
    exact ⟨rfl, fun h => absurd h herror, hfound⟩

/-- Initializing fails and leaves nothing behind, or the library is initialized; ERoTs are known
then unless they have been dismissed. -/
theorem erotLibInit_spec (services : Services P) (s : Library P) :
    ((s.erotLibInit services).1.isError = true ∧ s.initialized = false ∧
        (s.erotLibInit services).2.initialized = false ∧ (s.erotLibInit services).2.erots = []) ∨
      ((s.erotLibInit services).1 = .success ∧ (s.erotLibInit services).2.initialized = true ∧
        ((s.erotLibInit services).2.erots = [] ↔ s.Dismissed)) := by
  unfold erotLibInit Dismissed
  obtain ⟨hflag, hfailed, hfound⟩ := erotLocateProtocols_spec services s
  by_cases hinit : s.initialized = true
  · right
    simp [hinit]
  · rw [if_neg hinit]
    dsimp only
    rw [Bool.not_eq_true] at hinit
    by_cases herror : (s.erotLocateProtocols services).1.isError = true
    · left
      rw [if_pos herror]
      exact ⟨herror, hinit, hflag.trans hinit, hfailed herror⟩
    · right
      rw [if_neg herror]
      refine ⟨rfl, rfl, fun h => absurd h (hfound (by simpa using herror)), fun h => ?_⟩
      rw [hinit] at h
      cases h.1

/-- What a broadcast returns: the error of the initialization, or whether a turn set `Error`. -/
theorem erotSendRequestToAll_spec (call : Call P) (s : Library P) :
    (s.erotSendRequestToAll call).2 = (s.erotLibInit call.services).2 ∧
      ((s.erotSendRequestToAll call).1 = .success ↔
        (s.erotLibInit call.services).1.isError = false ∧
          ¬ ∃ index protocol, (s.reached call)[index]? = some protocol ∧ call.Rejects index protocol) := by
  have hloop := call.loop_error (s.erotLibInit call.services).2.erots 0 false
  simp only [Bool.false_eq_true, false_or, Nat.zero_add, Call.before] at hloop
  unfold erotSendRequestToAll reached
  dsimp only
  split
  · rename_i herror
    refine ⟨rfl, fun h => ?_, fun h => ?_⟩
    · rw [show (s.erotLibInit call.services).1 = .success from h] at herror
      cases herror
    · rw [herror] at h
      cases h.1
  · rename_i hok
    split
    · rename_i herror
      exact ⟨rfl, nofun, fun h => absurd (hloop.mp herror) h.2⟩
    · rename_i hno
      exact ⟨rfl, fun _ => ⟨by simpa using hok, fun h => hno (hloop.mpr h)⟩, fun _ => rfl⟩

theorem honest_iff (call : Call P) (s : Library P) :
    s.Honest call ↔ ¬ s.Dismissed ∧ call.Noticed (s.reached call) := by
  obtain ⟨hstate, hstatus⟩ := erotSendRequestToAll_spec call s
  unfold Honest
  rw [hstate, hstatus]
  constructor
  · intro honest
    rcases erotLibInit_spec call.services s with ⟨herror, hflag, -, hleft⟩ | ⟨hok, -, hnil⟩
    · refine ⟨fun hdismissed => ?_, ?_⟩
      · rw [Dismissed, hflag] at hdismissed
        cases hdismissed.1
      · rintro ⟨index, hindex, -⟩
        rw [reached, hleft] at hindex
        cases hindex
    · have hquiet : (s.erotLibInit call.services).1.isError = false := by rw [hok]; rfl
      refine ⟨fun hdismissed => ?_, ?_⟩
      · -- without ERoTs no turn sets `Error`
        refine (honest ⟨hquiet, ?_⟩).1 (hnil.mpr hdismissed)
        rintro ⟨index, protocol, hget, -⟩
        rw [reached, hnil.mpr hdismissed] at hget
        cases hget
      · rintro ⟨index, hindex, received, length, hfailed⟩
        by_contra hnone
        obtain ⟨bytes, hanswered, -⟩ := (honest ⟨hquiet, hnone⟩).2 index _ (List.getElem?_eq_getElem hindex)
        rw [hfailed] at hanswered
        cases hanswered
  · rintro ⟨hdismissed, hnoticed⟩ ⟨hquiet, hnone⟩
    rcases erotLibInit_spec call.services s with ⟨herror, -⟩ | ⟨hok, -, hnil⟩
    · rw [hquiet] at herror
      cases herror
    · refine ⟨fun h => hdismissed (hnil.mp h), fun index protocol hget => ?_⟩
      have haccepted : ¬ call.Rejects index protocol := fun h => hnone ⟨index, protocol, hget, h⟩
      have hindex : index < (s.reached call).length := (List.getElem?_eq_some_iff.mp hget).choose
      cases hanswer : (call.answers index).doRequest with
      | answered bytes => exact Call.acknowledged_of_not_rejects hanswer haccepted
      | failed received length =>
        exact absurd (hnoticed ⟨index, hindex, received, length, hanswer⟩) hnone

end Library

/-! The library over a whole history of calls. -/

inductive Event (P : Type) where
  | init (services : Services P)
  | deinit
  | sendRequestToAll (call : Call P)

def Library.step (s : Library P) : Event P → Library P
  | .init services => (s.erotLibInit services).2
  | .deinit => s.erotLibDeinit.2
  | .sendRequestToAll call => (s.erotSendRequestToAll call).2

def Library.after (events : List (Event P)) : Library P := events.foldl Library.step .start

/-- The library has been deinitialized when it was initialized. -/
def Deinitialized (events : List (Event P)) : Prop :=
  ∃ earlier later, events = earlier ++ .deinit :: later ∧ (Library.after earlier).initialized = true

namespace Library

theorem step_dismissed (s : Library P) (event : Event P) :
    (s.step event).Dismissed ↔
      s.Dismissed ∨ (match event with | .deinit => s.initialized = true | _ => False) := by
  have hinit (services : Services P) : (s.erotLibInit services).2.Dismissed ↔ s.Dismissed := by
    rcases erotLibInit_spec services s with ⟨-, hflag, hflag', -⟩ | ⟨-, hflag, hnil⟩
    · simp [Dismissed, hflag, hflag']
    · simp [Dismissed, hflag, hnil]
  cases event with
  | init services => simp [step, hinit]
  | deinit =>
    simp only [step, erotLibDeinit, Dismissed]
    split <;> simp [*]
  | sendRequestToAll call => simp [step, (erotSendRequestToAll_spec call s).1, hinit]

theorem after_concat (events : List (Event P)) (event : Event P) :
    after (events ++ [event]) = (after events).step event := by
  simp [after]

theorem after_dismissed (events : List (Event P)) :
    (after events).Dismissed ↔ Deinitialized events := by
  induction events using List.reverseRecOn with
  | nil => simp [after, start, Dismissed, Deinitialized]
  | append_singleton events event ih =>
    rw [after_concat, step_dismissed, ih]
    constructor
    · rintro (⟨earlier, later, rfl, hflag⟩ | hnow)
      · exact ⟨earlier, later ++ [event], by simp, hflag⟩
      · cases event with
        | deinit => exact ⟨events, [], rfl, hnow⟩
        | _ => cases hnow
    · rintro ⟨earlier, later, hevents, hflag⟩
      rcases List.eq_nil_or_concat later with rfl | ⟨later, last, rfl⟩
      · obtain ⟨rfl, hlast⟩ := List.append_inj' hevents rfl
        cases List.singleton_inj.mp hlast
        exact .inr hflag
      · rw [List.concat_eq_append, ← List.cons_append, ← List.append_assoc] at hevents
        obtain ⟨rfl, -⟩ := List.append_inj' hevents rfl
        exact .inl ⟨earlier, later, rfl, hflag⟩

end Library

/-- A broadcast behind any history of calls is honest just if the library was not deinitialized
before and a failed request of this broadcast is noticed. -/
theorem erotSendRequestToAll_honest_iff (events : List (Event P)) (call : Call P) :
    (Library.after events).Honest call ↔
      ¬ Deinitialized events ∧ call.Noticed ((Library.after events).reached call) := by
  rw [Library.honest_iff, Library.after_dismissed]

/-- Two ERoTs: the first answers, the second fails the request, and nothing is written over the
answer of the first. -/
def staleCall : Call Nat where
  request := [0x10]
  responseCheck := fun _ _ buffer length =>
    if length = 2 ∧ buffer 1 = 0 then .success else .deviceError
  response := ⟨fun _ => 0xFF, 0⟩
  services :=
    { locateHandleBuffer := .success
      handles := [⟨.success, 0, .success, ⟨deviceTypeErot, 0⟩⟩, ⟨.success, 1, .success, ⟨deviceTypeErot, 1⟩⟩]
      allocateRuntimeZeroPool := true }
  answers := fun index => ⟨.success, if index = 0 then .answered [0x10, 0] else .failed [] none⟩

theorem broadcast_not_honest :
    ¬ (Library.after []).Honest staleCall ∧
      ¬ (Library.after [.init staleCall.services, .deinit]).Honest staleCall := by
  constructor
  · intro honest
    obtain ⟨bytes, hanswered, -⟩ := (honest (by decide)).2 1 1 (by decide)
    cases hanswered
  · intro honest
    exact (honest (by decide)).1 (by decide)

end Erot
