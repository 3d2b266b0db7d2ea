import Edk2Nvidia.AndroidBcb.MiscCommand
import Mathlib.Tactic.Common

/-! The boots in which the misc commands are handled as they should be. -/
namespace MiscPartition

def Call.isGet : Call → Bool
  | .get .. => true
  | .set .. => false

def Call.cleans : Call → Bool
  | .get _ _ clean .. => clean
  | .set .. => false

def Event.Reports (event : Event) (type : MiscCmdType) : Prop :=
  event.call.isGet = true ∧ event.status = .success ∧ event.type = some type

/-- A successful `SetCmdToMiscPartition`. -/
def Event.Stores (event : Event) (type : MiscCmdType) : Prop :=
  (∃ n device, event.call = .set n type device) ∧ event.status = .success

def BootloaderMessage.SameButCommand (message other : BootloaderMessage) : Prop :=
  { message with command := other.command } = other

/-- What is asked of boots that start from a message area: only the command is ever written; a
boot-once command is what the first successful call reads, and is reported in no boot after one that
reported it cleaning; and the command that a boot stored last is what the next one reads. -/
structure Handled (disk : BootloaderMessage) (boots : List Boot) : Prop where
  frame : ∀ boot ∈ boots, ∀ event ∈ boot.events, event.disk.SameButCommand disk
  present : ∀ boot ∈ boots, ∀ type, type.BootOnce → miscCmdType boot.disk = some type →
    ∀ before event after, boot.events = before ++ event :: after →
      (∀ e ∈ before, e.status ≠ .success) → event.call.isGet = true →
        event.status = .success → event.Reports type
  once : boots.Pairwise fun boot later => ∀ type, type.BootOnce →
    (∃ event ∈ boot.events, event.call.cleans = true ∧ event.Reports type) →
      ∀ event ∈ later.events, ¬ event.Reports type
  stored : boots.IsChain fun boot next => ∀ before event after type,
    boot.events = before ++ event :: after → event.Stores type →
      (∀ e ∈ after, ∀ u, ¬ e.Stores u) → ∀ early get late, next.events = early ++ get :: late →
        (∀ e ∈ early, ∀ u, ¬ e.Stores u) → get.call.isGet = true → get.status = .success →
          get.Reports type

def Device.Works (device : Device) : Prop :=
  device.getMiscIoProtocolFromHandle = .success ∧ device.readDisk = .success ∧
    device.writeDisk = .success

/-- The condition on a call: the clearing write finds the bytes behind the command on its stack as
they are in the message, and a cached boot-once command that is to be cleaned has left the message
already. -/
def System.Meets (system : System) : Call → Prop
  | .get n typeGiven clean stack device =>
    typeGiven = true → clean = true → ∀ type, type.BootOnce → miscCmdType system.disk = some type →
      (system.cacheCmdType n = .max → device.Works → stack.SameButCommand system.disk) ∧
        system.cacheCmdType n ≠ type
  | .set .. => True

def System.MeetsAll (system : System) : List Call → Prop
  | [] => True
  | call :: calls => system.Meets call ∧
      ∀ reply, system.reply call = some reply → (system.after call.module reply).MeetsAll calls

def AllMeet (disk : BootloaderMessage) : List (List Call) → Prop
  | [] => True
  | calls :: boots => (System.boot disk).MeetsAll calls ∧
      ∀ events last, (System.boot disk).run calls = some (events, last) → AllMeet last.disk boots

section Command

/-- A comparison with a terminated text that is no longer than the field stays inside it. -/
theorem asciiStrCmp_isSome {first second : List UInt8} (hend : 0 ∈ second)
    (hlength : second.length ≤ first.length) : ∃ order, asciiStrCmp first second = some order := by
  induction first generalizing second with
  | nil =>
    rw [List.eq_nil_of_length_eq_zero (Nat.le_zero.mp hlength)] at hend
    cases hend
  | cons a first ih =>
    cases second with
    | nil => cases hend
    | cons b second =>
      rw [asciiStrCmp]
      split
      · next h =>
        rcases List.mem_cons.mp hend with rfl | hend
        · exact absurd h.2 h.1
        · exact ih hend (by simpa using hlength)
      · exact ⟨_, rfl⟩

theorem compareMsgCommand_isSome (message : BootloaderMessage) (target : List UInt8)
    (h : target.length < commandBytes) : ∃ order, compareMsgCommand message target = some order :=
  asciiStrCmp_isSome (by simp) (by simpa using Nat.succ_le_of_lt h)

theorem miscCmdType_isSome (message : BootloaderMessage) :
    ∃ type, miscCmdType message = some type := by
  obtain ⟨a, ha⟩ := compareMsgCommand_isSome message msgCommandBootRecovery (by decide)
  obtain ⟨b, hb⟩ := compareMsgCommand_isSome message msgCommandBootFastbootUserspace (by decide)
  obtain ⟨c, hc⟩ := compareMsgCommand_isSome message msgCommandBootQuiescent (by decide)
  obtain ⟨d, hd⟩ := compareMsgCommand_isSome message msgCommandBootFastbootBootloader (by decide)
  simp only [miscCmdType, ha, hb, hc, hd]
  by_cases ha : a = 0 <;> by_cases hb : b = 0 <;> by_cases hc : c = 0 <;> by_cases hd : d = 0 <;>
    simp [ha, hb, hc, hd]

theorem miscCmdType_clearedMessage (stack : BootloaderMessage) :
    miscCmdType (clearedMessage stack) = some .invalid := by
  rfl

theorem miscCmdType_commandField {type : MiscCmdType} {text : List UInt8}
    (h : commandText type = some text) (disk : BootloaderMessage) :
    miscCmdType { disk with command := commandField text } = some type ∧ ¬ type.BootOnce := by
  cases type <;> cases h
  · exact ⟨rfl, by decide⟩
  · exact ⟨rfl, by decide⟩

end Command

section Calls
variable {system : System} {call : Call} {reply : Reply}

def System.event (call : Call) (reply : Reply) : Event :=
  ⟨call, reply.status, reply.type, reply.disk⟩

theorem reply_isSome (system : System) (call : Call) : ∃ reply, system.reply call = some reply := by
  cases call with
  | set n type device => exact ⟨_, rfl⟩
  | get n typeGiven clean stack device =>
    obtain ⟨type, htype⟩ := miscCmdType_isSome system.disk
    simp only [System.reply, getCmdFromMiscPartition, htype, Option.pure_def,
      Option.bind_eq_bind, Option.bind_some]
    repeat' split
    all_goals exact ⟨_, rfl⟩

/-- Everything that `GetCmdFromMiscPartition` can do: fail, answer from its cache, or read. -/
theorem get_cases {n : Nat} {typeGiven clean : Bool} {stack : BootloaderMessage} {device : Device}
    (h : system.reply (.get n typeGiven clean stack device) = some reply) :
    (reply.status ≠ .success ∧ reply.disk = system.disk ∧
      reply.cacheCmdType = system.cacheCmdType n) ∨
    (typeGiven = true ∧ system.cacheCmdType n ≠ .max ∧
      reply = ⟨.success, some (system.cacheCmdType n), system.cacheCmdType n, system.disk⟩) ∨
    (typeGiven = true ∧ system.cacheCmdType n = .max ∧
      ∃ type, miscCmdType system.disk = some type ∧
        (type.BootOnce ∧ clean = true → device.Works) ∧
        reply = ⟨.success, some type, type,
          if type.BootOnce ∧ clean = true then clearedMessage stack else system.disk⟩) := by
  obtain ⟨type, htype⟩ := miscCmdType_isSome system.disk
  simp only [System.reply, getCmdFromMiscPartition, htype] at h
  split at h
  · cases h
    exact .inl ⟨by simp, rfl, rfl⟩
  · next hgiven =>
    have hgiven : typeGiven = true := by simpa using hgiven
    split at h
    · next hcache =>
      cases h
      exact .inr (.inl ⟨hgiven, hcache, rfl⟩)
    · next hcache =>
      have hcache : system.cacheCmdType n = .max := by simpa using hcache
      split at h
      · next hprotocols =>
        cases h
        exact .inl ⟨by simpa [EfiStatus.isError] using hprotocols, rfl, rfl⟩
      · next hprotocols =>
        split at h
        · next hread =>
          cases h
          exact .inl ⟨by simpa [EfiStatus.isError] using hread, rfl, rfl⟩
        · next hread =>
          simp only [Option.pure_def, Option.bind_eq_bind, Option.bind_some] at h
          split at h
          · next hclears =>
            split at h
            · next hwrite =>
              cases h
              exact .inl ⟨by simpa [EfiStatus.isError] using hwrite, by
                simp [writeDisk, hwrite], rfl⟩
            · next hwrite =>
              cases h
              refine .inr (.inr ⟨hgiven, hcache, type, htype, fun _ => ⟨?_, ?_, ?_⟩, ?_⟩)
              · simpa [EfiStatus.isError] using hprotocols
              · simpa [EfiStatus.isError] using hread
              · simpa [EfiStatus.isError] using hwrite
              · rw [if_pos hclears, writeDisk, if_neg hwrite]
          · next hclears =>
            cases h
            exact .inr (.inr ⟨hgiven, hcache, type, htype, fun hpos => absurd hpos hclears, by
              rw [if_neg hclears]⟩)

theorem set_cases {n : Nat} {type : MiscCmdType} {device : Device}
    (h : system.reply (.set n type device) = some reply) :
    (reply.status ≠ .success ∧ reply.disk = system.disk ∧
      reply.cacheCmdType = system.cacheCmdType n) ∨
    ∃ text, commandText type = some text ∧
      reply = ⟨.success, none, type, { system.disk with command := commandField text }⟩ := by
  simp only [System.reply, Option.some.injEq] at h
  subst h
  unfold setCmdToMiscPartition
  split
  · next hprotocols => exact .inl ⟨by simpa [EfiStatus.isError] using hprotocols, rfl, rfl⟩
  · split
    · next hread => exact .inl ⟨by simpa [EfiStatus.isError] using hread, rfl, rfl⟩
    · split
      · exact .inl ⟨by simp, rfl, rfl⟩
      · next text htext =>
        simp only [writeDisk]
        split
        · next hwrite => exact .inl ⟨by simpa [EfiStatus.isError] using hwrite, rfl, rfl⟩
        · exact .inr ⟨text, htext, rfl⟩

end Calls
section Invariants
variable {type : MiscCmdType} {system last : System} {call : Call} {reply : Reply}

def System.Absent (type : MiscCmdType) (system : System) : Prop :=
  miscCmdType system.disk ≠ some type

/-- The command is gone from the message and from every cache. -/
def System.Forgotten (type : MiscCmdType) (system : System) : Prop :=
  system.Absent type ∧ ∀ n, system.cacheCmdType n ≠ type

/-- The command is in the message, and no cache knows of another one. -/
def System.Kept (type : MiscCmdType) (system : System) : Prop :=
  miscCmdType system.disk = some type ∧
    ∀ n, system.cacheCmdType n = .max ∨ system.cacheCmdType n = type

theorem after_self {n : Nat} (h : reply.disk = system.disk)
    (hcache : reply.cacheCmdType = system.cacheCmdType n) : system.after n reply = system := by
  rw [System.after, h, hcache, Function.update_eq_self]

theorem after_forall {n : Nat} (P : MiscCmdType → Prop) (h : ∀ n, P (system.cacheCmdType n))
    (hreply : P reply.cacheCmdType) (m : Nat) : P ((system.after n reply).cacheCmdType m) := by
  unfold System.after
  rcases eq_or_ne m n with rfl | hne
  · simpa using hreply
  · simpa [Function.update_of_ne hne] using h m

theorem ite_clearedMessage_ne (htype : type.BootOnce) {disk stack : BootloaderMessage}
    (h : miscCmdType disk ≠ some type) {p : Prop} [Decidable p] :
    miscCmdType (if p then clearedMessage stack else disk) ≠ some type := by
  split
  · rw [miscCmdType_clearedMessage]
    rintro ⟨⟩
    exact absurd htype (by decide)
  · exact h

theorem absent_step (htype : type.BootOnce) (hreply : system.reply call = some reply)
    (h : system.Absent type) : (system.after call.module reply).Absent type := by
  cases call with
  | get n typeGiven clean stack device =>
    obtain ⟨-, hdisk, -⟩ | ⟨-, -, rfl⟩ | ⟨-, -, found, -, -, rfl⟩ := get_cases hreply
    · simpa [System.Absent, System.after, hdisk] using h
    · exact h
    · exact ite_clearedMessage_ne htype h
  | set n stored device =>
    obtain ⟨-, hdisk, -⟩ | ⟨text, htext, rfl⟩ := set_cases hreply
    · simpa [System.Absent, System.after, hdisk] using h
    · obtain ⟨hcommand, hstays⟩ := miscCmdType_commandField htext system.disk
      change miscCmdType { system.disk with command := commandField text } ≠ some type
      rw [hcommand]
      rintro ⟨⟩
      exact hstays htype

theorem forgotten_step (htype : type.BootOnce) (hreply : system.reply call = some reply)
    (h : system.Forgotten type) :
    (system.after call.module reply).Forgotten type ∧ ¬ (System.event call reply).Reports type := by
  refine ⟨⟨absent_step htype hreply h.1, ?_⟩, ?_⟩
  · refine after_forall (· ≠ type) h.2 ?_
    cases call with
    | get n typeGiven clean stack device =>
      obtain ⟨-, -, hcache⟩ | ⟨-, -, rfl⟩ | ⟨-, -, found, hfound, -, rfl⟩ := get_cases hreply
      · exact hcache ▸ h.2 n
      · exact h.2 n
      · rintro rfl
        exact h.1 hfound
    | set n stored device =>
      obtain ⟨-, -, hcache⟩ | ⟨text, htext, rfl⟩ := set_cases hreply
      · exact hcache ▸ h.2 n
      · rintro rfl
        exact (miscCmdType_commandField htext system.disk).2 htype
  · rintro ⟨hget, hstatus, hreported⟩
    cases call with
    | get n typeGiven clean stack device =>
      obtain ⟨hfails, -⟩ | ⟨-, -, rfl⟩ | ⟨-, -, found, hfound, -, rfl⟩ := get_cases hreply
      · exact hfails hstatus
      · exact h.2 n (Option.some.inj hreported)
      · exact h.1 (hfound.trans hreported)
    | set n stored device => cases hget

theorem fails_step (hreply : system.reply call = some reply) (hfails : reply.status ≠ .success) :
    system.after call.module reply = system := by
  cases call with
  | get n typeGiven clean stack device =>
    obtain ⟨-, hdisk, hcache⟩ | ⟨-, -, rfl⟩ | ⟨-, -, found, -, -, rfl⟩ := get_cases hreply
    · exact after_self hdisk hcache
    · exact absurd rfl hfails
    · exact absurd rfl hfails
  | set n stored device =>
    obtain ⟨-, hdisk, hcache⟩ | ⟨text, -, rfl⟩ := set_cases hreply
    · exact after_self hdisk hcache
    · exact absurd rfl hfails

/-- A command that is not for one boot only stays until another one is stored. -/
theorem stays_step (htype : ¬ type.BootOnce) (hreply : system.reply call = some reply)
    (hevent : ∀ u, ¬ (System.event call reply).Stores u) (h : miscCmdType system.disk = some type) :
    miscCmdType (system.after call.module reply).disk = some type := by
  by_cases hfails : reply.status ≠ .success
  · rwa [fails_step hreply hfails]
  cases call with
  | get n typeGiven clean stack device =>
    obtain ⟨hnot, -⟩ | ⟨-, -, rfl⟩ | ⟨-, -, found, hfound, -, rfl⟩ := get_cases hreply
    · exact absurd hnot hfails
    · exact h
    · obtain rfl : found = type := Option.some.inj (hfound.symm.trans h)
      change miscCmdType (if found.BootOnce ∧ clean = true then clearedMessage stack
        else system.disk) = some found
      rwa [if_neg fun hclears => htype hclears.1]
  | set n stored device =>
    obtain ⟨hnot, -⟩ | ⟨text, -, rfl⟩ := set_cases hreply
    · exact absurd hnot hfails
    · exact absurd ⟨⟨n, device, rfl⟩, rfl⟩ (hevent stored)

theorem kept_step (htype : ¬ type.BootOnce) (hreply : system.reply call = some reply)
    (hevent : ∀ u, ¬ (System.event call reply).Stores u) (h : system.Kept type) :
    (system.after call.module reply).Kept type ∧ (call.isGet = true → reply.status = .success →
      (System.event call reply).Reports type) := by
  have hstays := stays_step htype hreply hevent h.1
  by_cases hfails : reply.status ≠ .success
  · rw [fails_step hreply hfails]
    exact ⟨h, fun _ hstatus => absurd hstatus hfails⟩
  cases call with
  | get n typeGiven clean stack device =>
    obtain ⟨hnot, -⟩ | ⟨-, hcached, rfl⟩ | ⟨-, -, found, hfound, -, rfl⟩ := get_cases hreply
    · exact absurd hnot hfails
    · have hsame : system.cacheCmdType n = type := (h.2 n).resolve_left hcached
      refine ⟨?_, fun _ _ => ⟨rfl, rfl, congrArg some hsame⟩⟩
      change (system.after n _).Kept type
      rwa [after_self rfl rfl]
    · obtain rfl : found = type := Option.some.inj (hfound.symm.trans h.1)
      exact ⟨⟨hstays, after_forall (fun cached => cached = .max ∨ cached = found) h.2 (.inr rfl)⟩,
        fun _ _ => ⟨rfl, rfl, rfl⟩⟩
  | set n stored device =>
    obtain ⟨hnot, -⟩ | ⟨text, -, rfl⟩ := set_cases hreply
    · exact absurd hnot hfails
    · exact absurd ⟨⟨n, device, rfl⟩, rfl⟩ (hevent stored)

theorem cleaned_step (hmeets : system.Meets call) (htype : type.BootOnce)
    (hreply : system.reply call = some reply) (hcleans : call.cleans = true)
    (hreports : (System.event call reply).Reports type) :
    (system.after call.module reply).Absent type := by
  cases call with
  | set n stored device => cases hcleans
  | get n typeGiven clean stack device =>
    by_cases habsent : system.Absent type
    · exact absent_step htype hreply habsent
    have hpresent : miscCmdType system.disk = some type := not_not.mp habsent
    obtain ⟨-, hstatus, hreported⟩ := hreports
    obtain ⟨hfails, -⟩ | ⟨hgiven, -, rfl⟩ | ⟨-, -, found, hfound, -, rfl⟩ := get_cases hreply
    · exact absurd hstatus hfails
    · exact absurd (Option.some.inj hreported) (hmeets hgiven hcleans type htype hpresent).2
    · obtain rfl : found = type := Option.some.inj hreported
      change miscCmdType (if found.BootOnce ∧ clean = true then clearedMessage stack
        else system.disk) ≠ some found
      rw [if_pos ⟨htype, hcleans⟩, miscCmdType_clearedMessage]
      rintro ⟨⟩
      exact absurd htype (by decide)

theorem sameButCommand_iff (message other : BootloaderMessage) :
    message.SameButCommand other ↔ message.status = other.status ∧
      message.recovery = other.recovery ∧ message.stage = other.stage ∧
      message.reserved = other.reserved := by
  cases message
  cases other
  simp [BootloaderMessage.SameButCommand]

theorem BootloaderMessage.SameButCommand.trans {a b c : BootloaderMessage}
    (hab : a.SameButCommand b) (hbc : b.SameButCommand c) : a.SameButCommand c := by
  rw [sameButCommand_iff] at *
  exact ⟨hab.1.trans hbc.1, hab.2.1.trans hbc.2.1, hab.2.2.1.trans hbc.2.2.1,
    hab.2.2.2.trans hbc.2.2.2⟩

theorem frame_step (hmeets : system.Meets call) (hreply : system.reply call = some reply) :
    reply.disk.SameButCommand system.disk := by
  cases call with
  | get n typeGiven clean stack device =>
    obtain ⟨-, hdisk, -⟩ | ⟨-, -, rfl⟩ | ⟨hgiven, hcache, found, hfound, hworks, rfl⟩ :=
      get_cases hreply
    · exact hdisk ▸ rfl
    · rfl
    · change BootloaderMessage.SameButCommand (if found.BootOnce ∧ clean = true then
        clearedMessage stack else system.disk) system.disk
      split
      · next hclears =>
        exact (hmeets hgiven hclears.2 found hclears.1 hfound).1 hcache (hworks hclears)
      · rfl
  | set n stored device =>
    obtain ⟨-, hdisk, -⟩ | ⟨text, -, rfl⟩ := set_cases hreply
    · exact hdisk ▸ rfl
    · rfl

end Invariants

section Runs
variable {type : MiscCmdType} {system last : System} {calls : List Call} {events : List Event}

theorem run_cons {call : Call} :
    system.run (call :: calls) = some (events, last) ↔ ∃ reply later,
      system.reply call = some reply ∧ events = System.event call reply :: later ∧
      (system.after call.module reply).run calls = some (later, last) := by
  simp only [System.run, Option.bind_eq_bind, Option.bind_eq_some_iff, Option.pure_def,
    Option.some.injEq, Prod.mk.injEq, Prod.exists, System.event]
  constructor
  · rintro ⟨reply, hreply, later, final, hrun, rfl, rfl⟩
    exact ⟨reply, later, hreply, rfl, hrun⟩
  · rintro ⟨reply, later, hreply, rfl, hrun⟩
    exact ⟨reply, hreply, later, last, hrun, rfl, rfl⟩

theorem run_isSome (system : System) (calls : List Call) :
    ∃ events last, system.run calls = some (events, last) := by
  induction calls generalizing system with
  | nil => exact ⟨_, _, rfl⟩
  | cons call calls ih =>
    obtain ⟨reply, hreply⟩ := reply_isSome system call
    obtain ⟨events, last, hrun⟩ := ih (system.after call.module reply)
    exact ⟨_, last, run_cons.mpr ⟨reply, events, hreply, rfl, hrun⟩⟩

/-- The run up to an event and the one from it on. -/
theorem run_append {before : List Event} (h : system.run calls = some (before ++ events, last)) :
    ∃ early late middle, calls = early ++ late ∧ system.run early = some (before, middle) ∧
      middle.run late = some (events, last) := by
  induction before generalizing system calls with
  | nil => exact ⟨[], calls, system, rfl, rfl, h⟩
  | cons event before ih =>
    cases calls with
    | nil => cases h
    | cons call calls =>
      obtain ⟨reply, later, hreply, hevents, hrun⟩ := run_cons.mp h
      obtain ⟨rfl, rfl⟩ := List.cons_eq_cons.mp hevents
      obtain ⟨early, late, middle, rfl, hearly, hlate⟩ := ih hrun
      exact ⟨call :: early, late, middle, rfl,
        run_cons.mpr ⟨reply, before, hreply, rfl, hearly⟩, hlate⟩

/-- An invariant of the steps whose events are allowed holds through a run of allowed events. -/
theorem run_invariant {P : System → Prop} (Allowed Q : Event → Prop)
    (hstep : ∀ s call reply, s.reply call = some reply → Allowed (System.event call reply) → P s →
      P (s.after call.module reply) ∧ Q (System.event call reply))
    (h : system.run calls = some (events, last)) (hallowed : ∀ e ∈ events, Allowed e)
    (hstart : P system) : P last ∧ ∀ e ∈ events, Q e := by
  induction calls generalizing system events with
  | nil =>
    cases h
    exact ⟨hstart, fun e he => by cases he⟩
  | cons call calls ih =>
    obtain ⟨reply, later, hreply, rfl, hrun⟩ := run_cons.mp h
    obtain ⟨hnext, hevent⟩ := hstep system call reply hreply (hallowed _ List.mem_cons_self) hstart
    obtain ⟨hlast, hlater⟩ := ih hrun (fun e he => hallowed e (List.mem_cons_of_mem _ he)) hnext
    exact ⟨hlast, List.forall_mem_cons.mpr ⟨hevent, hlater⟩⟩

theorem absent_run (htype : type.BootOnce) (h : system.run calls = some (events, last))
    (hstart : system.Absent type) : last.Absent type :=
  (run_invariant (fun _ => True) (fun _ => True)
    (fun _ _ _ hreply _ hs => ⟨absent_step htype hreply hs, trivial⟩) h
    (fun _ _ => trivial) hstart).1

theorem forgotten_run (htype : type.BootOnce) (h : system.run calls = some (events, last))
    (hstart : system.Forgotten type) :
    last.Forgotten type ∧ ∀ event ∈ events, ¬ event.Reports type :=
  run_invariant (fun _ => True) (fun event => ¬ event.Reports type)
    (fun _ _ _ hreply _ hs => forgotten_step htype hreply hs) h (fun _ _ => trivial) hstart

theorem cleaned_run (hmeets : system.MeetsAll calls) (htype : type.BootOnce)
    (h : system.run calls = some (events, last))
    (hreports : ∃ event ∈ events, event.call.cleans = true ∧ event.Reports type) :
    last.Absent type := by
  induction calls generalizing system events with
  | nil =>
    cases h
    obtain ⟨event, hevent, -⟩ := hreports
    cases hevent
  | cons call calls ih =>
    obtain ⟨reply, later, hreply, rfl, hrun⟩ := run_cons.mp h
    obtain ⟨event, hevent, hcleans, hevent'⟩ := hreports
    rcases List.mem_cons.mp hevent with rfl | hevent
    · exact absent_run htype hrun (cleaned_step hmeets.1 htype hreply hcleans hevent')
    · exact ih (hmeets.2 reply hreply) hrun ⟨event, hevent, hcleans, hevent'⟩

theorem frame_run (hmeets : system.MeetsAll calls) (h : system.run calls = some (events, last)) :
    last.disk.SameButCommand system.disk ∧
      ∀ event ∈ events, event.disk.SameButCommand system.disk := by
  induction calls generalizing system events with
  | nil =>
    cases h
    exact ⟨rfl, fun event hevent => by cases hevent⟩
  | cons call calls ih =>
    obtain ⟨reply, later, hreply, rfl, hrun⟩ := run_cons.mp h
    have hstep := frame_step hmeets.1 hreply
    obtain ⟨hlast, hlater⟩ := ih (hmeets.2 reply hreply) hrun
    exact ⟨hlast.trans hstep, List.forall_mem_cons.mpr
      ⟨hstep, fun event hevent => (hlater event hevent).trans hstep⟩⟩

/-- The first call of a boot that succeeds, when it reads, reports the command of the message. -/
theorem present_run {disk : BootloaderMessage} {before after : List Event} {event : Event}
    (h : (System.boot disk).run calls = some (before ++ event :: after, last))
    (htype : miscCmdType disk = some type) (hbefore : ∀ e ∈ before, e.status ≠ .success)
    (hget : event.call.isGet = true) (hstatus : event.status = .success) :
    event.Reports type := by
  obtain ⟨early, late, middle, rfl, hearly, hlate⟩ := run_append h
  have hmiddle : middle = System.boot disk :=
    (run_invariant (P := (· = System.boot disk)) (·.status ≠ .success) (fun _ => True)
      (fun s call reply hreply hfails hs =>
        ⟨(fails_step hreply hfails).trans hs, trivial⟩) hearly hbefore rfl).1
  subst hmiddle
  cases late with
  | nil => cases hlate
  | cons call late =>
    obtain ⟨reply, later, hreply, hevents, -⟩ := run_cons.mp hlate
    obtain ⟨rfl, rfl⟩ := List.cons_eq_cons.mp hevents
    cases call with
    | set n stored device => cases hget
    | get n typeGiven clean stack device =>
      obtain ⟨hfails, -⟩ | ⟨-, hcached, -⟩ | ⟨-, -, found, hfound, -, rfl⟩ := get_cases hreply
      · exact absurd hstatus hfails
      · exact absurd rfl hcached
      · exact ⟨rfl, rfl, hfound.symm.trans htype⟩

theorem stored_run {before after : List Event} {event : Event}
    (h : system.run calls = some (before ++ event :: after, last)) (hstores : event.Stores type)
    (hafter : ∀ e ∈ after, ∀ u, ¬ e.Stores u) :
    miscCmdType last.disk = some type ∧ ¬ type.BootOnce := by
  obtain ⟨early, late, middle, rfl, -, hlate⟩ := run_append h
  cases late with
  | nil => cases hlate
  | cons call late =>
    obtain ⟨reply, later, hreply, hevents, hrun⟩ := run_cons.mp hlate
    obtain ⟨rfl, rfl⟩ := List.cons_eq_cons.mp hevents
    obtain ⟨⟨n, device, hcall⟩, hstatus⟩ := hstores
    obtain rfl : call = .set n type device := hcall
    obtain ⟨hfails, -⟩ | ⟨text, htext, rfl⟩ := set_cases hreply
    · exact absurd hstatus hfails
    · obtain ⟨hcommand, hstays⟩ := miscCmdType_commandField htext middle.disk
      exact ⟨(run_invariant (P := fun s => miscCmdType s.disk = some type)
        (fun e => ∀ u, ¬ e.Stores u) (fun _ => True)
        (fun s call reply hreply hevent hs => ⟨stays_step hstays hreply hevent hs, trivial⟩)
        hrun hafter hcommand).1, hstays⟩

theorem kept_run {early late : List Event} {get : Event} (htype : ¬ type.BootOnce)
    (h : system.run calls = some (early ++ get :: late, last)) (hstart : system.Kept type)
    (hearly : ∀ e ∈ early, ∀ u, ¬ e.Stores u) (hget : get.call.isGet = true)
    (hstatus : get.status = .success) : get.Reports type := by
  have h' : system.run calls = some ((early ++ [get]) ++ late, last) := by simpa using h
  obtain ⟨first, rest, middle, rfl, hfirst, -⟩ := run_append h'
  refine (run_invariant (P := System.Kept type) (fun e => ∀ u, ¬ e.Stores u)
    (fun e => e.call.isGet = true → e.status = .success → e.Reports type)
    (fun s call reply hreply hevent hs => kept_step htype hreply hevent hs) hfirst ?_ hstart).2
    get (by simp) hget hstatus
  intro e he
  rcases List.mem_append.mp he with he | he
  · exact hearly e he
  · rw [List.mem_singleton.mp he]
    rintro u ⟨⟨n, device, hcall⟩, -⟩
    rw [hcall] at hget
    cases hget

end Runs

section Boots
variable {disk : BootloaderMessage} {calls : List Call} {runs : List (List Call)}
  {boots : List Boot}

theorem history_cons :
    history disk (calls :: runs) = some boots ↔ ∃ events last later,
      (System.boot disk).run calls = some (events, last) ∧ history last.disk runs = some later ∧
      boots = ⟨disk, events⟩ :: later := by
  simp only [history, Option.bind_eq_bind, Option.bind_eq_some_iff, Option.pure_def,
    Option.some.injEq, Prod.exists]
  constructor
  · rintro ⟨events, last, hrun, later, hlater, rfl⟩
    exact ⟨events, last, later, hrun, hlater, rfl⟩
  · rintro ⟨events, last, later, hrun, hlater, rfl⟩
    exact ⟨events, last, hrun, later, hlater, rfl⟩

theorem history_isSome (disk : BootloaderMessage) (runs : List (List Call)) :
    ∃ boots, history disk runs = some boots := by
  induction runs generalizing disk with
  | nil => exact ⟨_, rfl⟩
  | cons calls runs ih =>
    obtain ⟨events, last, hrun⟩ := run_isSome (System.boot disk) calls
    obtain ⟨later, hlater⟩ := ih last.disk
    exact ⟨_, history_cons.mpr ⟨events, last, later, hrun, hlater, rfl⟩⟩

theorem history_forgotten {type : MiscCmdType} (htype : type.BootOnce)
    (h : history disk runs = some boots) (habsent : miscCmdType disk ≠ some type) :
    ∀ boot ∈ boots, ∀ event ∈ boot.events, ¬ event.Reports type := by
  induction runs generalizing disk boots with
  | nil =>
    cases h
    exact fun boot hboot => by cases hboot
  | cons calls runs ih =>
    obtain ⟨events, last, later, hrun, hlater, rfl⟩ := history_cons.mp h
    have hstart : (System.boot disk).Forgotten type := by
      refine ⟨habsent, fun n hcached => ?_⟩
      obtain rfl : MiscCmdType.max = type := hcached
      exact absurd htype (by decide)
    obtain ⟨hlast, hevents⟩ := forgotten_run htype hrun hstart
    exact List.forall_mem_cons.mpr ⟨hevents, ih hlater hlast.1⟩

theorem history_frame (hmeets : AllMeet disk runs) (h : history disk runs = some boots) :
    ∀ boot ∈ boots, ∀ event ∈ boot.events, event.disk.SameButCommand disk := by
  induction runs generalizing disk boots with
  | nil =>
    cases h
    exact fun boot hboot => by cases hboot
  | cons calls runs ih =>
    obtain ⟨events, last, later, hrun, hlater, rfl⟩ := history_cons.mp h
    obtain ⟨hlast, hevents⟩ := frame_run hmeets.1 hrun
    exact List.forall_mem_cons.mpr ⟨hevents, fun boot hboot event hevent =>
      (ih (hmeets.2 _ _ hrun) hlater boot hboot event hevent).trans hlast⟩

theorem history_present (h : history disk runs = some boots) :
    ∀ boot ∈ boots, ∃ calls last, (System.boot boot.disk).run calls = some (boot.events, last) := by
  induction runs generalizing disk boots with
  | nil =>
    cases h
    exact fun boot hboot => by cases hboot
  | cons calls runs ih =>
    obtain ⟨events, last, later, hrun, hlater, rfl⟩ := history_cons.mp h
    exact List.forall_mem_cons.mpr ⟨⟨calls, last, hrun⟩, ih hlater⟩

theorem history_once (hmeets : AllMeet disk runs) (h : history disk runs = some boots) :
    boots.Pairwise fun boot later => ∀ type, type.BootOnce →
      (∃ event ∈ boot.events, event.call.cleans = true ∧ event.Reports type) →
        ∀ event ∈ later.events, ¬ event.Reports type := by
  induction runs generalizing disk boots with
  | nil =>
    cases h
    exact .nil
  | cons calls runs ih =>
    obtain ⟨events, last, later, hrun, hlater, rfl⟩ := history_cons.mp h
    refine List.pairwise_cons.mpr ⟨fun boot hboot type htype hreports => ?_,
      ih (hmeets.2 _ _ hrun) hlater⟩
    exact history_forgotten htype hlater (cleaned_run hmeets.1 htype hrun hreports) boot hboot

theorem history_stored (h : history disk runs = some boots) :
    boots.IsChain fun boot next => ∀ before event after type,
      boot.events = before ++ event :: after → event.Stores type →
        (∀ e ∈ after, ∀ u, ¬ e.Stores u) → ∀ early get late, next.events = early ++ get :: late →
          (∀ e ∈ early, ∀ u, ¬ e.Stores u) → get.call.isGet = true → get.status = .success →
            get.Reports type := by
  induction runs generalizing disk boots with
  | nil =>
    cases h
    exact .nil
  | cons calls runs ih =>
    obtain ⟨events, last, later, hrun, hlater, rfl⟩ := history_cons.mp h
    have hchain := ih hlater
    cases runs with
    | nil =>
      cases hlater
      exact .singleton _
    | cons nextCalls runs =>
      obtain ⟨nextEvents, nextLast, rest, hnext, -, rfl⟩ := history_cons.mp hlater
      refine .cons_cons ?_ hchain
      intro before event after type hevents hstores hafter early get late hearly hnone hget hstatus
      change events = _ at hevents
      change nextEvents = _ at hearly
      subst hevents hearly
      obtain ⟨hcommand, hstays⟩ := stored_run hrun hstores hafter
      exact kept_run hstays hnext ⟨hcommand, fun _ => .inl rfl⟩ hnone hget hstatus

/-- Every sequence of calls over every number of boots compares inside the command field, and when
its calls meet the condition the commands are handled as they should be. -/
theorem misc_commands_handled (disk : BootloaderMessage) (runs : List (List Call))
    (hmeets : AllMeet disk runs) : ∃ boots, history disk runs = some boots ∧ Handled disk boots := by
  obtain ⟨boots, h⟩ := history_isSome disk runs
  refine ⟨boots, h, history_frame hmeets h, ?_, history_once hmeets h, history_stored h⟩
  intro boot hboot type _ hpresent before event after hevents hbefore hget hstatus
  obtain ⟨calls, last, hrun⟩ := history_present h boot hboot
  rw [hevents] at hrun
  exact present_run hrun hpresent hbefore hget hstatus

end Boots

/-- A message with a command and one byte in everything else. -/
def uniform (text : List UInt8) (byte : UInt8) : BootloaderMessage :=
  ⟨commandField text, Vector.replicate 32 byte, Vector.replicate 768 byte, Vector.replicate 32 byte,
    Vector.replicate 1184 byte⟩

def allWorks : Device := ⟨.success, .success, .success⟩

def getCalls (stack : BootloaderMessage) (clean : Bool) : Call := .get 0 true clean stack allWorks

theorem misc_commands_handled_sample :
    ∃ boots, history (uniform msgCommandBootQuiescent 7)
      [[getCalls (uniform [] 7) true], [getCalls (uniform [] 7) true]] = some boots ∧
      Handled (uniform msgCommandBootQuiescent 7) boots := by
  refine misc_commands_handled _ _ ⟨⟨?_, fun _ _ => trivial⟩, fun events last hrun => ?_⟩
  · intro _ _ type htype _
    refine ⟨fun _ _ => rfl, ?_⟩
    rintro rfl
    exact absurd htype (by decide)
  · obtain ⟨reply, later, hreply, -, hlast⟩ := run_cons.mp hrun
    cases hreply
    cases hlast
    refine ⟨⟨?_, fun _ _ => trivial⟩, fun _ _ _ => trivial⟩
    intro _ _ type htype hpresent
    cases hpresent
    exact absurd htype (by decide)

/-- The cleaning write of a message whose other bytes are 7, from a stack of zeros: every byte
behind the command is lost. And a read that does not clean leaves the command to be reported in
each later boot, though the same boot asks for the cleaning as well. -/
theorem misc_commands_mishandled :
    (∃ boots, history (uniform msgCommandBootQuiescent 7)
      [[getCalls (uniform [] 0) true]] = some boots ∧
      ¬ Handled (uniform msgCommandBootQuiescent 7) boots) ∧
    ∃ boots, history (uniform msgCommandBootQuiescent 7)
      [[getCalls (uniform [] 7) false, getCalls (uniform [] 7) true],
        [getCalls (uniform [] 7) true]] = some boots ∧
      ¬ Handled (uniform msgCommandBootQuiescent 7) boots := by
  refine ⟨⟨_, rfl, fun h => ?_⟩, ⟨_, rfl, fun h => ?_⟩⟩
  · have hframe := h.frame _ (List.mem_singleton_self _) _ (List.mem_singleton_self _)
    have hstatus := ((sameButCommand_iff _ _).mp hframe).1
    revert hstatus
    decide
  · have honce := (List.pairwise_cons.mp h.once).1 _ (List.mem_singleton_self _) .bootQuiescent
      (.inr rfl) ⟨_, List.mem_cons_of_mem _ (List.mem_singleton_self _), rfl, rfl, rfl, rfl⟩
    exact honce _ (List.mem_singleton_self _) ⟨rfl, rfl, rfl⟩

end MiscPartition
