import Edk2Nvidia.Flash.Program

/-! Runs on a flash whose commands can fail. A tape says how each command ends; a failed write
has programmed some first bytes, a failed erase has erased some. `Along` holds of the tapes on
which every command ends as `P` allows, knowing the commands before it, the last one first.
`wpFaults` is the weakest precondition over all of them; `C` holds wherever power is lost. -/
namespace Flash

inductive Ending (ε : Type) [Status ε] where
  | ok
  | failed (status : {status : ε // status ≠ Status.ok}) (effect : Nat)

inductive Command where
  | read (offset size : Nat)
  | write (offset : Nat) (data : List UInt8)
  | erase (offset size : Nat)

variable {ε : Type} [Status ε]

namespace Ending

def status : Ending ε → ε
  | ok => Status.ok
  | failed status _ => status.val

def data (ending : Ending ε) (m : Memory) (offset size : Nat) : List UInt8 :=
  match ending with
  | ok => slice m offset size
  | failed _ _ => []

def programmed (ending : Ending ε) (data : List UInt8) : List UInt8 :=
  match ending with
  | ok => data
  | failed _ effect => data.take effect

def erased (ending : Ending ε) (m : Memory) (offset size : Nat) : Memory :=
  match ending with
  | ok => erase m offset size
  | failed _ effect => erase m offset (min effect size)

end Ending

namespace Prog

def runFaults : Prog ε α → (Nat → Ending ε) → Memory → Option α × Memory
  | ret a, _, m => (some a, m)
  | stop, _, m => (none, m)
  | read offset size k, tape, m =>
      runFaults (k (tape 0).status ((tape 0).data m offset size)) (fun i => tape (i + 1)) m
  | write offset data k, tape, m =>
      runFaults (k (tape 0).status) (fun i => tape (i + 1))
        (program m offset ((tape 0).programmed data))
  | erase offset size k, tape, m =>
      runFaults (k (tape 0).status) (fun i => tape (i + 1)) ((tape 0).erased m offset size)

/-- `image` can be on the flash when power is lost during the run. -/
def Cut : Prog ε α → (Nat → Ending ε) → Memory → Memory → Prop
  | ret _, _, m, image => image = m
  | stop, _, m, image => image = m
  | read offset size k, tape, m, image =>
      Cut (k (tape 0).status ((tape 0).data m offset size)) (fun i => tape (i + 1)) m image
  | write offset data k, tape, m, image =>
      (∃ j, image = program m offset (data.take j)) ∨
        Cut (k (tape 0).status) (fun i => tape (i + 1))
          (program m offset ((tape 0).programmed data)) image
  | erase offset size k, tape, m, image =>
      image = m ∨
        Cut (k (tape 0).status) (fun i => tape (i + 1)) ((tape 0).erased m offset size) image

variable (P : List Command → Command → Ending ε → Memory → Prop)

/-- Every command ends as `P` allows. -/
def Along : Prog ε α → List Command → (Nat → Ending ε) → Memory → Prop
  | ret _, _, _, _ => True
  | stop, _, _, _ => True
  | read offset size k, past, tape, m =>
      P past (.read offset size) (tape 0) m ∧
        Along (k (tape 0).status ((tape 0).data m offset size)) (.read offset size :: past)
          (fun i => tape (i + 1)) m
  | write offset data k, past, tape, m =>
      P past (.write offset data) (tape 0) m ∧
        Along (k (tape 0).status) (.write offset data :: past) (fun i => tape (i + 1))
          (program m offset ((tape 0).programmed data))
  | erase offset size k, past, tape, m =>
      P past (.erase offset size) (tape 0) m ∧
        Along (k (tape 0).status) (.erase offset size :: past) (fun i => tape (i + 1))
          ((tape 0).erased m offset size)

instance decidableAlong [∀ past command ending m, Decidable (P past command ending m)] :
    (p : Prog ε α) → (past : List Command) → (tape : Nat → Ending ε) → (m : Memory) →
      Decidable (Along P p past tape m)
  | ret _, _, _, _ => isTrue trivial
  | stop, _, _, _ => isTrue trivial
  | read _ _ k, _, _, _ => @instDecidableAnd _ _ _ (decidableAlong (k _ _) _ _ _)
  | write _ _ k, _, _, _ => @instDecidableAnd _ _ _ (decidableAlong (k _) _ _ _)
  | erase _ _ k, _, _, _ => @instDecidableAnd _ _ _ (decidableAlong (k _) _ _ _)

def wpFaults : Prog ε α → (α → List Command → Memory → Prop) → (Memory → Prop) →
    List Command → Memory → Prop
  | ret a, Q, C, past, m => C m ∧ Q a past m
  | stop, _, C, _, m => C m
  | read offset size k, Q, C, past, m =>
      ∀ ending, P past (.read offset size) ending m →
        wpFaults (k ending.status (ending.data m offset size)) Q C (.read offset size :: past) m
  | write offset data k, Q, C, past, m =>
      (∀ j, C (program m offset (data.take j))) ∧
        ∀ ending, P past (.write offset data) ending m →
          wpFaults (k ending.status) Q C (.write offset data :: past)
            (program m offset (ending.programmed data))
  | erase offset size k, Q, C, past, m =>
      C m ∧ ∀ ending, P past (.erase offset size) ending m →
        wpFaults (k ending.status) Q C (.erase offset size :: past)
          (ending.erased m offset size)

variable {P}

theorem Along.mono {P' : List Command → Command → Ending ε → Memory → Prop} {p : Prog ε α}
    {past : List Command} {tape : Nat → Ending ε} {m : Memory} (h : Along P p past tape m)
    (hP : ∀ past command ending m, P past command ending m → P' past command ending m) :
    Along P' p past tape m := by
  induction p generalizing past tape m with
  | ret a => trivial
  | stop => trivial
  | read offset size k ih => exact ⟨hP _ _ _ _ h.1, ih _ _ h.2⟩
  | write offset data k ih => exact ⟨hP _ _ _ _ h.1, ih _ h.2⟩
  | erase offset size k ih => exact ⟨hP _ _ _ _ h.1, ih _ h.2⟩

theorem wpFaults_mono {p : Prog ε α} {Q Q' : α → List Command → Memory → Prop}
    {C : Memory → Prop} {past : List Command} {m : Memory}
    (h : wpFaults P p Q C past m) (hQ : ∀ a past m', Q a past m' → Q' a past m') :
    wpFaults P p Q' C past m := by
  induction p generalizing past m with
  | ret a => exact ⟨h.1, hQ _ _ _ h.2⟩
  | stop => exact h
  | read offset size k ih => exact fun ending hending => ih _ _ (h ending hending)
  | write offset data k ih => exact ⟨h.1, fun ending hending => ih _ (h.2 ending hending)⟩
  | erase offset size k ih => exact ⟨h.1, fun ending hending => ih _ (h.2 ending hending)⟩

theorem wpFaults_bind {p : Prog ε α} {f : α → Prog ε β} {Q : β → List Command → Memory → Prop}
    {C : Memory → Prop} {past : List Command} {m : Memory}
    (h : wpFaults P p (fun a past m' => wpFaults P (f a) Q C past m') C past m) :
    wpFaults P (p.bind f) Q C past m := by
  induction p generalizing past m with
  | ret a => exact h.2
  | stop => exact h
  | read offset size k ih => exact fun ending hending => ih _ _ (h ending hending)
  | write offset data k ih => exact ⟨h.1, fun ending hending => ih _ (h.2 ending hending)⟩
  | erase offset size k ih => exact ⟨h.1, fun ending hending => ih _ (h.2 ending hending)⟩

/-- The run on any tape that `P` allows ends as the precondition says. -/
theorem wpFaults_run {p : Prog ε α} {Q : α → List Command → Memory → Prop} {C : Memory → Prop}
    {past : List Command} {tape : Nat → Ending ε} {m m' : Memory} {a : α}
    (h : wpFaults P p Q C past m) (halong : Along P p past tape m)
    (hrun : p.runFaults tape m = (some a, m')) : ∃ past', Q a past' m' := by
  induction p generalizing past tape m with
  | ret b =>
    cases hrun
    exact ⟨past, h.2⟩
  | stop => cases hrun
  | read offset size k ih => exact ih _ _ (h _ halong.1) halong.2 hrun
  | write offset data k ih => exact ih _ (h.2 _ halong.1) halong.2 hrun
  | erase offset size k ih => exact ih _ (h.2 _ halong.1) halong.2 hrun

theorem wpFaults_cut {p : Prog ε α} {Q : α → List Command → Memory → Prop} {C : Memory → Prop}
    {past : List Command} {tape : Nat → Ending ε} {m image : Memory}
    (h : wpFaults P p Q C past m) (halong : Along P p past tape m)
    (hcut : p.Cut tape m image) : C image := by
  induction p generalizing past tape m with
  | ret b =>
    cases hcut
    exact h.1
  | stop =>
    cases hcut
    exact h
  | read offset size k ih => exact ih _ _ (h _ halong.1) halong.2 hcut
  | write offset data k ih =>
    rcases hcut with ⟨j, rfl⟩ | hcut
    · exact h.1 j
    · exact ih _ (h.2 _ halong.1) halong.2 hcut
  | erase offset size k ih =>
    rcases hcut with rfl | hcut
    · exact h.1
    · exact ih _ (h.2 _ halong.1) halong.2 hcut

theorem runFaults_bind {p : Prog ε α} {tape : Nat → Ending ε} {m m' : Memory} {a : α}
    (h : p.runFaults tape m = (some a, m')) :
    ∃ rest : Nat → Ending ε, ∀ f : α → Prog ε β,
      (p.bind f).runFaults tape m = (f a).runFaults rest m' := by
  induction p generalizing tape m with
  | ret b =>
    cases h
    exact ⟨tape, fun f => rfl⟩
  | stop => cases h
  | read offset size k ih => exact ih _ _ h
  | write offset data k ih => exact ih _ h
  | erase offset size k ih => exact ih _ h

/-- On the tape without a failure a run is a run of `Flash.Program`. -/
theorem runFaults_ok (p : Prog ε α) (m : Memory) : p.runFaults (fun _ => .ok) m = p.run m := by
  induction p generalizing m with
  | ret a => rfl
  | stop => rfl
  | read offset size k ih => exact ih _ _ m
  | write offset data k ih => exact ih _ _
  | erase offset size k ih => exact ih _ _

theorem along_ok (hP : ∀ past command m, P past command .ok m) (p : Prog ε α)
    (past : List Command) (m : Memory) : Along P p past (fun _ => .ok) m := by
  induction p generalizing past m with
  | ret a => trivial
  | stop => trivial
  | read offset size k ih => exact ⟨hP _ _ _, ih _ _ _ m⟩
  | write offset data k ih => exact ⟨hP _ _ _, ih _ _ _⟩
  | erase offset size k ih => exact ⟨hP _ _ _, ih _ _ _⟩

end Prog

section FlashM
variable {σ α β : Type} {P : List Command → Command → Ending ε → Memory → Prop}
  {C : Memory → Prop} {s : σ} {past : List Command} {m : Memory}

def wpFaults (P : List Command → Command → Ending ε → Memory → Prop) (x : FlashM ε σ α)
    (Q : α → σ → List Command → Memory → Prop) (C : Memory → Prop) (s : σ)
    (past : List Command) (m : Memory) : Prop :=
  (x s).wpFaults P (fun r past m' => Q r.1 r.2 past m') C past m

theorem wpFaults_mono {x : FlashM ε σ α} {Q Q' : α → σ → List Command → Memory → Prop}
    (h : wpFaults P x Q C s past m) (hQ : ∀ a s' past m', Q a s' past m' → Q' a s' past m') :
    wpFaults P x Q' C s past m :=
  Prog.wpFaults_mono h fun r past m' hq => hQ r.1 r.2 past m' hq

theorem wpFaults_bind {x : FlashM ε σ α} {f : α → FlashM ε σ β}
    {Q : β → σ → List Command → Memory → Prop}
    (h : wpFaults P x (fun a s' past m' => wpFaults P (f a) Q C s' past m') C s past m) :
    wpFaults P (x >>= f) Q C s past m :=
  Prog.wpFaults_bind h

@[simp] theorem wpFaults_pure {a : α} {Q : α → σ → List Command → Memory → Prop} :
    wpFaults P (pure a : FlashM ε σ α) Q C s past m ↔ C m ∧ Q a s past m := Iff.rfl

@[simp] theorem wpFaults_outOfFuel {Q : α → σ → List Command → Memory → Prop} :
    wpFaults P (outOfFuel : FlashM ε σ α) Q C s past m ↔ C m := Iff.rfl

@[simp] theorem wpFaults_readFlash {offset size : Nat}
    {Q : ε × List UInt8 → σ → List Command → Memory → Prop} :
    wpFaults P (readFlash offset size) Q C s past m ↔
      ∀ ending, P past (.read offset size) ending m →
        C m ∧ Q (ending.status, ending.data m offset size) s (.read offset size :: past) m :=
  Iff.rfl

@[simp] theorem wpFaults_writeFlash {offset : Nat} {data : List UInt8}
    {Q : ε → σ → List Command → Memory → Prop} :
    wpFaults P (writeFlash offset data) Q C s past m ↔
      (∀ j, C (program m offset (data.take j))) ∧
        ∀ ending, P past (.write offset data) ending m →
          C (program m offset (ending.programmed data)) ∧
            Q ending.status s (.write offset data :: past)
              (program m offset (ending.programmed data)) := Iff.rfl

@[simp] theorem wpFaults_eraseFlash {offset size : Nat}
    {Q : ε → σ → List Command → Memory → Prop} :
    wpFaults P (eraseFlash offset size) Q C s past m ↔
      C m ∧ ∀ ending, P past (.erase offset size) ending m →
        C (ending.erased m offset size) ∧
          Q ending.status s (.erase offset size :: past) (ending.erased m offset size) := Iff.rfl

theorem wpFaults_read {offset size : Nat} {Q : ε × List UInt8 → σ → List Command → Memory → Prop}
    (now : C m) (served : Q (Status.ok, slice m offset size) s (.read offset size :: past) m)
    (failed : ∀ status effect, P past (.read offset size) (.failed status effect) m →
      Q (status.val, []) s (.read offset size :: past) m) :
    wpFaults P (readFlash offset size) Q C s past m := by
  rw [wpFaults_readFlash]
  intro ending hending
  refine ⟨now, ?_⟩
  cases ending with
  | ok => exact served
  | failed status effect => exact failed status effect hending

theorem wpFaults_write {offset : Nat} {data : List UInt8}
    {Q : ε → σ → List Command → Memory → Prop}
    (cut : ∀ j, C (program m offset (data.take j)))
    (served : Q Status.ok s (.write offset data :: past) (program m offset data))
    (failed : ∀ status effect, P past (.write offset data) (.failed status effect) m →
      Q status.val s (.write offset data :: past) (program m offset (data.take effect))) :
    wpFaults P (writeFlash offset data) Q C s past m := by
  rw [wpFaults_writeFlash]
  refine ⟨cut, ?_⟩
  intro ending hending
  cases ending with
  | ok =>
    have hwhole := cut data.length
    rw [List.take_length] at hwhole
    exact ⟨hwhole, served⟩
  | failed status effect => exact ⟨cut effect, failed status effect hending⟩

theorem wpFaults_erase {offset size : Nat} {Q : ε → σ → List Command → Memory → Prop}
    (now : C m) (after : C (erase m offset size))
    (served : Q Status.ok s (.erase offset size :: past) (erase m offset size))
    (failed : ∀ status effect, P past (.erase offset size) (.failed status effect) m →
      C (erase m offset (min effect size)) ∧
        Q status.val s (.erase offset size :: past) (erase m offset (min effect size))) :
    wpFaults P (eraseFlash offset size) Q C s past m := by
  rw [wpFaults_eraseFlash]
  refine ⟨now, ?_⟩
  intro ending hending
  cases ending with
  | ok => exact ⟨after, served⟩
  | failed status effect => exact failed status effect hending

theorem wpFaults_run {x : FlashM ε σ α} {Q : α → σ → List Command → Memory → Prop}
    {tape : Nat → Ending ε} {a : α} {s' : σ} {m' : Memory} (h : wpFaults P x Q C s past m)
    (halong : (x s).Along P past tape m) (hrun : (x s).runFaults tape m = (some (a, s'), m')) :
    ∃ past', Q a s' past' m' := by
  have h' : (x s).wpFaults P (fun r past image => Q r.1 r.2 past image) C past m := h
  exact Prog.wpFaults_run (a := (a, s')) h' halong hrun

theorem wpFaults_cut {x : FlashM ε σ α} {Q : α → σ → List Command → Memory → Prop}
    {tape : Nat → Ending ε} {image : Memory} (h : wpFaults P x Q C s past m)
    (halong : (x s).Along P past tape m) (hcut : (x s).Cut tape m image) : C image :=
  Prog.wpFaults_cut h halong hcut

theorem runFaults_bind {x : FlashM ε σ α} {f : α → FlashM ε σ β} {tape : Nat → Ending ε} {a : α}
    {s' : σ} {m' : Memory} {r : Option (β × σ) × Memory}
    (h : (x s).runFaults tape m = (some (a, s'), m'))
    (hf : ∀ rest, (f a s').runFaults rest m' = r) : ((x >>= f) s).runFaults tape m = r := by
  obtain ⟨rest, hrest⟩ := Prog.runFaults_bind (β := β × σ) h
  exact (hrest fun r => f r.1 r.2).trans (hf rest)

-- judgements are taken apart by the rules above, never by evaluation
attribute [irreducible] wpFaults

end FlashM

/-! Runs with what they leave of the tape for the program behind them. -/

namespace Prog

def play : Prog ε α → (Nat → Ending ε) → Memory → Option α × Memory × (Nat → Ending ε)
  | ret a, tape, m => (some a, m, tape)
  | stop, tape, m => (none, m, tape)
  | read offset size k, tape, m =>
      play (k (tape 0).status ((tape 0).data m offset size)) (fun i => tape (i + 1)) m
  | write offset data k, tape, m =>
      play (k (tape 0).status) (fun i => tape (i + 1)) (program m offset ((tape 0).programmed data))
  | erase offset size k, tape, m =>
      play (k (tape 0).status) (fun i => tape (i + 1)) ((tape 0).erased m offset size)

theorem play_bind (p : Prog ε α) (f : α → Prog ε β) (tape : Nat → Ending ε) (m : Memory) :
    (p.bind f).play tape m = match p.play tape m with
      | (some a, m', rest) => (f a).play rest m'
      | (none, m', rest) => (none, m', rest) := by
  induction p generalizing tape m with
  | ret a => rfl
  | stop => rfl
  | read offset size k ih => exact ih _ _ _ m
  | write offset data k ih => exact ih _ _ _
  | erase offset size k ih => exact ih _ _ _

end Prog

def play (x : FlashM ε σ α) (s : σ) (tape : Nat → Ending ε) (m : Memory) :
    Option (α × σ) × Memory × (Nat → Ending ε) := (x s).play tape m

section
variable {x : FlashM ε σ α} {f : α → FlashM ε σ β} {s s' : σ} {tape rest : Nat → Ending ε}
  {m m' : Memory} {a : α}

theorem play_bind_some (h : play x s tape m = (some (a, s'), m', rest)) :
    play (x >>= f) s tape m = play (f a) s' rest m' := by
  show ((x s).bind fun r => f r.1 r.2).play tape m = _
  rw [Prog.play_bind, show (x s).play tape m = _ from h]
  rfl

@[simp] theorem play_pure (a : α) : play (pure a : FlashM ε σ α) s tape m = (some (a, s), m, tape) := rfl

end

end Flash
