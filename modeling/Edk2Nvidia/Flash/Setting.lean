import Edk2Nvidia.Flash.Faults

/-! Judgements about programs whatever a run may meet: how its commands may end, whether it may
run out of fuel, and what holds wherever power is lost. `Flash.Program` and `Flash.Faults` judge
two of these settings. -/
namespace Flash

structure Setting (ε : Type) [Status ε] where
  ends : Command → Ending ε → Prop
  /-- The fuel may run out. -/
  stops : Prop
  /-- Power may be lost on this image. -/
  cut : Memory → Prop

variable {ε : Type} [Status ε]

namespace Setting

/-- Every command succeeds and power may be lost anywhere. -/
def faultFree (stops : Prop) : Setting ε where
  ends _ ending := ending = .ok
  stops := stops
  cut _ := True

/-- Every command succeeds and power may be lost where `cut` allows it. -/
def reliable (cut : Memory → Prop) : Setting ε where
  ends _ ending := ending = .ok
  stops := True
  cut := cut

def Faulty (S : Setting ε) : Prop :=
  ∃ command status effect, S.ends command (.failed status effect)

theorem not_faulty_faultFree (stops : Prop) : ¬ (faultFree stops : Setting ε).Faulty := by
  rintro ⟨command, status, effect, h⟩
  cases h

theorem not_faulty_reliable (cut : Memory → Prop) : ¬ (reliable cut : Setting ε).Faulty := by
  rintro ⟨command, status, effect, h⟩
  cases h

end Setting

namespace Prog

def wpIn (S : Setting ε) : Prog ε α → (α → Memory → Prop) → Memory → Prop
  | ret a, Q, m => S.cut m ∧ Q a m
  | stop, _, m => S.cut m ∧ S.stops
  | read offset size k, Q, m =>
      S.cut m ∧ ∀ ending, S.ends (.read offset size) ending →
        wpIn S (k ending.status (ending.data m offset size)) Q m
  | write offset data k, Q, m =>
      (∀ j, S.cut (program m offset (data.take j))) ∧
        ∀ ending, S.ends (.write offset data) ending →
          wpIn S (k ending.status) Q (program m offset (ending.programmed data))
  | erase offset size k, Q, m =>
      S.cut m ∧ ∀ ending, S.ends (.erase offset size) ending →
        wpIn S (k ending.status) Q (ending.erased m offset size)

variable {S : Setting ε}

theorem wpIn_mono {p : Prog ε α} {Q Q' : α → Memory → Prop} {m : Memory} (h : wpIn S p Q m)
    (hQ : ∀ a m', Q a m' → Q' a m') : wpIn S p Q' m := by
  induction p generalizing m with
  | ret a => exact ⟨h.1, hQ _ _ h.2⟩
  | stop => exact h
  | read offset size k ih => exact ⟨h.1, fun ending hending => ih _ _ (h.2 ending hending)⟩
  | write offset data k ih => exact ⟨h.1, fun ending hending => ih _ (h.2 ending hending)⟩
  | erase offset size k ih => exact ⟨h.1, fun ending hending => ih _ (h.2 ending hending)⟩

theorem wpIn_bind {p : Prog ε α} {f : α → Prog ε β} {Q : β → Memory → Prop} {m : Memory}
    (h : wpIn S p (fun a m' => wpIn S (f a) Q m') m) : wpIn S (p.bind f) Q m := by
  induction p generalizing m with
  | ret a => exact h.2
  | stop => exact h
  | read offset size k ih => exact ⟨h.1, fun ending hending => ih _ _ (h.2 ending hending)⟩
  | write offset data k ih => exact ⟨h.1, fun ending hending => ih _ (h.2 ending hending)⟩
  | erase offset size k ih => exact ⟨h.1, fun ending hending => ih _ (h.2 ending hending)⟩

abbrev Meets (S : Setting ε) (p : Prog ε α) (tape : Nat → Ending ε) (m : Memory) : Prop :=
  p.Along (fun _ command ending _ => S.ends command ending) [] tape m

theorem wpIn_along {p : Prog ε α} {Q : α → Memory → Prop} {past : List Command}
    {tape : Nat → Ending ε} {m : Memory} (h : wpIn S p Q m)
    (hmeets : p.Along (fun _ command ending _ => S.ends command ending) past tape m) :
    (∃ a m', p.runFaults tape m = (some a, m') ∧ Q a m') ∨
      S.stops ∧ (p.runFaults tape m).1 = none := by
  induction p generalizing past tape m with
  | ret a => exact .inl ⟨a, m, rfl, h.2⟩
  | stop => exact .inr ⟨h.2, rfl⟩
  | read offset size k ih => exact ih _ _ (h.2 _ hmeets.1) hmeets.2
  | write offset data k ih => exact ih _ (h.2 _ hmeets.1) hmeets.2
  | erase offset size k ih => exact ih _ (h.2 _ hmeets.1) hmeets.2

/-- Where nothing fails, power is lost on the way of the plain run. -/
theorem cut_ok {p : Prog ε α} {m image : Memory} (h : p.PowerLoss m image) :
    p.Cut (fun _ => .ok) m image := by
  induction p generalizing m with
  | ret a => exact h
  | stop => exact h
  | read offset size k ih => exact ih _ _ h
  | write offset data k ih => exact h.imp_right fun hlost => ih _ hlost
  | erase offset size k ih => exact h.imp_right fun hlost => ih _ hlost

theorem wpIn_cut {p : Prog ε α} {Q : α → Memory → Prop} {past : List Command}
    {tape : Nat → Ending ε} {m image : Memory} (h : wpIn S p Q m)
    (hmeets : p.Along (fun _ command ending _ => S.ends command ending) past tape m)
    (hcut : p.Cut tape m image) : S.cut image := by
  induction p generalizing past tape m with
  | ret a =>
    cases hcut
    exact h.1
  | stop =>
    cases hcut
    exact h.1
  | read offset size k ih => exact ih _ _ (h.2 _ hmeets.1) hmeets.2 hcut
  | write offset data k ih =>
    rcases hcut with ⟨j, rfl⟩ | hcut
    · exact h.1 j
    · exact ih _ (h.2 _ hmeets.1) hmeets.2 hcut
  | erase offset size k ih =>
    rcases hcut with rfl | hcut
    · exact h.1
    · exact ih _ (h.2 _ hmeets.1) hmeets.2 hcut

end Prog

section FlashM
variable {σ α β : Type} {S : Setting ε} {s : σ} {m : Memory}

def wpIn (S : Setting ε) (x : FlashM ε σ α) (Q : α → σ → Memory → Prop) (s : σ) (m : Memory) :
    Prop :=
  (x s).wpIn S (fun r m' => Q r.1 r.2 m') m

theorem wpIn_mono {x : FlashM ε σ α} {Q Q' : α → σ → Memory → Prop} (h : wpIn S x Q s m)
    (hQ : ∀ a s' m', Q a s' m' → Q' a s' m') : wpIn S x Q' s m :=
  Prog.wpIn_mono h fun r m' hq => hQ r.1 r.2 m' hq

theorem wpIn_bind {x : FlashM ε σ α} {f : α → FlashM ε σ β} {Q : β → σ → Memory → Prop}
    (h : wpIn S x (fun a s' m' => wpIn S (f a) Q s' m') s m) : wpIn S (x >>= f) Q s m :=
  Prog.wpIn_bind h

@[simp] theorem wpIn_pure {a : α} {Q : α → σ → Memory → Prop} :
    wpIn S (pure a : FlashM ε σ α) Q s m ↔ S.cut m ∧ Q a s m := Iff.rfl

@[simp] theorem wpIn_pure_bind {a : α} {f : α → FlashM ε σ β} {Q : β → σ → Memory → Prop} :
    wpIn S (pure a >>= f) Q s m ↔ wpIn S (f a) Q s m := Iff.rfl

@[simp] theorem wpIn_get_bind {f : σ → FlashM ε σ β} {Q : β → σ → Memory → Prop} :
    wpIn S (get >>= f) Q s m ↔ wpIn S (f s) Q s m := Iff.rfl

@[simp] theorem wpIn_set_bind {s' : σ} {f : PUnit → FlashM ε σ β} {Q : β → σ → Memory → Prop} :
    wpIn S (set s' >>= f) Q s m ↔ wpIn S (f ⟨⟩) Q s' m := Iff.rfl

@[simp] theorem wpIn_modify_bind {g : σ → σ} {f : PUnit → FlashM ε σ β}
    {Q : β → σ → Memory → Prop} :
    wpIn S (modify g >>= f) Q s m ↔ wpIn S (f ⟨⟩) Q (g s) m := Iff.rfl

@[simp] theorem wpIn_modify {g : σ → σ} {Q : PUnit → σ → Memory → Prop} :
    wpIn S (modify g : FlashM ε σ PUnit) Q s m ↔ S.cut m ∧ Q ⟨⟩ (g s) m := Iff.rfl

@[simp] theorem wpIn_outOfFuel {Q : α → σ → Memory → Prop} :
    wpIn S (outOfFuel : FlashM ε σ α) Q s m ↔ S.cut m ∧ S.stops := Iff.rfl

@[simp] theorem wpIn_readFlash {offset size : Nat} {Q : ε × List UInt8 → σ → Memory → Prop} :
    wpIn S (readFlash offset size) Q s m ↔
      S.cut m ∧ ∀ ending, S.ends (.read offset size) ending →
        S.cut m ∧ Q (ending.status, ending.data m offset size) s m := Iff.rfl

@[simp] theorem wpIn_writeFlash {offset : Nat} {data : List UInt8} {Q : ε → σ → Memory → Prop} :
    wpIn S (writeFlash offset data) Q s m ↔
      (∀ j, S.cut (program m offset (data.take j))) ∧
        ∀ ending, S.ends (.write offset data) ending →
          S.cut (program m offset (ending.programmed data)) ∧
            Q ending.status s (program m offset (ending.programmed data)) := Iff.rfl

@[simp] theorem wpIn_eraseFlash {offset size : Nat} {Q : ε → σ → Memory → Prop} :
    wpIn S (eraseFlash offset size) Q s m ↔
      S.cut m ∧ ∀ ending, S.ends (.erase offset size) ending →
        S.cut (ending.erased m offset size) ∧
          Q ending.status s (ending.erased m offset size) := Iff.rfl

theorem wpIn_read {offset size : Nat} {Q : ε × List UInt8 → σ → Memory → Prop} (now : S.cut m)
    (served : Q (Status.ok, slice m offset size) s m)
    (failed : ∀ status effect, S.ends (.read offset size) (.failed status effect) →
      Q (status.val, []) s m) : wpIn S (readFlash offset size) Q s m := by
  rw [wpIn_readFlash]
  refine ⟨now, fun ending hending => ⟨now, ?_⟩⟩
  cases ending with
  | ok => exact served
  | failed status effect => exact failed status effect hending

theorem wpIn_write {offset : Nat} {data : List UInt8} {Q : ε → σ → Memory → Prop}
    (cut : ∀ j, S.cut (program m offset (data.take j)))
    (served : Q Status.ok s (program m offset data))
    (failed : ∀ status effect, S.ends (.write offset data) (.failed status effect) →
      Q status.val s (program m offset (data.take effect))) :
    wpIn S (writeFlash offset data) Q s m := by
  rw [wpIn_writeFlash]
  refine ⟨cut, ?_⟩
  intro ending hending
  cases ending with
  | ok =>
    have hwhole := cut data.length
    rw [List.take_length] at hwhole
    exact ⟨hwhole, served⟩
  | failed status effect => exact ⟨cut effect, failed status effect hending⟩

theorem wpIn_erase {offset size : Nat} {Q : ε → σ → Memory → Prop}
    (now : S.cut m) (after : S.cut (erase m offset size))
    (served : Q Status.ok s (erase m offset size))
    (failed : ∀ status effect, S.ends (.erase offset size) (.failed status effect) →
      S.cut (erase m offset (min effect size)) ∧
        Q status.val s (erase m offset (min effect size))) :
    wpIn S (eraseFlash offset size) Q s m := by
  rw [wpIn_eraseFlash]
  refine ⟨now, ?_⟩
  intro ending hending
  cases ending with
  | ok => exact ⟨after, served⟩
  | failed status effect => exact failed status effect hending

theorem wpIn_run {x : FlashM ε σ α} {Q : α → σ → Memory → Prop} {tape : Nat → Ending ε} {a : α}
    {s' : σ} {m' : Memory} (h : wpIn S x Q s m) (hmeets : (x s).Meets S tape m)
    (hrun : (x s).runFaults tape m = (some (a, s'), m')) : Q a s' m' := by
  have h' : (x s).wpIn S (fun r image => Q r.1 r.2 image) m := h
  rcases Prog.wpIn_along h' hmeets with ⟨r, image, hresult, hq⟩ | ⟨hstops, hnone⟩
  · rw [hrun] at hresult
    cases hresult
    exact hq
  · rw [hrun] at hnone
    cases hnone

theorem wpIn_cut {x : FlashM ε σ α} {Q : α → σ → Memory → Prop} {tape : Nat → Ending ε}
    {image : Memory} (h : wpIn S x Q s m) (hmeets : (x s).Meets S tape m)
    (hcut : (x s).Cut tape m image) : S.cut image :=
  Prog.wpIn_cut h hmeets hcut

theorem wpIn_run_reliable {x : FlashM ε σ α} {Q : α → σ → Memory → Prop} {cut : Memory → Prop} {a : α}
    {s' : σ} {m' : Memory} (h : wpIn (Setting.reliable cut) x Q s m)
    (hrun : (x s).run m = (some (a, s'), m')) : Q a s' m' := by
  rw [← Prog.runFaults_ok] at hrun
  exact wpIn_run h (Prog.along_ok (fun _ _ _ => rfl) _ [] m) hrun

theorem wpIn_powerLoss {x : FlashM ε σ α} {Q : α → σ → Memory → Prop} {cut : Memory → Prop}
    {image : Memory} (h : wpIn (Setting.reliable cut) x Q s m) (hlost : (x s).PowerLoss m image) :
    cut image :=
  wpIn_cut h (Prog.along_ok (fun _ _ _ => rfl) _ [] m) (Prog.cut_ok hlost)

theorem wpIn_total {x : FlashM ε σ α} {Q : α → σ → Memory → Prop} {tape : Nat → Ending ε}
    (hstops : ¬ S.stops) (h : wpIn S x Q s m) (hmeets : (x s).Meets S tape m) :
    ∃ a s' m', (x s).runFaults tape m = (some (a, s'), m') ∧ Q a s' m' := by
  have h' : (x s).wpIn S (fun r image => Q r.1 r.2 image) m := h
  rcases Prog.wpIn_along h' hmeets with ⟨⟨a, s'⟩, m', hresult, hq⟩ | ⟨hstop, hnone⟩
  · exact ⟨a, s', m', hresult, hq⟩
  · exact absurd hstop hstops

theorem meets_faultFree (p : Prog ε α) (stops : Prop) (m : Memory) :
    p.Meets (Setting.faultFree stops) (fun _ => .ok) m :=
  Prog.along_ok (fun _ _ _ => rfl) p [] m

theorem wpIn_total_faultFree {x : FlashM ε σ α} {Q : α → σ → Memory → Prop}
    (h : wpIn (Setting.faultFree False) x Q s m) :
    ∃ a s' m', (x s).run m = (some (a, s'), m') ∧ Q a s' m' := by
  rw [← Prog.runFaults_ok]
  exact wpIn_total id h (meets_faultFree _ False m)

-- judgements are taken apart by the rules above, never by evaluation
attribute [irreducible] wpIn

end FlashM

end Flash
