import Edk2Nvidia.Flash.Memory

/-! Programs that drive a NOR flash, with what a power loss leaves behind. A
program is a tree of flash commands; a run answers every command with success,
and a power loss stops it after any prefix of its effects, a write after any
byte. `wp` is the weakest precondition of both at once: `Q` for the run, `C` for
every image a power loss can leave. -/
namespace Flash

/-- A status type with its success value. -/
class Status (ε : Type) where
  ok : ε

inductive Prog (ε α : Type) where
  | ret (a : α)
  /-- The fuel of a loop or a recursion ran out. -/
  | stop
  | read (offset size : Nat) (k : ε → List UInt8 → Prog ε α)
  | write (offset : Nat) (data : List UInt8) (k : ε → Prog ε α)
  | erase (offset size : Nat) (k : ε → Prog ε α)

namespace Prog

def bind : Prog ε α → (α → Prog ε β) → Prog ε β
  | ret a, f => f a
  | stop, _ => stop
  | read offset size k, f => read offset size fun status data => (k status data).bind f
  | write offset data k, f => write offset data fun status => (k status).bind f
  | erase offset size k, f => erase offset size fun status => (k status).bind f

instance : Monad (Prog ε) where
  pure := ret
  bind := bind

theorem bind_ret (p : Prog ε α) : p.bind ret = p := by
  induction p with
  | ret a => rfl
  | stop => rfl
  | read offset size k ih => simp only [bind, ih]
  | write offset data k ih => simp only [bind, ih]
  | erase offset size k ih => simp only [bind, ih]

theorem bind_bind (p : Prog ε α) (f : α → Prog ε β) (g : β → Prog ε γ) :
    (p.bind f).bind g = p.bind fun a => (f a).bind g := by
  induction p with
  | ret a => rfl
  | stop => rfl
  | read offset size k ih => simp only [bind, ih]
  | write offset data k ih => simp only [bind, ih]
  | erase offset size k ih => simp only [bind, ih]

instance : LawfulMonad (Prog ε) :=
  LawfulMonad.mk' _ bind_ret (fun _ _ => rfl) bind_bind

variable [Status ε]

/-- The run on a flash on which every command succeeds. -/
def run : Prog ε α → Memory → Option α × Memory
  | ret a, m => (some a, m)
  | stop, m => (none, m)
  | read offset size k, m => run (k Status.ok (slice m offset size)) m
  | write offset data k, m => run (k Status.ok) (program m offset data)
  | erase offset size k, m => run (k Status.ok) (Flash.erase m offset size)

theorem run_bind (p : Prog ε α) (f : α → Prog ε β) (m : Memory) :
    (p.bind f).run m = match p.run m with
      | (some a, m') => (f a).run m'
      | (none, m') => (none, m') := by
  induction p generalizing m with
  | ret a => rfl
  | stop => rfl
  | read offset size k ih => exact ih _ _ m
  | write offset data k ih => exact ih _ _
  | erase offset size k ih => exact ih _ _

/-- `image` is what the flash may hold when power is lost during the run from
`m`: a write may be cut after any byte, an erase takes place or does not. -/
def PowerLoss : Prog ε α → Memory → Memory → Prop
  | ret _, m, image => image = m
  | stop, m, image => image = m
  | read offset size k, m, image => PowerLoss (k Status.ok (slice m offset size)) m image
  | write offset data k, m, image =>
      (∃ j, image = program m offset (data.take j)) ∨
        PowerLoss (k Status.ok) (program m offset data) image
  | erase offset size k, m, image =>
      image = m ∨ PowerLoss (k Status.ok) (Flash.erase m offset size) image

theorem powerLoss_now (p : Prog ε α) (m : Memory) : p.PowerLoss m m := by
  induction p generalizing m with
  | ret a => rfl
  | stop => rfl
  | read offset size k ih => exact ih _ _ m
  | write offset data k ih => exact .inl ⟨0, by simp⟩
  | erase offset size k ih => exact .inl rfl

theorem powerLoss_end (p : Prog ε α) (m : Memory) : p.PowerLoss m (p.run m).2 := by
  induction p generalizing m with
  | ret a => rfl
  | stop => rfl
  | read offset size k ih => exact ih _ _ m
  | write offset data k ih => exact .inr (ih _ _)
  | erase offset size k ih => exact .inr (ih _ _)

/-- The image when power is lost behind `n` commands, in a write after `j` bytes. -/
def lose : Prog ε α → Nat → Nat → Memory → Memory
  | ret _, _, _, m => m
  | stop, _, _, m => m
  | read _ _ _, 0, _, m => m
  | read offset size k, n + 1, j, m => lose (k Status.ok (slice m offset size)) n j m
  | write offset data _, 0, j, m => program m offset (data.take j)
  | write offset data k, n + 1, j, m => lose (k Status.ok) n j (program m offset data)
  | erase _ _ _, 0, _, m => m
  | erase offset size k, n + 1, j, m => lose (k Status.ok) n j (Flash.erase m offset size)

theorem powerLoss_lose (p : Prog ε α) (n j : Nat) (m : Memory) :
    p.PowerLoss m (p.lose n j m) := by
  induction p generalizing n m with
  | ret a => rfl
  | stop => rfl
  | read offset size k ih =>
    cases n with
    | zero => exact powerLoss_now _ m
    | succ n => exact ih _ _ n m
  | write offset data k ih =>
    cases n with
    | zero => exact .inl ⟨j, rfl⟩
    | succ n => exact .inr (ih _ n _)
  | erase offset size k ih =>
    cases n with
    | zero => exact .inl rfl
    | succ n => exact .inr (ih _ n _)

/-- The run ends, with a result and a flash that pass the check. -/
def endsWith (p : Prog ε α) (m : Memory) (check : α → Memory → Bool) : Bool :=
  match p.run m with
  | (some a, m') => check a m'
  | (none, _) => false

theorem exists_of_endsWith {p : Prog ε α} {m : Memory} {check : α → Memory → Bool}
    (h : p.endsWith m check = true) : ∃ a m', p.run m = (some a, m') ∧ check a m' = true := by
  unfold endsWith at h
  split at h
  next a m' hrun => exact ⟨a, m', hrun, h⟩
  next => cases h

theorem PowerLoss.bind_left {p : Prog ε α} {m image : Memory} (h : p.PowerLoss m image)
    (f : α → Prog ε β) : (p.bind f).PowerLoss m image := by
  induction p generalizing m with
  | ret a =>
    cases h
    exact powerLoss_now (f a) image
  | stop => exact h
  | read offset size k ih => exact ih _ _ h
  | write offset data k ih => exact h.imp id (ih _)
  | erase offset size k ih => exact h.imp id (ih _)

theorem PowerLoss.bind_right {p : Prog ε α} {f : α → Prog ε β} {a : α} {m m' image : Memory}
    (h : (f a).PowerLoss m' image) (hr : p.run m = (some a, m')) :
    (p.bind f).PowerLoss m image := by
  induction p generalizing m with
  | ret b =>
    cases hr
    exact h
  | stop => cases hr
  | read offset size k ih => exact ih _ _ hr
  | write offset data k ih => exact .inr (ih _ hr)
  | erase offset size k ih => exact .inr (ih _ hr)

/-- With `total` the program must not run out of fuel. -/
def wp (total : Bool) : Prog ε α → (α → Memory → Prop) → (Memory → Prop) → Memory → Prop
  | ret a, Q, C, m => C m ∧ Q a m
  | stop, _, C, m => C m ∧ total = false
  | read offset size k, Q, C, m => wp total (k Status.ok (slice m offset size)) Q C m
  | write offset data k, Q, C, m =>
      (∀ j, C (program m offset (data.take j))) ∧
        wp total (k Status.ok) Q C (program m offset data)
  | erase offset size k, Q, C, m =>
      C m ∧ wp total (k Status.ok) Q C (Flash.erase m offset size)

theorem wp_now {total : Bool} {p : Prog ε α} {Q : α → Memory → Prop} {C : Memory → Prop}
    {m : Memory} (h : wp total p Q C m) : C m := by
  induction p generalizing m with
  | ret a => exact h.1
  | stop => exact h.1
  | read offset size k ih => exact ih _ _ h
  | write offset data k ih => simpa using h.1 0
  | erase offset size k ih => exact h.1

theorem wp_mono {total : Bool} {p : Prog ε α} {Q Q' : α → Memory → Prop}
    {C C' : Memory → Prop} {m : Memory} (h : wp total p Q C m)
    (hQ : ∀ a m', Q a m' → Q' a m') (hC : ∀ m', C m' → C' m') : wp total p Q' C' m := by
  induction p generalizing m with
  | ret a => exact ⟨hC _ h.1, hQ _ _ h.2⟩
  | stop => exact ⟨hC _ h.1, h.2⟩
  | read offset size k ih => exact ih _ _ h
  | write offset data k ih => exact ⟨fun j => hC _ (h.1 j), ih _ h.2⟩
  | erase offset size k ih => exact ⟨hC _ h.1, ih _ h.2⟩

theorem wp_bind {total : Bool} {p : Prog ε α} {f : α → Prog ε β} {Q : β → Memory → Prop}
    {C : Memory → Prop} {m : Memory}
    (h : wp total p (fun a m' => wp total (f a) Q C m') C m) : wp total (p.bind f) Q C m := by
  induction p generalizing m with
  | ret a => exact h.2
  | stop => exact h
  | read offset size k ih => exact ih _ _ h
  | write offset data k ih => exact ⟨h.1, ih _ h.2⟩
  | erase offset size k ih => exact ⟨h.1, ih _ h.2⟩

theorem wp_run {total : Bool} {p : Prog ε α} {Q : α → Memory → Prop} {C : Memory → Prop}
    {m m' : Memory} {a : α} (h : wp total p Q C m) (hr : p.run m = (some a, m')) : Q a m' := by
  induction p generalizing m with
  | ret b =>
    cases hr
    exact h.2
  | stop => cases hr
  | read offset size k ih => exact ih _ _ h hr
  | write offset data k ih => exact ih _ h.2 hr
  | erase offset size k ih => exact ih _ h.2 hr

theorem wp_total {p : Prog ε α} {Q : α → Memory → Prop} {C : Memory → Prop} {m : Memory}
    (h : wp true p Q C m) : ∃ a m', p.run m = (some a, m') ∧ Q a m' := by
  induction p generalizing m with
  | ret a => exact ⟨a, m, rfl, h.2⟩
  | stop => exact absurd h.2 (by decide)
  | read offset size k ih => exact ih _ _ h
  | write offset data k ih => exact ih _ h.2
  | erase offset size k ih => exact ih _ h.2

theorem wp_partial {p : Prog ε α} {Q : α → Memory → Prop} {C : Memory → Prop} {m : Memory}
    (h : wp true p Q C m) : wp false p Q C m := by
  induction p generalizing m with
  | ret a => exact h
  | stop => exact absurd h.2 (by decide)
  | read offset size k ih => exact ih _ _ h
  | write offset data k ih => exact ⟨h.1, ih _ h.2⟩
  | erase offset size k ih => exact ⟨h.1, ih _ h.2⟩

theorem wp_powerLoss {total : Bool} {p : Prog ε α} {Q : α → Memory → Prop}
    {C : Memory → Prop} {m image : Memory} (h : wp total p Q C m)
    (hl : p.PowerLoss m image) : C image := by
  induction p generalizing m with
  | ret a =>
    cases hl
    exact h.1
  | stop =>
    cases hl
    exact h.1
  | read offset size k ih => exact ih _ _ h hl
  | write offset data k ih =>
    rcases hl with ⟨j, rfl⟩ | hl
    · exact h.1 j
    · exact ih _ h.2 hl
  | erase offset size k ih =>
    rcases hl with rfl | hl
    · exact h.1
    · exact ih _ h.2 hl

end Prog

/-! Drivers keep their own state next to the flash. -/

abbrev FlashM (ε σ α : Type) := StateT σ (Prog ε) α

section FlashM
variable {ε σ α β : Type}

def readFlash (offset size : Nat) : FlashM ε σ (ε × List UInt8) := fun s =>
  .read offset size fun status data => .ret ((status, data), s)

def writeFlash (offset : Nat) (data : List UInt8) : FlashM ε σ ε := fun s =>
  .write offset data fun status => .ret (status, s)

def eraseFlash (offset size : Nat) : FlashM ε σ ε := fun s =>
  .erase offset size fun status => .ret (status, s)

def outOfFuel : FlashM ε σ α := fun _ => .stop

theorem get_bind (f : σ → FlashM ε σ β) (s : σ) : (get >>= f) s = f s s := rfl

theorem modify_bind (g : σ → σ) (f : PUnit → FlashM ε σ β) (s : σ) :
    (modify g >>= f) s = f ⟨⟩ (g s) := rfl

variable [Status ε] {total : Bool} {s : σ} {m : Memory} {C : Memory → Prop}

def wp (total : Bool) (x : FlashM ε σ α) (Q : α → σ → Memory → Prop) (C : Memory → Prop)
    (s : σ) (m : Memory) : Prop :=
  (x s).wp total (fun r m' => Q r.1 r.2 m') C m

theorem wp_now {x : FlashM ε σ α} {Q : α → σ → Memory → Prop} (h : wp total x Q C s m) : C m :=
  Prog.wp_now h

theorem wp_mono {x : FlashM ε σ α} {Q Q' : α → σ → Memory → Prop} {C' : Memory → Prop}
    (h : wp total x Q C s m) (hQ : ∀ a s' m', Q a s' m' → Q' a s' m')
    (hC : ∀ m', C m' → C' m') : wp total x Q' C' s m :=
  Prog.wp_mono h (fun r m' hq => hQ r.1 r.2 m' hq) hC

theorem wp_post {x : FlashM ε σ α} {Q Q' : α → σ → Memory → Prop}
    (h : wp total x Q C s m) (hQ : ∀ a s' m', Q a s' m' → Q' a s' m') : wp total x Q' C s m :=
  wp_mono h hQ fun _ hc => hc

theorem wp_bind {x : FlashM ε σ α} {f : α → FlashM ε σ β} {Q : β → σ → Memory → Prop}
    (h : wp total x (fun a s' m' => wp total (f a) Q C s' m') C s m) :
    wp total (x >>= f) Q C s m :=
  Prog.wp_bind h

@[simp] theorem wp_pure {a : α} {Q : α → σ → Memory → Prop} :
    wp total (pure a : FlashM ε σ α) Q C s m ↔ C m ∧ Q a s m := Iff.rfl

@[simp] theorem wp_get_bind {f : σ → FlashM ε σ β} {Q : β → σ → Memory → Prop} :
    wp total (get >>= f) Q C s m ↔ wp total (f s) Q C s m := Iff.rfl

@[simp] theorem wp_set_bind {s' : σ} {f : PUnit → FlashM ε σ β} {Q : β → σ → Memory → Prop} :
    wp total (set s' >>= f) Q C s m ↔ wp total (f ⟨⟩) Q C s' m := Iff.rfl

@[simp] theorem wp_modify_bind {g : σ → σ} {f : PUnit → FlashM ε σ β}
    {Q : β → σ → Memory → Prop} :
    wp total (modify g >>= f) Q C s m ↔ wp total (f ⟨⟩) Q C (g s) m := Iff.rfl

@[simp] theorem wp_set {s' : σ} {Q : PUnit → σ → Memory → Prop} :
    wp total (set s' : FlashM ε σ PUnit) Q C s m ↔ C m ∧ Q ⟨⟩ s' m := Iff.rfl

@[simp] theorem wp_modify {g : σ → σ} {Q : PUnit → σ → Memory → Prop} :
    wp total (modify g : FlashM ε σ PUnit) Q C s m ↔ C m ∧ Q ⟨⟩ (g s) m := Iff.rfl

@[simp] theorem wp_pure_bind {a : α} {f : α → FlashM ε σ β} {Q : β → σ → Memory → Prop} :
    wp total (pure a >>= f) Q C s m ↔ wp total (f a) Q C s m := Iff.rfl

@[simp] theorem wp_readFlash {offset size : Nat} {Q : ε × List UInt8 → σ → Memory → Prop} :
    wp total (readFlash offset size) Q C s m ↔
      C m ∧ Q (Status.ok, slice m offset size) s m := Iff.rfl

@[simp] theorem wp_writeFlash {offset : Nat} {data : List UInt8} {Q : ε → σ → Memory → Prop} :
    wp total (writeFlash offset data) Q C s m ↔
      (∀ j, C (program m offset (data.take j))) ∧ C (program m offset data) ∧
        Q Status.ok s (program m offset data) := Iff.rfl

@[simp] theorem wp_eraseFlash {offset size : Nat} {Q : ε → σ → Memory → Prop} :
    wp total (eraseFlash offset size) Q C s m ↔
      C m ∧ C (erase m offset size) ∧ Q Status.ok s (erase m offset size) := Iff.rfl

@[simp] theorem wp_outOfFuel {Q : α → σ → Memory → Prop} :
    wp total (outOfFuel : FlashM ε σ α) Q C s m ↔ C m ∧ total = false := Iff.rfl

theorem wp_run {x : FlashM ε σ α} {Q : α → σ → Memory → Prop} {a : α} {s' : σ} {m' : Memory}
    (h : wp total x Q C s m) (hr : (x s).run m = (some (a, s'), m')) : Q a s' m' := by
  have h' : (x s).wp total (fun r image => Q r.1 r.2 image) C m := h
  exact Prog.wp_run (a := (a, s')) h' hr

theorem wp_total {x : FlashM ε σ α} {Q : α → σ → Memory → Prop} (h : wp true x Q C s m) :
    ∃ a s' m', (x s).run m = (some (a, s'), m') ∧ Q a s' m' :=
  let ⟨⟨a, s'⟩, m', hr, hq⟩ := Prog.wp_total h
  ⟨a, s', m', hr, hq⟩

theorem wp_powerLoss {x : FlashM ε σ α} {Q : α → σ → Memory → Prop} {image : Memory}
    (h : wp total x Q C s m) (hl : (x s).PowerLoss m image) : C image :=
  Prog.wp_powerLoss h hl

theorem run_bind {x : FlashM ε σ α} {a : α} {s' : σ} {m' : Memory}
    (h : (x s).run m = (some (a, s'), m')) (f : α → FlashM ε σ β) :
    ((x >>= f) s).run m = (f a s').run m' := by
  show ((x s).bind fun r => f r.1 r.2).run m = _
  rw [Prog.run_bind, h]

theorem powerLoss_bind_left {x : FlashM ε σ α} {f : α → FlashM ε σ β} {image : Memory}
    (hl : (x s).PowerLoss m image) : ((x >>= f) s).PowerLoss m image :=
  hl.bind_left _

theorem powerLoss_bind_right {x : FlashM ε σ α} {a : α} {s' : σ} {m' : Memory}
    (h : (x s).run m = (some (a, s'), m')) {f : α → FlashM ε σ β} {image : Memory}
    (hl : (f a s').PowerLoss m' image) : ((x >>= f) s).PowerLoss m image := by
  show ((x s).bind fun r => f r.1 r.2).PowerLoss m image
  exact Prog.PowerLoss.bind_right (a := (a, s')) hl h

@[simp] theorem powerLoss_get_bind {f : σ → FlashM ε σ β} {image : Memory} :
    ((get >>= f) s).PowerLoss m image ↔ (f s s).PowerLoss m image := Iff.rfl

@[simp] theorem powerLoss_modify_bind {g : σ → σ} {f : PUnit → FlashM ε σ β} {image : Memory} :
    ((modify g >>= f) s).PowerLoss m image ↔ (f ⟨⟩ (g s)).PowerLoss m image := Iff.rfl

theorem run_bind_pure (x : FlashM ε σ α) (g : α → β) :
    (((x >>= fun a => pure (g a)) s).run m).2 = ((x s).run m).2 := by
  show (((x s).bind fun r => .ret (g r.1, r.2)).run m).2 = _
  rw [Prog.run_bind]
  rcases (x s).run m with ⟨_ | r, m'⟩ <;> rfl

/-- `x` returns `a` and changes neither the state nor the flash. -/
def Returns (x : FlashM ε σ α) (a : α) (s : σ) (m : Memory) : Prop :=
  wp true x (fun b s' m' => b = a ∧ s' = s ∧ m' = m) (fun image => image = m) s m

theorem Returns.wp {x : FlashM ε σ α} {a : α} {Q : α → σ → Memory → Prop}
    (h : Returns x a s m) (hC : C m) (hQ : Q a s m) : wp total x Q C s m := by
  have weaken : Flash.wp total x (fun b s' m' => b = a ∧ s' = s ∧ m' = m)
      (fun image => image = m) s m := by
    cases total with
    | true => exact h
    | false => exact Prog.wp_partial h
  refine wp_mono weaken ?_ ?_
  · rintro b s' m' ⟨rfl, rfl, rfl⟩
    exact hQ
  · rintro image rfl
    exact hC

theorem Returns.run {x : FlashM ε σ α} {a : α} (h : Returns x a s m) :
    (x s).run m = (some (a, s), m) := by
  obtain ⟨b, s', m', hr, rfl, rfl, rfl⟩ := wp_total h
  exact hr

@[simp] theorem returns_pure (a : α) : Returns (pure a : FlashM ε σ α) a s m :=
  ⟨rfl, rfl, rfl, rfl⟩

@[simp] theorem returns_get_bind {f : σ → FlashM ε σ β} {b : β} :
    Returns (get >>= f) b s m ↔ Returns (f s) b s m := Iff.rfl

theorem returns_readFlash (offset size : Nat) :
    Returns (readFlash offset size : FlashM ε σ _) (Status.ok, slice m offset size) s m :=
  ⟨rfl, rfl, rfl, rfl⟩

theorem Returns.wp_bind {x : FlashM ε σ α} {a : α} {f : α → FlashM ε σ β}
    {Q : β → σ → Memory → Prop} (h : Returns x a s m) (h' : Flash.wp total (f a) Q C s m) :
    Flash.wp total (x >>= f) Q C s m :=
  Flash.wp_bind (h.wp (wp_now h') h')

theorem Returns.bind {x : FlashM ε σ α} {a : α} {f : α → FlashM ε σ β} {b : β}
    (h : Returns x a s m) (h' : Returns (f a) b s m) : Returns (x >>= f) b s m :=
  h.wp_bind h'

theorem Returns.run_bind {x : FlashM ε σ α} {a : α} (h : Returns x a s m)
    (f : α → FlashM ε σ β) : ((x >>= f) s).run m = (f a s).run m :=
  Flash.run_bind h.run f

theorem Returns.powerLoss_bind {x : FlashM ε σ α} {a : α} (h : Returns x a s m)
    {f : α → FlashM ε σ β} {image : Memory} (hl : (f a s).PowerLoss m image) :
    ((x >>= f) s).PowerLoss m image :=
  Flash.powerLoss_bind_right h.run hl

theorem powerLoss_eraseFlash_bind {offset size : Nat} {f : ε → FlashM ε σ β} {image : Memory}
    (hl : (f Status.ok s).PowerLoss (erase m offset size) image) :
    ((eraseFlash offset size >>= f) s).PowerLoss m image := .inr hl

theorem powerLoss_writeFlash_bind (offset : Nat) (data : List UInt8) (f : ε → FlashM ε σ β)
    (j : Nat) :
    ((writeFlash offset data >>= f) s).PowerLoss m (program m offset (data.take j)) :=
  .inl ⟨j, rfl⟩

-- judgements are taken apart by the rules above, never by evaluation
attribute [irreducible] wp Returns

end FlashM

end Flash
