import Edk2Nvidia.Flash.Faults

/-! The commands of a run on a flash on which every command succeeds, in order. -/
namespace Flash

variable {ε α β σ : Type} [Status ε]

namespace Prog

def commands : Prog ε α → Memory → List Command
  | ret _, _ => []
  | stop, _ => []
  | read offset size k, m => .read offset size :: commands (k Status.ok (slice m offset size)) m
  | write offset data k, m => .write offset data :: commands (k Status.ok) (program m offset data)
  | erase offset size k, m => .erase offset size :: commands (k Status.ok) (Flash.erase m offset size)

theorem commands_bind (p : Prog ε α) (f : α → Prog ε β) (m : Memory) :
    (p.bind f).commands m = p.commands m ++ match p.run m with
      | (some a, m') => (f a).commands m'
      | (none, _) => [] := by
  induction p generalizing m with
  | ret a => rfl
  | stop => rfl
  | read offset size k ih => exact congrArg _ (ih _ _ m)
  | write offset data k ih => exact congrArg _ (ih _ _)
  | erase offset size k ih => exact congrArg _ (ih _ _)

end Prog

def commands (x : FlashM ε σ α) (s : σ) (m : Memory) : List Command := (x s).commands m

def Command.IsRead : Command → Prop
  | .read _ _ => True
  | _ => False

def OnlyReads (x : FlashM ε σ α) : Prop :=
  ∀ s m, (∀ c ∈ commands x s m, c.IsRead) ∧ ((x s).run m).2 = m

section
variable {x : FlashM ε σ α} {f : α → FlashM ε σ β} {s s' : σ} {m m' : Memory} {a : α}

theorem commands_bind_some (h : (x s).run m = (some (a, s'), m')) :
    commands (x >>= f) s m = commands x s m ++ commands (f a) s' m' := by
  show ((x s).bind fun r => f r.1 r.2).commands m = _
  rw [Prog.commands_bind, h]
  rfl

theorem commands_bind_none (h : ((x s).run m).1 = none) :
    commands (x >>= f) s m = commands x s m := by
  show ((x s).bind fun r => f r.1 r.2).commands m = _
  obtain ⟨m', hrun⟩ : ∃ m', (x s).run m = (none, m') := ⟨_, Prod.ext h rfl⟩
  rw [Prog.commands_bind, hrun]
  exact List.append_nil _

theorem commands_bind_pure (g : α → β) : commands (x >>= fun a => pure (g a)) s m = commands x s m := by
  show ((x s).bind fun r => .ret (g r.1, r.2)).commands m = _
  rw [Prog.commands_bind]
  cases (x s).run m with
  | mk r m' => cases r <;> exact List.append_nil _

@[simp] theorem commands_pure (a : α) : commands (pure a : FlashM ε σ α) s m = [] := rfl

@[simp] theorem commands_writeFlash (offset : Nat) (data : List UInt8) :
    commands (writeFlash offset data : FlashM ε σ ε) s m = [.write offset data] := rfl

namespace OnlyReads

theorem pure (a : α) : OnlyReads (Pure.pure a : FlashM ε σ α) := fun _ _ => ⟨nofun, rfl⟩

theorem outOfFuel : OnlyReads (Flash.outOfFuel : FlashM ε σ α) := fun _ _ => ⟨nofun, rfl⟩

theorem readFlash (offset size : Nat) : OnlyReads (Flash.readFlash offset size : FlashM ε σ (ε × List UInt8)) := by
  intro s m
  refine ⟨fun c hc => ?_, rfl⟩
  cases List.mem_singleton.mp hc
  trivial

theorem ite {c : Prop} [Decidable c] {y : FlashM ε σ α} (hx : OnlyReads x) (hy : OnlyReads y) :
    OnlyReads (if c then x else y) := by
  split
  · exact hx
  · exact hy

theorem bind (hx : OnlyReads x) (hf : ∀ a, OnlyReads (f a)) : OnlyReads (x >>= f) := by
  intro s m
  obtain ⟨hcommands, hmemory⟩ := hx s m
  cases hrun : (x s).run m with
  | mk r m' =>
    rw [hrun] at hmemory
    have hm : m = m' := hmemory.symm
    subst hm
    cases r with
    | none =>
      refine ⟨by rwa [commands_bind_none (by rw [hrun])], ?_⟩
      show (((x s).bind fun r => f r.1 r.2).run m).2 = m
      rw [Prog.run_bind, hrun]
    | some r =>
      obtain ⟨hrest, hrestMemory⟩ := hf r.1 r.2 m
      refine ⟨fun c hc => ?_, ?_⟩
      · rw [commands_bind_some hrun] at hc
        rcases List.mem_append.mp hc with hc | hc
        · exact hcommands c hc
        · exact hrest c hc
      · rw [Flash.run_bind hrun]
        exact hrestMemory

end OnlyReads

/-- What a function that leaves the flash alone is followed by: it returns, and the commands behind
it come from the same flash, or the run ends with it. -/
theorem OnlyReads.commands_bind (hx : OnlyReads x) (s : σ) (m : Memory) :
    ∃ reads : List Command, (∀ c ∈ reads, c.IsRead) ∧
      ((∃ a s', (x s).run m = (some (a, s'), m) ∧
          commands (x >>= f) s m = reads ++ commands (f a) s' m) ∨
        commands (x >>= f) s m = reads) := by
  obtain ⟨hcommands, hmemory⟩ := hx s m
  refine ⟨commands x s m, hcommands, ?_⟩
  cases hrun : (x s).run m with
  | mk r m' =>
    rw [hrun] at hmemory
    have hm : m = m' := hmemory.symm
    subst hm
    cases r with
    | none => exact .inr (commands_bind_none (by rw [hrun]))
    | some r => exact .inl ⟨r.1, r.2, rfl, commands_bind_some hrun⟩

/-- Whatever `x` returns, `P` holds of it. -/
def Finds (x : FlashM ε σ α) (m : Memory) (P : α → Prop) : Prop :=
  ∀ s a s' m', (x s).run m = (some (a, s'), m') → P a

section
variable {P : α → Prop} {Q : β → Prop}

theorem Finds.bind (hx : OnlyReads x) (h : Finds x m P) (hf : ∀ a, P a → Finds (f a) m Q) :
    Finds (x >>= f) m Q := by
  intro s b s' m' hrun
  obtain ⟨-, hmemory⟩ := hx s m
  cases hfirst : (x s).run m with
  | mk r m₁ =>
    rw [hfirst] at hmemory
    have hm : m = m₁ := hmemory.symm
    subst hm
    cases r with
    | none =>
      change ((x s).bind fun r => f r.1 r.2).run m = _ at hrun
      rw [Prog.run_bind, hfirst] at hrun
      cases hrun
    | some r =>
      rw [Flash.run_bind hfirst] at hrun
      exact hf r.1 (h s r.1 r.2 m hfirst) r.2 b s' m' hrun

end

end

end Flash
