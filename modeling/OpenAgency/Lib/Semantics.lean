/-
Lib/Semantics.lean

Running one interaction program alone.  A handler says what each operation
answers in a state and which state it leaves; `run` performs the operations of
a program in order.  `EveryOp` collects what holds of each operation as it is
performed, which is how a condition on the steps of a run is stated, and
`run_invariant` is the induction that every proof about all runs uses.
-/
import OpenAgency.Lib.Program

namespace Interaction

/-- What each operation answers in a state, and the state it leaves. -/
abbrev Handler (S : Signature) (σ : Type) := (o : S.Op) → σ → S.Ret o × σ

namespace Program

variable {S T : Signature} {σ ε α β : Type} (H : Handler S σ)

/-- Perform `p` to the end. -/
def run : Program S ε α → σ → Except ε α × σ
  | done a, s => (.ok a, s)
  | raise e, s => (.error e, s)
  | call o k, s => (k (H o s).1).run (H o s).2

@[simp] theorem run_done (a : α) (s : σ) :
    (done a : Program S ε α).run H s = (.ok a, s) := rfl

@[simp] theorem run_raise (e : ε) (s : σ) :
    (raise e : Program S ε α).run H s = (.error e, s) := rfl

@[simp] theorem run_call (o : S.Op) (k : S.Ret o → Program S ε α) (s : σ) :
    (call o k).run H s = (k (H o s).1).run H (H o s).2 := rfl

theorem run_bind (p : Program S ε α) (f : α → Program S ε β) (s : σ) :
    (p >>= f).run H s =
      match p.run H s with
      | (.ok a, s') => (f a).run H s'
      | (.error e, s') => (.error e, s') := by
  induction p generalizing s with
  | done a => rfl
  | raise e => rfl
  | call o k ih => exact ih (H o s).1 (H o s).2

variable {p : Program S ε α} {f : α → Program S ε β}

theorem run_bind_ok {s s' : σ} {a : α} (h : p.run H s = (.ok a, s')) :
    (p >>= f).run H s = (f a).run H s' := by
  rw [run_bind, h]

theorem run_bind_error {s s' : σ} {e : ε} (h : p.run H s = (.error e, s')) :
    (p >>= f).run H s = (.error e, s') := by
  rw [run_bind, h]

theorem run_attempt (p : Program S ε α) (s : σ) :
    p.attempt.run H s = (.ok (p.run H s).1, (p.run H s).2) := by
  induction p generalizing s with
  | done a => rfl
  | raise e => rfl
  | call o k ih => exact ih (H o s).1 (H o s).2

/-! ### Conditions on the operations of a run -/

/-- `P` holds of every operation `p` performs from `s`, in the state before it. -/
def EveryOp (P : S.Op → σ → Prop) : Program S ε α → σ → Prop
  | done _, _ => True
  | raise _, _ => True
  | call o k, s => P o s ∧ (k (H o s).1).EveryOp P (H o s).2

variable {P : S.Op → σ → Prop}

variable {s : σ}

theorem everyOp_bind (hp : p.EveryOp H P s)
    (hf : ∀ a s', p.run H s = (.ok a, s') → (f a).EveryOp H P s') :
    (p >>= f).EveryOp H P s := by
  induction p generalizing s with
  | done a => exact hf a s rfl
  | raise e => trivial
  | call o k ih => exact ⟨hp.1, ih (H o s).1 hp.2 hf⟩

theorem everyOp_mono {P P' : S.Op → σ → Prop} (h : ∀ o s, P o s → P' o s) (hp : p.EveryOp H P s) :
    p.EveryOp H P' s := by
  induction p generalizing s with
  | done a => trivial
  | raise e => trivial
  | call o k ih => exact ⟨h o s hp.1, ih _ hp.2⟩

theorem everyOp_bind_iff : (p >>= f).EveryOp H P s ↔
      p.EveryOp H P s ∧ ∀ a s', p.run H s = (.ok a, s') → (f a).EveryOp H P s' := by
  refine ⟨fun h => ?_, fun h => everyOp_bind H h.1 h.2⟩
  induction p generalizing s with
  | done a =>
    refine ⟨trivial, fun b s' hrun => ?_⟩
    cases hrun
    exact h
  | raise e => exact ⟨trivial, fun _ _ hrun => by cases hrun⟩
  | call o k ih =>
    obtain ⟨hhead, hrest⟩ := ih _ h.2
    exact ⟨⟨h.1, hhead⟩, hrest⟩

theorem everyOp_attempt : p.attempt.EveryOp H P s ↔ p.EveryOp H P s := by
  induction p generalizing s with
  | done a => exact Iff.rfl
  | raise e => exact Iff.rfl
  | call o k ih => exact and_congr_right fun _ => ih _

/-- Operations that a program can reach at all. -/
theorem everyOp_of_within {allowed : S.Op → Prop} (hP : ∀ o, allowed o → ∀ s, P o s)
    (hp : p.Within (fun _ _ => True) allowed) (s : σ) : p.EveryOp H P s := by
  induction p generalizing s with
  | done a => trivial
  | raise e => trivial
  | call o k ih => exact ⟨hP o hp.1 s, ih _ (hp.2 _ trivial) _⟩

/-- After such a program only what follows it matters. -/
theorem everyOp_bind_of_within {allowed : S.Op → Prop} (hP : ∀ o, allowed o → ∀ s, P o s)
    (hp : p.Within (fun _ _ => True) allowed) : (p >>= f).EveryOp H P s ↔
      ∀ a s', p.run H s = (.ok a, s') → (f a).EveryOp H P s' := by
  rw [everyOp_bind_iff, and_iff_right (everyOp_of_within H hP hp s)]

/-- The invariant rule: what every operation keeps, provided its condition
holds, every run keeps, provided every operation met its condition. -/
theorem run_invariant {I : σ → Prop} (hstep : ∀ o s, I s → P o s → I (H o s).2) (hs : I s)
    (hp : p.EveryOp H P s) : I (p.run H s).2 := by
  induction p generalizing s with
  | done a => exact hs
  | raise e => exact hs
  | call o k ih => exact ih (H o s).1 (hstep o s hs hp.1) hp.2

end Program

end Interaction
