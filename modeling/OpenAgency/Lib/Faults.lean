/-
Lib/Faults.lean

Operations that may fail.  Over `S.fallible ε` an operation answers either what it
answers over `S` or an error in `ε`, so a program sees a failure as an error it can
catch.  `fallibly p` is the program `p` in a world where operations fail: the first
failing operation makes it raise.

Two handlers give fallible operations their meaning.  Under `Handler.reliable` no
operation fails, and `fallibly p` runs as `p` does.  Under `Handler.faulty` the `n`-th
operation performed fails as a schedule of faults says, either before it has had any
effect or after it had its whole effect; `faulty_cases` is everything it can do.
-/
import OpenAgency.Lib.Answers

namespace Interaction

variable {S : Signature} {σ ε α β : Type}

/-- The operations of `S`, each of which may answer an error. -/
abbrev Signature.fallible (S : Signature) (ε : Type) : Signature :=
  ⟨S.Op, fun o => Except ε (S.Ret o)⟩

/-- What goes wrong with an operation: nothing, or it fails without its effect or
after it. -/
inductive Fault (ε : Type) where
  | none
  | before (e : ε)
  | after (e : ε)
  deriving DecidableEq

namespace Handler

/-- No operation fails. -/
def reliable (H : Handler S σ) : Handler (S.fallible ε) σ := fun o s => (.ok (H o s).1, (H o s).2)

/-- The `n`-th operation fails as `faults n` says. -/
def faulty (H : Handler S σ) (faults : ℕ → Fault ε) : Handler (S.fallible ε) (σ × ℕ) :=
  fun o s =>
    match faults s.2 with
    | .none => (.ok (H o s.1).1, (H o s.1).2, s.2 + 1)
    | .before e => (.error e, s.1, s.2 + 1)
    | .after e => (.error e, (H o s.1).2, s.2 + 1)

/-- Everything an operation that may fail can do. -/
theorem faulty_cases (H : Handler S σ) (faults : ℕ → Fault ε) (o : S.Op) (s : σ × ℕ) :
    ((faulty H faults o s).1 = .ok (H o s.1).1 ∧ (faulty H faults o s).2.1 = (H o s.1).2) ∨
    (∃ e, (faulty H faults o s).1 = .error e ∧ (faulty H faults o s).2.1 = s.1) ∨
    ∃ e, (faulty H faults o s).1 = .error e ∧ (faulty H faults o s).2.1 = (H o s.1).2 := by
  unfold faulty
  rcases faults s.2 with - | e | e
  · exact .inl ⟨rfl, rfl⟩
  · exact .inr (.inl ⟨e, rfl, rfl⟩)
  · exact .inr (.inr ⟨e, rfl, rfl⟩)

end Handler

namespace Program

/-- Continue with an answer, raise a failure. -/
def orRaise {ρ : Type} (k : ρ → Program S ε α) : Except ε ρ → Program S ε α
  | .ok r => k r
  | .error e => raise e

@[simp] theorem orRaise_ok {ρ : Type} (k : ρ → Program S ε α) (r : ρ) : orRaise k (.ok r) = k r :=
  rfl

@[simp] theorem orRaise_error {ρ : Type} (k : ρ → Program S ε α) (e : ε) :
    orRaise k (.error e) = raise e := rfl

/-- The same program where operations may fail: a failure is raised. -/
def fallibly : Program S ε α → Program (S.fallible ε) ε α
  | done a => done a
  | raise e => raise e
  | call o k => call (S := S.fallible ε) o (orRaise fun r => (k r).fallibly)

@[simp] theorem fallibly_done (a : α) : (done a : Program S ε α).fallibly = done a := rfl

theorem fallibly_call (o : S.Op) (k : S.Ret o → Program S ε α) :
    (call o k).fallibly = call (S := S.fallible ε) o (orRaise fun r => (k r).fallibly) := rfl

theorem fallibly_bind (p : Program S ε α) (f : α → Program S ε β) :
    (p >>= f).fallibly = p.fallibly >>= fun a => (f a).fallibly := by
  induction p with
  | done a => rfl
  | raise e => rfl
  | call o k ih =>
    rw [call_bind, fallibly_call, fallibly_call, call_bind]
    refine congrArg (call (S := S.fallible ε) o) (funext fun r => ?_)
    rcases r with e | r
    · rfl
    · exact ih r

variable {H : Handler S σ}

/-- Without failures nothing changes. -/
theorem run_fallibly (p : Program S ε α) (s : σ) : p.fallibly.run H.reliable s = p.run H s := by
  induction p generalizing s with
  | done a => rfl
  | raise e => rfl
  | call o k ih => exact ih (H o s).1 (H o s).2

/-- One operation that may fail, before or after its effect. -/
theorem wp_fallibly_perform {faults : ℕ → Fault ε} {o : S.Op} {Q : S.Ret o → σ × ℕ → Prop}
    {E : ε → σ × ℕ → Prop} {s : σ × ℕ} (hok : Q (H o s.1).1 ((H o s.1).2, s.2 + 1))
    (hbefore : ∀ e, E e (s.1, s.2 + 1)) (hafter : ∀ e, E e ((H o s.1).2, s.2 + 1)) :
    (perform o : Program S ε (S.Ret o)).fallibly.wp (H.faulty faults) Q E s := by
  rw [perform, fallibly_call, wp_call]
  have hcases : (H.faulty faults o s = (.ok (H o s.1).1, (H o s.1).2, s.2 + 1)) ∨
      (∃ e, H.faulty faults o s = (.error e, s.1, s.2 + 1)) ∨
      ∃ e, H.faulty faults o s = (.error e, (H o s.1).2, s.2 + 1) := by
    unfold Handler.faulty
    rcases faults s.2 with - | e | e
    · exact .inl rfl
    · exact .inr (.inl ⟨e, rfl⟩)
    · exact .inr (.inr ⟨e, rfl⟩)
  rcases hcases with heq | ⟨e, heq⟩ | ⟨e, heq⟩
  · rw [heq, orRaise_ok, fallibly_done, wp_done]
    exact hok
  · rw [heq, orRaise_error, wp_raise]
    exact hbefore e
  · rw [heq, orRaise_error, wp_raise]
    exact hafter e

end Program

end Interaction
