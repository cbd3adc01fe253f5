/-
Lib/Sum.lean

Two signatures side by side.  A program over `S` is also a program over `S.sum T`
that performs no operation of `T`; run on a pair of states, it computes what it
computed before on the left state and leaves the right state untouched:

    (inl p).run (H.sum G) (s, t) = the run of p from s, with t beside it

and the same holds of its weakest preconditions.
-/
import OpenAgency.Lib.Answers

namespace Interaction

variable {S T : Signature} {σ τ ε α β : Type}

/-- The operations of both signatures. -/
abbrev Signature.sum (S T : Signature) : Signature := ⟨S.Op ⊕ T.Op, Sum.elim S.Ret T.Ret⟩

/-- Each signature's operations act on their own half of the state. -/
def Handler.sum (H : Handler S σ) (G : Handler T τ) : Handler (S.sum T) (σ × τ)
  | .inl o, s => ((H o s.1).1, (H o s.1).2, s.2)
  | .inr o, s => ((G o s.2).1, s.1, (G o s.2).2)

namespace Program

/-- A program over the left signature. -/
def inl (p : Program S ε α) : Program (S.sum T) ε α :=
  p.interp fun o => perform (S := S.sum T) (.inl o)

/-- One operation of the right signature. -/
def performRight (o : T.Op) : Program (S.sum T) ε (T.Ret o) :=
  perform (S := S.sum T) (.inr o)

@[simp] theorem inl_done (a : α) : (inl (done a) : Program (S.sum T) ε α) = done a := rfl

@[simp] theorem inl_raise (e : ε) : (inl (raise e) : Program (S.sum T) ε α) = raise e := rfl

theorem inl_call (o : S.Op) (k : S.Ret o → Program S ε α) :
    (inl (call o k) : Program (S.sum T) ε α) = call (S := S.sum T) (.inl o) fun r => inl (k r) :=
  rfl

theorem inl_bind (p : Program S ε α) (f : α → Program S ε β) :
    (inl (p >>= f) : Program (S.sum T) ε β) = inl p >>= fun a => inl (f a) :=
  interp_bind _ p f

variable {ok : (o : (S.sum T).Op) → (S.sum T).Ret o → Prop}

variable {allowed : (S.sum T).Op → Prop}

/-- What the left signature admits of a program, both admit of its image. -/
theorem Within.inl {p : Program S ε α}
    (h : p.Within (fun o r => ok (.inl o) r) fun o => allowed (.inl o)) :
    (Program.inl p : Program (S.sum T) ε α).Within ok allowed := by
  induction p with
  | done a => trivial
  | raise e => trivial
  | call o k ih => exact ⟨h.1, fun r hr => ih r (h.2 r hr)⟩

theorem Ensures.inl {Q : α → Prop} {p : Program S ε α}
    (h : p.Ensures (fun o r => ok (.inl o) r) (fun o => allowed (.inl o)) Q) :
    (Program.inl p : Program (S.sum T) ε α).Ensures ok allowed Q := by
  induction p with
  | done a => exact h
  | raise e => trivial
  | call o k ih => exact ⟨h.1, fun r hr => ih r (h.2 r hr)⟩

variable {H : Handler S σ} {G : Handler T τ}

/-- **The right state is frozen** along a run of the left signature. -/
theorem run_inl (p : Program S ε α) (s : σ × τ) :
    (inl p).run (H.sum G) s = ((p.run H s.1).1, (p.run H s.1).2, s.2) := by
  induction p generalizing s with
  | done a => rfl
  | raise e => rfl
  | call o k ih => exact ih (H o s.1).1 ((H o s.1).2, s.2)

variable {E : ε → σ × τ → Prop}

theorem wp_inl (p : Program S ε α) {Q : α → σ × τ → Prop} (s : σ × τ) :
    (inl p).wp (H.sum G) Q E s ↔
      p.wp H (fun a w => Q a (w, s.2)) (fun e w => E e (w, s.2)) s.1 := by
  induction p generalizing s with
  | done a => rw [inl_done, wp_done, wp_done]
  | raise e => rw [inl_raise, wp_raise, wp_raise]
  | call o k ih =>
    rw [inl_call, wp_call, wp_call]
    exact ih (H o s.1).1 ((H o s.1).2, s.2)

/-- What its operations do is what they did on the left state. -/
theorem everyOp_inl {P : (S.sum T).Op → σ × τ → Prop} (p : Program S ε α) (s : σ × τ) :
    (inl p).EveryOp (H.sum G) P s ↔ p.EveryOp H (fun o w => P (.inl o) (w, s.2)) s.1 := by
  induction p generalizing s with
  | done a => exact Iff.rfl
  | raise e => exact Iff.rfl
  | call o k ih => exact and_congr_right fun _ => ih (H o s.1).1 ((H o s.1).2, s.2)

variable {Q : β → σ × τ → Prop}

/-- A program of the left signature in front of any other. -/
theorem wp_inl_bind (p : Program S ε α) (f : α → Program (S.sum T) ε β) (s : σ × τ) :
    (inl p >>= f).wp (H.sum G) Q E s ↔
      p.wp H (fun a w => (f a).wp (H.sum G) Q E (w, s.2)) (fun e w => E e (w, s.2)) s.1 := by
  rw [wp_bind, wp_inl]

theorem wp_performRight_bind (o : T.Op) (f : T.Ret o → Program (S.sum T) ε β) (s : σ × τ) :
    ((performRight o : Program (S.sum T) ε (T.Ret o)) >>= f).wp (H.sum G) Q E s ↔
      (f (G o s.2).1).wp (H.sum G) Q E (s.1, (G o s.2).2) := wp_call _ _ _

end Program

end Interaction
