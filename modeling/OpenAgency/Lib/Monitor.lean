/-
Lib/Monitor.lean

Protocols read on traces.  If a program follows a protocol, then of every run in which the
answers are those the protocol expects, each operation is one that the protocol allows in
the phase it comes in; and if allowed operations keep a predicate of state and phase, then
the run ends with it, in the phase that its trace leads to.

A program that obeys a protocol follows it from every phase, so it can be put anywhere in
a program that does.
-/
import OpenAgency.Lib.Inputs
import OpenAgency.Lib.Protocol
import OpenAgency.Lib.Trace

namespace Interaction

variable {S : Signature} {L Φ σ ε α : Type} {P : Protocol S L Φ} {l : L} {Q : α → Φ → Prop}
  {E : ε → Φ → Prop} {φ : Φ}

namespace Protocol

/-- The answers are expected, each in the phase it comes in. -/
def Expected (P : Protocol S L Φ) (φ : Φ) : List (Event S) → Prop :=
  EveryInput fun past e => P.answers (past.foldl P.next φ) e.op e.ret

/-- The operations are allowed, each in the phase it comes in. -/
def Obeyed (P : Protocol S L Φ) (l : L) (φ : Φ) : List (Event S) → Prop :=
  EveryInput fun past e => P.allowed l (past.foldl P.next φ) e.op

end Protocol

namespace Program

variable {p : Program S ε α}

/-- **A program that follows a protocol** obeys it in every run with the expected
answers. -/
theorem Follows.obeyed (h : p.Follows P l Q E φ) (H : Handler S σ) (s : σ)
    (hanswers : P.Expected φ (p.trace H s)) : P.Obeyed l φ (p.trace H s) := by
  induction p generalizing φ s with
  | done a => exact everyInput_nil
  | raise e => exact everyInput_nil
  | call o k ih =>
    obtain ⟨ho, hk⟩ := follows_call_iff.mp h
    obtain ⟨hr, hrest⟩ := everyInput_cons.mp hanswers
    exact everyInput_cons.mpr ⟨ho, ih _ (hk _ hr) _ hrest⟩

/-- **What allowed operations keep** holds at the end of a run, in the phase that its trace
leads to. -/
theorem Follows.run_phase {H : Handler S σ} {J : σ → Φ → Prop}
    (hstep : ∀ o s φ, J s φ → P.allowed l φ o →
      P.answers φ o (H o s).1 ∧ J (H o s).2 (P.next φ ⟨o, (H o s).1⟩)) (h : p.Follows P l Q E φ)
    {s : σ} (hs : J s φ) :
    J (p.run H s).2 ((p.trace H s).foldl P.next φ) := by
  induction p generalizing φ s with
  | done a => exact hs
  | raise e => exact hs
  | call o k ih =>
    obtain ⟨ho, hk⟩ := follows_call_iff.mp h
    obtain ⟨hr, hs'⟩ := hstep o s φ hs ho
    exact ih _ (hk _ hr) hs'

/-! ### Programs that follow a protocol from every phase -/

/-- From every phase the program stays within the protocol. -/
def Obeys (P : Protocol S L Φ) (l : L) (p : Program S ε α) : Prop :=
  ∀ φ, p.Follows P l (fun _ _ => True) (fun _ _ => True) φ

namespace Obeys

variable {β : Type} {p : Program S ε α}

theorem bind {f : α → Program S ε β} (hp : p.Obeys P l) (hf : ∀ a, (f a).Obeys P l) :
    (p >>= f).Obeys P l := by
  intro φ
  apply follows_bind
  exact (hp φ).mono (fun a φ' _ => hf a φ') fun _ _ h => h

theorem attempt (hp : p.Obeys P l) : p.attempt.Obeys P l := fun φ => follows_attempt (hp φ)

/-- Operations that are always allowed. -/
theorem of_within (h : p.Within (fun _ _ => True) fun o => ∀ φ, P.allowed l φ o) :
    p.Obeys P l := fun _ =>
  follows_of_within (fun φ _ _ ho => ⟨ho φ, fun _ _ => ⟨trivial, trivial⟩⟩) h trivial

end Obeys

/-- Operations that are always allowed keep what every further operation keeps. -/
theorem follows_of_always {I : Φ → Prop} (hI : ∀ φ e, I φ → I (P.next φ e))
    (h : p.Within (fun _ _ => True) fun o => ∀ φ, P.allowed l φ o) (hφ : I φ) :
    p.Follows P l (fun _ => I) (fun _ => I) φ :=
  follows_of_within (fun φ _ hφ ho => ⟨ho φ, fun _ _ => ⟨trivial, hI φ _ hφ⟩⟩) h hφ

end Program

end Interaction
