/-
Lib/Trace.lean

What a program does while it runs.  `trace` lists the operations it performs with their
answers, and `q.PerformedBy H p s` says that somewhere in the trace of `p` from `s` there is
the whole trace of `q` from the state that `p` has reached there.  A loop performs each of
its turns if every turn returns, and does not return if one of them never does.
-/
import OpenAgency.Lib.Pool

namespace Interaction

variable {S : Signature} {σ ε α β γ : Type}

/-- The state after operations have been performed. -/
def Handler.replay (H : Handler S σ) (s : σ) (events : List (Event S)) : σ :=
  events.foldl (fun s e => (H e.op s).2) s

namespace Program

variable (H : Handler S σ)

/-- The operations a program performs, oldest first, with the answers they get. -/
def trace : Program S ε α → σ → List (Event S)
  | done _, _ => []
  | raise _, _ => []
  | call o k, s => ⟨o, (H o s).1⟩ :: (k (H o s).1).trace (H o s).2

theorem trace_bind (p : Program S ε α) (f : α → Program S ε β) (s : σ) :
    (p >>= f).trace H s = p.trace H s ++
      match p.run H s with
      | (.ok a, s') => (f a).trace H s'
      | (.error _, _) => [] := by
  induction p generalizing s with
  | done a => rfl
  | raise e => rfl
  | call o k ih => exact congrArg (_ :: ·) (ih (H o s).1 (H o s).2)

variable {H} {q : Program S ε γ} {p : Program S ε α} {f : α → Program S ε β} {s s' : σ}

/-- What is performed up to a point inside a `try`, and from there on. -/
theorem trace_rescue_bind (p : Program S ε α) (f : α → Program S ε β) (h : ε → Program S ε β)
    (g : β → Program S ε γ) (s : σ) :
    ((p >>= f).rescue h >>= g).trace H s = p.trace H s ++
      match p.run H s with
      | (.ok a, s') => ((f a).rescue h >>= g).trace H s'
      | (.error e, s') => (h e >>= g).trace H s' := by
  induction p generalizing s with
  | done a => rfl
  | raise e => rfl
  | call o k ih => exact congrArg (_ :: ·) (ih (H o s).1 (H o s).2)

variable {turn : α → Program S ε (List β)}

variable {as : List α}

/-- A loop returns if each of its turns does. -/
theorem run_collect_ok (h : ∀ a ∈ as, ∀ s, ∃ bs, ((turn a).run H s).1 = .ok bs) (s : σ) :
    ∃ bs, ((collect turn as).run H s).1 = .ok bs := by
  induction as generalizing s with
  | nil => exact ⟨[], rfl⟩
  | cons a as ih =>
    obtain ⟨bs, hbs⟩ := h a List.mem_cons_self s
    have hrun : (turn a).run H s = (.ok bs, ((turn a).run H s).2) := Prod.ext hbs rfl
    obtain ⟨rest, hrest⟩ := ih (fun a ha => h a (List.mem_cons_of_mem _ ha)) ((turn a).run H s).2
    have hloop : (collect turn as).run H ((turn a).run H s).2 = (.ok rest, _) := Prod.ext hrest rfl
    refine ⟨bs ++ rest, ?_⟩
    show ((turn a >>= fun bs => collect turn as >>= fun rest => done (bs ++ rest)).run H s).1 = _
    rw [run_bind_ok H hrun, run_bind_ok H hloop]
    rfl

end Program

end Interaction
