/-
Lib/Program.lean

Interaction programs.  A program over a signature `S` either stops with a
value, stops with an error, or names one operation of `S` and continues with
the answer it gets.  It does not say what the operations do: one program can be
run to the end against a store, run for a prefix of its writes, or interleaved
with other programs one operation at a time.

The tree is well founded, so every program stops after finitely many
operations whatever the answers are.  `bind` is sequencing; `attempt` turns an
error into a value, from which `try`/`except` is built; `limit` cuts a program
off after some number of operations; `interp` replaces each operation by a
program over another signature.

`Within ok allowed p` says that `p` only performs operations that `allowed`
admits, as long as every answer it gets is one that `ok` admits; `Returns P p` that
every value `p` can stop with satisfies `P`.
-/
import Mathlib.Data.Nat.Notation
import Mathlib.Logic.Basic

namespace Interaction

/-- The operations a program may perform, and the type of each one's answer. -/
structure Signature where
  Op : Type
  Ret : Op → Type

/-- Programs over `S` that raise errors in `ε` and return values in `α`. -/
inductive Program (S : Signature) (ε α : Type) : Type where
  | done (a : α)
  | raise (e : ε)
  | call (o : S.Op) (k : S.Ret o → Program S ε α)

namespace Program

variable {S T : Signature} {ε α β γ : Type}

/-- Sequencing: run `f` on the value `p` stops with. -/
def bind : Program S ε α → (α → Program S ε β) → Program S ε β
  | done a, f => f a
  | raise e, _ => raise e
  | call o k, f => call o fun r => (k r).bind f

instance : Monad (Program S ε) where
  pure := done
  bind := bind

/-- Perform one operation and return its answer. -/
def perform (o : S.Op) : Program S ε (S.Ret o) := call o done

/-- Raise an error. -/
def throw (e : ε) : Program S ε α := raise e

@[simp] theorem pure_eq_done (a : α) : (pure a : Program S ε α) = done a := rfl

@[simp] theorem throw_eq_raise (e : ε) : (throw e : Program S ε α) = raise e := rfl

@[simp] theorem bind_eq_bind (p : Program S ε α) (f : α → Program S ε β) :
    p.bind f = (p >>= f) := rfl

@[simp] theorem done_bind (a : α) (f : α → Program S ε β) : (done a >>= f) = f a := rfl

@[simp] theorem raise_bind (e : ε) (f : α → Program S ε β) : (raise e >>= f) = raise e := rfl

@[simp] theorem call_bind (o : S.Op) (k : S.Ret o → Program S ε α) (f : α → Program S ε β) :
    (call o k >>= f) = call o fun r => k r >>= f := rfl

@[simp] theorem perform_bind (o : S.Op) (f : S.Ret o → Program S ε β) :
    ((perform o : Program S ε (S.Ret o)) >>= f) = call o f := rfl

theorem bind_done (p : Program S ε α) : (p >>= done) = p := by
  induction p with
  | done a => rfl
  | raise e => rfl
  | call o k ih =>
    rw [call_bind]
    exact congrArg (call o) (funext ih)

theorem bind_assoc (p : Program S ε α) (f : α → Program S ε β) (g : β → Program S ε γ) :
    (p >>= f >>= g) = (p >>= fun a => f a >>= g) := by
  induction p with
  | done a => rfl
  | raise e => rfl
  | call o k ih =>
    rw [call_bind, call_bind, call_bind]
    exact congrArg (call o) (funext ih)

/-- Lift an outcome computed elsewhere into a program. -/
def ofExcept : Except ε α → Program S ε α
  | .ok a => done a
  | .error e => raise e

@[simp] theorem ofExcept_ok (a : α) : (ofExcept (.ok a) : Program S ε α) = done a := rfl

@[simp] theorem ofExcept_error (e : ε) : (ofExcept (.error e) : Program S ε α) = raise e := rfl

/-- Run `p` and return how it stopped, error or not. -/
def attempt : Program S ε α → Program S ε (Except ε α)
  | done a => done (.ok a)
  | raise e => done (.error e)
  | call o k => call o fun r => (k r).attempt

@[simp] theorem attempt_call (o : S.Op) (k : S.Ret o → Program S ε α) :
    (call o k).attempt = call o fun r => (k r).attempt := rfl

/-- `try p except e => h e`. -/
def rescue (p : Program S ε α) (h : ε → Program S ε α) : Program S ε α := do
  match ← p.attempt with
  | .ok a => done a
  | .error e => h e

/-- Run `f` on one element after the other and join the lists it returns. -/
def collect (f : α → Program S ε (List β)) : List α → Program S ε (List β)
  | [] => done []
  | a :: as => do
    let bs ← f a
    let rest ← collect f as
    done (bs ++ rest)

/-- Run `p` for at most `n` operations: how it stopped and how many operations it
left, or nothing if it was cut off.  Without a bound it is never cut off. -/
def limit : Option ℕ → Program S ε α → Program S ε (Option (Except ε α × Option ℕ))
  | n, done a => done (some (.ok a, n))
  | n, raise e => done (some (.error e, n))
  | some 0, call _ _ => done none
  | some (n + 1), call o k => call o fun r => (k r).limit (some n)
  | none, call o k => call o fun r => (k r).limit none

/-- Replace every operation by a program over another signature. -/
def interp (h : (o : S.Op) → Program T ε (S.Ret o)) : Program S ε α → Program T ε α
  | done a => done a
  | raise e => raise e
  | call o k => h o >>= fun r => (k r).interp h

@[simp] theorem interp_call (h : (o : S.Op) → Program T ε (S.Ret o)) (o : S.Op)
    (k : S.Ret o → Program S ε α) :
    (call o k).interp h = h o >>= fun r => (k r).interp h := rfl

theorem interp_bind (h : (o : S.Op) → Program T ε (S.Ret o)) (p : Program S ε α)
    (f : α → Program S ε β) : (p >>= f).interp h = p.interp h >>= fun a => (f a).interp h := by
  induction p with
  | done a => rfl
  | raise e => rfl
  | call o k ih =>
    rw [call_bind, interp_call, interp_call, bind_assoc]
    exact congrArg (h o >>= ·) (funext ih)

/-! ### Programs that never raise -/

theorem attempt_bind (p : Program S ε α) (f : α → Program S ε β) :
    (p >>= f).attempt = p.attempt >>= fun
      | .ok a => (f a).attempt
      | .error e => done (.error e) := by
  induction p with
  | done a => rfl
  | raise e => rfl
  | call o k ih =>
    rw [call_bind, attempt_call, attempt_call, call_bind]
    exact congrArg (call o) (funext ih)

/-- However the program stops, it does not raise. -/
def NeverRaises (p : Program S ε α) : Prop := p.attempt = p >>= fun a => done (.ok a)

theorem neverRaises_perform (o : S.Op) : (perform o : Program S ε (S.Ret o)).NeverRaises := rfl

theorem neverRaises_limit (p : Program S ε α) (n : Option ℕ) : (p.limit n).NeverRaises := by
  unfold NeverRaises
  induction p generalizing n with
  | done a => cases n <;> rfl
  | raise e => cases n <;> rfl
  | call o k ih =>
    rcases n with - | (- | n)
    · exact congrArg (call o) (funext fun r => ih r none)
    · rfl
    · exact congrArg (call o) (funext fun r => ih r (some n))

variable {h : (o : S.Op) → Program T ε (S.Ret o)}

/-- Where the replacements never raise, an error comes from the program itself. -/
theorem interp_attempt (hh : ∀ o, (h o).NeverRaises) (p : Program S ε α) :
    p.attempt.interp h = (p.interp h).attempt := by
  induction p with
  | done a => rfl
  | raise e => rfl
  | call o k ih =>
    rw [attempt_call, interp_call, interp_call, attempt_bind, hh o, bind_assoc]
    exact congrArg (h o >>= ·) (funext ih)

theorem interp_rescue (hh : ∀ o, (h o).NeverRaises) (p : Program S ε α) (f : ε → Program S ε α) :
    (p.rescue f).interp h = (p.interp h).rescue fun e => (f e).interp h := by
  rw [rescue, rescue, interp_bind, interp_attempt hh]
  congr 1
  funext r
  rcases r with e | a <;> rfl

/-! ### Operations a program can perform -/

/-- Every operation `p` can reach through answers that `ok` admits satisfies
`allowed`. -/
def Within (ok : (o : S.Op) → S.Ret o → Prop) (allowed : S.Op → Prop) :
    Program S ε α → Prop
  | done _ => True
  | raise _ => True
  | call o k => allowed o ∧ ∀ r, ok o r → (k r).Within ok allowed

variable {ok : (o : S.Op) → S.Ret o → Prop} {allowed : S.Op → Prop}

theorem within_ofExcept (r : Except ε α) : (ofExcept r : Program S ε α).Within ok allowed := by
  cases r <;> trivial

theorem Within.bind {p : Program S ε α} {f : α → Program S ε β}
    (hp : p.Within ok allowed) (hf : ∀ a, (f a).Within ok allowed) :
    (p >>= f).Within ok allowed := by
  induction p with
  | done a => exact hf a
  | raise e => trivial
  | call o k ih => exact ⟨hp.1, fun r hr => ih r (hp.2 r hr)⟩

/-! ### Values a program can stop with -/

/-- Whatever the answers are, a value that `p` stops with satisfies `P`. -/
def Returns (P : α → Prop) : Program S ε α → Prop
  | done a => P a
  | raise _ => True
  | call _ k => ∀ r, (k r).Returns P

theorem Returns.bind {P : β → Prop} {p : Program S ε α} {f : α → Program S ε β}
    (hf : ∀ a, (f a).Returns P) : (p >>= f).Returns P := by
  induction p with
  | done a => exact hf a
  | raise e => trivial
  | call o k ih => exact ih

end Program

end Interaction
