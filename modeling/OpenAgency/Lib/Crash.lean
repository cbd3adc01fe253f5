/-
Lib/Crash.lean

Programs that are stopped.  A program whose writes are the operations of a given
kind is stopped after `n` of them: it performs its operations up to the point where
it would start its `(n + 1)`-th write, and never continues.

`wpc` is the weakest precondition that also covers the stops.  `C n s` must hold
whenever the program has `n` writes behind it and is about to perform another, `Q`
and `E` of how it ends and of the number of writes it made.  Its rules are those of
`wp` with one more premise for each write, and `wpc_stopped` reads it back as a fact
about every stop.
-/
import OpenAgency.Lib.Wp

namespace Interaction

namespace Program

variable {S : Signature} {σ ε α β : Type} (H : Handler S σ) (isWrite : S.Op → Bool)

/-- The state left when `p` stops just before its `(n + 1)`-th write. -/
def stopAfter : ℕ → Program S ε α → σ → σ
  | _, done _, s => s
  | _, raise _, s => s
  | n, call o k, s =>
    if isWrite o then
      match n with
      | 0 => s
      | n + 1 => stopAfter n (k (H o s).1) (H o s).2
    else stopAfter n (k (H o s).1) (H o s).2

/-- How `p` ended, if it did so before its `(n + 1)`-th write. -/
def endedWithin : ℕ → Program S ε α → σ → Option (Except ε α)
  | _, done a, _ => some (.ok a)
  | _, raise e, _ => some (.error e)
  | n, call o k, s =>
    if isWrite o then
      match n with
      | 0 => none
      | n + 1 => endedWithin n (k (H o s).1) (H o s).2
    else endedWithin n (k (H o s).1) (H o s).2

/-- With `n` writes behind it the program is always stopped in `C`, and ends in `Q`
or `E`. -/
def wpc (C : ℕ → σ → Prop) (Q : α → ℕ → σ → Prop) (E : ε → ℕ → σ → Prop) :
    Program S ε α → ℕ → σ → Prop
  | done a, n, s => Q a n s
  | raise e, n, s => E e n s
  | call o k, n, s =>
    if isWrite o then C n s ∧ wpc C Q E (k (H o s).1) (n + 1) (H o s).2
    else wpc C Q E (k (H o s).1) n (H o s).2

/-- The program writes nothing. -/
abbrev Reads (p : Program S ε α) : Prop := p.Within (fun _ _ => True) fun o => isWrite o = false

variable {H} {isWrite}

/-- What every operation keeps holds wherever the program is stopped. -/
theorem stopAfter_invariant {I : σ → Prop} (hstep : ∀ o s, I s → I (H o s).2) (n : ℕ)
    (p : Program S ε α) {s : σ} (hs : I s) : I (p.stopAfter H isWrite n s) := by
  induction p generalizing n s with
  | done a => cases n <;> exact hs
  | raise e => cases n <;> exact hs
  | call o k ih =>
    rcases hw : isWrite o with - | -
    · cases n with
      | zero =>
        simp only [stopAfter, hw]
        exact ih _ _ (hstep o s hs)
      | succ n =>
        simp only [stopAfter, hw]
        exact ih _ _ (hstep o s hs)
    · cases n with
      | zero =>
        simp only [stopAfter, hw]
        exact hs
      | succ n =>
        simp only [stopAfter, hw]
        exact ih _ _ (hstep o s hs)

variable {C : ℕ → σ → Prop} {Q : α → ℕ → σ → Prop} {E : ε → ℕ → σ → Prop} {n : ℕ} {s : σ}

/-! ### Rules -/

theorem wpc_of_done {a : α} (h : Q a n s) : (done a : Program S ε α).wpc H isWrite C Q E n s := h

theorem wpc_of_raise {e : ε} (h : E e n s) : (raise e : Program S ε α).wpc H isWrite C Q E n s := h

theorem wpc_read {o : S.Op} (ho : isWrite o = false) (k : S.Ret o → Program S ε α) :
    (call o k).wpc H isWrite C Q E n s ↔ (k (H o s).1).wpc H isWrite C Q E n (H o s).2 := by
  simp [wpc, ho]

theorem wpc_write {o : S.Op} (ho : isWrite o = true) (k : S.Ret o → Program S ε α) :
    (call o k).wpc H isWrite C Q E n s ↔
      C n s ∧ (k (H o s).1).wpc H isWrite C Q E (n + 1) (H o s).2 := by
  simp [wpc, ho]

theorem wpc_bind (p : Program S ε α) (f : α → Program S ε β) {Q : β → ℕ → σ → Prop} :
    (p >>= f).wpc H isWrite C Q E n s ↔
      p.wpc H isWrite C (fun a m s' => (f a).wpc H isWrite C Q E m s') E n s := by
  induction p generalizing n s with
  | done a => exact Iff.rfl
  | raise e => exact Iff.rfl
  | call o k ih =>
    rcases hw : isWrite o with - | -
    · rw [call_bind, wpc_read hw, wpc_read hw]
      exact ih _
    · rw [call_bind, wpc_write hw, wpc_write hw]
      exact and_congr_right fun _ => ih _

theorem wpc_attempt (p : Program S ε α) {Q : Except ε α → ℕ → σ → Prop} :
    p.attempt.wpc H isWrite C Q E n s ↔
      p.wpc H isWrite C (fun a => Q (.ok a)) (fun e => Q (.error e)) n s := by
  induction p generalizing n s with
  | done a => exact Iff.rfl
  | raise e => exact Iff.rfl
  | call o k ih =>
    rcases hw : isWrite o with - | -
    · rw [attempt_call, wpc_read hw, wpc_read hw]
      exact ih _
    · rw [attempt_call, wpc_write hw, wpc_write hw]
      exact and_congr_right fun _ => ih _

theorem wpc_ite (c : Prop) [Decidable c] (p q : Program S ε α) :
    (if c then p else q).wpc H isWrite C Q E n s ↔
      if c then p.wpc H isWrite C Q E n s else q.wpc H isWrite C Q E n s := by
  split <;> rfl

variable {p : Program S ε α}

/-- The rule of consequence. -/
theorem wpc_mono {C' : ℕ → σ → Prop} {Q' : α → ℕ → σ → Prop} {E' : ε → ℕ → σ → Prop}
    (h : p.wpc H isWrite C Q E n s) (hC : ∀ m s', C m s' → C' m s')
    (hQ : ∀ a m s', Q a m s' → Q' a m s') (hE : ∀ e m s', E e m s' → E' e m s') :
    p.wpc H isWrite C' Q' E' n s := by
  induction p generalizing n s with
  | done a => exact hQ a n s h
  | raise e => exact hE e n s h
  | call o k ih =>
    rcases hw : isWrite o with - | -
    · rw [wpc_read hw] at h ⊢
      exact ih _ h
    · rw [wpc_write hw] at h ⊢
      exact ⟨hC n s h.1, ih _ h.2⟩

/-! ### What it says -/

/-- A program without writes is never stopped. -/
theorem wpc_of_reads (h : p.Reads isWrite) (hp : p.wp H (fun a => Q a n) (fun e => E e n) s) :
    p.wpc H isWrite C Q E n s := by
  induction p generalizing s with
  | done a => exact wpc_of_done ((wp_done a s).mp hp)
  | raise e => exact wpc_of_raise ((wp_raise e s).mp hp)
  | call o k ih =>
    rw [wpc_read h.1]
    exact ih _ (h.2 _ trivial) ((wp_call o k s).mp hp)

/-- Without its stops, `wpc` is `wp`. -/
theorem wp_of_wpc (h : p.wpc H isWrite C Q E n s) :
    p.wp H (fun a s' => ∃ m, Q a m s') (fun e s' => ∃ m, E e m s') s := by
  induction p generalizing n s with
  | done a => exact wp_of_done ⟨n, h⟩
  | raise e => exact wp_of_raise ⟨n, h⟩
  | call o k ih =>
    rw [wp_call]
    rcases hw : isWrite o with - | -
    · exact ih _ ((wpc_read hw k).mp h)
    · exact ih _ ((wpc_write hw k).mp h).2

/-- The program ends in `Q` or `E`. -/
theorem run_of_wpc (h : p.wpc H isWrite C Q E n s) :
    (∃ a s' m, p.run H s = (.ok a, s') ∧ Q a m s') ∨
      ∃ e s' m, p.run H s = (.error e, s') ∧ E e m s' := by
  obtain ⟨hok, herror⟩ := (wp_iff_run _ _).mp (wp_of_wpc h)
  rcases hr : p.run H s with ⟨e | a, s'⟩
  · obtain ⟨m, hm⟩ := herror e s' hr
    exact .inr ⟨e, s', m, rfl, hm⟩
  · obtain ⟨m, hm⟩ := hok a s' hr
    exact .inl ⟨a, s', m, rfl, hm⟩

/-- Where neither the stops nor the number of writes matter, `wp` is enough. -/
theorem wpc_of_wp {Q : α → σ → Prop} {E : ε → σ → Prop} (h : p.wp H Q E s) :
    p.wpc H isWrite (fun _ _ => True) (fun a _ => Q a) (fun e _ => E e) n s := by
  induction p generalizing n s with
  | done a => exact wpc_of_done ((wp_done a s).mp h)
  | raise e => exact wpc_of_raise ((wp_raise e s).mp h)
  | call o k ih =>
    rw [wp_call] at h
    rcases hw : isWrite o with - | -
    · exact (wpc_read hw k).mpr (ih _ h)
    · exact (wpc_write hw k).mpr ⟨trivial, ih _ h⟩

/-- Where neither the stops nor the number of writes matter, a rule for `wpc` is one for
`wp`. -/
theorem wp_of_wpc_true {Q : α → σ → Prop} {E : ε → σ → Prop}
    (h : p.wpc H isWrite (fun _ _ => True) (fun a _ => Q a) (fun e _ => E e) 0 s) :
    p.wp H Q E s :=
  wp_mono (wp_of_wpc h) (fun _ _ ⟨_, h⟩ => h) (fun _ _ ⟨_, h⟩ => h)

/-- Stopped after `k` more writes, the program is in `C`, or has ended in `Q` or `E`
with at most as many writes. -/
theorem wpc_stopped (h : p.wpc H isWrite C Q E n s) (k : ℕ) :
    (p.endedWithin H isWrite k s = none ∧ C (n + k) (p.stopAfter H isWrite k s)) ∨
    ∃ m ≤ n + k,
      (∃ a, p.endedWithin H isWrite k s = some (.ok a) ∧ Q a m (p.stopAfter H isWrite k s)) ∨
      ∃ e, p.endedWithin H isWrite k s = some (.error e) ∧ E e m (p.stopAfter H isWrite k s) := by
  induction p generalizing n s k with
  | done a => cases k <;> exact .inr ⟨n, by omega, .inl ⟨a, rfl, h⟩⟩
  | raise e => cases k <;> exact .inr ⟨n, by omega, .inr ⟨e, rfl, h⟩⟩
  | call o f ih =>
    rcases hw : isWrite o with - | -
    · rw [wpc_read hw] at h
      cases k with
      | zero =>
        simp only [stopAfter, endedWithin, hw]
        exact ih _ h 0
      | succ k =>
        simp only [stopAfter, endedWithin, hw]
        exact ih _ h (k + 1)
    · rw [wpc_write hw] at h
      cases k with
      | zero =>
        simp only [stopAfter, endedWithin, hw]
        exact .inl ⟨rfl, h.1⟩
      | succ k =>
        simp only [stopAfter, endedWithin, hw, if_true]
        rw [show n + (k + 1) = n + 1 + k by omega]
        exact ih _ h.2 k

/-- What holds of every value a program can stop with. -/
theorem returns_endedWithin {P : α → Prop} (h : p.Returns P) {k : ℕ} {a : α}
    (ha : p.endedWithin H isWrite k s = some (.ok a)) : P a := by
  induction p generalizing k s with
  | done b =>
    cases k <;> cases ha <;> exact h
  | raise e => cases k <;> cases ha
  | call o f ih =>
    rcases hw : isWrite o with - | -
    · cases k with
      | zero =>
        simp only [endedWithin, hw] at ha
        exact ih _ (h _) ha
      | succ k =>
        simp only [endedWithin, hw] at ha
        exact ih _ (h _) ha
    · cases k with
      | zero => simp [endedWithin, hw] at ha
      | succ k =>
        simp only [endedWithin, hw, if_true] at ha
        exact ih _ (h _) ha

-- as with `wp`, a goal is only taken apart by the rules
attribute [irreducible] wpc

end Program

end Interaction
