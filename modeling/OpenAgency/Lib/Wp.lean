/-
Lib/Wp.lean

Weakest preconditions of interaction programs that run alone.  A program stops
either with a value or with an error, so a postcondition has two channels:
`wp H Q E p s` says that `p`, started in `s`, stops with a value for which `Q`
holds or with an error for which `E` holds.  The rules follow the ways programs
are built; a function of a model gets one rule of its own, and its callers use
that rule through `wp_mono`.
-/
import OpenAgency.Lib.Semantics

namespace Interaction

namespace Program

variable {S : Signature} {σ ε α β : Type} (H : Handler S σ)

/-- Started in this state, the program stops with a value in `Q` or an error in
`E`. -/
def wp (Q : α → σ → Prop) (E : ε → σ → Prop) : Program S ε α → σ → Prop
  | done a, s => Q a s
  | raise e, s => E e s
  | call o k, s => (k (H o s).1).wp Q E (H o s).2

variable {H} {Q : α → σ → Prop} {E : ε → σ → Prop}

@[simp] theorem wp_done (a : α) (s : σ) : (done a : Program S ε α).wp H Q E s ↔ Q a s := Iff.rfl

@[simp] theorem wp_raise (e : ε) (s : σ) : (raise e : Program S ε α).wp H Q E s ↔ E e s :=
  Iff.rfl

@[simp] theorem wp_call (o : S.Op) (k : S.Ret o → Program S ε α) (s : σ) :
    (call o k).wp H Q E s ↔ (k (H o s).1).wp H Q E (H o s).2 := Iff.rfl

variable {s : σ}

theorem wp_of_done {a : α} (h : Q a s) : (done a : Program S ε α).wp H Q E s := h

theorem wp_of_raise {e : ε} (h : E e s) : (raise e : Program S ε α).wp H Q E s := h

theorem wp_of_perform {o : S.Op} {Q : S.Ret o → σ → Prop} (h : Q (H o s).1 (H o s).2) :
    (perform o : Program S ε (S.Ret o)).wp H Q E s := h

/-- The meaning of `wp` on a run. -/
theorem wp_iff_run (p : Program S ε α) (s : σ) :
    p.wp H Q E s ↔ (∀ a s', p.run H s = (.ok a, s') → Q a s') ∧
      (∀ e s', p.run H s = (.error e, s') → E e s') := by
  induction p generalizing s with
  | done a => simp
  | raise e => simp
  | call o k ih => exact ih (H o s).1 (H o s).2

variable {p : Program S ε α}

theorem wp_of_run_ok {s s' : σ} {a : α} (h : p.run H s = (.ok a, s')) : p.wp H Q E s ↔ Q a s' := by
  induction p generalizing s with
  | done b =>
    cases h
    exact Iff.rfl
  | raise e => cases h
  | call o k ih => exact ih (H o s).1 h

theorem wp_of_run_error {s s' : σ} {e : ε} (h : p.run H s = (.error e, s')) :
    p.wp H Q E s ↔ E e s' := by
  induction p generalizing s with
  | done b => cases h
  | raise e' =>
    cases h
    exact Iff.rfl
  | call o k ih => exact ih (H o s).1 h

theorem wp_bind (p : Program S ε α) (f : α → Program S ε β) {Q : β → σ → Prop} (s : σ) :
    (p >>= f).wp H Q E s ↔ p.wp H (fun a s' => (f a).wp H Q E s') E s := by
  induction p generalizing s with
  | done a => exact Iff.rfl
  | raise e => exact Iff.rfl
  | call o k ih => exact ih (H o s).1 (H o s).2

theorem wp_attempt (p : Program S ε α) {Q : Except ε α → σ → Prop} (s : σ) :
    p.attempt.wp H Q E s ↔ p.wp H (fun a => Q (.ok a)) (fun e => Q (.error e)) s := by
  induction p generalizing s with
  | done a => exact Iff.rfl
  | raise e => exact Iff.rfl
  | call o k ih => exact ih (H o s).1 (H o s).2

theorem wp_rescue (p : Program S ε α) (h : ε → Program S ε α) (s : σ) :
    (p.rescue h).wp H Q E s ↔ p.wp H Q (fun e s' => (h e).wp H Q E s') s := by
  rw [rescue, wp_bind, wp_attempt]
  rfl

theorem wp_ite (c : Prop) [Decidable c] (p q : Program S ε α) (s : σ) :
    (if c then p else q).wp H Q E s ↔ if c then p.wp H Q E s else q.wp H Q E s := by
  split <;> rfl

@[simp] theorem wp_ofExcept_ok (a : α) (s : σ) :
    (ofExcept (.ok a) : Program S ε α).wp H Q E s ↔ Q a s := Iff.rfl

@[simp] theorem wp_ofExcept_error (e : ε) (s : σ) :
    (ofExcept (.error e) : Program S ε α).wp H Q E s ↔ E e s := Iff.rfl

/-- The rule of consequence. -/
theorem wp_mono {Q' : α → σ → Prop} {E' : ε → σ → Prop} (h : p.wp H Q E s)
    (hQ : ∀ a s', Q a s' → Q' a s') (hE : ∀ e s', E e s' → E' e s') :
    p.wp H Q' E' s := by
  induction p generalizing s with
  | done a => exact hQ a s h
  | raise e => exact hE e s h
  | call o k ih => exact ih (H o s).1 h

theorem wp_post {Q' : α → σ → Prop} (h : p.wp H Q E s) (hQ : ∀ a s', Q a s' → Q' a s') :
    p.wp H Q' E s :=
  wp_mono h hQ fun _ _ h => h

/-- The rule of sequence, where the first program has failures of its own. -/
theorem wp_then {f : α → Program S ε β} {R : β → σ → Prop} {E' : ε → σ → Prop} (h : p.wp H Q E s)
    (hf : ∀ a s', Q a s' → (f a).wp H R E' s') (hE : ∀ e s', E e s' → E' e s') :
    (p >>= f).wp H R E' s :=
  (wp_bind p f s).mpr (wp_mono h hf hE)

/-- The rule of sequence. -/
theorem wp_seq {f : α → Program S ε β} {R : β → σ → Prop} (h : p.wp H Q E s)
    (hf : ∀ a s', Q a s' → (f a).wp H R E s') : (p >>= f).wp H R E s :=
  wp_then h hf fun _ _ h => h

/-- Both postconditions of a run hold together. -/
theorem wp_and {Q' : α → σ → Prop} {E' : ε → σ → Prop} (h : p.wp H Q E s) (h' : p.wp H Q' E' s) :
    p.wp H (fun a s' => Q a s' ∧ Q' a s') (fun e s' => E e s' ∧ E' e s') s := by
  induction p generalizing s with
  | done a => exact ⟨h, h'⟩
  | raise e => exact ⟨h, h'⟩
  | call o k ih => exact ih (H o s).1 h h'

/-- What holds of every value a program can stop with. -/
theorem wp_of_returns {P : α → Prop} (h : p.Returns P) (s : σ) :
    p.wp H (fun a _ => P a) (fun _ _ => True) s := by
  induction p generalizing s with
  | done a => exact h
  | raise e => trivial
  | call o k ih => exact ih _ (h _) _

/-- What holds however the program stops. -/
theorem wp_of_all (hQ : ∀ a s', Q a s') (hE : ∀ e s', E e s') (s : σ) : p.wp H Q E s := by
  induction p generalizing s with
  | done a => exact hQ a s
  | raise e => exact hE e s
  | call o k ih => exact ih _ _

/-- Where failures do not matter, a program of which nothing is needed is passed over. -/
theorem wp_skip {f : α → Program S ε β} {R : β → σ → Prop}
    (h : ∀ a s', (f a).wp H R (fun _ _ => True) s') (s : σ) :
    (p >>= f).wp H R (fun _ _ => True) s :=
  wp_seq (Q := fun _ _ => True) (wp_of_all (fun _ _ => trivial) (fun _ _ => trivial) s)
    fun a s' _ => h a s'

variable {I : σ → Prop}

/-- A property of the state that holds whichever way the program stops holds of the
state its run ends in. -/
theorem wp_state : p.wp H (fun _ => I) (fun _ => I) s ↔ I (p.run H s).2 := by
  induction p generalizing s with
  | done a => exact Iff.rfl
  | raise e => exact Iff.rfl
  | call o k ih => exact ih (H o s).1

variable {f : α → Program S ε (List β)} {E : ε → σ → Prop}

variable {as : List α}

/-- The rule for a loop over a list: `I` speaks of the elements that are still to come. -/
theorem wp_collect {I : List α → σ → Prop}
    (hstep : ∀ a as s, I (a :: as) s → (f a).wp H (fun _ => I as) E s) (hs : I as s) :
    (collect f as).wp H (fun _ => I []) E s := by
  induction as generalizing s with
  | nil => exact hs
  | cons a as ih =>
    exact wp_seq (hstep a as s hs) fun bs s' hs' => wp_seq (ih hs') fun _ _ h => wp_of_done h

/-- A loop whose turns all keep `I` and return what `R` accepts. -/
theorem wp_collect_quiet {R : β → Prop}
    (hstep : ∀ a ∈ as, ∀ s, I s → (f a).wp H (fun bs s' => I s' ∧ ∀ b ∈ bs, R b) E s) (hs : I s) :
    (collect f as).wp H (fun bs s' => I s' ∧ ∀ b ∈ bs, R b) E s := by
  induction as generalizing s with
  | nil => exact ⟨hs, fun b hb => absurd hb List.not_mem_nil⟩
  | cons a as ih =>
    refine wp_seq (hstep a List.mem_cons_self s hs) fun bs s' hbs => ?_
    refine wp_seq (ih (fun a ha => hstep a (List.mem_cons_of_mem _ ha)) hbs.1) fun rest s'' hrest =>
      ⟨hrest.1, fun b hb => ?_⟩
    rcases List.mem_append.mp hb with hb | hb
    · exact hbs.2 b hb
    · exact hrest.2 b hb

/-- **The rule for one turn of a loop.**  Before the turn of `a` the other turns keep `I`, after
it they keep what it has established; and what they return is in `R`. -/
theorem wp_collect_turn {T : List β → σ → Prop} {R : β → Prop} {a : α} (hnodup : as.Nodup)
    (ha : a ∈ as)
    (hbefore : ∀ b ∈ as, b ≠ a → ∀ s, I s → (f b).wp H (fun bs s' => I s' ∧ ∀ b ∈ bs, R b) E s)
    (hafter : ∀ b ∈ as, b ≠ a → ∀ own s, T own s →
      (f b).wp H (fun bs s' => T own s' ∧ ∀ b ∈ bs, R b) E s) (hturn : ∀ s, I s → (f a).wp H T E s)
    (hs : I s) :
    (collect f as).wp H (fun bs s' => ∃ own, T own s' ∧ ∀ b ∈ bs, R b ∨ b ∈ own) E s := by
  induction as generalizing s with
  | nil => cases ha
  | cons b as ih =>
    obtain ⟨hb, hnodup⟩ := List.nodup_cons.mp hnodup
    by_cases hba : b = a
    · subst hba
      refine wp_seq (hturn s hs) fun own s' hown => ?_
      refine wp_seq (wp_collect_quiet (fun c hc => hafter c (List.mem_cons_of_mem _ hc)
        (fun heq => hb (heq ▸ hc)) own) hown) fun rest s'' hrest => ?_
      refine ⟨own, hrest.1, fun y hy => ?_⟩
      rcases List.mem_append.mp hy with hy | hy
      · exact .inr hy
      · exact .inl (hrest.2 y hy)
    · refine wp_seq (hbefore b List.mem_cons_self hba s hs) fun bs s' hbs => ?_
      have hmem : a ∈ as := (List.mem_cons.mp ha).resolve_left (Ne.symm hba)
      refine wp_seq (ih hnodup hmem (fun c hc => hbefore c (List.mem_cons_of_mem _ hc))
        (fun c hc => hafter c (List.mem_cons_of_mem _ hc)) hbs.1) fun rest s'' hrest => ?_
      obtain ⟨own, hown, hothers⟩ := hrest
      refine ⟨own, hown, fun y hy => ?_⟩
      rcases List.mem_append.mp hy with hy | hy
      · exact .inl (hbs.2 y hy)
      · exact hothers y hy

/-- The rule for a loop that carries a value: `I` speaks of the elements that have been
dealt with. -/
theorem wp_foldlM {f : β → α → Program S ε β} {I : List α → β → σ → Prop}
    (hstep : ∀ done a rest b s, as = done ++ a :: rest → I done b s →
      (f b a).wp H (I (done ++ [a])) E s) {b : β} (hs : I [] b s) :
    (as.foldlM f b).wp H (I as) E s := by
  suffices hall : ∀ rest done b s, as = done ++ rest → I done b s →
      (rest.foldlM f b).wp H (I as) E s from hall as [] b s rfl hs
  intro rest
  induction rest with
  | nil =>
    rintro done b s rfl hs
    rw [List.append_nil] at hstep ⊢
    exact wp_of_done hs
  | cons a rest ih =>
    intro done b s has hs
    rw [List.foldlM_cons]
    refine wp_seq (hstep done a rest b s has hs) fun b' s' hs' => ?_
    exact ih (done ++ [a]) b' s' (by rw [has, List.append_assoc]; rfl) hs'

/-! ### Runs along an order -/

section Order

variable {R : σ → σ → Prop} (hrefl : ∀ s, R s s) (htrans : ∀ {r s t}, R r s → R s t → R r t)
  (hstep : ∀ o s, R s (H o s).2)

include hrefl htrans hstep

/-- A run goes along an order that every operation goes along. -/
theorem wp_along (p : Program S ε α) (s : σ) : p.wp H (fun _ => R s) (fun _ => R s) s := by
  induction p generalizing s with
  | done a => exact hrefl s
  | raise e => exact hrefl s
  | call o k ih =>
    rw [wp_call]
    apply wp_mono (ih _ _)
    · exact fun _ _ h => htrans (hstep o s) h
    · exact fun _ _ h => htrans (hstep o s) h

/-- A postcondition about the states before `hi` may be proved from a state before `hi`. -/
theorem wp_window {lo hi : σ} (hlo : R lo s)
    (hwp : R s hi → p.wp H (fun a s' => R lo s' → R s' hi → Q a s') (fun e s' => R lo s' →
      R s' hi → E e s') s) :
    p.wp H (fun a s' => R lo s' ∧ (R s' hi → Q a s')) (fun e s' => R s' hi → E e s') s := by
  have halong := wp_along (ε := ε) hrefl htrans hstep p s
  by_cases hhi : R s hi
  · apply wp_mono (wp_and (hwp hhi) halong)
    · exact fun a s' h => ⟨htrans hlo h.2, h.1 (htrans hlo h.2)⟩
    · exact fun e s' h => h.1 (htrans hlo h.2)
  · apply wp_mono halong
    · exact fun a s' h => ⟨htrans hlo h, fun h' => absurd (htrans h h') hhi⟩
    · exact fun e s' h h' => absurd (htrans h h') hhi

theorem wp_before {hi : σ}
    (hwp : R s hi → p.wp H (fun a s' => R s' hi → Q a s') (fun e s' => R s' hi → E e s') s) :
    p.wp H (fun a s' => R s' hi → Q a s') (fun e s' => R s' hi → E e s') s := by
  have hwindow := wp_window (Q := Q) (E := E) hrefl htrans hstep (hrefl s) fun hhi =>
    wp_mono (hwp hhi) (fun _ _ h _ => h) fun _ _ h _ => h
  exact wp_mono hwindow (fun _ _ h => h.2) fun _ _ h => h

end Order

-- a goal about a program is only ever taken apart by the rules
attribute [irreducible] wp

end Program

end Interaction
