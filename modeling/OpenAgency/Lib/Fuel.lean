/-
Lib/Fuel.lean

Loops that are not bounded by their text.  A computation takes fuel and gives nothing
where the fuel runs out.  `Returns f a` says that it gives `a` from some amount of fuel
on, so it terminates and its value does not depend on the fuel.

`returns_loop` is the rule for a loop: an invariant, and a variant that decreases in
every turn that goes on.
-/
import Mathlib.Data.Nat.Notation
import Mathlib.Logic.Basic

namespace Fuel

variable {σ α β : Type}

/-- Enough fuel gives `a`, and so does more. -/
def Returns (f : ℕ → Option α) (a : α) : Prop := ∃ n, ∀ m, n ≤ m → f m = some a

variable {f : ℕ → Option α}

theorem Returns.unique {a b : α} (ha : Returns f a) (hb : Returns f b) : a = b := by
  obtain ⟨n, hn⟩ := ha
  obtain ⟨m, hm⟩ := hb
  have heq := (hn (max n m) (Nat.le_max_left n m)).symm.trans (hm (max n m) (Nat.le_max_right n m))
  exact Option.some.inj heq

theorem returns_some (a : α) : Returns (fun _ => some a) a := ⟨0, fun _ _ => rfl⟩

variable {a : α} {g : ℕ → α → Option β}

theorem Returns.bind {b : β} (hf : Returns f a) (hg : Returns (fun n => g n a) b) :
    Returns (fun n => (f n).bind (g n)) b := by
  obtain ⟨n, hn⟩ := hf
  obtain ⟨m, hm⟩ := hg
  refine ⟨max n m, fun k hk => ?_⟩
  show (f k).bind (g k) = some b
  rw [hn k (Nat.le_trans (Nat.le_max_left n m) hk)]
  exact hm k (Nat.le_trans (Nat.le_max_right n m) hk)

/-- The turns of a loop, at most so many: a turn goes on with a state or ends with a value. -/
def turns (body : σ → Option (σ ⊕ α)) : ℕ → σ → Option α
  | 0, _ => none
  | n + 1, s =>
    (body s).bind fun next =>
      match next with
      | .inl s' => turns body n s'
      | .inr a => some a

/-- A loop; its body may contain loops. -/
def loop (body : ℕ → σ → Option (σ ⊕ α)) (s : σ) (fuel : ℕ) : Option α :=
  turns (body fuel) fuel s

variable {body : ℕ → σ → Option (σ ⊕ α)}

theorem turns_succ_of_inl {body : σ → Option (σ ⊕ α)} {s s' : σ} (h : body s = some (.inl s'))
    (n : ℕ) : turns body (n + 1) s = turns body n s' := by
  rw [turns, h]
  rfl

theorem turns_succ_of_inr {body : σ → Option (σ ⊕ α)} {s : σ} (h : body s = some (.inr a)) (n : ℕ) :
    turns body (n + 1) s = some a := by
  rw [turns, h]
  rfl

/-! ### More fuel -/

/-- More fuel does not change an answer. -/
def Steady (f : ℕ → Option α) : Prop := ∀ n a, f n = some a → ∀ m, n ≤ m → f m = some a

theorem Steady.returns (hf : Steady f) {n : ℕ} (h : f n = some a) : Returns f a := ⟨n, hf n a h⟩

theorem steady_const (a : Option α) : Steady fun _ => a := fun _ _ h _ _ => h

theorem Steady.bind (hf : Steady f) (hg : ∀ a, Steady fun n => g n a) :
    Steady fun n => (f n).bind (g n) := by
  intro n b h m hm
  obtain ⟨a, ha, hb⟩ := Option.bind_eq_some_iff.mp h
  exact Option.bind_eq_some_iff.mpr ⟨a, hf n a ha m hm, hg a n b hb m hm⟩

theorem Steady.map (hf : Steady f) (g : α → β) : Steady fun n => (f n).map g := by
  intro n b h m hm
  obtain ⟨a, ha, rfl⟩ := Option.map_eq_some_iff.mp h
  exact Option.map_eq_some_iff.mpr ⟨a, hf n a ha m hm, rfl⟩

/-- A loop with a steady body is steady. -/
theorem steady_loop (h : ∀ s, Steady fun n => body n s) (s : σ) : Steady (loop body s) := by
  suffices hturns : ∀ k n s a, turns (body n) k s = some a → ∀ m k', n ≤ m → k ≤ k' →
      turns (body m) k' s = some a from
    fun n a ha m hm => hturns n n s a ha m m hm hm
  intro k
  induction k with
  | zero => exact fun n s a ha => absurd ha (by simp [turns])
  | succ k ih =>
    intro n s a ha m k' hm hk
    obtain ⟨k', rfl⟩ := Nat.exists_eq_add_of_le' (Nat.lt_of_lt_of_le (Nat.succ_pos k) hk)
    obtain ⟨next, hnext, ha⟩ := Option.bind_eq_some_iff.mp ha
    have hnext' : body m s = some next := h s n next hnext m hm
    cases next with
    | inl s' =>
      rw [turns_succ_of_inl hnext']
      exact ih n s' a ha m k' hm (by omega)
    | inr b =>
      rw [turns_succ_of_inr hnext']
      exact ha

/-! ### Loops whose body needs no fuel -/

section Plain

variable {body : σ → Option (σ ⊕ α)} {s s' : σ} {a b : α}

theorem Returns.of_inl (h : body s = some (.inl s'))
    (hs : Returns (loop (fun _ => body) s) a) : Returns (loop (fun _ => body) s') a := by
  obtain ⟨n, hn⟩ := hs
  refine ⟨n, fun m hm => ?_⟩
  have hmore : turns body (m + 1) s = some a := hn (m + 1) (Nat.le_succ_of_le hm)
  rw [turns_succ_of_inl h] at hmore
  exact hmore

theorem Returns.of_inr (h : body s = some (.inr b))
    (hs : Returns (loop (fun _ => body) s) a) : a = b := by
  obtain ⟨n, hn⟩ := hs
  have hmore : turns body (n + 1) s = some a := hn (n + 1) (Nat.le_succ n)
  rw [turns_succ_of_inr h] at hmore
  exact (Option.some.inj hmore).symm

/-- What holds at the start of a loop and is kept by its turns holds at its end. -/
theorem Returns.invariant {I : σ → Prop} {Q : α → Prop}
    (hgoesOn : ∀ s s', I s → body s = some (.inl s') → I s')
    (hends : ∀ s a, I s → body s = some (.inr a) → Q a) (hs : I s)
    (h : Returns (loop (fun _ => body) s) a) : Q a := by
  obtain ⟨n, hn⟩ := h
  suffices hturns : ∀ k s, I s → turns body k s = some a → Q a from
    hturns n s hs (hn n (Nat.le_refl n))
  intro k
  induction k with
  | zero => exact fun s _ h => absurd h (by simp [turns])
  | succ k ih =>
    intro s hs h
    obtain ⟨next, hnext, h⟩ := Option.bind_eq_some_iff.mp h
    cases next with
    | inl s' => exact ih s' (hgoesOn s s' hs hnext) h
    | inr b =>
      obtain rfl := Option.some.inj h
      exact hends s b hs hnext

end Plain

/-! ### Total correctness -/

/-- From some fuel on, so many turns of the loop give `a`. -/
def Settles (body : ℕ → σ → Option (σ ⊕ α)) (s : σ) (a : α) : Prop :=
  ∃ n, ∀ fuel k, n ≤ fuel → n ≤ k → turns (body fuel) k s = some a

theorem Settles.returns {s : σ} (h : Settles body s a) : Returns (loop body s) a := by
  obtain ⟨n, hn⟩ := h
  exact ⟨n, fun m hm => hn m m hm hm⟩

theorem settles_of_inr {s : σ} (h : Returns (fun n => body n s) (.inr a)) : Settles body s a := by
  obtain ⟨n, hn⟩ := h
  refine ⟨n + 1, fun fuel k hfuel hk => ?_⟩
  obtain ⟨k, rfl⟩ := Nat.exists_eq_add_of_le' (Nat.lt_of_lt_of_le (Nat.succ_pos n) hk)
  exact turns_succ_of_inr (hn fuel (by omega)) k

theorem settles_of_inl {s s' : σ} (h : Returns (fun n => body n s) (.inl s'))
    (hs' : Settles body s' a) : Settles body s a := by
  obtain ⟨n, hn⟩ := h
  obtain ⟨m, hm⟩ := hs'
  refine ⟨max n m + 1, fun fuel k hfuel hk => ?_⟩
  obtain ⟨k, rfl⟩ := Nat.exists_eq_add_of_le' (Nat.lt_of_lt_of_le (Nat.succ_pos _) hk)
  rw [turns_succ_of_inl (hn fuel (by omega))]
  exact hm fuel k (by omega) (by omega)

/-- **The rule for loops.**  Where every turn keeps the invariant and decreases the
variant, or ends with a value in `Q`, the loop returns such a value. -/
theorem returns_loop {I : σ → Prop} {Q : α → Prop} (variant : σ → ℕ)
    (hturn : ∀ s, I s →
      (∃ s', Returns (fun n => body n s) (.inl s') ∧ I s' ∧ variant s' < variant s) ∨
        ∃ a, Returns (fun n => body n s) (.inr a) ∧ Q a)
    {s : σ} (hs : I s) : ∃ a, Returns (loop body s) a ∧ Q a := by
  suffices h : ∀ n s, I s → variant s = n → ∃ a, Settles body s a ∧ Q a by
    obtain ⟨a, ha, hq⟩ := h _ s hs rfl
    exact ⟨a, ha.returns, hq⟩
  intro n
  induction n using Nat.strongRecOn with
  | _ n ih =>
    intro s hs hn
    rcases hturn s hs with ⟨s', hs', hinv, hlt⟩ | ⟨a, ha, hq⟩
    · obtain ⟨a, ha, hq⟩ := ih (variant s') (hn ▸ hlt) s' hinv rfl
      exact ⟨a, settles_of_inl hs' ha, hq⟩
    · exact ⟨a, settles_of_inr ha, hq⟩

end Fuel
