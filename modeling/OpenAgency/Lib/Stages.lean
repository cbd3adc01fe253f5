/-
Lib/Stages.lean

Protocols of processes whose end matters.  In `Pool.phases` a process that has ended has
no phase any more; here it keeps the last one, so that an invariant of the pool may speak
of what ended processes have done and of what they returned.

`Runs.staged` is the rule.  Besides the invariant it gives, for every process, that the
rest of it still follows the protocol: a process that has returned did so in a phase that
admits the value it returned.
-/
import OpenAgency.Lib.Protocol
import OpenAgency.Lib.Sum

namespace Interaction

variable {S : Signature} {L Φ σ ε α β : Type}

namespace Program

variable {T : Signature} {P : Protocol (S.sum T) L Φ} {l : L} {Q : β → Φ → Prop}
  {E : ε → Φ → Prop} {φ : Φ}

/-- Operations of the left signature that are always allowed and leave the phase as it is
can be put in front. -/
theorem follows_inl_bind (hallowed : ∀ o, P.allowed l φ (.inl o))
    (hnext : ∀ o r, P.next φ ⟨.inl o, r⟩ = φ) (hE : ∀ e, E e φ) (p : Program S ε α)
    {f : α → Program (S.sum T) ε β} (h : ∀ a, (f a).Follows P l Q E φ) :
    (inl p >>= f).Follows P l Q E φ := by
  induction p with
  | done a => exact h a
  | raise e => exact follows_raise (hE e)
  | call o k ih =>
    rw [inl_call, call_bind]
    refine follows_call (hallowed o) fun r _ => ?_
    rw [hnext]
    exact ih r

/-- A value computed without any operation. -/
theorem follows_ofExcept_bind {P : Protocol S L Φ} {r : Except ε α} {f : α → Program S ε β}
    (hE : ∀ e, E e φ) (h : ∀ a, r = .ok a → (f a).Follows P l Q E φ) :
    (ofExcept r >>= f).Follows P l Q E φ := by
  rcases r with e | a
  · exact follows_raise (hE e)
  · exact h a rfl

end Program

/-- What a process has returned. -/
def Proc.returned (p : Proc S L ε α) : Option α :=
  match p.rest with
  | .done a => some a
  | _ => none

namespace Pool

/-- The guard that puts `cond` on every operation: `cond q i o` for the process `i` about to
perform `o`. -/
def Where (cond : Pool S L σ ε α → ℕ → S.Op → Prop) (q : Pool S L σ ε α) : Act L → Prop
  | .start _ => True
  | .step i => ∀ l past o k, q.procs[i]? = some ⟨l, past, .call o k⟩ → cond q i o

/-- The pool after a list of actions, if every operation passes `check`. -/
def nextsWhere (code : L → Program S ε α) (H : Handler S σ)
    (check : Pool S L σ ε α → ℕ → S.Op → Bool) :
    Pool S L σ ε α → List (Act L) → Option (Pool S L σ ε α)
  | q, [] => some q
  | q, .start l :: as => nextsWhere code H check { q with procs := q.procs ++ [⟨l, [], code l⟩] } as
  | q, .step i :: as =>
    match q.procs[i]? with
    | some ⟨l, past, .call o k⟩ =>
      if check q i o then nextsWhere code H check (afterStep H q i l past o k) as else none
    | _ => none

variable {code : L → Program S ε α} {H : Handler S σ}

variable {check : Pool S L σ ε α → ℕ → S.Op → Bool}

theorem runs_of_nextsWhere {cond : Pool S L σ ε α → ℕ → S.Op → Prop}
    (hcheck : ∀ q i o, check q i o → cond q i o) {q q' : Pool S L σ ε α} {as : List (Act L)}
    (h : nextsWhere code H check q as = some q') :
    Runs code H (Where cond) q q' :=
  runs_of_checks (c := fun q i _ _ o => check q i o)
    (fun | _, [] => rfl | _, .start _ :: _ => rfl | _, .step _ :: _ => rfl) (fun _ _ => trivial)
    (fun q i hpass l past o k hp => hcheck q i o (hpass l past o k hp)) h

theorem nexts_of_nextsWhere {q q' : Pool S L σ ε α} {as : List (Act L)}
    (h : nextsWhere code H check q as = some q') :
    nexts code H q as = some q' := by
  induction as generalizing q with
  | nil => exact h
  | cons a as ih =>
    cases a with
    | start l =>
      show (next code H q (.start l)).bind _ = _
      exact ih h
    | step i =>
      rcases hp : q.procs[i]? with - | ⟨l, past, a | e | ⟨o, k⟩⟩
      · simp [nextsWhere, hp] at h
      · simp [nextsWhere, hp] at h
      · simp [nextsWhere, hp] at h
      · simp only [nextsWhere, hp] at h
        split at h
        · rw [nexts, next_step hp, Option.bind_some]
          exact ih h
        · cases h

variable (P : Protocol S L Φ)

/-- What each process was started as and the phase it is in, or ended in. -/
def stages (q : Pool S L σ ε α) : List (L × Φ) := q.procs.map fun p => (p.label, P.phase p.past)

/-- The guard that puts `cond` on the shared state, the phases of all processes and the
operation that one of them is about to perform. -/
def Staged (cond : σ → List (L × Φ) → ℕ → S.Op → Prop) : Pool S L σ ε α → Act L → Prop :=
  Where fun q i o => cond q.shared (q.stages P) i o

variable {P}

theorem stages_append (q : Pool S L σ ε α) (l : L) :
    stages P { q with procs := q.procs ++ [⟨l, [], code l⟩] } = q.stages P ++ [(l, P.start)] := by
  simp [stages]

theorem stages_afterStep (q : Pool S L σ ε α) (i : ℕ) (l : L) (past : List (Event S)) (o : S.Op)
    (k : S.Ret o → Program S ε α) :
    (afterStep H q i l past o k).stages P =
      (q.stages P).set i (l, P.next (P.phase past) ⟨o, (H o q.shared).1⟩) := by
  simp [stages, afterStep, List.map_set]

theorem stages_getElem? {q : Pool S L σ ε α} {i : ℕ} {l : L} {past : List (Event S)}
    {rest : Program S ε α} (h : q.procs[i]? = some ⟨l, past, rest⟩) :
    (q.stages P)[i]? = some (l, P.phase past) := by
  simp only [stages, List.getElem?_map, h, Option.map_some]

/-- **The protocol rule for processes that keep their phase.**  If starting a process and
performing an allowed operation keep `J`, and operations get the answers their phase
expects, then `J` holds in every pool that programs following the protocol reach, and what
is left of each of them still follows it. -/
theorem Runs.staged {J : σ → List (L × Φ) → Prop} {cond : σ → List (L × Φ) → ℕ → S.Op → Prop}
    {Q : L → α → Φ → Prop} {E : L → ε → Φ → Prop}
    (hcode : ∀ l, (code l).Follows P l (Q l) (E l) P.start)
    (hstart : ∀ s ps l, J s ps → J s (ps ++ [(l, P.start)]))
    (hstep : ∀ s ps i l φ o, J s ps → ps[i]? = some (l, φ) → cond s ps i o → P.allowed l φ o →
      P.answers φ o (H o s).1 ∧ J (H o s).2 (ps.set i (l, P.next φ ⟨o, (H o s).1⟩)))
    {s : σ} {trace : List (L × Event S)} {q' : Pool S L σ ε α} (hs : J s [])
    (h : Runs code H (Staged P cond) ⟨s, [], trace⟩ q') :
    J q'.shared (q'.stages P) ∧
      ∀ p ∈ q'.procs, p.rest.Follows P p.label (Q p.label) (E p.label) (P.phase p.past) := by
  refine Runs.invariant (I := fun q => J q.shared (q.stages P) ∧ ∀ p ∈ q.procs,
    p.rest.Follows P p.label (Q p.label) (E p.label) (P.phase p.past)) ?_ ?_
    ⟨hs, by simp⟩ h
  · rintro q l ⟨hJ, hprocs⟩ -
    refine ⟨?_, fun p hp => ?_⟩
    · rw [stages_append]
      exact hstart _ _ l hJ
    · rcases List.mem_append.mp hp with hp | hp
      · exact hprocs p hp
      · obtain rfl := List.mem_singleton.mp hp
        exact hcode l
  · rintro q i l past o k ⟨hJ, hprocs⟩ hg hi
    obtain ⟨ho, hk⟩ := Program.follows_call_iff.mp (hprocs _ (List.mem_of_getElem? hi))
    obtain ⟨hr, hJ'⟩ := hstep _ _ i l _ o hJ (stages_getElem? hi) (hg l past o k hi) ho
    refine ⟨?_, fun p hp => ?_⟩
    · rw [stages_afterStep]
      exact hJ'
    · rcases List.mem_or_eq_of_mem_set hp with hp | rfl
      · exact hprocs p hp
      · simp only [Protocol.phase_append]
        exact hk _ hr

/-! ### Invariants of processes and pairs -/

/-- `shared` holds of the state, `one` of each process, ended or not, `two` of any two. -/
def Together (shared : σ → Prop) (one : σ → L → Φ → Prop) (two : σ → Φ → Φ → Prop) (s : σ)
    (ps : List (L × Φ)) : Prop :=
  Joint shared one two s (ps.map fun p => (p.1, some p.2))

namespace Together

variable {shared : σ → Prop} {one : σ → L → Φ → Prop} {two : σ → Φ → Φ → Prop} {s s' : σ}
  {ps : List (L × Φ)} {i j : ℕ} {l l' : L} {φ φ' ψ : Φ}

theorem getElem?_map_some (h : ps[i]? = some (l, φ)) :
    (ps.map fun p => (p.1, some p.2))[i]? = some (l, some φ) := by
  rw [List.getElem?_map, h]
  rfl

theorem nil (h : shared s) : Together shared one two s [] := Joint.nil h

theorem sharedState (h : Together shared one two s ps) : shared s := Joint.shared h

theorem each (h : Together shared one two s ps) (hi : ps[i]? = some (l, φ)) : one s l φ :=
  Joint.one h i l φ (getElem?_map_some hi)

theorem pair (h : Together shared one two s ps) (hij : i ≠ j) (hi : ps[i]? = some (l, φ))
    (hj : ps[j]? = some (l', ψ)) : two s φ ψ :=
  Joint.two h i j l l' φ ψ hij (getElem?_map_some hi) (getElem?_map_some hj)

theorem start (h : Together shared one two s ps) (hone : one s l φ)
    (htwo : ∀ ψ, two s φ ψ ∧ two s ψ φ) : Together shared one two s (ps ++ [(l, φ)]) := by
  unfold Together
  rw [List.map_append]
  exact Joint.start h hone htwo

/-- A step of one process, as in `Joint.stepOf`. -/
theorem step (h : Together shared one two s ps) (hi : ps[i]? = some (l, φ)) (hshared : shared s')
    (hone : one s' l φ')
    (hothers : ∀ j l' ψ, j ≠ i → ps[j]? = some (l', ψ) → one s l' ψ → two s φ ψ → two s ψ φ →
      one s' l' ψ ∧ two s' φ' ψ ∧ two s' ψ φ')
    (hrest : ∀ ψ χ, two s φ ψ → two s φ χ → two s ψ χ → two s' ψ χ) :
    Together shared one two s' (ps.set i (l, φ')) := by
  unfold Together
  rw [List.map_set]
  refine Joint.stepOf h (getElem?_map_some hi) hshared hone (fun j l' ψ hji hj => ?_) hrest
  rw [List.getElem?_map] at hj
  obtain ⟨⟨l'', χ⟩, hj', heq⟩ := Option.map_eq_some_iff.mp hj
  obtain ⟨rfl, hχ⟩ := Prod.mk.inj heq
  obtain rfl := Option.some.inj hχ
  exact hothers j l'' χ hji hj'

end Together

end Pool

end Interaction
