/-
Lib/Protocol.lean

Protocols of processes.  A protocol follows one process through phases: the phase after
an operation depends on the phase before it, the operation and its answer, and each
phase says which operations are allowed in it and which answers they can get.  A
program *follows* the protocol from a phase if it only performs allowed operations, as
long as the answers are those the protocol expects; `follows_bind` and its siblings show
it along the program's text.

What a shared state has to do with the phases of the processes that work on it is one
predicate `J`.  If each allowed operation keeps `J` and gets an answer its phase
expects, then `J` holds along a run of one program, wherever it is stopped
(`Follows.wp`, `Follows.stopAfter`), and in every pool of programs that follow the
protocol (`Runs.follows`).  There the condition on a step may speak of the phases of
all processes.
-/
import OpenAgency.Lib.Crash
import OpenAgency.Lib.Faults
import OpenAgency.Lib.Pool

namespace Interaction

/-- Phases `Φ` of a process started as `L`. -/
structure Protocol (S : Signature) (L Φ : Type) where
  start : Φ
  next : Φ → Event S → Φ
  allowed : L → Φ → S.Op → Prop
  answers : Φ → (o : S.Op) → S.Ret o → Prop

variable {S : Signature} {L Φ σ ε α β : Type}

namespace Protocol

/-- The phase of a process by what it has performed. -/
def phase (P : Protocol S L Φ) (past : List (Event S)) : Φ := past.foldl P.next P.start

@[simp] theorem phase_nil (P : Protocol S L Φ) : P.phase [] = P.start := rfl

@[simp] theorem phase_append (P : Protocol S L Φ) (past : List (Event S)) (e : Event S) :
    P.phase (past ++ [e]) = P.next (P.phase past) e := by
  simp [phase]

/-- The same protocol for other labels. -/
def relabel {L' : Type} (f : L' → L) (P : Protocol S L Φ) : Protocol S L' Φ :=
  { P with allowed := fun l => P.allowed (f l) }

end Protocol

namespace Program

variable (P : Protocol S L Φ) (l : L)

/-- From the phase `φ` the program stays within the protocol and stops with a value in
`Q` or an error in `E`. -/
def Follows (Q : α → Φ → Prop) (E : ε → Φ → Prop) : Program S ε α → Φ → Prop
  | done a, φ => Q a φ
  | raise e, φ => E e φ
  | call o k, φ =>
    P.allowed l φ o ∧ ∀ r, P.answers φ o r → (k r).Follows Q E (P.next φ ⟨o, r⟩)

variable {P} {l} {Q : α → Φ → Prop} {E : ε → Φ → Prop} {φ : Φ}

/-! ### Rules -/

theorem follows_done {a : α} (h : Q a φ) : (done a : Program S ε α).Follows P l Q E φ := h

theorem follows_raise {e : ε} (h : E e φ) : (raise e : Program S ε α).Follows P l Q E φ := h

theorem follows_call {o : S.Op} {k : S.Ret o → Program S ε α} (ho : P.allowed l φ o)
    (hk : ∀ r, P.answers φ o r → (k r).Follows P l Q E (P.next φ ⟨o, r⟩)) :
    (call o k).Follows P l Q E φ := ⟨ho, hk⟩

theorem follows_done_iff {a : α} : (done a : Program S ε α).Follows P l Q E φ ↔ Q a φ := Iff.rfl

theorem follows_raise_iff {e : ε} : (raise e : Program S ε α).Follows P l Q E φ ↔ E e φ := Iff.rfl

theorem follows_call_iff {o : S.Op} {k : S.Ret o → Program S ε α} :
    (call o k).Follows P l Q E φ ↔
      P.allowed l φ o ∧ ∀ r, P.answers φ o r → (k r).Follows P l Q E (P.next φ ⟨o, r⟩) := Iff.rfl

variable {p : Program S ε α}

theorem follows_bind {f : α → Program S ε β} {Q : β → Φ → Prop}
    (h : p.Follows P l (fun a φ' => (f a).Follows P l Q E φ') E φ) :
    (p >>= f).Follows P l Q E φ := by
  induction p generalizing φ with
  | done a => exact h
  | raise e => exact h
  | call o k ih => exact ⟨h.1, fun r hr => ih r (h.2 r hr)⟩

theorem follows_attempt {Q : Except ε α → Φ → Prop}
    (h : p.Follows P l (fun a => Q (.ok a)) (fun e => Q (.error e)) φ) :
    p.attempt.Follows P l Q E φ := by
  induction p generalizing φ with
  | done a => exact h
  | raise e => exact h
  | call o k ih => exact ⟨h.1, fun r hr => ih r (h.2 r hr)⟩

theorem follows_rescue {h : ε → Program S ε α}
    (hp : p.Follows P l Q (fun e φ' => (h e).Follows P l Q E φ') φ) :
    (p.rescue h).Follows P l Q E φ :=
  follows_bind (follows_attempt hp)

theorem Follows.mono {Q' : α → Φ → Prop} {E' : ε → Φ → Prop} (h : p.Follows P l Q E φ)
    (hQ : ∀ a φ', Q a φ' → Q' a φ') (hE : ∀ e φ', E e φ' → E' e φ') :
    p.Follows P l Q' E' φ := by
  induction p generalizing φ with
  | done a => exact hQ a φ h
  | raise e => exact hE e φ h
  | call o k ih => exact ⟨h.1, fun r hr => ih r (h.2 r hr)⟩

/-- What a program returns whatever the answers are. -/
theorem Follows.and_returns {R : α → Prop} (h : p.Follows P l Q E φ) (hR : p.Returns R) :
    p.Follows P l (fun a φ' => R a ∧ Q a φ') E φ := by
  induction p generalizing φ with
  | done a => exact ⟨hR, h⟩
  | raise e => exact h
  | call o k ih => exact ⟨h.1, fun r hr => ih r (h.2 r hr) (hR r)⟩

/-- The rule for a loop: `I` is the loop's phases. -/
theorem follows_collect {f : α → Program S ε (List β)} {I : Φ → Prop} {as : List α}
    (hf : ∀ a ∈ as, ∀ φ, I φ → (f a).Follows P l (fun _ => I) E φ) (hφ : I φ) :
    (collect f as).Follows P l (fun _ => I) E φ := by
  induction as generalizing φ with
  | nil => exact hφ
  | cons a as ih =>
    apply follows_bind
    apply (hf a List.mem_cons_self φ hφ).mono
    · intro bs φ' hφ'
      apply follows_bind
      have hrest := ih (fun a ha => hf a (List.mem_cons_of_mem _ ha)) hφ'
      exact hrest.mono (fun _ _ h => h) fun _ _ h => h
    · exact fun _ _ h => h

/-- An operation that may fail: what is left to show is what follows each outcome. -/
theorem follows_fallibly_call {P : Protocol (S.fallible ε) L Φ} {o : S.Op}
    {k : S.Ret o → Program S ε α} (ho : P.allowed l φ o)
    (hk : ∀ r, P.answers φ o (.ok r) → ((k r).fallibly).Follows P l Q E (P.next φ ⟨o, .ok r⟩))
    (hE : ∀ e, E e (P.next φ ⟨o, .error e⟩)) : (call o k).fallibly.Follows P l Q E φ := by
  rw [fallibly_call]
  refine ⟨ho, fun r hr => ?_⟩
  rcases r with e | r
  · exact hE e
  · exact hk r hr

/-- A program that keeps to operations which are always allowed, and leave the phases of
`I` in `I`, can be run at any point. -/
theorem follows_of_within {ok : (o : S.Op) → S.Ret o → Prop} {may : S.Op → Prop} {I : Φ → Prop}
    (hI : ∀ φ o, I φ → may o → P.allowed l φ o ∧ ∀ r, P.answers φ o r →
      ok o r ∧ I (P.next φ ⟨o, r⟩)) (hp : p.Within ok may) (hφ : I φ) :
    p.Follows P l (fun _ => I) (fun _ => I) φ := by
  induction p generalizing φ with
  | done a => exact hφ
  | raise e => exact hφ
  | call o k ih =>
    obtain ⟨ho, hr⟩ := hI φ o hφ hp.1
    exact ⟨ho, fun r hans => ih r (hp.2 r (hr r hans).1) (hr r hans).2⟩

/-! ### Other labels -/

variable {L' : Type}

/-- Processes with labels of their own, each of which follows the protocol of one of `L`. -/
theorem follows_relabel (f : L' → L) {l' : L'} :
    p.Follows (P.relabel f) l' Q E φ ↔ p.Follows P (f l') Q E φ := by
  induction p generalizing φ with
  | done a => exact Iff.rfl
  | raise e => exact Iff.rfl
  | call o k ih => exact and_congr_right fun _ => forall_congr' fun r => imp_congr_right fun _ => ih r

/-! ### One program -/

section Alone

variable {H : Handler S σ} {J : σ → Φ → Prop}
  (hstep : ∀ o s φ, J s φ → P.allowed l φ o →
    P.answers φ o (H o s).1 ∧ J (H o s).2 (P.next φ ⟨o, (H o s).1⟩))

include hstep

/-- What allowed operations keep holds when the program ends. -/
theorem Follows.wp (h : p.Follows P l Q E φ) {s : σ} (hs : J s φ) :
    p.wp H (fun a s' => ∃ φ', Q a φ' ∧ J s' φ') (fun e s' => ∃ φ', E e φ' ∧ J s' φ') s := by
  induction p generalizing φ s with
  | done a => exact wp_of_done ⟨φ, h, hs⟩
  | raise e => exact wp_of_raise ⟨φ, h, hs⟩
  | call o k ih =>
    obtain ⟨hr, hs'⟩ := hstep o s φ hs h.1
    exact (wp_call o k s).mpr (ih _ (h.2 _ hr) hs')

/-- However it ends, what allowed operations keep still holds. -/
theorem Follows.run (h : p.Follows P l Q E φ) {s : σ} (hs : J s φ) :
    (∀ a s', p.run H s = (.ok a, s') → ∃ φ', Q a φ' ∧ J s' φ') ∧
      ∀ e s', p.run H s = (.error e, s') → ∃ φ', E e φ' ∧ J s' φ' :=
  (wp_iff_run p s).mp (h.wp hstep hs)

/-- It also holds wherever the program is stopped. -/
theorem Follows.stopAfter {isWrite : S.Op → Bool} (h : p.Follows P l Q E φ) (n : ℕ) {s : σ}
    (hs : J s φ) : ∃ φ', J (p.stopAfter H isWrite n s) φ' := by
  induction p generalizing n φ s with
  | done a => cases n <;> exact ⟨φ, hs⟩
  | raise e => cases n <;> exact ⟨φ, hs⟩
  | call o k ih =>
    obtain ⟨hr, hs'⟩ := hstep o s φ hs h.1
    rcases hw : isWrite o with - | -
    · cases n with
      | zero =>
        simp only [Program.stopAfter, hw]
        exact ih _ (h.2 _ hr) _ hs'
      | succ n =>
        simp only [Program.stopAfter, hw]
        exact ih _ (h.2 _ hr) _ hs'
    · cases n with
      | zero =>
        simp only [Program.stopAfter, hw]
        exact ⟨φ, hs⟩
      | succ n =>
        simp only [Program.stopAfter, hw]
        exact ih _ (h.2 _ hr) _ hs'

end Alone

end Program

/-! ### Pools -/

namespace Proc

/-- The phase of a process that still has something to do. -/
def phase (P : Protocol S L Φ) (p : Proc S L ε α) : Option Φ :=
  match p.rest with
  | .call _ _ => some (P.phase p.past)
  | _ => none

theorem phase_of_call {P : Protocol S L Φ} {l : L} {past : List (Event S)} {o : S.Op}
    {k : S.Ret o → Program S ε α} :
    phase P (⟨l, past, .call o k⟩ : Proc S L ε α) = some (P.phase past) := rfl

theorem phase_eq (P : Protocol S L Φ) (p : Proc S L ε α) :
    p.phase P = some (P.phase p.past) ∨ p.phase P = none := by
  obtain ⟨l, past, a | e | ⟨o, k⟩⟩ := p
  · exact .inr rfl
  · exact .inr rfl
  · exact .inl rfl

end Proc

namespace Pool

variable (P : Protocol S L Φ)

/-- What each process was started as and, unless it has ended, the phase it is in. -/
def phases (q : Pool S L σ ε α) : List (L × Option Φ) := q.procs.map fun p => (p.label, p.phase P)

/-- The guard that puts `cond` on every operation: `cond s ps i o` for the process `i`
about to perform `o`, in the shared state `s` and the phases `ps` of all. -/
def Phased (cond : σ → List (L × Option Φ) → ℕ → S.Op → Prop) (q : Pool S L σ ε α) :
    Act L → Prop
  | .start _ => True
  | .step i => ∀ l past o k, q.procs[i]? = some ⟨l, past, .call o k⟩ →
      cond q.shared (q.phases P) i o

/-- The pool after a list of actions, if every operation passes `check`. -/
def nextsPhased (code : L → Program S ε α) (H : Handler S σ)
    (check : σ → List (L × Option Φ) → ℕ → S.Op → Bool) :
    Pool S L σ ε α → List (Act L) → Option (Pool S L σ ε α)
  | q, [] => some q
  | q, .start l :: as =>
    nextsPhased code H check { q with procs := q.procs ++ [⟨l, [], code l⟩] } as
  | q, .step i :: as =>
    match q.procs[i]? with
    | some ⟨l, past, .call o k⟩ =>
      if check q.shared (q.phases P) i o then
        nextsPhased code H check (afterStep H q i l past o k) as
      else none
    | _ => none

variable {P} {code : L → Program S ε α} {H : Handler S σ}

theorem runs_of_nextsPhased {check : σ → List (L × Option Φ) → ℕ → S.Op → Bool}
    {q q' : Pool S L σ ε α} {as : List (Act L)} (h : nextsPhased P code H check q as = some q') :
    Runs code H (Phased P fun s ps i o => check s ps i o) q q' :=
  runs_of_checks (c := fun q i _ _ o => check q.shared (q.phases P) i o)
    (fun | _, [] => rfl | _, .start _ :: _ => rfl | _, .step _ :: _ => rfl) (fun _ _ => trivial)
    (fun _ _ hpass => hpass) h

theorem phases_append (q : Pool S L σ ε α) (p : Proc S L ε α) :
    phases P { q with procs := q.procs ++ [p] } = q.phases P ++ [(p.label, p.phase P)] := by
  simp [phases]

theorem phases_afterStep (q : Pool S L σ ε α) (i : ℕ) (l : L) (past : List (Event S)) (o : S.Op)
    (k : S.Ret o → Program S ε α) :
    (afterStep H q i l past o k).phases P = (q.phases P).set i
      (l, Proc.phase P ⟨l, past ++ [⟨o, (H o q.shared).1⟩], k (H o q.shared).1⟩) := by
  simp [phases, afterStep, List.map_set]

/-- **The protocol rule.**  If starting a process, performing an allowed operation and the
end of a process keep `J`, and operations get the answers their phase expects, then `J`
holds in every pool that programs following the protocol reach. -/
theorem Runs.follows {J : σ → List (L × Option Φ) → Prop}
    {cond : σ → List (L × Option Φ) → ℕ → S.Op → Prop}
    (hcode : ∀ l, (code l).Follows P l (fun _ _ => True) (fun _ _ => True) P.start)
    (hstart : ∀ s ps l, J s ps → J s (ps ++ [(l, some P.start)]))
    (hend : ∀ s ps i l, J s ps → J s (ps.set i (l, none)))
    (hstep : ∀ s ps i l φ o, J s ps → ps[i]? = some (l, some φ) → cond s ps i o →
      P.allowed l φ o → P.answers φ o (H o s).1 ∧
        J (H o s).2 (ps.set i (l, some (P.next φ ⟨o, (H o s).1⟩))))
    {s : σ} {trace : List (L × Event S)} {q' : Pool S L σ ε α} (hs : J s [])
    (h : Runs code H (Phased P cond) ⟨s, [], trace⟩ q') : J q'.shared (q'.phases P) := by
  suffices hall : J q'.shared (q'.phases P) ∧ ∀ p ∈ q'.procs,
      p.rest.Follows P p.label (fun _ _ => True) (fun _ _ => True) (P.phase p.past) from hall.1
  refine Runs.invariant (I := fun q => J q.shared (q.phases P) ∧ ∀ p ∈ q.procs,
    p.rest.Follows P p.label (fun _ _ => True) (fun _ _ => True) (P.phase p.past)) ?_ ?_
    ⟨hs, by simp⟩ h
  · rintro q l ⟨hJ, hprocs⟩ -
    refine ⟨?_, fun p hp => ?_⟩
    · have hJ' := hstart _ _ l hJ
      rw [phases_append]
      rcases Proc.phase_eq P (⟨l, [], code l⟩ : Proc S L ε α) with hphase | hphase
      · rw [hphase]
        exact hJ'
      · have hlast := hend _ _ (q.phases P).length l hJ'
        rw [List.set_append_right _ _ (Nat.le_refl _), Nat.sub_self] at hlast
        rw [hphase]
        exact hlast
    · rcases List.mem_append.mp hp with hp | hp
      · exact hprocs p hp
      · obtain rfl := List.mem_singleton.mp hp
        exact hcode l
  · rintro q i l past o k ⟨hJ, hprocs⟩ hg hi
    obtain ⟨ho, hk⟩ := hprocs _ (List.mem_of_getElem? hi)
    have hphase : (q.phases P)[i]? = some (l, some (P.phase past)) := by
      simp only [phases, List.getElem?_map, hi, Option.map_some, Proc.phase_of_call]
    obtain ⟨hr, hJ'⟩ := hstep _ _ i l _ o hJ hphase (hg l past o k hi) ho
    refine ⟨?_, fun p hp => ?_⟩
    · rw [phases_afterStep]
      rcases Proc.phase_eq P (⟨l, past ++ [⟨o, (H o q.shared).1⟩], k (H o q.shared).1⟩ :
        Proc S L ε α) with hphase' | hphase'
      · rw [hphase', Protocol.phase_append]
        exact hJ'
      · have hended := hend _ _ i l hJ'
        rw [List.set_set] at hended
        rw [hphase']
        exact hended
    · rcases List.mem_or_eq_of_mem_set hp with hp | rfl
      · exact hprocs p hp
      · simp only [Protocol.phase_append]
        exact hk _ hr

/-! ### Invariants of the shared state, of each process and of each pair -/

/-- `shared` holds of the state, `one` of each process that has not ended, `two` of any
two of them. -/
structure Joint (shared : σ → Prop) (one : σ → L → Φ → Prop) (two : σ → Φ → Φ → Prop) (s : σ)
    (ps : List (L × Option Φ)) : Prop where
  shared : shared s
  one : ∀ (i : ℕ) (l : L) (φ : Φ), ps[i]? = some (l, some φ) → one s l φ
  two : ∀ (i j : ℕ) (l l' : L) (φ ψ : Φ), i ≠ j → ps[i]? = some (l, some φ) →
    ps[j]? = some (l', some ψ) → two s φ ψ

namespace Joint

variable {shared : σ → Prop} {one : σ → L → Φ → Prop} {two : σ → Φ → Φ → Prop} {s s' : σ}
  {ps : List (L × Option Φ)}

theorem nil (h : shared s) : Joint shared one two s [] := ⟨h, by simp, by simp⟩

/-- A new process in a phase that has nothing to do with the others. -/
theorem start (h : Joint shared one two s ps) {l : L} {φ : Φ} (hone : one s l φ)
    (htwo : ∀ ψ, two s φ ψ ∧ two s ψ φ) : Joint shared one two s (ps ++ [(l, some φ)]) := by
  refine ⟨h.shared, fun i l' ψ hi => ?_, fun i j l' l'' ψ χ hij hi hj => ?_⟩
  · rw [List.getElem?_append] at hi
    split at hi
    · exact h.one i l' ψ hi
    · obtain ⟨rfl, rfl⟩ : l' = l ∧ ψ = φ := by
        have := List.mem_of_getElem? hi
        simpa using this
      exact hone
  · rw [List.getElem?_append] at hi hj
    split at hi
    · split at hj
      · exact h.two i j l' l'' ψ χ hij hi hj
      · obtain ⟨-, rfl⟩ : l'' = l ∧ χ = φ := by
          have := List.mem_of_getElem? hj
          simpa using this
        exact (htwo ψ).2
    · obtain ⟨-, rfl⟩ : l' = l ∧ ψ = φ := by
        have := List.mem_of_getElem? hi
        simpa using this
      exact (htwo χ).1

/-- The end of a process. -/
theorem stop (h : Joint shared one two s ps) (i : ℕ) (l : L) :
    Joint shared one two s (ps.set i (l, none)) := by
  have hget : ∀ {j : ℕ} {l' : L} {φ : Φ}, (ps.set i (l, none))[j]? = some (l', some φ) →
      ps[j]? = some (l', some φ) := by
    intro j l' φ hj
    rw [List.getElem?_set] at hj
    split at hj
    · split at hj <;> simp at hj
    · exact hj
  exact ⟨h.shared, fun j l' φ hj => h.one j l' φ (hget hj), fun j k l' l'' φ ψ hjk hj hk =>
    h.two j k l' l'' φ ψ hjk (hget hj) (hget hk)⟩

/-- A step of one process: what is left to show is what becomes of it, and that the others
and their pairs, with it and among themselves, are still in order.  Of a pair of others is
known how each was in order with the process before the step. -/
theorem stepOf (h : Joint shared one two s ps) {i : ℕ} {l : L} {φ φ' : Φ}
    (hi : ps[i]? = some (l, some φ)) (hshared : shared s') (hone : one s' l φ')
    (hothers : ∀ j l' ψ, j ≠ i → ps[j]? = some (l', some ψ) → one s l' ψ → two s φ ψ →
      two s ψ φ → one s' l' ψ ∧ two s' φ' ψ ∧ two s' ψ φ')
    (hrest : ∀ ψ χ, two s φ ψ → two s φ χ → two s ψ χ → two s' ψ χ) :
    Joint shared one two s' (ps.set i (l, some φ')) := by
  have hget : ∀ {j : ℕ} {l' : L} {ψ : Φ}, (ps.set i (l, some φ'))[j]? = some (l', some ψ) →
      (j = i ∧ l' = l ∧ ψ = φ') ∨ (j ≠ i ∧ ps[j]? = some (l', some ψ)) := by
    intro j l' ψ hj
    rw [List.getElem?_set] at hj
    split at hj
    next hij =>
      split at hj
      · simp only [Option.some.injEq, Prod.mk.injEq] at hj
        exact .inl ⟨hij.symm, hj.1.symm, hj.2.symm⟩
      · cases hj
    next hij => exact .inr ⟨Ne.symm hij, hj⟩
  have hother : ∀ {j : ℕ} {l' : L} {ψ : Φ}, j ≠ i → ps[j]? = some (l', some ψ) →
      one s' l' ψ ∧ two s' φ' ψ ∧ two s' ψ φ' := by
    intro j l' ψ hji hj
    exact hothers j l' ψ hji hj (h.one j l' ψ hj) (h.two i j l l' φ ψ hji.symm hi hj)
      (h.two j i l' l ψ φ hji hj hi)
  refine ⟨hshared, fun j l' ψ hj => ?_, fun j k l' l'' ψ χ hjk hj hk => ?_⟩
  · rcases hget hj with ⟨rfl, rfl, rfl⟩ | ⟨hji, hj⟩
    · exact hone
    · exact (hother hji hj).1
  · rcases hget hj with ⟨hji, -, rfl⟩ | ⟨hji, hj'⟩
    · rcases hget hk with ⟨hki, -, rfl⟩ | ⟨hki, hk'⟩
      · exact absurd (hji.trans hki.symm) hjk
      · exact (hother hki hk').2.1
    · rcases hget hk with ⟨hki, -, rfl⟩ | ⟨hki, hk'⟩
      · exact (hother hji hj').2.2
      · exact hrest ψ χ (h.two i j l l' φ ψ hji.symm hi hj') (h.two i k l l'' φ χ hki.symm hi hk')
          (h.two j k l' l'' ψ χ hjk hj' hk')

/-- A step that keeps every pair of others in order by itself. -/
theorem step (h : Joint shared one two s ps) {i : ℕ} {l : L} {φ φ' : Φ}
    (hi : ps[i]? = some (l, some φ)) (hshared : shared s') (hone : one s' l φ')
    (hothers : ∀ j l' ψ, j ≠ i → ps[j]? = some (l', some ψ) → one s l' ψ → two s φ ψ →
      two s ψ φ → one s' l' ψ ∧ two s' φ' ψ ∧ two s' ψ φ')
    (hrest : ∀ ψ χ, two s ψ χ → two s' ψ χ) :
    Joint shared one two s' (ps.set i (l, some φ')) :=
  h.stepOf hi hshared hone hothers fun ψ χ _ _ => hrest ψ χ

end Joint

end Pool

-- from here on `Follows` is used through its rules
attribute [irreducible] Program.Follows

end Interaction
