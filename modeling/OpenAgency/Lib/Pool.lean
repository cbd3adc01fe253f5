/-
Lib/Pool.lean

Interleaved programs.  A pool is a shared state together with the processes
that have been started on it.  Each process is a program with the operations it
has performed so far; a step performs one operation of one process, so a run of
the pool is an arbitrary interleaving, and between two operations of a process
the others may have done anything.  The trace lists every operation performed,
oldest first, under the label of the process that performed it.

`Runs guard` are the runs in which every action meets `guard`, and `Every cond`
is the guard that puts a condition on each operation.  Two rules prove things
about them.  `Runs.invariant` is induction on the run.  `Runs.safe` is the
rely-guarantee rule: a `Contract` says what the operations of other processes
may do to the shared state (`rely`), what a process must ensure of each
operation it performs (`guar`) and of its outcome (`post`); `Safe` is the proof
obligation of one program alone, and the rule says that programs that are safe
alone are safe in every interleaving.
-/
import Mathlib.Logic.Relation
import OpenAgency.Lib.Semantics

namespace Interaction

/-- One operation performed, with the answer it got. -/
structure Event (S : Signature) where
  op : S.Op
  ret : S.Ret op

/-- A process: what it was started as, the operations it has performed, oldest
first, and what it still has to do. -/
structure Proc (S : Signature) (L ε α : Type) where
  label : L
  past : List (Event S)
  rest : Program S ε α

/-- A shared state, the processes started on it and the operations performed. -/
structure Pool (S : Signature) (L σ ε α : Type) where
  shared : σ
  procs : List (Proc S L ε α) := []
  trace : List (L × Event S) := []

/-- Start a process, or let process `i` perform its next operation. -/
inductive Act (L : Type) where
  | start (l : L)
  | step (i : ℕ)

namespace Pool

variable {S : Signature} {L σ ε α : Type}
variable (code : L → Program S ε α) (H : Handler S σ)

/-- The pool after one action, if the action is possible. -/
def next (q : Pool S L σ ε α) : Act L → Option (Pool S L σ ε α)
  | .start l => some { q with procs := q.procs ++ [⟨l, [], code l⟩] }
  | .step i =>
    match q.procs[i]? with
    | some ⟨l, past, .call o k⟩ =>
      some {
        shared := (H o q.shared).2
        procs := q.procs.set i ⟨l, past ++ [⟨o, (H o q.shared).1⟩], k (H o q.shared).1⟩
        trace := q.trace ++ [(l, ⟨o, (H o q.shared).1⟩)] }
    | _ => none

/-- The pool after a list of actions. -/
def nexts : Pool S L σ ε α → List (Act L) → Option (Pool S L σ ε α)
  | q, [] => some q
  | q, a :: as => (next code H q a).bind fun q' => nexts q' as

/-- The pool after process `i`, about to perform `o` and continue with `k`,
performs it. -/
def afterStep (q : Pool S L σ ε α) (i : ℕ) (l : L) (past : List (Event S)) (o : S.Op)
    (k : S.Ret o → Program S ε α) : Pool S L σ ε α where
  shared := (H o q.shared).2
  procs := q.procs.set i ⟨l, past ++ [⟨o, (H o q.shared).1⟩], k (H o q.shared).1⟩
  trace := q.trace ++ [(l, ⟨o, (H o q.shared).1⟩)]

variable {code H}

variable {q q' : Pool S L σ ε α}

/-- Everything an action can do. -/
theorem next_cases {a : Act L} (h : next code H q a = some q') :
    (∃ l, a = .start l ∧ q' = { q with procs := q.procs ++ [⟨l, [], code l⟩] }) ∨
    (∃ i l past o k, a = .step i ∧ q.procs[i]? = some ⟨l, past, .call o k⟩ ∧
      q' = afterStep H q i l past o k) := by
  cases a with
  | start l => exact .inl ⟨l, rfl, (Option.some.inj h).symm⟩
  | step i =>
    rcases hp : q.procs[i]? with - | ⟨l, past, a | e | ⟨o, k⟩⟩
    · simp [next, hp] at h
    · simp [next, hp] at h
    · simp [next, hp] at h
    · refine .inr ⟨i, l, past, o, k, rfl, hp, ?_⟩
      simp only [next, hp] at h
      exact (Option.some.inj h).symm

variable {past : List (Event S)} {q : Pool S L σ ε α}

theorem next_step {i : ℕ} {l : L} {o : S.Op} {k : S.Ret o → Program S ε α}
    (h : q.procs[i]? = some ⟨l, past, .call o k⟩) :
    next code H q (.step i) = some (afterStep H q i l past o k) := by
  simp [next, h, afterStep]

/-! ### Guarded runs -/

variable (code H)

/-- One action that meets `guard`. -/
def Moves (guard : Pool S L σ ε α → Act L → Prop) (q q' : Pool S L σ ε α) : Prop :=
  ∃ a, guard q a ∧ next code H q a = some q'

/-- A run in which every action meets `guard`. -/
abbrev Runs (guard : Pool S L σ ε α → Act L → Prop) :
    Pool S L σ ε α → Pool S L σ ε α → Prop :=
  Relation.ReflTransGen (Moves code H guard)

variable {code H} {guard : Pool S L σ ε α → Act L → Prop}

variable {as : List (Act L)}

theorem runs_of_nexts (h : nexts code H q as = some q') : Runs code H (fun _ _ => True) q q' := by
  induction as generalizing q with
  | nil =>
    cases h
    exact .refl
  | cons a as ih =>
    rcases hn : next code H q a with - | q₁
    · simp [nexts, hn] at h
    · simp only [nexts, hn, Option.bind_some] at h
      exact Relation.ReflTransGen.head ⟨a, trivial, hn⟩ (ih h)

/-- The processes that actions start. -/
def started (as : List (Act L)) : List L :=
  as.filterMap fun
    | .start l => some l
    | .step _ => none

theorem labels_of_next {a : Act L} (h : next code H q a = some q') :
    q'.procs.map (·.label) = q.procs.map (·.label) ++ started [a] := by
  obtain ⟨l, rfl, rfl⟩ | ⟨i, l, past, o, k, rfl, hi, rfl⟩ := next_cases h
  · simp [started]
  · have hlabel : (q.procs.map (·.label))[i]? = some l := by
      rw [List.getElem?_map, hi, Option.map_some]
    obtain ⟨hlt, rfl⟩ := List.getElem?_eq_some_iff.mp hlabel
    simp only [afterStep, List.map_set, started, List.filterMap_cons_none, List.filterMap_nil,
      List.append_nil]
    exact List.set_getElem_self hlt

/-- A process is what it was started as. -/
theorem labels_of_nexts (h : nexts code H q as = some q') :
    q'.procs.map (·.label) = q.procs.map (·.label) ++ started as := by
  induction as generalizing q with
  | nil =>
    cases h
    exact (List.append_nil _).symm
  | cons a as ih =>
    rcases hn : next code H q a with - | q₁
    · simp [nexts, hn] at h
    · simp only [nexts, hn, Option.bind_some] at h
      rw [ih h, labels_of_next hn, List.append_assoc]
      cases a <;> rfl

/-- A function that follows a list of actions and checks every operation, where what passes
meets `guard`. -/
theorem runs_of_checks {c : Pool S L σ ε α → ℕ → L → List (Event S) → S.Op → Bool}
    {f : Pool S L σ ε α → List (Act L) → Option (Pool S L σ ε α)}
    (hf : ∀ q as, f q as = match as with
      | [] => some q
      | .start l :: as => f { q with procs := q.procs ++ [⟨l, [], code l⟩] } as
      | .step i :: as =>
        match q.procs[i]? with
        | some ⟨l, past, .call o k⟩ =>
          if c q i l past o then f (afterStep H q i l past o k) as else none
        | _ => none)
    (hstart : ∀ q l, guard q (.start l))
    (hcheck : ∀ q i, (∀ l past o k, q.procs[i]? = some ⟨l, past, .call o k⟩ → c q i l past o) →
      guard q (.step i))
    (h : f q as = some q') : Runs code H guard q q' := by
  induction as generalizing q with
  | nil =>
    cases (hf q []).symm.trans h
    exact .refl
  | cons a as ih =>
    rw [hf] at h
    cases a with
    | start l => exact Relation.ReflTransGen.head ⟨.start l, hstart q l, rfl⟩ (ih h)
    | step i =>
      rcases hp : q.procs[i]? with - | ⟨l, past, a | e | ⟨o, k⟩⟩
      · simp [hp] at h
      · simp [hp] at h
      · simp [hp] at h
      · simp only [hp] at h
        split at h
        next hpass =>
          refine Relation.ReflTransGen.head ⟨.step i, hcheck q i ?_, next_step hp⟩ (ih h)
          intro l' past' o' k' hp'
          cases hp.symm.trans hp'
          exact hpass
        · cases h

/-- The guard that puts `cond` on every operation, at the time it is performed. -/
def Every (cond : L → List (Event S) → S.Op → σ → Prop) (q : Pool S L σ ε α) : Act L → Prop
  | .start _ => True
  | .step i => ∀ l past o k, q.procs[i]? = some ⟨l, past, .call o k⟩ → cond l past o q.shared

/-- The pool after a list of actions, if every operation passes `check`. -/
def nextsIf (code : L → Program S ε α) (H : Handler S σ)
    (check : L → List (Event S) → S.Op → σ → Bool) :
    Pool S L σ ε α → List (Act L) → Option (Pool S L σ ε α)
  | q, [] => some q
  | q, .start l :: as => nextsIf code H check { q with procs := q.procs ++ [⟨l, [], code l⟩] } as
  | q, .step i :: as =>
    match q.procs[i]? with
    | some ⟨l, past, .call o k⟩ =>
      if check l past o q.shared then nextsIf code H check (afterStep H q i l past o k) as
      else none
    | _ => none

theorem runs_of_nextsIf {check : L → List (Event S) → S.Op → σ → Bool}
    (h : nextsIf code H check q as = some q') :
    Runs code H (Every fun l past o s => check l past o s) q q' :=
  runs_of_checks (c := fun q _ l past o => check l past o q.shared)
    (fun | _, [] => rfl | _, .start _ :: _ => rfl | _, .step _ :: _ => rfl) (fun _ _ => trivial)
    (fun _ _ hpass => hpass) h

variable {I : Pool S L σ ε α → Prop}

/-- Induction on a run: what the guarded starts and steps keep holds of every
pool reached. -/
theorem Runs.invariant
    (hstart : ∀ q l, I q → guard q (.start l) → I { q with procs := q.procs ++ [⟨l, [], code l⟩] })
    (hstep : ∀ q i l past o k, I q → guard q (.step i) →
      q.procs[i]? = some ⟨l, past, .call o k⟩ → I (afterStep H q i l past o k)) (hq : I q)
    (h : Runs code H guard q q') : I q' := by
  induction h with
  | refl => exact hq
  | tail _ hm ih =>
    obtain ⟨a, ha, hn⟩ := hm
    rcases next_cases hn with ⟨l, rfl, rfl⟩ | ⟨i, l, past, o, k, rfl, hp, rfl⟩
    · exact hstart _ l ih ha
    · exact hstep _ i l past o k ih ha hp

/-! ### Rely and guarantee -/

variable (H)

/-- What the processes of a pool promise each other.  `inv` holds of the shared
state throughout, `rely` is what any number of operations of other processes
may do to it.  Under the condition `cond`, each operation must meet `guar`, and
an operation that does keeps `inv` and stays within `rely`. -/
structure Contract (S : Signature) (L σ ε α : Type) (H : Handler S σ) where
  inv : σ → Prop
  rely : σ → σ → Prop
  cond : L → List (Event S) → S.Op → σ → Prop
  guar : L → List (Event S) → S.Op → σ → Prop
  post : L → List (Event S) → Except ε α → σ → Prop
  rely_refl : ∀ s, rely s s
  rely_trans : ∀ {s₁ s₂ s₃}, rely s₁ s₂ → rely s₂ s₃ → rely s₁ s₃
  inv_step : ∀ {l past o s}, inv s → cond l past o s → guar l past o s → inv (H o s).2
  rely_step : ∀ {l past o s}, inv s → cond l past o s → guar l past o s → rely s (H o s).2

variable {H}

/-- The obligation of a program started as `l` that has performed `past`, in a
shared state that the other processes may still move within `rely`. -/
def Safe (C : Contract S L σ ε α H) (l : L) :
    List (Event S) → Program S ε α → σ → Prop
  | past, .done a, s => ∀ s', C.rely s s' → C.inv s' → C.post l past (.ok a) s'
  | past, .raise e, s => ∀ s', C.rely s s' → C.inv s' → C.post l past (.error e) s'
  | past, .call o k, s => ∀ s', C.rely s s' → C.inv s' → C.cond l past o s' →
      C.guar l past o s' ∧ Safe C l (past ++ [⟨o, (H o s').1⟩]) (k (H o s').1) (H o s').2

variable {C : Contract S L σ ε α H}

/-- Safety is stable under what the other processes do. -/
theorem Safe.of_rely {l : L} {p : Program S ε α} {s s' : σ} (h : Safe C l past p s)
    (hr : C.rely s s') :
    Safe C l past p s' := by
  cases p with
  | done a => exact fun s'' h' hi => h s'' (C.rely_trans hr h') hi
  | raise e => exact fun s'' h' hi => h s'' (C.rely_trans hr h') hi
  | call o k => exact fun s'' h' hi hc => h s'' (C.rely_trans hr h') hi hc

/-- Every process of the pool is safe in the shared state, and `inv` holds. -/
def AllSafe (C : Contract S L σ ε α H) (q : Pool S L σ ε α) : Prop :=
  C.inv q.shared ∧ ∀ p ∈ q.procs, Safe C p.label p.past p.rest q.shared

/-- Starting a process that is safe alone keeps the pool safe. -/
theorem AllSafe.start (h : AllSafe C q) {l : L} (hl : Safe C l [] (code l) q.shared) :
    AllSafe C { q with procs := q.procs ++ [⟨l, [], code l⟩] } := by
  obtain ⟨hinv, hsafe⟩ := h
  refine ⟨hinv, fun p hp => ?_⟩
  rcases List.mem_append.mp hp with hp | hp
  · exact hsafe p hp
  · obtain rfl := List.mem_singleton.mp hp
    exact hl

/-- A step of a safe pool meets the guarantee and leaves the pool safe. -/
theorem AllSafe.step (h : AllSafe C q) {i : ℕ} {l : L} {o : S.Op} {k : S.Ret o → Program S ε α}
    (hi : q.procs[i]? = some ⟨l, past, .call o k⟩) (hc : C.cond l past o q.shared) :
    C.guar l past o q.shared ∧ AllSafe C (afterStep H q i l past o k) := by
  obtain ⟨hinv, hsafe⟩ := h
  obtain ⟨hguar, hrest⟩ := hsafe _ (List.mem_of_getElem? hi) q.shared (C.rely_refl _) hinv hc
  refine ⟨hguar, C.inv_step hinv hc hguar, fun p hp => ?_⟩
  rcases List.mem_or_eq_of_mem_set hp with hp | rfl
  · exact (hsafe p hp).of_rely (C.rely_step hinv hc hguar)
  · exact hrest

/-- Induction on a run of safe programs: the step may use what the contract
guarantees of the operation. -/
theorem Runs.invariant_of_safe (hcode : ∀ l s, C.inv s → Safe C l [] (code l) s)
    (hstart : ∀ q l, I q → I { q with procs := q.procs ++ [⟨l, [], code l⟩] })
    (hstep : ∀ q i l past o k, I q → AllSafe C q → q.procs[i]? = some ⟨l, past, .call o k⟩ →
      C.cond l past o q.shared → C.guar l past o q.shared → I (afterStep H q i l past o k))
    (hq : AllSafe C q) (hI : I q) (h : Runs code H (Every C.cond) q q') : I q' := by
  refine (Runs.invariant (I := fun q => AllSafe C q ∧ I q) ?_ ?_ ⟨hq, hI⟩ h).2
  · rintro q l ⟨hs, hI⟩ -
    exact ⟨hs.start (hcode l q.shared hs.1), hstart q l hI⟩
  · rintro q i l past o k ⟨hs, hI⟩ hg hi
    have hc := hg l past o k hi
    obtain ⟨hguar, hs'⟩ := hs.step hi hc
    exact ⟨hs', hstep q i l past o k hI hs hi hc hguar⟩

/-- Nothing has been started: the pool is safe. -/
theorem allSafe_nil {s : σ} (h : C.inv s) (trace : List (L × Event S)) : AllSafe C ⟨s, [], trace⟩ :=
  ⟨h, fun _ hp => absurd hp List.not_mem_nil⟩

end Pool

end Interaction
