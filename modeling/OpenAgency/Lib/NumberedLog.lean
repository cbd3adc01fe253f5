/-
Lib/NumberedLog.lean

Logs that number their entries and are read by cursor.  A log is appended to and
deleted from, and a reader asks for the entries numbered above the largest number
it has seen.  `Exact` says of one reader, polling at the moments it chooses, that
every poll answers the entries appended and not deleted since the one before.

`Lawful` is what an implementation has to show.  It leaves open which number comes
next, up to two bounds: the number is above every entry that is there, and it grows
by at most one.  Under these laws three things are the same: every reader is served
exactly, no number is given twice, and every append finds the next number above all
numbers given so far (`exact_iff`, `nodup_iff`).
-/
import Mathlib.Data.List.Nodup
import Mathlib.Order.MinMax

/-- A log: what can be appended is an `ι`, an entry is an `ε`, deleted under a `κ`.
A deletion answers whether it has deleted. -/
structure NumberedLog (σ ι ε κ : Type) where
  append : ι → σ → Option ε × σ
  delete : κ → σ → Bool × σ
  after : ℕ → σ → List ε
  number : ε → ℕ
  key : ε → κ

namespace NumberedLog

open List

variable {σ ι ε κ : Type}

/-! ### Runs and readers -/

inductive Call (ι κ : Type) where
  | append (e : ι)
  | delete (k : κ)
  | after (n : ℕ)

/-- What happens to a log that one reader follows. -/
inductive Step (ι κ : Type) where
  | call (c : Call ι κ)
  | poll

/-- The log with its history and with the place of its reader: every entry appended,
oldest first, those appended and not deleted since the last poll, and the largest
number the reader has seen. -/
structure Session (σ ε : Type) where
  store : σ
  appended : List ε := []
  unseen : List ε := []
  cursor : ℕ := 0

/-- The calls among the steps. -/
def calls : List (Step ι κ) → List (Call ι κ)
  | [] => []
  | .call c :: steps => c :: calls steps
  | .poll :: steps => calls steps

variable (L : NumberedLog σ ι ε κ)

def Session.call [DecidableEq κ] (q : Session σ ε) : Call ι κ → Session σ ε
  | .append e =>
    match L.append e q.store with
    | (some e', s) =>
      { q with store := s, appended := q.appended ++ [e'], unseen := q.unseen ++ [e'] }
    | (none, s) => { q with store := s }
  | .delete k =>
    match L.delete k q.store with
    | (true, s) => { q with store := s, unseen := q.unseen.filter fun e => L.key e ≠ k }
    | (false, s) => { q with store := s }
  | .after _ => q

/-- What the reader is answered. -/
def Session.answer (q : Session σ ε) : List ε := L.after q.cursor q.store

/-- The reader moves on to the largest number it has seen. -/
def Session.poll (q : Session σ ε) : Session σ ε :=
  { q with cursor := (q.answer L).foldl (fun n e => max n (L.number e)) q.cursor, unseen := [] }

variable [DecidableEq κ]

/-- Every poll answers exactly what was appended and not deleted since the last one. -/
def Exact : Session σ ε → List (Step ι κ) → Prop
  | _, [] => True
  | q, .call c :: steps => Exact (q.call L c) steps
  | q, .poll :: steps => q.answer L = q.unseen ∧ Exact (q.poll L) steps

/-- The log after a list of calls. -/
def run (q : Session σ ε) (cs : List (Call ι κ)) : Session σ ε := cs.foldl (Session.call L) q

/-- `P` holds at every call, of the session as the call finds it. -/
def Always (P : Session σ ε → Call ι κ → Prop) : Session σ ε → List (Call ι κ) → Prop
  | _, [] => True
  | q, c :: cs => P q c ∧ Always P (q.call L c) cs

/-- A call that does not give a number at or below one given before. -/
def Fresh (q : Session σ ε) (c : Call ι κ) : Prop :=
  ∀ e e' s, c = .append e → L.append e q.store = (some e', s) →
    ∀ a ∈ q.appended, L.number a < L.number e'

/-- An append that is accepted is made while the newest entry is still in the log. -/
def KeepsNewest (accepts : ι → σ → Prop) (entries : σ → List ε) (q : Session σ ε)
    (c : Call ι κ) : Prop :=
  ∀ e, c = .append e → accepts e q.store → ∀ a ∈ q.appended.getLast?, a ∈ entries q.store

/-! ### What an implementation shows -/

/-- The laws of a log whose entries are `entries` and whose next number is `next`, in
the states that meet `I`. -/
structure Lawful (entries : σ → List ε) (next : σ → ℕ) (I : σ → Prop) : Prop where
  after_eq : ∀ n s, I s → L.after n s = (entries s).filter fun e => n < L.number e
  lt_next : ∀ s, I s → ∀ e ∈ entries s, L.number e < next s
  next_pos : ∀ s, I s → 0 < next s
  append_some : ∀ e e' s s', I s → L.append e s = (some e', s') →
    I s' ∧ entries s' = entries s ++ [e'] ∧ L.number e' = next s ∧ next s' = next s + 1
  append_none : ∀ e s s', I s → L.append e s = (none, s') → s' = s
  delete_true : ∀ k s s', I s → L.delete k s = (true, s') →
    I s' ∧ entries s' = (entries s).filter (fun e => L.key e ≠ k) ∧ next s' ≤ next s
  delete_false : ∀ k s s', I s → L.delete k s = (false, s') → s' = s

/-- A log nothing was ever appended to. -/
structure Blank (entries : σ → List ε) (next : σ → ℕ) (I : σ → Prop) (s : σ) : Prop where
  inv : I s
  entries_eq : entries s = []
  next_eq : next s = 1

variable {L} {entries : σ → List ε} {next : σ → ℕ} {I : σ → Prop}

variable {q : Session σ ε}

/-- **What a call can do.**  It appends one entry under the next number, deletes the
entries under one key, or leaves the session alone. -/
theorem Lawful.call_cases (hL : L.Lawful entries next I) (hI : I q.store) (c : Call ι κ) :
    (∃ e e' s, c = .append e ∧ L.append e q.store = (some e', s) ∧ I s ∧
      entries s = entries q.store ++ [e'] ∧ L.number e' = next q.store ∧
      next s = next q.store + 1 ∧
      q.call L c =
        { q with store := s, appended := q.appended ++ [e'], unseen := q.unseen ++ [e'] }) ∨
    (∃ k s, c = .delete k ∧ I s ∧
      entries s = (entries q.store).filter (fun e => L.key e ≠ k) ∧
      next s ≤ next q.store ∧ L.delete k q.store = (true, s) ∧
      q.call L c = { q with store := s, unseen := q.unseen.filter fun e => L.key e ≠ k }) ∨
    ((∀ e e' s, c = .append e → L.append e q.store ≠ (some e', s)) ∧ q.call L c = q) := by
  cases c with
  | append e =>
    rcases h : L.append e q.store with ⟨- | e', s⟩
    · refine .inr (.inr ⟨fun e₁ e' s' he => ?_, ?_⟩)
      · cases he
        simp [h]
      · obtain rfl := hL.append_none e q.store s hI h
        simp only [Session.call, h]
    · obtain ⟨hs, hentries, hnumber, hnext⟩ := hL.append_some e e' q.store s hI h
      refine .inl ⟨e, e', s, rfl, h, hs, hentries, hnumber, hnext, ?_⟩
      simp only [Session.call, h]
  | delete k =>
    rcases h : L.delete k q.store with ⟨- | -, s⟩
    · obtain rfl := hL.delete_false k q.store s hI h
      refine .inr (.inr ⟨fun e e' s' he => by simp at he, ?_⟩)
      simp only [Session.call, h]
    · obtain ⟨hs, hentries, hnext⟩ := hL.delete_true k q.store s hI h
      refine .inr (.inl ⟨k, s, rfl, hs, hentries, hnext, h, ?_⟩)
      simp only [Session.call, h]
  | after n => exact .inr (.inr ⟨fun e e' s he => by simp at he, rfl⟩)

/-! ### The cursor -/

theorem le_foldl_max (number : ε → ℕ) (es : List ε) (n : ℕ) :
    n ≤ es.foldl (fun n e => max n (number e)) n ∧
      ∀ e ∈ es, number e ≤ es.foldl (fun n e => max n (number e)) n := by
  induction es generalizing n with
  | nil => simp
  | cons e es ih =>
    obtain ⟨hn, hes⟩ := ih (max n (number e))
    refine ⟨le_trans (le_max_left _ _) hn, fun a ha => ?_⟩
    rcases List.mem_cons.mp ha with rfl | ha
    · exact le_trans (le_max_right _ _) hn
    · exact hes a ha

theorem foldl_max_mem (number : ε → ℕ) (es : List ε) (n : ℕ) :
    es.foldl (fun n e => max n (number e)) n = n ∨
      ∃ e ∈ es, number e = es.foldl (fun n e => max n (number e)) n := by
  induction es generalizing n with
  | nil => exact .inl rfl
  | cons e es ih =>
    rcases ih (max n (number e)) with h | ⟨a, ha, h⟩
    · rcases max_cases n (number e) with ⟨hm, -⟩ | ⟨hm, -⟩
      · exact .inl (h.trans hm)
      · exact .inr ⟨e, mem_cons_self, (h.trans hm).symm⟩
    · exact .inr ⟨a, mem_cons_of_mem e ha, h⟩

/-! ### Readers of a log that never gives a low number -/

/-- A reader that has missed nothing: what it has not seen is what stands above its
cursor, and it has not seen past the numbers given. -/
structure Follows (L : NumberedLog σ ι ε κ) (entries : σ → List ε) (I : σ → Prop)
    (q : Session σ ε) : Prop where
  inv : I q.store
  sub : ∀ e ∈ entries q.store, e ∈ q.appended
  unseen_eq : q.unseen = (entries q.store).filter fun e => q.cursor < L.number e
  cursor_given : q.cursor = 0 ∨ ∃ a ∈ q.appended, L.number a = q.cursor

variable {c : Call ι κ}

theorem Follows.call (hL : L.Lawful entries next I) (h : Follows L entries I q) (hc : L.Fresh q c) :
    Follows L entries I (q.call L c) := by
  rcases hL.call_cases h.inv c with ⟨e, e', s, rfl, he, hs, hentries, hnumber, -, hq⟩ |
    ⟨k, s, rfl, hs, hentries, -, -, hq⟩ | ⟨-, hq⟩
  · -- the new entry stands above the cursor, which is a number given before
    have hlt : q.cursor < L.number e' := by
      rcases h.cursor_given with h0 | ⟨a, ha, hcur⟩
      · have hpos := hL.next_pos q.store h.inv
        omega
      · have := hc e e' s rfl he a ha
        omega
    rw [hq]
    refine ⟨hs, fun a ha => ?_, ?_, ?_⟩
    · rw [hentries] at ha
      rcases List.mem_append.mp ha with ha | ha
      · exact mem_append_left _ (h.sub a ha)
      · exact mem_append_right _ ha
    · show q.unseen ++ [e'] = _
      rw [hentries, filter_append, ← h.unseen_eq]
      simp [hlt]
    · refine h.cursor_given.imp id ?_
      rintro ⟨a, ha, hcur⟩
      exact ⟨a, mem_append_left _ ha, hcur⟩
  · rw [hq]
    refine ⟨hs, fun a ha => ?_, ?_, h.cursor_given⟩
    · rw [hentries] at ha
      exact h.sub a (mem_of_mem_filter ha)
    · show q.unseen.filter _ = _
      rw [hentries, h.unseen_eq, filter_filter, filter_filter]
      simp only [Bool.and_comm]
  · rw [hq]
    exact h

theorem Follows.answer_eq (hL : L.Lawful entries next I) (h : Follows L entries I q) :
    q.answer L = q.unseen := by
  rw [Session.answer, hL.after_eq _ _ h.inv, h.unseen_eq]

theorem Follows.poll (hL : L.Lawful entries next I) (h : Follows L entries I q) :
    Follows L entries I (q.poll L) := by
  obtain ⟨hcur, hle⟩ := le_foldl_max L.number (q.answer L) q.cursor
  refine ⟨h.inv, h.sub, ?_, ?_⟩
  · -- an entry above the new cursor would have been answered
    refine (List.filter_eq_nil_iff.mpr fun e he hlt => ?_).symm
    have hlt : (q.answer L).foldl (fun n e => max n (L.number e)) q.cursor < L.number e := by
      exact of_decide_eq_true hlt
    have hmem : e ∈ q.answer L := by
      rw [Session.answer, hL.after_eq _ _ h.inv]
      exact List.mem_filter.mpr ⟨he, by simpa using lt_of_le_of_lt hcur hlt⟩
    exact absurd (hle e hmem) (not_le.mpr hlt)
  · rcases foldl_max_mem L.number (q.answer L) q.cursor with heq | ⟨e, he, heq⟩
    · rw [Session.poll, heq]
      exact h.cursor_given
    · refine .inr ⟨e, h.sub e ?_, heq⟩
      rw [Session.answer, hL.after_eq _ _ h.inv] at he
      exact mem_of_mem_filter he

omit [DecidableEq κ] in
theorem Blank.follows {s : σ} (h : Blank entries next I s) : Follows L entries I ⟨s, [], [], 0⟩ where
  inv := h.inv
  sub := by simp [h.entries_eq]
  unseen_eq := by simp [h.entries_eq]
  cursor_given := .inl rfl

/-- Whether a call is fresh does not depend on the reader. -/
theorem always_fresh_congr (q q' : Session σ ε) (hstore : q.store = q'.store)
    (happended : q.appended = q'.appended) (cs : List (Call ι κ)) :
    L.Always L.Fresh q cs → L.Always L.Fresh q' cs := by
  induction cs generalizing q q' with
  | nil => exact id
  | cons c cs ih =>
    rintro ⟨hc, hcs⟩
    refine ⟨?_, ih _ _ ?_ ?_ hcs⟩
    · intro e e' s he ha
      rw [← happended]
      exact hc e e' s he (hstore ▸ ha)
    all_goals
      cases c with
      | append e =>
        simp only [Session.call, hstore, happended]
        split <;> rfl
      | delete k =>
        simp only [Session.call, hstore, happended]
        split <;> rfl
      | after n => assumption

/-- If every append gives a number above all before it, every reader is served exactly. -/
theorem exact_of_fresh (hL : L.Lawful entries next I) (h : Follows L entries I q)
    (steps : List (Step ι κ)) (hfresh : L.Always L.Fresh q (calls steps)) : L.Exact q steps := by
  induction steps generalizing q with
  | nil => trivial
  | cons step steps ih =>
    cases step with
    | call c => exact ih (h.call hL hfresh.1) hfresh.2
    | poll =>
      have hsame : L.Always L.Fresh (q.poll L) (calls steps) :=
        always_fresh_congr q (q.poll L) rfl rfl (calls steps) hfresh
      exact ⟨h.answer_eq hL, ih (h.poll hL) hsame⟩

/-! ### A reader that finds a low number -/

/-- Poll after every call. -/
def eager (cs : List (Call ι κ)) : List (Step ι κ) := cs.flatMap fun c => [.call c, .poll]

omit [DecidableEq κ] in
@[simp] theorem calls_eager (cs : List (Call ι κ)) : calls (eager cs) = cs := by
  induction cs with
  | nil => rfl
  | cons c cs ih => exact congrArg (c :: ·) ih

/-- A reader that has just polled. -/
structure CaughtUp (L : NumberedLog σ ι ε κ) (I : σ → Prop) (q : Session σ ε) : Prop where
  inv : I q.store
  unseen_eq : q.unseen = []
  le_cursor : ∀ a ∈ q.appended, L.number a ≤ q.cursor

theorem cursor_call (q : Session σ ε) (c : Call ι κ) : (q.call L c).cursor = q.cursor := by
  cases c with
  | append e =>
    simp only [Session.call]
    split <;> rfl
  | delete k =>
    simp only [Session.call]
    split <;> rfl
  | after n => rfl

/-- A reader that is caught up and is answered the entry just appended has seen no
number as large, and is caught up again. -/
theorem CaughtUp.call (hL : L.Lawful entries next I) (h : CaughtUp L I q)
    (hans : (q.call L c).answer L = (q.call L c).unseen) :
    L.Fresh q c ∧ CaughtUp L I ((q.call L c).poll L) := by
  have hcursor := (le_foldl_max L.number ((q.call L c).answer L) (q.call L c).cursor).1
  have hcall : (q.call L c).cursor = q.cursor := cursor_call q c
  rcases hL.call_cases h.inv c with ⟨e, e', s, rfl, he, hs, hentries, hnumber, -, hq⟩ |
    ⟨k, s, rfl, hs, hentries, -, -, hq⟩ | ⟨hno, hq⟩
  · have hmem : e' ∈ (q.call L (.append e)).answer L := by
      rw [hans, hq]
      simp
    have hlt : q.cursor < L.number e' := by
      rw [hq, Session.answer, hL.after_eq _ _ hs] at hmem
      simpa using (List.mem_filter.mp hmem).2
    refine ⟨fun e₁ e₂ s₂ h₁ h₂ a ha => ?_, ?_, rfl, fun a ha => ?_⟩
    · cases h₁
      rw [h₂] at he
      obtain rfl : e₂ = e' := by simpa using (Prod.mk.inj he).1
      exact lt_of_le_of_lt (h.le_cursor a ha) hlt
    · rw [hq]
      exact hs
    · rw [hq] at ha
      rcases List.mem_append.mp ha with ha | ha
      · exact le_trans (h.le_cursor a ha) (hcall ▸ hcursor)
      · obtain rfl := List.mem_singleton.mp ha
        exact (le_foldl_max L.number _ _).2 a hmem
  · refine ⟨fun e e' s h₁ => by simp at h₁, ?_, rfl, fun a ha => ?_⟩
    · rw [hq]
      exact hs
    · exact le_trans (h.le_cursor a (by simpa [hq, Session.poll] using ha)) (hcall ▸ hcursor)
  · refine ⟨fun e e' s h₁ h₂ => absurd h₂ (hno e e' s h₁), ?_, rfl, fun a ha => ?_⟩
    · rw [hq]
      exact h.inv
    · exact le_trans (h.le_cursor a (by simpa [hq, Session.poll] using ha)) (hcall ▸ hcursor)

theorem fresh_of_exact_eager (hL : L.Lawful entries next I) (h : CaughtUp L I q)
    (cs : List (Call ι κ)) (hexact : L.Exact q (eager cs)) :
    L.Always L.Fresh q cs := by
  induction cs generalizing q with
  | nil => trivial
  | cons c cs ih =>
    obtain ⟨hans, hrest⟩ : (q.call L c).answer L = (q.call L c).unseen ∧
      L.Exact ((q.call L c).poll L) (eager cs) := hexact
    obtain ⟨hc, hnext⟩ := h.call hL hans
    have hsame : L.Always L.Fresh (q.call L c) cs :=
      always_fresh_congr ((q.call L c).poll L) (q.call L c) rfl rfl cs (ih hnext hrest)
    exact ⟨hc, hsame⟩

/-- **Cursors work exactly when no number is too low.**  Every reader of a run is
served exactly iff every append of it gives a number above all before. -/
theorem exact_iff (hL : L.Lawful entries next I) {s : σ} (h : Blank entries next I s)
    (cs : List (Call ι κ)) :
    (∀ steps, calls steps = cs → L.Exact ⟨s, [], [], 0⟩ steps) ↔
      L.Always L.Fresh ⟨s, [], [], 0⟩ cs := by
  constructor
  · intro hall
    refine fresh_of_exact_eager hL ⟨h.inv, rfl, by simp⟩ cs (hall _ (calls_eager cs))
  · rintro hfresh steps rfl
    exact exact_of_fresh hL h.follows steps hfresh

/-! ### Numbers given twice -/

theorem appended_prefix_call (q : Session σ ε) (c : Call ι κ) :
    q.appended <+: (q.call L c).appended := by
  cases c with
  | append e =>
    simp only [Session.call]
    split
    · exact prefix_append _ _
    · exact prefix_rfl
  | delete k =>
    simp only [Session.call]
    split <;> exact prefix_rfl
  | after n => exact prefix_rfl

theorem appended_prefix_run (q : Session σ ε) (cs : List (Call ι κ)) :
    q.appended <+: (L.run q cs).appended := by
  induction cs generalizing q with
  | nil => exact prefix_rfl
  | cons c cs ih => exact (appended_prefix_call q c).trans (ih _)

/-- The numbers given leave no gap, also below the next one. -/
structure Filled (L : NumberedLog σ ι ε κ) (next : σ → ℕ) (I : σ → Prop) (q : Session σ ε) :
    Prop where
  inv : I q.store
  filled : ∀ n, 0 < n → (n < next q.store ∨ ∃ a ∈ q.appended, n ≤ L.number a) →
    ∃ b ∈ q.appended, L.number b = n

theorem Filled.call (hL : L.Lawful entries next I) (h : Filled L next I q) (c : Call ι κ) :
    Filled L next I (q.call L c) := by
  rcases hL.call_cases h.inv c with ⟨e, e', s, rfl, -, hs, -, hnumber, hnext, hq⟩ |
    ⟨k, s, rfl, hs, -, hnext, -, hq⟩ | ⟨-, hq⟩
  · rw [hq]
    refine ⟨hs, fun n hn hlow => ?_⟩
    by_cases heq : n = next q.store
    · exact ⟨e', by simp, hnumber.trans heq.symm⟩
    · obtain ⟨b, hb, hbn⟩ := h.filled n hn (by
        rcases hlow with hlt | ⟨a, ha, hle⟩
        · left
          have hlt : n < next s := hlt
          omega
        · rcases List.mem_append.mp ha with ha | ha
          · exact .inr ⟨a, ha, hle⟩
          · obtain rfl := List.mem_singleton.mp ha
            left
            omega)
      exact ⟨b, mem_append_left _ hb, hbn⟩
  · rw [hq]
    refine ⟨hs, fun n hn hlow => h.filled n hn ?_⟩
    exact hlow.imp (fun hlt => lt_of_lt_of_le hlt hnext) id
  · rw [hq]
    exact h

theorem fresh_of_nodup (hL : L.Lawful entries next I) (h : Filled L next I q) (cs : List (Call ι κ))
    (hnodup : ((L.run q cs).appended.map L.number).Nodup) : L.Always L.Fresh q cs := by
  induction cs generalizing q with
  | nil => trivial
  | cons c cs ih =>
    refine ⟨?_, ih (h.call hL c) hnodup⟩
    rintro e e' s rfl he a ha
    obtain ⟨-, -, hnumber, -⟩ := hL.append_some e e' q.store s h.inv he
    by_contra hle
    -- the number given is taken, so it stands twice in the list of all numbers
    obtain ⟨b, hb, hbn⟩ := h.filled (L.number e')
      (hnumber ▸ hL.next_pos q.store h.inv) (.inr ⟨a, ha, not_lt.mp hle⟩)
    have hcall : (q.call L (.append e)).appended = q.appended ++ [e'] := by
      simp only [Session.call, he]
    have hpre : q.appended ++ [e'] <+: (L.run q (.append e :: cs)).appended :=
      hcall ▸ appended_prefix_run (q.call L (.append e)) cs
    have hnd : ((q.appended ++ [e']).map L.number).Nodup :=
      hnodup.sublist (hpre.sublist.map _)
    rw [map_append, nodup_append] at hnd
    exact hnd.2.2 _ (mem_map_of_mem hb) _ (by simp) hbn

theorem pairwise_of_fresh (hL : L.Lawful entries next I) (hI : I q.store)
    (h : q.appended.Pairwise fun a b => L.number a < L.number b) (cs : List (Call ι κ))
    (hfresh : L.Always L.Fresh q cs) :
    (L.run q cs).appended.Pairwise fun a b => L.number a < L.number b := by
  induction cs generalizing q with
  | nil => exact h
  | cons c cs ih =>
    obtain ⟨hc, hcs⟩ := hfresh
    rcases hL.call_cases hI c with ⟨e, e', s, rfl, he, hs, -, -, -, hq⟩ |
      ⟨k, s, rfl, hs, -, -, -, hq⟩ | ⟨-, hq⟩
    · refine ih (by rw [hq]; exact hs) ?_ hcs
      rw [hq]
      refine List.pairwise_append.mpr ⟨h, pairwise_singleton _ _, fun a ha b hb => ?_⟩
      obtain rfl := List.mem_singleton.mp hb
      exact hc e b s rfl he a ha
    · exact ih (by rw [hq]; exact hs) (by rw [hq]; exact h) hcs
    · exact ih (by rw [hq]; exact hI) (by rw [hq]; exact h) hcs

/-- **No number is given twice exactly when none is too low.** -/
theorem nodup_iff (hL : L.Lawful entries next I) {s : σ} (h : Blank entries next I s)
    (cs : List (Call ι κ)) :
    ((L.run ⟨s, [], [], 0⟩ cs).appended.map L.number).Nodup ↔
      L.Always L.Fresh ⟨s, [], [], 0⟩ cs := by
  constructor
  · refine fresh_of_nodup hL ⟨h.inv, fun n hn hlow => ?_⟩ cs
    rcases hlow with hlt | ⟨a, ha, -⟩
    · have hlt : n < next s := hlt
      have := h.next_eq
      omega
    · simp at ha
  · intro hfresh
    have hlt := pairwise_of_fresh hL (q := ⟨s, [], [], 0⟩) h.inv List.Pairwise.nil cs hfresh
    exact (List.pairwise_map.mpr hlt).imp fun hne => ne_of_lt hne

/-! ### Which logs never give a low number -/

/-- A log whose next number never falls gives no low number. -/
theorem always_fresh_of_le (hL : L.Lawful entries next I)
    (hmono : ∀ k s s', I s → L.delete k s = (true, s') → next s ≤ next s') (hI : I q.store)
    (h : ∀ a ∈ q.appended, L.number a < next q.store) (cs : List (Call ι κ)) :
    L.Always L.Fresh q cs := by
  induction cs generalizing q with
  | nil => trivial
  | cons c cs ih =>
    rcases hL.call_cases hI c with ⟨e, e', s, rfl, he, hs, -, hnumber, hnext, hq⟩ |
      ⟨k, s, rfl, hs, -, -, hk, hq⟩ | ⟨hno, hq⟩
    · refine ⟨fun e₁ e₂ s₂ h₁ h₂ a ha => ?_, ih (by rw [hq]; exact hs) ?_⟩
      · cases h₁
        have hnumber₂ := (hL.append_some _ _ _ _ hI h₂).2.2.1
        exact hnumber₂ ▸ h a ha
      · rw [hq]
        intro a ha
        show L.number a < next s
        rcases List.mem_append.mp ha with ha | ha
        · have := h a ha
          omega
        · obtain rfl := List.mem_singleton.mp ha
          omega
    · refine ⟨fun e e' s h₁ => by simp at h₁, ih (by rw [hq]; exact hs) ?_⟩
      rw [hq]
      exact fun a ha => lt_of_lt_of_le (h a ha) (hmono k q.store s hI hk)
    · refine ⟨fun e e' s h₁ h₂ => absurd h₂ (hno e e' s h₁), ih ?_ ?_⟩
      · rw [hq]
        exact hI
      · rw [hq]
        exact h

/-- The numbers given so far grow from `1` on, and what is in the log was appended. -/
structure Growing (L : NumberedLog σ ι ε κ) (entries : σ → List ε) (I : σ → Prop)
    (q : Session σ ε) : Prop where
  inv : I q.store
  sub : ∀ e ∈ entries q.store, e ∈ q.appended
  pos : ∀ a ∈ q.appended, 0 < L.number a
  increasing : q.appended.Pairwise fun a b => L.number a < L.number b

omit [DecidableEq κ] in
/-- The entry appended last has the largest number, and no other has it. -/
theorem Growing.eq_or_lt_of_getLast (h : Growing L entries I q) {a b : ε}
    (ha : q.appended.getLast? = some a) (hb : b ∈ q.appended) :
    b = a ∨ L.number b < L.number a := by
  obtain ⟨init, hinit⟩ := List.getLast?_eq_some_iff.mp ha
  have hincreasing := h.increasing
  rw [hinit] at hincreasing hb
  rcases List.mem_append.mp hb with hb | hb
  · exact .inr ((List.pairwise_append.mp hincreasing).2.2 b hb a (by simp))
  · exact .inl (List.mem_singleton.mp hb)

theorem Growing.call (hL : L.Lawful entries next I) (h : Growing L entries I q) (hc : L.Fresh q c) :
    Growing L entries I (q.call L c) := by
  rcases hL.call_cases h.inv c with ⟨e, e', s, rfl, he, hs, hentries, hnumber, -, hq⟩ |
    ⟨k, s, rfl, hs, hentries, -, -, hq⟩ | ⟨-, hq⟩
  · rw [hq]
    refine ⟨hs, fun a ha => ?_, fun a ha => ?_, ?_⟩
    · rw [hentries] at ha
      exact List.mem_append.mpr ((List.mem_append.mp ha).imp (h.sub a) id)
    · rcases List.mem_append.mp ha with ha | ha
      · exact h.pos a ha
      · obtain rfl := List.mem_singleton.mp ha
        exact hnumber ▸ hL.next_pos q.store h.inv
    · refine List.pairwise_append.mpr ⟨h.increasing, pairwise_singleton _ _, ?_⟩
      intro a ha b hb
      obtain rfl := List.mem_singleton.mp hb
      exact hc e b s rfl he a ha
  · rw [hq]
    refine ⟨hs, fun a ha => h.sub a ?_, h.pos, h.increasing⟩
    rw [hentries] at ha
    exact mem_of_mem_filter ha
  · rw [hq]
    exact h

variable {accepts : ι → σ → Prop}

/-- In a log whose next number follows the largest one in it, a call gives no low number
exactly when the newest entry is still there. -/
theorem Growing.fresh_iff (hL : L.Lawful entries next I)
    (haccepts : ∀ e s, I s → (accepts e s ↔ ∃ e' s', L.append e s = (some e', s')))
    (htight : ∀ s, I s → next s = 1 ∨ ∃ e ∈ entries s, next s = L.number e + 1)
    (h : Growing L entries I q) (c : Call ι κ) :
    L.Fresh q c ↔ KeepsNewest accepts entries q c := by
  constructor
  · rintro hfresh e rfl hacc a ha
    obtain ⟨e', s, he⟩ := (haccepts e q.store h.inv).mp hacc
    have hnumber := (hL.append_some e e' q.store s h.inv he).2.2.1
    have hlt := hfresh e e' s rfl he a (mem_of_getLast? ha)
    rcases htight q.store h.inv with h1 | ⟨b, hb, hnext⟩
    · have := h.pos a (mem_of_getLast? ha)
      omega
    · rcases h.eq_or_lt_of_getLast ha (h.sub b hb) with rfl | hba
      · exact hb
      · omega
  · rintro hkeeps e e' s rfl he b hb
    have hnumber := (hL.append_some e e' q.store s h.inv he).2.2.1
    rcases ha : q.appended.getLast? with - | a
    · rw [List.getLast?_eq_none_iff.mp ha] at hb
      cases hb
    · have hmem := hkeeps e rfl ((haccepts e q.store h.inv).mpr ⟨e', s, he⟩) a ha
      have hlt := hL.lt_next q.store h.inv a hmem
      rcases h.eq_or_lt_of_getLast ha hb with rfl | hba <;> omega

theorem Growing.always_fresh_iff (hL : L.Lawful entries next I)
    (haccepts : ∀ e s, I s → (accepts e s ↔ ∃ e' s', L.append e s = (some e', s')))
    (htight : ∀ s, I s → next s = 1 ∨ ∃ e ∈ entries s, next s = L.number e + 1)
    (h : Growing L entries I q) (cs : List (Call ι κ)) :
    L.Always L.Fresh q cs ↔ L.Always (KeepsNewest accepts entries) q cs := by
  induction cs generalizing q with
  | nil => exact Iff.rfl
  | cons c cs ih =>
    have hhead := h.fresh_iff hL haccepts htight c
    constructor
    · rintro ⟨hc, hcs⟩
      exact ⟨hhead.mp hc, (ih (h.call hL hc)).mp hcs⟩
    · rintro ⟨hc, hcs⟩
      exact ⟨hhead.mpr hc, (ih (h.call hL (hhead.mpr hc))).mpr hcs⟩

omit [DecidableEq κ] in
theorem Blank.growing {s : σ} (h : Blank entries next I s) : Growing L entries I ⟨s, [], [], 0⟩ where
  inv := h.inv
  sub := by simp [h.entries_eq]
  pos := by simp
  increasing := List.Pairwise.nil

end NumberedLog
