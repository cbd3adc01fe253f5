/-
RegistryRuns.lean

Calls of the registry of browser sessions, in any order.

A method does its work while it holds the lock.  It starts to close what it has dropped
after it has given the lock back, and other calls run in between.  The sessions in the
registry, those that a call is still to close and those that it has started to close are
together those that were created (`conserved`), unless `create` reaches a limit while
sessions have expired: it drops them and raises before it closes them.  The main result is
`registry_runs`.
-/
import OpenAgency.Lib.History
import OpenAgency.SessionRegistry

namespace OpenAgency

open Relational Interaction Catalog

namespace SessionRegistry

/-! ### Methods -/

/-- A call of a method; `create` is also given the name that it draws. -/
inductive Call where
  | create (asked : NewSession) (sessionId : String)
  | resolve (owner : OwnerClaims) (sessionId : String) (touch : Bool)
  | close (owner : OwnerClaims) (sessionId : String)
  | closeAllForExecution (executionId : String)
  | expire
  | closeAll

variable (registry : SessionRegistry) (now : Time) (gone : ℕ → Bool) (records : SessionRecords)

/-- What a method does under the lock: its answer, what it is to close, and what is left. -/
def locked : Call → Except SessionError (Option SessionRecord) × List SessionRecord × SessionRecords
  | .create asked sessionId =>
    let (answer, dropped, left) := registry.create now gone records sessionId asked
    (answer.map some, dropped, left)
  | .resolve owner sessionId touch =>
    let (answer, dropped, left) := resolve now gone records owner sessionId touch
    (answer.map some, dropped, left)
  | .close owner sessionId =>
    let (answer, left) := close records owner sessionId
    (answer.map fun _ => none, (answer.toOption.bind id).toList, left)
  | .closeAllForExecution executionId =>
    let (dropped, left) := closeAllForExecution records executionId
    (.ok none, dropped, left)
  | .expire =>
    let (dropped, left) := removeExpired now gone records
    (.ok none, dropped, left)
  | .closeAll => (.ok none, records.items, .empty)

/-- The name that a call draws. -/
def Call.drawn : Call → List String
  | .create _ sessionId => [sessionId]
  | _ => []

/-- The name of the session that a call has created. -/
def Call.added (c : Call) : Except SessionError (Option SessionRecord) → List String
  | .ok _ => c.drawn
  | .error _ => []

/-- `create` reaches no limit, or there is nothing that it would have to close. -/
def Tidy : Call → Prop
  | .create asked _ =>
    let (expired, left) := removeExpired now gone records
    asked.owner.isIdentified = false ∨ expired = [] ∨
      left.items.countP (asked.owner.owns ·.owner)
          < capped asked.maxSessionsPerOwner registry.maxSessionsPerOwner ∧
        left.items.length < capped asked.maxSessionsTotal registry.maxSessionsTotal
  | _ => True

/-! ### Runs -/

/-- What happens next: a method takes the lock, or a handle that was dropped is closed. -/
inductive Event where
  | call (now : Time) (gone : ℕ → Bool) (c : Call)
  | startClose (sessionId : String)

/-- The registry, the names it has given out, and the sessions that calls have dropped. -/
structure World where
  records : SessionRecords := .empty
  created : List String := []
  toClose : List String := []
  closing : List String := []

abbrev Answer := Option (Except SessionError (Option SessionRecord))

def step : Event → World → Answer × World
  | .call now gone c, w =>
    let (answer, dropped, left) := registry.locked now gone w.records c
    (some answer,
      { w with
        records := left
        created := w.created ++ c.added answer
        toClose := w.toClose ++ dropped.map (·.sessionId) })
  | .startClose sessionId, w =>
    (none,
      { w with
        toClose := w.toClose.erase sessionId
        closing := w.closing ++ [sessionId] })

/-- Names that are drawn are new, and a call closes what it has dropped. -/
def Admissible (w : World) : Event → Prop
  | .call _ _ c => ∀ id ∈ c.drawn, id ∉ w.created ∧ id ∉ w.records.items.map (·.sessionId)
  | .startClose sessionId => sessionId ∈ w.toClose

instance Admissible.decidable (w : World) : (e : Event) → Decidable (Admissible w e)
  | .call _ _ c => inferInstanceAs (Decidable (∀ id ∈ c.drawn, _))
  | .startClose _ => inferInstanceAs (Decidable (_ ∈ _))

/-- An event at which nothing is dropped for good. -/
def TidyEvent (w : World) : Event → Prop
  | .call now gone c => registry.Tidy now gone w.records c
  | .startClose _ => True

variable {registry now gone records} {left : SessionRecords} {owner : OwnerClaims}
  {sessionId : String} {r : SessionRecord} {w : World} {e : Event} {events : List (Event × Answer)}

/-! ### Limits -/

/-- What holds of the records at any time. -/
structure Sound (registry : SessionRegistry) (records : SessionRecords) : Prop where
  total : records.items.length ≤ registry.maxSessionsTotal
  perOwner : ∀ owner, records.items.countP (·.owner = owner) ≤ registry.maxSessionsPerOwner
  idle : ∀ r ∈ records.items, r.idleExpiresAt ≤ r.maximumExpiresAt

theorem Sound.empty : Sound registry .empty :=
  ⟨Nat.zero_le _, fun _ => Nat.zero_le _, fun _ h => absurd h List.not_mem_nil⟩

theorem Sound.sublist (h : Sound registry records) (hsub : left.items.Sublist records.items) :
    Sound registry left :=
  ⟨hsub.length_le.trans h.total, fun owner => hsub.countP_le.trans (h.perOwner owner),
    fun r hr => h.idle r (hsub.subset hr)⟩

theorem Sound.removeExpired (h : Sound registry records) :
    Sound registry (removeExpired now gone records).2 := h.sublist List.filter_sublist

theorem capped_le (x : Option ℕ) (limit : ℕ) : capped x limit ≤ limit := Nat.min_le_right _ _

/-- A session that is used keeps its owner, and idles no longer than it may be kept. -/
theorem Sound.put_touched (h : Sound registry records) (hget : records.get sessionId = some r) :
    Sound registry (records.put (r.touched now)) := by
  obtain rfl := key_of_get hget
  have hbefore := perm_of_get hget
  have hafter := records.perm_put (r.touched now)
  refine ⟨?_, fun owner => ?_, fun r' hr' => ?_⟩
  · rw [hafter.length_eq]
    exact hbefore.length_eq ▸ h.total
  · have hcount := h.perOwner owner
    rw [hbefore.countP_eq] at hcount
    rw [hafter.countP_eq]
    exact hcount
  · rcases mem_put.mp hr' with rfl | ⟨hmem, -⟩
    · exact min_le_right _ _
    · exact h.idle r' hmem

theorem Sound.create {asked : NewSession} (h : Sound registry records)
    (hnew : sessionId ∉ records.items.map (·.sessionId)) :
    Sound registry (registry.create now gone records sessionId asked).2.2 := by
  have hleft : Sound registry (SessionRegistry.removeExpired now gone records).2 := h.removeExpired
  rw [SessionRegistry.create]
  split
  · exact h
  · dsimp only
    split
    · exact hleft
    next howner =>
      split
      · exact hleft
      next htotal =>
        have hkey : sessionId ∉ (SessionRegistry.removeExpired now gone records).2.items.map
            (·.sessionId) :=
          fun hmem => hnew ((List.filter_sublist.map _).subset hmem)
        have hput := perm_put_of_notMem (r := registry.newRecord now sessionId asked) hkey
        refine ⟨?_, fun owner => ?_, fun r hr => ?_⟩
        · rw [hput.length_eq]
          exact (Nat.lt_of_not_le htotal).trans_le (capped_le _ _)
        · rw [hput.countP_eq, List.countP_cons]
          split
          next hsame =>
            -- The sessions of the same owner are among those that it owns.
            obtain rfl : asked.owner = owner := of_decide_eq_true hsame
            refine Nat.lt_of_le_of_lt (List.countP_mono_left fun r _ hr => ?_)
              ((Nat.lt_of_not_le howner).trans_le (capped_le _ _))
            rw [of_decide_eq_true hr]
            exact asked.owner.owns_self
          · exact hleft.perOwner owner
        · rcases mem_put.mp hr with rfl | ⟨hmem, -⟩
          · exact Nat.add_le_add_left (min_le_right _ _) now
          · exact hleft.idle r hmem

/-- **No method takes the registry over its limits.** -/
theorem Sound.locked (h : Sound registry records) {c : Call}
    (hnew : ∀ id ∈ c.drawn, id ∉ records.items.map (·.sessionId)) :
    Sound registry (registry.locked now gone records c).2.2 := by
  cases c with
  | create asked sessionId => exact h.create (hnew sessionId List.mem_cons_self)
  | resolve owner sessionId touch =>
    rw [SessionRegistry.locked, SessionRegistry.resolve]
    dsimp only
    split
    · exact h.removeExpired
    next record hget =>
      split
      · exact h.removeExpired
      · split
        · exact h.removeExpired.put_touched hget
        · exact h.removeExpired
  | close owner sessionId =>
    simp only [SessionRegistry.locked, SessionRegistry.close]
    split
    · exact h
    · split
      · exact h
      · exact h.sublist List.filter_sublist
  | closeAllForExecution executionId => exact h.sublist List.filter_sublist
  | expire => exact h.removeExpired
  | closeAll => exact .empty

/-- What `resolve` returns has not expired, and its owner asks for it. -/
theorem resolve_ok {touch : Bool} (h : (resolve now gone records owner sessionId touch).1 = .ok r) :
    now < r.maximumExpiresAt ∧ owner.owns r.owner := by
  have hlive : ∀ r', (removeExpired now gone records).2.get sessionId = some r' →
      now < r'.maximumExpiresAt := by
    intro r' hget
    have hkept := (mem_filter.mp (mem_of_get hget)).2
    simp only [isExpired, SessionRecord.expired, Bool.not_or, Bool.and_eq_true] at hkept
    simpa using hkept.1.2
  rw [resolve] at h
  dsimp only at h
  split at h
  · cases h
  next record hget =>
    split at h
    · cases h
    next howns =>
      have howned : owner.owns record.owner = true := by simpa using howns
      have hlives : now < record.maximumExpiresAt := hlive record hget
      split at h <;> cases h <;> exact ⟨hlives, howned⟩

/-- What `resolve` has returned had not expired, and those who asked for it own it. -/
def Owned (events : List (Event × Answer)) : Prop :=
  ∀ now gone owner sessionId touch r,
    (Event.call now gone (.resolve owner sessionId touch), some (.ok (some r))) ∈ events →
      now < r.maximumExpiresAt ∧ owner.owns r.owner

theorem Owned.step (h : Owned events) : Owned (events ++ [(e, (registry.step e w).1)]) := by
  intro now gone owner sessionId touch r hr
  rcases List.mem_append.mp hr with hr | hr
  · exact h now gone owner sessionId touch r hr
  · obtain ⟨rfl, hanswer⟩ := Prod.mk.inj (List.mem_singleton.mp hr)
    have hok : (resolve now gone w.records owner sessionId touch).1 = .ok r := by
      rcases hresolve : (resolve now gone w.records owner sessionId touch).1 with e | r' <;>
        simp_all [SessionRegistry.step, SessionRegistry.locked, Except.map]
    exact resolve_ok hok

/-! ### What is dropped -/

theorem perm_filter (p : SessionRecord → Bool) (l : List SessionRecord) :
    ((l.filter fun r => !p r).map (·.sessionId) ++ (l.filter p).map (·.sessionId)).Perm
      (l.map (·.sessionId)) := by
  rw [← List.map_append]
  exact (List.perm_append_comm.trans (List.filter_append_perm p l)).map _

theorem perm_put_names (hget : records.get sessionId = some r) :
    ((records.put (r.touched now)).items.map (·.sessionId)).Perm
      (records.items.map (·.sessionId)) := by
  obtain rfl := key_of_get hget
  exact ((records.perm_put (r.touched now)).map (·.sessionId)).trans
    ((perm_of_get hget).map (·.sessionId)).symm

/-- The sessions that were there or are new are those that are dropped or left. -/
def Moves (records : SessionRecords) (out : List SessionRecord × SessionRecords)
    (added : List String) : Prop :=
  (out.2.items.map (·.sessionId) ++ out.1.map (·.sessionId)).Perm
    (records.items.map (·.sessionId) ++ added)

theorem perm_create {asked : NewSession} (hnew : sessionId ∉ records.items.map (·.sessionId))
    (htidy : registry.Tidy now gone records (.create asked sessionId)) :
    Moves records (registry.create now gone records sessionId asked).2
      (Call.added (.create asked sessionId)
        ((registry.create now gone records sessionId asked).1.map some)) := by
  have hsplit := perm_filter (isExpired now gone) records.items
  -- Where a limit is reached nothing has expired.
  have hlimit : (removeExpired now gone records).1 = [] →
      ((removeExpired now gone records).2.items.map (·.sessionId)).Perm
        (records.items.map (·.sessionId)) := by
    intro hnone
    have hfilter : records.items.filter (isExpired now gone) = [] := hnone
    rw [hfilter, List.map_nil, List.append_nil] at hsplit
    exact hsplit
  simp only [Tidy] at htidy
  simp only [Moves, SessionRegistry.create]
  split
  · simp [Call.added, Except.map]
  next hidentified =>
    replace htidy := htidy.resolve_left (by simpa using hidentified)
    split
    next howner =>
      have hnone := htidy.resolve_right fun h => absurd h.1 (Nat.not_lt.mpr howner)
      simpa [Call.added, Except.map] using hlimit hnone
    · split
      next htotal =>
        have hnone := htidy.resolve_right fun h => absurd h.2 (Nat.not_lt.mpr htotal)
        simpa [Call.added, Except.map] using hlimit hnone
      · have hkey : sessionId ∉ (removeExpired now gone records).2.items.map (·.sessionId) :=
          fun hmem => hnew ((List.filter_sublist.map _).subset hmem)
        have hput := (perm_put_of_notMem
          (r := registry.newRecord now sessionId asked) hkey).map (·.sessionId)
        exact (hput.append_right _).trans ((hsplit.cons sessionId).trans
          (List.perm_append_singleton sessionId _).symm)

theorem added_eq_nil {c : Call} (h : c.drawn = [])
    (answer : Except SessionError (Option SessionRecord)) : c.added answer = [] := by
  cases answer with
  | error _ => rfl
  | ok _ => exact h

/-- **A tidy method keeps, drops or adds every session.** -/
theorem perm_locked {c : Call} (hnew : ∀ id ∈ c.drawn, id ∉ records.items.map (·.sessionId))
    (htidy : registry.Tidy now gone records c) :
    Moves records (registry.locked now gone records c).2
      (c.added (registry.locked now gone records c).1) := by
  have hsplit := perm_filter (isExpired now gone) records.items
  unfold Moves
  cases c with
  | create asked sessionId => exact perm_create (hnew sessionId List.mem_cons_self) htidy
  | resolve owner sessionId touch =>
    rw [added_eq_nil rfl, List.append_nil]
    simp only [SessionRegistry.locked, SessionRegistry.resolve]
    split
    · exact hsplit
    next record hget =>
      split
      · exact hsplit
      · split
        · exact ((perm_put_names hget).append_right _).trans hsplit
        · exact hsplit
  | close owner sessionId =>
    rw [added_eq_nil rfl, List.append_nil]
    simp only [SessionRegistry.locked, SessionRegistry.close]
    split
    · simp [Except.toOption]
    next record hget =>
      split
      · simp [Except.toOption]
      · exact List.perm_append_comm.trans ((perm_of_get hget).map _).symm
  | closeAllForExecution executionId =>
    rw [added_eq_nil rfl, List.append_nil]
    simpa [SessionRegistry.locked, SessionRegistry.closeAllForExecution, filter] using
      perm_filter (fun r => decide (r.owner.executionId = some executionId)) records.items
  | expire =>
    rw [added_eq_nil rfl, List.append_nil]
    exact hsplit
  | closeAll => simp [SessionRegistry.locked, Call.added, Call.drawn, Catalog.empty]

/-! ### Sessions that were created -/

/-- What was created is in the registry, or is or will be closed. -/
structure Conserved (w : World) : Prop where
  nodup : w.created.Nodup
  count : ∀ id, (w.records.items.map (·.sessionId)).count id + (w.toClose ++ w.closing).count id
    = w.created.count id

/-- The registry has started to close each session that has left it, or a call is about to. -/
def ClosedOnce (w : World) : Prop :=
  ∀ id ∈ w.created, id ∉ w.records.items.map (·.sessionId) → (w.toClose ++ w.closing).count id = 1

theorem Conserved.closedOnce (h : Conserved w) : ClosedOnce w := by
  intro id hid hleft
  have hcount := h.count id
  rwa [List.count_eq_zero_of_not_mem hleft, Nat.zero_add,
    List.count_eq_one_of_mem h.nodup hid] at hcount

/-- **A tidy event closes nothing twice and forgets nothing.** -/
theorem Conserved.step (h : Conserved w) (hadmissible : Admissible w e)
    (htidy : registry.TidyEvent w e) : Conserved (registry.step e w).2 := by
  cases e with
  | call now gone c =>
    have hmoves := perm_locked (fun id hid => (hadmissible id hid).2) htidy
    refine ⟨?_, fun id => ?_⟩
    · have hdrawn : (c.added (registry.locked now gone w.records c).1).Sublist c.drawn := by
        unfold Call.added
        split
        · exact .refl _
        · exact List.nil_sublist _
      refine List.nodup_append.mpr ⟨h.nodup, hdrawn.nodup ?_, ?_⟩
      · cases c <;> simp [Call.drawn]
      · rintro a ha b hb rfl
        exact (hadmissible a (hdrawn.subset hb)).1 ha
    · have hmoved := List.Perm.count_eq hmoves id
      have hcount := h.count id
      rw [List.count_append, List.count_append] at hmoved
      rw [List.count_append] at hcount
      show (List.map _ (registry.locked now gone w.records c).2.2.items).count id +
        (w.toClose ++ (registry.locked now gone w.records c).2.1.map _ ++ w.closing).count id =
          (w.created ++ c.added (registry.locked now gone w.records c).1).count id
      rw [List.count_append, List.count_append, List.count_append]
      omega
  | startClose id =>
    refine ⟨h.nodup, fun other => ?_⟩
    have hcount := h.count other
    have hpending : 0 < w.toClose.count id := List.count_pos_iff.mpr hadmissible
    simp only [SessionRegistry.step, List.count_append, List.count_erase, List.count_singleton]
      at hcount ⊢
    by_cases hid : id = other
    · subst hid
      simp only [beq_self_eq_true, if_true]
      omega
    · simpa [hid, Ne.symm hid] using hcount

/-- **Calls of the registry, in any order**: it stays within its limits, and `resolve` returns
what has not expired to those who own it.  It closes once what has left it, if every event is
tidy. -/
theorem registry_runs (h : Serves registry.step Admissible {} events w) :
    (w.records.items.length ≤ registry.maxSessionsTotal ∧
      (∀ owner, w.records.items.countP (·.owner = owner) ≤ registry.maxSessionsPerOwner) ∧
      ∀ r ∈ w.records.items, r.idleExpiresAt ≤ r.maximumExpiresAt) ∧
    Owned events ∧
    (Serves registry.step (fun w e => Admissible w e ∧ registry.TidyEvent w e) {} events w →
      ClosedOnce w) := by
  have hsound : Sound registry w.records := by
    refine h.invariant (I := fun _ w => Sound registry w.records) .empty ?_
    intro _ w e hw hadmissible
    cases e with
    | call now gone c => exact hw.locked fun id hid => (hadmissible id hid).2
    | startClose id => exact hw
  refine ⟨⟨hsound.total, hsound.perOwner, hsound.idle⟩, ?_, fun htidy => ?_⟩
  · exact h.invariant (I := fun events _ => Owned events)
      (fun _ _ _ _ _ _ hr => absurd hr List.not_mem_nil) fun _ _ _ ih _ => ih.step
  · refine Conserved.closedOnce (htidy.invariant (I := fun _ w => Conserved w) ?_ ?_)
    · exact ⟨List.nodup_nil, fun _ => rfl⟩
    · exact fun _ w e hw hboth => hw.step hboth.1 hboth.2

/-- A registry with room for two sessions, one for each owner. -/
def smallRegistry : SessionRegistry := ⟨seconds 900, seconds 3600, 1, 2⟩

/-- A session of a user that expires after a second, if it is not used. -/
def briefSession (user : String) (handle : ℕ) : NewSession where
  owner := { userId := some user }
  handle := handle
  engine := "primary"
  allowedHosts := []
  idleTtl := some (seconds 1)

/-- The session is closed once when it has expired. -/
theorem registry_runs_expire :
    ∃ w, w.records.items.length ≤ 2 ∧ w.closing = ["brs_a"] ∧ ClosedOnce w := by
  have htidy : Serves smallRegistry.step
      (fun w e => Admissible w e ∧ smallRegistry.TidyEvent w e) {} _ _ :=
    .call (i := Event.startClose "brs_a")
      (.call (i := Event.call (seconds 1) (fun _ => false) .expire) (.call
        (i := Event.call 0 (fun _ => false) (.create (briefSession "alice" 0) "brs_a")) .start
        ⟨by decide +kernel, Or.inr (Or.inl rfl)⟩) ⟨by decide +kernel, True.intro⟩)
      ⟨by decide +kernel, True.intro⟩
  obtain ⟨⟨htotal, -⟩, -, hclosed⟩ := registry_runs (htidy.mono fun _ _ h => h.1)
  exact ⟨_, htotal, by decide +kernel, hclosed htidy⟩

/-- The session of `alice` has expired when `bob` asks for a second one.  He is refused, and
hers is dropped and never closed. -/
theorem registry_runs_leak :
    ∃ events w, Serves smallRegistry.step Admissible {} events w ∧
      w.records.items.map (·.sessionId) = ["brs_b"] ∧ w.created = ["brs_a", "brs_b"] ∧
      w.toClose = [] ∧ w.closing = [] ∧ ¬ ClosedOnce w := by
  have hrun : Serves smallRegistry.step Admissible {} _ _ :=
    .call (i := Event.call (seconds 1) (fun _ => false) (.create (briefSession "bob" 2) "brs_c"))
      (.call (i := Event.call 1 (fun _ => false) (.create (briefSession "bob" 1) "brs_b"))
        (.call (i := Event.call 0 (fun _ => false) (.create (briefSession "alice" 0) "brs_a"))
          .start (by decide +kernel)) (by decide +kernel)) (by decide +kernel)
  refine ⟨_, _, hrun, by decide +kernel, by decide +kernel, by decide +kernel,
    by decide +kernel, fun hclosed => ?_⟩
  exact absurd (hclosed "brs_a" (by decide +kernel) (by decide +kernel)) (by decide +kernel)

end SessionRegistry

end OpenAgency
