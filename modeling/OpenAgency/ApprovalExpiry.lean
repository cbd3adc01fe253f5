/-
ApprovalExpiry.lean

Expiring what an execution still waits for an approval of.

The loop goes over the pending requests one by one, but a store is asked by tool: it
resolves the newest request of the tool, and it answers with that request also when it has
the status already.  `Resolves` says what one such call makes of the requests, whichever
store is asked, and `Sweeps` is a loop of them; the database and the in-memory store both
refine it.  A sweep only ever responds to the newest request of a tool.  So the expiry is
complete just if every pending request has a tool and is the newest request of its tool: an
older one stays pending, and its tool's newest request is answered once more.
-/
import Mathlib.Data.List.MinMax
import Mathlib.Data.Prod.Lex
import OpenAgency.StaleRepair

namespace OpenAgency

open Interaction Relational Program ApprovalRequest Table DbOp

/-- The approval requests of a store. -/
abbrev ApprovalRequests := Table ApprovalRequest.id

/-- Requests are ordered by their time and then by their identifier. -/
def ApprovalRequest.rank (a : ApprovalRequest) : ℕ ×ₗ ℕ := toLex (a.requestedAt, a.id)

theorem ApprovalRequest.newestFirst_eq :
    ApprovalRequest.newestFirst = fun a b => decide (b.rank ≤ a.rank) := by
  funext a b
  apply Bool.eq_iff_iff.mpr
  simp only [newestFirst, lexLe, rank, Prod.Lex.toLex_le_toLex, Bool.or_eq_true, Bool.and_eq_true,
    decide_eq_true_eq, Bool.and_true]
  exact or_congr_right (and_congr_right fun _ => ⟨fun h => h.elim le_of_lt le_of_eq, lt_or_eq_of_le⟩)

theorem ApprovalRequest.id_eq_of_rank_eq {a b : ApprovalRequest} (h : a.rank = b.rank) :
    a.id = b.id :=
  congrArg (fun r => (ofLex r).2) h

variable {x : Uuid} {tool : String} {r : ApprovalResponse} {t t' : ApprovalRequests}
  {a b : ApprovalRequest}

namespace ApprovalRequests

/-- The requests for a tool of an execution. -/
def ofTool (x : Uuid) (tool : String) (a : ApprovalRequest) : Bool :=
  a.executionId = x && a.toolId = tool

/-- The request is there, and no request for its tool is newer. -/
structure IsNewest (t : ApprovalRequests) (a : ApprovalRequest) : Prop where
  stored : t.get a.id = some a
  newest : ∀ b, t.get b.id = some b → ofTool a.executionId a.toolId b → b.rank ≤ a.rank

/-- The newest request for a tool of an execution. -/
structure NewestOf (t : ApprovalRequests) (x : Uuid) (tool : String) (a : ApprovalRequest) :
    Prop extends IsNewest t a where
  execution : a.executionId = x
  asked : a.toolId = tool

theorem newestOf_iff : NewestOf t x tool a ↔
    a ∈ t.select (ofTool x tool) ∧ ∀ b ∈ t.select (ofTool x tool), b.rank ≤ a.rank := by
  constructor
  · rintro ⟨⟨hstored, hnewest⟩, rfl, rfl⟩
    refine ⟨mem_select.mpr ⟨hstored, by simp [ofTool]⟩, fun b hb => ?_⟩
    obtain ⟨hget, hof⟩ := mem_select.mp hb
    exact hnewest b hget hof
  · rintro ⟨ha, hnewest⟩
    obtain ⟨hget, hof⟩ := mem_select.mp ha
    obtain ⟨rfl, rfl⟩ : a.executionId = x ∧ a.toolId = tool := by simpa [ofTool] using hof
    exact ⟨⟨hget, fun b hb hof => hnewest b (mem_select.mpr ⟨hb, hof⟩)⟩, rfl, rfl⟩

/-- A tool has at most one newest request. -/
theorem NewestOf.unique (ha : NewestOf t x tool a) (hb : NewestOf t x tool b) : a = b := by
  obtain ⟨hamem, hale⟩ := newestOf_iff.mp ha
  obtain ⟨hbmem, hble⟩ := newestOf_iff.mp hb
  have hid := id_eq_of_rank_eq (le_antisymm (hble a hamem) (hale b hbmem))
  exact Option.some.inj (ha.stored.symm.trans ((congrArg t.get hid).trans hb.stored))

end ApprovalRequests

open ApprovalRequests

/-! ### Resolving by tool -/

theorem get_save_respond_self (t : ApprovalRequests) (a : ApprovalRequest) (r : ApprovalResponse)
    (now : Time) : (t.save (a.respond r now)).get a.id = some (a.respond r now) :=
  get_save_self t (a.respond r now)

theorem get_save_respond_ne {id : Uuid} {now : Time} (h : id ≠ a.id) :
    (t.save (a.respond r now)).get id = t.get id :=
  get_save_ne (r := a.respond r now) h

/-- What a call that resolves the newest request of a tool makes of the requests, and what
it answers: it responds to a request that is pending, and it finds a request again that has
the status already. -/
inductive Resolves (x : Uuid) (tool : String) (r : ApprovalResponse) (t : ApprovalRequests) :
    Option ApprovalRequest → ApprovalRequests → Prop
  | absent : (∀ a, ¬ NewestOf t x tool a) → Resolves x tool r t none t
  | responds {a : ApprovalRequest} (now : Time) : NewestOf t x tool a → a.status = .pending →
      Resolves x tool r t (some (a.respond r now)) (t.save (a.respond r now))
  | again {a : ApprovalRequest} : NewestOf t x tool a → a.status ≠ .pending → a.status = r.status →
      Resolves x tool r t (some a) t
  | settled {a : ApprovalRequest} : NewestOf t x tool a → a.status ≠ .pending → a.status ≠ r.status →
      Resolves x tool r t none t

/-- The calls for one request after the other, and the identifiers they answer. -/
inductive Sweeps (x : Uuid) (r : ApprovalResponse) :
    List ApprovalRequest → ApprovalRequests → List Uuid → ApprovalRequests → Prop
  | nil (t : ApprovalRequests) : Sweeps x r [] t [] t
  | cons {a : ApprovalRequest} {as : List ApprovalRequest} {t t₁ t' : ApprovalRequests}
      {answer : Option ApprovalRequest} {ids : List Uuid} : Resolves x a.toolId r t answer t₁ →
      Sweeps x r as t₁ ids t' →
      Sweeps x r (a :: as) t ((answer.map ApprovalRequest.id).toList ++ ids) t'

variable {answer : Option ApprovalRequest}

/-- A call answers for the only newest request of its tool, if that is pending. -/
theorem Resolves.of_pending (h : Resolves x tool r t answer t') (ha : NewestOf t x tool a)
    (hpending : a.status = .pending) :
    ∃ now, answer = some (a.respond r now) ∧ t' = t.save (a.respond r now) := by
  cases h with
  | absent hnone => exact absurd ha (hnone a)
  | responds now hb _ =>
    obtain rfl := ha.unique hb
    exact ⟨now, rfl, rfl⟩
  | again hb hb' _ =>
    obtain rfl := ha.unique hb
    exact absurd hpending hb'
  | settled hb hb' _ =>
    obtain rfl := ha.unique hb
    exact absurd hpending hb'

/-- A call leaves every request alone but the newest one of its tool. -/
theorem Resolves.get_of_not_newest (h : Resolves x tool r t answer t') (ha : t.get a.id = some a)
    (hnot : a.status = .pending → ¬ NewestOf t x tool a) : t'.get a.id = some a := by
  cases h with
  | absent _ => exact ha
  | responds now hb hpending =>
    rw [get_save_ne]
    · exact ha
    rintro hid
    have hsame := Option.some.inj (ha.symm.trans ((congrArg t.get hid).trans hb.stored))
    subst hsame
    exact hnot hpending hb
  | again _ _ _ => exact ha
  | settled _ _ _ => exact ha

/-- What a call makes of a request keeps its place in the order. -/
theorem Resolves.kept (h : Resolves x tool r t answer t') (ha : t.get a.id = some a) :
    ∃ a', t'.get a.id = some a' ∧ a'.executionId = a.executionId ∧ a'.toolId = a.toolId ∧
      a'.rank = a.rank := by
  by_cases hnewest : a.status = .pending ∧ NewestOf t x tool a
  · obtain ⟨now, -, rfl⟩ := h.of_pending hnewest.2 hnewest.1
    exact ⟨a.respond r now, get_save_respond_self t a r now, rfl, rfl, rfl⟩
  · exact ⟨a, h.get_of_not_newest ha fun hp hn => hnewest ⟨hp, hn⟩, rfl, rfl, rfl⟩

/-- No request is new after a call. -/
theorem Resolves.was (h : Resolves x tool r t answer t') (ha : t'.get a.id = some a) :
    ∃ b, t.get a.id = some b ∧ b.executionId = a.executionId ∧ b.toolId = a.toolId ∧
      b.rank = a.rank := by
  have hsome : (t.get a.id).isSome := by
    cases h with
    | responds now hb _ =>
      rw [get_save] at ha
      split at ha
      next hid =>
        rw [hid]
        exact Option.isSome_of_eq_some hb.stored
      · exact Option.isSome_of_eq_some ha
    | absent _ => exact Option.isSome_of_eq_some ha
    | again _ _ _ => exact Option.isSome_of_eq_some ha
    | settled _ _ _ => exact Option.isSome_of_eq_some ha
  obtain ⟨b, hb⟩ := Option.isSome_iff_exists.mp hsome
  have hid : b.id = a.id := key_of_get hb
  obtain ⟨a', ha', hexec, htool, hrank⟩ := h.kept (hid ▸ hb)
  obtain rfl := Option.some.inj ((hid ▸ ha').symm.trans ha)
  exact ⟨b, hb, hexec.symm, htool.symm, hrank.symm⟩

/-- A call makes no request the newest of its tool. -/
theorem Resolves.isNewest_iff (h : Resolves x tool r t answer t') (ha : t.get a.id = some a)
    (ha' : t'.get a.id = some a) : IsNewest t' a ↔ IsNewest t a := by
  constructor
  · refine fun hn => ⟨ha, fun b hb hof => ?_⟩
    obtain ⟨b', hb', hexec, htool, hrank⟩ := h.kept hb
    have hid : b'.id = b.id := key_of_get hb'
    rw [← hrank]
    refine hn.newest b' (by rw [hid, hb']) ?_
    simpa [ofTool, hexec, htool] using hof
  · refine fun hn => ⟨ha', fun b hb hof => ?_⟩
    obtain ⟨b', hb', hexec, htool, hrank⟩ := h.was hb
    have hid : b'.id = b.id := key_of_get hb'
    rw [← hrank]
    refine hn.newest b' (by rw [hid, hb']) ?_
    simpa [ofTool, hexec, htool] using hof

/-! ### Whole sweeps -/

variable {as : List ApprovalRequest} {ids : List Uuid}

/-- **A sweep only responds to newest requests** of the tools it goes over. -/
theorem Sweeps.get_of_not_newest (h : Sweeps x r as t ids t') (ha : t.get a.id = some a)
    (hnot : a.status = .pending → a.executionId = x → (∃ b ∈ as, b.toolId = a.toolId) →
      ¬ IsNewest t a) : t'.get a.id = some a := by
  induction h with
  | nil t => exact ha
  | cons hstep _ ih =>
    have hkept := hstep.get_of_not_newest ha fun hpending hnewest =>
      hnot hpending hnewest.execution ⟨_, List.mem_cons_self, hnewest.asked.symm⟩ hnewest.toIsNewest
    refine ih hkept fun hpending hexec hsome hnewest => ?_
    obtain ⟨b, hb, htool⟩ := hsome
    exact hnot hpending hexec ⟨b, List.mem_cons_of_mem _ hb, htool⟩
      ((hstep.isNewest_iff ha hkept).mp hnewest)

/-- The expiry is complete: no request of the execution is pending, what was not pending is
unchanged, and the identifiers are those of the requests that were, each once. -/
structure ExpiresAll (x : Uuid) (t t' : ApprovalRequests) (ids : List Uuid) : Prop where
  nonePending : ∀ a, t'.get a.id = some a → a.executionId = x → a.status ≠ .pending
  unchanged : ∀ a, t.get a.id = some a → a.status ≠ .pending → t'.get a.id = some a
  once : ids.Nodup
  exact : ∀ id, id ∈ ids ↔ ∃ a, t.get id = some a ∧ a.executionId = x ∧ a.status = .pending

/-- Every pending request of the execution has a tool and is the newest of its tool. -/
def Expirable (x : Uuid) (t : ApprovalRequests) : Prop :=
  ∀ a, t.get a.id = some a → a.executionId = x → a.status = .pending → a.toolId ≠ "" ∧ IsNewest t a

/-- A sweep over requests that are pending and the newest of their tools expires each of
them, and nothing else. -/
theorem Sweeps.of_newest (h : Sweeps x r as t ids t') (hnodup : (as.map ApprovalRequest.id).Nodup)
    (hall : ∀ a ∈ as, a.status = .pending ∧ NewestOf t x a.toolId a) :
    ids = as.map ApprovalRequest.id ∧ (∀ a ∈ as, ∃ now, t'.get a.id = some (a.respond r now)) ∧
      ∀ id ∉ as.map ApprovalRequest.id, t'.get id = t.get id := by
  induction h with
  | nil t => exact ⟨rfl, by simp, fun _ _ => rfl⟩
  | @cons a as t t₁ t' answer ids hstep _ ih =>
    obtain ⟨hpending, hnewest⟩ := hall a List.mem_cons_self
    obtain ⟨now, rfl, rfl⟩ := hstep.of_pending hnewest hpending
    obtain ⟨hhead, hnodup⟩ := List.nodup_cons.mp hnodup
    have hne : ∀ b ∈ as, b.id ≠ a.id := by
      intro b hb hid
      exact hhead (hid ▸ List.mem_map_of_mem hb)
    have hrest : ∀ b ∈ as, b.status = .pending ∧
        NewestOf (t.save (a.respond r now)) x b.toolId b := by
      intro b hb
      obtain ⟨hp, hn⟩ := hall b (List.mem_cons_of_mem _ hb)
      have hkept : (t.save (a.respond r now)).get b.id = some b := by
        rw [get_save_respond_ne (hne b hb), hn.stored]
      exact ⟨hp, (hstep.isNewest_iff hn.stored hkept).mpr hn.toIsNewest, hn.execution, rfl⟩
    obtain ⟨rfl, hdone, hothers⟩ := ih hnodup hrest
    refine ⟨rfl, fun b hb => ?_, fun id hid => ?_⟩
    · rcases List.mem_cons.mp hb with rfl | hb
      · refine ⟨now, ?_⟩
        rw [hothers b.id hhead]
        exact get_save_respond_self t b r now
      · exact hdone b hb
    · rw [List.map_cons, List.mem_cons, not_or] at hid
      rw [hothers id hid.2, get_save_respond_ne hid.1]

/-- The requests the loop goes over. -/
def pendingOf (x : Uuid) (t : ApprovalRequests) : List ApprovalRequest :=
  (t.selectOrdered (·.executionId = x) oldestFirst).filter fun r =>
    r.status = .pending && r.toolId ≠ ""

theorem mem_pendingOf : a ∈ pendingOf x t ↔
    t.get a.id = some a ∧ a.executionId = x ∧ a.status = .pending ∧ a.toolId ≠ "" := by
  rw [pendingOf, List.mem_filter, mem_selectOrdered]
  simp [and_assoc]

/-- **A sweep over the pending requests is complete just if they can all be reached.** -/
theorem Sweeps.expiresAll_iff (h : Sweeps x r (pendingOf x t) t ids t') (hr : r.status ≠ .pending) :
    ExpiresAll x t t' ids ↔ Expirable x t := by
  constructor
  · -- what is not the newest of a tool is pending to the end
    intro hdone a ha hexec hpending
    by_contra hnot
    refine hdone.nonePending a (h.get_of_not_newest ha ?_) hexec hpending
    rintro - - ⟨b, hb, htool⟩ hnewest
    exact hnot ⟨htool ▸ (mem_pendingOf.mp hb).2.2.2, hnewest⟩
  · intro hcan
    have hnodup : ((pendingOf x t).map ApprovalRequest.id).Nodup :=
      (t.nodup_keys_selectOrdered _ _).sublist (List.filter_sublist.map _)
    obtain ⟨rfl, hdone, hothers⟩ := h.of_newest hnodup fun a ha => by
      obtain ⟨hget, hexec, hpending, -⟩ := mem_pendingOf.mp ha
      exact ⟨hpending, (hcan a hget hexec hpending).2, hexec, rfl⟩
    have hmem : ∀ id, id ∈ (pendingOf x t).map ApprovalRequest.id ↔
        ∃ a, t.get id = some a ∧ a.executionId = x ∧ a.status = .pending := by
      intro id
      rw [List.mem_map]
      constructor
      · rintro ⟨a, ha, rfl⟩
        obtain ⟨hget, hexec, hpending, -⟩ := mem_pendingOf.mp ha
        exact ⟨a, hget, hexec, hpending⟩
      · rintro ⟨a, hget, hexec, hpending⟩
        obtain rfl : a.id = id := key_of_get hget
        exact ⟨a, mem_pendingOf.mpr ⟨hget, hexec, hpending, (hcan a hget hexec hpending).1⟩, rfl⟩
    refine ⟨fun a ha hexec hpending => ?_, fun a ha hpending => ?_, hnodup, hmem⟩
    · by_cases hin : a.id ∈ (pendingOf x t).map ApprovalRequest.id
      · obtain ⟨b, hb, hid⟩ := List.mem_map.mp hin
        obtain ⟨now, hnow⟩ := hdone b hb
        obtain rfl := Option.some.inj (ha.symm.trans ((congrArg t'.get hid).symm.trans hnow))
        exact hr hpending
      · rw [hothers a.id hin] at ha
        exact hin ((hmem a.id).mpr ⟨a, ha, hexec, hpending⟩)
    · rw [hothers a.id, ha]
      intro hin
      obtain ⟨b, hget, -, hb⟩ := (hmem a.id).mp hin
      obtain rfl := Option.some.inj (ha.symm.trans hget)
      exact hpending hb

/-! ### The database -/

variable {env : Environment} {w : World}

/-- `LIMIT 1` of the newest-first order. -/
theorem latestApprovalRequest_eq_some {db : Database} {id : Uuid} :
    db.latestApprovalRequest x tool = some id ↔
      ∃ a, NewestOf db.approvalRequests x tool a ∧ a.id = id := by
  have hhead : ∀ a, ((db.approvalRequests.selectOrdered (ofTool x tool)
      ApprovalRequest.newestFirst).head? = some a ↔ NewestOf db.approvalRequests x tool a) := by
    intro a
    rw [ApprovalRequest.newestFirst_eq, newestOf_iff]
    exact head?_selectOrdered_desc ApprovalRequest.rank
      fun _ _ _ _ => id_eq_of_rank_eq
  show (List.head? _).map ApprovalRequest.id = some id ↔ _
  rw [Option.map_eq_some_iff]
  exact exists_congr fun a => and_congr_left fun _ => hhead a

variable {E : RuntimeException → World → Prop}

/-- `SQLExecutionStore.resolve_pending_approval_request` refines the call by tool. -/
theorem wp_resolvePendingApprovalRequest {Q : Option ApprovalRequest → World → Prop}
    (hQ : ∀ answer w', Resolves x tool r w.db.approvalRequests answer w'.db.approvalRequests →
      Q answer w') :
    (resolvePendingApprovalRequest x tool r).wp (handler env) Q E w := by
  rw [resolvePendingApprovalRequest, wp_utcNow, wp_query]
  simp only [exec]
  rcases hlatest : w.db.latestApprovalRequest x tool with - | id
  · refine wp_of_done (hQ none _ (.absent fun a ha => ?_))
    rw [latestApprovalRequest_eq_some.mpr ⟨a, ha, rfl⟩] at hlatest
    cases hlatest
  · obtain ⟨a, ha, rfl⟩ := latestApprovalRequest_eq_some.mp hlatest
    dsimp only
    rw [wp_query]
    by_cases hpending : a.status = .pending
    · have hexec : (updatePendingApprovalRequest a.id r (env.clock w.clockReads)).exec w.db
          = (1, { w.db with approvalRequests :=
              w.db.approvalRequests.save (a.respond r (env.clock w.clockReads)) }) := by
        rw [exec, updateIf_pos ha.stored (by simpa using hpending)]
      simp only [hexec]
      rw [wp_query]
      simp only [exec, get_save_respond_self]
      exact wp_of_done (hQ _ _ (.responds _ ha hpending))
    · have hexec : (updatePendingApprovalRequest a.id r (env.clock w.clockReads)).exec w.db
          = (0, w.db) := by
        rw [exec, updateIf_neg]
        intro b hb
        obtain rfl := Option.some.inj (ha.stored.symm.trans hb)
        simpa using hpending
      simp only [hexec]
      rw [wp_query]
      simp only [exec, ha.stored, Nat.zero_ne_one, decide_false, Bool.false_or]
      by_cases hstatus : a.status = r.status
      · rw [if_pos (by simpa using hstatus)]
        exact wp_of_done (hQ _ _ (.again ha hpending hstatus))
      · rw [if_neg (by simpa using hstatus)]
        exact wp_of_done (hQ _ _ (.settled ha hpending hstatus))

theorem expiredResponse_settles (reason : String) : (expiredResponse reason).status ≠ .pending := by
  simp [expiredResponse]

/-- The loop is a sweep. -/
theorem wp_expireApprovalRequests (reason : String) (as : List ApprovalRequest)
    {Q : List Uuid → World → Prop}
    (hQ : ∀ ids w', Sweeps x (expiredResponse reason) as w.db.approvalRequests ids
      w'.db.approvalRequests → Q ids w') :
    (Program.collect (expireApprovalRequest x reason) as).wp (handler env) Q E w := by
  induction as generalizing w Q with
  | nil => exact wp_of_done (hQ [] w (.nil _))
  | cons a as ih =>
    rw [Program.collect, wp_bind, expireApprovalRequest, wp_bind]
    apply wp_resolvePendingApprovalRequest
    intro answer w₁ hstep
    have hrest : ∀ found : List Uuid, found = (answer.map ApprovalRequest.id).toList →
        (Program.collect (expireApprovalRequest x reason) as >>= fun rest =>
          Program.done (found ++ rest)).wp (handler env) Q E w₁ := by
      rintro _ rfl
      rw [wp_bind]
      exact ih fun ids w' h => wp_of_done (hQ _ w' (.cons hstep h))
    rcases answer with - | b
    · exact wp_of_done (hrest [] rfl)
    · exact wp_of_done (hrest [b.id] rfl)

/-! ### The store of one process -/

/-- `_approval_requests` of an `InMemoryExecutionStore`, and the readings of the clock. -/
structure InMemoryApprovals where
  requests : ApprovalRequests := empty
  clockReads : ℕ := 0

namespace InMemoryApprovals

/-- `update_approval_request`. -/
def updateApprovalRequest (env : Environment) (id : Uuid) (r : ApprovalResponse)
    (s : InMemoryApprovals) : InMemoryApprovals :=
  match s.requests.get id with
  | none => s
  | some current =>
    { requests := s.requests.save (current.respond r (env.clock s.clockReads))
      clockReads := s.clockReads + 1 }

/-- `resolve_pending_approval_request`. -/
def resolvePendingApprovalRequest (env : Environment) (x : Uuid) (tool : String)
    (r : ApprovalResponse) (s : InMemoryApprovals) : Option ApprovalRequest × InMemoryApprovals :=
  match (s.requests.select (ofTool x tool)).argmax ApprovalRequest.rank with
  | none => (none, s)
  | some current =>
    if current.status = r.status then (some current, s)
    else if current.status ≠ .pending then (none, s)
    else
      let s' := s.updateApprovalRequest env current.id r
      (s'.requests.get current.id, s')

/-- The loop of `_expire_pending_execution_approvals`. -/
def expireApprovalRequests (env : Environment) (x : Uuid) (reason : String) :
    List ApprovalRequest → InMemoryApprovals → List Uuid × InMemoryApprovals
  | [], s => ([], s)
  | a :: as, s =>
    let (expired, s₁) :=
      s.resolvePendingApprovalRequest env x a.toolId (expiredResponse reason)
    let (ids, s') := expireApprovalRequests env x reason as s₁
    ((expired.map ApprovalRequest.id).toList ++ ids, s')

/-- `_expire_pending_execution_approvals`. -/
def expirePendingExecutionApprovals (env : Environment) (x : Uuid) (reason : String)
    (s : InMemoryApprovals) : List Uuid × InMemoryApprovals :=
  s.expireApprovalRequests env x reason (pendingOf x s.requests)

/-- `max(matches, key=…)` is the newest request. -/
theorem argmax_eq_some : (t.select (ofTool x tool)).argmax ApprovalRequest.rank = some a →
    NewestOf t x tool a :=
  fun h => newestOf_iff.mpr ⟨List.argmax_mem h, fun _ hb => List.le_of_mem_argmax hb h⟩

/-- The in-memory store refines the call by tool. -/
theorem resolves (hr : r.status ≠ .pending) (s : InMemoryApprovals) :
    Resolves x tool r s.requests (s.resolvePendingApprovalRequest env x tool r).1
      (s.resolvePendingApprovalRequest env x tool r).2.requests := by
  unfold resolvePendingApprovalRequest
  rcases hmax : (s.requests.select (ofTool x tool)).argmax ApprovalRequest.rank with - | a
  · refine .absent fun a ha => ?_
    have hmem := (newestOf_iff.mp ha).1
    rw [List.argmax_eq_none.mp hmax] at hmem
    cases hmem
  · have ha := argmax_eq_some hmax
    dsimp only
    by_cases hstatus : a.status = r.status
    · rw [if_pos hstatus]
      exact .again ha (hstatus ▸ hr) hstatus
    rw [if_neg hstatus]
    by_cases hpending : a.status = .pending
    · rw [if_neg (not_not.mpr hpending)]
      simp only [updateApprovalRequest, ha.stored, get_save_respond_self]
      exact .responds _ ha hpending
    · rw [if_pos hpending]
      exact .settled ha hpending hstatus

theorem sweeps (env : Environment) (x : Uuid) (reason : String) (as : List ApprovalRequest)
    (s : InMemoryApprovals) :
    Sweeps x (expiredResponse reason) as s.requests (s.expireApprovalRequests env x reason as).1
      (s.expireApprovalRequests env x reason as).2.requests := by
  induction as generalizing s with
  | nil => exact .nil _
  | cons a as ih => exact .cons (resolves (expiredResponse_settles reason) s) (ih _)

end InMemoryApprovals

/-! ### The expiry -/

/-- **When the expiry is complete.**  Whichever store keeps the requests, the expiry returns,
and it leaves no request of the execution pending, changes no other and answers each
expired one once, just if every pending request of the execution names a tool and is the
newest request for it. -/
theorem approvalExpiry_complete_iff (env : Environment) (x : Uuid) (reason : String) :
    (∀ w : World, ∃ ids w',
      (expirePendingExecutionApprovals x reason).run (handler env) w = (.ok ids, w') ∧
        (ExpiresAll x w.db.approvalRequests w'.db.approvalRequests ids ↔
          Expirable x w.db.approvalRequests)) ∧
    ∀ s : InMemoryApprovals,
      let (ids, s') := s.expirePendingExecutionApprovals env x reason
      ExpiresAll x s.requests s'.requests ids ↔ Expirable x s.requests := by
  constructor
  · intro w
    have hwp : (expirePendingExecutionApprovals x reason).wp (handler env)
        (fun ids w' => ExpiresAll x w.db.approvalRequests w'.db.approvalRequests ids ↔
          Expirable x w.db.approvalRequests) (fun _ _ => False) w := by
      rw [expirePendingExecutionApprovals, wp_query]
      exact wp_expireApprovalRequests reason _ fun ids w' h => h.expiresAll_iff (expiredResponse_settles reason)
    obtain ⟨hok, herror⟩ := (wp_iff_run _ _).mp hwp
    rcases hrun : (expirePendingExecutionApprovals x reason).run (handler env) w with ⟨e | ids, w'⟩
    · exact (herror e w' hrun).elim
    · exact ⟨ids, w', rfl, hok ids w' hrun⟩
  · intro s
    exact (InMemoryApprovals.sweeps env x reason _ s).expiresAll_iff
      (expiredResponse_settles reason)

namespace TwoRequests

def request (id : Uuid) (requestedAt : Time) : ApprovalRequest where
  id := id
  executionId := 7
  eventId := none
  toolId := "send_mail"
  status := .pending
  requestPayload := .null
  requestedAt := requestedAt

/-- The tool has been asked for twice. -/
def requests : ApprovalRequests := (empty.save (request 1 10)).save (request 2 20)

/-- The older request is left pending, and the newer one is answered twice. -/
theorem expires_only_newest : ¬ ∀ (env : Environment) (w : World) (ids : List Uuid) (w' : World),
    (expirePendingExecutionApprovals 7 "gone").run (handler env) w = (.ok ids, w') →
      ExpiresAll 7 w.db.approvalRequests w'.db.approvalRequests ids := by
  intro h
  rcases hrun : (expirePendingExecutionApprovals 7 "gone").run (handler .silent)
    { db := { approvalRequests := requests } } with ⟨e | ids, w'⟩
  · have hok : ((expirePendingExecutionApprovals 7 "gone").run (handler .silent)
        { db := { approvalRequests := requests } }).1.isOk = true := by decide +kernel
    rw [hrun] at hok
    cases hok
  · have hids : ((expirePendingExecutionApprovals 7 "gone").run (handler .silent)
        { db := { approvalRequests := requests } }).1.toOption = some [2, 2] := by decide +kernel
    rw [hrun] at hids
    obtain rfl : ids = [2, 2] := Option.some.inj hids
    exact absurd (h _ _ _ _ hrun).once (by decide)

end TwoRequests

end OpenAgency
