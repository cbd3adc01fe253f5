/-
CatalogAgreement.lean

The SQL and the in-memory repository of workflows give the same answers.  A view says what a
catalog is (`WorkflowView`): the workflow under each identifier, whether it is live, and the
workflow that each of its revisions holds.  Either repository shows a view, each call keeps
both showing one (`answerBoth_same`), and what a call answers depends on the view alone, up
to the order of lists and the times of versions.

A view is kept by the calls that meet `Admits`.  The repositories part where a deleted
workflow is saved (the SQL repository enables its row, the other one keeps the mark), is
deleted again or is looked up among the deleted ones, and where revision 0 is written, since
`current_version or 1` then points to revision 1.
-/
import Mathlib.Data.List.ReduceOption
import OpenAgency.Lib.History
import OpenAgency.WorkflowCatalog

namespace OpenAgency

open Relational Interaction List Table Json Catalog Dict
open WorkflowVersionORM (ofItem)
open CatalogWorkflow (versionId)

/-! ### Identifiers of versions -/

/-- Numerals of integers are digits behind a sign. -/
theorem mem_toList_toString {c : Char} {r : ℤ} (h : c ∈ (toString r).toList) :
    c.isDigit ∨ c = '-' := by
  rw [Int.toString_eq_repr, Int.repr_eq_if] at h
  split at h
  · rw [Nat.toList_repr] at h
    exact .inl (Nat.isDigit_of_mem_toDigits (by decide) (by decide) h)
  · rw [String.toList_append, Nat.toList_repr, mem_append] at h
    rcases h with h | h
    · exact .inr (by simpa using h)
    · exact .inl (Nat.isDigit_of_mem_toDigits (by decide) (by decide) h)

theorem toString_int_inj {r q : ℤ} (h : toString r = toString q) : r = q := by
  rw [Int.toString_eq_repr, Int.toString_eq_repr, Int.repr_eq_if, Int.repr_eq_if] at h
  have hsign : ∀ n k : ℕ, n.repr ≠ "-" ++ k.repr := by
    intro n k h
    have hmem : '-' ∈ n.repr.toList := by simp [h]
    rw [Nat.toList_repr] at hmem
    exact absurd (Nat.isDigit_of_mem_toDigits (by decide) (by decide) hmem) (by decide)
  split at h <;> split at h
  · have := natRepr_inj h
    omega
  · exact absurd h (hsign _ _)
  · exact absurd h.symm (hsign _ _)
  · have := natRepr_inj (String.append_right_inj "-" |>.mp h)
    omega

/-- What stands before and after the last occurrence of an element is determined. -/
theorem append_cons_inj_right {α : Type} {c : α} {as bs xs ys : List α}
    (hxs : c ∉ xs) (hys : c ∉ ys) (h : as ++ c :: xs = bs ++ c :: ys) : as = bs ∧ xs = ys := by
  rcases List.append_eq_append_iff.mp h with ⟨mid, rfl, heq⟩ | ⟨mid, rfl, heq⟩
  · cases mid with
    | nil => exact ⟨(append_nil as).symm, (List.cons.inj heq).2⟩
    | cons d mid => exact absurd ((List.cons.inj heq).2 ▸ by simp) hxs
  · cases mid with
    | nil => exact ⟨append_nil bs, (List.cons.inj heq).2.symm⟩
    | cons d mid => exact absurd ((List.cons.inj heq).2 ▸ by simp) hys

/-- **An identifier of a version names one version.** -/
theorem versionId_inj {id id' : String} {r r' : ℤ} (h : versionId id r = versionId id' r') :
    id = id' ∧ r = r' := by
  have hcolon : ∀ q : ℤ, ':' ∉ 'v' :: (toString q).toList := by
    intro q hmem
    rcases List.mem_cons.mp hmem with hmem | hmem
    · exact absurd hmem (by decide)
    · rcases mem_toList_toString hmem with hdigit | hminus
      · exact absurd hdigit (by decide)
      · exact absurd hminus (by decide)
  have hlist : ∀ (a : String) (q : ℤ), (versionId a q).toList =
      a.toList ++ ':' :: 'v' :: (toString q).toList := by
    intro a q
    show (a ++ ":v" ++ toString q).toList = _
    rw [String.toList_append, String.toList_append, append_assoc]
    rfl
  obtain ⟨hid, hrevision⟩ := append_cons_inj_right (hcolon r) (hcolon r')
    ((hlist id r).symm.trans ((congrArg String.toList h).trans (hlist id' r')))
  exact ⟨String.toList_inj.mp hid,
    toString_int_inj (String.toList_inj.mp (List.cons.inj hrevision).2)⟩

/-! ### What the repositories show -/

/-- The workflows of a catalog, each with whether it is live, and the workflow that each
revision holds. -/
structure WorkflowView (m : WorkflowModel) where
  current : String → Option (CatalogWorkflow × Bool)
  revisions : String → ℤ → Option CatalogWorkflow
  current_ok : ∀ {id w live}, current id = some (w, live) →
    w.id = id ∧ m.validate w.modelDump = .ok w ∧ w.revision ≠ 0 ∧ revisions id w.revision = some w
  revisions_ok : ∀ {id r w}, revisions id r = some w →
    w.id = id ∧ w.revision = r ∧ (current id).isSome

namespace WorkflowView

variable {m : WorkflowModel} (v : WorkflowView m)

def empty : WorkflowView m where
  current _ := none
  revisions _ _ := none
  current_ok := nofun
  revisions_ok := nofun

/-- The workflow is the current one, and what its revision holds. -/
def put (w : m.Workflow) (hrevision : w.1.revision ≠ 0) : WorkflowView m where
  current id := if id = w.1.id then some (w.1, true) else v.current id
  revisions id r := if id = w.1.id ∧ r = w.1.revision then some w.1 else v.revisions id r
  current_ok := by
    intro id w' live h
    split at h
    next hid =>
      cases h
      exact ⟨hid.symm, w.2, hrevision, if_pos ⟨hid, rfl⟩⟩
    next hid =>
      obtain ⟨hw, hvalid, hr, hrev⟩ := v.current_ok h
      exact ⟨hw, hvalid, hr, (if_neg fun hand => hid hand.1).trans hrev⟩
  revisions_ok := by
    intro id r w' h
    split at h
    next hand =>
      cases h
      exact ⟨hand.1.symm, hand.2.symm, by simp [hand.1]⟩
    · obtain ⟨hw, hr, hsome⟩ := v.revisions_ok h
      refine ⟨hw, hr, ?_⟩
      split
      · rfl
      · exact hsome

/-- The workflow under an identifier is no longer live. -/
def delete (id : String) : WorkflowView m where
  current id' := (v.current id').map fun c => (c.1, c.2 && id' ≠ id)
  revisions := v.revisions
  current_ok := by
    intro id' w live h
    obtain ⟨⟨w', live'⟩, hcurrent, heq⟩ := Option.map_eq_some_iff.mp h
    cases heq
    exact v.current_ok hcurrent
  revisions_ok := by
    intro id' r w h
    rw [Option.isSome_map]
    exact v.revisions_ok h

/-- The workflow under an identifier, unless it is deleted. -/
def find (id : String) : Option CatalogWorkflow :=
  (v.current id).bind fun c => if c.2 then some c.1 else none

variable {w : CatalogWorkflow} {id : String}

theorem find_of_live (h : v.current id = some (w, true)) : v.find id = some w := by
  rw [find, h]
  rfl

theorem find_of_deleted (h : v.current id = some (w, false)) : v.find id = none := by
  rw [find, h]
  rfl

theorem find_of_absent (h : v.current id = none) : v.find id = none := by
  rw [find, h]
  rfl

theorem live_of_find (h : v.find id = some w) : w.id = id ∧ v.current id = some (w, true) := by
  obtain ⟨⟨w', live⟩, hcurrent, hlive⟩ := Option.bind_eq_some_iff.mp h
  cases live with
  | false => cases hlive
  | true =>
    cases hlive
    exact ⟨(v.current_ok hcurrent).1, hcurrent⟩

def Deleted (id : String) : Prop := ∃ w, v.current id = some (w, false)

end WorkflowView

/-! ### Versions up to their times -/

/-- A record without its timestamps, but for whether it has been published. -/
def VersionRecord.untimed (v : VersionRecord) : VersionRecord :=
  { v with createdAt := 0, publishedAt := v.publishedAt.map fun _ => 0 }

/-- The version that a workflow is, where `current` is the current revision. -/
def CatalogWorkflow.versionOf (w : CatalogWorkflow) (current : ℤ) : VersionRecord :=
  { w.versionPayload 0 0 with isCurrent := w.revision = current }

theorem untimed_payload (w : CatalogWorkflow) (createdAt now : Time) (current : ℤ) :
    VersionRecord.untimed
      { w.versionPayload createdAt now with isCurrent := w.revision = current } =
        w.versionOf current := by
  have hpublished : (w.publishedAt now).map (fun _ => 0) = w.publishedAt 0 := by
    unfold CatalogWorkflow.publishedAt
    split <;> rfl
  simp only [VersionRecord.untimed, CatalogWorkflow.versionOf, CatalogWorkflow.versionPayload,
    hpublished]

/-- A row is listed as the version that it holds. -/
theorem untimed_toRecord (w : CatalogWorkflow) (createdAt now : Time) (current : ℤ) :
    ((ofItem w createdAt now).toRecord (some current)).untimed = w.versionOf current := by
  rw [← untimed_payload w createdAt now]
  have hlabels : (strs w.versioning.labels).orElse (.arr []) = .strs w.versioning.labels := by
    rcases hl : w.versioning.labels with - | ⟨l, ls⟩ <;> rfl
  have hcurrent : decide (some w.revision = some current) = decide (w.revision = current) := by
    simp
  congr 1
  show VersionRecord.mk _ _ _ _ _ ((strs w.versioning.labels).orElse (.arr [])) _ _
    (decide (some w.revision = some current)) _ _ _ _ = _
  rw [hlabels, hcurrent]
  rfl

namespace WorkflowView

variable {m : WorkflowModel} (v : WorkflowView m)

/-- The version under a revision of a workflow. -/
def version (id : String) (r : ℤ) : Option VersionRecord :=
  (v.current id).bind fun c => (v.revisions id r).map (·.versionOf c.1.revision)

/-- The records are the versions of a workflow, latest revision first. -/
structure Lists (id : String) (records : List VersionRecord) : Prop where
  ordered : records.Pairwise fun a b => b.revision < a.revision
  mem_iff : ∀ record, record ∈ records ↔ ∃ r, v.version id r = some record

theorem Lists.unique {id : String} {as bs : List VersionRecord} (h : v.Lists id as)
    (h' : v.Lists id bs) : as = bs := by
  have hirrefl : Std.Irrefl fun a b : VersionRecord => b.revision < a.revision :=
    ⟨fun a => lt_irrefl a.revision⟩
  have hantisymm : Std.Antisymm fun a b : VersionRecord => b.revision < a.revision :=
    ⟨fun a b hab hba => absurd (hab.trans hba) (lt_irrefl _)⟩
  apply List.Pairwise.eq_of_mem_iff h.ordered h'.ordered
  intro record
  rw [h.mem_iff, h'.mem_iff]

theorem revision_of_version {id : String} {r : ℤ} {record : VersionRecord}
    (h : v.version id r = some record) : record.revision = r := by
  obtain ⟨c, -, h⟩ := Option.bind_eq_some_iff.mp h
  obtain ⟨w, hrev, rfl⟩ := Option.map_eq_some_iff.mp h
  exact (v.revisions_ok hrev).2.1

/-- A version is found in the list by its revision. -/
theorem Lists.find? {id : String} {records : List VersionRecord} (h : v.Lists id records) (r : ℤ) :
    records.find? (·.revision = r) = v.version id r := by
  rcases hfound : records.find? (·.revision = r) with - | record
  · rcases hversion : v.version id r with - | record
    · exact hfound
    · have hnot := List.find?_eq_none.mp hfound record ((h.mem_iff record).mpr ⟨r, hversion⟩)
      exact absurd (decide_eq_true (v.revision_of_version hversion)) hnot
  · have hr : record.revision = r := by simpa using List.find?_some hfound
    obtain ⟨r', hversion⟩ := (h.mem_iff record).mp (mem_of_find?_eq_some hfound)
    have hr' : r' = r := (v.revision_of_version hversion).symm.trans hr
    rw [hfound, ← hr', hversion]

/-- The workflows that are live. -/
def Finds (ws : List CatalogWorkflow) : Prop := ∀ w, w ∈ ws ↔ ∃ id, v.find id = some w

end WorkflowView

/-- A loop none of whose turns fails. -/
theorem exists_mapM_ok {ε α β : Type} {f : α → Except ε β} {l : List α}
    (h : ∀ a ∈ l, ∃ b, f a = .ok b) :
    ∃ bs, l.mapM f = .ok bs ∧ ∀ b, b ∈ bs ↔ ∃ a ∈ l, f a = .ok b := by
  induction l with
  | nil => exact ⟨[], rfl, by simp⟩
  | cons a l ih =>
    obtain ⟨b, hb⟩ := h a mem_cons_self
    obtain ⟨bs, hbs, hmem⟩ := ih fun a' ha' => h a' (mem_cons_of_mem _ ha')
    refine ⟨b :: bs, ?_, fun b' => ?_⟩
    · rw [mapM_cons, hb, hbs]
      rfl
    · simp only [mem_cons, hmem, exists_eq_or_imp, hb, Except.ok.injEq]
      exact or_congr_left eq_comm

/-- Writing what a key holds changes nothing. -/
theorem Dict.set_eq_self {α : Type} {d : Dict α} {k : String} {v : α} (h : d.get? k = some v) :
    d.set k v = d := by
  induction d with
  | nil => cases h
  | cons p d ih =>
    obtain ⟨k₁, v₁⟩ := p
    rw [get?_cons] at h
    by_cases hk : k = k₁
    · rw [if_pos hk] at h
      cases h
      rw [set, if_pos hk]
    · rw [if_neg hk] at h
      rw [set, if_neg hk, ih h]

/-! ### The SQL repository -/

namespace SqlWorkflows

variable {m : WorkflowModel}

/-- The tables hold what the view shows. -/
structure Shows (s : SqlWorkflows) (v : WorkflowView m) : Prop where
  rows : ∀ id, s.workflows.get id =
    (v.current id).map fun c => { WorkflowORM.ofItem c.1 with enabled := c.2 }
  stored : ∀ {id r w}, v.revisions id r = some w → ∃ createdAt now,
    s.versions.get (versionId id r) = some (.ofItem w createdAt now)
  known : ∀ {key row}, s.versions.get key = some row → ∃ w createdAt now,
    v.revisions row.workflowId row.version = some w ∧ row = .ofItem w createdAt now

namespace Shows

variable {s : SqlWorkflows} {v : WorkflowView m} {id : String} {r : ℤ} {w : CatalogWorkflow}

theorem empty : ({} : SqlWorkflows).Shows (WorkflowView.empty (m := m)) where
  rows _ := rfl
  stored := nofun
  known := nofun

/-- The rows of one version. -/
theorem mem_select (h : s.Shows v) {row : WorkflowVersionORM}
    (hrow : row ∈ s.versions.select fun row => row.workflowId = id && row.version = r) :
    ∃ w createdAt now, v.revisions id r = some w ∧ row = .ofItem w createdAt now := by
  obtain ⟨hget, hof⟩ := Table.mem_select.mp hrow
  simp only [Bool.and_eq_true, decide_eq_true_eq] at hof
  obtain ⟨w, createdAt, now, hrev, heq⟩ := h.known hget
  rw [hof.1, hof.2] at hrev
  exact ⟨w, createdAt, now, hrev, heq⟩

theorem versionOf_some (h : s.Shows v) (hrev : v.revisions id r = some w) :
    ∃ createdAt now, s.versionOf id r = some (.ofItem w createdAt now) := by
  obtain ⟨createdAt, now, hget⟩ := h.stored hrev
  obtain ⟨hid, hr, -⟩ := v.revisions_ok hrev
  have hmem : ofItem w createdAt now ∈
      s.versions.select fun row => row.workflowId = id && row.version = r := by
    rw [Table.mem_select]
    refine ⟨?_, by simp [ofItem, hid, hr]⟩
    rw [← hget, ← hid, ← hr]
    rfl
  rcases hhead : s.versionOf id r with - | row
  · rw [SqlWorkflows.versionOf, List.head?_eq_none_iff] at hhead
    rw [hhead] at hmem
    cases hmem
  · obtain ⟨w', createdAt', now', hrev', rfl⟩ := h.mem_select (mem_of_mem_head? hhead)
    cases hrev.symm.trans hrev'
    exact ⟨createdAt', now', rfl⟩

theorem versionOf_none (h : s.Shows v) (hrev : v.revisions id r = none) :
    s.versionOf id r = none := by
  rcases hhead : s.versionOf id r with - | row
  · rfl
  · obtain ⟨w, -, -, hrev', -⟩ := h.mem_select (mem_of_mem_head? hhead)
    cases hrev.symm.trans hrev'

/-- What is read into a definition stood in it already. -/
theorem modelDump_set (w : CatalogWorkflow) :
    ((w.modelDump.set "id" (.str w.id)).set "name" (w.field .name)).set "description"
      (w.field .description) = w.modelDump := rfl

theorem loadDomain (h : s.Shows v) (id : String) : s.loadDomain m id = .ok (v.find id) := by
  rw [SqlWorkflows.loadDomain, h.rows]
  rcases hcurrent : v.current id with - | ⟨w, live⟩
  · rw [v.find_of_absent hcurrent]
    rfl
  · obtain ⟨hid, hvalid, hne, hrev⟩ := v.current_ok hcurrent
    cases live with
    | false =>
      rw [v.find_of_deleted hcurrent]
      rfl
    | true =>
      obtain ⟨createdAt, now, hversion⟩ := h.versionOf_some hrev
      have hnumber : versionNumber (WorkflowORM.ofItem w).currentVersion = w.revision := by
        show versionNumber (some w.revision) = w.revision
        unfold versionNumber
        split
        next heq => exact absurd (Option.some.inj heq) hne
        next heq => cases heq
        next heq => exact (Option.some.inj heq).symm
      rw [v.find_of_live hcurrent]
      simp only [Option.map_some, hnumber, hversion, Bool.not_true, Bool.false_eq_true, if_false]
      show some <$> m.validate _ = _
      simp only [ofItem, WorkflowORM.ofItem, modelDump_set, hvalid]
      rfl

/-- Workflow and version are written under their identifiers. -/
theorem save (h : s.Shows v) (item : m.Workflow) (hne : item.1.revision ≠ 0) (now : Time) :
    (s.save now item.1).2.Shows (v.put item hne) where
  rows id := by
    show (s.workflows.save (.ofItem item.1)).get id = Option.map _ (if _ then _ else _)
    rw [get_save]
    show (if id = item.1.id then _ else _) = _
    by_cases hid : id = item.1.id
    · rw [if_pos hid, if_pos hid]
      rfl
    · rw [if_neg hid, if_neg hid]
      exact h.rows id
  stored := by
    intro id r w hrev
    change (if _ then _ else _) = _ at hrev
    split at hrev
    next hand =>
      cases hrev
      obtain ⟨rfl, rfl⟩ := hand
      exact ⟨_, _, get_save_self _ _⟩
    next hother =>
      obtain ⟨createdAt, stored, hget⟩ := h.stored hrev
      refine ⟨createdAt, stored, (get_save_ne fun heq => ?_).trans hget⟩
      exact hother (versionId_inj heq)
  known := by
    intro key row hget
    change (s.versions.save _).get key = some row at hget
    rw [get_save] at hget
    split at hget
    · cases hget
      exact ⟨item.1, _, now, if_pos ⟨rfl, rfl⟩, rfl⟩
    next hkey =>
      obtain ⟨w, createdAt, stored, hrev, heq⟩ := h.known hget
      refine ⟨w, createdAt, stored, (if_neg fun hand => hkey ?_).trans hrev, heq⟩
      have hrow : row.id = versionId row.workflowId row.version := by
        rw [heq]
        rfl
      rw [← key_of_get hget, hrow, hand.1, hand.2]
      rfl

/-- A fresh identifier is created as it is saved. -/
theorem create_eq (h : s.Shows v) (item : m.Workflow) (hfresh : v.current item.1.id = none)
    (now : Time) : s.create now item.1 = (.ok item.1, (s.save now item.1).2) := by
  have hrow : s.workflows.get item.1.id = none := by
    rw [h.rows, hfresh]
    rfl
  have hversion : s.versions.get (versionId item.1.id item.1.revision) = none := by
    rcases hget : s.versions.get (versionId item.1.id item.1.revision) with - | row
    · rfl
    · obtain ⟨w, createdAt, stored, hrev, rfl⟩ := h.known hget
      have hkey := key_of_get hget
      obtain ⟨hid, -⟩ := versionId_inj hkey
      have hsome := (v.revisions_ok hrev).2.2
      rw [show (ofItem w createdAt stored).workflowId = w.id from rfl, hid,
        hfresh] at hsome
      cases hsome
  have hid : (ofItem item.1 now now).id = versionId item.1.id item.1.revision := rfl
  simp only [SqlWorkflows.create, SqlWorkflows.save, hid, hrow, hversion]
  rfl

/-- A workflow that is not deleted is found, whether deleted ones are asked for or not. -/
theorem get (h : s.Shows v) (id : String) (includeDeleted : Bool) :
    s.get m id includeDeleted = .ok (v.find id) := by
  rw [SqlWorkflows.get, h.rows]
  rcases hcurrent : v.current id with - | ⟨w, live⟩
  · rw [v.find_of_absent hcurrent]
    rfl
  · show (if _ then _ else _) = _
    split
    next hhidden =>
      have hdead : live = false := by simpa using (Bool.and_eq_true_iff.mp hhidden).2
      rw [v.find_of_deleted (hdead ▸ hcurrent)]
    · exact h.loadDomain id

theorem softDelete (h : s.Shows v) (id : String) :
    (s.softDelete id).1 = (v.current id).isSome ∧ (s.softDelete id).2.Shows (v.delete id) := by
  rw [SqlWorkflows.softDelete]
  rcases hcurrent : v.current id with - | ⟨w, live⟩
  · have hget : s.workflows.get id = none := by
      rw [h.rows, hcurrent]
      rfl
    rw [hget]
    refine ⟨rfl, fun id' => ?_, h.stored, h.known⟩
    show s.workflows.get id' = Option.map _ (Option.map _ (v.current id'))
    rw [h.rows]
    rcases hother : v.current id' with - | ⟨w', live'⟩
    · rfl
    · have hne : id' ≠ id := fun heq => by
        rw [heq, hcurrent] at hother
        cases hother
      simp [hne]
  · have hget : s.workflows.get id = some { WorkflowORM.ofItem w with enabled := live } := by
      rw [h.rows, hcurrent]
      rfl
    rw [hget]
    refine ⟨rfl, fun id' => ?_, h.stored, h.known⟩
    have hid : w.id = id := (v.current_ok hcurrent).1
    show (s.workflows.save { WorkflowORM.ofItem w with enabled := false }).get id' =
      Option.map _ (Option.map _ (v.current id'))
    rw [get_save]
    show (if id' = w.id then _ else _) = _
    by_cases hid' : id' = id
    · rw [if_pos (hid'.trans hid.symm), hid', hcurrent]
      simp [WorkflowORM.ofItem]
    · rw [if_neg fun heq => hid' (heq.trans hid), h.rows]
      rcases v.current id' with - | ⟨w', live'⟩
      · rfl
      · simp [hid']

/-- What is patched is found, validated and saved. -/
theorem update_eq (h : s.Shows v) (now : Time) (id : String) (patch : Dict Json) :
    s.update m now id patch = match v.find id with
      | none => (.ok none, s)
      | some current => match m.validate (current.modelDump.union patch) with
        | .error e => (.error e, s)
        | .ok item => (.ok (some item), (s.save now item).2) := by
  rw [SqlWorkflows.update, h.get]
  rcases v.find id with - | current
  · rfl
  · dsimp only
    rcases m.validate (current.modelDump.union patch) with e | item <;> rfl

theorem list (h : s.Shows v) (includeDeleted : Bool) :
    ∃ ws, s.list m includeDeleted = .ok ws ∧ v.Finds ws := by
  obtain ⟨found, hfound, hmem⟩ := exists_mapM_ok
    (f := fun row : WorkflowORM => s.loadDomain m row.id)
    (l := s.workflows.selectOrdered (fun row => includeDeleted || row.enabled) byName)
    fun row _ => ⟨_, h.loadDomain row.id⟩
  rw [SqlWorkflows.list, hfound]
  refine ⟨_, rfl, fun w => ?_⟩
  rw [reduceOption_mem_iff, hmem]
  constructor
  · rintro ⟨row, -, hload⟩
    exact ⟨row.id, Except.ok.inj ((h.loadDomain row.id).symm.trans hload)⟩
  · rintro ⟨id, hfind⟩
    obtain ⟨hid, hcurrent⟩ := v.live_of_find hfind
    refine ⟨.ofItem w, Table.mem_selectOrdered.mpr ⟨?_, ?_⟩, ?_⟩
    · show s.workflows.get w.id = _
      rw [hid, h.rows, hcurrent]
      rfl
    · exact Bool.or_true includeDeleted
    · show s.loadDomain m w.id = _
      rw [hid, h.loadDomain, hfind]

theorem getVersion (h : s.Shows v) (id : String) (r : ℤ) :
    (s.getVersion id r).map VersionRecord.untimed = v.version id r := by
  rw [SqlWorkflows.getVersion, h.rows, WorkflowView.version]
  rcases v.current id with - | ⟨w, live⟩
  · rfl
  · show Option.map _ (Option.map _ (s.versionOf id r)) = (v.revisions id r).map _
    rcases hrev : v.revisions id r with - | w'
    · rw [h.versionOf_none hrev]
      rfl
    · obtain ⟨createdAt, now, hversion⟩ := h.versionOf_some hrev
      rw [hversion]
      exact congrArg some (untimed_toRecord w' createdAt now w.revision)

theorem listVersions (h : s.Shows v) (id : String) :
    v.Lists id ((s.listVersions id).map VersionRecord.untimed) := by
  rw [SqlWorkflows.listVersions, h.rows]
  rcases hcurrent : v.current id with - | ⟨w, live⟩
  · refine ⟨List.Pairwise.nil, fun record => ?_⟩
    simp [WorkflowView.version, hcurrent]
  · show v.Lists id (List.map _ (List.map
      (fun row : WorkflowVersionORM => row.toRecord (some w.revision)) _))
    have hof : ∀ row ∈ s.versions.select (·.workflowId = id), ∃ w' createdAt now,
        v.revisions id row.version = some w' ∧ row = .ofItem w' createdAt now := by
      intro row hrow
      obtain ⟨hget, hid⟩ := Table.mem_select.mp hrow
      obtain ⟨w', createdAt, now, hrev, heq⟩ := h.known hget
      exact ⟨w', createdAt, now, of_decide_eq_true hid ▸ hrev, heq⟩
    constructor
    · rw [map_map, pairwise_map]
      refine pairwise_selectOrdered_desc (fun row : WorkflowVersionORM => row.version) ?_
      intro row hrow row' hrow' heq
      obtain ⟨w₁, c₁, n₁, hrev₁, hrow₁⟩ := hof row hrow
      obtain ⟨w₂, c₂, n₂, hrev₂, hrow₂⟩ := hof row' hrow'
      rw [heq] at hrev₁
      cases hrev₁.symm.trans hrev₂
      rw [hrow₁, hrow₂]
      rfl
    · intro record
      simp only [mem_map, exists_exists_and_eq_and, WorkflowView.version, hcurrent,
        Option.bind_some, Option.map_eq_some_iff]
      constructor
      · rintro ⟨row, hrow, rfl⟩
        have hselected := Table.mem_select.mpr (Table.mem_selectOrdered.mp hrow)
        obtain ⟨w', createdAt, now, hrev, hrow'⟩ := hof row hselected
        refine ⟨row.version, w', hrev, ?_⟩
        rw [hrow', untimed_toRecord]
      · rintro ⟨r, w', hrev, rfl⟩
        obtain ⟨createdAt, now, hget⟩ := h.stored hrev
        have hid : w'.id = id := (v.revisions_ok hrev).1
        have hr : w'.revision = r := (v.revisions_ok hrev).2.1
        refine ⟨.ofItem w' createdAt now, Table.mem_selectOrdered.mpr ⟨?_, ?_⟩, ?_⟩
        · show s.versions.get (versionId w'.id w'.revision) = _
          rw [hid, hr, hget]
        · exact decide_eq_true hid
        · exact untimed_toRecord w' createdAt now w.revision

end Shows

end SqlWorkflows

/-! ### The in-memory repository -/

namespace MemoryWorkflows

variable {m : WorkflowModel}

/-- The dictionaries hold what the view shows. -/
structure Shows (s : MemoryWorkflows) (v : WorkflowView m) : Prop where
  absent : ∀ {id}, v.current id = none → s.items.get id = none
  present : ∀ {id w live}, v.current id = some (w, live) → ∃ deletedAt updatedAt,
    s.items.get id = some ⟨id, w.modelDump, deletedAt, updatedAt⟩ ∧ deletedAt.isNone = live
  stored : ∀ {id r w}, v.revisions id r = some w → ∃ createdAt now,
    s.versions.get (id, r) = some (w.versionPayload createdAt now)
  known : ∀ {key record}, s.versions.get key = some record → ∃ w createdAt now,
    v.revisions record.workflowId record.revision = some w ∧ record = w.versionPayload createdAt now

namespace Shows

variable {s : MemoryWorkflows} {v : WorkflowView m} {id : String} {r : ℤ} {w : CatalogWorkflow}

theorem empty : ({} : MemoryWorkflows).Shows (WorkflowView.empty (m := m)) where
  absent _ := rfl
  present := nofun
  stored := nofun
  known := nofun

/-- An item is hidden where its workflow is deleted. -/
theorem find (h : s.Shows v) {item : StoredWorkflow} (hget : s.items.get id = some item) :
    ∃ w, v.current id = some (w, item.deletedAt.isNone) ∧ m.validate item.payload = .ok w := by
  rcases hcurrent : v.current id with - | ⟨w, live⟩
  · cases hget.symm.trans (h.absent hcurrent)
  · obtain ⟨deletedAt, updatedAt, hstored, hlive⟩ := h.present hcurrent
    cases hget.symm.trans hstored
    exact ⟨w, by rw [← hlive], (v.current_ok hcurrent).2.1⟩

/-- The times of a version do not matter. -/
theorem remember (h : s.Shows v) (hrev : v.revisions w.id w.revision = some w) (now : Time) :
    (s.rememberVersion now w).Shows v where
  absent := h.absent
  present := h.present
  stored := by
    intro id r w' hrev'
    show ∃ createdAt now', (s.versions.save _).get (id, r) = _
    rw [get_save]
    show ∃ createdAt now', (if (id, r) = (w.id, w.revision) then _ else _) = _
    split
    next hkey =>
      obtain ⟨rfl, rfl⟩ := Prod.mk.inj hkey
      cases hrev.symm.trans hrev'
      exact ⟨_, now, rfl⟩
    · exact h.stored hrev'
  known := by
    intro key record hget
    change (s.versions.save _).get key = some record at hget
    rw [get_save] at hget
    split at hget
    · cases hget
      exact ⟨w, _, now, hrev, rfl⟩
    · exact h.known hget

/-- A live workflow is stored with its version. -/
theorem store (h : s.Shows v) (item : m.Workflow) (hne : item.1.revision ≠ 0) (now : Time) :
    (s.store m now none item.1).1 = .ok item.1 ∧
      (s.store m now none item.1).2.Shows (v.put item hne) := by
  have hvalid : m.validate item.1.modelDump = .ok item.1 := item.2
  simp only [MemoryWorkflows.store, hvalid]
  refine ⟨trivial, ?_, ?_, ?_, ?_⟩
  · intro id hnone
    change (if _ then _ else _) = _ at hnone
    split at hnone
    · cases hnone
    next hid =>
      exact (get_put_ne (r := StoredWorkflow.mk ..) hid).trans (h.absent hnone)
  · intro id w live hcurrent
    change (if _ then _ else _) = _ at hcurrent
    split at hcurrent
    next hid =>
      cases hcurrent
      subst hid
      exact ⟨none, now, get_put_self _ _, rfl⟩
    next hid =>
      obtain ⟨deletedAt, updatedAt, hget, hlive⟩ := h.present hcurrent
      exact ⟨deletedAt, updatedAt,
        (get_put_ne (r := StoredWorkflow.mk ..) hid).trans hget, hlive⟩
  · intro id r w hrev
    show ∃ createdAt now', (s.versions.save _).get (id, r) = _
    rw [get_save]
    change (if _ then _ else _) = _ at hrev
    split at hrev
    next hand =>
      cases hrev
      exact ⟨_, now, if_pos (Prod.ext hand.1 hand.2)⟩
    next hother =>
      obtain ⟨createdAt, now', hget⟩ := h.stored hrev
      exact ⟨createdAt, now', (if_neg fun heq => hother (Prod.mk.inj heq)).trans hget⟩
  · intro key record hget
    change (s.versions.save _).get key = some record at hget
    rw [get_save] at hget
    split at hget
    · cases hget
      exact ⟨item.1, _, now, if_pos ⟨rfl, rfl⟩, rfl⟩
    next hkey =>
      obtain ⟨w, createdAt, now', hrev, heq⟩ := h.known hget
      refine ⟨w, createdAt, now', (if_neg fun hand => hkey ?_).trans hrev, heq⟩
      rw [← key_of_get hget]
      exact Prod.ext hand.1 hand.2

/-- A deleted workflow is found where deleted ones are asked for. -/
theorem get (h : s.Shows v) (id : String) {includeDeleted : Bool}
    (hlive : includeDeleted → ¬ v.Deleted id) : s.get m id includeDeleted = .ok (v.find id) := by
  rw [MemoryWorkflows.get]
  rcases hget : s.items.get id with - | item
  · rcases hcurrent : v.current id with - | ⟨w, live⟩
    · rw [v.find_of_absent hcurrent]
    · obtain ⟨deletedAt, updatedAt, hstored, -⟩ := h.present hcurrent
      cases hget.symm.trans hstored
  · obtain ⟨w, hcurrent, hvalid⟩ := h.find hget
    dsimp only
    rw [hvalid]
    rcases hdead : item.deletedAt with - | t
    · rw [hdead] at hcurrent
      rw [v.find_of_live hcurrent]
      simp only [Option.isSome_none, Bool.and_false]
      rfl
    · rw [hdead] at hcurrent
      have hexcluded : includeDeleted = false := by
        cases includeDeleted with
        | false => rfl
        | true => exact absurd ⟨w, hcurrent⟩ (hlive rfl)
      rw [v.find_of_deleted hcurrent, hexcluded]
      rfl

theorem save (h : s.Shows v) (item : m.Workflow) (hne : item.1.revision ≠ 0) (now : Time)
    (hlive : ¬ v.Deleted item.1.id) :
    (s.save m now item.1).1 = .ok item.1 ∧ (s.save m now item.1).2.Shows (v.put item hne) := by
  have hdeletedAt : (s.items.get item.1.id).bind (·.deletedAt) = none := by
    rcases hget : s.items.get item.1.id with - | stored
    · rfl
    · obtain ⟨w, hcurrent, -⟩ := h.find hget
      rcases hdead : stored.deletedAt with - | t
      · exact hdead
      · rw [hdead] at hcurrent
        exact absurd ⟨w, hcurrent⟩ hlive
  rw [MemoryWorkflows.save, hdeletedAt]
  exact h.store item hne now

theorem softDelete (h : s.Shows v) (id : String) (now : Time) (hlive : ¬ v.Deleted id) :
    (s.softDelete now id).1 = (v.current id).isSome ∧
      (s.softDelete now id).2.Shows (v.delete id) := by
  rw [MemoryWorkflows.softDelete]
  rcases hget : s.items.get id with - | item
  · have hcurrent : v.current id = none := by
      by_contra hsome
      obtain ⟨⟨w, live⟩, hcurrent⟩ := Option.ne_none_iff_exists'.mp hsome
      obtain ⟨deletedAt, updatedAt, hstored, -⟩ := h.present hcurrent
      cases hget.symm.trans hstored
    rw [hcurrent]
    refine ⟨rfl, fun {id'} hnone => h.absent (Option.map_eq_none_iff.mp hnone), ?_, h.stored,
      h.known⟩
    intro id' w live hmap
    obtain ⟨⟨w', live'⟩, hcurrent', heq⟩ := Option.map_eq_some_iff.mp hmap
    have hne : id' ≠ id := fun hid => by
      rw [hid, hcurrent] at hcurrent'
      cases hcurrent'
    cases heq
    simpa [hne] using h.present hcurrent'
  · obtain ⟨w, hcurrent, -⟩ := h.find hget
    have hnone : item.deletedAt = none := by
      rcases hdead : item.deletedAt with - | t
      · rfl
      · rw [hdead] at hcurrent
        exact absurd ⟨w, hcurrent⟩ hlive
    have hid : item.id = id := key_of_get hget
    dsimp only
    rw [hnone, if_neg (by decide), hcurrent]
    refine ⟨rfl, ?_, ?_, h.stored, h.known⟩
    · intro id' hnone'
      have hcurrent' := Option.map_eq_none_iff.mp hnone'
      have hne : id' ≠ id := fun heq => by
        rw [heq, hcurrent] at hcurrent'
        cases hcurrent'
      exact (get_put_ne (r := StoredWorkflow.mk ..) (hid ▸ hne)).trans (h.absent hcurrent')
    · intro id' w' live hmap
      obtain ⟨⟨w₁, live₁⟩, hcurrent', heq⟩ := Option.map_eq_some_iff.mp hmap
      cases heq
      obtain ⟨deletedAt, updatedAt, hstored, hdead⟩ := h.present hcurrent'
      by_cases hid' : id' = id
      · subst hid'
        cases hget.symm.trans hstored
        refine ⟨some now, now, get_put_self _ _, ?_⟩
        simp
      · refine ⟨deletedAt, updatedAt,
          (get_put_ne (r := StoredWorkflow.mk ..) (hid ▸ hid')).trans hstored, ?_⟩
        simp [hid', hdead]

theorem list (h : s.Shows v) {includeDeleted : Bool}
    (hlive : includeDeleted → ∀ id, ¬ v.Deleted id) :
    ∃ ws, s.list m includeDeleted = .ok ws ∧ v.Finds ws := by
  have hread : ∀ item ∈ s.items.items.filter fun item => includeDeleted || item.deletedAt.isNone,
      ∃ w, m.validate item.payload = .ok w ∧ v.find item.id = some w := by
    intro item hitem
    obtain ⟨hmem, hshown⟩ := List.mem_filter.mp hitem
    obtain ⟨w, hcurrent, hvalid⟩ := h.find (get_of_mem hmem)
    refine ⟨w, hvalid, v.find_of_live ?_⟩
    rcases hdead : item.deletedAt with - | t
    · rw [hcurrent, hdead]
      rfl
    · rw [hdead] at hcurrent hshown
      exact absurd ⟨w, hcurrent⟩ (hlive (by simpa using hshown) item.id)
  obtain ⟨ws, hws, hmem⟩ := exists_mapM_ok fun item hitem =>
    ⟨_, (hread item hitem).choose_spec.1⟩
  refine ⟨ws, hws, fun w => (hmem w).trans ⟨?_, ?_⟩⟩
  · rintro ⟨item, hitem, hvalid⟩
    obtain ⟨w', hvalid', hfind⟩ := hread item hitem
    cases hvalid.symm.trans hvalid'
    exact ⟨item.id, hfind⟩
  · rintro ⟨id, hfind⟩
    obtain ⟨-, hcurrent⟩ := v.live_of_find hfind
    obtain ⟨deletedAt, updatedAt, hget, hnone⟩ := h.present hcurrent
    refine ⟨_, List.mem_filter.mpr ⟨mem_of_get hget, ?_⟩, (v.current_ok hcurrent).2.1⟩
    simp [hnone]

/-- With the deleted ones, every workflow is found. -/
theorem getAny (h : s.Shows v) (id : String) :
    s.get m id true = .ok ((v.current id).map (·.1)) := by
  rw [MemoryWorkflows.get]
  rcases hcurrent : v.current id with - | ⟨w, live⟩
  · rw [h.absent hcurrent]
    rfl
  · obtain ⟨deletedAt, updatedAt, hget, -⟩ := h.present hcurrent
    rw [hget]
    show some <$> m.validate w.modelDump = _
    rw [(v.current_ok hcurrent).2.1]
    rfl

theorem listVersions (h : s.Shows v) (id : String) :
    ∃ records, s.listVersions m id = .ok records ∧
      v.Lists id (records.map VersionRecord.untimed) := by
  rw [MemoryWorkflows.listVersions, h.getAny]
  rcases hcurrent : v.current id with - | ⟨w, live⟩
  · refine ⟨[], rfl, List.Pairwise.nil, fun record => ?_⟩
    simp [WorkflowView.version, hcurrent]
  · refine ⟨_, rfl, ?_⟩
    have hof : ∀ record ∈ s.versions.select (·.workflowId = id), ∃ w' createdAt now,
        v.revisions id record.revision = some w' ∧ record = w'.versionPayload createdAt now := by
      intro record hrecord
      obtain ⟨hget, hid⟩ := Table.mem_select.mp hrecord
      obtain ⟨w', createdAt, now, hrev, heq⟩ := h.known hget
      exact ⟨w', createdAt, now, of_decide_eq_true hid ▸ hrev, heq⟩
    constructor
    · rw [map_map, pairwise_map]
      refine pairwise_selectOrdered_desc (fun record : VersionRecord => record.revision) ?_
      intro a ha b hb heq
      have hida := of_decide_eq_true (Table.mem_select.mp ha).2
      have hidb := of_decide_eq_true (Table.mem_select.mp hb).2
      exact Prod.ext (hida.trans hidb.symm) heq
    · intro record
      simp only [mem_map, exists_exists_and_eq_and, WorkflowView.version, hcurrent,
        Option.bind_some, Option.map_eq_some_iff]
      constructor
      · rintro ⟨stored, hstored, rfl⟩
        have hselected := Table.mem_select.mpr (Table.mem_selectOrdered.mp hstored)
        obtain ⟨w', createdAt, now, hrev, heq⟩ := hof stored hselected
        refine ⟨stored.revision, w', hrev, ?_⟩
        rw [heq]
        exact (untimed_payload w' createdAt now w.revision).symm
      · rintro ⟨r, w', hrev, rfl⟩
        obtain ⟨createdAt, now, hget⟩ := h.stored hrev
        have hid : w'.id = id := (v.revisions_ok hrev).1
        have hr : w'.revision = r := (v.revisions_ok hrev).2.1
        refine ⟨w'.versionPayload createdAt now, Table.mem_selectOrdered.mpr ⟨?_, ?_⟩, ?_⟩
        · show s.versions.get (w'.id, w'.revision) = _
          rw [hid, hr, hget]
        · exact decide_eq_true hid
        · exact untimed_payload w' createdAt now w.revision

theorem getVersion (h : s.Shows v) (id : String) (r : ℤ) :
    ∃ found, s.getVersion m id r = .ok found ∧
      found.map VersionRecord.untimed = v.version id r := by
  obtain ⟨records, hrecords, hlists⟩ := h.listVersions id
  refine ⟨records.find? (·.revision = r), ?_, ?_⟩
  · rw [MemoryWorkflows.getVersion, hrecords]
    rfl
  · rw [← hlists.find?, List.find?_map]
    rfl

variable {patch : Dict Json}

/-- A patch that names no other identifier keeps that of the workflow it patches. -/
theorem get?_patched (hid : w.id = id) (hpatch : ∀ value, ("id", value) ∈ patch → value = .str id) :
    (w.modelDump.union patch).get? "id" = some (.str id) := by
  rcases get?_union w.modelDump patch "id" with hkept | ⟨value, hmem, hset⟩
  · rw [hkept, ← hid]
    rfl
  · rw [hset, hpatch value hmem]

theorem update_none (h : s.Shows v) (now : Time) (patch : Dict Json) (hfind : v.find id = none) :
    s.update m now id patch = (.ok none, s) := by
  rw [MemoryWorkflows.update]
  rcases hget : s.items.get id with - | item
  · rfl
  · obtain ⟨w, hcurrent, -⟩ := h.find hget
    rcases hdead : item.deletedAt with - | t
    · rw [hdead] at hcurrent
      cases hfind.symm.trans (v.find_of_live hcurrent)
    · simp [hdead]

/-- What is patched is the payload. -/
theorem update_eq (h : s.Shows v) (now : Time)
    (hpatch : ∀ value, ("id", value) ∈ patch → value = .str id) (hfind : v.find id = some w) :
    s.update m now id patch = match m.validate (w.modelDump.union patch) with
      | .error e => (.error e, s)
      | .ok item => match s.save m now item with
        | (.error e, saved) => (.error e, saved)
        | (.ok updated, saved) => (.ok (some updated), saved.rememberVersion now updated) := by
  obtain ⟨hid, hcurrent⟩ := v.live_of_find hfind
  obtain ⟨deletedAt, updatedAt, hget, hlive⟩ := h.present hcurrent
  have hnone : deletedAt = none := by simpa using hlive
  rw [MemoryWorkflows.update, hget, hnone]
  dsimp only
  rw [set_eq_self (get?_patched hid hpatch)]
  rfl

theorem update_saved (h : s.Shows v) (now : Time)
    (hpatch : ∀ value, ("id", value) ∈ patch → value = .str id) (hfind : v.find id = some w)
    {item : CatalogWorkflow} (hvalid : m.validate (w.modelDump.union patch) = .ok item)
    (hne : item.revision ≠ 0) : ∃ s', s.update m now id patch = (.ok (some item), s') ∧
      s'.Shows (v.put ⟨item, m.redump hvalid⟩ hne) := by
  obtain ⟨hid, hcurrent⟩ := v.live_of_find hfind
  have hitem : item.id = id := by
    have hread := m.reads_id hvalid
    rw [getJson, get?_patched hid hpatch] at hread
    exact (str.inj hread).symm
  have hlive : ¬ v.Deleted item.id := by
    rintro ⟨w', hdeleted⟩
    rw [hitem, hcurrent] at hdeleted
    cases hdeleted
  obtain ⟨hsaved, hshows⟩ := h.save ⟨item, m.redump hvalid⟩ hne now hlive
  rcases hsave : s.save m now item with ⟨answer, saved⟩
  rw [hsave] at hsaved hshows
  cases hsaved
  refine ⟨saved.rememberVersion now item, ?_, hshows.remember (if_pos ⟨rfl, rfl⟩) now⟩
  rw [h.update_eq now hpatch hfind, hvalid]
  dsimp only
  rw [hsave]

end Shows

end MemoryWorkflows

/-! ### Both repositories -/

namespace CatalogAnswer

/-- The same answer: lists of workflows as sets, versions up to their times. -/
def Same : CatalogAnswer → CatalogAnswer → Prop
  | workflow w, workflow w' => w = w'
  | found w, found w' => w = w'
  | workflows ws, workflows ws' => ∀ w, w ∈ ws ↔ w ∈ ws'
  | flag ok, flag ok' => ok = ok'
  | versions vs, versions vs' =>
    vs.map VersionRecord.untimed = vs'.map VersionRecord.untimed
  | version v, version v' => v.map VersionRecord.untimed = v'.map VersionRecord.untimed
  | _, _ => False

end CatalogAnswer

/-- The same answers, or the same exceptions. -/
def SameAnswer : Except RuntimeException CatalogAnswer → Except RuntimeException CatalogAnswer →
    Prop
  | .ok a, .ok b => a.Same b
  | .error e, .error e' => e = e'
  | _, _ => False

/-- A call, and what the clock shows to either repository. -/
structure TimedCall (m : WorkflowModel) where
  call : WorkflowCall m
  sqlNow : Time
  memoryNow : Time

abbrev Catalogs := SqlWorkflows × MemoryWorkflows

abbrev CatalogAnswers :=
  Except RuntimeException CatalogAnswer × Except RuntimeException CatalogAnswer

/-- Both repositories answer a call. -/
def answerBoth {m : WorkflowModel} (i : TimedCall m) (s : Catalogs) : CatalogAnswers × Catalogs :=
  let sql := s.1.answer m i.sqlNow i.call
  let memory := s.2.answer m i.memoryNow i.call
  ((sql.1, memory.1), (sql.2, memory.2))

/-- The in-memory repository marks the workflow as deleted. -/
def MemoryWorkflows.Deleted (s : MemoryWorkflows) (id : String) : Prop :=
  ∃ item, s.items.get id = some item ∧ item.deletedAt.isSome

/-- The condition on a call, in the state that it finds: new identifiers are fresh and a patch
names no other one; revision 0 is not written; and a deleted workflow is neither saved,
deleted again nor looked up among the deleted ones. -/
def MemoryWorkflows.Admits {m : WorkflowModel} (s : MemoryWorkflows) : WorkflowCall m → Prop
  | .create item => s.items.get item.1.id = none ∧ item.1.revision ≠ 0
  | .save item => ¬ s.Deleted item.1.id ∧ item.1.revision ≠ 0
  | .update id patch => (∀ value, ("id", value) ∈ patch → value = .str id) ∧
      ∀ stored item, s.items.get id = some stored → stored.deletedAt = none →
        m.validate (stored.payload.union patch) = .ok item → item.revision ≠ 0
  | .softDelete id => ¬ s.Deleted id
  | .get id includeDeleted => includeDeleted → ¬ s.Deleted id
  | .list includeDeleted => includeDeleted → ∀ id, ¬ s.Deleted id
  | .listVersions _ | .getVersion _ _ => True

section Agreement

variable {m : WorkflowModel} {s : Catalogs} {v : WorkflowView m}

theorem MemoryWorkflows.Shows.not_deleted {s : MemoryWorkflows} (h : s.Shows v) {id : String}
    (hlive : ¬ s.Deleted id) : ¬ v.Deleted id := by
  rintro ⟨w, hcurrent⟩
  obtain ⟨deletedAt, updatedAt, hget, hnone⟩ := h.present hcurrent
  refine hlive ⟨_, hget, ?_⟩
  cases deletedAt with
  | none => cases hnone
  | some t => rfl

theorem MemoryWorkflows.Shows.fresh {s : MemoryWorkflows} (h : s.Shows v) {id : String}
    (hget : s.items.get id = none) : v.current id = none := by
  rcases hcurrent : v.current id with - | ⟨w, live⟩
  · rfl
  · obtain ⟨deletedAt, updatedAt, hstored, -⟩ := h.present hcurrent
    cases hget.symm.trans hstored

/-- A patch is applied to the same workflow in both repositories. -/
theorem answerBoth_update (hsql : s.1.Shows v) (hmemory : s.2.Shows v) (sqlNow memoryNow : Time)
    {id : String} {patch : Dict Json} (hadmits : s.2.Admits (.update (m := m) id patch)) :
    (s.1.update m sqlNow id patch).1 = (s.2.update m memoryNow id patch).1 ∧
      ∃ v' : WorkflowView m, (s.1.update m sqlNow id patch).2.Shows v' ∧
        (s.2.update m memoryNow id patch).2.Shows v' := by
  obtain ⟨hpatch, hrevision⟩ := hadmits
  rw [hsql.update_eq]
  rcases hfind : v.find id with - | w
  · rw [hmemory.update_none memoryNow patch hfind]
    exact ⟨rfl, v, hsql, hmemory⟩
  · dsimp only
    rcases hvalid : m.validate (w.modelDump.union patch) with e | item
    · rw [hmemory.update_eq memoryNow hpatch hfind, hvalid]
      exact ⟨rfl, v, hsql, hmemory⟩
    · obtain ⟨hid, hcurrent⟩ := v.live_of_find hfind
      obtain ⟨deletedAt, updatedAt, hget, hnone⟩ := hmemory.present hcurrent
      have hne := hrevision _ item hget (by simpa using hnone) hvalid
      obtain ⟨saved, hsaved, hshows⟩ := hmemory.update_saved memoryNow hpatch hfind hvalid hne
      rw [hsaved]
      exact ⟨rfl, _, hsql.save ⟨item, m.redump hvalid⟩ hne sqlNow, hshows⟩

/-- **One call** is answered alike, and leaves the same catalog. -/
theorem answerBoth_same {i : TimedCall m} (hsql : s.1.Shows v) (hmemory : s.2.Shows v)
    (hadmits : s.2.Admits i.call) :
    SameAnswer (answerBoth i s).1.1 (answerBoth i s).1.2 ∧
      ∃ v' : WorkflowView m, (answerBoth i s).2.1.Shows v' ∧ (answerBoth i s).2.2.Shows v' := by
  obtain ⟨call, sqlNow, memoryNow⟩ := i
  cases call with
  | create item =>
    obtain ⟨hfresh, hne⟩ := hadmits
    obtain ⟨hstored, hshows⟩ := hmemory.store item hne memoryNow
    have hcreate := hsql.create_eq item (hmemory.fresh hfresh) sqlNow
    simp only [answerBoth, SqlWorkflows.answer, MemoryWorkflows.answer, hcreate,
      MemoryWorkflows.create, hstored]
    exact ⟨rfl, _, hsql.save item hne sqlNow, hshows⟩
  | save item =>
    obtain ⟨hlive, hne⟩ := hadmits
    obtain ⟨hsaved, hshows⟩ := hmemory.save item hne memoryNow (hmemory.not_deleted hlive)
    simp only [answerBoth, SqlWorkflows.answer, MemoryWorkflows.answer, hsaved]
    exact ⟨rfl, _, hsql.save item hne sqlNow, hshows⟩
  | update id patch =>
    obtain ⟨hsame, v', hsql', hmemory'⟩ := answerBoth_update hsql hmemory sqlNow memoryNow hadmits
    refine ⟨?_, v', hsql', hmemory'⟩
    simp only [answerBoth, SqlWorkflows.answer, MemoryWorkflows.answer, hsame]
    rcases (s.2.update m memoryNow id patch).1 with e | found
    · exact rfl
    · exact rfl
  | softDelete id =>
    obtain ⟨hflag, hshows⟩ := hmemory.softDelete id memoryNow (hmemory.not_deleted hadmits)
    obtain ⟨hflag', hshows'⟩ := hsql.softDelete id
    exact ⟨hflag'.trans hflag.symm, _, hshows', hshows⟩
  | get id includeDeleted =>
    have hget := hmemory.get id fun h => hmemory.not_deleted (hadmits h)
    simp only [answerBoth, SqlWorkflows.answer, MemoryWorkflows.answer, hget, hsql.get]
    exact ⟨rfl, v, hsql, hmemory⟩
  | list includeDeleted =>
    obtain ⟨ws, hws, hfinds⟩ := hsql.list includeDeleted
    obtain ⟨ws', hws', hfinds'⟩ := hmemory.list fun h id => hmemory.not_deleted (hadmits h id)
    simp only [answerBoth, SqlWorkflows.answer, MemoryWorkflows.answer, hws, hws']
    exact ⟨fun w => (hfinds w).trans (hfinds' w).symm, v, hsql, hmemory⟩
  | listVersions id =>
    obtain ⟨records, hrecords, hlists⟩ := hmemory.listVersions id
    simp only [answerBoth, SqlWorkflows.answer, MemoryWorkflows.answer, hrecords]
    exact ⟨(hsql.listVersions id).unique v hlists, v, hsql, hmemory⟩
  | getVersion id revision =>
    obtain ⟨found, hfound, hversion⟩ := hmemory.getVersion id revision
    simp only [answerBoth, SqlWorkflows.answer, MemoryWorkflows.answer, hfound]
    exact ⟨(hsql.getVersion id revision).trans hversion.symm, v, hsql, hmemory⟩

/-- Every call was answered alike, and both repositories show one view. -/
def Agreed (h : List (TimedCall m × CatalogAnswers)) (t : Catalogs) : Prop :=
  (∀ e ∈ h, SameAnswer e.2.1 e.2.2) ∧ ∃ v : WorkflowView m, t.1.Shows v ∧ t.2.Shows v

/-- **The two catalogs agree** over every history, from empty ones on, whose calls meet the
condition: each call gets the same answer of both. -/
theorem catalogs_agree {h : List (TimedCall m × CatalogAnswers)} {t : Catalogs}
    (hserves : Serves answerBoth (fun s i => s.2.Admits i.call) (({}, {}) : Catalogs) h t) :
    ∀ e ∈ h, SameAnswer e.2.1 e.2.2 := by
  have hagreed : Agreed h t := by
    apply hserves.invariant
    · refine ⟨fun e he => absurd he not_mem_nil, WorkflowView.empty, ?_, ?_⟩
      · exact SqlWorkflows.Shows.empty
      · exact MemoryWorkflows.Shows.empty
    · rintro h t i ⟨hsame, v, hsql, hmemory⟩ hadmits
      obtain ⟨hanswer, hshows⟩ := answerBoth_same hsql hmemory hadmits
      refine ⟨fun e he => ?_, hshows⟩
      rcases List.mem_append.mp he with he | he
      · exact hsame e he
      · rw [List.mem_singleton.mp he]
        exact hanswer
  exact hagreed.1

end Agreement

/-! ### A deleted workflow that is saved -/

namespace SavedAgain

/-- The versioning that a dump holds. -/
def readVersioning (d : Dict Json) : Option WorkflowVersioning := do
  let version ← (d.getJson "version").asStr?
  let revision ← match d.getJson "revision" with
    | .num q => if q.den = 1 then some q.num else none
    | _ => none
  let isPublished ← match d.getJson "is_published" with
    | .bool b => some b
    | _ => none
  let labels ← match d.getJson "labels" with
    | .arr items => items.mapM asStr?
    | _ => none
  return ⟨version, revision, (d.getJson "parent_version").asStr?, isPublished, labels⟩

/-- A validation that takes every field as it is. -/
def readWorkflow (d : Dict Json) : Except RuntimeException CatalogWorkflow :=
  match d.getJson "id", (d.getJson "versioning").asDict?.bind readVersioning,
    (d.getJson "metadata").asDict? with
  | .str id, some versioning, some metadata =>
    .ok { id, field := fun f => d.getJson f.key, versioning, metadata }
  | _, _, _ => .error ⟨.validationError, "Input should be a valid workflow"⟩

theorem readVersioning_modelDump (v : WorkflowVersioning) :
    readVersioning v.modelDump = some v := by
  have hlabels : ∀ labels : List String, (labels.map str).mapM asStr? = some labels := by
    intro labels
    induction labels with
    | nil => rfl
    | cons l ls ih =>
      rw [map_cons, mapM_cons, ih]
      rfl
  have hparent : (ofOption v.parentVersion).asStr? = v.parentVersion := by
    rcases v.parentVersion with - | parent <;> rfl
  show (do
    let revision ← if (v.revision : ℚ).den = 1 then some (v.revision : ℚ).num else none
    let labels ← (v.labels.map str).mapM asStr?
    return WorkflowVersioning.mk v.version revision (ofOption v.parentVersion).asStr?
      v.isPublished labels) = some v
  rw [if_pos (Rat.den_intCast v.revision), Rat.num_intCast, hlabels, hparent]
  rfl

theorem readWorkflow_modelDump (w : CatalogWorkflow) : readWorkflow w.modelDump = .ok w := by
  have hfield : (fun f : WorkflowField => w.modelDump.getJson f.key) = w.field := by
    funext f
    cases f <;> rfl
  have hid : w.modelDump.getJson "id" = .str w.id := rfl
  have hversioning : (w.modelDump.getJson "versioning").asDict?.bind readVersioning =
      some w.versioning := readVersioning_modelDump w.versioning
  have hmetadata : (w.modelDump.getJson "metadata").asDict? = some w.metadata := rfl
  simp only [readWorkflow, hid, hversioning, hmetadata, hfield]

def model : WorkflowModel where
  validate := readWorkflow
  reads_id := by
    intro d w h
    unfold readWorkflow at h
    split at h
    next hid _ _ =>
      cases h
      exact hid
    · cases h
  redump := fun {_ w} _ => readWorkflow_modelDump w

/-- A workflow of revision 1. -/
def draft : CatalogWorkflow := { id := "review", field := fun _ => .str "review" }

def review : model.Workflow := ⟨draft, readWorkflow_modelDump draft⟩

def at0 (call : WorkflowCall model) : TimedCall model := ⟨call, 0, 0⟩

/-- The repositories after a call. -/
def after (call : WorkflowCall model) (s : Catalogs) : Catalogs := (answerBoth (at0 call) s).2

def created : Catalogs := after (.create review) ({}, {})

def deleted : Catalogs := after (.softDelete "review") created

/-- New identifiers are fresh, and patches name no other one. -/
def Proper (s : Catalogs) (i : TimedCall model) : Prop :=
  match i.call with
  | .create item => s.2.items.get item.1.id = none
  | .update id patch => ∀ value, ("id", value) ∈ patch → value = .str id
  | _ => True

end SavedAgain

open SavedAgain in
theorem catalogs_agree_deleted :
    SameAnswer (answerBoth (at0 (.create review)) ({}, {})).1.1
        (answerBoth (at0 (.create review)) ({}, {})).1.2 ∧
      SameAnswer (answerBoth (at0 (.softDelete "review")) created).1.1
        (answerBoth (at0 (.softDelete "review")) created).1.2 := by
  have hserves : Serves answerBoth (fun s i => s.2.Admits i.call) (({}, {}) : Catalogs)
      [(at0 (.create review), (answerBoth (at0 (.create review)) ({}, {})).1),
        (at0 (.softDelete "review"), (answerBoth (at0 (.softDelete "review")) created).1)]
      deleted := by
    refine .call (.call .start ?_) ?_
    · exact ⟨rfl, by decide⟩
    · rintro ⟨item, hget, hdead⟩
      cases hget
      cases hdead
  exact ⟨catalogs_agree hserves _ mem_cons_self,
    catalogs_agree hserves (at0 (.softDelete "review"), _) (mem_cons_of_mem _ mem_cons_self)⟩

open SavedAgain in
/-- A workflow that is created, deleted and saved again is found in the SQL repository and
not in the other one. -/
theorem savedAgain_differs :
    ¬ ∀ h t, Serves answerBoth Proper (({}, {}) : Catalogs) h t →
      ∀ e ∈ h, SameAnswer e.2.1 e.2.2 := by
  intro hall
  have hfound := hall _ _ (.call (.call (.call (.call .start
    (i := at0 (.create review)) rfl) (i := at0 (.softDelete "review")) trivial)
    (i := at0 (.save review)) trivial) (i := at0 (.get "review" false)) trivial)
    _ (mem_append_right _ mem_cons_self)
  obtain ⟨w, hnone⟩ : ∃ w : CatalogWorkflow, some w = none := ⟨_, hfound⟩
  cases hnone

end OpenAgency
