/-
Lib/Paging.lean

Reading an ordered list page by page.  A reader calls a page function again and
again, each time with the key of the last item it received, and appends what it
gets.  `VisitsAll` says that it sees every item of the list once and in order,
and that an empty page means that it has seen them all.

Two page functions over one list are compared.  `pageAfter` starts right after
the cursor's place in the list.  `pageFrom` keeps what is not stamped before the
cursor, cuts the page, and only then takes the cursor out of it: where the
cursor is the first item of its stamp the page is one item short, and where it
is not the page goes back to an item already seen.
-/
import Mathlib.Data.List.Basic
import Mathlib.Order.Lattice

namespace Paging

open List

variable {α ι τ : Type}

/-! ### The reader -/

section Reader

variable (key : α → ι) (page : Option ι → List α)

/-- The pages of the first `k` calls. -/
def pages : ℕ → List (List α)
  | 0 => []
  | k + 1 => pages k ++ [page ((pages k).flatten.getLast?.map key)]

/-- What the reader has received after `k` calls. -/
def received (k : ℕ) : List α := (pages key page k).flatten

/-- The page of the call after the first `k`. -/
def nextPage (k : ℕ) : List α := page ((received key page k).getLast?.map key)

@[simp] theorem received_zero : received key page 0 = [] := rfl

theorem pages_succ (k : ℕ) :
    pages key page (k + 1) = pages key page k ++ [nextPage key page k] := rfl

theorem received_succ (k : ℕ) :
    received key page (k + 1) = received key page k ++ nextPage key page k := by
  rw [received, pages_succ, flatten_append, flatten_singleton]
  rfl

/-- The reader sees the items once each and in their order, and an empty page
tells it that there are no more. -/
structure VisitsAll (items : List α) : Prop where
  inOrder : ∀ k, received key page k <+: items
  complete : ∃ k, received key page k = items
  emptyAtEnd : ∀ k, nextPage key page k = [] → received key page k = items

variable {key page}

/-- A reader that has everything and gets an empty page stays where it is. -/
theorem received_of_le {items : List α} {k : ℕ} (hk : received key page k = items)
    (hpage : page (items.getLast?.map key) = []) {n : ℕ} (hn : k ≤ n) :
    received key page n = items := by
  induction hn with
  | refl => exact hk
  | step _ ih =>
    rw [received_succ, nextPage, ih, hpage]
    exact append_nil items

variable {page' : Option ι → List α}

/-- Two page functions that agree wherever the first one's reader comes give the
same pages. -/
theorem pages_congr (h : ∀ k, nextPage key page k = page' ((received key page k).getLast?.map key))
    (k : ℕ) :
    pages key page' k = pages key page k := by
  induction k with
  | zero => rfl
  | succ k ih =>
    rw [pages_succ, pages_succ, ih]
    show _ = pages key page k ++ [nextPage key page k]
    rw [h k, nextPage, received, ih]
    rfl

theorem VisitsAll.congr {items : List α} (h : VisitsAll key page items)
    (hpages : ∀ k, pages key page' k = pages key page k) :
    VisitsAll key page' items := by
  have hreceived : ∀ k, received key page' k = received key page k := fun k =>
    congrArg List.flatten (hpages k)
  have hnext : ∀ k, nextPage key page' k = nextPage key page k := by
    intro k
    have hsucc := hpages (k + 1)
    rw [pages_succ, pages_succ, hpages k] at hsucc
    simpa using append_cancel_left hsucc
  refine ⟨fun k => ?_, ?_, fun k => ?_⟩
  · rw [hreceived]
    exact h.inOrder k
  · obtain ⟨k, hk⟩ := h.complete
    exact ⟨k, (hreceived k).trans hk⟩
  · rw [hreceived, hnext]
    exact h.emptyAtEnd k

end Reader

/-! ### The two page functions -/

section Pages

variable [DecidableEq ι] [LinearOrder τ] (key : α → ι) (stamp : α → τ)

/-- The items after the one the cursor names; none if no item is. -/
def following (cursor : ι) : List α → List α
  | [] => []
  | a :: items => if key a = cursor then items else following cursor items

/-- The next `n` items after the cursor's place. -/
def pageAfter (n : ℕ) (items : List α) : Option ι → List α
  | none => items.take n
  | some cursor => (following key cursor items).take n

/-- The first `n` items that are not stamped before the cursor, without the cursor. -/
def pageFrom (n : ℕ) (items : List α) : Option ι → List α
  | none => items.take n
  | some cursor =>
    match items.find? fun a => key a = cursor with
    | some anchor =>
      ((items.filter fun a => stamp anchor ≤ stamp a).take n).filter fun a => key a ≠ cursor
    | none => (items.take n).filter fun a => key a ≠ cursor

/-- The last of the items is stamped later than every one before it. -/
def LastLater (items : List α) : Prop :=
  ∀ a ∈ items.getLast?, ∀ b ∈ items.dropLast, stamp b < stamp a

instance (items : List α) : Decidable (LastLater stamp items) :=
  inferInstanceAs (Decidable (∀ a ∈ items.getLast?, ∀ b ∈ items.dropLast, stamp b < stamp a))

variable {key stamp} {n : ℕ} {items before rest : List α} {a : α}

theorem following_append (h : key a ∉ before.map key) :
    following key (key a) (before ++ a :: rest) = rest := by
  induction before with
  | nil => simp [following]
  | cons b before ih =>
    simp only [map_cons, mem_cons, not_or] at h
    simp [following, Ne.symm h.1, ih h.2]

theorem find?_append (h : key a ∉ before.map key) :
    (before ++ a :: rest).find? (fun b => key b = key a) = some a := by
  induction before with
  | nil => simp
  | cons b before ih =>
    simp only [map_cons, mem_cons, not_or] at h
    simp [Ne.symm h.1, ih h.2]

theorem lastLater_concat : LastLater stamp (before ++ [a]) ↔ ∀ b ∈ before, stamp b < stamp a := by
  simp [LastLater]

omit [DecidableEq ι] in
/-- Where the keys differ, an item's key is neither before nor after it. -/
theorem key_notMem (h : ((before ++ a :: rest).map key).Nodup) :
    key a ∉ before.map key ∧ key a ∉ rest.map key := by
  rw [map_append, map_cons, nodup_append] at h
  obtain ⟨-, hrest, hne⟩ := h
  exact ⟨fun hb => hne _ hb _ (mem_cons_self) rfl, (List.nodup_cons.mp hrest).1⟩

theorem mem_of_mem_pageFrom {cursor : Option ι} {b : α}
    (h : b ∈ pageFrom key stamp n items cursor) : b ∈ items := by
  rcases cursor with - | cursor
  · exact mem_of_mem_take h
  · rw [pageFrom] at h
    split at h
    · exact mem_of_mem_filter (mem_of_mem_take (mem_of_mem_filter h))
    · exact mem_of_mem_take (mem_of_mem_filter h)

theorem mem_of_mem_received {k : ℕ} {b : α}
    (h : b ∈ received key (pageFrom key stamp n items) k) : b ∈ items := by
  induction k with
  | zero => exact absurd h not_mem_nil
  | succ k ih =>
    rw [received_succ] at h
    rcases List.mem_append.mp h with h | h
    · exact ih h
    · exact mem_of_mem_pageFrom h

theorem pageAfter_append (h : ((before ++ a :: rest).map key).Nodup) :
    pageAfter key n (before ++ a :: rest) (some (key a)) = rest.take n := by
  rw [pageAfter, following_append (key_notMem h).1]

/-- **A cursor that is the first of its stamp.**  The page is the one after it, an item
short. -/
theorem pageFrom_of_lastLater (hn : 0 < n) (h : ((before ++ a :: rest).map key).Nodup)
    (hsorted : (before ++ a :: rest).Pairwise fun b c => stamp b ≤ stamp c)
    (hlater : LastLater stamp (before ++ [a])) :
    pageFrom key stamp n (before ++ a :: rest) (some (key a)) = rest.take (n - 1) := by
  obtain ⟨hbefore, hrest⟩ := key_notMem h
  have hdrop : before.filter (fun b => stamp a ≤ stamp b) = [] := by
    apply List.filter_eq_nil_iff.mpr
    intro b hb
    simpa using lastLater_concat.mp hlater b hb
  have hkeep : (a :: rest).filter (fun b => stamp a ≤ stamp b) = a :: rest := by
    apply List.filter_eq_self.mpr
    intro b hb
    have hle := (List.pairwise_append.mp hsorted).2.1
    rcases List.mem_cons.mp hb with rfl | hb
    · simp
    · simpa using (List.pairwise_cons.mp hle).1 b hb
  obtain ⟨m, rfl⟩ : ∃ m, n = m + 1 := ⟨n - 1, by omega⟩
  simp only [pageFrom, find?_append hbefore, filter_append, hdrop, hkeep, nil_append,
    take_succ_cons, Nat.add_sub_cancel]
  rw [filter_cons_of_neg (by simp), filter_eq_self]
  intro b hb
  have hne : key b ≠ key a := fun e =>
    hrest (e ▸ mem_map_of_mem (mem_of_mem_take hb))
  simpa using hne

/-- **A cursor with an equal stamp before it.**  The page repeats an item. -/
theorem pageFrom_of_not_lastLater (hn : 0 < n) (h : ((before ++ a :: rest).map key).Nodup)
    (hlater : ¬ LastLater stamp (before ++ [a])) :
    ∃ b ∈ before, b ∈ pageFrom key stamp n (before ++ a :: rest) (some (key a)) := by
  obtain ⟨hbefore, -⟩ := key_notMem h
  rw [lastLater_concat] at hlater
  push Not at hlater
  obtain ⟨b, hb, hle⟩ := hlater
  have hmem : b ∈ before.filter fun c => stamp a ≤ stamp c := by simpa using ⟨hb, hle⟩
  rcases hf : before.filter (fun c => stamp a ≤ stamp c) with - | ⟨c, cs⟩
  · rw [hf] at hmem
    exact absurd hmem (not_mem_nil)
  · have hc : c ∈ before := (List.mem_filter.mp (hf ▸ mem_cons_self)).1
    have hne : key c ≠ key a := fun e => hbefore (e ▸ mem_map_of_mem hc)
    obtain ⟨m, rfl⟩ : ∃ m, n = m + 1 := ⟨n - 1, by omega⟩
    refine ⟨c, hc, ?_⟩
    simp [pageFrom, find?_append hbefore, filter_append, hf, take_succ_cons, hne]

end Pages

/-! ### Readers of the two -/

section Readers

variable [DecidableEq ι] [LinearOrder τ] {key : α → ι} {stamp : α → τ}
variable {n : ℕ} {items : List α}

/-- The items up to the last one received, and the rest. -/
theorem exists_split {m : ℕ} (h : items.take m ≠ []) :
    ∃ before a, items.take m = before ++ [a] ∧ items = before ++ a :: items.drop m := by
  obtain ⟨before, a, he⟩ := eq_nil_or_concat (items.take m) |>.resolve_left h
  rw [concat_eq_append] at he
  refine ⟨before, a, he, ?_⟩
  have happ := take_append_drop m items
  rw [he] at happ
  simpa using happ.symm

theorem pageAfter_take (hnodup : (items.map key).Nodup) (m : ℕ) :
    pageAfter key n items ((items.take m).getLast?.map key) = (items.drop m).take n := by
  by_cases he : items.take m = []
  · rcases List.take_eq_nil_iff.mp he with rfl | rfl
    · rfl
    · simp [pageAfter]
  · obtain ⟨before, a, htake, hsplit⟩ := exists_split he
    rw [htake, List.getLast?_concat, Option.map_some]
    conv_lhs => rw [hsplit]
    exact pageAfter_append (hsplit ▸ hnodup)

theorem received_pageAfter (hnodup : (items.map key).Nodup) (k : ℕ) :
    received key (pageAfter key n items) k = items.take (k * n) := by
  induction k with
  | zero => simp
  | succ k ih =>
    rw [received_succ, nextPage, ih, pageAfter_take hnodup, Nat.succ_mul, take_add]

/-- **Pages cut at the cursor's place.**  Their reader sees everything. -/
theorem visitsAll_pageAfter (hn : 0 < n) (hnodup : (items.map key).Nodup) :
    VisitsAll key (pageAfter key n items) items where
  inOrder k := by
    rw [received_pageAfter hnodup]
    exact take_prefix (k * n) items
  complete := by
    refine ⟨items.length, ?_⟩
    rw [received_pageAfter hnodup]
    exact take_of_length_le (Nat.le_mul_of_pos_right _ hn)
  emptyAtEnd k hempty := by
    rw [nextPage, received_pageAfter hnodup, pageAfter_take hnodup] at hempty
    rw [received_pageAfter hnodup]
    rcases List.take_eq_nil_iff.mp hempty with h | h
    · omega
    · exact take_of_length_le (List.drop_eq_nil_iff.mp h)

omit [DecidableEq ι] in
/-- A reader that gets an item it already has does not see the items once each. -/
theorem not_inOrder_of_repeated {page : Option ι → List α} (hnodup : (items.map key).Nodup)
    {k : ℕ} {b : α} (hseen : b ∈ received key page k) (hpage : b ∈ nextPage key page k) :
    ¬ received key page (k + 1) <+: items := by
  intro hstart
  have hsub := (hstart.sublist.map key).nodup hnodup
  rw [received_succ, map_append, nodup_append] at hsub
  exact hsub.2.2 _ (mem_map_of_mem hseen) _ (mem_map_of_mem hpage) rfl

/-- A reader of `pageFrom` that sees the items once each only stands on cursors that are the
first of their stamp. -/
theorem lastLater_of_inOrder (hn : 0 < n) (hnodup : (items.map key).Nodup)
    (hin : ∀ k, received key (pageFrom key stamp n items) k <+: items) {m k : ℕ}
    (hk : received key (pageFrom key stamp n items) k = items.take m) :
    LastLater stamp (items.take m) := by
  by_cases he : items.take m = []
  · rw [he]
    exact fun a ha => absurd ha (by simp)
  · obtain ⟨before, a, htake, hsplit⟩ := exists_split he
    rw [htake]
    by_contra hlater
    obtain ⟨b, hb, hpage⟩ := pageFrom_of_not_lastLater hn (hsplit ▸ hnodup) hlater
    refine not_inOrder_of_repeated hnodup (k := k) (b := b) ?_ ?_ (hin (k + 1))
    · rw [hk, htake]
      exact mem_append_left _ hb
    · rw [nextPage, hk, htake, List.getLast?_concat, Option.map_some]
      rwa [← hsplit] at hpage

theorem pageFrom_take (hn : 0 < n) (hnodup : (items.map key).Nodup)
    (hsorted : items.Pairwise fun b c => stamp b ≤ stamp c) {m : ℕ} (hm : 0 < m)
    (hlater : LastLater stamp (items.take m)) :
    pageFrom key stamp n items ((items.take m).getLast?.map key) = (items.drop m).take (n - 1) := by
  by_cases he : items.take m = []
  · obtain rfl := (List.take_eq_nil_iff.mp he).resolve_left (by omega)
    simp [pageFrom]
  · obtain ⟨before, a, htake, hsplit⟩ := exists_split he
    rw [htake] at hlater ⊢
    rw [List.getLast?_concat, Option.map_some]
    conv_lhs => rw [hsplit]
    exact pageFrom_of_lastLater hn (hsplit ▸ hnodup) (hsplit ▸ hsorted) hlater

/-- At the end of the list the page is empty. -/
theorem pageFrom_end (hn : 0 < n) (hnodup : (items.map key).Nodup)
    (hsorted : items.Pairwise fun b c => stamp b ≤ stamp c) (hlater : LastLater stamp items) :
    pageFrom key stamp n items (items.getLast?.map key) = [] := by
  have htake : items.take (items.length + 1) = items := take_of_length_le (by omega)
  have hpage := pageFrom_take hn hnodup hsorted (Nat.succ_pos items.length) (htake.symm ▸ hlater)
  rw [htake, drop_eq_nil_of_le (by omega), take_nil] at hpage
  exact hpage

theorem received_pageFrom_one : received key (pageFrom key stamp n items) 1 = items.take n := by
  rw [received_succ, received_zero, nil_append]
  rfl

/-- The page after the first, of fewer than two pages of items. -/
theorem nextPage_pageFrom_one (hn : 0 < n) (hnodup : (items.map key).Nodup)
    (hsorted : items.Pairwise fun b c => stamp b ≤ stamp c)
    (hlater : LastLater stamp (items.take n)) (hlen : items.length < 2 * n) :
    nextPage key (pageFrom key stamp n items) 1 = items.drop n := by
  rw [nextPage, received_pageFrom_one, pageFrom_take hn hnodup hsorted hn hlater]
  apply take_of_length_le
  rw [length_drop]
  omega

theorem received_pageFrom_two (hn : 0 < n) (hnodup : (items.map key).Nodup)
    (hsorted : items.Pairwise fun b c => stamp b ≤ stamp c)
    (hlater : LastLater stamp (items.take n)) (hlen : items.length < 2 * n) :
    received key (pageFrom key stamp n items) 2 = items := by
  rw [received_succ, nextPage_pageFrom_one hn hnodup hsorted hlater hlen, received_pageFrom_one]
  exact take_append_drop n items

/-- **When the two readers agree.**  Pages cut before the cursor is taken out are seen like pages
cut at its place by a reader of fewer than two pages of items, where the last item of the first
page and the last item of all are each stamped later than every item before them. -/
theorem visitsAll_pageFrom_iff (hn : 0 < n) (hnodup : (items.map key).Nodup)
    (hsorted : items.Pairwise fun b c => stamp b ≤ stamp c) :
    (VisitsAll key (pageFrom key stamp n items) items ∧
        ∀ k, pages key (pageFrom key stamp n items) k = pages key (pageAfter key n items) k) ↔
      items.length < 2 * n ∧ LastLater stamp (items.take n) ∧ LastLater stamp items := by
  constructor
  · rintro ⟨hvisits, hpages⟩
    have hfirst := lastLater_of_inOrder hn hnodup hvisits.inOrder received_pageFrom_one
    -- The second pages have the same length only if the list ends within them.
    have hlen : items.length < 2 * n := by
      have hsecond : nextPage key (pageFrom key stamp n items) 1
          = nextPage key (pageAfter key n items) 1 := by
        have htwo := hpages 2
        rw [pages_succ key _ 1, pages_succ key _ 1, hpages 1] at htwo
        simpa using append_cancel_left htwo
      rw [nextPage, nextPage, received_pageFrom_one, received_pageAfter hnodup, Nat.one_mul,
        pageFrom_take hn hnodup hsorted hn hfirst, pageAfter_take hnodup] at hsecond
      have hlength := congrArg List.length hsecond
      simp only [length_take, length_drop] at hlength
      omega
    have htwo := received_pageFrom_two hn hnodup hsorted hfirst hlen
    have hlast := lastLater_of_inOrder hn hnodup hvisits.inOrder (m := items.length)
      (htwo.trans List.take_length.symm)
    rw [take_length] at hlast
    exact ⟨hlen, hfirst, hlast⟩
  · rintro ⟨hlen, hfirst, hlast⟩
    have hone := nextPage_pageFrom_one hn hnodup hsorted hfirst hlen
    have hmore : ∀ k, received key (pageFrom key stamp n items) (k + 2) = items := fun k =>
      received_of_le (received_pageFrom_two hn hnodup hsorted hfirst hlen)
        (pageFrom_end hn hnodup hsorted hlast) (Nat.le_add_left 2 k)
    refine ⟨⟨?_, ⟨2, hmore 0⟩, ?_⟩, ?_⟩
    · rintro (- | - | k)
      · exact nil_prefix
      · rw [received_pageFrom_one]
        exact take_prefix n items
      · exact ⟨[], (append_nil _).trans (hmore k)⟩
    · rintro (- | - | k) hempty
      · exact ((List.take_eq_nil_iff.mp hempty).resolve_left (by omega)).symm
      · rw [received_pageFrom_one]
        exact take_of_length_le (List.drop_eq_nil_iff.mp (hone.symm.trans hempty))
      · exact hmore k
    · intro k
      refine (pages_congr (fun k => ?_) k).symm
      rcases k with - | - | k
      · rfl
      · rw [hone, received_pageFrom_one, pageAfter_take hnodup]
        exact (take_of_length_le (by rw [length_drop]; omega)).symm
      · have hend := pageAfter_take (n := n) hnodup items.length
        rw [take_length, drop_length, take_nil] at hend
        rw [nextPage, hmore k, hend]
        exact pageFrom_end hn hnodup hsorted hlast

end Readers

end Paging
