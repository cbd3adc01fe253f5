/-
Lib/Failover.lean

Sources tried one after the other.  In its turn a source gives some items and then
either passes on, with a reason, or ends the run with an error or a result.  A run
collects what the sources gave, with the key of the source, and the reasons of
those that passed on.

`Tried turn l before c` says that the run over `l` gets to `c`, past `before`.  A
run is decided by the source that ends it (`run_of_tried`), or every source passes
on.  `oneSource_iff` says exactly when a run that may pass on after it has given
something still comes from one source.
-/
import Mathlib.Data.List.Nodup

namespace Failover

open List

variable {ι β κ ε ρ : Type}

/-- What a source gives in its turn, and what it does then. -/
structure Turn (β κ ε ρ : Type) where
  given : List β
  /-- A reason to pass on, or how the run ends. -/
  ending : κ ⊕ Except ε ρ

/-- What a run has given, why its sources passed on, and how it ended. -/
structure Outcome (β κ ε ρ : Type) where
  given : List (ℕ × β)
  passed : List κ
  ended : Option (Except ε ρ)

def Turn.PassesOn (t : Turn β κ ε ρ) : Prop := ∃ why, t.ending = .inl why

def Turn.Finishes (t : Turn β κ ε ρ) : Prop := ∃ r, t.ending = .inr (.ok r)

variable (key : ι → ℕ) (turn : ι → Turn β κ ε ρ)

/-- What a source gives, under its key. -/
def shown (c : ι) : List (ℕ × β) := (turn c).given.map (key c, ·)

/-- The run over a list of sources. -/
def run : List ι → Outcome β κ ε ρ
  | [] => ⟨[], [], none⟩
  | c :: l =>
    match (turn c).ending with
    | .inl why => ⟨shown key turn c ++ (run l).given, why :: (run l).passed, (run l).ended⟩
    | .inr ended => ⟨shown key turn c, [], some ended⟩

/-- The run over `l` gets to `c`, after all of `before` have passed on. -/
def Tried (l before : List ι) (c : ι) : Prop :=
  (∃ after, l = before ++ c :: after) ∧ ∀ b ∈ before, (turn b).PassesOn

variable {key turn} {l before before' : List ι} {c c' d : ι}

theorem run_cons_of_passesOn {why : κ} (h : (turn c).ending = .inl why) :
    run key turn (c :: l) =
      ⟨shown key turn c ++ (run key turn l).given, why :: (run key turn l).passed,
        (run key turn l).ended⟩ := by
  rw [run, h]

variable {ended : Except ε ρ}

theorem run_cons_of_ended (h : (turn c).ending = .inr ended) :
    run key turn (c :: l) = ⟨shown key turn c, [], some ended⟩ := by
  rw [run, h]

theorem not_passesOn_of_ended {t : Turn β κ ε ρ} (h : t.ending = .inr ended) : ¬ t.PassesOn := by
  rintro ⟨why, hwhy⟩
  rw [h] at hwhy
  cases hwhy

/-! ### Which sources are tried -/

theorem not_tried_nil : ¬ Tried turn [] before c := by
  rintro ⟨⟨after, h⟩, -⟩
  simp at h

/-- A source that is tried is the first, or the first passes on to the others. -/
theorem tried_cons :
    Tried turn (d :: l) before c ↔
      (before = [] ∧ c = d) ∨
        ∃ rest, before = d :: rest ∧ (turn d).PassesOn ∧ Tried turn l rest c := by
  constructor
  · rintro ⟨⟨after, h⟩, hbefore⟩
    cases before with
    | nil =>
      obtain ⟨rfl, -⟩ := List.cons_eq_cons.mp h
      exact .inl ⟨rfl, rfl⟩
    | cons b rest =>
      obtain ⟨rfl, hl⟩ := List.cons_eq_cons.mp h
      refine .inr ⟨rest, rfl, hbefore d mem_cons_self, ⟨after, hl⟩, ?_⟩
      exact fun b hb => hbefore b (mem_cons_of_mem _ hb)
  · rintro (⟨rfl, rfl⟩ | ⟨rest, rfl, hd, ⟨after, rfl⟩, hrest⟩)
    · exact ⟨⟨l, rfl⟩, by simp⟩
    · refine ⟨⟨after, rfl⟩, fun b hb => ?_⟩
      rcases List.mem_cons.mp hb with rfl | hb
      · exact hd
      · exact hrest b hb

theorem Tried.mem (h : Tried turn l before c) : c ∈ l := by
  obtain ⟨⟨after, rfl⟩, -⟩ := h
  simp

/-- Of two sources that are tried, one comes before the other. -/
theorem Tried.trichotomy (h : Tried turn l before c) (h' : Tried turn l before' c') :
    c = c' ∨ c ∈ before' ∨ c' ∈ before := by
  induction l generalizing before before' with
  | nil => exact absurd h not_tried_nil
  | cons d l ih =>
    rcases tried_cons.mp h with ⟨rfl, rfl⟩ | ⟨rest, rfl, -, h⟩ <;>
      rcases tried_cons.mp h' with ⟨rfl, rfl⟩ | ⟨rest', rfl, -, h'⟩
    · exact .inl rfl
    · exact .inr (.inl mem_cons_self)
    · exact .inr (.inr mem_cons_self)
    · rcases ih h h' with heq | hc | hc'
      · exact .inl heq
      · exact .inr (.inl (mem_cons_of_mem _ hc))
      · exact .inr (.inr (mem_cons_of_mem _ hc'))

/-- Every source passes on, or one that is tried does not. -/
theorem passesOn_or_tried (turn : ι → Turn β κ ε ρ) (l : List ι) :
    (∀ c ∈ l, (turn c).PassesOn) ∨
      ∃ before c ended, Tried turn l before c ∧ (turn c).ending = .inr ended := by
  induction l with
  | nil => exact .inl (by simp)
  | cons d l ih =>
    cases hd : (turn d).ending with
    | inr ended => exact .inr ⟨[], d, ended, tried_cons.mpr (.inl ⟨rfl, rfl⟩), hd⟩
    | inl why =>
      rcases ih with hall | ⟨before, c, ended, htried, hc⟩
      · exact .inl (List.forall_mem_cons.mpr ⟨⟨why, hd⟩, hall⟩)
      · exact .inr ⟨d :: before, c, ended,
          tried_cons.mpr (.inr ⟨before, rfl, ⟨why, hd⟩, htried⟩), hc⟩

/-! ### What a run comes to -/

variable (key) in
/-- Sources that pass on hand the run to the others. -/
theorem run_append (h : ∀ b ∈ before, (turn b).PassesOn) (l : List ι) :
    run key turn (before ++ l) =
      ⟨before.flatMap (shown key turn) ++ (run key turn l).given,
        (run key turn before).passed ++ (run key turn l).passed, (run key turn l).ended⟩ := by
  induction before with
  | nil => rfl
  | cons b before ih =>
    obtain ⟨why, hwhy⟩ := h b mem_cons_self
    have hrest := ih fun b hb => h b (mem_cons_of_mem _ hb)
    rw [cons_append, run_cons_of_passesOn hwhy, run_cons_of_passesOn hwhy, hrest]
    simp

/-- **The source that ends the run decides it.** -/
theorem run_of_tried (h : Tried turn l before c) (hc : (turn c).ending = .inr ended) :
    run key turn l =
      ⟨before.flatMap (shown key turn) ++ shown key turn c, (run key turn before).passed,
        some ended⟩ := by
  obtain ⟨⟨after, rfl⟩, hbefore⟩ := h
  rw [run_append key hbefore, run_cons_of_ended hc]
  simp

/-- A run depends on the turns of the sources that are tried, and on no others. -/
theorem run_congr {turn' : ι → Turn β κ ε ρ}
    (h : ∀ before c, Tried turn l before c → turn c = turn' c) :
    run key turn l = run key turn' l := by
  induction l with
  | nil => rfl
  | cons c l ih =>
    have hhead : turn c = turn' c := h [] c (tried_cons.mpr (.inl ⟨rfl, rfl⟩))
    have hshown : shown key turn c = shown key turn' c := by rw [shown, shown, hhead]
    cases hc : (turn c).ending with
    | inr ended => rw [run_cons_of_ended hc, run_cons_of_ended (hhead ▸ hc), hshown]
    | inl why =>
      have hrest : run key turn l = run key turn' l := by
        apply ih
        intro before d hd
        exact h (c :: before) d (tried_cons.mpr (.inr ⟨before, rfl, ⟨why, hc⟩, hd⟩))
      rw [run_cons_of_passesOn hc, run_cons_of_passesOn (hhead ▸ hc), hshown, hrest]

variable (key) in
theorem run_of_passesOn (h : ∀ c ∈ l, (turn c).PassesOn) : (run key turn l).ended = none := by
  simpa [run] using congrArg Outcome.ended (run_append key h [])

/-- What is given is given by a source that is tried. -/
theorem mem_given {x : ℕ × β} :
    x ∈ (run key turn l).given ↔ ∃ before c, Tried turn l before c ∧ x ∈ shown key turn c := by
  induction l with
  | nil =>
    refine ⟨fun h => absurd h not_mem_nil, ?_⟩
    rintro ⟨before, c, htried, -⟩
    exact absurd htried not_tried_nil
  | cons d l ih =>
    simp only [tried_cons]
    cases hd : (turn d).ending with
    | inr ended =>
      rw [run_cons_of_ended hd]
      constructor
      · exact fun hx => ⟨[], d, .inl ⟨rfl, rfl⟩, hx⟩
      · rintro ⟨before, c, ⟨-, rfl⟩ | ⟨rest, -, hpasses, -⟩, hx⟩
        · exact hx
        · exact absurd hpasses (not_passesOn_of_ended hd)
    | inl why =>
      rw [run_cons_of_passesOn hd]
      simp only [mem_append, ih]
      constructor
      · rintro (hx | ⟨before, c, htried, hx⟩)
        · exact ⟨[], d, .inl ⟨rfl, rfl⟩, hx⟩
        · exact ⟨d :: before, c, .inr ⟨before, rfl, ⟨why, hd⟩, htried⟩, hx⟩
      · rintro ⟨before, c, ⟨-, rfl⟩ | ⟨rest, -, -, htried⟩, hx⟩
        · exact .inl hx
        · exact .inr ⟨rest, c, htried, hx⟩

theorem ended_eq_some_iff :
    (run key turn l).ended = some ended ↔
      ∃ before c, Tried turn l before c ∧ (turn c).ending = .inr ended := by
  constructor
  · intro h
    rcases passesOn_or_tried turn l with hall | ⟨before, c, ended', htried, hc⟩
    · rw [run_of_passesOn key hall] at h
      cases h
    · rw [run_of_tried htried hc] at h
      cases h
      exact ⟨before, c, htried, hc⟩
  · rintro ⟨before, c, htried, hc⟩
    rw [run_of_tried htried hc]

/-! ### One source -/

/-- All that is given comes from one source, and a run that ends with a result has
given just what the source with that result gives. -/
structure OneSource (key : ι → ℕ) (turn : ι → Turn β κ ε ρ) (l : List ι)
    (o : Outcome β κ ε ρ) : Prop where
  alone : ∀ x ∈ o.given, ∀ y ∈ o.given, x.1 = y.1
  whole : ∀ r, o.ended = some (.ok r) →
    ∃ c ∈ l, (turn c).ending = .inr (.ok r) ∧ o.given = shown key turn c

/-- No source is tried to any effect after another has given something. -/
def PassesUnseen (turn : ι → Turn β κ ε ρ) (l : List ι) : Prop :=
  ∀ before c, Tried turn l before c → (turn c).given ≠ [] ∨ (turn c).Finishes →
    ∀ b ∈ before, (turn b).given = []

theorem shown_eq_nil (h : (turn c).given = []) : shown key turn c = [] := by
  rw [shown, h, map_nil]

variable (key) in
theorem exists_mem_shown (h : (turn c).given ≠ []) : ∃ x ∈ shown key turn c, x.1 = key c := by
  obtain ⟨b, hb⟩ := exists_mem_of_ne_nil _ h
  exact ⟨(key c, b), mem_map_of_mem hb, rfl⟩

theorem key_of_mem_shown {x : ℕ × β} (h : x ∈ shown key turn c) : x.1 = key c := by
  obtain ⟨b, -, rfl⟩ := List.mem_map.mp h
  rfl

/-- **When a run comes from one source.**  Where the keys tell the sources apart, it
does exactly if no source is tried to any effect after another has given something. -/
theorem oneSource_iff (hkey : (l.map key).Nodup) :
    OneSource key turn l (run key turn l) ↔ PassesUnseen turn l := by
  constructor
  · intro hone before c htried heffect b hb
    by_contra hgiven
    -- `b` has given something before `c` is tried
    obtain ⟨⟨after, hl⟩, hbefore⟩ := htried
    obtain ⟨early, late, rfl⟩ := append_of_mem hb
    have hb : Tried turn l early b :=
      ⟨⟨late ++ c :: after, by simp [hl]⟩, fun a ha => hbefore a (by simp [ha])⟩
    have hc : Tried turn l (early ++ b :: late) c := ⟨⟨after, hl⟩, hbefore⟩
    obtain ⟨x, hx, hxkey⟩ := exists_mem_shown key hgiven
    have hxgiven := mem_given.mpr ⟨early, b, hb, hx⟩
    have hne : key b ≠ key c := by
      rw [hl, map_append, nodup_append] at hkey
      exact hkey.2.2 (key b) (mem_map_of_mem (by simp)) (key c) (by simp)
    rcases heffect with hgives | ⟨r, hr⟩
    · obtain ⟨y, hy, hykey⟩ := exists_mem_shown key hgives
      have heq := hone.alone x hxgiven y (mem_given.mpr ⟨_, c, hc, hy⟩)
      exact hne (hxkey.symm.trans (heq.trans hykey))
    · have hended : (run key turn l).ended = some (.ok r) := ended_eq_some_iff.mpr ⟨_, c, hc, hr⟩
      obtain ⟨d, hd, hending, hwhole⟩ := hone.whole r hended
      rw [hwhole] at hxgiven
      have hbd : key b = key d := hxkey.symm.trans (key_of_mem_shown hxgiven)
      have : b = d := inj_on_of_nodup_map hkey hb.mem hd hbd
      subst this
      exact not_passesOn_of_ended hending (hbefore b (by simp))
  · intro hunseen
    constructor
    · intro x hx y hy
      obtain ⟨before, c, hc, hx⟩ := mem_given.mp hx
      obtain ⟨before', c', hc', hy⟩ := mem_given.mp hy
      have hgives : (turn c).given ≠ [] := by
        rintro h
        rw [shown_eq_nil h] at hx
        cases hx
      have hgives' : (turn c').given ≠ [] := by
        rintro h
        rw [shown_eq_nil h] at hy
        cases hy
      rw [key_of_mem_shown hx, key_of_mem_shown hy]
      rcases hc.trichotomy hc' with rfl | hmem | hmem
      · rfl
      · exact absurd (hunseen before' c' hc' (.inl hgives') c hmem) hgives
      · exact absurd (hunseen before c hc (.inl hgives) c' hmem) hgives'
    · intro r hr
      obtain ⟨before, c, htried, hc⟩ := ended_eq_some_iff.mp hr
      refine ⟨c, htried.mem, hc, ?_⟩
      have hnone : before.flatMap (shown key turn) = [] := by
        rw [flatMap_eq_nil_iff]
        exact fun b hb => shown_eq_nil (hunseen before c htried (.inr ⟨r, hc⟩) b hb)
      rw [run_of_tried htried hc, hnone, nil_append]

end Failover
