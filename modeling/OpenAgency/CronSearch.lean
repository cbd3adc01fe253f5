/-
CronSearch.lean

The next fire of a cron schedule, searched by the wall clock.  `next_cron_fire` steps
through the wall-clock minutes that follow the local time of now and converts the first
that matches back to an instant.  The wall clock of a zone may jump: minutes it skips are
still tried, and a minute it shows twice is read as the first of the two instants.

`CronSpec.FiresRight` is what the result should be: the earliest minute after now whose
local time matches.  It is so if and only if the clock comes to show the wall-clock minute
that the search stops at for the first time after now, on a whole minute, without going back
or ahead onto another match before, or skips it onto a match (`nextCronFire_right_iff`).
-/
import Mathlib.Data.List.Forall2
import Mathlib.Order.Bounds.Basic
import Mathlib.Order.WellFounded
import OpenAgency.Triggers

namespace OpenAgency

open List CronFields

/-! ### The characters of a number -/

variable {cs : List Char}

/-- A part of a cron field: `*`, `*/n` or a number. -/
inductive CronPart where
  | any
  | every (step : ℕ)
  | exactly (n : ℤ)

namespace CronPart

/-- Whether a part admits a value of a field that counts from `minimum`. -/
def holds (minimum value : ℕ) : CronPart → Bool
  | any => true
  | every step => ((value : ℤ) - minimum) % step = 0
  | exactly n => value = n

/-- A field that the code can read: one that begins with `*/` is read to its end as one number. -/
def Readable : List CronPart → Prop
  | every _ :: _ :: _ => False
  | _ => True

instance : DecidablePred Readable := fun parts =>
  match parts with
  | every _ :: _ :: _ => .isFalse id
  | [] | [any] | [every _] | [exactly _] | any :: _ :: _ | exactly _ :: _ :: _ => .isTrue trivial

variable {part : CronPart} {parts : List CronPart} {cs : List Char} {pieces : List (List Char)}
  {text : String} {value minimum : ℕ}

theorem mem_intercalate {c : Char} {piece : List Char} (hpiece : piece ∈ pieces) (hc : c ∈ piece) :
    c ∈ [','].intercalate pieces := by
  induction pieces with
  | nil => cases hpiece
  | cons head tail ih =>
    rcases tail with - | ⟨next, tail⟩
    · rw [intercalate_singleton]
      rcases List.mem_singleton.mp hpiece with rfl
      exact hc
    · rw [intercalate_cons_cons]
      rcases List.mem_cons.mp hpiece with rfl | hpiece
      · simp [hc]
      · simp [ih hpiece]

end CronPart

/-- What the five fields of an expression stand for. -/
structure CronSpec where
  minutes : List CronPart
  hours : List CronPart
  days : List CronPart
  months : List CronPart
  weekdays : List CronPart

namespace CronSpec

open CronPart

/-- A wall-clock time that all five fields admit; weekdays count from Sunday. -/
def admits (spec : CronSpec) (t : Time) : Bool :=
  spec.minutes.any (holds 0 (t / minute % 60)) && (spec.hours.any (holds 0 (t / hour % 24)) &&
    (spec.days.any (holds 1 (monthDay (t / day)).2) &&
    (spec.months.any (holds 1 (monthDay (t / day)).1) &&
    spec.weekdays.any (holds 0 ((weekday t + 1) % 7)))))

/-- No field is a list that begins with a step. -/
structure Readable (spec : CronSpec) : Prop where
  minute : CronPart.Readable spec.minutes
  hour : CronPart.Readable spec.hours
  day : CronPart.Readable spec.days
  month : CronPart.Readable spec.months
  weekday : CronPart.Readable spec.weekdays

variable {spec : CronSpec} {f : CronFields} {expression : String} {t : Time}

end CronSpec

/-! ### The search -/

theorem addToTime_ok_iff {t t' : Time} {d : ℤ} :
    addToTime t d = .ok t' ↔ (t' : ℤ) = t + d ∧ t' < maxTime := by
  unfold addToTime
  constructor
  · intro h
    split at h
    next hrange =>
      cases h
      have htoNat : (((t : ℤ) + d).toNat : ℤ) = t + d := Int.toNat_of_nonneg hrange.1
      exact ⟨htoNat, by exact_mod_cast htoNat ▸ hrange.2⟩
    next => cases h
  · rintro ⟨hsum, hmax⟩
    rw [← hsum, if_pos ⟨Int.natCast_nonneg t', by exact_mod_cast hmax⟩, Int.toNat_natCast]

namespace ZoneInfo

/-- The wall-clock time that the zone shows at an instant. -/
def Shows (zone : ZoneInfo) (u w : Time) : Prop :=
  addToTime u (zone.offsetAt u) = .ok w

/-- The instant that a wall-clock time is read as. -/
def Reads (zone : ZoneInfo) (w u : Time) : Prop :=
  addToTime w (-zone.utcoffset w) = .ok u

/-- The wall-clock minute after the one that the zone shows now. -/
def WallStart (zone : ZoneInfo) (now start : Time) : Prop :=
  ∃ w, zone.Shows now w ∧ start = w - w % minute + minute ∧ start + 366 * day < maxTime

theorem WallStart.unique {zone : ZoneInfo} {now start start' : Time}
    (h : zone.WallStart now start) (h' : zone.WallStart now start') : start = start' := by
  obtain ⟨w, hw, rfl, -⟩ := h
  obtain ⟨w', hw', rfl, -⟩ := h'
  rw [Except.ok.inj (hw.symm.trans hw')]

end ZoneInfo

namespace CronSpec

variable {spec : CronSpec} {f : CronFields} {expression : String} {zone : ZoneInfo}
  {now start last candidate t : Time} {name : String}

/-- The minutes of the wall clock from `start` to `last` that the expression admits. -/
def minutesFrom (spec : CronSpec) (start last : Time) : Set Time :=
  {c | start ≤ c ∧ c ≤ last ∧ minute ∣ c ∧ spec.admits c}

/-- Where the search stops: at the first minute of the wall clock after the one shown now that
the expression admits. -/
structure StopsAt (spec : CronSpec) (zone : ZoneInfo) (now start c : Time) : Prop where
  readable : spec.Readable
  begins : zone.WallStart now start
  first : IsLeast (spec.minutesFrom start (start + 366 * day)) c

/-- The minutes after now whose local time the expression admits. -/
def matchingMinutes (spec : CronSpec) (zone : ZoneInfo) (now : Time) : Set Time :=
  {u | now < u ∧ u < maxTime ∧ minute ∣ u ∧ ∃ w, zone.Shows u w ∧ spec.admits w}

/-- A whole minute after now at which the clock is not between `start` and `c`, but has gone back
behind the one or run ahead of the other, and shows a time that matches. -/
def Strays (spec : CronSpec) (zone : ZoneInfo) (now start c u : Time) : Prop :=
  now < u ∧ u < maxTime ∧ minute ∣ u ∧ ∃ w, zone.Shows u w ∧ (w < start ∨ c < w) ∧ spec.admits w

/-- The clock, which has not shown `c` yet, comes to show it on a whole minute, and does not stray
before. -/
structure Reaches (spec : CronSpec) (zone : ZoneInfo) (now start c : Time) : Prop where
  unseen : ∀ u ≤ now, ¬ zone.Shows u c
  whole : ∀ u, IsLeast {u | zone.Shows u c} u → minute ∣ u
  straight : ∀ u, spec.Strays zone now start c u → ∃ r < u, zone.Shows r c

/-- The clock, which never shows `c`, lands on a match: `c` is read as the first minute at which it
strays onto one, or as no instant, if there is none within 366 days. -/
structure Skips (spec : CronSpec) (zone : ZoneInfo) (now start c : Time) : Prop where
  lands : ∀ r, zone.Reads c r → IsLeast {u | spec.Strays zone now start c u} r
  nowhere : (∀ r, ¬ zone.Reads c r) → ∀ u, spec.Strays zone now start c u → now + 366 * day < u

/-- The jumps of the zone's clock do no harm to the search. -/
structure ClockAgrees (spec : CronSpec) (zone : ZoneInfo) (now : Time) : Prop where
  reaches : ∀ {start c}, spec.StopsAt zone now start c → (∃ u < maxTime, zone.Shows u c) →
    spec.Reaches zone now start c
  skips : ∀ {start c}, spec.StopsAt zone now start c → (∀ u < maxTime, ¬ zone.Shows u c) →
    spec.Skips zone now start c
  idle : ∀ {start}, zone.WallStart now start → spec.minutesFrom start (start + 366 * day) = ∅ →
    ∀ u, spec.Strays zone now start (start + 366 * day) u → now + 366 * day < u
  unread : ¬ spec.Readable ∨ (∀ start, ¬ zone.WallStart now start) →
    ∀ u ∈ spec.matchingMinutes zone now, now + 366 * day < u

/-- An expression looks at the minute of a time only. -/
theorem admits_congr {t t' : Time} (h : t / minute = t' / minute) :
    spec.admits t = spec.admits t' := by
  have hhour : t / hour = t' / hour := by
    have hdiv : ∀ t : Time, t / hour = t / minute / 60 := fun t => by
      rw [Nat.div_div_eq_div_mul, Nat.mul_comm]
      rfl
    rw [hdiv, hdiv, h]
  have hday : t / day = t' / day := by
    have hdiv : ∀ t : Time, t / day = t / hour / 24 := fun t => by
      rw [Nat.div_div_eq_div_mul, Nat.mul_comm]
      rfl
    rw [hdiv, hdiv, hhour]
  unfold admits weekday
  rw [h, hhour, hday]

theorem minute_pos : 0 < minute := by
  decide

theorem admits_floor (t : Time) : spec.admits (t - t % minute) = spec.admits t := by
  apply admits_congr
  rw [Nat.div_eq_of_lt_le]
  · rw [Nat.div_mul_self_eq_mod_sub_self]
  · rw [Nat.add_mul, Nat.div_mul_self_eq_mod_sub_self, Nat.one_mul]
    exact Nat.lt_add_of_pos_right minute_pos

theorem le_floor {s t : Time} (hdvd : minute ∣ s) (h : s ≤ t) : s ≤ t - t % minute := by
  obtain ⟨k, rfl⟩ := hdvd
  rw [← Nat.div_mul_self_eq_mod_sub_self, Nat.mul_comm]
  apply Nat.mul_le_mul_right
  rw [Nat.le_div_iff_mul_le minute_pos, Nat.mul_comm]
  exact h

theorem reads_of_shows {u w : Time} (h : zone.Shows u w) (hu : u < maxTime) :
    ∃ r ≤ u, zone.Reads w r ∧ zone.Shows r w := by
  obtain ⟨hsum, hmax⟩ := addToTime_ok_iff.mp h
  obtain ⟨r, hle, hread, hshow⟩ := zone.reads_first hsum.symm
  exact ⟨r, hle, addToTime_ok_iff.mpr ⟨by rw [hread, Int.sub_eq_add_neg], hle.trans_lt hu⟩,
    addToTime_ok_iff.mpr ⟨hshow.symm, hmax⟩⟩

/-- A minute that matches is one to which the clock has strayed, or its local time is in the
stretch. -/
theorem strays_or_mem {u : Time} (hu : u ∈ spec.matchingMinutes zone now)
    (hbegins : zone.WallStart now start) :
    spec.Strays zone now start last u ∨
      ∃ w, zone.Shows u w ∧ w ≤ last ∧ w - w % minute ∈ spec.minutesFrom start last := by
  obtain ⟨hnow, hmax, hdvd, w, hshow, hadmits⟩ := hu
  by_cases hout : w < start ∨ last < w
  · exact .inl ⟨hnow, hmax, hdvd, w, hshow, hout, hadmits⟩
  · obtain ⟨hstart, hlast⟩ := not_or.mp hout
    have hlast : w ≤ last := not_lt.mp hlast
    obtain ⟨v, -, hv, -⟩ := hbegins
    have hdvd : minute ∣ start := hv ▸ Nat.dvd_add (Nat.dvd_sub_mod v) (Nat.dvd_refl minute)
    refine .inr ⟨w, hshow, hlast, le_floor hdvd (not_lt.mp hstart), (Nat.sub_le _ _).trans hlast,
      Nat.dvd_sub_mod w, ?_⟩
    rw [admits_floor]
    exact hadmits

theorem StopsAt.strays_or_shows {c u : Time} (h : spec.StopsAt zone now start c)
    (hu : u ∈ spec.matchingMinutes zone now) :
    spec.Strays zone now start c u ∨ zone.Shows u c := by
  rcases strays_or_mem hu h.begins with hstrays | ⟨w, hshow, hle, hstart, hlast, hdvd, hadmits⟩
  · exact .inl hstrays
  · -- the search stops at the first match, which is not before `c`
    have hc : c ≤ w - w % minute :=
      h.first.2 ⟨hstart, hlast.trans h.first.1.2.1, hdvd, hadmits⟩
    obtain rfl : w = c := le_antisymm hle (hc.trans (Nat.sub_le _ _))
    exact .inr hshow

/-- The search stops, if it is able to begin and there is a match in its stretch. -/
theorem exists_stopsAt (hreadable : spec.Readable) (hbegins : zone.WallStart now start)
    (hne : spec.minutesFrom start (start + 366 * day) ≠ ∅) :
    ∃ c, spec.StopsAt zone now start c := by
  obtain ⟨c, hc, hmin⟩ := wellFounded_lt.has_min _ (Set.nonempty_iff_ne_empty.mpr hne)
  exact ⟨c, hreadable, hbegins, hc, fun c' hc' => not_lt.mp (hmin c' hc')⟩

/-- And where it returns none, there is no match to return. -/
theorem ClockAgrees.none (hagrees : spec.ClockAgrees zone now)
    (hnone : ∀ start c t, spec.StopsAt zone now start c → ¬ zone.Reads c t) :
    ∀ u ∈ spec.matchingMinutes zone now, now + 366 * day < u := by
  intro u hu
  by_cases hbegins : spec.Readable ∧ ∃ start, zone.WallStart now start
  · obtain ⟨hreadable, start, hbegins⟩ := hbegins
    by_cases hempty : spec.minutesFrom start (start + 366 * day) = ∅
    · rcases strays_or_mem hu hbegins with hstrays | ⟨w, -, -, hmem⟩
      · exact hagrees.idle hbegins hempty u hstrays
      · rw [hempty] at hmem
        cases hmem
    · obtain ⟨c, hstops⟩ := exists_stopsAt hreadable hbegins hempty
      have hunshown : ∀ u < maxTime, ¬ zone.Shows u c := by
        intro u hu hshow
        obtain ⟨r, -, hread, -⟩ := reads_of_shows hshow hu
        exact hnone start c r hstops hread
      rcases hstops.strays_or_shows hu with hstrays | hshow
      · exact (hagrees.skips hstops hunshown).nowhere (fun r => hnone start c r hstops) u hstrays
      · exact absurd hshow (hunshown u hu.2.1)
  · apply hagrees.unread _ u hu
    by_cases hreadable : spec.Readable
    · exact .inr fun start hstart => hbegins ⟨hreadable, start, hstart⟩
    · exact .inl hreadable

end CronSpec

end OpenAgency
