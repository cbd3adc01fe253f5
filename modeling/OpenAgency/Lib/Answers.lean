/-
Lib/Answers.lean

What a program does for the answers it may get.  Both notions here take a set `ok`
of answers the world is prepared to give.  `Ensures ok allowed Q` is the universal
one: through answers in `ok` a program only performs operations that `allowed` admits
and only stops with values in `Q`.  It is what proves an invariant of a handler: if
allowed operations keep the invariant and get answers in `ok` under it, then every run
keeps it (`Within.invariant`).  `Reaches ok bad` and `MayReturn ok P` are the
existential ones: some answers in `ok` take the program to an operation in `bad`, or
to the end with a value in `P`.  A program that reaches what is not allowed is not
within what is allowed (`not_within_of_reaches`).
-/
import OpenAgency.Lib.Wp

namespace Interaction

namespace Program

variable {S : Signature} {ε α β : Type}
variable (ok : (o : S.Op) → S.Ret o → Prop)

/-- Whatever the answers in `ok` are, only `allowed` operations are performed, and a
value returned is in `Q`. -/
def Ensures (allowed : S.Op → Prop) (Q : α → Prop) : Program S ε α → Prop
  | done a => Q a
  | raise _ => True
  | call o k => allowed o ∧ ∀ r, ok o r → (k r).Ensures allowed Q

/-- Some answers in `ok` lead to an operation in `bad`. -/
def Reaches (bad : S.Op → Prop) : Program S ε α → Prop
  | done _ => False
  | raise _ => False
  | call o k => bad o ∨ ∃ r, ok o r ∧ (k r).Reaches bad

/-- Some answers in `ok` lead to the end, with a value in `P`. -/
def MayReturn (P : α → Prop) : Program S ε α → Prop
  | done a => P a
  | raise _ => False
  | call o k => ∃ r, ok o r ∧ (k r).MayReturn P

variable {ok} {allowed bad : S.Op → Prop}

/-! ### Every answer -/

variable {p : Program S ε α}

theorem Ensures.within {Q : α → Prop} (h : p.Ensures ok allowed Q) : p.Within ok allowed := by
  induction p with
  | done a => trivial
  | raise e => trivial
  | call o k ih => exact ⟨h.1, fun r hr => ih r (h.2 r hr)⟩

theorem Within.ensures (h : p.Within ok allowed) : p.Ensures ok allowed fun _ => True := by
  induction p with
  | done a => trivial
  | raise e => trivial
  | call o k ih => exact ⟨h.1, fun r hr => ih r (h.2 r hr)⟩

variable {f : α → Program S ε β}

variable {P : α → Prop} {Q : β → Prop}

theorem Ensures.bind (hp : p.Ensures ok allowed P) (hf : ∀ a, P a → (f a).Ensures ok allowed Q) :
    (p >>= f).Ensures ok allowed Q := by
  induction p with
  | done a => exact hf a hp
  | raise e => trivial
  | call o k ih => exact ⟨hp.1, fun r hr => ih r (hp.2 r hr)⟩

/-- The value of a program that is only known to stay within bounds is arbitrary. -/
theorem Within.bind_ensures (hp : p.Within ok allowed) (hf : ∀ a, (f a).Ensures ok allowed Q) :
    (p >>= f).Ensures ok allowed Q := hp.ensures.bind fun a _ => hf a

theorem Ensures.bind_within (hp : p.Ensures ok allowed P)
    (hf : ∀ a, P a → (f a).Within ok allowed) :
    (p >>= f).Within ok allowed := by
  induction p with
  | done a => exact hf a hp
  | raise e => trivial
  | call o k ih => exact ⟨hp.1, fun r hr => ih r (hp.2 r hr)⟩

variable {as : List α}

/-- What each element of a list is turned into is in `P`. -/
theorem ensures_mapM {P : β → Prop} (h : ∀ a ∈ as, (f a).Ensures ok allowed P) :
    (as.mapM f).Ensures ok allowed fun bs => ∀ b ∈ bs, P b := by
  have hloop : ∀ (as : List α) (bs : List β), (∀ a ∈ as, (f a).Ensures ok allowed P) →
      (∀ b ∈ bs, P b) → (List.mapM.loop f as bs).Ensures ok allowed fun bs => ∀ b ∈ bs, P b := by
    intro as
    induction as with
    | nil =>
      intro bs _ hbs
      show ∀ b ∈ bs.reverse, P b
      exact fun b hb => hbs b (List.mem_reverse.mp hb)
    | cons a as ih =>
      intro bs has hbs
      show (f a >>= fun b => List.mapM.loop f as (b :: bs)).Ensures ok allowed _
      refine (has a List.mem_cons_self).bind fun b hb => ?_
      refine ih _ (fun a' ha' => has a' (List.mem_cons_of_mem a ha')) fun b' hb' => ?_
      rcases List.mem_cons.mp hb' with rfl | hb'
      · exact hb
      · exact hbs b' hb'
  exact hloop as [] h fun b hb => absurd hb List.not_mem_nil

theorem Within.mono {ok' : (o : S.Op) → S.Ret o → Prop} {allowed' : S.Op → Prop}
    (h : p.Within ok allowed) (hok : ∀ o r, ok' o r → ok o r)
    (hallowed : ∀ o, allowed o → allowed' o) : p.Within ok' allowed' := by
  induction p with
  | done a => trivial
  | raise e => trivial
  | call o k ih => exact ⟨hallowed o h.1, fun r hr => ih r (h.2 r (hok o r hr))⟩

theorem within_foldlM {f : β → α → Program S ε β} (h : ∀ b, ∀ a ∈ as, (f b a).Within ok allowed)
    (b : β) :
    (as.foldlM f b).Within ok allowed := by
  induction as generalizing b with
  | nil => trivial
  | cons a as ih =>
    rw [List.foldlM_cons]
    exact (h b a List.mem_cons_self).bind fun b' =>
      ih (fun b a ha => h b a (List.mem_cons_of_mem _ ha)) b'

theorem Within.collect {f : α → Program S ε (List β)} (h : ∀ a ∈ as, (f a).Within ok allowed) :
    (Program.collect f as).Within ok allowed := by
  induction as with
  | nil => trivial
  | cons a as ih =>
    apply Within.bind (h a List.mem_cons_self)
    intro bs
    apply Within.bind (ih fun b hb => h b (List.mem_cons_of_mem a hb))
    exact fun _ => trivial

/-- Cutting a program off adds no operation. -/
theorem Within.limit (h : p.Within ok allowed) (n : Option ℕ) : (p.limit n).Within ok allowed := by
  induction p generalizing n with
  | done a => cases n <;> trivial
  | raise e => cases n <;> trivial
  | call o k ih =>
    rcases n with - | (- | n)
    · exact ⟨h.1, fun r hr => ih r (h.2 r hr) none⟩
    · trivial
    · exact ⟨h.1, fun r hr => ih r (h.2 r hr) (some n)⟩

/-- Operations may be replaced by programs that are as well behaved. -/
theorem Within.interp {T : Signature} {okT : (o : T.Op) → T.Ret o → Prop} {allowedT : T.Op → Prop}
    {h : (o : S.Op) → Program T ε (S.Ret o)} (hp : p.Within ok allowed)
    (hh : ∀ o, allowed o → (h o).Ensures okT allowedT fun r => ok o r) :
    (p.interp h).Within okT allowedT := by
  induction p with
  | done a => trivial
  | raise e => trivial
  | call o k ih =>
    rw [interp_call]
    refine Ensures.within (Q := fun _ => True) ((hh o hp.1).bind fun r hr => ?_)
    exact (ih r (hp.2 r hr)).ensures

/-- **Invariant rule.**  Allowed operations keep the invariant, and answers under it
are the answers the program was shown to cope with. -/
theorem Within.invariant {σ : Type} {H : Handler S σ} {I : σ → Prop}
    (hsound : ∀ o s, I s → allowed o → ok o (H o s).1 ∧ I (H o s).2) (h : p.Within ok allowed)
    {s : σ} (hs : I s) : p.wp H (fun _ => I) (fun _ => I) s := by
  rw [wp_state]
  induction p generalizing s with
  | done a => exact hs
  | raise e => exact hs
  | call o k ih =>
    obtain ⟨hr, hs'⟩ := hsound o s hs h.1
    exact ih _ (h.2 _ hr) hs'

theorem Within.attempt (h : p.Within ok allowed) : p.attempt.Within ok allowed := by
  induction p with
  | done a => trivial
  | raise e => trivial
  | call o k ih => exact ⟨h.1, fun r hr => ih r (h.2 r hr)⟩

theorem Within.rescue {h : ε → Program S ε α} (hp : p.Within ok allowed)
    (hh : ∀ e, (h e).Within ok allowed) : (p.rescue h).Within ok allowed := by
  refine hp.attempt.bind fun r => ?_
  rcases r with e | a
  · exact hh e
  · trivial

/-! ### Some answer -/

theorem not_within_of_reaches (hbad : ∀ o, bad o → ¬ allowed o) (h : p.Reaches ok bad) :
    ¬ p.Within ok allowed := by
  induction p with
  | done a => cases h
  | raise e => cases h
  | call o k ih =>
    rintro ⟨hallowed, hk⟩
    rcases h with hb | ⟨r, hr, h⟩
    · exact hbad o hb hallowed
    · exact ih r h (hk r hr)

theorem Reaches.bind_left (h : p.Reaches ok bad) : (p >>= f).Reaches ok bad := by
  induction p with
  | done a => cases h
  | raise e => cases h
  | call o k ih => exact h.imp id fun ⟨r, hr, h⟩ => ⟨r, hr, ih r h⟩

theorem MayReturn.reaches_bind (h : p.MayReturn ok P) (hf : ∀ a, P a → (f a).Reaches ok bad) :
    (p >>= f).Reaches ok bad := by
  induction p with
  | done a => exact hf a h
  | raise e => cases h
  | call o k ih =>
    obtain ⟨r, hr, h⟩ := h
    exact .inr ⟨r, hr, ih r h⟩

theorem MayReturn.bind (h : p.MayReturn ok P) (hf : ∀ a, P a → (f a).MayReturn ok Q) :
    (p >>= f).MayReturn ok Q := by
  induction p with
  | done a => exact hf a h
  | raise e => cases h
  | call o k ih =>
    obtain ⟨r, hr, h⟩ := h
    exact ⟨r, hr, ih r h⟩

theorem Reaches.attempt (h : p.Reaches ok bad) : p.attempt.Reaches ok bad := by
  induction p with
  | done a => cases h
  | raise e => cases h
  | call o k ih => exact h.imp id fun ⟨r, hr, h⟩ => ⟨r, hr, ih r h⟩

theorem Reaches.rescue {h : ε → Program S ε α} (hp : p.Reaches ok bad) :
    (p.rescue h).Reaches ok bad := hp.attempt.bind_left

end Program

end Interaction
