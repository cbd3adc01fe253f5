/-
StorageNamespaces.lean

Whether the names in the storage are kept apart.  Two names of one user are, unless they agree
without the white space at their end.  Two users are, unless one is called `.` or `..`, which
percent-encoding leaves alone, or both have a name that is a dot segment and white space.

The files of a run are stored below its directory exactly where their names, resolved on
their own, do not lead out of it for good: nothing normalises a file's name before it is put
behind the directory.
-/
import OpenAgency.StorageKeys

namespace OpenAgency

open Lexical FilePolicy List

namespace Storage

/-! ### What is promised -/

/-- The path is the directory or lies below it. -/
def Within (directory path : List Char) : Prop := pathSteps directory <+: pathSteps path

/-- The path lies below the directory. -/
def Inside (directory path : List Char) : Prop :=
  Within directory path ∧ pathSteps directory ≠ pathSteps path

/-- The directory of a user, resolved. -/
def userDirectory (root : StorageRoot) (userId : String) : List Char :=
  normpath (joinPaths root.path (userPrefix userId))

/-- The directory of a run, resolved; a backslash separates, as in every key. -/
def runDirectory (root : StorageRoot) (directory : List Char) : List Char :=
  normpath (joinPaths root.path (forwardSlashes directory))

/-- The local path of a user's name. -/
def scopedPath (root : StorageRoot) (userId key : String) : Except String (List Char) :=
  (userScopedStorageKey userId key).bind (getLocalFilePath root)

/-- Two names of two users have different paths, unless they are the same name of the same
user, and neither lies in the directory of another user. -/
def Separate (root : StorageRoot) (u v : String) (name name' path path' : List Char) : Prop :=
  (path = path' → strip u = strip v ∧ name = name') ∧
    (strip u ≠ strip v → ¬ Within (userDirectory root v) path ∧ ¬ Within (userDirectory root u) path')

/-- The user is not called like a dot segment. -/
def OwnName (userId : String) : Prop := strip userId ≠ "." ∧ strip userId ≠ ".."

/-- A name without the white space at its end, normalised once more. -/
def trimmedName (name : List Char) : List Char := normpath (name.rdropWhile isStripSpace)

/-- Where two names of two users are kept apart. -/
def KeptApart (u v : String) (name name' : List Char) : Prop :=
  if strip u = strip v then name = name' ∨ trimmedName name ≠ trimmedName name'
  else OwnName u ∧ OwnName v ∧ ¬ (trimmedName name = dotdot ∧ trimmedName name' = dotdot)

/-- The segments of a relative path, its parents in front. -/
def relativeSteps (path : List Char) : List (List Char) :=
  normalizeRelative dotdot (pathSteps (forwardSlashes path))

/-- The name leads up `n` segments and from there back into the directory: where `n` is 0, to
a path below it. -/
def StaysInside (directory name : List Char) : Prop :=
  ∃ n below, dotdot ∉ below ∧
    relativeSteps (name.rdropWhile isStripSpace) = List.replicate n dotdot ++ below ∧
    (relativeSteps directory).drop ((relativeSteps directory).length - n) <+: below ∧
    (relativeSteps directory).drop ((relativeSteps directory).length - n) ≠ below

/-- The names under which the files of a call are stored. -/
def uploadNames (env : LocalFiles) (files : List UploadFile) (fileNames : List String) :
    List (List Char) :=
  files.zipIdx.filterMap fun file => (uploadName env fileNames file.2 file.1).toOption

/-! ### Owners -/

section Owners

theorem hexDigit_inj : ∀ n m : Fin 16, hexDigit n = hexDigit m → n = m := by decide

theorem toNat_ofNat_byte {n : ℕ} (h : n < 256) : (Char.ofNat n).toNat = n := by
  have hvalid : n.isValidChar := .inl (by omega)
  rw [Char.ofNat, dif_pos hvalid]
  rfl

/-- A byte is read off what is quoted for it. -/
theorem quoteByte_append_inj {b c : UInt8} {rest rest' : List Char}
    (h : quoteByte b ++ rest = quoteByte c ++ rest') : b = c ∧ rest = rest' := by
  have hb : b.toNat < 256 := b.toNat_lt
  have hc : c.toNat < 256 := c.toNat_lt
  have hpercent : ∀ d : UInt8, isAlwaysSafe (Char.ofNat d.toNat) = true → '%' ≠ Char.ofNat d.toNat := by
    intro d hsafe heq
    rw [← heq] at hsafe
    exact absurd hsafe (by decide)
  unfold quoteByte at h
  split_ifs at h with hsafe hsafe' hsafe'
  · obtain ⟨hchar, hrest⟩ := List.cons_eq_cons.mp h
    have heq := congrArg Char.toNat hchar
    rw [toNat_ofNat_byte hb, toNat_ofNat_byte hc] at heq
    exact ⟨UInt8.toNat_inj.mp heq, hrest⟩
  · exact absurd (List.cons_eq_cons.mp h).1.symm (hpercent b hsafe)
  · exact absurd (List.cons_eq_cons.mp h).1 (hpercent c hsafe')
  · simp only [cons_append, nil_append, List.cons.injEq, true_and] at h
    obtain ⟨hhigh, hlow, hrest⟩ := h
    have hhigh' := hexDigit_inj ⟨b.toNat / 16, by omega⟩ ⟨c.toNat / 16, by omega⟩ hhigh
    have hlow' := hexDigit_inj ⟨b.toNat % 16, by omega⟩ ⟨c.toNat % 16, by omega⟩ hlow
    simp only [Fin.mk.injEq] at hhigh' hlow'
    exact ⟨UInt8.toNat_inj.mp (by omega), hrest⟩

theorem quoteByte_ne_nil (b : UInt8) : quoteByte b ≠ [] := by
  unfold quoteByte
  split_ifs <;> exact cons_ne_nil _ _

/-- Different identities are quoted differently. -/
theorem quote_injective {text text' : String} (h : quote text = quote text') : text = text' := by
  have hbytes : ∀ bs cs : List UInt8, bs.flatMap quoteByte = cs.flatMap quoteByte → bs = cs := by
    intro bs
    induction bs with
    | nil =>
      intro cs h
      rcases cs with - | ⟨c, cs⟩
      · rfl
      · rw [flatMap_nil, flatMap_cons] at h
        exact absurd (List.append_eq_nil_iff.mp h.symm).1 (quoteByte_ne_nil c)
    | cons b bs ih =>
      intro cs h
      rcases cs with - | ⟨c, cs⟩
      · rw [flatMap_nil, flatMap_cons] at h
        exact absurd (List.append_eq_nil_iff.mp h).1 (quoteByte_ne_nil b)
      · rw [flatMap_cons, flatMap_cons] at h
        obtain ⟨rfl, hrest⟩ := quoteByte_append_inj h
        rw [ih cs hrest]
  have hlist := hbytes _ _ h
  exact String.toByteArray_inj.mp (ByteArray.ext (Array.toList_inj.mp hlist))

theorem hexDigit_isAlwaysSafe : ∀ n : Fin 16, isAlwaysSafe (hexDigit n) = true := by decide

theorem mem_quoteByte {b : UInt8} {c : Char} (h : c ∈ quoteByte b) :
    isAlwaysSafe c = true ∨ c = '%' := by
  have hb : b.toNat < 256 := b.toNat_lt
  unfold quoteByte at h
  split_ifs at h with hsafe
  · rw [List.mem_singleton.mp h]
    exact .inl hsafe
  · simp only [mem_cons, not_mem_nil, or_false] at h
    rcases h with rfl | rfl | rfl
    · exact .inr rfl
    · exact .inl (hexDigit_isAlwaysSafe ⟨b.toNat / 16, by omega⟩)
    · exact .inl (hexDigit_isAlwaysSafe ⟨b.toNat % 16, by omega⟩)

theorem mem_quote {text : String} {c : Char} (h : c ∈ quote text) : c ≠ '/' ∧ c ≠ '\\' := by
  obtain ⟨b, -, hc⟩ := List.mem_flatMap.mp h
  rcases mem_quoteByte hc with hsafe | rfl
  · exact ⟨by rintro rfl; exact absurd hsafe (by decide),
      by rintro rfl; exact absurd hsafe (by decide)⟩
  · decide

end Owners

/-! ### A user's path -/

section Scoped

variable {root : StorageRoot} {u v key key' : String} {name name' path path' : List Char}

/-- The segments of a user's directory below the root. -/
def userSteps (userId : String) : List (List Char) :=
  normalizeRelative dotdot (pathSteps (userPrefix userId))

/-- The segments of a trimmed name. -/
def trimmedSteps (name : List Char) : List (List Char) :=
  normalizeRelative dotdot (pathSteps (name.rdropWhile isStripSpace))

/-- The segments of a user's path below the root. -/
def scopedSteps (userId : String) (name : List Char) : List (List Char) :=
  if trimmedSteps name = [dotdot] then (userSteps userId).dropLast
  else userSteps userId ++ trimmedSteps name

theorem userPrefix_cons (userId : String) :
    userPrefix userId = 'u' :: ("sers/".toList ++ quote (strip userId)) := rfl

theorem normalizeRelative_userPrefix (userId : String) :
    normalizeRelative dotdot (pathSteps (userPrefix userId)) =
      List.replicate 0 dotdot ++ userSteps userId := by
  rw [replicate_zero, nil_append, userSteps]

theorem quote_dot : quote "." = ['.'] := by decide +kernel

theorem quote_dotdot : quote ".." = dotdot := by decide +kernel

theorem quote_empty : quote "" = [] := by decide +kernel

/-- A user that is no dot segment has a directory of their own; `.` has the directory of all
users and `..` the root. -/
theorem userSteps_cases (hne : strip u ≠ "") :
    (OwnName u ∧ userSteps u = ["users".toList, quote (strip u)]) ∨
      (strip u = "." ∧ userSteps u = ["users".toList]) ∨ (strip u = ".." ∧ userSteps u = []) := by
  have hslash : '/' ∉ quote (strip u) := fun hmem => (mem_quote hmem).1 rfl
  have hsplit : pathSteps (userPrefix u) =
      "users".toList :: if quote (strip u) ≠ [] ∧ quote (strip u) ≠ ['.'] then
        [quote (strip u)] else [] := by
    have hcut : userPrefix u = "users".toList ++ '/' :: quote (strip u) := rfl
    rw [hcut, pathSteps_append_cons, pathSteps_of_notMem hslash]
    rfl
  have hquote : quote (strip u) ≠ [] := fun h => hne (quote_injective (h.trans quote_empty.symm))
  unfold userSteps
  by_cases hdot : strip u = "."
  · refine .inr (.inl ⟨hdot, ?_⟩)
    rw [hsplit, hdot, quote_dot]
    decide
  · have hnotDot : quote (strip u) ≠ ['.'] := fun h => hdot (quote_injective (h.trans quote_dot.symm))
    rw [hsplit, if_pos ⟨hquote, hnotDot⟩]
    by_cases hdotdot : strip u = ".."
    · refine .inr (.inr ⟨hdotdot, ?_⟩)
      rw [hdotdot, quote_dotdot]
      decide
    · have hnotUp : quote (strip u) ≠ dotdot :=
        fun h => hdotdot (quote_injective (h.trans quote_dotdot.symm))
      refine .inl ⟨⟨hdot, hdotdot⟩, normalizeRelative_eq_self ?_⟩
      intro hmem
      rcases List.mem_cons.mp hmem with h | h
      · exact absurd h (by decide)
      · exact hnotUp (List.mem_singleton.mp h).symm

theorem notMem_userSteps (hne : strip u ≠ "") : dotdot ∉ userSteps u := by
  rcases userSteps_cases hne with ⟨hown, hsteps⟩ | ⟨-, hsteps⟩ | ⟨-, hsteps⟩
  · rw [hsteps]
    intro hmem
    rcases List.mem_cons.mp hmem with h | h
    · exact absurd h (by decide)
    · exact hown.2 (quote_injective ((List.mem_singleton.mp h).symm.trans quote_dotdot.symm))
  · rw [hsteps]
    decide
  · rw [hsteps]
    exact not_mem_nil

theorem intercalate_append_singleton {steps : List (List Char)} {step : List Char}
    (h : steps ≠ []) :
    ['/'].intercalate (steps ++ [step]) = ['/'].intercalate steps ++ '/' :: step := by
  induction steps with
  | nil => exact absurd rfl h
  | cons first steps ih =>
    rcases steps with - | ⟨second, rest⟩
    · rw [singleton_append, intercalate_cons_cons, intercalate_singleton,
        intercalate_singleton, append_assoc, singleton_append]
    · rw [cons_append, cons_append, intercalate_cons_cons, ← cons_append,
        ih (cons_ne_nil _ _), intercalate_cons_cons, ← append_assoc]

/-- Trimming touches the last segment only. -/
theorem pathSteps_trim (h : Clean name) : ∃ front last, dotdot ∉ front ∧
    pathSteps (name.rdropWhile isStripSpace) = front ++ last ∧ (last = [] ∨ ∃ step, last = [step]) := by
  have hare : ∀ step ∈ pathSteps name, IsStep step := fun _ hmem => isStep_of_mem_pathSteps hmem
  have hnoParent := h.noParent
  have hjoin := h.join
  revert hare hnoParent hjoin
  rcases eq_nil_or_concat (pathSteps name) with hnil | ⟨front, step, hsteps⟩
  · exact absurd hnil h.ne_nil
  rw [hsteps, concat_eq_append]
  intro hare hnoParent hjoin
  have hstep := hare step (mem_append_right _ (mem_singleton_self _))
  have hslash : '/' ∉ step.rdropWhile isStripSpace :=
    fun hmem => hstep.slash ((List.rdropWhile_prefix _ _).subset hmem)
  have hlast : pathSteps (step.rdropWhile isStripSpace) = [] ∨
      ∃ last, pathSteps (step.rdropWhile isStripSpace) = [last] := by
    rw [pathSteps_of_notMem hslash]
    split_ifs
    · exact .inr ⟨_, rfl⟩
    · exact .inl rfl
  refine ⟨front, pathSteps (step.rdropWhile isStripSpace),
    fun hmem => hnoParent (mem_append_left _ hmem), ?_, hlast⟩
  rcases eq_nil_or_concat front with rfl | ⟨first, second, rfl⟩
  · rw [nil_append, intercalate_singleton] at hjoin
    rw [← hjoin, nil_append]
  · have hne : first.concat second ≠ [] := by simp
    rw [← hjoin, intercalate_append_singleton hne, rdropWhile_append_slash, pathSteps_append_cons,
      pathSteps_intercalate]
    exact fun step hmem => hare step (mem_append_left _ hmem)

/-- A trimmed name stays below the user's directory, or is the parent. -/
theorem trimmedSteps_cases (h : Clean name) :
    dotdot ∉ trimmedSteps name ∨ trimmedSteps name = [dotdot] := by
  obtain ⟨front, last, hfront, hsteps, hlast⟩ := pathSteps_trim h
  have hself : normalizeRelative dotdot front = List.replicate 0 dotdot ++ front :=
    normalizeRelative_eq_self hfront
  unfold trimmedSteps
  rw [hsteps]
  rcases hlast with rfl | ⟨step, rfl⟩
  · rw [append_nil, normalizeRelative_eq_self hfront]
    exact .inl hfront
  · by_cases hstep : step = dotdot
    · subst hstep
      rw [normalizeRelative_append hfront not_mem_nil hself (n := 1) (by decide)]
      rcases front with - | ⟨first, rest⟩
      · exact .inr rfl
      · left
        have hzero : 0 + (1 - (first :: rest).length) = 0 := by simp
        rw [hzero, replicate_zero, nil_append, append_nil]
        exact fun hmem => hfront (mem_of_mem_take hmem)
    · have hall : dotdot ∉ front ++ [step] := by
        intro hmem
        rcases List.mem_append.mp hmem with hmem | hmem
        · exact hfront hmem
        · exact hstep (List.mem_singleton.mp hmem).symm
      rw [normalizeRelative_eq_self hall]
      exact .inl hall

/-- The second pass over a user's key. -/
theorem forwardSlashes_scoped (u : String) (h : Clean name) :
    forwardSlashes (strip (String.ofList (userPrefix u ++ '/' :: name))).toList =
      userPrefix u ++ '/' :: name.rdropWhile isStripSpace := by
  have hback : '\\' ∉ userPrefix u ++ '/' :: name.rdropWhile isStripSpace := by
    intro hmem
    rcases List.mem_append.mp hmem with hmem | hmem
    · rcases List.mem_append.mp hmem with hmem | hmem
      · exact absurd hmem (by decide)
      · exact (mem_quote hmem).2 rfl
    · rcases List.mem_cons.mp hmem with heq | hmem
      · exact absurd heq (by decide)
      · exact h.backslash ((List.rdropWhile_prefix _ _).subset hmem)
  have hu : isStripSpace 'u' = false := rfl
  have hstrip : (strip (String.ofList (userPrefix u ++ '/' :: name))).toList =
      userPrefix u ++ '/' :: name.rdropWhile isStripSpace := by
    rw [userPrefix_cons]
    exact toList_strip_slash hu _ name
  rw [hstrip, forwardSlashes_of_notMem hback]

/-- A user's directory and a trimmed name, where the parent of the root is refused. -/
theorem normalizeRelative_scoped (hne : strip u ≠ "") (h : Clean name)
    (hnoParent : dotdot ∉ normalizeRelative dotdot
      (pathSteps (userPrefix u) ++ pathSteps (name.rdropWhile isStripSpace))) :
    (trimmedSteps name = [dotdot] → userSteps u ≠ []) ∧
      normalizeRelative dotdot
          (pathSteps (userPrefix u) ++ pathSteps (name.rdropWhile isStripSpace)) =
        scopedSteps u name := by
  have huser := normalizeRelative_userPrefix u
  have hown := notMem_userSteps hne
  unfold scopedSteps
  rcases trimmedSteps_cases h with hbelow | hup
  · have hneUp : trimmedSteps name ≠ [dotdot] := by
      intro heq
      rw [heq] at hbelow
      exact hbelow (mem_singleton_self _)
    have hname : normalizeRelative dotdot (pathSteps (name.rdropWhile isStripSpace)) =
        List.replicate 0 dotdot ++ trimmedSteps name := by
      rw [replicate_zero, nil_append, trimmedSteps]
    rw [normalizeRelative_append hown hbelow huser hname, if_neg hneUp, Nat.zero_sub, Nat.sub_zero,
      take_length, replicate_zero, nil_append]
    exact ⟨fun heq => absurd heq hneUp, rfl⟩
  · have hname : normalizeRelative dotdot (pathSteps (name.rdropWhile isStripSpace)) =
        List.replicate 1 dotdot ++ [] := by
      rw [← trimmedSteps, hup]
      rfl
    rw [normalizeRelative_append hown not_mem_nil huser hname] at hnoParent ⊢
    rw [if_pos hup, dropLast_eq_take, append_nil]
    rw [append_nil] at hnoParent
    rcases hbase : userSteps u with - | ⟨first, rest⟩
    · rw [hbase] at hnoParent
      exact absurd (mem_singleton_self dotdot) hnoParent
    · have hzero : 0 + (1 - (first :: rest).length) = 0 := by simp
      rw [hzero, replicate_zero, nil_append]
      exact ⟨fun _ => cons_ne_nil _ _, rfl⟩

/-- **A user's path** lies where the user's directory and the trimmed name say, and depends on
nothing else. -/
theorem scopedPath_spec (hname : normalizeLocalStorageKey key = .ok name)
    (h : scopedPath root u key = .ok path) :
    strip u ≠ "" ∧ Clean name ∧ (trimmedSteps name = [dotdot] → userSteps u ≠ []) ∧
      pathSteps path = root.steps ++ scopedSteps u name ∧
      path = normpath (joinPaths root.path (['/'].intercalate (scopedSteps u name))) := by
  obtain ⟨full, hfull, hpath⟩ := bind_eq_ok.mp h
  unfold userScopedStorageKey at hfull
  split_ifs at hfull with hne
  rw [hname] at hfull
  obtain rfl := Except.ok.inj hfull
  obtain ⟨clean, hclean, htarget, htargetSteps⟩ := getLocalFilePath_ok hpath
  obtain ⟨hcleanSpec, hcleanSteps⟩ := clean_of_ok hclean
  obtain ⟨hnameSpec, -⟩ := clean_of_ok hname
  have hnoParent := hcleanSpec.noParent
  rw [forwardSlashes_scoped u hnameSpec, pathSteps_append_cons] at hcleanSteps
  rw [hcleanSteps] at hnoParent
  obtain ⟨hroot, hsteps⟩ := normalizeRelative_scoped hne hnameSpec hnoParent
  rw [hsteps] at hcleanSteps
  refine ⟨hne, hnameSpec, hroot, ?_, ?_⟩
  · rw [htargetSteps, hcleanSteps]
  · rw [htarget, ← hcleanSteps, hcleanSpec.join]

theorem pathSteps_userDirectory (root : StorageRoot) (hne : strip u ≠ "") :
    pathSteps (userDirectory root u) = root.steps ++ userSteps u := by
  have hhead : (userPrefix u).head? ≠ some '/' := by
    rw [userPrefix_cons, List.head?_cons]
    decide
  have hsteps := root.pathSteps_resolve hhead (notMem_userSteps hne)
    (normalizeRelative_userPrefix u)
  rw [Nat.sub_zero, take_length] at hsteps
  exact hsteps

theorem within_userDirectory_iff (hne : strip v ≠ "") {steps : List (List Char)}
    (hpath : pathSteps path = root.steps ++ steps) :
    Within (userDirectory root v) path ↔ userSteps v <+: steps := by
  rw [Within, pathSteps_userDirectory root hne, hpath, prefix_append_right_inj]

theorem head?_trim (h : Clean name) : (name.rdropWhile isStripSpace).head? ≠ some '/' := by
  intro hhead
  obtain ⟨rest, hrest⟩ := List.rdropWhile_prefix isStripSpace name
  apply h.relative
  rw [← hrest, List.head?_append, hhead]
  rfl

theorem trimmedName_steps (h : Clean name) : pathSteps (trimmedName name) = trimmedSteps name :=
  pathSteps_normpath (head?_trim h)

theorem trimmedName_eq (h : Clean name) :
    trimmedName name =
      if ['/'].intercalate (trimmedSteps name) = [] then ['.']
      else ['/'].intercalate (trimmedSteps name) := by
  have hzero := initialSlashes_eq_zero_iff.mpr (head?_trim h)
  unfold trimmedName normpath
  simp only [hzero, if_true, replicate_zero, nil_append]
  rfl

theorem trimmedName_inj (h : Clean name) (h' : Clean name') :
    trimmedName name = trimmedName name' ↔ trimmedSteps name = trimmedSteps name' := by
  constructor
  · intro heq
    rw [← trimmedName_steps h, ← trimmedName_steps h', heq]
  · intro heq
    rw [trimmedName_eq h, trimmedName_eq h', heq]

theorem trimmedName_eq_dotdot (h : Clean name) :
    trimmedName name = dotdot ↔ trimmedSteps name = [dotdot] := by
  constructor
  · intro heq
    rw [← trimmedName_steps h, heq]
    rfl
  · intro heq
    rw [trimmedName_eq h, heq]
    rfl

/-! ### Two users -/

/-- A user's path tells the trimmed name. -/
theorem scopedSteps_inj (hroot : trimmedSteps name = [dotdot] → userSteps u ≠ [])
    (hroot' : trimmedSteps name' = [dotdot] → userSteps u ≠ [])
    (h : scopedSteps u name = scopedSteps u name') : trimmedSteps name = trimmedSteps name' := by
  unfold scopedSteps at h
  split_ifs at h with hup hup' hup'
  · rw [hup, hup']
  · have hlength := congrArg List.length h
    have hpos := List.length_pos_iff.mpr (hroot hup)
    rw [length_dropLast, length_append] at hlength
    omega
  · have hlength := congrArg List.length h
    have hpos := List.length_pos_iff.mpr (hroot' hup')
    rw [length_dropLast, length_append] at hlength
    omega
  · exact append_cancel_left h

/-- The path of a user with a name of their own. -/
theorem scopedSteps_of_own (hsteps : userSteps u = ["users".toList, quote (strip u)]) :
    (trimmedSteps name = [dotdot] ∧ scopedSteps u name = ["users".toList]) ∨
      (trimmedSteps name ≠ [dotdot] ∧
        scopedSteps u name = "users".toList :: quote (strip u) :: trimmedSteps name) := by
  unfold scopedSteps
  rw [hsteps]
  split_ifs with hup
  · exact .inl ⟨hup, rfl⟩
  · exact .inr ⟨hup, rfl⟩

theorem userSteps_of_own (hne : strip u ≠ "") (hown : OwnName u) :
    userSteps u = ["users".toList, quote (strip u)] := by
  rcases userSteps_cases hne with ⟨-, hsteps⟩ | ⟨hdot, -⟩ | ⟨hdotdot, -⟩
  · exact hsteps
  · exact absurd hdot hown.1
  · exact absurd hdotdot hown.2

theorem not_prefix_of_own (hsteps : userSteps u = ["users".toList, quote (strip u)])
    (hsteps' : userSteps v = ["users".toList, quote (strip v)]) (hother : strip u ≠ strip v) :
    ¬ userSteps v <+: scopedSteps u name := by
  rw [hsteps']
  rcases scopedSteps_of_own hsteps with ⟨-, heq⟩ | ⟨-, heq⟩
  · rw [heq]
    intro hbegins
    exact absurd hbegins.length_le (by simp)
  · rw [heq, prefix_cons_inj, cons_prefix_cons]
    rintro ⟨howner, -⟩
    exact hother (quote_injective howner.symm)

/-- Two users with names of their own have different paths, where not both names are the
parent. -/
theorem scopedSteps_ne (hsteps : userSteps u = ["users".toList, quote (strip u)])
    (hsteps' : userSteps v = ["users".toList, quote (strip v)]) (hother : strip u ≠ strip v)
    (hup : ¬ (trimmedSteps name = [dotdot] ∧ trimmedSteps name' = [dotdot])) :
    scopedSteps u name ≠ scopedSteps v name' := by
  intro heq
  rcases scopedSteps_of_own hsteps' with ⟨hup', heq'⟩ | ⟨-, heq'⟩
  · rcases scopedSteps_of_own hsteps with ⟨hup'', -⟩ | ⟨-, hbelow⟩
    · exact hup ⟨hup'', hup'⟩
    · rw [hbelow, heq'] at heq
      exact absurd (List.cons.inj heq).2 (cons_ne_nil _ _)
  · apply not_prefix_of_own hsteps hsteps' hother
    rw [heq, heq', hsteps']
    exact prefix_append ["users".toList, quote (strip v)] _

/-- The directory of a user called like a dot segment holds the paths of all the others, or
lies in the directory of another one. -/
theorem prefix_of_not_own (hne : strip u ≠ "") (hne' : strip v ≠ "") (hother : strip u ≠ strip v)
    (hown : ¬ OwnName u) :
    userSteps u <+: scopedSteps v name' ∨ userSteps v <+: scopedSteps u name := by
  rcases userSteps_cases hne with ⟨hu, -⟩ | ⟨hu, hsteps⟩ | ⟨-, hsteps⟩
  · exact absurd hu hown
  · rcases userSteps_cases hne' with ⟨-, hsteps'⟩ | ⟨hv, -⟩ | ⟨-, hsteps'⟩
    · left
      rw [hsteps]
      rcases scopedSteps_of_own hsteps' with ⟨-, heq⟩ | ⟨-, heq⟩
      · rw [heq]
      · rw [heq]
        exact prefix_append ["users".toList] _
    · exact absurd (hu.trans hv.symm) hother
    · rw [hsteps']
      exact .inr nil_prefix
  · rw [hsteps]
    exact .inl nil_prefix

/-- **Two names** are kept apart exactly where the users have names of their own and the names
differ without the white space at their end. -/
theorem separate_iff (hname : normalizeLocalStorageKey key = .ok name)
    (hname' : normalizeLocalStorageKey key' = .ok name')
    (h : scopedPath root u key = .ok path) (h' : scopedPath root v key' = .ok path') :
    Separate root u v name name' path path' ↔ KeptApart u v name name' := by
  obtain ⟨hne, hclean, hroot, hsteps, hpath⟩ := scopedPath_spec hname h
  obtain ⟨hne', hclean', hroot', hsteps', hpath'⟩ := scopedPath_spec hname' h'
  have hpathEq : path = path' ↔ scopedSteps u name = scopedSteps v name' := by
    constructor
    · intro heq
      rw [heq, hsteps'] at hsteps
      exact (append_cancel_left hsteps).symm
    · intro heq
      rw [hpath, hpath', heq]
  unfold Separate KeptApart
  rw [within_userDirectory_iff hne' hsteps, within_userDirectory_iff hne hsteps', hpathEq]
  by_cases hsame : strip u = strip v
  · have hdirectory : userSteps v = userSteps u := by
      unfold userSteps userPrefix
      rw [hsame]
    have hscoped : scopedSteps v name' = scopedSteps u name' := by
      unfold scopedSteps
      rw [hdirectory]
    rw [hdirectory] at hroot'
    rw [if_pos hsame, hscoped, ne_eq (trimmedName name), trimmedName_inj hclean hclean']
    constructor
    · intro hseparate
      by_cases htrimmed : trimmedSteps name = trimmedSteps name'
      · have hequal : scopedSteps u name = scopedSteps u name' := by
          unfold scopedSteps
          rw [htrimmed]
        exact .inl (hseparate.1 hequal).2
      · exact .inr htrimmed
    · intro hapart
      refine ⟨fun heq => ⟨hsame, ?_⟩, fun hother => absurd hsame hother⟩
      rcases hapart with hequal | hdiffer
      · exact hequal
      · exact absurd (scopedSteps_inj hroot hroot' heq) hdiffer
  · rw [if_neg hsame, trimmedName_eq_dotdot hclean, trimmedName_eq_dotdot hclean']
    constructor
    · rintro ⟨hdistinct, hwithin⟩
      obtain ⟨hnotIn, hnotIn'⟩ := hwithin hsame
      have hown : OwnName u := by
        by_contra hown
        rcases prefix_of_not_own hne hne' hsame hown with hbegins | hbegins
        · exact hnotIn' hbegins
        · exact hnotIn hbegins
      have hown' : OwnName v := by
        by_contra hown'
        rcases prefix_of_not_own hne' hne (Ne.symm hsame) hown' with hbegins | hbegins
        · exact hnotIn hbegins
        · exact hnotIn' hbegins
      refine ⟨hown, hown', ?_⟩
      rintro ⟨hup, hup'⟩
      apply hsame
      refine (hdistinct ?_).1
      unfold scopedSteps
      rw [if_pos hup, if_pos hup', userSteps_of_own hne hown, userSteps_of_own hne' hown']
      rfl
    · rintro ⟨hown, hown', hup⟩
      have hsteps := userSteps_of_own hne hown
      have hsteps' := userSteps_of_own hne' hown'
      refine ⟨fun heq => absurd heq (scopedSteps_ne hsteps hsteps' hsame hup), fun _ => ?_⟩
      exact ⟨not_prefix_of_own hsteps hsteps' hsame, not_prefix_of_own hsteps' hsteps (Ne.symm hsame)⟩

end Scoped

/-! ### The files of a run -/

section Uploads

variable {root : StorageRoot} {env : LocalFiles} {directory name target : List Char}

theorem relativeSteps_append_cons (a b : List Char) :
    relativeSteps (a ++ '/' :: b) =
      normalizeRelative dotdot (pathSteps (forwardSlashes a) ++ pathSteps (forwardSlashes b)) := by
  rw [relativeSteps, forwardSlashes_append_cons, pathSteps_append_cons]

theorem prefix_take_append_iff (path below : List (List Char)) (k : ℕ) :
    path <+: path.take k ++ below ↔ path.drop k <+: below := by
  have hcut : path.take k ++ path.drop k <+: path.take k ++ below ↔ path.drop k <+: below :=
    prefix_append_right_inj _
  rw [take_append_drop] at hcut
  exact hcut

theorem eq_take_append_iff (path below : List (List Char)) (k : ℕ) :
    path = path.take k ++ below ↔ path.drop k = below := by
  have hcut : path.take k ++ path.drop k = path.take k ++ below ↔ path.drop k = below :=
    append_right_inj _
  rw [take_append_drop] at hcut
  exact hcut

/-- A relative name is put behind the directory and a slash. -/
theorem joinPaths_cut (front : List Char) (hdirectory : directory = 'u' :: front)
    (hname : name.head? ≠ some '/') : ∃ front', joinPaths directory name = 'u' :: front' ++ '/' :: name ∧
      pathSteps (forwardSlashes ('u' :: front')) = pathSteps (forwardSlashes directory) := by
  unfold joinPaths
  rw [if_neg hname]
  split_ifs with hends
  · rcases hends with hnil | hslash
    · rw [hdirectory] at hnil
      cases hnil
    · obtain ⟨before, hbefore⟩ : ∃ before, directory = before ++ ['/'] :=
        List.getLast?_eq_some_iff.mp hslash
      rcases before with - | ⟨c, before⟩
      · rw [hbefore] at hdirectory
        exact absurd (List.cons.inj hdirectory).1 (by decide)
      · have hc : c = 'u' := by
          rw [hbefore] at hdirectory
          exact (List.cons.inj hdirectory).1
        subst hc
        refine ⟨before, by rw [hbefore, append_assoc, singleton_append], ?_⟩
        rw [hbefore, forwardSlashes_append_cons, pathSteps_append_cons]
        exact (append_nil _).symm
  · exact ⟨front, by rw [hdirectory], by rw [hdirectory]⟩

/-- **A file that is stored** lies below the directory of its run exactly where its name
stays inside. -/
theorem inside_runDirectory_iff (front : List Char) (hdirectory : directory = 'u' :: front)
    (h : getLocalFilePath root (joinPaths directory name) = .ok target) :
    Inside (runDirectory root directory) target ↔ StaysInside directory name := by
  obtain ⟨clean, hclean, -, htarget⟩ := getLocalFilePath_ok h
  obtain ⟨hcleanSpec, hcleanSteps⟩ := clean_of_ok hclean
  have hname : name.head? ≠ some '/' := by
    intro hhead
    have hrelative := relative_of_ok hclean
    rw [joinPaths, if_pos hhead] at hrelative
    exact hrelative hhead
  obtain ⟨front', hjoin, hsame⟩ := joinPaths_cut front hdirectory hname
  have hu : isStripSpace 'u' = false := rfl
  rw [hjoin, toList_strip_slash hu, ← relativeSteps, relativeSteps_append_cons, hsame] at hcleanSteps
  obtain ⟨m, inner, hinner, hdir⟩ : ∃ m inner, dotdot ∉ inner ∧
      relativeSteps directory = List.replicate m dotdot ++ inner := normalizeRelative_shape _
  obtain ⟨n, below, hbelow, hrest⟩ : ∃ n below, dotdot ∉ below ∧
      relativeSteps (name.rdropWhile isStripSpace) = List.replicate n dotdot ++ below :=
    normalizeRelative_shape _
  rw [normalizeRelative_append hinner hbelow hdir hrest] at hcleanSteps
  -- a key that is accepted has no parents in front
  have hzero : m + (n - inner.length) = 0 := by
    by_contra hpos
    apply hcleanSpec.noParent
    rw [hcleanSteps]
    exact mem_append_left _ (List.mem_replicate.mpr ⟨hpos, rfl⟩)
  obtain rfl : m = 0 := by omega
  rw [replicate_zero, nil_append] at hdir
  rw [hzero, replicate_zero, nil_append] at hcleanSteps
  have hhead : (forwardSlashes directory).head? ≠ some '/' := by
    rw [hdirectory, forwardSlashes, map_cons, List.head?_cons]
    decide
  have hrun : pathSteps (runDirectory root directory) = root.steps ++ inner := by
    have hnone : normalizeRelative dotdot (pathSteps (forwardSlashes directory)) =
        List.replicate 0 dotdot ++ inner := hdir
    have hresolve := root.pathSteps_resolve hhead hinner hnone
    rw [Nat.sub_zero, take_length] at hresolve
    exact hresolve
  have hinside : Inside (runDirectory root directory) target ↔
      inner.drop (inner.length - n) <+: below ∧ inner.drop (inner.length - n) ≠ below := by
    unfold Inside Within
    rw [hrun, htarget, hcleanSteps, prefix_append_right_inj, ne_eq, append_right_inj,
      prefix_take_append_iff, eq_take_append_iff]
  rw [hinside]
  constructor
  · rintro ⟨hbegins, hne⟩
    refine ⟨n, below, hbelow, hrest, ?_, ?_⟩
    · rw [hdir]
      exact hbegins
    · rw [hdir]
      exact hne
  · rintro ⟨k, below', hbelow', hrest', hbegins, hne⟩
    obtain ⟨rfl, rfl⟩ := replicate_append_inj hbelow hbelow' (hrest.symm.trans hrest')
    rw [hdir] at hbegins hne
    exact ⟨hbegins, hne⟩

/-- What a call has written is what the files of the call have written. -/
theorem mem_written_foldl (files : List (UploadFile × ℕ)) (fileNames : List String)
    (result : UploadResult) (path : List Char) :
    path ∈ (files.foldl (uploadFile env root directory fileNames) result).written ↔
      path ∈ result.written ∨ ∃ file ∈ files, ∃ name,
        uploadName env fileNames file.2 file.1 = .ok name ∧
          getLocalFilePath root (joinPaths directory name) = .ok path := by
  induction files generalizing result with
  | nil =>
    refine ⟨.inl, fun h => ?_⟩
    rcases h with h | ⟨file, hfile, -⟩
    · exact h
    · exact absurd hfile not_mem_nil
  | cons file files ih =>
    have hturn : path ∈ (uploadFile env root directory fileNames result file).written ↔
        path ∈ result.written ∨ ∃ name, uploadName env fileNames file.2 file.1 = .ok name ∧
          getLocalFilePath root (joinPaths directory name) = .ok path := by
      unfold uploadFile
      rcases hupload : uploadName env fileNames file.2 file.1 with message | name
      · simp
      · rcases hlocal : getLocalFilePath root (joinPaths directory name) with message | target
        · simp [hlocal]
        · rcases hcopy : env.copyError file.1 target with - | message
          · simp [hlocal, hcopy, eq_comm]
          · simp [hlocal, hcopy, eq_comm]
    rw [foldl_cons, ih, hturn, or_assoc, exists_mem_cons_iff]

theorem mem_written (workflowId processId userId : String) (files : List UploadFile)
    (fileNames : List String) (path : List Char) :
    path ∈ (uploadToS3 env root workflowId processId userId files fileNames).written ↔
      ∃ name ∈ uploadNames env files fileNames, getLocalFilePath root
        (joinPaths (workflowRunDirectory userId workflowId processId) name) = .ok path := by
  rw [uploadToS3, mem_written_foldl]
  constructor
  · rintro (h | ⟨file, hfile, name, hname, hpath⟩)
    · exact absurd h not_mem_nil
    · refine ⟨name, List.mem_filterMap.mpr ⟨file, hfile, ?_⟩, hpath⟩
      rw [hname]
      rfl
  · rintro ⟨name, hname, hpath⟩
    obtain ⟨file, hfile, hname⟩ := List.mem_filterMap.mp hname
    refine .inr ⟨file, hfile, name, ?_, hpath⟩
    rcases hupload : uploadName env fileNames file.2 file.1 with message | name'
    · rw [hupload] at hname
      cases hname
    · rw [hupload] at hname
      rw [Option.some.inj hname]

/-- **The files of a call** all lie below the directory of the run exactly where all the names
that are accepted stay inside. -/
theorem written_inside_iff (workflowId processId userId : String) (files : List UploadFile)
    (fileNames : List String) :
    (∀ path ∈ (uploadToS3 env root workflowId processId userId files fileNames).written,
        Inside (runDirectory root (workflowRunDirectory userId workflowId processId)) path) ↔
      ∀ name ∈ uploadNames env files fileNames,
        (∃ path, getLocalFilePath root
          (joinPaths (workflowRunDirectory userId workflowId processId) name) = .ok path) →
        StaysInside (workflowRunDirectory userId workflowId processId) name := by
  have hcons : ∃ front, workflowRunDirectory userId workflowId processId = 'u' :: front := ⟨_, rfl⟩
  obtain ⟨front, hdirectory⟩ := hcons
  constructor
  · rintro h name hname ⟨path, hpath⟩
    have hwritten := (mem_written workflowId processId userId files fileNames path).mpr
      ⟨name, hname, hpath⟩
    exact (inside_runDirectory_iff front hdirectory hpath).mp (h path hwritten)
  · intro h path hwritten
    obtain ⟨name, hname, hpath⟩ := (mem_written _ _ _ _ _ path).mp hwritten
    exact (inside_runDirectory_iff front hdirectory hpath).mpr (h name hname ⟨path, hpath⟩)

end Uploads

/-! ### The namespaces -/

/-- **The namespaces of the storage.**  Two names of users are kept apart exactly where both
users have names of their own and the names differ once trimmed, and the files of a run lie
below its directory exactly where the names of the files that are accepted stay inside. -/
theorem storage_namespaces_iff (root : StorageRoot) :
    (∀ (u v key key' : String) (name name' path path' : List Char),
      normalizeLocalStorageKey key = .ok name → normalizeLocalStorageKey key' = .ok name' →
      scopedPath root u key = .ok path → scopedPath root v key' = .ok path' →
      (Separate root u v name name' path path' ↔ KeptApart u v name name')) ∧
    ∀ (env : LocalFiles) (workflowId processId userId : String) (files : List UploadFile)
      (fileNames : List String),
      (∀ path ∈ (uploadToS3 env root workflowId processId userId files fileNames).written,
          Inside (runDirectory root (workflowRunDirectory userId workflowId processId)) path) ↔
        ∀ name ∈ uploadNames env files fileNames,
          (∃ path, getLocalFilePath root
            (joinPaths (workflowRunDirectory userId workflowId processId) name) = .ok path) →
          StaysInside (workflowRunDirectory userId workflowId processId) name :=
  ⟨fun _ _ _ _ _ _ _ _ hname hname' h h' => separate_iff hname hname' h h',
    fun _ workflowId processId userId files fileNames =>
      written_inside_iff workflowId processId userId files fileNames⟩

/-- The storage of a container. -/
def dataRoot : StorageRoot where
  steps := ["data".toList]
  areSteps := by
    intro step hstep
    rw [List.mem_singleton.mp hstep]
    exact ⟨by decide, by decide, by decide⟩
  noParent := by decide

def reportPath : List Char := "/data/users/alice/report.txt".toList

def twinPath : List Char := "/data/users/bob/report.txt".toList

/-- Alice and Bob keep their reports apart. -/
theorem separate_reports :
    Separate dataRoot "alice" "bob" "report.txt".toList "report.txt".toList reportPath twinPath := by
  have hname : normalizeLocalStorageKey "report.txt" = .ok "report.txt".toList := by decide +kernel
  have halice : scopedPath dataRoot "alice" "report.txt" = .ok reportPath := by decide +kernel
  have hbob : scopedPath dataRoot "bob" "report.txt" = .ok twinPath := by decide +kernel
  refine ((storage_namespaces_iff dataRoot).1 _ _ _ _ _ _ _ _ hname hname halice hbob).mpr ?_
  have hother : strip "alice" ≠ strip "bob" := by decide +kernel
  have htrim : trimmedName "report.txt".toList ≠ dotdot := by decide +kernel
  rw [KeptApart, if_neg hother]
  have halice' : OwnName "alice" := ⟨by decide +kernel, by decide +kernel⟩
  have hbob' : OwnName "bob" := ⟨by decide +kernel, by decide +kernel⟩
  exact ⟨halice', hbob', fun h => htrim h.1⟩

/-- The user `..` reaches Alice's report, and so does a file of a run. -/
theorem storage_crossed :
    scopedPath dataRoot ".." "users/alice/report.txt" = .ok reportPath ∧
      scopedPath dataRoot "alice" "report.txt" = .ok reportPath ∧ strip ".." ≠ strip "alice" ∧
      (uploadToS3 ⟨fun _ => true, fun _ _ => none⟩ dataRoot "documents" "1" "bob" [.bytes]
        ["../../../users/alice/report.txt"]).written = [reportPath] ∧
      ¬ Inside (runDirectory dataRoot (workflowRunDirectory "bob" "documents" "1")) reportPath := by
  refine ⟨by decide +kernel, by decide +kernel, by decide +kernel, by decide +kernel, ?_⟩
  unfold Inside Within
  decide +kernel

end Storage

end OpenAgency
