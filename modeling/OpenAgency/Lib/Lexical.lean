/-
Lib/Lexical.lean

Paths without a file system: a text split at a separator into segments, and a list of
segments normalised by letting one of them stand for the parent.

A relative path keeps the parents it cannot take back at its front (`normalizeRelative_shape`);
such a path behind another one first takes back so many segments
(`normalizeRelative_append`).

A segment is found again after the text has been trimmed at both ends, or rewritten
character by character, as long as the characters removed or rewritten are none of its
own.
-/
import Mathlib.Data.List.DropRight

namespace Lexical

open List

variable {α : Type*}

/-! ### Segments -/

/-- The segment stands in the text between separators or ends. -/
def IsSegment (sep : α) (text seg : List α) : Prop :=
  ∃ front back, text = front ++ seg ++ back ∧
    (front = [] ∨ ∃ front', front = front' ++ [sep]) ∧ (back = [] ∨ ∃ back', back = sep :: back')

section Split

variable [DecidableEq α] {sep : α} {text seg : List α}

theorem isSegment_of_mem_splitOn (h : seg ∈ text.splitOn sep) : IsSegment sep text seg := by
  obtain ⟨before, after, hsplit⟩ := append_of_mem h
  have hjoin : [sep].intercalate (before ++ seg :: after) = text := by
    rw [← hsplit, intercalate_splitOn]
  refine ⟨before.flatMap (· ++ [sep]), after.flatMap (sep :: ·), ?_, ?_, ?_⟩
  · rw [← hjoin]
    clear hsplit hjoin h
    have hback : ∀ (s : List α) (rest : List (List α)),
        [sep].intercalate (s :: rest) = s ++ rest.flatMap (sep :: ·) := by
      intro s rest
      induction rest generalizing s with
      | nil => simp [List.intercalate]
      | cons t rest ih =>
        rw [intercalate_cons_cons, ih t, flatMap_cons]
        simp
    induction before with
    | nil => exact hback seg after
    | cons s before ih =>
      rw [cons_append]
      rcases hrest : before ++ seg :: after with - | ⟨t, rest⟩
      · simp at hrest
      · rw [intercalate_cons_cons, ← hrest, ih, flatMap_cons]
        simp
  · rcases eq_nil_or_concat before with rfl | ⟨before', s, rfl⟩
    · exact .inl rfl
    · right
      refine ⟨before'.flatMap (· ++ [sep]) ++ s, ?_⟩
      simp
  · rcases after with - | ⟨s, after⟩
    · exact .inl rfl
    · exact .inr ⟨s ++ after.flatMap (sep :: ·), by simp⟩

theorem mem_splitOn_of_isSegment (h : IsSegment sep text seg) (hseg : sep ∉ seg) :
    seg ∈ text.splitOn sep := by
  obtain ⟨front, back, rfl, hfront, hback⟩ := h
  have hrest : seg ∈ (seg ++ back).splitOn sep := by
    rcases hback with rfl | ⟨back, rfl⟩
    · rw [append_nil, splitOn_eq_singleton hseg]
      exact mem_singleton_self seg
    · rw [splitOn_append_cons_self_of_not_mem hseg]
      exact mem_cons_self
  rcases hfront with rfl | ⟨front, rfl⟩
  · exact hrest
  · have hcut : front ++ [sep] ++ seg ++ back = front ++ sep :: (seg ++ back) := by simp
    rw [hcut, splitOn_append_cons_self]
    exact mem_append_right _ hrest

theorem notMem_of_mem_splitOn (h : seg ∈ text.splitOn sep) : sep ∉ seg := by
  induction text generalizing seg with
  | nil =>
    rw [splitOn_nil, mem_singleton] at h
    rw [h]
    exact not_mem_nil
  | cons c text ih =>
    rw [splitOn_cons_eq_if_modifyHead] at h
    by_cases hc : c = sep
    · rw [if_pos (beq_iff_eq.mpr hc)] at h
      rcases List.mem_cons.mp h with rfl | h
      · exact not_mem_nil
      · exact ih h
    · rw [if_neg (fun hbeq => hc (beq_iff_eq.mp hbeq))] at h
      rcases hsplit : text.splitOn sep with - | ⟨first, rest⟩
      · exact absurd hsplit (splitOn_ne_nil sep text)
      · rw [hsplit, modifyHead_cons] at h
        rw [hsplit] at ih
        rcases List.mem_cons.mp h with rfl | h
        · intro hmem
          rcases List.mem_cons.mp hmem with heq | hmem
          · exact hc heq.symm
          · exact ih mem_cons_self hmem
        · exact ih (mem_cons_of_mem _ h)

end Split

/-! ### Trimming and rewriting -/

namespace IsSegment

variable {sep : α} {text seg : List α}

/-- What is removed in front holds no first character of the segment. -/
theorem trimLeft {removed : List α} (h : IsSegment sep (removed ++ text) seg) (hne : seg ≠ [])
    (hremoved : ∀ c ∈ removed, c ∉ seg) : IsSegment sep text seg := by
  obtain ⟨front, back, htext, hfront, hback⟩ := h
  rw [append_assoc] at htext
  rcases List.append_eq_append_iff.mp htext with ⟨kept, hkept, htext⟩ | ⟨inside, hremove, hseg⟩
  · refine ⟨kept, back, by rw [htext, append_assoc], ?_, hback⟩
    rcases hfront with rfl | ⟨front', rfl⟩
    · obtain ⟨-, rfl⟩ := List.append_eq_nil_iff.mp hkept.symm
      exact .inl rfl
    · rcases eq_nil_or_concat kept with rfl | ⟨kept', c, rfl⟩
      · exact .inl rfl
      · right
        refine ⟨kept', ?_⟩
        rw [concat_eq_append, ← append_assoc] at hkept
        rw [concat_eq_append, (append_inj' hkept rfl).2]
  · rcases inside with - | ⟨c, inside⟩
    · exact ⟨[], back, by simpa using hseg.symm, .inl rfl, hback⟩
    · -- otherwise the segment starts inside what is removed
      obtain ⟨d, seg', rfl⟩ := exists_cons_of_ne_nil hne
      have hd : d = c := by simpa using congrArg List.head? hseg
      have hmem : c ∈ removed := by
        rw [hremove]
        simp
      exact absurd (hd ▸ mem_cons_self) (hremoved c hmem)

theorem reverse (h : IsSegment sep text seg) : IsSegment sep text.reverse seg.reverse := by
  obtain ⟨front, back, rfl, hfront, hback⟩ := h
  refine ⟨back.reverse, front.reverse, by simp, ?_, ?_⟩
  · rcases hback with rfl | ⟨back', rfl⟩
    · exact .inl rfl
    · exact .inr ⟨back'.reverse, by simp⟩
  · rcases hfront with rfl | ⟨front', rfl⟩
    · exact .inl rfl
    · exact .inr ⟨front'.reverse, by simp⟩

theorem trimRight {removed : List α} (h : IsSegment sep (text ++ removed) seg) (hne : seg ≠ [])
    (hremoved : ∀ c ∈ removed, c ∉ seg) : IsSegment sep text seg := by
  have hreverse := h.reverse
  rw [reverse_append] at hreverse
  have hkept : IsSegment sep text.reverse seg.reverse := by
    apply hreverse.trimLeft (by simpa using hne)
    simpa using hremoved
  simpa using hkept.reverse

/-- The text without what is dropped at both ends. -/
theorem dropWhile {drop : α → Bool} (h : IsSegment sep text seg) (hne : seg ≠ [])
    (hdrop : ∀ c ∈ seg, drop c = false) : IsSegment sep (text.dropWhile drop) seg := by
  rw [← takeWhile_append_dropWhile (p := drop) (l := text)] at h
  apply h.trimLeft hne
  intro c hc hmem
  have hpos := mem_takeWhile_imp hc
  rw [hdrop c hmem] at hpos
  cases hpos

theorem dropBoth {drop : α → Bool} (h : IsSegment sep text seg) (hne : seg ≠ [])
    (hdrop : ∀ c ∈ seg, drop c = false) :
    IsSegment sep ((text.dropWhile drop).reverse.dropWhile drop).reverse seg := by
  have hright := (h.dropWhile hne hdrop).reverse.dropWhile (by simpa using hne)
    (by simpa using hdrop)
  simpa using hright.reverse

theorem map {f : α → α} (h : IsSegment sep text seg) (hsep : f sep = sep)
    (hseg : ∀ c ∈ seg, f c = c) : IsSegment sep (text.map f) seg := by
  obtain ⟨front, back, rfl, hfront, hback⟩ := h
  have hsame : seg.map f = seg := by simpa using map_congr_left hseg
  refine ⟨front.map f, back.map f, by simp [hsame], ?_, ?_⟩
  · rcases hfront with rfl | ⟨front', rfl⟩
    · exact .inl rfl
    · exact .inr ⟨front'.map f, by simp [hsep]⟩
  · rcases hback with rfl | ⟨back', rfl⟩
    · exact .inl rfl
    · exact .inr ⟨back'.map f, by simp [hsep]⟩

end IsSegment

/-! ### Lexical normalisation -/

section Normalize

variable [DecidableEq α] {up : α}

/-- Go to the parent, or to a child. -/
def enter (up : α) (path : List α) (part : α) : List α :=
  if part = up then path.dropLast else path ++ [part]

/-- A path without the part that stands for the parent; the root is its own parent. -/
def normalize (up : α) (parts : List α) : List α := parts.foldl (enter up) []

variable (up) in
/-- Further parts leave a prefix of the path standing and add some of their own. -/
theorem foldl_enter (path parts : List α) :
    ∃ k own, parts.foldl (enter up) path = path.take k ++ own ∧ own ⊆ parts ∧ up ∉ own := by
  induction parts using List.reverseRecOn with
  | nil => exact ⟨path.length, [], by simp, nil_subset _, not_mem_nil⟩
  | append_singleton parts part ih =>
    obtain ⟨k, own, hfold, hown, hup⟩ := ih
    rw [foldl_append, hfold, foldl_cons, foldl_nil, enter]
    have hgrows : own ⊆ parts ++ [part] := List.Subset.trans hown (subset_append_left _ _)
    by_cases hpart : part = up
    · rw [if_pos hpart]
      rcases eq_nil_or_concat own with rfl | ⟨own', c, rfl⟩
      · refine ⟨min k path.length - 1, [], ?_, nil_subset _, not_mem_nil⟩
        rw [append_nil, append_nil, dropLast_eq_take, take_take,
          length_take]
        congr 1
        omega
      · refine ⟨k, own', ?_, ?_, ?_⟩
        · rw [concat_eq_append, ← append_assoc, dropLast_concat]
        · intro c' hc'
          exact hgrows (by simp [hc'])
        · intro hmem
          exact hup (by simp [hmem])
    · rw [if_neg hpart]
      refine ⟨k, own ++ [part], by simp, ?_, by simp [hup, Ne.symm hpart]⟩
      exact List.append_subset.mpr ⟨hgrows, subset_append_right _ _⟩

theorem normalize_subset (parts : List α) : normalize up parts ⊆ parts := by
  obtain ⟨k, own, hfold, hown, -⟩ := foldl_enter up [] parts
  rw [normalize, hfold, take_nil, nil_append]
  exact hown

theorem not_mem_normalize (parts : List α) : up ∉ normalize up parts := by
  obtain ⟨k, own, hfold, -, hup⟩ := foldl_enter up [] parts
  rw [normalize, hfold, take_nil, nil_append]
  exact hup

theorem normalize_eq_self {parts : List α} (h : up ∉ parts) : normalize up parts = parts := by
  induction parts using List.reverseRecOn with
  | nil => rfl
  | append_singleton parts part ih =>
    obtain ⟨hparts, hpart⟩ : up ∉ parts ∧ up ≠ part := by simpa using h
    have hfold : parts.foldl (enter up) [] = parts := ih hparts
    rw [normalize, foldl_append, hfold, foldl_cons, foldl_nil, enter,
      if_neg (Ne.symm hpart)]

theorem normalize_append (parts rest : List α) :
    normalize up (parts ++ rest) = rest.foldl (enter up) (normalize up parts) := by
  rw [normalize, foldl_append, normalize]

/-- A part of a path may be normalised first. -/
theorem normalize_normalize_append (parts rest : List α) :
    normalize up (normalize up parts ++ rest) = normalize up (parts ++ rest) := by
  rw [normalize_append, normalize_eq_self (not_mem_normalize parts), normalize_append]

/-- A path consists of parts of the folder it starts from and of the parts added. -/
theorem mem_normalize_append {folder parts : List α} {part : α}
    (h : part ∈ normalize up (folder ++ parts)) : part ∈ normalize up folder ∨ part ∈ parts := by
  obtain ⟨k, own, hfold, hown, -⟩ := foldl_enter up (normalize up folder) parts
  rw [normalize_append, hfold] at h
  exact (List.mem_append.mp h).imp mem_of_mem_take (hown ·)

end Normalize

/-! ### Relative paths -/

section Relative

variable [DecidableEq α] {up : α}

/-- Go to the parent, or to a child, from a place that is not known. -/
def enterRelative (up : α) (path : List α) (part : α) : List α :=
  if part = up ∧ (path = [] ∨ path.getLast? = some up) then path ++ [part] else enter up path part

/-- A relative path, its parents in front. -/
def normalizeRelative (up : α) (parts : List α) : List α := parts.foldl (enterRelative up) []

theorem enterRelative_of_ne {path : List α} {part : α} (h : part ≠ up) :
    enterRelative up path part = path ++ [part] := by
  rw [enterRelative, if_neg (fun hup => h hup.1), enter, if_neg h]

/-- The parent of a path that ends below its parents. -/
theorem enterRelative_concat {path : List α} {part : α} (h : part ≠ up) :
    enterRelative up (path ++ [part]) up = path := by
  have hnot : ¬ (up = up ∧ (path ++ [part] = [] ∨ (path ++ [part]).getLast? = some up)) := by
    simp [h]
  rw [enterRelative, if_neg hnot, enter, if_pos rfl, dropLast_concat]

theorem enterRelative_replicate (n : ℕ) :
    enterRelative up (List.replicate n up) up = List.replicate (n + 1) up := by
  have hends : List.replicate n up = [] ∨ (List.replicate n up).getLast? = some up := by
    rcases n with - | n
    · exact .inl rfl
    · exact .inr (by simp [List.getLast?_replicate])
  rw [enterRelative, if_pos ⟨rfl, hends⟩, replicate_succ']

variable (up) in
/-- **Behind a path** with `m` parents in front, the parts that alone lead `n` up and then
down take back so many of its segments. -/
theorem foldl_enterRelative (m : ℕ) {front : List α} (hfront : up ∉ front) (parts : List α) :
    ∃ n below, up ∉ below ∧ normalizeRelative up parts = List.replicate n up ++ below ∧
      parts.foldl (enterRelative up) (List.replicate m up ++ front) =
        List.replicate (m + (n - front.length)) up ++ (front.take (front.length - n) ++ below) := by
  induction parts using List.reverseRecOn with
  | nil => exact ⟨0, [], not_mem_nil, rfl, by simp⟩
  | append_singleton parts part ih =>
    obtain ⟨n, below, hbelow, hnormal, hfold⟩ := ih
    rw [normalizeRelative, foldl_append, foldl_append, hfold, ← normalizeRelative,
      hnormal]
    simp only [foldl_cons, foldl_nil]
    by_cases hpart : part = up
    · subst hpart
      rcases eq_nil_or_concat below with rfl | ⟨below', c, rfl⟩
      · rw [append_nil, append_nil, enterRelative_replicate]
        refine ⟨n + 1, [], not_mem_nil, (append_nil _).symm, ?_⟩
        rcases Nat.lt_or_ge n front.length with hlt | hge
        · have hlength : front.length - n = front.length - (n + 1) + 1 := by omega
          have htake : front.take (front.length - n) = front.take (front.length - (n + 1)) ++
              [front[front.length - (n + 1)]] := by
            rw [hlength, take_succ_eq_append_getElem]
          have hne : front[front.length - (n + 1)] ≠ part :=
            fun h => hfront (h ▸ getElem_mem _)
          rw [htake, ← append_assoc, enterRelative_concat hne, append_nil]
          congr 2
          omega
        · have htake : front.length - n = 0 := by omega
          have htake' : front.length - (n + 1) = 0 := by omega
          have hups : m + (n + 1 - front.length) = m + (n - front.length) + 1 := by omega
          rw [htake, htake', take_zero, append_nil, enterRelative_replicate,
            append_nil, append_nil, hups]
      · have hc : c ≠ part := fun h => hbelow (by simp [h])
        refine ⟨n, below', fun hmem => hbelow (by simp [hmem]), ?_, ?_⟩
        · rw [concat_eq_append, ← append_assoc, enterRelative_concat hc]
        · rw [concat_eq_append, ← append_assoc, ← append_assoc,
            enterRelative_concat hc, append_assoc]
    · rw [enterRelative_of_ne hpart, enterRelative_of_ne hpart]
      refine ⟨n, below ++ [part], by simp [hbelow, Ne.symm hpart], ?_, ?_⟩
      · rw [append_assoc]
      · simp

/-- A relative path leads up and then down. -/
theorem normalizeRelative_shape (parts : List α) :
    ∃ n below, up ∉ below ∧ normalizeRelative up parts = List.replicate n up ++ below := by
  obtain ⟨n, below, hbelow, hnormal, -⟩ := foldl_enterRelative up 0 not_mem_nil parts
  exact ⟨n, below, hbelow, hnormal⟩

/-- How far up a path leads and what it adds are read off its normal form. -/
theorem replicate_append_inj {n k : ℕ} {below below' : List α} (hbelow : up ∉ below)
    (hbelow' : up ∉ below') (h : List.replicate n up ++ below = List.replicate k up ++ below') :
    n = k ∧ below = below' := by
  have hcount := congrArg (List.count up) h
  rw [count_append, count_append, count_replicate_self, count_replicate_self,
    List.count_eq_zero.mpr hbelow, List.count_eq_zero.mpr hbelow'] at hcount
  have hnk : n = k := hcount
  subst hnk
  exact ⟨rfl, append_cancel_left h⟩

/-- A relative path behind another. -/
theorem normalizeRelative_append {parts rest front below : List α} {m n : ℕ} (hfront : up ∉ front)
    (hbelow : up ∉ below) (hparts : normalizeRelative up parts = List.replicate m up ++ front)
    (hrest : normalizeRelative up rest = List.replicate n up ++ below) :
    normalizeRelative up (parts ++ rest) =
      List.replicate (m + (n - front.length)) up ++ (front.take (front.length - n) ++ below) := by
  obtain ⟨k, below', hbelow', hnormal, hfold⟩ := foldl_enterRelative up m hfront rest
  obtain ⟨rfl, rfl⟩ := replicate_append_inj hbelow hbelow' (hrest.symm.trans hnormal)
  rw [normalizeRelative, foldl_append, ← normalizeRelative, hparts, hfold]

theorem normalizeRelative_eq_self {parts : List α} (h : up ∉ parts) :
    normalizeRelative up parts = parts := by
  induction parts using List.reverseRecOn with
  | nil => rfl
  | append_singleton parts part ih =>
    obtain ⟨hparts, hpart⟩ : up ∉ parts ∧ up ≠ part := by simpa using h
    rw [normalizeRelative, foldl_append, ← normalizeRelative, ih hparts, foldl_cons,
      foldl_nil, enterRelative_of_ne (Ne.symm hpart)]

/-- A relative path below a root. -/
theorem normalize_append_relative {root parts below : List α} {n : ℕ} (hroot : up ∉ root)
    (hbelow : up ∉ below) (hparts : normalizeRelative up parts = List.replicate n up ++ below) :
    normalize up (root ++ parts) = root.take (root.length - n) ++ below := by
  rw [normalize_append, normalize_eq_self hroot]
  clear hroot
  induction parts using List.reverseRecOn generalizing n below with
  | nil =>
    obtain ⟨rfl, rfl⟩ := replicate_append_inj (n := 0) not_mem_nil hbelow hparts
    simp
  | append_singleton parts part ih =>
    obtain ⟨k, below', hbelow', hnormal⟩ : ∃ k below', up ∉ below' ∧
        normalizeRelative up parts = List.replicate k up ++ below' := normalizeRelative_shape parts
    have hlast : enterRelative up (List.replicate k up ++ below') part =
        List.replicate n up ++ below := by
      rw [← hparts, ← hnormal, normalizeRelative, normalizeRelative, foldl_append]
      rfl
    rw [foldl_append, ih hbelow' hnormal, foldl_cons, foldl_nil, enter]
    by_cases hpart : part = up
    · subst hpart
      rw [if_pos rfl]
      rcases eq_nil_or_concat below' with rfl | ⟨below', c, rfl⟩
      · rw [append_nil, enterRelative_replicate, ← append_nil (List.replicate _ _)] at hlast
        obtain ⟨rfl, rfl⟩ := replicate_append_inj not_mem_nil hbelow hlast
        rw [append_nil, append_nil, dropLast_eq_take, take_take,
          length_take]
        congr 1
        omega
      · have hc : c ≠ part := fun h => hbelow' (by simp [h])
        rw [concat_eq_append, ← append_assoc, enterRelative_concat hc] at hlast
        obtain ⟨rfl, rfl⟩ := replicate_append_inj (fun hmem => hbelow' (by simp [hmem])) hbelow
          hlast
        rw [concat_eq_append, ← append_assoc, dropLast_concat]
    · rw [enterRelative_of_ne hpart, append_assoc] at hlast
      obtain ⟨rfl, rfl⟩ := replicate_append_inj (by simp [hbelow', Ne.symm hpart]) hbelow hlast
      rw [if_neg hpart, append_assoc]

theorem normalizeRelative_subset (parts : List α) : normalizeRelative up parts ⊆ parts := by
  induction parts using List.reverseRecOn with
  | nil => exact List.Subset.refl _
  | append_singleton parts part ih =>
    have hgrows : normalizeRelative up parts ++ [part] ⊆ parts ++ [part] :=
      List.append_subset.mpr ⟨List.Subset.trans ih (subset_append_left _ _),
        subset_append_right _ _⟩
    rw [normalizeRelative, foldl_append, ← normalizeRelative, foldl_cons,
      foldl_nil, enterRelative, enter]
    split_ifs
    · exact hgrows
    · exact List.Subset.trans (dropLast_subset _) (List.Subset.trans ih (subset_append_left _ _))
    · exact hgrows

end Relative

end Lexical
