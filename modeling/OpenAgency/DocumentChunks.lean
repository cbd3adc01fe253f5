/-
DocumentChunks.lean

The chunks of a document.  `chunk_text` cuts a text into overlapping pieces: the next piece
starts so many characters before the end of the last one, and the end is drawn back to a
separator, which may stand close to the start.  Where the overlap reaches over the start, the
loop goes back.

`Advances` says that it never does.  It is exactly the condition under which the chunks are
what they should be (`chunkText_law_iff`): a turn that goes back either repeats for ever or
leaves chunks that are out of order.  An overlap of at most 200 always advances.
-/
import OpenAgency.Domain.Basic
import OpenAgency.Lib.Fuel

namespace OpenAgency

open Fuel List

structure DocumentChunk where
  index : ℕ
  text : String
  startChar : ℕ
  endChar : ℕ

/-! ### The text -/

/-- `text.replace("\\r\\n", "\\n")`. -/
def replaceCrlf : List Char → List Char
  | '\r' :: '\n' :: cs => '\n' :: replaceCrlf cs
  | c :: cs => c :: replaceCrlf cs
  | [] => []

/-- `re.sub(r"\\n{3,}", "\\n\\n", text)`, where so many newlines stand before the text. -/
def collapseNewlines : ℕ → List Char → List Char
  | _, [] => []
  | run, c :: cs =>
    if c = '\n' then
      if run < 2 then c :: collapseNewlines (run + 1) cs else collapseNewlines run cs
    else c :: collapseNewlines 0 cs

/-- The text that `chunk_text` cuts. -/
def documentText (text : String) : List Char :=
  (strip (String.ofList (collapseNewlines 0 (replaceCrlf text.toList)))).toList

/-- `text[start:end]`. -/
def slice (text : List Char) (start stop : ℕ) : List Char := (text.drop start).take (stop - start)

/-- `text.rfind(separator, start, end)`. -/
def rfind (text separator : List Char) (start stop : ℕ) : Option ℕ :=
  (List.range' start (stop + 1 - start)).reverse.find? fun i =>
    i + separator.length ≤ stop ∧ (text.drop i).take separator.length = separator

namespace DocumentIngestionService

/-- The separators, in the order in which they are looked for. -/
def separators : List (List Char) := [['\n', '\n'], ['\n'], ['.', ' '], [' ']]

/-- `_chunk_boundary`. -/
def chunkBoundary (text : List Char) (start targetEnd : ℕ) : ℕ :=
  if text.length ≤ targetEnd then text.length
  else
    let windowStart := min (max (start + 200) start) targetEnd
    (separators.findSome? fun separator =>
      ((rfind text separator windowStart targetEnd).filter fun index => start < index).map fun index =>
        index + separator.length).getD targetEnd

/-- The loop over white space. -/
def skipSpaces (text : List Char) (start : ℕ) : ℕ :=
  start + ((text.drop start).takeWhile isStripSpace).length

/-- The end of the piece that starts here. -/
def pieceEnd (text : List Char) (chunkSize start : ℕ) : ℕ :=
  chunkBoundary text start (min (start + chunkSize) text.length)

/-- Where the next piece starts, unless this is the last one. -/
def nextStart (text : List Char) (chunkSize chunkOverlap start : ℕ) : Option ℕ :=
  if text.length ≤ pieceEnd text chunkSize start then none
  else some (skipSpaces text (pieceEnd text chunkSize start - chunkOverlap))

/-- The chunks with the piece that starts here. -/
def withPiece (text : List Char) (chunkSize start : ℕ) (chunks : List DocumentChunk) :
    List DocumentChunk :=
  let piece := strip (String.ofList (slice text start (pieceEnd text chunkSize start)))
  if piece = "" then chunks
  else chunks ++ [{
    index := chunks.length, text := piece, startChar := start
    endChar := pieceEnd text chunkSize start }]

/-- One turn of the loop of `chunk_text`. -/
def chunkTurn (text : List Char) (chunkSize chunkOverlap : ℕ) (s : ℕ × List DocumentChunk) :
    (ℕ × List DocumentChunk) ⊕ List DocumentChunk :=
  if text.length ≤ s.1 then .inr s.2
  else match nextStart text chunkSize chunkOverlap s.1 with
    | none => .inr (withPiece text chunkSize s.1 s.2)
    | some start => .inl (start, withPiece text chunkSize s.1 s.2)

/-- The loop of `chunk_text`, with as many turns as there is fuel. -/
def chunkLoop (text : List Char) (chunkSize chunkOverlap : ℕ) :
    ℕ × List DocumentChunk → ℕ → Option (List DocumentChunk) :=
  loop fun _ s => some (chunkTurn text chunkSize chunkOverlap s)

/-- The chunk size that `chunk_text` takes. -/
def effectiveSize (chunkSize : ℤ) : ℕ := (max chunkSize 200).toNat

/-- The overlap that `chunk_text` takes. -/
def effectiveOverlap (chunkSize chunkOverlap : ℤ) : ℕ :=
  (min (max chunkOverlap 0) (max chunkSize 200 / 2)).toNat

/-- `chunk_text`. -/
def chunkText (text : String) (chunkSize chunkOverlap : ℤ) : ℕ → Option (List DocumentChunk) :=
  if documentText text = [] then fun _ => some []
  else chunkLoop (documentText text) (effectiveSize chunkSize)
    (effectiveOverlap chunkSize chunkOverlap) (0, [])

/-- `_chunking_for_document_kind`. -/
def chunkingForDocumentKind (documentKind : String) (textLength : ℕ) : ℤ × ℤ :=
  if documentKind = "code" then (2200, 250)
  else if documentKind ∈ ["email_thread", "chat_export"] then (1000, 200)
  else if documentKind ∈ ["policy_sop", "workpaper", "report"] then
    (if 12000 < textLength then 1400 else 1200, 180)
  else if documentKind ∈ ["ticket", "meeting_note"] then (900, 120)
  else (if 20000 < textLength then 1600 else 1200, 150)

/-! ### One piece -/

section Piece

variable {text : List Char} {n start stop : ℕ}

theorem rfind_eq_some {separator : List Char} {i : ℕ} (h : rfind text separator start stop = some i) :
    start ≤ i ∧ i + separator.length ≤ stop := by
  have hfound := List.find?_some h
  have hmem := mem_of_find?_eq_some h
  rw [mem_reverse, mem_range'_1] at hmem
  exact ⟨hmem.1, (of_decide_eq_true hfound).1⟩

theorem separator_pos : ∀ separator ∈ separators, 0 < separator.length := by decide

/-- The end of a piece is the end of the text, or it is drawn back to a separator that does
not stand too close to the start, or it is where the size ends. -/
theorem chunkBoundary_cases (text : List Char) (start targetEnd : ℕ) :
    (text.length ≤ targetEnd ∧ chunkBoundary text start targetEnd = text.length) ∨
      (targetEnd < text.length ∧ chunkBoundary text start targetEnd = targetEnd) ∨
      (targetEnd < text.length ∧ start < chunkBoundary text start targetEnd ∧
        min (start + 200) targetEnd < chunkBoundary text start targetEnd ∧
        chunkBoundary text start targetEnd ≤ targetEnd) := by
  unfold chunkBoundary
  split
  next hend => exact .inl ⟨hend, rfl⟩
  next hend =>
    refine .inr ?_
    rcases hfound : separators.findSome? (fun separator =>
        ((rfind text separator (min (max (start + 200) start) targetEnd) targetEnd).filter
          fun index => start < index).map fun index => index + separator.length) with - | stop
    · exact .inl ⟨not_le.mp hend, by simp only [hfound, Option.getD_none]⟩
    · refine .inr ⟨not_le.mp hend, ?_⟩
      simp only [hfound, Option.getD_some]
      obtain ⟨separator, hseparator, hstop⟩ := exists_of_findSome?_eq_some hfound
      obtain ⟨index, hindex, rfl⟩ := Option.map_eq_some_iff.mp hstop
      obtain ⟨hindex, hbehind⟩ := Option.filter_eq_some_iff.mp hindex
      obtain ⟨hfrom, hto⟩ := rfind_eq_some hindex
      have hpos := separator_pos separator hseparator
      have hlt := of_decide_eq_true hbehind
      rw [max_eq_left (Nat.le_add_right start 200)] at hfrom
      exact ⟨by omega, by omega, hto⟩

/-- What the end of a piece of `n` characters is like. -/
structure PieceEnd (text : List Char) (n start stop : ℕ) : Prop where
  lt : start < stop
  le_length : stop ≤ text.length
  le_size : stop ≤ start + n
  far : stop = text.length ∨ stop = start + n ∨ start + 200 < stop

theorem pieceEnd_spec (hn : 200 ≤ n) (hstart : start < text.length) :
    PieceEnd text n start (pieceEnd text n start) := by
  unfold pieceEnd
  rcases chunkBoundary_cases text start (min (start + n) text.length) with
    ⟨hend, heq⟩ | ⟨hend, heq⟩ | ⟨hend, hlt, hfar, hle⟩
  · rw [heq]
    exact ⟨hstart, le_rfl, by omega, .inl rfl⟩
  · rw [heq]
    exact ⟨by omega, by omega, by omega, .inr (.inl (by omega))⟩
  · exact ⟨hlt, by omega, by omega, .inr (.inr (by omega))⟩

/-- A character stands here that is no white space. -/
def Solid (text : List Char) (i : ℕ) : Prop :=
  ∃ c, text[i]? = some c ∧ isStripSpace c = false

theorem Solid.lt_length {i : ℕ} (h : Solid text i) : i < text.length := by
  obtain ⟨c, hc, -⟩ := h
  exact (List.getElem?_eq_some_iff.mp hc).1

/-- Behind white space the text goes on, where its end is solid. -/
theorem skipSpaces_spec (hlast : Solid text (text.length - 1)) (hstart : start < text.length) :
    Solid text (skipSpaces text start) ∧
      ∀ i, start ≤ i → i < skipSpaces text start → ¬ Solid text i := by
  have hsplit : (text.drop start).takeWhile isStripSpace ++
      (text.drop start).dropWhile isStripSpace = text.drop start :=
    takeWhile_append_dropWhile
  have hrest : (text.drop start).dropWhile isStripSpace ≠ [] := by
    intro hnil
    obtain ⟨c, hc, hsolid⟩ := hlast
    have hmem : c ∈ text.drop start := by
      refine mem_of_getElem? (i := text.length - 1 - start) ?_
      rw [List.getElem?_drop, ← hc]
      congr 1
      omega
    rw [List.dropWhile_eq_nil_iff.mp hnil c hmem] at hsolid
    cases hsolid
  have hpos : 0 < ((text.drop start).dropWhile isStripSpace).length := List.length_pos_iff.mpr hrest
  have hget : ∀ k, text[start + k]? = ((text.drop start).takeWhile isStripSpace ++
      (text.drop start).dropWhile isStripSpace)[k]? := by
    intro k
    rw [hsplit, List.getElem?_drop]
  constructor
  · refine ⟨((text.drop start).dropWhile isStripSpace)[0], ?_, ?_⟩
    · rw [skipSpaces, hget, List.getElem?_append_right le_rfl, Nat.sub_self, List.getElem?_eq_getElem hpos]
    · exact Bool.eq_false_iff.mpr (dropWhile_get_zero_not isStripSpace _ hpos)
  · rintro i hi hlt ⟨c, hc, hsolid⟩
    obtain ⟨k, rfl⟩ := Nat.exists_eq_add_of_le hi
    have hk : k < ((text.drop start).takeWhile isStripSpace).length := by
      rw [skipSpaces] at hlt
      omega
    rw [hget, List.getElem?_append_left hk] at hc
    rw [mem_takeWhile_imp (mem_of_getElem? hc)] at hsolid
    cases hsolid

theorem length_slice_le (text : List Char) (start stop : ℕ) :
    (slice text start stop).length ≤ stop - start := length_take_le _ _

/-- A piece that starts with a solid character is not empty. -/
theorem piece_ne_empty (hsolid : Solid text start) (hstop : start < stop) :
    strip (String.ofList (slice text start stop)) ≠ "" := by
  obtain ⟨c, hc, hkept⟩ := hsolid
  refine strip_ne_empty (c := c) ?_ hkept
  rw [String.toList_ofList, slice]
  refine mem_of_getElem? (i := 0) ?_
  rw [List.getElem?_take, if_pos (by omega), List.getElem?_drop, Nat.add_zero]
  exact hc

theorem withPiece_eq {chunks : List DocumentChunk} (hn : 200 ≤ n) (hsolid : Solid text start) :
    withPiece text n start chunks = chunks ++ [{
      index := chunks.length
      text := strip (String.ofList (slice text start (pieceEnd text n start)))
      startChar := start, endChar := pieceEnd text n start }] := by
  have hlt := (pieceEnd_spec hn hsolid.lt_length).lt
  rw [withPiece]
  exact if_neg (piece_ne_empty hsolid hlt)

end Piece

/-! ### The loop -/

/-- The chunks cover the solid characters before this place, in order, and each is the stripped
piece of the text that it says, of at most `n` characters. -/
structure Covers (text : List Char) (n stop : ℕ) (chunks : List DocumentChunk) : Prop where
  increasing : chunks.Pairwise fun c d => c.startChar < d.startChar
  indexes : chunks.map (·.index) = List.range chunks.length
  texts : ∀ c ∈ chunks, c.text.length ≤ n ∧
    c.text = strip (String.ofList (slice text c.startChar c.endChar))
  covered : ∀ i < stop, Solid text i → ∃ c ∈ chunks, c.startChar ≤ i ∧ i < c.endChar

/-- What the chunks of a text should be. -/
def ChunkLaw (text : List Char) (n : ℕ) (chunks : List DocumentChunk) : Prop :=
  Covers text n text.length chunks

/-- The places at which the loop starts a piece. -/
inductive Starts (text : List Char) (n overlap : ℕ) : ℕ → Prop
  | first : Starts text n overlap 0
  | next {start start' : ℕ} : Starts text n overlap start → start < text.length →
      nextStart text n overlap start = some start' → Starts text n overlap start'

/-- No piece starts at or before the one in front of it. -/
def Advances (text : List Char) (n overlap : ℕ) : Prop :=
  ∀ start, Starts text n overlap start → start < text.length →
    ∀ start', nextStart text n overlap start = some start' → start < start'

section Loop

variable {text : List Char} {n overlap start start' : ℕ} {chunks : List DocumentChunk}

theorem length_strip_le (s : String) : (strip s).length ≤ s.length := by
  rw [← String.length_toList, toList_strip, ← String.length_toList]
  exact (List.rdropWhile_prefix _ _).length_le.trans (dropWhile_suffix _).length_le

theorem nextStart_eq_some (h : nextStart text n overlap start = some start') :
    pieceEnd text n start < text.length ∧
      start' = skipSpaces text (pieceEnd text n start - overlap) := by
  unfold nextStart at h
  split at h
  · cases h
  next hend => exact ⟨not_le.mp hend, (Option.some.inj h).symm⟩

/-- **One piece** more, up to any place behind which there is white space only. -/
theorem Covers.withPiece {stop : ℕ} (h : Covers text n start chunks) (hn : 200 ≤ n)
    (hsolid : Solid text start) (hbehind : ∀ c ∈ chunks, c.startChar < start)
    (hspaces : ∀ i < stop, pieceEnd text n start ≤ i → ¬ Solid text i) :
    Covers text n stop (withPiece text n start chunks) := by
  have hspec := pieceEnd_spec hn hsolid.lt_length
  rw [withPiece_eq hn hsolid]
  refine ⟨?_, ?_, ?_, ?_⟩
  · rw [pairwise_append]
    refine ⟨h.increasing, pairwise_singleton _ _, fun c hc d hd => ?_⟩
    rw [List.mem_singleton.mp hd]
    exact hbehind c hc
  · rw [map_append, h.indexes, length_append, length_singleton, range_succ]
    rfl
  · intro c hc
    rcases List.mem_append.mp hc with hc | hc
    · exact h.texts c hc
    · rw [List.mem_singleton.mp hc]
      refine ⟨(length_strip_le _).trans ?_, rfl⟩
      rw [String.length_ofList]
      have hslice := length_slice_le text start (pieceEnd text n start)
      have hsize := hspec.le_size
      omega
  · intro i hi hi'
    rcases Nat.lt_or_ge i start with hlt | hge
    · obtain ⟨c, hc, hin⟩ := h.covered i hlt hi'
      exact ⟨c, mem_append_left _ hc, hin⟩
    · rcases Nat.lt_or_ge i (pieceEnd text n start) with hin | hout
      · exact ⟨_, mem_append_right _ (mem_singleton_self _), hge, hin⟩
      · exact absurd hi' (hspaces i hi hout)

/-- Every piece starts with a solid character. -/
theorem Starts.solid (hfirst : Solid text 0) (hlast : Solid text (text.length - 1))
    (h : Starts text n overlap start) : Solid text start := by
  cases h with
  | first => exact hfirst
  | next hstart hlt hnext =>
    obtain ⟨hend, rfl⟩ := nextStart_eq_some hnext
    exact (skipSpaces_spec hlast (by omega)).1

variable {s : ℕ × List DocumentChunk}

theorem chunkTurn_inl (hlt : s.1 < text.length)
    (hnext : nextStart text n overlap s.1 = some start) :
    chunkTurn text n overlap s = .inl (start, DocumentIngestionService.withPiece text n s.1 s.2) := by
  rw [chunkTurn, if_neg (not_le.mpr hlt), hnext]

theorem chunkTurn_inr (hlt : s.1 < text.length) (hnext : nextStart text n overlap s.1 = none) :
    chunkTurn text n overlap s = .inr (DocumentIngestionService.withPiece text n s.1 s.2) := by
  rw [chunkTurn, if_neg (not_le.mpr hlt), hnext]

/-- In front of the piece that starts here. -/
structure Chunking (text : List Char) (n overlap : ℕ) (s : ℕ × List DocumentChunk) : Prop where
  starts : Starts text n overlap s.1
  behind : ∀ c ∈ s.2, c.startChar < s.1
  covers : Covers text n s.1 s.2

/-- **A turn** of a loop that advances. -/
theorem Chunking.turn (hn : 200 ≤ n) (hfirst : Solid text 0) (hlast : Solid text (text.length - 1))
    (hadvances : Advances text n overlap) (h : Chunking text n overlap s) :
    (∃ s', chunkTurn text n overlap s = .inl s' ∧ Chunking text n overlap s' ∧
        text.length - s'.1 < text.length - s.1) ∨
      ∃ chunks, chunkTurn text n overlap s = .inr chunks ∧ ChunkLaw text n chunks := by
  have hsolid := h.starts.solid hfirst hlast
  have hlt := hsolid.lt_length
  rcases hnext : nextStart text n overlap s.1 with - | start
  · refine .inr ⟨_, chunkTurn_inr hlt hnext, ?_⟩
    refine h.covers.withPiece hn hsolid h.behind fun i hi hend => ?_
    unfold nextStart at hnext
    split at hnext
    next hwhole => omega
    · cases hnext
  · have hadvance := hadvances s.1 h.starts hlt start hnext
    obtain ⟨hend, hstart⟩ := nextStart_eq_some hnext
    have hbefore : pieceEnd text n s.1 - overlap < text.length := by omega
    have hskip := skipSpaces_spec hlast hbefore
    rw [← hstart] at hskip
    have hmore : text.length - start < text.length - s.1 := by omega
    have hcovers : Covers text n start (DocumentIngestionService.withPiece text n s.1 s.2) := by
      refine h.covers.withPiece hn hsolid h.behind fun i hi hend => ?_
      exact hskip.2 i (by omega) hi
    have hstarts := h.starts.next hlt hnext
    refine .inl ⟨_, chunkTurn_inl hlt hnext, ⟨hstarts, ?_, ?_⟩, ?_⟩
    · dsimp only
      intro c hc
      rw [withPiece_eq hn hsolid] at hc
      rcases List.mem_append.mp hc with hc | hc
      · exact (h.behind c hc).trans hadvance
      · rw [List.mem_singleton.mp hc]
        exact hadvance
    · dsimp only
      exact hcovers
    · dsimp only
      exact hmore

end Loop

/-! ### Where the chunks are right -/

section Law

variable {text : List Char} {n overlap start start' : ℕ} {chunks found : List DocumentChunk}

/-- A loop that advances returns the chunks of the text. -/
theorem Advances.returns (hn : 200 ≤ n) (hfirst : Solid text 0)
    (hlast : Solid text (text.length - 1)) (h : Advances text n overlap) :
    ∃ chunks, Returns (chunkLoop text n overlap (0, [])) chunks ∧ ChunkLaw text n chunks := by
  refine returns_loop (I := Chunking text n overlap) (fun s => text.length - s.1) ?_ ?_
  · intro s hs
    rcases hs.turn hn hfirst hlast h with ⟨s', heq, hs', hlt⟩ | ⟨chunks, heq, hlaw⟩
    · exact .inl ⟨s', ⟨0, fun _ _ => congrArg some heq⟩, hs', hlt⟩
    · exact .inr ⟨chunks, ⟨0, fun _ _ => congrArg some heq⟩, hlaw⟩
  · refine ⟨.first, fun c hc => absurd hc (not_mem_nil), ⟨.nil, rfl, ?_, ?_⟩⟩
    · exact fun c hc => absurd hc (not_mem_nil)
    · exact fun i hi => absurd hi (Nat.not_lt_zero i)

theorem returns_of_inl {s s' : ℕ × List DocumentChunk} (h : chunkTurn text n overlap s = .inl s')
    (hs : Returns (chunkLoop text n overlap s) chunks) :
    Returns (chunkLoop text n overlap s') chunks :=
  Returns.of_inl (by rw [h]) hs

variable {s : ℕ × List DocumentChunk}

theorem eq_of_inr (h : chunkTurn text n overlap s = .inr found)
    (hs : Returns (chunkLoop text n overlap s) chunks) : chunks = found :=
  Returns.of_inr (by rw [h]) hs

theorem prefix_withPiece : found <+: withPiece text n start found := by
  unfold withPiece
  dsimp only
  split
  · exact prefix_refl found
  · exact prefix_append found _

/-- A turn only adds chunks. -/
theorem prefix_chunkTurn (s : ℕ × List DocumentChunk) :
    (∀ s', chunkTurn text n overlap s = .inl s' → s.2 <+: s'.2) ∧
      ∀ chunks, chunkTurn text n overlap s = .inr chunks → s.2 <+: chunks := by
  rcases Nat.lt_or_ge s.1 text.length with hlt | hge
  · rcases hnext : nextStart text n overlap s.1 with - | start
    · rw [chunkTurn_inr hlt hnext]
      refine ⟨fun s' h => absurd h Sum.inr_ne_inl, fun chunks h => ?_⟩
      obtain rfl := Sum.inr.inj h
      exact prefix_withPiece
    · rw [chunkTurn_inl hlt hnext]
      refine ⟨fun s' h => ?_, fun chunks h => absurd h Sum.inl_ne_inr⟩
      obtain rfl := Sum.inl.inj h
      dsimp only
      exact prefix_withPiece
  · rw [chunkTurn, if_pos hge]
    refine ⟨fun s' h => absurd h Sum.inr_ne_inl, fun chunks h => ?_⟩
    obtain rfl := Sum.inr.inj h
    exact prefix_refl s.2

/-- The loop only adds chunks. -/
theorem prefix_of_returns (h : Returns (chunkLoop text n overlap s) chunks) : s.2 <+: chunks := by
  have hgoesOn : ∀ t t' : ℕ × List DocumentChunk, s.2 <+: t.2 →
      some (chunkTurn text n overlap t) = some (.inl t') → s.2 <+: t'.2 :=
    fun t t' ht heq => ht.trans ((prefix_chunkTurn t).1 t' (Option.some.inj heq))
  have hends : ∀ (t : ℕ × List DocumentChunk) (a : List DocumentChunk), s.2 <+: t.2 →
      some (chunkTurn text n overlap t) = some (.inr a) → s.2 <+: a :=
    fun t a ht heq => ht.trans ((prefix_chunkTurn t).2 a (Option.some.inj heq))
  exact Returns.invariant hgoesOn hends (prefix_refl s.2) h

/-- The piece that starts here is one of the chunks. -/
theorem prefix_of_turn (hlt : start < text.length)
    (h : Returns (chunkLoop text n overlap (start, found)) chunks) :
    withPiece text n start found <+: chunks := by
  rcases hnext : nextStart text n overlap start with - | start'
  · rw [eq_of_inr (chunkTurn_inr hlt hnext) h]
  · have hbegins := prefix_of_returns (returns_of_inl (chunkTurn_inl hlt hnext) h)
    dsimp only at hbegins
    exact hbegins

/-- Wherever a piece starts, the rest of the loop gives the chunks. -/
theorem Starts.returns (h : Returns (chunkLoop text n overlap (0, [])) chunks)
    (hstart : Starts text n overlap start) :
    ∃ found, Returns (chunkLoop text n overlap (start, found)) chunks := by
  induction hstart with
  | first => exact ⟨[], h⟩
  | next _ hlt hnext ih =>
    obtain ⟨found, hfound⟩ := ih
    exact ⟨_, returns_of_inl (chunkTurn_inl hlt hnext) hfound⟩

/-- A loop that returns chunks in order has advanced: two pieces that follow each other are
two chunks that follow each other. -/
theorem advances_of_increasing (hn : 200 ≤ n) (hfirst : Solid text 0)
    (hlast : Solid text (text.length - 1))
    (h : Returns (chunkLoop text n overlap (0, [])) chunks)
    (hincreasing : chunks.Pairwise fun c d => c.startChar < d.startChar) :
    Advances text n overlap := by
  intro start hstart hlt start' hnext
  obtain ⟨found, hfound⟩ := hstart.returns h
  have hsolid := hstart.solid hfirst hlast
  have hsolid' : Solid text start' := (hstart.next hlt hnext).solid hfirst hlast
  have hbegins := prefix_of_turn hsolid'.lt_length (returns_of_inl (chunkTurn_inl hlt hnext) hfound)
  rw [withPiece_eq hn hsolid, withPiece_eq hn hsolid'] at hbegins
  have hpairs := hincreasing.sublist hbegins.sublist
  rw [pairwise_append] at hpairs
  exact hpairs.2.2 _ (mem_append_right _ (mem_singleton_self _)) _ (mem_singleton_self _)

variable {text : String} {chunkSize chunkOverlap : ℤ}

theorem chunkText_of_empty (h : documentText text = []) :
    chunkText text chunkSize chunkOverlap = fun _ => some [] := by
  rw [chunkText, if_pos h]

theorem chunkText_of_ne (h : documentText text ≠ []) : chunkText text chunkSize chunkOverlap =
      chunkLoop (documentText text) (effectiveSize chunkSize)
        (effectiveOverlap chunkSize chunkOverlap) (0, []) := by
  rw [chunkText, if_neg h]

/-- A text that is not empty starts and ends with a solid character. -/
theorem solid_documentText (h : documentText text ≠ []) :
    Solid (documentText text) 0 ∧ Solid (documentText text) ((documentText text).length - 1) := by
  have hpos : 0 < (documentText text).length := List.length_pos_iff.mpr h
  constructor
  · have hfirst : (documentText text).dropWhile isStripSpace = documentText text :=
      dropWhile_strip _
    rw [dropWhile_eq_self_iff] at hfirst
    refine ⟨(documentText text)[0], List.getElem?_eq_getElem hpos, ?_⟩
    exact Bool.eq_false_iff.mpr (hfirst hpos)
  · have hlast : (documentText text).rdropWhile isStripSpace = documentText text :=
      rdropWhile_strip _
    rw [rdropWhile_eq_self_iff] at hlast
    refine ⟨(documentText text).getLast h, ?_, Bool.eq_false_iff.mpr (hlast h)⟩
    rw [← List.getLast?_eq_getElem?, List.getLast?_eq_getLast_of_ne_nil h]

theorem le_effectiveSize (chunkSize : ℤ) : 200 ≤ effectiveSize chunkSize := by
  unfold effectiveSize
  omega

/-- **Chunking** ends with the chunks of the text exactly where no piece starts at or before
the one in front of it. -/
theorem chunkText_law_iff (text : String) (chunkSize chunkOverlap : ℤ) :
    (∃ chunks, Returns (chunkText text chunkSize chunkOverlap) chunks ∧
        ChunkLaw (documentText text) (effectiveSize chunkSize) chunks) ↔
      Advances (documentText text) (effectiveSize chunkSize)
        (effectiveOverlap chunkSize chunkOverlap) := by
  rcases eq_or_ne (documentText text) [] with hnil | hne
  · rw [chunkText_of_empty hnil, hnil]
    constructor
    · exact fun _ _ _ hlt => absurd hlt (Nat.not_lt_zero _)
    · intro
      refine ⟨[], returns_some [], .nil, rfl, fun c hc => absurd hc not_mem_nil, ?_⟩
      exact fun i hi => absurd hi (Nat.not_lt_zero i)
  · obtain ⟨hfirst, hlast⟩ := solid_documentText hne
    rw [chunkText_of_ne hne]
    constructor
    · rintro ⟨chunks, hreturns, hlaw⟩
      exact advances_of_increasing (le_effectiveSize _) hfirst hlast hreturns hlaw.increasing
    · exact fun h => h.returns (le_effectiveSize _) hfirst hlast

end Law

/-! ### Which overlaps advance -/

/-- An overlap of at most 200 does not reach over the start of a piece that is cut at a
separator. -/
theorem advances_of_overlap_le {text : List Char} {n overlap : ℕ} (hn : 200 ≤ n)
    (hoverlap : overlap ≤ 200) (hsize : overlap < n) : Advances text n overlap := by
  intro start _ hlt start' hnext
  obtain ⟨hend, rfl⟩ := nextStart_eq_some hnext
  have hspec := pieceEnd_spec hn hlt
  have hskip : pieceEnd text n start - overlap ≤
      skipSpaces text (pieceEnd text n start - overlap) := Nat.le_add_right _ _
  rcases hspec.far with hfar | hfar | hfar <;> omega

theorem advances_chunkingForDocumentKind {documentKind : String} (hkind : documentKind ≠ "code")
    (text : List Char) (textLength : ℕ) :
    Advances text (effectiveSize (chunkingForDocumentKind documentKind textLength).1)
      (effectiveOverlap (chunkingForDocumentKind documentKind textLength).1
        (chunkingForDocumentKind documentKind textLength).2) := by
  have hbounds : 0 ≤ (chunkingForDocumentKind documentKind textLength).2 ∧
      (chunkingForDocumentKind documentKind textLength).2 ≤ 200 ∧
      900 ≤ (chunkingForDocumentKind documentKind textLength).1 := by
    unfold chunkingForDocumentKind
    rw [if_neg hkind]
    split_ifs <;> decide
  obtain ⟨hnonneg, hle, hsize⟩ := hbounds
  refine advances_of_overlap_le (le_effectiveSize _) ?_ ?_
  · unfold effectiveOverlap
    omega
  · unfold effectiveOverlap effectiveSize
    omega

/-- **A document that is not code** is cut into the chunks of its text. -/
theorem chunkText_document {documentKind : String} (hkind : documentKind ≠ "code") (text : String)
    (textLength : ℕ) :
    let sizes := chunkingForDocumentKind documentKind textLength
    ∃ chunks, Returns (chunkText text sizes.1 sizes.2) chunks ∧
      ChunkLaw (documentText text) (effectiveSize sizes.1) chunks := by
  intro sizes
  rcases eq_or_ne (documentText text) [] with hnil | hne
  · rw [chunkText_of_empty hnil, hnil]
    exact ⟨[], returns_some [], .nil, rfl, nofun, nofun⟩
  · obtain ⟨hfirst, hlast⟩ := solid_documentText hne
    rw [chunkText_of_ne hne]
    exact (advances_chunkingForDocumentKind hkind _ _).returns (le_effectiveSize _) hfirst hlast

/-- A text of 3000 characters takes several chunks. -/
theorem chunkText_report : "report" ≠ "code" ∧ ∃ chunks,
    Returns (chunkText (String.ofList (replicate 3000 'a')) 1200 180) chunks ∧
      ChunkLaw (documentText (String.ofList (replicate 3000 'a'))) 1200 chunks :=
  ⟨by decide, chunkText_document (by decide : "report" ≠ "code") _ 3000⟩

/-- A piece whose next piece starts where it starts is cut for ever. -/
theorem not_returns_of_nextStart_eq {text : List Char} {n overlap start : ℕ}
    {found : List DocumentChunk} (hlt : start < text.length)
    (hnext : nextStart text n overlap start = some start) :
    ¬ ∃ chunks, Returns (chunkLoop text n overlap (start, found)) chunks := by
  rintro ⟨chunks, h⟩
  have hturn : ∀ t : ℕ × List DocumentChunk, t.1 = start →
      chunkTurn text n overlap t = .inl (start, withPiece text n t.1 t.2) := by
    intro t ht
    exact chunkTurn_inl (ht ▸ hlt) (by rw [ht, hnext])
  refine Returns.invariant (I := fun t : ℕ × List DocumentChunk => t.1 = start)
    (Q := fun _ => False) ?_ ?_ ?_ h
  · intro t t' ht heq
    rw [hturn t ht] at heq
    obtain rfl := Sum.inl.inj (Option.some.inj heq)
    rfl
  · intro t a ht heq
    rw [hturn t ht] at heq
    exact absurd (Option.some.inj heq) Sum.inl_ne_inr
  · rfl

/-- Two long words. -/
def twoWords : List Char := List.replicate 200 'a' ++ ' ' :: List.replicate 300 'a'

theorem documentText_twoWords : documentText (String.ofList twoWords) = twoWords := by
  rw [documentText, toList_strip]
  simp only [String.toList_ofList]
  decide +kernel

/-- The first piece of two long words ends behind the first, and the overlap goes back to its
start. -/
theorem nextStart_twoWords : nextStart twoWords 402 201 0 = some 0 := by decide +kernel

theorem chunkText_twoWords :
    ¬ ∃ chunks, Returns (chunkText (String.ofList twoWords) 402 201) chunks := by
  have hne : documentText (String.ofList twoWords) ≠ [] := by
    rw [documentText_twoWords]
    exact append_ne_nil_of_right_ne_nil _ (cons_ne_nil _ _)
  rw [chunkText_of_ne hne, documentText_twoWords]
  exact not_returns_of_nextStart_eq (by decide +kernel) nextStart_twoWords

end DocumentIngestionService

end OpenAgency
