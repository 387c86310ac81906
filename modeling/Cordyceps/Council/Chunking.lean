import Cordyceps.Council.Chunker
import Cordyceps.Foundations.LinePacking
import Mathlib.Data.List.Chain

/-!
# Chunking is lossless, and mostly within its limit

The loop of `chunkByLines` packs the lines of the source into groups. Its byte count, line
numbers and blank line marker always describe the open group, so the chunks are the groups,
numbered from the first line on. No line is lost; a chunk of several lines is above the limit
exactly when the lines after a blank one that are carried over leave no room for the line
that did not fit before.
-/

namespace Cordyceps.Council

open Foundations Foundations.LineGroups

/-! ## The loop packs lines into groups -/

/-- Groups of lines as pieces, from line `first` on. -/
def pieces : ℕ → List (List JsString) → List Piece
  | _, [] => []
  | first, group :: rest =>
    ⟨join newline group, first, first + group.length - 1⟩ :: pieces (first + group.length) rest

@[simp]
theorem length_pieces (first : ℕ) (groups : List (List JsString)) :
    (pieces first groups).length = groups.length := by
  induction groups generalizing first with
  | nil => rfl
  | cons group rest ih => rw [pieces, List.length_cons, ih, List.length_cons]

theorem map_text_pieces (first : ℕ) (groups : List (List JsString)) :
    (pieces first groups).map Piece.text = groups.map (join newline) := by
  induction groups generalizing first with
  | nil => rfl
  | cons group rest ih => rw [pieces, List.map_cons, ih, List.map_cons]

/-- A chunk without its number. -/
def Chunk.piece (chunk : Chunk) : Piece := ⟨chunk.text, chunk.startLine, chunk.endLine⟩

@[simp]
theorem map_piece_number (pieces : List Piece) : (number pieces).map Chunk.piece = pieces := by
  rw [number, List.map_map]
  exact List.zipIdx_map_fst 0 pieces

namespace Chunking

/-- The variables of the loop describe the open group, before line `i`. -/
structure Tracks (i : ℕ) (chunking : Chunking) : Prop where
  bytes : chunking.currentBytes = weight chunking.current
  blank : chunking.lastBlankLine =
    if (settled isBlank chunking.current).isEmpty then none
    else some (settled isBlank chunking.current).length
  line : chunking.startLine + chunking.current.length = i + 1

theorem tracks_start : Tracks 0 start := ⟨rfl, rfl, rfl⟩

theorem full_eq {i : ℕ} {chunking : Chunking} (h : Tracks i chunking) (maxBytes : ℤ)
    (line : JsString) :
    chunking.full maxBytes line = overfull maxBytes chunking.current line := by
  rw [full, overfull, h.bytes]

theorem settled_kept (opened : List JsString) : settled isBlank (kept isBlank opened) = [] := by
  rw [settled, List.rdropWhile_eq_nil_iff]
  intro line hline
  rw [kept] at hline
  split at hline
  case isTrue hnone => exact absurd hline List.not_mem_nil
  case isFalse hsome => exact List.mem_rtakeWhile_imp (p := fun line ↦ !isBlank line) hline

/-- Closing a chunk emits the closed lines, and goes on with those that are kept. -/
theorem cut_eq {i : ℕ} {chunking : Chunking} (h : Tracks i chunking) :
    chunking.cut i =
      { chunks := chunking.chunks ++ pieces chunking.startLine [closed isBlank chunking.current]
        current := kept isBlank chunking.current
        currentBytes := weight (kept isBlank chunking.current)
        startLine := chunking.startLine + (closed isBlank chunking.current).length
        lastBlankLine := none } := by
  have hline := h.line
  rw [cut, closed, kept, h.blank]
  by_cases hnone : (settled isBlank chunking.current).isEmpty
  · simp only [if_pos hnone, pieces, weight_nil]
    rw [← hline]
  · simp only [if_neg hnone, pieces]
    obtain ⟨htake, hdrop⟩ := List.append_inj
      ((List.take_append_drop _ _).trans (settled_append isBlank chunking.current).symm)
      (List.length_take_of_le (List.rdropWhile_prefix _ _).length_le)
    rw [settled] at htake hdrop
    rw [settled, htake, hdrop]

theorem tracks_cut {i : ℕ} {chunking : Chunking} (h : Tracks i chunking) :
    Tracks i (chunking.cut i) := by
  rw [cut_eq h]
  refine ⟨rfl, ?_, ?_⟩
  · rw [settled_kept]
    rfl
  · have hlines := congrArg List.length (closed_append_kept isBlank chunking.current)
    rw [List.length_append] at hlines
    have hline := h.line
    change chunking.startLine + (closed isBlank chunking.current).length +
      (kept isBlank chunking.current).length = i + 1
    omega

theorem tracks_push {i : ℕ} {chunking : Chunking} (h : Tracks i chunking) (line : JsString) :
    Tracks (i + 1) (chunking.push line) := by
  refine ⟨?_, ?_, ?_⟩
  · change chunking.currentBytes + _ = weight (chunking.current ++ [line])
    rw [h.bytes, weight_append, weight_cons, weight_nil, Nat.add_zero]
  · change (if isBlank line then _ else _) = _
    change _ = if (settled isBlank (chunking.current ++ [line])).isEmpty then none
      else some (settled isBlank (chunking.current ++ [line])).length
    rw [settled, List.rdropWhile_concat]
    by_cases hblank : isBlank line
    · simp [hblank]
    · simp only [hblank, Bool.not_false, if_true]
      exact h.blank
  · have hline := h.line
    change chunking.startLine + (chunking.current ++ [line]).length = _
    rw [List.length_append, List.length_singleton]
    omega

/-- The chunks of the loop are the packed groups, numbered on from the open one. -/
theorem finish_loop (maxBytes : ℤ) {i : ℕ} {chunking : Chunking} (h : Tracks i chunking)
    (rest : List JsString) :
    (loop maxBytes i rest chunking).finish =
      chunking.chunks ++
        pieces chunking.startLine (packed isBlank maxBytes chunking.current rest) := by
  induction rest generalizing i chunking with
  | nil =>
    rw [loop, finish, packed]
    split
    · rw [pieces, List.append_nil]
    · rfl
  | cons line rest ih =>
    rw [loop, step, packed, full_eq h]
    by_cases hfull : overfull maxBytes chunking.current line
    · rw [if_pos hfull, if_pos hfull, ih (tracks_push (tracks_cut h) line), cut_eq h]
      change (_ ++ _) ++ _ = _
      rw [List.append_assoc]
      rfl
    · rw [if_neg hfull, if_neg hfull, ih (tracks_push h line)]
      rfl

end Chunking

/-- The groups of lines that the chunks of a source are. -/
def lineGroups (source : JsString) (maxBytes : ℤ) : List (List JsString) :=
  if (source.length : ℤ) ≤ maxBytes then [source.splitOn newline]
  else packed isBlank maxBytes [] (source.splitOn newline)

theorem chunkByLines_eq (source : JsString) (maxBytes : ℤ) :
    chunkByLines source maxBytes = number (pieces 1 (lineGroups source maxBytes)) := by
  rw [chunkByLines, lineGroups]
  split
  case isTrue hsmall =>
    simp [pieces, number, join_splitOn]
  case isFalse hlarge =>
    rw [Chunking.finish_loop maxBytes Chunking.tracks_start]
    rfl

theorem map_text_number (pieces : List Piece) :
    (number pieces).map Chunk.text = pieces.map Piece.text := by
  rw [← congrArg (List.map Piece.text) (map_piece_number pieces), List.map_map]
  rfl

theorem map_text_chunkByLines (source : JsString) (maxBytes : ℤ) :
    (chunkByLines source maxBytes).map Chunk.text =
      (lineGroups source maxBytes).map (join newline) := by
  rw [chunkByLines_eq, map_text_number, map_text_pieces]

theorem flatten_lineGroups (source : JsString) (maxBytes : ℤ) :
    (lineGroups source maxBytes).flatten = source.splitOn newline := by
  rw [lineGroups]
  split
  case isTrue hsmall => simp
  case isFalse hlarge => exact flatten_packed isBlank maxBytes [] _

theorem ne_nil_of_mem_lineGroups {source : JsString} {maxBytes : ℤ} {group : List JsString}
    (h : group ∈ lineGroups source maxBytes) : group ≠ [] := by
  rw [lineGroups] at h
  split at h
  case isTrue hsmall =>
    rw [List.mem_singleton.mp h]
    exact List.splitOn_ne_nil _ _
  case isFalse hlarge => exact ne_nil_of_mem_packed isBlank maxBytes h

theorem lineGroups_ne_nil (source : JsString) (maxBytes : ℤ) : lineGroups source maxBytes ≠ [] := by
  intro hnil
  have hlines := flatten_lineGroups source maxBytes
  rw [hnil] at hlines
  exact List.splitOn_ne_nil newline source hlines.symm

/-- The text of a group has the lines of the group. -/
theorem splitOn_text {source : JsString} {maxBytes : ℤ} {group : List JsString}
    (h : group ∈ lineGroups source maxBytes) : (join newline group).splitOn newline = group := by
  refine splitOn_join (ne_nil_of_mem_lineGroups h) fun line hline ↦ ?_
  have hmem : line ∈ source.splitOn newline := by
    rw [← flatten_lineGroups source maxBytes]
    exact List.mem_flatten.mpr ⟨group, h, hline⟩
  exact notMem_of_mem_splitOn hmem

/-! ## No line is lost -/

/-- Every piece of a numbering starts behind the one before it. -/
def Follows (piece next : Piece) : Prop := next.startLine = piece.endLine + 1

theorem head?_pieces (first : ℕ) (groups : List (List JsString)) :
    ∀ piece ∈ (pieces first groups).head?, piece.startLine = first := by
  cases groups with
  | nil => simp [pieces]
  | cons group rest => simp [pieces]

theorem isChain_pieces (first : ℕ) {groups : List (List JsString)}
    (h : ∀ group ∈ groups, group ≠ []) : (pieces first groups).IsChain Follows := by
  induction groups generalizing first with
  | nil => exact List.IsChain.nil
  | cons group rest ih =>
    obtain ⟨hgroup, hrest⟩ := List.forall_mem_cons.mp h
    have hlength := List.length_pos_iff.mpr hgroup
    refine List.isChain_cons.mpr ⟨fun next hnext ↦ ?_, ih _ hrest⟩
    rw [Follows, head?_pieces _ rest next hnext]
    change first + group.length = first + group.length - 1 + 1
    omega

theorem getLast?_pieces (first : ℕ) {groups : List (List JsString)}
    (h : ∀ group ∈ groups, group ≠ []) :
    ∀ piece ∈ (pieces first groups).getLast?, piece.endLine + 1 = first + groups.flatten.length := by
  induction groups generalizing first with
  | nil => simp [pieces]
  | cons group rest ih =>
    obtain ⟨hgroup, hrest⟩ := List.forall_mem_cons.mp h
    have hlength := List.length_pos_iff.mpr hgroup
    intro piece hpiece
    cases rest with
    | nil =>
      simp only [pieces, List.getLast?_singleton, Option.mem_some_iff] at hpiece
      subst hpiece
      simp only [List.flatten_cons, List.flatten_nil, List.append_nil]
      omega
    | cons next rest =>
      have hlast : piece ∈ (pieces (first + group.length) (next :: rest)).getLast? := by
        rwa [pieces, pieces, List.getLast?_cons_cons] at hpiece
      rw [ih _ hrest piece hlast]
      simp only [List.flatten_cons, List.length_append, Nat.add_assoc]

theorem exists_group_of_mem_pieces {first : ℕ} {groups : List (List JsString)} {piece : Piece}
    (h : piece ∈ pieces first groups) :
    ∃ group ∈ groups, piece.text = join newline group ∧
      piece.endLine = piece.startLine + group.length - 1 := by
  induction groups generalizing first with
  | nil => exact absurd h List.not_mem_nil
  | cons group rest ih =>
    rcases List.mem_cons.mp h with rfl | hlater
    · exact ⟨group, List.mem_cons_self, rfl, rfl⟩
    · obtain ⟨other, hother, hpiece⟩ := ih hlater
      exact ⟨other, List.mem_cons_of_mem _ hother, hpiece⟩

/-- The chunks hold the source, line for line. -/
structure Lossless (source : JsString) (chunks : List Chunk) : Prop where
  nonempty : chunks ≠ []
  text : join newline (chunks.map Chunk.text) = source
  first : ∀ chunk ∈ chunks.head?, chunk.startLine = 1
  contiguous : chunks.IsChain fun chunk next ↦ next.startLine = chunk.endLine + 1
  last : ∀ chunk ∈ chunks.getLast?, chunk.endLine = (source.splitOn newline).length
  lines : ∀ chunk ∈ chunks,
    ((chunk.text.splitOn newline).length : ℤ) = chunk.endLine - chunk.startLine + 1
  numbered : ∀ (i : ℕ) (h : i < chunks.length),
    chunks[i].index = i ∧ chunks[i].total = chunks.length

theorem chunkByLines_lossless (source : JsString) (maxBytes : ℤ) :
    Lossless source (chunkByLines source maxBytes) := by
  have hgroups : ∀ group ∈ lineGroups source maxBytes, group ≠ [] :=
    fun _ ↦ ne_nil_of_mem_lineGroups
  have hpieces : (chunkByLines source maxBytes).map Chunk.piece =
      pieces 1 (lineGroups source maxBytes) := by
    rw [chunkByLines_eq, map_piece_number]
  have hlength : (chunkByLines source maxBytes).length = (lineGroups source maxBytes).length := by
    rw [← List.length_map Chunk.piece, hpieces, length_pieces]
  refine ⟨?nonempty, ?text, ?starts, ?contiguous, ?last, ?lines, ?numbered⟩
  case nonempty =>
    intro hnil
    rw [hnil, List.length_nil] at hlength
    exact lineGroups_ne_nil source maxBytes (List.length_eq_zero_iff.mp hlength.symm)
  case text =>
    rw [map_text_chunkByLines, join_join newline hgroups, flatten_lineGroups, join_splitOn]
  case starts =>
    intro chunk hchunk
    refine head?_pieces 1 (lineGroups source maxBytes) chunk.piece ?_
    rw [← hpieces, List.head?_map]
    exact Option.mem_map_of_mem _ hchunk
  case contiguous =>
    have hchain := isChain_pieces 1 hgroups
    rw [← hpieces, List.isChain_map] at hchain
    exact hchain
  case last =>
    intro chunk hchunk
    have hlast : chunk.piece.endLine + 1 = 1 + (lineGroups source maxBytes).flatten.length := by
      refine getLast?_pieces 1 hgroups chunk.piece ?_
      rw [← hpieces, List.getLast?_map]
      exact Option.mem_map_of_mem _ hchunk
    rw [flatten_lineGroups] at hlast
    change chunk.endLine + 1 = _ at hlast
    omega
  case lines =>
    intro chunk hchunk
    have hpiece : chunk.piece ∈ pieces 1 (lineGroups source maxBytes) := by
      rw [← hpieces]
      exact List.mem_map_of_mem hchunk
    obtain ⟨group, hgroup, htext, hend⟩ := exists_group_of_mem_pieces hpiece
    change chunk.text = _ at htext
    change chunk.endLine = chunk.startLine + _ - 1 at hend
    have hpos := List.length_pos_iff.mpr (hgroups group hgroup)
    rw [htext, splitOn_text hgroup]
    omega
  case numbered =>
    intro i hi
    simp [chunkByLines_eq, number]

/-! ## The limit -/

/-- A chunk of several lines is within the limit. -/
def Chunk.WithinLimit (maxBytes : ℤ) (chunk : Chunk) : Prop :=
  1 < (chunk.text.splitOn newline).length → (chunk.text.length : ℤ) ≤ maxBytes

instance (maxBytes : ℤ) (chunk : Chunk) : Decidable (chunk.WithinLimit maxBytes) :=
  inferInstanceAs (Decidable (_ → _))

/-- Whenever the lines after a blank one are carried over to the next chunk, they are within the
limit together with the line that did not fit. -/
def CarriesWithinLimit (maxBytes : ℤ) (source : JsString) : Prop :=
  CarryFits isBlank maxBytes [] (source.splitOn newline)

theorem withinLimit_iff_fits {source : JsString} {maxBytes : ℤ} {group : List JsString}
    (hgroup : group ∈ lineGroups source maxBytes) {chunk : Chunk}
    (h : chunk.text = join newline group) :
    chunk.WithinLimit maxBytes ↔ Fits maxBytes group := by
  have hweight := length_join newline (ne_nil_of_mem_lineGroups hgroup)
  rw [Chunk.WithinLimit, Fits, h, splitOn_text hgroup]
  omega

theorem forall_chunk_iff (source : JsString) (maxBytes : ℤ) :
    (∀ chunk ∈ chunkByLines source maxBytes, chunk.WithinLimit maxBytes) ↔
      ∀ group ∈ lineGroups source maxBytes, Fits maxBytes group := by
  have htext := map_text_chunkByLines source maxBytes
  constructor
  · intro hchunks group hgroup
    have hmem : join newline group ∈ (chunkByLines source maxBytes).map Chunk.text := by
      rw [htext]
      exact List.mem_map_of_mem hgroup
    obtain ⟨chunk, hchunk, hjoin⟩ := List.mem_map.mp hmem
    exact (withinLimit_iff_fits hgroup hjoin).mp (hchunks chunk hchunk)
  · intro hgroups chunk hchunk
    have hmem : chunk.text ∈ (lineGroups source maxBytes).map (join newline) := by
      rw [← htext]
      exact List.mem_map_of_mem hchunk
    obtain ⟨group, hgroup, hjoin⟩ := List.mem_map.mp hmem
    exact (withinLimit_iff_fits hgroup hjoin.symm).mpr (hgroups group hgroup)

/-- The chunks of several lines are within the limit if and only if the carried lines always are. -/
theorem chunks_withinLimit_iff (source : JsString) (maxBytes : ℤ) :
    (∀ chunk ∈ chunkByLines source maxBytes, chunk.WithinLimit maxBytes) ↔
      CarriesWithinLimit maxBytes source := by
  rw [forall_chunk_iff, lineGroups, CarriesWithinLimit]
  split
  case isTrue hsmall =>
    have hweight : (weight (source.splitOn newline) : ℤ) ≤ maxBytes + 1 := by
      have hlength := length_join newline (List.splitOn_ne_nil newline source)
      rw [join_splitOn] at hlength
      omega
    refine iff_of_true (fun group hgroup ↦ ?_)
      (carryFits_of_weight_le isBlank maxBytes _ hweight)
    rw [List.mem_singleton.mp hgroup]
    exact Or.inr hweight
  case isFalse hlarge =>
    exact packed_fits_iff isBlank maxBytes _ (Or.inl (by simp))

/-- A blank line, then two lines of four: the cut behind the blank line carries the first of
them over to the second, and their chunk is longer than the limit of six. -/
theorem carried_chunk_above_limit :
    ¬∀ chunk ∈ chunkByLines (js "\nabcd\nefgh") 6, chunk.WithinLimit 6 := by
  decide +kernel

end Cordyceps.Council
