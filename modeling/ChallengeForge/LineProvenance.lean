import ChallengeForge.ChunkHeadings
import Mathlib.Data.List.GetD

/-!
# The lines of a chunk

The table of line starts has a slot that is not used, and leaves out the line that a
trailing newline would open.  What a binary search finds in it is compared here with
the number of newlines before the offset.

* `SearchEnds.last_start` — the search finds the last line that starts by the offset;
* `countP_lineStarts` — as many lines start by an offset as there are newlines before;
* `line_provenance` — the lines of a chunk are those of its first and last character.
-/

namespace ChallengeForge

/-- The line, counted from 1, that the character at `offset` is in. -/
def lineNumber (text : List Char) (offset : Nat) : Nat :=
  1 + (text.take offset).count '\n'

/-- Later offsets are on later lines. -/
theorem lineNumber_mono (text : List Char) {offset offset' : Nat} (h : offset ≤ offset') :
    lineNumber text offset ≤ lineNumber text offset' := by
  have hsub : (text.take offset).Sublist (text.take offset') :=
    (List.take_prefix_take_left h).sublist
  have hcount := hsub.count_le '\n'
  unfold lineNumber
  omega

/-- No offset is beyond the last line. -/
theorem lineNumber_le (text : List Char) (offset : Nat) :
    lineNumber text offset ≤ text.count '\n' + 1 := by
  have hcount := (List.take_sublist offset text).count_le '\n'
  unfold lineNumber
  omega

/-! ## The search -/

/-- From slot 1 on, the starts are in order. -/
def StartsOrdered (starts : List Nat) : Prop :=
  ∀ i j, 1 ≤ i → i ≤ j → j < starts.length → starts.getD i 0 ≤ starts.getD j 0

/-- No line after `line` starts by `offset`. -/
def NoneAfter (starts : List Nat) (offset line : Nat) : Prop :=
  ∀ i, line < i → i < starts.length → offset < starts.getD i 0

/-- `ans` starts by the offset, and what is left to look at is between it and `hi`. -/
theorem SearchEnds.last_start {starts : List Nat} {offset lo hi ans line : Nat}
    (h : SearchEnds starts offset lo hi ans line) (hordered : StartsOrdered starts)
    (hlo : 1 ≤ lo) (hans : lo ≤ ans + 1) (hpos : 1 ≤ ans) (hlt : ans < starts.length)
    (hstart : starts.getD ans 0 ≤ offset) (hhi : hi < starts.length)
    (hafter : NoneAfter starts offset hi) :
    1 ≤ line ∧ line < starts.length ∧ starts.getD line 0 ≤ offset ∧
      NoneAfter starts offset line := by
  induction h with
  | done hover =>
    refine ⟨hpos, hlt, hstart, ?_⟩
    intro i hi' hlen
    apply hafter i
    · omega
    · exact hlen
  | right hle hmid _ ih =>
    apply ih
    · omega
    · omega
    · omega
    · omega
    · exact hmid
    · exact hhi
    · exact hafter
  | @left lo hi ans line hle hmid _ ih =>
    apply ih hlo hans hpos hlt hstart
    · omega
    · -- the middle starts after the offset, and so does every line from there on
      intro i hi' hlen
      have hfrom : (lo + hi) / 2 ≤ i := by omega
      have hup := hordered _ i (by omega) hfrom hlen
      omega

/-! ## The table -/

/-- The starts after the first, where a newline has something behind it. -/
def laterStarts (text : List Char) : List Nat :=
  (text.zipIdx.filter (fun chi => chi.1 = '\n' ∧ chi.2 + 1 < text.length)).map
    (fun chi => chi.2 + 1)

/-- `line_starts` begins with its unused entry and the first line. -/
theorem lineStarts_eq_cons (text : List Char) : lineStarts text = 0 :: 0 :: laterStarts text := rfl

/-- Later lines begin later. -/
theorem pairwise_laterStarts (text : List Char) : (laterStarts text).Pairwise (· < ·) := by
  have hplaces : (text.zipIdx.map Prod.snd).Pairwise (· < ·) := by
    rw [List.zipIdx_map_snd]
    exact List.pairwise_lt_range'
  rw [List.pairwise_map] at hplaces
  unfold laterStarts
  rw [List.pairwise_map]
  apply List.Pairwise.filter
  apply hplaces.imp
  intro a b hab
  exact Nat.succ_lt_succ hab

/-- So `line_starts` is ordered, as the search needs it. -/
theorem startsOrdered_lineStarts (text : List Char) : StartsOrdered (lineStarts text) := by
  have hle : ((0 : Nat) :: laterStarts text).Pairwise (· ≤ ·) := by
    rw [List.pairwise_cons]
    constructor
    · intro start _
      exact Nat.zero_le start
    · exact (pairwise_laterStarts text).imp Nat.le_of_lt
  intro i j hi hij hj
  rw [lineStarts_eq_cons] at hj ⊢
  obtain ⟨i, rfl⟩ := Nat.exists_eq_add_of_le' hi
  obtain ⟨j, rfl⟩ := Nat.exists_eq_add_of_le' (hi.trans hij)
  rw [List.getD_cons_succ, List.getD_cons_succ]
  have hj' : j < ((0 : Nat) :: laterStarts text).length := Nat.lt_of_succ_lt_succ hj
  have hi' : i < ((0 : Nat) :: laterStarts text).length := by omega
  rw [List.getD_eq_getElem _ _ hi', List.getD_eq_getElem _ _ hj']
  rcases Nat.lt_or_eq_of_le hij with hlt | heq
  · exact List.pairwise_iff_getElem.1 hle i j hi' hj' (by omega)
  · obtain rfl : i = j := by omega
    exact Nat.le_refl _

/-- Newlines at a place before `k + offset`, with the places counted from `k`. -/
theorem countP_zipIdx (text : List Char) (offset k : Nat) :
    (text.zipIdx k).countP (fun chi => chi.1 = '\n' ∧ chi.2 < k + offset) =
      (text.take offset).count '\n' := by
  induction text generalizing offset k with
  | nil => simp
  | cons c text ih =>
    cases offset with
    | zero =>
      rw [List.take_zero, List.count_nil, List.countP_eq_zero]
      intro chi hchi
      have hle := List.le_snd_of_mem_zipIdx hchi
      simp
      omega
    | succ offset =>
      have hrest := ih offset (k + 1)
      rw [List.zipIdx_cons, List.countP_cons, List.take_succ_cons, List.count_cons]
      have hsame : k + 1 + offset = k + (offset + 1) := by omega
      rw [hsame] at hrest
      rw [hrest]
      simp

/-- As many later lines start by the offset of a character as there are newlines
before it: a start that the table leaves out is the end of the text. -/
theorem countP_laterStarts {text : List Char} {offset : Nat} (h : offset < text.length) :
    (laterStarts text).countP (· ≤ offset) = (text.take offset).count '\n' := by
  unfold laterStarts
  rw [List.countP_map, List.countP_filter, ← countP_zipIdx text offset 0]
  apply List.countP_congr
  intro chi _
  simp only [Function.comp, Bool.and_eq_true, decide_eq_true_eq, Nat.zero_add]
  constructor
  · intro hstart
    exact ⟨hstart.2.1, hstart.1⟩
  · intro hbefore
    exact ⟨hbefore.2, hbefore.1, by omega⟩

/-- A list whose first `k` elements are the ones that meet `p` has `k` of them. -/
theorem countP_eq_of_boundary {α : Type} {p : α → Bool} {xs : List α} {k : Nat}
    (hk : k ≤ xs.length) (h : ∀ i (hi : i < xs.length), p xs[i] = true ↔ i < k) :
    xs.countP p = k := by
  have hbelow : ∀ x ∈ xs.take k, p x = true := by
    intro x hx
    obtain ⟨i, hi, rfl⟩ := List.mem_take_iff_getElem.1 hx
    exact (h i (by omega)).2 (by omega)
  have habove : ∀ x ∈ xs.drop k, ¬ p x = true := by
    intro x hx
    obtain ⟨i, hi, rfl⟩ := List.mem_drop_iff_getElem.1 hx
    intro hmeets
    have := (h (k + i) (by omega)).1 hmeets
    omega
  have hsplit : (xs.take k ++ xs.drop k).countP p = k := by
    rw [List.countP_append, List.countP_eq_length.2 hbelow, List.countP_eq_zero.2 habove,
      List.length_take]
    omega
  rwa [List.take_append_drop] at hsplit

/-- The line that the search finds is that of the character at the offset. -/
theorem lineOf_eq_lineNumber {text : List Char} {offset : Nat} (h : offset < text.length) :
    lineOf (lineStarts text) offset = lineNumber text offset := by
  have hordered := startsOrdered_lineStarts text
  have hlen : (lineStarts text).length = (laterStarts text).length + 2 := rfl
  have hlater : ∀ i (hi : i < (laterStarts text).length),
      (lineStarts text).getD (i + 2) 0 = (laterStarts text)[i] := by
    intro i hi
    rw [lineStarts_eq_cons, List.getD_cons_succ, List.getD_cons_succ, List.getD_eq_getElem _ _ hi]
  have hnone : NoneAfter (lineStarts text) offset ((lineStarts text).length - 1) := by
    intro i hi hlt
    omega
  obtain ⟨hpos, hlt, hstart, hafter⟩ := (searchEnds_lineOf (lineStarts text) offset).last_start
    hordered (by omega) (by omega) (by omega) (by omega) (Nat.zero_le offset) (by omega) hnone
  generalize lineOf (lineStarts text) offset = line at hpos hlt hstart hafter ⊢
  obtain ⟨k, rfl⟩ := Nat.exists_eq_add_of_le hpos
  have hcount : (laterStarts text).countP (· ≤ offset) = k := by
    apply countP_eq_of_boundary
    · omega
    · intro i hi
      rw [decide_eq_true_eq, ← hlater i hi]
      constructor
      · intro hle
        by_contra hge
        have := hafter (i + 2) (by omega) (by omega)
        omega
      · intro hik
        have := hordered (i + 2) (1 + k) (by omega) (by omega) hlt
        omega
  rw [lineNumber, ← countP_laterStarts h, hcount]

/-! ## The chunks -/

/-- The lines of a chunk are those of its first and its last character, and the
document has them. -/
structure LinesExact (doc : CanonicalDocument) (chunk : ChunkDraft) : Prop where
  chars : chunk.charStart < chunk.charEnd ∧ chunk.charEnd ≤ doc.text.length
  first_line : chunk.lineStart = lineNumber doc.text chunk.charStart
  last_line : chunk.lineEnd = lineNumber doc.text (chunk.charEnd - 1)
  counted : 1 ≤ chunk.lineStart ∧ chunk.lineStart ≤ chunk.lineEnd ∧ chunk.lineEnd ≤ doc.lineCount

/-- The lines of a chunk are computed from its span. -/
theorem spanLines_of_draftOfGroup {doc : CanonicalDocument} {maxChars ordinal : Nat}
    {first : LogicalUnit} {rest : List LogicalUnit} {chunk : ChunkDraft}
    (h : draftOfGroup doc maxChars ordinal first rest = some chunk) :
    (chunk.lineStart, chunk.lineEnd) = spanLines doc.text chunk.charStart chunk.charEnd := by
  unfold draftOfGroup at h
  dsimp only at h
  split at h
  · cases h
  · cases h
    rfl

/-- A span in the text that is not empty has the lines of its two ends. -/
theorem spanLines_eq {text : List Char} {charStart charEnd : Nat} (hlt : charStart < charEnd)
    (hend : charEnd ≤ text.length) :
    spanLines text charStart charEnd =
      (lineNumber text charStart, lineNumber text (charEnd - 1)) := by
  have hne : text ≠ [] := by
    apply List.ne_nil_of_length_pos
    omega
  have hmax : max charStart (charEnd - 1) = charEnd - 1 := by omega
  rw [spanLines, if_neg hne, hmax, lineOf_eq_lineNumber (by omega),
    lineOf_eq_lineNumber (by omega)]

/-- `line_count` counts the lines of a text. -/
theorem lineCount_of_ne_nil {rawText : List Char} (h : (normalizeToCanonical rawText).text ≠ []) :
    (normalizeToCanonical rawText).lineCount =
      (normalizeToCanonical rawText).text.count '\n' + 1 := if_neg h

/-- The lines of every chunk are those of its span. -/
theorem linesExact_of_mem {rawText : List Char} {maxChars : Nat} {chunks : List ChunkDraft}
    (h : chunkHybrid (normalizeToCanonical rawText) maxChars = .ok chunks) {chunk : ChunkDraft}
    (hchunk : chunk ∈ chunks) : LinesExact (normalizeToCanonical rawText) chunk := by
  obtain ⟨hfold, -, hcover, -⟩ := chunkHybrid_spec h
  have hbounds := hcover.bounds chunk.span (List.mem_map_of_mem hchunk)
  have hlt : chunk.charStart < chunk.charEnd := hbounds.2.1
  have hend : chunk.charEnd ≤ (normalizeToCanonical rawText).text.length := hbounds.2.2
  have hlines : (chunk.lineStart, chunk.lineEnd) =
      spanLines (normalizeToCanonical rawText).text chunk.charStart chunk.charEnd := by
    rw [hfold] at hchunk
    rcases mem_foldl_addChunk hchunk with hnone | ⟨group, -, first, rest, -, hmade⟩
    · cases hnone
    · exact spanLines_of_draftOfGroup hmade
  rw [spanLines_eq hlt hend] at hlines
  obtain ⟨hfirst, hlast⟩ := Prod.mk.inj hlines
  have hne : (normalizeToCanonical rawText).text ≠ [] := by
    apply List.ne_nil_of_length_pos
    omega
  refine ⟨⟨hlt, hend⟩, hfirst, hlast, ?_, ?_, ?_⟩
  · rw [hfirst]
    exact Nat.le_add_right 1 _
  · rw [hfirst, hlast]
    apply lineNumber_mono
    exact Nat.le_sub_one_of_lt hlt
  · rw [hlast, lineCount_of_ne_nil hne]
    exact lineNumber_le _ _

/-- **Line provenance.**  The search finds the line of every offset of every text, and
the chunks of every document have the lines of their ends. -/
theorem line_provenance (text : List Char) {offset : Nat} (hoffset : offset < text.length)
    (rawText : List Char) {maxChars : Nat} (hmax : 1 ≤ maxChars) :
    lineOf (lineStarts text) offset = 1 + (text.take offset).count '\n' ∧
    ∃ chunks, chunkHybrid (normalizeToCanonical rawText) maxChars = .ok chunks ∧
      ∀ chunk ∈ chunks, LinesExact (normalizeToCanonical rawText) chunk := by
  refine ⟨lineOf_eq_lineNumber hoffset, _, if_neg (by omega), ?_⟩
  intro chunk hchunk
  exact linesExact_of_mem (if_neg (by omega)) hchunk

/-- The newline that ends a text is in the line it ends. -/
theorem line_provenance_notes :
    lineOf (lineStarts "a\n\nb\n".toList) 4 = 1 + ("a\n\nb\n".toList.take 4).count '\n' ∧
    ∃ chunks, chunkHybrid (normalizeToCanonical "# a\n\n- b\n- c d\n```\nx".toList) 6 =
        .ok chunks ∧
      ∀ chunk ∈ chunks,
        LinesExact (normalizeToCanonical "# a\n\n- b\n- c d\n```\nx".toList) chunk :=
  line_provenance "a\n\nb\n".toList (by decide) _ (by decide)

end ChallengeForge
