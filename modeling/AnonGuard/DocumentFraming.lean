import AnonGuard.Chunks
import AnonGuard.Transport

/-!
# The frames of a directory document

A document goes over the secure transport as a header frame, which announces its length, and
as chunks of a mebibyte with the rest in the last one. The reader checks the length of every
chunk against what is still missing. It accepts the frames that the writer makes of a document,
and no others.
-/
namespace AnonGuard

/-- `write_document_inner`: the frames that it hands on one by one. -/
def documentFrames (document : Bytes) : Except String (List Bytes) :=
  if document = [] ∨ 6 * MAX_FRAME_LEN < document.length then
    .error "Directory document size out of bounds"
  else .ok (documentHeader document :: document.toChunks MAX_FRAME_LEN)

/-- The loop of `read_document_inner`, with the frames that come. It leaves those that it does
not need. -/
def readChunks (total : ℕ) : Bytes → List Bytes → Except String (Bytes × List Bytes)
  | document, [] =>
    if document.length < total then .error "early eof" else .ok (document, [])
  | document, chunk :: frames =>
    if document.length < total then
      if chunk.length ≠ min MAX_FRAME_LEN (total - document.length) then
        .error "Directory document chunk length mismatch"
      else readChunks total (document ++ chunk) frames
    else .ok (document, chunk :: frames)

/-- `read_document_inner`. -/
def readDocument : List Bytes → Except String (Bytes × List Bytes)
  | [] => .error "early eof"
  | header :: frames =>
    match documentTotal header with
    | .error e => .error e
    | .ok total => readChunks total [] frames

lemma max_frame_len_pos : 0 < MAX_FRAME_LEN := by decide

section Loop
variable {total : ℕ} {document result : Bytes} {frames rest : List Bytes}

/-- The result is the document with what was missing, which is divided into the frames read. -/
def Completes (total : ℕ) (document : Bytes) (frames : List Bytes) (result : Bytes)
    (rest : List Bytes) : Prop :=
  ∃ missing : Bytes, result = document ++ missing ∧ result.length = total ∧
    frames = missing.toChunks MAX_FRAME_LEN ++ rest

/-- Nothing is missing. -/
lemma completes_of_full (h : document.length = total) :
    Completes total document frames result rest ↔ document = result ∧ frames = rest := by
  constructor
  · rintro ⟨missing, rfl, hlen, rfl⟩
    rw [List.length_append] at hlen
    have hnone : missing = [] := List.eq_nil_of_length_eq_zero (by omega)
    simp [hnone, toChunks_nil]
  · rintro ⟨rfl, rfl⟩
    exact ⟨[], by simp, h, by simp [toChunks_nil]⟩

/-- Something is missing: the next frame is the next chunk of it. -/
lemma completes_cons (h : document.length < total) {chunk : Bytes} :
    Completes total document (chunk :: frames) result rest ↔
      chunk.length = min MAX_FRAME_LEN (total - document.length) ∧
        Completes total (document ++ chunk) frames result rest := by
  have hpos := max_frame_len_pos
  constructor
  · rintro ⟨missing, rfl, hlen, hframes⟩
    have hmissing : missing ≠ [] := by
      rintro rfl
      rw [List.append_nil] at hlen
      omega
    rw [toChunks_eq hpos hmissing, List.cons_append] at hframes
    obtain ⟨rfl, rfl⟩ := List.cons.inj hframes
    rw [List.length_append] at hlen
    refine ⟨?_, missing.drop MAX_FRAME_LEN, ?_, ?_, rfl⟩
    · rw [List.length_take]
      omega
    · rw [List.append_assoc, List.take_append_drop]
    · rw [List.length_append]
      exact hlen
  · rintro ⟨hchunk, missing, rfl, hlen, rfl⟩
    refine ⟨chunk ++ missing, by rw [List.append_assoc], hlen, ?_⟩
    have hne : chunk ≠ [] := List.ne_nil_of_length_pos (by omega)
    have hsize : chunk.length = MAX_FRAME_LEN ∨ chunk.length ≤ MAX_FRAME_LEN ∧ missing = [] := by
      rw [List.length_append, List.length_append] at hlen
      rcases Nat.lt_or_ge (total - document.length) MAX_FRAME_LEN with hlast | hfull
      · exact .inr ⟨by omega, List.eq_nil_of_length_eq_zero (by omega)⟩
      · exact .inl (by omega)
    rw [toChunks_append hpos hne hsize, List.cons_append]

/-- The loop takes up exactly the chunks of what is missing. -/
lemma readChunks_eq_ok (hle : document.length ≤ total) :
    readChunks total document frames = .ok (result, rest) ↔
      Completes total document frames result rest := by
  induction frames generalizing document with
  | nil =>
    unfold readChunks
    split_ifs with h
    · refine iff_of_false (by simp) ?_
      rintro ⟨missing, rfl, hlen, hframes⟩
      have hmissing : missing ≠ [] := by
        rintro rfl
        rw [List.append_nil] at hlen
        omega
      have := toChunks_ne_nil max_frame_len_pos hmissing
      simp_all
    · rw [completes_of_full (by omega)]
      simp
  | cons chunk frames ih =>
    unfold readChunks
    split_ifs with h hchunk
    · rw [completes_cons h]
      simp [hchunk]
    · rw [completes_cons h, ih (by rw [List.length_append]; omega)]
      simp [not_not.mp hchunk]
    · rw [completes_of_full (by omega)]
      simp

end Loop

/-- A header is accepted if it is the one that the writer makes for its length. -/
lemma documentTotal_eq_ok {header : Bytes} {total : ℕ} : documentTotal header = .ok total ↔
    header = documentMagic ++ toBe 4 total ∧ 0 < total ∧ total ≤ 6 * MAX_FRAME_LEN := by
  have hmagic : documentMagic.length = 8 := by decide +kernel
  have hbound : 6 * MAX_FRAME_LEN < 256 ^ 4 := by decide
  unfold documentTotal
  dsimp only
  constructor
  · intro h
    split_ifs at h with hmalformed hsize
    cases h
    rw [not_or, not_not, not_not] at hmalformed
    have hlength : (header.drop 8).length = 4 := by rw [List.length_drop, hmalformed.1]
    refine ⟨?_, by omega, by omega⟩
    have htail := toBe_ofBe (header.drop 8)
    rw [hlength] at htail
    rw [htail, ← hmalformed.2, List.take_append_drop]
  · rintro ⟨rfl, hpos, hle⟩
    have hnumber : ofBe ((documentMagic ++ toBe 4 total).drop 8) = total := by
      rw [← hmagic, List.drop_left, ofBe_toBe, Nat.mod_eq_of_lt (by omega)]
    have hwell : ¬ ((documentMagic ++ toBe 4 total).length ≠ 12 ∨
        (documentMagic ++ toBe 4 total).take 8 ≠ documentMagic) := by
      rw [not_or, not_not, not_not, List.length_append, length_toBe, hmagic]
      exact ⟨rfl, by rw [← hmagic, List.take_left]⟩
    rw [if_neg hwell, hnumber, if_neg (by omega)]

/-- The reader accepts a document from exactly the frames that the writer makes of it, and
leaves those behind them. -/
lemma readDocument_eq_ok {frames rest : List Bytes} {document : Bytes} :
    readDocument frames = .ok (document, rest) ↔
      0 < document.length ∧ document.length ≤ 6 * MAX_FRAME_LEN ∧
        frames = documentHeader document :: document.toChunks MAX_FRAME_LEN ++ rest := by
  cases frames with
  | nil => simp [readDocument]
  | cons header frames =>
    have hchunks (total : ℕ) : readChunks total [] frames = .ok (document, rest) ↔
        document.length = total ∧ frames = document.toChunks MAX_FRAME_LEN ++ rest := by
      rw [readChunks_eq_ok (Nat.zero_le total)]
      simp [Completes]
    constructor
    · intro h
      cases htotal : documentTotal header with
      | error => simp [readDocument, htotal] at h
      | ok =>
        simp only [readDocument, htotal, hchunks] at h
        obtain ⟨rfl, rfl⟩ := h
        obtain ⟨rfl, hpos, hle⟩ := documentTotal_eq_ok.mp htotal
        exact ⟨hpos, hle, rfl⟩
    · rintro ⟨hpos, hle, hframes⟩
      rw [List.cons_append] at hframes
      obtain ⟨rfl, rfl⟩ := List.cons.inj hframes
      have htotal : documentTotal (documentHeader document) = .ok document.length :=
        documentTotal_eq_ok.mpr ⟨rfl, hpos, hle⟩
      simp only [readDocument, htotal]
      exact (hchunks _).mpr ⟨rfl, rfl⟩

/-- What the reader accepts is what the writer makes. -/
lemma readDocument_eq_ok_iff {frames : List Bytes} {document : Bytes} :
    readDocument frames = .ok (document, []) ↔ documentFrames document = .ok frames := by
  rw [readDocument_eq_ok, List.append_nil]
  unfold documentFrames
  by_cases hsize : document = [] ∨ 6 * MAX_FRAME_LEN < document.length
  · rw [if_pos hsize]
    refine iff_of_false ?_ (by simp)
    rintro ⟨hpos, hle, -⟩
    rcases hsize with rfl | hlong
    · simp at hpos
    · omega
  · rw [if_neg hsize, not_or, not_lt] at *
    have hpos := List.length_pos_iff.mpr hsize.1
    simp [hpos, hsize.2, eq_comm]

/-- Every document of one octet to six mebibytes comes back from its frames. What is accepted
is a header that announces the length and as many chunks as that takes, all of a mebibyte but
for the last one with the rest. So a document has one framing. -/
theorem document_framing :
    (∀ document : Bytes, 1 ≤ document.length → document.length ≤ 6 * MAX_FRAME_LEN →
      ∃ frames, documentFrames document = .ok frames ∧ readDocument frames = .ok (document, [])) ∧
    (∀ (frames : List Bytes) (document : Bytes), readDocument frames = .ok (document, []) →
      ∃ header chunks, frames = header :: chunks ∧ header.length = 12 ∧
        header = documentMagic ++ toBe 4 document.length ∧ 1 ≤ document.length ∧
        document.length ≤ 6 * MAX_FRAME_LEN ∧ chunks.flatten = document ∧
        chunks.length = (document.length + MAX_FRAME_LEN - 1) / MAX_FRAME_LEN ∧
        ∀ (i : ℕ) (chunk : Bytes), chunks[i]? = some chunk →
          chunk.length = if i + 1 < chunks.length then MAX_FRAME_LEN
            else document.length - i * MAX_FRAME_LEN) ∧
    ∀ (frames frames' : List Bytes) (document : Bytes), readDocument frames = .ok (document, []) →
      readDocument frames' = .ok (document, []) → frames = frames' := by
  refine ⟨fun document hpos hle => ?_, fun frames document h => ?_, fun frames frames' document h h' => ?_⟩
  · exact ⟨_, readDocument_eq_ok_iff.mp (readDocument_eq_ok.mpr ⟨hpos, hle, rfl⟩),
      readDocument_eq_ok.mpr ⟨hpos, hle, rfl⟩⟩
  · obtain ⟨hpos, hle, hframes⟩ := readDocument_eq_ok.mp h
    rw [List.append_nil] at hframes
    have hheader : (documentHeader document).length = 12 := by
      have hmagic : documentMagic.length = 8 := by decide +kernel
      rw [documentHeader, List.length_append, length_toBe, hmagic]
    refine ⟨_, _, hframes, hheader, rfl, hpos, hle, flatten_toChunks max_frame_len_pos document,
      length_toChunks max_frame_len_pos document, fun i chunk hchunk => ?_⟩
    rw [getElem?_toChunks max_frame_len_pos] at hchunk
    split_ifs at hchunk with hi
    cases hchunk
    have hnext := lt_length_toChunks max_frame_len_pos document (i + 1)
    rw [Nat.add_mul, Nat.one_mul] at hnext
    rw [List.length_take, List.length_drop]
    split_ifs with hlast
    · have := hnext.mp hlast
      omega
    · have := fun hlt => hlast (hnext.mpr hlt)
      omega
  · obtain ⟨-, -, rfl⟩ := readDocument_eq_ok.mp h
    obtain ⟨-, -, rfl⟩ := readDocument_eq_ok.mp h'
    rfl

end AnonGuard
