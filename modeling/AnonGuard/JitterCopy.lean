import AnonGuard.Bytes
import AnonGuard.Transition

/-!
# The jittered copy loop

With a jitter engine, `morph_bidirectional_guarded` copies each of the two directions by a loop of
its own. It reads up to 32768 octets, cuts them into shards of random sizes and writes the shards
one after another. A write that fails leaves the inner loop only: what is left of this read is
dropped, and the next read goes on. An octet carries its position in the stream that was read,
so that a gap shows.
-/
namespace AnonGuard

inductive JitterEngine
  | poisson | chaos | rmt | adversarial
  deriving DecidableEq, Repr

/-- The length of the next shard, for what the engine samples. A Lorenz system that has left the
range of floating-point numbers gives the length 0. -/
def JitterEngine.shardLen (len sample : ℕ) : JitterEngine → ℕ
  | poisson => if len ≤ 50 then len else 50 + sample % (min len 1500 - 50 + 1)
  | chaos =>
    if len ≤ 50 then len
    else if sample = 0 then 0
    else 50 + sample % (min 1500 len - 50 + 1)
  | rmt => min (max 16 (min sample 4096)) len
  | adversarial => if len ≤ 64 then len else 64 + sample % (min len 2048 - 64 + 1)

/-- One direction: what was read, what is left of the last read, what was delivered and the
number of octets in writes that succeeded. No code looks at `failed`. -/
structure JitterCopy where
  source : List (UInt8 × ℕ)
  data : List (UInt8 × ℕ)
  delivered : List (UInt8 × ℕ)
  transferred : ℕ
  failed : Bool
  ended : Bool

inductive CopyInput
  | read (bytes : Bytes)
  | readError
  /-- `write_all` of the next shard, which may fail after it has delivered some octets. -/
  | write (sample : ℕ) (failure : Option ℕ)

namespace JitterCopy

def new : JitterCopy where
  source := []
  data := []
  delivered := []
  transferred := 0
  failed := false
  ended := false

def chunk (engine : JitterEngine) (s : JitterCopy) (sample : ℕ) : List (UInt8 × ℕ) :=
  s.data.take (min (engine.shardLen s.data.length sample) s.data.length)

/-- What an input brings to the other side. -/
def sent (engine : JitterEngine) (s : JitterCopy) : CopyInput → List (UInt8 × ℕ)
  | .read _ | .readError => []
  | .write sample none => s.chunk engine sample
  | .write sample (some n) => (s.chunk engine sample).take n

def step (engine : JitterEngine) (s : JitterCopy) : CopyInput → Option JitterCopy
  | .read bytes =>
    if s.ended = false ∧ s.data = [] ∧ bytes.length ≤ 32768 then
      let octets := bytes.zipIdx s.source.length
      some { s with source := s.source ++ octets, data := octets, ended := bytes.isEmpty }
    else none
  | .readError => if s.ended = false ∧ s.data = [] then some { s with ended := true } else none
  | .write sample failure =>
    if s.ended = false ∧ s.data ≠ [] then
      let chunk := s.chunk engine sample
      match failure with
      | none =>
        some { s with
          data := s.data.drop chunk.length
          delivered := s.delivered ++ s.sent engine (.write sample none)
          transferred := s.transferred + chunk.length }
      | some n =>
        if n < chunk.length then
          some { s with
            data := []
            delivered := s.delivered ++ s.sent engine (.write sample (some n))
            failed := true }
        else none
    else none

variable {engine : JitterEngine} {s s' : JitterCopy} {input : CopyInput}

lemma chunk_isPrefix (engine : JitterEngine) (s : JitterCopy) (sample : ℕ) :
    s.chunk engine sample <+: s.data := List.take_prefix _ _

lemma sent_isPrefix (engine : JitterEngine) (s : JitterCopy) (input : CopyInput) :
    s.sent engine input <+: s.data := by
  cases input with
  | read | readError => exact List.nil_prefix
  | write sample failure =>
    cases failure with
    | none => exact chunk_isPrefix engine s sample
    | some n => exact (List.take_prefix n _).trans (chunk_isPrefix engine s sample)

/-- A step reads more, or ends the loop, or writes a whole shard, or fails to. -/
lemma step_cases (h : s.step engine input = some s') :
    s'.delivered = s.delivered ++ s.sent engine input ∧
      ((∃ bytes : Bytes, s.data = [] ∧ s'.source = s.source ++ bytes.zipIdx s.source.length ∧
          s'.data = bytes.zipIdx s.source.length ∧ s'.failed = s.failed) ∨
        (s'.source = s.source ∧ s.data = s.sent engine input ++ s'.data ∧ s'.failed = s.failed) ∨
        (s'.source = s.source ∧ s'.data = [] ∧ s'.failed = true ∧
          (s.sent engine input).length < s.data.length)) := by
  cases input with
  | read bytes =>
    simp only [step] at h
    split_ifs at h with hread
    cases h
    exact ⟨by simp [sent], .inl ⟨bytes, hread.2.1, rfl, rfl, rfl⟩⟩
  | readError =>
    simp only [step] at h
    split_ifs at h
    cases h
    exact ⟨by simp [sent], .inr (.inl ⟨rfl, by simp [sent], rfl⟩)⟩
  | write sample failure =>
    have hchunk := (chunk_isPrefix engine s sample).length_le
    cases failure with
    | none =>
      simp only [step] at h
      split_ifs at h
      cases h
      refine ⟨rfl, .inr (.inl ⟨rfl, ?_, rfl⟩)⟩
      exact List.prefix_iff_eq_append.mp (chunk_isPrefix engine s sample) |>.symm
    | some =>
      simp only [step] at h
      split_ifs at h with _ hn
      cases h
      refine ⟨rfl, .inr (.inr ⟨rfl, rfl, rfl, ?_⟩)⟩
      rw [sent, List.length_take]
      omega

/-- What is left to write is the end of what was read. Until a write fails, it follows on what
was delivered. Afterwards something is missing between the two. -/
structure Aligned (s : JitterCopy) : Prop where
  positions : ∀ (i : ℕ) (x : UInt8 × ℕ), s.source[i]? = some x → x.2 = i
  data_suffix : s.data <:+ s.source
  whole : s.failed = false → s.delivered ++ s.data = s.source
  short : s.failed = true → s.delivered.length + s.data.length < s.source.length

lemma aligned_new : Aligned new where
  positions := by simp [new]
  data_suffix := List.suffix_rfl
  whole := fun _ => rfl
  short := by simp [new]

lemma Aligned.length_le (h : s.Aligned) : s.delivered.length + s.data.length ≤ s.source.length := by
  cases hfailed : s.failed with
  | false => rw [← h.whole hfailed, List.length_append]
  | true => exact (h.short hfailed).le

lemma Aligned.step (h : s.Aligned) (hs : s.step engine input = some s') : s'.Aligned := by
  have hlength := h.length_le
  obtain ⟨hdelivered, ⟨bytes, hdata, hsource, hdata', hfailed⟩ | ⟨hsource, hdata, hfailed⟩ |
    ⟨hsource, hdata', hfailed, hshort⟩⟩ := step_cases hs
  · have hsent : s.sent engine input = [] := List.prefix_nil.mp (hdata ▸ sent_isPrefix engine s input)
    rw [hsent, List.append_nil] at hdelivered
    refine ⟨fun i x hx => ?_, ?_, fun hf => ?_, fun hf => ?_⟩
    · rw [hsource, List.getElem?_append] at hx
      split_ifs at hx with hi
      · exact h.positions i x hx
      · rw [List.getElem?_zipIdx] at hx
        obtain ⟨b, -, rfl⟩ := Option.map_eq_some_iff.mp hx
        show s.source.length + (i - s.source.length) = i
        omega
    · rw [hsource, hdata']
      exact List.suffix_append _ _
    · rw [hdelivered, hdata', hsource, ← h.whole (hfailed ▸ hf), hdata, List.append_nil]
    · have hlost := h.short (hfailed ▸ hf)
      rw [hdelivered, hdata', hsource, List.length_append]
      omega
  · have hparts := congrArg List.length hdata
    rw [List.length_append] at hparts
    refine ⟨hsource ▸ h.positions, ?_, fun hf => ?_, fun hf => ?_⟩
    · rw [hsource]
      exact List.IsSuffix.trans ⟨_, hdata.symm⟩ h.data_suffix
    · rw [hdelivered, List.append_assoc, ← hdata, hsource, h.whole (hfailed ▸ hf)]
    · have hlost := h.short (hfailed ▸ hf)
      rw [hdelivered, hsource, List.length_append]
      omega
  · refine ⟨hsource ▸ h.positions, ?_, fun hf => ?_, fun _ => ?_⟩
    · rw [hdata']
      exact List.nil_suffix
    · rw [hfailed] at hf
      cases hf
    · rw [hdelivered, hdata', hsource, List.length_append, List.length_nil]
      omega

/-- The condition on one input: after a write has failed nothing more is delivered. -/
def Stops (engine : JitterEngine) (s : JitterCopy) (input : CopyInput) : Prop :=
  s.failed = true → s.sent engine input = []

/-- The octets delivered are a beginning of the octets read. -/
def Gapless (s : JitterCopy) : Prop := s.delivered <+: s.source

lemma source_isPrefix (hs : s.step engine input = some s') : s.source <+: s'.source := by
  obtain ⟨-, ⟨bytes, -, hsource, -⟩ | ⟨hsource, -⟩ | ⟨hsource, -⟩⟩ := step_cases hs
  · exact ⟨_, hsource.symm⟩
  · exact hsource ▸ List.prefix_rfl
  · exact hsource ▸ List.prefix_rfl

lemma Gapless.step (h : s.Gapless) (hinv : s.Aligned) (hstops : s.Stops engine input)
    (hs : s.step engine input = some s') : s'.Gapless := by
  have hdelivered := (step_cases hs).1
  suffices hsent : s.delivered ++ s.sent engine input <+: s.source by
    unfold Gapless
    rw [hdelivered]
    exact hsent.trans (source_isPrefix hs)
  cases hfailed : s.failed with
  | false =>
    rw [← hinv.whole hfailed]
    exact (List.prefix_append_right_inj _).mpr (sent_isPrefix engine s input)
  | true =>
    rw [hstops hfailed, List.append_nil]
    exact h

/-- A stream without a gap had none before, and nothing was delivered after a failure. -/
lemma Gapless.of_step (hinv : s.Aligned) (hs : s.step engine input = some s') (h' : s'.Gapless) :
    s.Gapless ∧ s.Stops engine input := by
  have hdelivered := (step_cases hs).1
  unfold Gapless at h'
  rw [hdelivered] at h'
  constructor
  · refine List.prefix_of_prefix_length_le ((List.prefix_append _ _).trans h') (source_isPrefix hs) ?_
    exact (Nat.le_add_right _ _).trans hinv.length_le
  · intro hfailed
    cases hsent : s.sent engine input with
    | nil => rfl
    | cons x =>
      exfalso
      have hlost := hinv.short hfailed
      obtain ⟨tail, hdata⟩ := sent_isPrefix engine s input
      obtain ⟨front, hfront⟩ := hinv.data_suffix
      rw [hsent, List.cons_append] at hdata
      -- The position of the next octet delivered, by what was read and by what was delivered.
      have hread : s.source[front.length]? = some x := by
        rw [← hfront, ← hdata]
        simp
      have hnext : s'.source[s.delivered.length]? = some x := by
        obtain ⟨after, hsource⟩ := h'
        rw [← hsource, hsent]
        simp
      have hposition := hinv.positions _ _ hread
      have hposition' := (hinv.step hs).positions _ _ hnext
      have hlength := congrArg List.length hfront
      rw [List.length_append] at hlength
      omega

end JitterCopy

/-- The two directions of a stream. `aborted` is the branch of the kill switch. -/
structure MorphStream where
  aToB : JitterCopy
  bToA : JitterCopy
  aborted : Bool

inductive MorphInput
  | aToB (input : CopyInput)
  | bToA (input : CopyInput)
  | abort

namespace MorphStream

def new : MorphStream where
  aToB := .new
  bToA := .new
  aborted := false

def step (engine : JitterEngine) (s : MorphStream) (input : MorphInput) : Option MorphStream :=
  if s.aborted then none
  else match input with
    | .aToB input => (s.aToB.step engine input).map fun copy => { s with aToB := copy }
    | .bToA input => (s.bToA.step engine input).map fun copy => { s with bToA := copy }
    | .abort => some { s with aborted := true }

/-- No direction delivers anything after one of its writes has failed. -/
def Stops (engine : JitterEngine) (s : MorphStream) : MorphInput → Prop
  | .aToB input => s.aToB.Stops engine input
  | .bToA input => s.bToA.Stops engine input
  | .abort => True

def Aligned (s : MorphStream) : Prop := s.aToB.Aligned ∧ s.bToA.Aligned

def Gapless (s : MorphStream) : Prop := s.aToB.Gapless ∧ s.bToA.Gapless

variable {engine : JitterEngine} {s s' : MorphStream} {input : MorphInput}

lemma step_cases (h : s.step engine input = some s') :
    (∃ i, input = .aToB i ∧ s.aToB.step engine i = some s'.aToB ∧ s'.bToA = s.bToA) ∨
      (∃ i, input = .bToA i ∧ s.bToA.step engine i = some s'.bToA ∧ s'.aToB = s.aToB) ∨
      (input = .abort ∧ s'.aToB = s.aToB ∧ s'.bToA = s.bToA) := by
  unfold step at h
  split_ifs at h
  cases input with
  | aToB i =>
    obtain ⟨copy, hcopy, rfl⟩ := Option.map_eq_some_iff.mp h
    exact .inl ⟨i, rfl, hcopy, rfl⟩
  | bToA i =>
    obtain ⟨copy, hcopy, rfl⟩ := Option.map_eq_some_iff.mp h
    exact .inr (.inl ⟨i, rfl, hcopy, rfl⟩)
  | abort =>
    cases h
    exact .inr (.inr ⟨rfl, rfl, rfl⟩)

lemma Aligned.step (h : s.Aligned) (hs : s.step engine input = some s') : s'.Aligned := by
  obtain ⟨i, -, hcopy, hother⟩ | ⟨i, -, hcopy, hother⟩ | ⟨-, hcopy, hother⟩ := step_cases hs
  · exact ⟨h.1.step hcopy, hother ▸ h.2⟩
  · exact ⟨hother ▸ h.1, h.2.step hcopy⟩
  · exact ⟨hcopy ▸ h.1, hother ▸ h.2⟩

lemma aligned_of_run (h : Run (step engine) new s) : s.Aligned :=
  h.invariant ⟨JitterCopy.aligned_new, JitterCopy.aligned_new⟩ fun _ _ _ hinv _ hs => hinv.step hs

lemma Gapless.step (h : s.Gapless) (hinv : s.Aligned) (hstops : s.Stops engine input)
    (hs : s.step engine input = some s') : s'.Gapless := by
  obtain ⟨i, rfl, hcopy, hother⟩ | ⟨i, rfl, hcopy, hother⟩ | ⟨-, hcopy, hother⟩ := step_cases hs
  · exact ⟨h.1.step hinv.1 hstops hcopy, hother ▸ h.2⟩
  · exact ⟨hother ▸ h.1, h.2.step hinv.2 hstops hcopy⟩
  · exact ⟨hcopy ▸ h.1, hother ▸ h.2⟩

lemma Gapless.of_step (hinv : s.Aligned) (hs : s.step engine input = some s') (h' : s'.Gapless) :
    s.Gapless ∧ s.Stops engine input := by
  obtain ⟨i, rfl, hcopy, hother⟩ | ⟨i, rfl, hcopy, hother⟩ | ⟨rfl, hcopy, hother⟩ := step_cases hs
  · obtain ⟨hgapless, hstops⟩ := JitterCopy.Gapless.of_step hinv.1 hcopy h'.1
    exact ⟨⟨hgapless, hother ▸ h'.2⟩, hstops⟩
  · obtain ⟨hgapless, hstops⟩ := JitterCopy.Gapless.of_step hinv.2 hcopy h'.2
    exact ⟨⟨hother ▸ h'.1, hgapless⟩, hstops⟩
  · exact ⟨⟨hcopy ▸ h'.1, hother ▸ h'.2⟩, trivial⟩

/-- In both directions the octets delivered are a beginning of the octets read exactly if
nothing was delivered after a failed write. -/
theorem gapless_iff_stops (h : Run (step engine) new s) :
    (s.aToB.delivered <+: s.aToB.source ∧ s.bToA.delivered <+: s.bToA.source) ↔
      GuardedRun (step engine) (Stops engine) new s := by
  constructor
  · intro hgapless
    induction h with
    | start => exact .start
    | step hrun _ hs ih =>
      obtain ⟨hbefore, hstops⟩ := Gapless.of_step (aligned_of_run hrun) hs hgapless
      exact .step (ih hbefore) hstops hs
  · intro hrun
    suffices hinv : s.Aligned ∧ s.Gapless from hinv.2
    refine hrun.invariant (I := fun s => s.Aligned ∧ s.Gapless) ?_ fun s i s' hinv hstops hs => ?_
    · exact ⟨⟨JitterCopy.aligned_new, JitterCopy.aligned_new⟩, List.prefix_rfl, List.prefix_rfl⟩
    · exact ⟨hinv.1.step hs, hinv.2.step hinv.1 hstops hs⟩

/-- The last write of the stream fails in the middle. -/
theorem lastWrite_fails_gapless : ∃ s,
    runInputs (step .poisson) new [.aToB (.read [1, 2]), .aToB (.write 0 none), .aToB (.read [3, 4]),
      .aToB (.write 0 (some 1)), .aToB (.read [])] = some s ∧
      s.aToB.delivered = [(1, 0), (2, 1), (3, 2)] ∧
      GuardedRun (step .poisson) (Stops .poisson) new s := by
  have hlook : (runInputs (step .poisson) new [.aToB (.read [1, 2]), .aToB (.write 0 none),
      .aToB (.read [3, 4]), .aToB (.write 0 (some 1)), .aToB (.read [])]).map
        (fun s => (s.aToB.delivered, s.aToB.source, s.bToA.delivered, s.bToA.source)) =
      some ([(1, 0), (2, 1), (3, 2)], [(1, 0), (2, 1), (3, 2), (4, 3)], [], []) := rfl
  obtain ⟨s, hs, hview⟩ := Option.map_eq_some_iff.mp hlook
  obtain ⟨hdelivered, hsource, hdelivered', hsource'⟩ :
      s.aToB.delivered = _ ∧ s.aToB.source = _ ∧ s.bToA.delivered = _ ∧ s.bToA.source = _ := by
    simpa using hview
  refine ⟨s, hs, hdelivered, (gapless_iff_stops (Run.of_inputs _ hs)).mp ?_⟩
  rw [hdelivered, hsource, hdelivered', hsource']
  decide

/-- The first write fails, and the write after the next read succeeds. -/
theorem recovered_write_leaves_gap : ∃ s,
    runInputs (step .poisson) new [.aToB (.read [1, 2]), .aToB (.write 0 (some 0)),
      .aToB (.read [3, 4]), .aToB (.write 0 none)] = some s ∧
      s.aToB.delivered = [(3, 2), (4, 3)] ∧ s.aToB.source = [(1, 0), (2, 1), (3, 2), (4, 3)] ∧
      ¬ (s.aToB.delivered <+: s.aToB.source) := by
  have hlook : (runInputs (step .poisson) new [.aToB (.read [1, 2]), .aToB (.write 0 (some 0)),
      .aToB (.read [3, 4]), .aToB (.write 0 none)]).map
        (fun s => (s.aToB.delivered, s.aToB.source)) =
      some ([(3, 2), (4, 3)], [(1, 0), (2, 1), (3, 2), (4, 3)]) := rfl
  obtain ⟨s, hs, hview⟩ := Option.map_eq_some_iff.mp hlook
  obtain ⟨hdelivered, hsource⟩ : s.aToB.delivered = _ ∧ s.aToB.source = _ := by simpa using hview
  refine ⟨s, hs, hdelivered, hsource, ?_⟩
  rw [hdelivered, hsource]
  decide

end MorphStream

end AnonGuard
