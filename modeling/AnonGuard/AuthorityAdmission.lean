import AnonGuard.AuthorityRelays

/-!
# Proofs of work are admitted once

The registry forgets a nonce 600 seconds after its first use, and it refuses every
admission at a time before its last purge. A proof is fresh for 300 seconds on both
sides of its timestamp, so a proof whose nonce has been forgotten is no longer fresh
at any time that the registry accepts.
-/
namespace AnonGuard

/-- A proof that has been admitted, and when. -/
structure Admission where
  nodeId : String
  timestamp : UInt64
  nonce : UInt64
  time : UInt64

/-- What a proof of work is about. -/
def Admission.proof (a : Admission) : String × UInt64 × UInt64 := (a.nodeId, a.timestamp, a.nonce)

structure AdmissionState where
  registry : NonceRegistry
  admitted : List Admission

/-- One proof at one time, and the difficulty that is asked for. -/
structure AdmissionInput where
  nodeId : String
  timestamp : UInt64
  nonce : UInt64
  difficultyBits : ℕ
  time : UInt64

namespace AdmissionState

def new : AdmissionState := ⟨⟨[], 0⟩, []⟩

/-- `verify_pow`, and then `check_and_record` at the same time. -/
def step (S : IdentityScheme) (s : AdmissionState) (i : AdmissionInput) : Option AdmissionState :=
  if verifyPow S i.nodeId i.timestamp i.nonce i.difficultyBits i.time then
    match s.registry.checkAndRecord i.nodeId i.nonce i.time with
    | (true, registry) => some { s with registry := registry }
    | (false, registry) =>
      some ⟨registry, ⟨i.nodeId, i.timestamp, i.nonce, i.time⟩ :: s.admitted⟩
  else some s

end AdmissionState

section Times
variable {a b : UInt64}

lemma toNat_absDiff : (absDiff a b).toNat = max (a.toNat - b.toNat) (b.toNat - a.toNat) := by
  unfold absDiff
  split_ifs with h
  · rw [UInt64.toNat_sub_of_le _ _ h]
    have := UInt64.le_iff_toNat_le.mp h
    omega
  · have hle : b ≤ a := by grind
    rw [UInt64.toNat_sub_of_le _ _ hle]
    have := UInt64.le_iff_toNat_le.mp hle
    omega

lemma toNat_saturatingSub : (saturatingSub a b).toNat = a.toNat - b.toNat := by
  unfold saturatingSub
  split_ifs with h
  · have := UInt64.le_iff_toNat_le.mp h
    simp only [UInt64.toNat_zero]
    omega
  · have hle : b ≤ a := by grind
    rw [UInt64.toNat_sub_of_le _ _ hle]

/-- A proof that passes is fresh on both sides. -/
lemma fresh_of_verifyPow {S : IdentityScheme} {nodeId : String} {timestamp nonce now : UInt64}
    {difficultyBits : ℕ} (h : verifyPow S nodeId timestamp nonce difficultyBits now = true) :
    now.toNat ≤ timestamp.toNat + 300 ∧ timestamp.toNat ≤ now.toNat + 300 := by
  unfold verifyPow at h
  split_ifs at h with hdrift
  have hle : (absDiff now timestamp).toNat ≤ 300 := by
    rw [UInt64.not_lt, UInt64.le_iff_toNat_le] at hdrift
    exact hdrift
  rw [toNat_absDiff] at hle
  omega

end Times

namespace NonceRegistry
variable {n n' : NonceRegistry} {nodeId : String} {nonce now : UInt64} {refused : Bool}

lemma le_lastPurge_purge (h : n.lastPurge ≤ now) : n.lastPurge ≤ (n.purge now).lastPurge := by
  unfold purge
  split_ifs
  · exact h
  · exact UInt64.le_refl _

/-- A record stays, or the last purge is more than 600 seconds later. -/
lemma kept_or_forgotten {entry : (String × UInt64) × UInt64} (h : entry ∈ n.seen) :
    entry ∈ (n.purge now).seen ∨ entry.2.toNat + 600 < (n.purge now).lastPurge.toNat := by
  unfold purge
  split_ifs
  · by_cases hkeep : saturatingSub now entry.2 ≤ MAX_TIMESTAMP_DRIFT_SECS * 2
    · exact .inl (List.mem_filter.mpr ⟨h, by simpa using hkeep⟩)
    · right
      have hlt : 600 < (saturatingSub now entry.2).toNat := by
        rw [UInt64.not_le, UInt64.lt_iff_toNat_lt] at hkeep
        exact hkeep
      rw [toNat_saturatingSub] at hlt
      dsimp only
      omega
  · exact .inl h

/-- What an admission needs and leaves: it is not before the last purge, the nonce is new
to the purged registry, and it is recorded with the time. -/
lemma checkAndRecord_cases (h : n.checkAndRecord nodeId nonce now = (refused, n')) :
    refused = true ∧ n' = n ∨ n.lastPurge ≤ now ∧
      (refused = true ∧ n' = n.purge now ∨
        refused = false ∧ n' = { n.purge now with
          seen := ((nodeId, nonce), now) :: (n.purge now).seen } ∧
          ∀ entry ∈ (n.purge now).seen, entry.1 ≠ (nodeId, nonce)) := by
  unfold checkAndRecord at h
  split_ifs at h with hname htime
  · cases h
    exact .inl ⟨rfl, rfl⟩
  · cases h
    exact .inl ⟨rfl, rfl⟩
  · rw [UInt64.not_lt] at htime
    dsimp only at h
    split_ifs at h with hseen
    · cases h
      exact .inr ⟨htime, .inl ⟨rfl, rfl⟩⟩
    · cases h
      refine .inr ⟨htime, .inr ⟨rfl, rfl, fun entry hentry heq => hseen ?_⟩⟩
      rw [Bool.or_eq_true]
      exact .inl (List.any_eq_true.mpr ⟨entry, hentry, by simpa using heq⟩)

end NonceRegistry

namespace AdmissionState
variable {S : IdentityScheme} {s s' : AdmissionState} {i : AdmissionInput}

/-- The registry knows an admission, or has forgotten it for good. -/
def Remembers (n : NonceRegistry) (a : Admission) : Prop :=
  ((a.nodeId, a.nonce), a.time) ∈ n.seen ∨ a.time.toNat + 600 < n.lastPurge.toNat

lemma Remembers.purge {n : NonceRegistry} {a : Admission} {now : UInt64} (h : Remembers n a)
    (hnow : n.lastPurge ≤ now) : Remembers (n.purge now) a := by
  rcases h with hseen | hforgotten
  · exact NonceRegistry.kept_or_forgotten hseen
  · have hle := UInt64.le_iff_toNat_le.mp (NonceRegistry.le_lastPurge_purge hnow)
    exact .inr (by omega)

structure Once (s : AdmissionState) : Prop where
  fresh : ∀ a ∈ s.admitted, a.time.toNat ≤ a.timestamp.toNat + 300 ∧
    a.timestamp.toNat ≤ a.time.toNat + 300
  remembered : ∀ a ∈ s.admitted, Remembers s.registry a
  once : (s.admitted.map Admission.proof).Nodup

/-- A fresh proof whose nonce the purged registry does not know was never admitted. -/
lemma Once.proof_notMem (hs : s.Once) {now timestamp nonce : UInt64} {nodeId : String}
    (hpurge : s.registry.lastPurge ≤ now) (hfresh : now.toNat ≤ timestamp.toNat + 300)
    (hnew : ∀ entry ∈ (s.registry.purge now).seen, entry.1 ≠ (nodeId, nonce)) :
    (nodeId, timestamp, nonce) ∉ s.admitted.map Admission.proof := by
  intro hmem
  obtain ⟨a, ha, hproof⟩ := List.mem_map.mp hmem
  obtain ⟨rfl, rfl, rfl⟩ : a.nodeId = nodeId ∧ a.timestamp = timestamp ∧ a.nonce = nonce := by
    simpa [Admission.proof] using hproof
  obtain ⟨-, hold⟩ := hs.fresh a ha
  rcases (hs.remembered a ha).purge hpurge with hseen | hforgotten
  · exact hnew _ hseen rfl
  · -- the registry forgot the nonce at a time when the proof was already stale
    have hlast : (s.registry.purge now).lastPurge ≤ now := by
      unfold NonceRegistry.purge
      split_ifs
      · exact UInt64.le_refl _
      · exact hpurge
    have hle := UInt64.le_iff_toNat_le.mp hlast
    omega

lemma Once.step (hs : s.Once) (h : step S s i = some s') : s'.Once := by
  unfold AdmissionState.step at h
  by_cases hpow : verifyPow S i.nodeId i.timestamp i.nonce i.difficultyBits i.time = true
  · rw [if_pos hpow] at h
    obtain ⟨hfresh, hfresh'⟩ := fresh_of_verifyPow hpow
    rcases hcheck : s.registry.checkAndRecord i.nodeId i.nonce i.time with ⟨refused, registry⟩
    rw [hcheck] at h
    obtain ⟨rfl, rfl⟩ | ⟨hpurge, ⟨rfl, rfl⟩ | ⟨rfl, rfl, hnew⟩⟩ :=
      NonceRegistry.checkAndRecord_cases hcheck
    · cases h
      exact hs
    · cases h
      exact ⟨hs.fresh, fun a ha => (hs.remembered a ha).purge hpurge, hs.once⟩
    · cases h
      refine ⟨?_, ?_, ?_⟩
      · intro a ha
        rcases List.mem_cons.mp ha with rfl | ha
        · exact ⟨hfresh, hfresh'⟩
        · exact hs.fresh a ha
      · intro a ha
        rcases List.mem_cons.mp ha with rfl | ha
        · exact .inl (List.mem_cons_self ..)
        · exact ((hs.remembered a ha).purge hpurge).imp (List.mem_cons_of_mem _) id
      · rw [List.map_cons, List.nodup_cons]
        exact ⟨hs.proof_notMem hpurge hfresh hnew, hs.once⟩
  · rw [if_neg hpow] at h
    cases h
    exact hs

/-- In any sequence of admissions, at any times, no proof is admitted twice. -/
theorem proofs_admitted_once (h : Run (AdmissionState.step S) new s) :
    (s.admitted.map Admission.proof).Nodup :=
  (h.invariant (I := Once) ⟨by simp [new], by simp [new], by simp [new]⟩
    fun _ _ _ hs _ hstep => hs.step hstep).once

/-- The same proof at both ends of its window: it is future-dated at first, the clock goes
on past two purges, and then back a little. -/
def replayedProof : AdmissionState :=
  (runInputs (AdmissionState.step sampleScheme) new
    [⟨"n", 1300, 7, 0, 1000⟩, ⟨"m", 1300, 7, 0, 1595⟩, ⟨"n", 1300, 7, 0, 1600⟩,
      ⟨"n", 1300, 8, 0, 1599⟩, ⟨"n", 1300, 7, 0, 1595⟩]).getD new

theorem replayedProof_admitted_once :
    replayedProof.admitted.map Admission.proof =
        [("n", 1300, 8), ("m", 1300, 7), ("n", 1300, 7)] ∧
      (replayedProof.admitted.map Admission.proof).Nodup :=
  ⟨by decide +kernel, proofs_admitted_once (Run.getD_inputs _)⟩

end AdmissionState

end AnonGuard
