import AnonGuard.SessionCache

/-!
# Reclaiming the slots of the session cache

A call of `get_or_start` goes over all slots under the lock of the map. It keeps a slot with a
session that is alive, and a slot without a result that some call holds. It reads the result
first and then the number of holders. Nothing else that happens to a slot takes the lock:
between the two reads an initialiser may complete and its call may leave.
-/
namespace AnonGuard

def SlotCell.hasSession : SlotCell → Bool
  | done (.ok _) => true
  | empty | running | done (.error _) => false

/-- A call of `get_or_start`. -/
structure CacheCall where
  key : Bytes
  phase : RequestPhase

/-- The call that holds the lock, the next slot that it looks at, and whether it has found that
slot without a result. -/
structure Sweep where
  call : ℕ
  next : ℕ
  counting : Bool

/-- The map, every slot that was ever made, every call, the number of sessions that were
started, and which of them are alive. -/
structure SessionCache where
  maximum : ℕ
  entries : List (Bytes × ℕ)
  slots : List CacheSlot
  calls : List CacheCall
  sessions : ℕ
  alive : ℕ → Bool
  lock : Option Sweep

inductive CacheInput
  | call (key : Bytes)
  | lock (call : ℕ)
  /-- `slot.get()` and what follows from a result. -/
  | look
  /-- `Arc::strong_count(slot) > 1`, the map itself being one holder. -/
  | tally
  | reserve
  | start (call : ℕ)
  | finish (call : ℕ) (error : Option String)
  | observe (call : ℕ)
  | cancel (call : ℕ)
  | expire (dead : ℕ → Bool)

namespace SessionCache

def new (maximum : ℕ) (alive : ℕ → Bool) : SessionCache where
  maximum := maximum
  entries := []
  slots := []
  calls := []
  sessions := 0
  alive := alive
  lock := none

def setPhase (s : SessionCache) (i : ℕ) (c : CacheCall) (phase : RequestPhase) : SessionCache :=
  { s with calls := s.calls.set i { c with phase := phase } }

def setCell (s : SessionCache) (j : ℕ) (slot : CacheSlot) (cell : SlotCell) : SessionCache :=
  { s with slots := s.slots.set j { slot with cell := cell } }

/-- Some call has a clone of the slot. -/
def held (s : SessionCache) (j : ℕ) : Bool := s.calls.any (·.phase.holds j)

/-- The slot is kept. -/
def keep (s : SessionCache) (sweep : Sweep) : SessionCache :=
  { s with lock := some { sweep with next := sweep.next + 1, counting := false } }

/-- The slot is taken out of the map. -/
def remove (s : SessionCache) (sweep : Sweep) : SessionCache :=
  { s with
    entries := s.entries.eraseIdx sweep.next
    lock := some { sweep with counting := false } }

/-- The result of the next slot. -/
def look (s : SessionCache) (sweep : Sweep) (j : ℕ) : SessionCache :=
  match s.slots[j]? with
  | some ⟨_, .done (.ok session)⟩ => if s.alive session then s.keep sweep else s.remove sweep
  | some ⟨_, .done (.error _)⟩ => s.remove sweep
  | _ => { s with lock := some { sweep with counting := true } }

/-- A new slot in the map, for a key that has none. -/
def extend (s : SessionCache) (key : Bytes) : SessionCache :=
  { s with
    entries := s.entries ++ [(key, s.slots.length)]
    slots := s.slots ++ [⟨key, .empty⟩] }

/-- The call gets the slot of its key, or a new one, or an error. -/
def reserve (s : SessionCache) (i : ℕ) (c : CacheCall) : SessionCache :=
  let s := { s with lock := none }
  match s.entries.find? (·.1 = c.key) with
  | some entry => s.setPhase i c (.waiting entry.2)
  | none =>
    if s.maximum ≤ s.entries.length then s.setPhase i c (.failed "Privacy context limit reached")
    else (s.extend c.key).setPhase i c (.waiting s.slots.length)

/-- The result of an initialiser. The call then takes it out of the slot like the others. -/
def finish (s : SessionCache) (i : ℕ) (c : CacheCall) (j : ℕ) (slot : CacheSlot) :
    Option String → SessionCache
  | none =>
    let session := s.sessions
    let s := { s with sessions := s.sessions + 1 }
    (s.setCell j slot (.done (.ok session))).setPhase i c (.waiting j)
  | some error => (s.setCell j slot (.done (.error error))).setPhase i c (.waiting j)

/-- A call is dropped. An initialiser is dropped with it. -/
def cancel (s : SessionCache) (i : ℕ) (c : CacheCall) : Option SessionCache :=
  match c.phase with
  | .arrived =>
    -- Nothing waits under the lock.
    if s.lock.any (·.call = i) then none else some (s.setPhase i c .cancelled)
  | .waiting _ => some (s.setPhase i c .cancelled)
  | .starting j => (s.slots[j]?).map fun slot => (s.setCell j slot .empty).setPhase i c .cancelled
  | .served _ | .failed _ | .cancelled => none

def step (s : SessionCache) : CacheInput → Option SessionCache
  | .call key => some { s with calls := s.calls ++ [⟨key, .arrived⟩] }
  | .lock i =>
    match s.lock, s.calls[i]? with
    | none, some ⟨_, .arrived⟩ => some { s with lock := some ⟨i, 0, false⟩ }
    | _, _ => none
  | .look =>
    match s.lock with
    | some ⟨i, n, false⟩ => (s.entries[n]?).map fun entry => s.look ⟨i, n, false⟩ entry.2
    | _ => none
  | .tally =>
    match s.lock with
    | some ⟨i, n, true⟩ => (s.entries[n]?).map fun entry =>
        if s.held entry.2 then s.keep ⟨i, n, true⟩ else s.remove ⟨i, n, true⟩
    | _ => none
  | .reserve =>
    match s.lock with
    | some ⟨i, n, false⟩ =>
      if s.entries.length ≤ n then (s.calls[i]?).map fun c => s.reserve i c else none
    | _ => none
  | .start i =>
    match s.calls[i]? with
    | some ⟨key, .waiting j⟩ =>
      match s.slots[j]? with
      | some ⟨label, .empty⟩ => some
          ((s.setCell j ⟨label, .empty⟩ .running).setPhase i ⟨key, .waiting j⟩ (.starting j))
      | _ => none
    | _ => none
  | .finish i error =>
    match s.calls[i]? with
    | some ⟨key, .starting j⟩ =>
      (s.slots[j]?).map fun slot => s.finish i ⟨key, .starting j⟩ j slot error
    | _ => none
  | .observe i =>
    match s.calls[i]? with
    | some ⟨key, .waiting j⟩ =>
      match s.slots[j]? with
      | some ⟨_, .done result⟩ => some (s.setPhase i ⟨key, .waiting j⟩ (.ofResult result))
      | _ => none
    | _ => none
  | .cancel i => (s.calls[i]?).bind (s.cancel i)
  | .expire dead => some { s with alive := fun session => s.alive session && !dead session }

/-- A lookup counts the holders of a slot in which it has found no result, and by now a session is
in it. -/
def disturbed (s : SessionCache) : CacheInput → Bool
  | .tally =>
    let slot := do
      let sweep ← s.lock
      let entry ← s.entries[sweep.next]?
      s.slots[entry.2]?
    slot.any (·.cell.hasSession)
  | _ => false

variable {s s' : SessionCache} {i j : ℕ} {c : CacheCall} {slot : CacheSlot} {cell : SlotCell}
  {key : Bytes} {entry : Bytes × ℕ}

/-- The slot was made for this key and has this content. -/
def HasCell (s : SessionCache) (j : ℕ) (key : Bytes) (cell : SlotCell) : Prop :=
  s.slots[j]? = some ⟨key, cell⟩

lemma HasCell.unique {key key' : Bytes} {cell' : SlotCell} (h : s.HasCell j key cell)
    (h' : s.HasCell j key' cell') : key = key' ∧ cell = cell' := by
  have heq := Option.some.inj (h.symm.trans h')
  exact CacheSlot.mk.inj heq

lemma hasCell_setCell (hslot : s.slots[j]? = some slot) {n : ℕ} {cell' : SlotCell} :
    (s.setCell j slot cell).HasCell n key cell' ↔
      n = j ∧ key = slot.key ∧ cell' = cell ∨ n ≠ j ∧ s.HasCell n key cell' := by
  have hj : j < s.slots.length := (List.getElem?_eq_some_iff.mp hslot).1
  by_cases hn : n = j
  · subst hn
    simp [HasCell, setCell, hj, eq_comm]
  · simp [HasCell, setCell, hn, Ne.symm hn]

/-- What the phase of a call says about the slots. -/
def Fits (s : SessionCache) (key : Bytes) : RequestPhase → Prop
  | .waiting j => ∃ cell, s.HasCell j key cell ∧ ((∀ result, cell ≠ .done result) → (key, j) ∈ s.entries)
  | .starting j => s.HasCell j key .running ∧ (key, j) ∈ s.entries
  | .served session => ∃ j, s.HasCell j key (.done (.ok session))
  | .arrived | .failed _ | .cancelled => True

/-- What holds of a cache at all times. -/
structure Sound (s : SessionCache) : Prop where
  keys : (s.entries.map Prod.fst).Nodup
  made : ∀ entry ∈ s.entries, ∃ cell, s.HasCell entry.2 entry.1 cell
  fits : ∀ (i : ℕ) (c : CacheCall), s.calls[i]? = some c → s.Fits c.key c.phase
  single : ∀ (i i' : ℕ) (c c' : CacheCall) (j : ℕ), s.calls[i]? = some c →
    s.calls[i']? = some c' → c.phase = .starting j → c'.phase = .starting j → i = i'
  numbered : ∀ j key session, s.HasCell j key (.done (.ok session)) → session < s.sessions ∧
    ∀ j' key', s.HasCell j' key' (.done (.ok session)) → j' = j
  bounded : s.entries.length ≤ s.maximum

/-- A session that is alive is in the map. -/
def Kept (s : SessionCache) : Prop :=
  ∀ j key session, s.HasCell j key (.done (.ok session)) → s.alive session = true →
    (key, j) ∈ s.entries

lemma sound_new (maximum : ℕ) (alive : ℕ → Bool) : (new maximum alive).Sound where
  keys := .nil
  made _ h := by cases h
  fits _ _ h := by cases h
  single _ _ _ _ _ h := by cases h
  numbered _ _ _ h := by cases h
  bounded := Nat.zero_le _

lemma kept_new (maximum : ℕ) (alive : ℕ → Bool) : (new maximum alive).Kept := by
  intro j key session h
  cases h

/-- A call goes over into a phase that fits, and does not start what another one has started. -/
lemma Sound.setPhase (h : s.Sound) {phase : RequestPhase} (hfits : s.Fits c.key phase)
    (hsingle : ∀ j, phase = .starting j → ∀ (i' : ℕ) (c' : CacheCall), s.calls[i']? = some c' → i' ≠ i →
      c'.phase ≠ .starting j) : (s.setPhase i c phase).Sound := by
  have hcalls : ∀ (i' : ℕ) (c' : CacheCall), (s.setPhase i c phase).calls[i']? = some c' →
      i' = i ∧ c' = { c with phase := phase } ∨ i' ≠ i ∧ s.calls[i']? = some c' := by
    intro i' c' hc'
    simp only [SessionCache.setPhase, List.getElem?_set] at hc'
    split_ifs at hc' with hi
    · exact .inl ⟨hi.symm, (Option.some.inj hc').symm⟩
    · exact .inr ⟨Ne.symm hi, hc'⟩
  refine ⟨h.keys, h.made, fun i' c' hc' => ?_, fun i' i'' c' c'' j hc' hc'' hp' hp'' => ?_, h.numbered,
    h.bounded⟩
  · rcases hcalls i' c' hc' with ⟨-, rfl⟩ | ⟨-, hold⟩
    · exact hfits
    · exact h.fits i' c' hold
  · rcases hcalls i' c' hc' with ⟨rfl, rfl⟩ | ⟨hne', hold'⟩ <;>
      rcases hcalls i'' c'' hc'' with ⟨rfl, rfl⟩ | ⟨hne'', hold''⟩
    · rfl
    · exact absurd hp'' (hsingle j hp' i'' c'' hold'' hne'')
    · exact absurd hp' (hsingle j hp'' i' c' hold' hne')
    · exact h.single i' i'' c' c'' j hold' hold'' hp' hp''

/-- A slot goes out of the map that nobody holds, or that has a result. -/
lemma Sound.remove (h : s.Sound) {sweep : Sweep} (hentry : s.entries[sweep.next]? = some entry)
    (hfree : s.held entry.2 = true → ∃ result, s.HasCell entry.2 entry.1 (.done result)) :
    (s.remove sweep).Sound := by
  have hsub : (s.remove sweep).entries.Sublist s.entries := List.eraseIdx_sublist ..
  have hstays : ∀ e ∈ s.entries, e ≠ entry → e ∈ (s.remove sweep).entries := by
    intro e he hne
    obtain ⟨hnext, rfl⟩ := List.getElem?_eq_some_iff.mp hentry
    have hmem := (List.getElem_cons_eraseIdx_perm hnext).mem_iff.mpr he
    exact (List.mem_cons.mp hmem).resolve_left hne
  have hneeded : ∀ (i : ℕ) (c : CacheCall) (j : ℕ) (cell : SlotCell), s.calls[i]? = some c →
      c.phase.holds j = true → s.HasCell j c.key cell → (∀ result, cell ≠ .done result) →
      (c.key, j) ≠ entry := by
    rintro i c j cell hc hholds hcell hopen rfl
    obtain ⟨result, hdone⟩ := hfree (List.any_eq_true.mpr ⟨c, List.mem_of_getElem? hc, hholds⟩)
    exact hopen result (hcell.unique hdone).2
  refine ⟨h.keys.sublist (hsub.map _), fun e he => h.made e (hsub.subset he), fun i c hc => ?_,
    h.single, h.numbered, hsub.length_le.trans h.bounded⟩
  have hfits := h.fits i c hc
  cases hphase : c.phase with
  | waiting j =>
    rw [hphase] at hfits
    obtain ⟨cell, hcell, hin⟩ := hfits
    refine ⟨cell, hcell, fun hopen => hstays _ (hin hopen) ?_⟩
    exact hneeded i c j cell hc (by simp [hphase, RequestPhase.holds]) hcell hopen
  | starting j =>
    rw [hphase] at hfits
    refine ⟨hfits.1, hstays _ hfits.2 ?_⟩
    exact hneeded i c j .running hc (by simp [hphase, RequestPhase.holds]) hfits.1 (by simp)
  | served =>
    rw [hphase] at hfits
    exact hfits
  | arrived | failed | cancelled => trivial

/-- The content of an open slot changes that no call has started. -/
lemma Sound.setCell (h : s.Sound) (hslot : s.slots[j]? = some slot)
    (hopen : ∀ result, slot.cell ≠ .done result)
    (hidle : ∀ (i : ℕ) (c : CacheCall), s.calls[i]? = some c → c.phase ≠ .starting j)
    (hnumber : ∀ session, cell = .done (.ok session) → session < s.sessions ∧
      ∀ j' key, ¬ s.HasCell j' key (.done (.ok session))) : (s.setCell j slot cell).Sound := by
  have hold : s.HasCell j slot.key slot.cell := hslot
  refine ⟨h.keys, fun entry hentry => ?_, fun i c hc => ?_, h.single, fun n key session hn => ?_,
    h.bounded⟩
  · obtain ⟨cell', hcell'⟩ := h.made entry hentry
    by_cases hj : entry.2 = j
    · exact ⟨cell, (hasCell_setCell hslot).mpr (.inl ⟨hj, ((hj ▸ hcell').unique hold).1, rfl⟩)⟩
    · exact ⟨cell', (hasCell_setCell hslot).mpr (.inr ⟨hj, hcell'⟩)⟩
  · have hfits := h.fits i c hc
    cases hphase : c.phase with
    | waiting n =>
      rw [hphase] at hfits
      obtain ⟨cell', hcell', hin⟩ := hfits
      by_cases hj : n = j
      · subst hj
        obtain ⟨hkey, rfl⟩ := hcell'.unique hold
        exact ⟨cell, (hasCell_setCell hslot).mpr (.inl ⟨rfl, hkey, rfl⟩), fun _ => hin hopen⟩
      · exact ⟨cell', (hasCell_setCell hslot).mpr (.inr ⟨hj, hcell'⟩), hin⟩
    | starting n =>
      rw [hphase] at hfits
      have hj : n ≠ j := fun hj => hidle i c hc (hj ▸ hphase)
      exact ⟨(hasCell_setCell hslot).mpr (.inr ⟨hj, hfits.1⟩), hfits.2⟩
    | served =>
      rw [hphase] at hfits
      obtain ⟨n, hn⟩ := hfits
      have hj : n ≠ j := fun hj => hopen _ ((hj ▸ hold).unique hn).2
      exact ⟨n, (hasCell_setCell hslot).mpr (.inr ⟨hj, hn⟩)⟩
    | arrived | failed | cancelled => trivial
  · rcases (hasCell_setCell hslot).mp hn with ⟨rfl, -, hcell⟩ | ⟨hj, hn⟩
    · obtain ⟨hlt, hfresh⟩ := hnumber session hcell.symm
      refine ⟨hlt, fun j' key' hj' => ?_⟩
      rcases (hasCell_setCell hslot).mp hj' with ⟨hj, -⟩ | ⟨-, hj'⟩
      · exact hj
      · exact absurd hj' (hfresh j' key')
    · obtain ⟨hlt, hunique⟩ := h.numbered n key session hn
      refine ⟨hlt, fun j' key' hj' => ?_⟩
      rcases (hasCell_setCell hslot).mp hj' with ⟨-, -, hcell⟩ | ⟨-, hj'⟩
      · exact absurd hn ((hnumber session hcell.symm).2 n key)
      · exact hunique j' key' hj'

/-- The content of an open slot changes together with the phase of a call, the only one that may
have started the slot. -/
lemma Sound.update (h : s.Sound) {phase : RequestPhase}
    (hslot : s.slots[j]? = some slot) (hopen : ∀ result, slot.cell ≠ .done result)
    (hother : ∀ (i' : ℕ) (c' : CacheCall), s.calls[i']? = some c' → i' ≠ i → c'.phase ≠ .starting j)
    (hfits : (s.setCell j slot cell).Fits c.key phase) (hstart : ∀ j', phase = .starting j' → j' = j)
    (hnumber : ∀ session, cell = .done (.ok session) → session < s.sessions ∧
      ∀ j' key, ¬ s.HasCell j' key (.done (.ok session))) :
    ((s.setCell j slot cell).setPhase i c phase).Sound := by
  -- The call lets go of the slot first, so that nobody has started it when its content changes.
  have hlet : (s.setPhase i c .cancelled).Sound := h.setPhase trivial (fun _ hstarting => by cases hstarting)
  have hidle : ∀ (i' : ℕ) (c' : CacheCall), (s.setPhase i c .cancelled).calls[i']? = some c' →
      c'.phase ≠ .starting j := by
    intro i' c' hc'
    simp only [SessionCache.setPhase, List.getElem?_set] at hc'
    split_ifs at hc' with hi
    · cases hc'
      simp
    · exact hother i' c' hc' (Ne.symm hi)
  have hset : (((s.setPhase i c .cancelled).setCell j slot cell).setPhase i c phase).Sound := by
    refine (hlet.setCell hslot hopen hidle hnumber).setPhase hfits fun j' hj' i' c' hc' _ => ?_
    rw [hstart j' hj']
    exact hidle i' c' hc'
  simpa [SessionCache.setPhase, SessionCache.setCell] using hset

lemma hasCell_extend {key key' : Bytes} {n : ℕ} : (s.extend key).HasCell n key' cell ↔
    n = s.slots.length ∧ key' = key ∧ cell = .empty ∨ s.HasCell n key' cell := by
  unfold HasCell extend
  rw [List.getElem?_append]
  split_ifs with hn
  · simp [hn.ne]
  · have hnone : s.slots[n]? = none := List.getElem?_eq_none (not_lt.mp hn)
    rw [hnone]
    by_cases hlast : n = s.slots.length
    · subst hlast
      simp [eq_comm]
    · have hbeyond : n - s.slots.length ≠ 0 := by omega
      simp [hlast, hbeyond]

lemma Sound.extend (h : s.Sound) (hkey : ∀ entry ∈ s.entries, entry.1 ≠ key)
    (hroom : s.entries.length < s.maximum) : (s.extend key).Sound := by
  have hsub : ∀ entry ∈ s.entries, entry ∈ (s.extend key).entries := fun entry he =>
    List.mem_append_left _ he
  refine ⟨?_, fun entry hentry => ?_, fun i c hc => ?_, h.single, fun n key' session hn => ?_, ?_⟩
  · simpa [SessionCache.extend, List.nodup_append] using
      ⟨h.keys, fun a n hmem => hkey (a, n) hmem⟩
  · rcases List.mem_append.mp hentry with hentry | hentry
    · obtain ⟨cell, hcell⟩ := h.made entry hentry
      exact ⟨cell, hasCell_extend.mpr (.inr hcell)⟩
    · rw [List.mem_singleton.mp hentry]
      exact ⟨.empty, hasCell_extend.mpr (.inl ⟨rfl, rfl, rfl⟩)⟩
  · have hfits := h.fits i c hc
    cases hphase : c.phase with
    | waiting =>
      rw [hphase] at hfits
      obtain ⟨cell, hcell, hin⟩ := hfits
      exact ⟨cell, hasCell_extend.mpr (.inr hcell), fun hopen => hsub _ (hin hopen)⟩
    | starting =>
      rw [hphase] at hfits
      exact ⟨hasCell_extend.mpr (.inr hfits.1), hsub _ hfits.2⟩
    | served =>
      rw [hphase] at hfits
      obtain ⟨n, hn⟩ := hfits
      exact ⟨n, hasCell_extend.mpr (.inr hn)⟩
    | arrived | failed | cancelled => trivial
  · have hdone {n : ℕ} {key' : Bytes} (hn : (s.extend key).HasCell n key' (.done (.ok session))) :
        s.HasCell n key' (.done (.ok session)) :=
      (hasCell_extend.mp hn).resolve_left (by simp)
    obtain ⟨hlt, hunique⟩ := h.numbered n key' session (hdone hn)
    exact ⟨hlt, fun j' key'' hj' => hunique j' key'' (hdone hj')⟩
  · simpa [SessionCache.extend] using hroom

lemma Kept.extend (h : s.Kept) (key : Bytes) : (s.extend key).Kept := by
  intro n key' session hn halive
  have hold := (hasCell_extend.mp hn).resolve_left (by simp)
  exact List.mem_append_left _ (h n key' session hold halive)

/-- A result in a slot of the map. -/
lemma Kept.setCell (h : s.Kept) (hslot : s.slots[j]? = some slot) (hin : (slot.key, j) ∈ s.entries) :
    (s.setCell j slot cell).Kept := by
  intro n key session hn halive
  rcases (hasCell_setCell hslot).mp hn with ⟨rfl, rfl, -⟩ | ⟨-, hn⟩
  · exact hin
  · exact h n key session hn halive

/-- A slot goes out of the map whose session is not alive. -/
lemma Kept.remove (h : s.Kept) {sweep : Sweep} (hentry : s.entries[sweep.next]? = some entry)
    (hdead : ∀ session, s.HasCell entry.2 entry.1 (.done (.ok session)) → s.alive session = false) :
    (s.remove sweep).Kept := by
  intro n key session hn halive
  have hmem := h n key session hn halive
  obtain ⟨hnext, rfl⟩ := List.getElem?_eq_some_iff.mp hentry
  rcases List.mem_cons.mp ((List.getElem_cons_eraseIdx_perm hnext).mem_iff.mpr hmem) with heq | hstays
  · have hfalse := hdead session (by rw [← heq]; exact hn)
    exact absurd (hfalse.symm.trans halive) (by simp)
  · exact hstays

/-- The call at the end of a sweep gets a slot of its key, or an error. -/
lemma reserve_keeps (h : s.Sound) (i : ℕ) (c : CacheCall) :
    (s.reserve i c).Sound ∧ (s.Kept → (s.reserve i c).Kept) := by
  have hfree : Sound { s with lock := none } := ⟨h.keys, h.made, h.fits, h.single, h.numbered, h.bounded⟩
  have hwaiting {phase : RequestPhase} (hphase : ∀ j, phase ≠ .starting j) : ∀ j, phase = .starting j →
      ∀ (i' : ℕ) (c' : CacheCall), s.calls[i']? = some c' → i' ≠ i → c'.phase ≠ .starting j :=
    fun j hj => absurd hj (hphase j)
  unfold reserve
  dsimp only
  split
  · rename_i entry hfind
    have hmem : entry ∈ s.entries := List.mem_of_find?_eq_some hfind
    have hkey : entry.1 = c.key := by simpa using List.find?_some hfind
    obtain ⟨cell, hcell⟩ := h.made entry hmem
    refine ⟨hfree.setPhase ⟨cell, hkey ▸ hcell, fun _ => hkey ▸ hmem⟩ (hwaiting (by simp)),
      fun hkept => hkept⟩
  · rename_i hfind
    split_ifs with hfull
    · exact ⟨hfree.setPhase trivial (hwaiting (by simp)), fun hkept => hkept⟩
    · have hkey : ∀ entry ∈ s.entries, entry.1 ≠ c.key := by
        intro entry hentry
        simpa using List.find?_eq_none.mp hfind entry hentry
      have hextended : Sound (extend { s with lock := none } c.key) :=
        hfree.extend hkey (not_le.mp hfull)
      have hcell : (extend { s with lock := none } c.key).HasCell s.slots.length c.key .empty :=
        hasCell_extend.mpr (.inl ⟨rfl, rfl, rfl⟩)
      refine ⟨hextended.setPhase ⟨.empty, hcell, fun _ => ?_⟩ (hwaiting (by simp)),
        fun hkept => Kept.extend (s := { s with lock := none }) hkept c.key⟩
      simp [SessionCache.extend]

/-- What the reads of a sweep decide. -/
lemma look_keeps (h : s.Sound) (sweep : Sweep) (hentry : s.entries[sweep.next]? = some entry) :
    (s.look sweep entry.2).Sound ∧ (s.Kept → (s.look sweep entry.2).Kept) := by
  have hlocked (lock : Option Sweep) : Sound { s with lock := lock } :=
    ⟨h.keys, h.made, h.fits, h.single, h.numbered, h.bounded⟩
  obtain ⟨cell, hcell⟩ := h.made entry (List.mem_of_getElem? hentry)
  have hslot : s.slots[entry.2]? = some ⟨entry.1, cell⟩ := hcell
  unfold look
  rw [hslot]
  cases cell with
  | empty | running => exact ⟨hlocked _, fun hkept => hkept⟩
  | done result =>
    cases result with
    | error =>
      refine ⟨h.remove hentry fun _ => ⟨_, hcell⟩, fun hkept => hkept.remove hentry fun session hs => ?_⟩
      cases (hcell.unique hs).2
    | ok =>
      dsimp only
      split_ifs with halive
      · exact ⟨hlocked _, fun hkept => hkept⟩
      · refine ⟨h.remove hentry fun _ => ⟨_, hcell⟩,
          fun hkept => hkept.remove hentry fun session' hs => ?_⟩
        cases (hcell.unique hs).2
        simpa using halive

/-- What a call knows about the slot that it has started. -/
lemma Sound.of_starting (h : s.Sound) (hc : s.calls[i]? = some c) (hphase : c.phase = .starting j)
    (hslot : s.slots[j]? = some slot) : slot = ⟨c.key, .running⟩ ∧ (c.key, j) ∈ s.entries ∧
      ∀ (i' : ℕ) (c' : CacheCall), s.calls[i']? = some c' → i' ≠ i → c'.phase ≠ .starting j := by
  have hfits := h.fits i c hc
  rw [hphase] at hfits
  exact ⟨Option.some.inj (hslot.symm.trans hfits.1), hfits.2, fun i' c' hc' hne hphase' =>
    hne (h.single i' i c' c j hc' hc hphase' hphase)⟩

lemma finish_keeps (h : s.Sound) (hc : s.calls[i]? = some c) (hphase : c.phase = .starting j)
    (hslot : s.slots[j]? = some slot) (error : Option String) :
    (s.finish i c j slot error).Sound ∧ (s.Kept → (s.finish i c j slot error).Kept) := by
  obtain ⟨rfl, hin, hother⟩ := h.of_starting hc hphase hslot
  cases error with
  | some =>
    refine ⟨h.update hslot (by simp) hother ⟨_, (hasCell_setCell hslot).mpr (.inl ⟨rfl, rfl, rfl⟩), ?_⟩
      (by simp) (by simp), fun hkept => hkept.setCell hslot hin⟩
    exact fun hopen => absurd rfl (hopen _)
  | none =>
    have hcounted : Sound { s with sessions := s.sessions + 1 } :=
      { h with numbered := fun n key session hn =>
          ⟨(h.numbered n key session hn).1.trans (Nat.lt_succ_self _), (h.numbered n key session hn).2⟩ }
    have hfresh (n : ℕ) (key : Bytes) : ¬ s.HasCell n key (.done (.ok s.sessions)) := fun hn =>
      lt_irrefl _ (h.numbered n key s.sessions hn).1
    refine ⟨hcounted.update hslot (by simp) hother
      ⟨_, (hasCell_setCell hslot).mpr (.inl ⟨rfl, rfl, rfl⟩), fun hopen => absurd rfl (hopen _)⟩ (by simp)
      fun session hsession => ?_, fun hkept => ?_⟩
    · cases hsession
      exact ⟨Nat.lt_succ_self _, hfresh⟩
    · exact Kept.setCell (s := { s with sessions := s.sessions + 1 }) hkept hslot hin

lemma cancel_keeps (h : s.Sound) (hc : s.calls[i]? = some c) (hs : s.cancel i c = some s') :
    s'.Sound ∧ (s.Kept → s'.Kept) := by
  have hcancelled : (s.setPhase i c .cancelled).Sound := h.setPhase trivial (by simp)
  unfold cancel at hs
  cases hphase : c.phase with
  | arrived =>
    rw [hphase] at hs
    simp only [Option.ite_none_left_eq_some, Option.some.injEq] at hs
    obtain ⟨-, rfl⟩ := hs
    exact ⟨hcancelled, fun hkept => hkept⟩
  | waiting =>
    rw [hphase] at hs
    cases hs
    exact ⟨hcancelled, fun hkept => hkept⟩
  | starting =>
    rw [hphase] at hs
    obtain ⟨slot, hslot, rfl⟩ := Option.map_eq_some_iff.mp hs
    obtain ⟨rfl, hin, hother⟩ := h.of_starting hc hphase hslot
    exact ⟨h.update hslot (by simp) hother trivial (by simp) (by simp),
      fun hkept => hkept.setCell hslot hin⟩
  | served | failed | cancelled =>
    rw [hphase] at hs
    cases hs

/-- What every step preserves. A session that is alive stays in the map unless the counting of
holders was disturbed. -/
lemma step_keeps {input : CacheInput} (h : s.Sound) (hs : s.step input = some s') :
    s'.Sound ∧ (s.disturbed input = false → s.Kept → s'.Kept) := by
  have hlocked (lock : Option Sweep) : Sound { s with lock := lock } :=
    ⟨h.keys, h.made, h.fits, h.single, h.numbered, h.bounded⟩
  cases input with
  | call key =>
    cases hs
    have hcalls : ∀ (i : ℕ) (c : CacheCall), (s.calls ++ [⟨key, .arrived⟩])[i]? = some c →
        s.calls[i]? = some c ∨ c.phase = .arrived := by
      intro i c hc
      rw [List.getElem?_append] at hc
      split_ifs at hc
      · exact .inl hc
      · rw [List.getElem?_singleton] at hc
        split_ifs at hc
        cases hc
        exact .inr rfl
    refine ⟨{ h with fits := fun i c hc => ?_, single := fun i i' c c' j hc hc' hp hp' => ?_ },
      fun _ hkept => hkept⟩
    · rcases hcalls i c hc with hold | harrived
      · exact h.fits i c hold
      · rw [harrived]
        trivial
    · rcases hcalls i c hc with hold | harrived
      · rcases hcalls i' c' hc' with hold' | harrived'
        · exact h.single i i' c c' j hold hold' hp hp'
        · rw [harrived'] at hp'
          cases hp'
      · rw [harrived] at hp
        cases hp
  | lock =>
    simp only [step] at hs
    split at hs
    · cases hs
      exact ⟨hlocked _, fun _ hkept => hkept⟩
    · cases hs
  | look =>
    simp only [step] at hs
    split at hs
    · rename_i i n hlock
      obtain ⟨entry, hentry, rfl⟩ := Option.map_eq_some_iff.mp hs
      obtain ⟨hsound, hkept⟩ := look_keeps h ⟨i, n, false⟩ hentry
      exact ⟨hsound, fun _ => hkept⟩
    · cases hs
  | tally =>
    simp only [step] at hs
    split at hs
    · rename_i i n hlock
      obtain ⟨entry, hentry, rfl⟩ := Option.map_eq_some_iff.mp hs
      split_ifs with hheld
      · exact ⟨hlocked _, fun _ hkept => hkept⟩
      · refine ⟨h.remove hentry fun hheld' => absurd hheld' hheld,
          fun hok hkept => hkept.remove hentry fun session hcell => ?_⟩
        have hslot : s.slots[entry.2]? = some ⟨entry.1, .done (.ok session)⟩ := hcell
        simp [disturbed, hlock, hentry, hslot, SlotCell.hasSession] at hok
    · cases hs
  | reserve =>
    simp only [step] at hs
    split at hs
    · split_ifs at hs
      obtain ⟨c, -, rfl⟩ := Option.map_eq_some_iff.mp hs
      obtain ⟨hsound, hkept⟩ := reserve_keeps h _ c
      exact ⟨hsound, fun _ => hkept⟩
    · cases hs
  | start i =>
    simp only [step] at hs
    split at hs
    · rename_i key j hc
      split at hs
      · rename_i label hslot
        cases hs
        have hfits := h.fits i _ hc
        obtain ⟨cell, hcell, hin⟩ := hfits
        obtain ⟨rfl, rfl⟩ := HasCell.unique hcell hslot
        have hin' : (key, j) ∈ s.entries := hin (by simp)
        refine ⟨h.update hslot (by simp) (fun i' c' hc' _ hstarting => ?_)
          ⟨(hasCell_setCell hslot).mpr (.inl ⟨rfl, rfl, rfl⟩), hin'⟩ (by simp) (by simp),
          fun _ hkept => hkept.setCell hslot hin'⟩
        have hfits' := h.fits i' c' hc'
        rw [hstarting] at hfits'
        cases (hfits'.1.unique hslot).2
      · cases hs
    · cases hs
  | finish i error =>
    simp only [step] at hs
    split at hs
    · rename_i key j hc
      obtain ⟨slot, hslot, rfl⟩ := Option.map_eq_some_iff.mp hs
      obtain ⟨hsound, hkept⟩ := finish_keeps h hc rfl hslot error
      exact ⟨hsound, fun _ => hkept⟩
    · cases hs
  | observe i =>
    simp only [step] at hs
    split at hs
    · rename_i key j hc
      split at hs
      · rename_i label result hslot
        cases hs
        obtain ⟨cell, hcell, -⟩ := h.fits i _ hc
        obtain ⟨rfl, -⟩ := HasCell.unique hcell hslot
        refine ⟨h.setPhase ?_ ?_, fun _ hkept => hkept⟩
        · cases result with
          | ok => exact ⟨j, hslot⟩
          | error => trivial
        · intro n hn
          cases result <;> cases hn
      · cases hs
    · cases hs
  | cancel =>
    obtain ⟨c, hc, hs⟩ := Option.bind_eq_some_iff.mp hs
    obtain ⟨hsound, hkept⟩ := cancel_keeps h hc hs
    exact ⟨hsound, fun _ => hkept⟩
  | expire =>
    cases hs
    refine ⟨⟨h.keys, h.made, h.fits, h.single, h.numbered, h.bounded⟩,
      fun _ hkept j key session hcell halive => hkept j key session hcell ?_⟩
    simp only [Bool.and_eq_true] at halive
    exact halive.1

lemma step_maximum {input : CacheInput} (hs : s.step input = some s') : s'.maximum = s.maximum := by
  cases input with
  | call | expire =>
    cases hs
    rfl
  | lock =>
    simp only [step] at hs
    split at hs <;> cases hs
    rfl
  | look =>
    simp only [step] at hs
    split at hs
    · obtain ⟨entry, -, rfl⟩ := Option.map_eq_some_iff.mp hs
      unfold look
      split
      · split_ifs <;> rfl
      · rfl
      · rfl
    · cases hs
  | tally =>
    simp only [step] at hs
    split at hs
    · obtain ⟨entry, -, rfl⟩ := Option.map_eq_some_iff.mp hs
      split_ifs <;> rfl
    · cases hs
  | reserve =>
    simp only [step] at hs
    split at hs
    · split_ifs at hs
      obtain ⟨c, -, rfl⟩ := Option.map_eq_some_iff.mp hs
      unfold reserve
      dsimp only
      split
      · rfl
      · split_ifs <;> rfl
    · cases hs
  | start | observe =>
    simp only [step] at hs
    split at hs
    · split at hs <;> cases hs
      rfl
    · cases hs
  | finish i error =>
    simp only [step] at hs
    split at hs
    · obtain ⟨slot, -, rfl⟩ := Option.map_eq_some_iff.mp hs
      cases error <;> rfl
    · cases hs
  | cancel =>
    obtain ⟨c, -, hs⟩ := Option.bind_eq_some_iff.mp hs
    unfold cancel at hs
    split at hs
    · split_ifs at hs
      cases hs
      rfl
    · cases hs
      rfl
    · obtain ⟨slot, -, rfl⟩ := Option.map_eq_some_iff.mp hs
      rfl
    · cases hs
    · cases hs
    · cases hs

/-- No two calls run an initialiser for one key. -/
def OneInitialiser (s : SessionCache) : Prop :=
  ∀ (i i' : ℕ) (c c' : CacheCall) (j j' : ℕ), s.calls[i]? = some c → s.calls[i']? = some c' →
    c.phase = .starting j → c'.phase = .starting j' → c.key = c'.key → i = i'

/-- Two sessions that were handed out for one key are not both alive. -/
def OneLiveSession (s : SessionCache) : Prop :=
  ∀ c ∈ s.calls, ∀ c' ∈ s.calls, ∀ a b, c.phase = .served a → c'.phase = .served b →
    c.key = c'.key → s.alive a = true → s.alive b = true → a = b

/-- A key has one slot in the map. -/
lemma Sound.slot_unique (h : s.Sound) {j j' : ℕ} (hj : (key, j) ∈ s.entries)
    (hj' : (key, j') ∈ s.entries) : j = j' :=
  (Prod.mk.inj (List.inj_on_of_nodup_map h.keys hj hj' rfl)).2

lemma Sound.oneInitialiser (h : s.Sound) : s.OneInitialiser := by
  intro i i' c c' j j' hc hc' hphase hphase' hkey
  have hfits := h.fits i c hc
  have hfits' := h.fits i' c' hc'
  rw [hphase] at hfits
  rw [hphase', ← hkey] at hfits'
  obtain rfl := h.slot_unique hfits.2 hfits'.2
  exact h.single i i' c c' j hc hc' hphase hphase'

lemma Kept.oneLiveSession (h : s.Kept) (hsound : s.Sound) : s.OneLiveSession := by
  intro c hc c' hc' a b hphase hphase' hkey ha hb
  obtain ⟨i, hi⟩ := List.mem_iff_getElem?.mp hc
  obtain ⟨i', hi'⟩ := List.mem_iff_getElem?.mp hc'
  have hfits := hsound.fits i c hi
  have hfits' := hsound.fits i' c' hi'
  rw [hphase] at hfits
  rw [hphase', ← hkey] at hfits'
  obtain ⟨j, hj⟩ := hfits
  obtain ⟨j', hj'⟩ := hfits'
  obtain rfl := hsound.slot_unique (h j _ a hj ha) (h j' _ b hj' hb)
  cases (hj.unique hj').2
  rfl

variable {maximum : ℕ} {alive : ℕ → Bool}

/-- In every interleaving the map stays within its bound and a key has one initialiser. It has
one live session if no result comes into a slot between the two looks of a lookup at it. -/
theorem one_live_session (h : Run step (new maximum alive) s) :
    s.entries.length ≤ maximum ∧ s.OneInitialiser ∧
      (GuardedRun step (fun s i => s.disturbed i = false) (new maximum alive) s → s.OneLiveSession) := by
  have hsound : s.Sound ∧ s.maximum = maximum :=
    h.invariant (I := fun s => s.Sound ∧ s.maximum = maximum) ⟨sound_new maximum alive, rfl⟩
      fun _ _ _ ih _ hs => ⟨(step_keeps ih.1 hs).1, (step_maximum hs).trans ih.2⟩
  refine ⟨hsound.2 ▸ hsound.1.bounded, hsound.1.oneInitialiser, fun hguarded => ?_⟩
  have hkept : s.Sound ∧ s.Kept :=
    hguarded.invariant (I := fun s => s.Sound ∧ s.Kept) ⟨sound_new maximum alive, kept_new maximum alive⟩
      fun _ _ _ ih hok hs => ⟨(step_keeps ih.1 hs).1, (step_keeps ih.1 hs).2 hok ih.2⟩
  exact hkept.2.oneLiveSession hkept.1

/-- A call waits for the session that another one starts. -/
def sharedLookup (key : Bytes) : List CacheInput :=
  [.call key, .lock 0, .reserve, .start 0, .call key, .lock 1, .look, .tally, .reserve,
    .finish 0 none, .observe 0, .observe 1]

theorem sharedLookup_one_session : ∃ s,
    runInputs step (new 8 fun _ => true) (sharedLookup DEFAULT_CONTEXT) = some s ∧
      s.entries.length ≤ 8 ∧ s.OneInitialiser ∧ s.OneLiveSession := by
  have hok : inputsOk step (fun s i => s.disturbed i = false) (new 8 fun _ => true)
      (sharedLookup DEFAULT_CONTEXT) = true := by decide +kernel
  obtain ⟨s, hs⟩ := Option.isSome_iff_exists.mp (show
    (runInputs step (new 8 fun _ => true) (sharedLookup DEFAULT_CONTEXT)).isSome = true by
      decide +kernel)
  have hguarded := GuardedRun.getD_inputs (sharedLookup DEFAULT_CONTEXT) hok s
  rw [hs, Option.getD_some] at hguarded
  obtain ⟨hbound, hinitialiser, hlive⟩ := one_live_session (Run.of_inputs _ hs)
  exact ⟨s, hs, hbound, hinitialiser, hlive hguarded⟩

/-- One call starts a session for a key, and another one finds its slot without a result. The
first call gets its session and leaves before the second one counts the holders. -/
def disturbedLookup (key : Bytes) : List CacheInput :=
  [.call key, .lock 0, .reserve, .start 0, .call key, .lock 1, .look, .finish 0 none, .observe 0,
    .tally, .reserve, .start 1, .finish 1 none, .observe 1]

theorem disturbedLookup_two_sessions : ∃ s,
    runInputs step (new 8 fun _ => true) (disturbedLookup DEFAULT_CONTEXT) = some s ∧
      s.calls.map (fun c => (c.key, c.phase)) =
        [(DEFAULT_CONTEXT, .served 0), (DEFAULT_CONTEXT, .served 1)] ∧ ¬ s.OneLiveSession := by
  have hlook : (runInputs step (new 8 fun _ => true) (disturbedLookup DEFAULT_CONTEXT)).map
      (fun s => (s.calls.map fun c => (c.key, c.phase), s.alive 0, s.alive 1)) =
        some ([(DEFAULT_CONTEXT, .served 0), (DEFAULT_CONTEXT, .served 1)], true, true) := by
    decide +kernel
  obtain ⟨s, hs, hview⟩ := Option.map_eq_some_iff.mp hlook
  obtain ⟨hcalls, halive⟩ := Prod.mk.inj hview
  obtain ⟨halive₀, halive₁⟩ := Prod.mk.inj halive
  refine ⟨s, hs, hcalls, fun hone => ?_⟩
  have hmem (session : ℕ) (h : session = 0 ∨ session = 1) :
      ∃ c ∈ s.calls, c.key = DEFAULT_CONTEXT ∧ c.phase = .served session := by
    have : (DEFAULT_CONTEXT, RequestPhase.served session) ∈
        s.calls.map (fun c => (c.key, c.phase)) := by
      rw [hcalls]
      rcases h with rfl | rfl <;> simp
    simpa using this
  obtain ⟨c, hc, hkey, hphase⟩ := hmem 0 (.inl rfl)
  obtain ⟨c', hc', hkey', hphase'⟩ := hmem 1 (.inr rfl)
  exact absurd (hone c hc c' hc' 0 1 hphase hphase' (hkey.trans hkey'.symm) halive₀ halive₁)
    (by decide)

end SessionCache

end AnonGuard
