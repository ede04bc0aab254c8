import AnonGuard.Consensus
import AnonGuard.Maps
import AnonGuard.TokenBucket
import AnonGuard.Transition

/-!
# Admission of sources

A listener gives each group of source addresses four slots and a bucket of handshakes. It
forgets a group that holds no slot and has been idle for two minutes, and refuses new groups
while it remembers 4096. By then the bucket of the group would be full again, so a listener
that never forgot anything would decide in the same way.
-/
namespace AnonGuard

def SOURCE_SLOTS : ℕ := 4

def SOURCE_BURST : ℕ := 64

/-- At most twelve starts a second, in nanoseconds. -/
def SOURCE_REFILL : ℕ := 83334 * 10 ^ 3

def SOURCE_IDLE : ℕ := 120 * 10 ^ 9

def MAX_SOURCES : ℕ := 4096

inductive SourceGroup
  | v4 (octets : Bytes)
  | v6 (upper : Bytes)
  deriving DecidableEq, Repr

def SourceGroup.ofIp : IpAddr → SourceGroup
  | .v4 octets => .v4 octets
  | .v6 octets =>
    if octets.take 12 = List.replicate 10 0 ++ [0xff, 0xff] then .v4 (octets.drop 12)
    else .v6 (octets.take 8)

/-- What the listener knows about a group. The slots are a semaphore that its permits share. -/
structure Source where
  slots : ℕ
  rate : TokenBucket
  seen : ℕ

/-- The semaphores that have been created, with their free permits. -/
structure Semaphores where
  free : ℕ → ℕ
  created : ℕ

def Semaphores.create (s : Semaphores) (permits : ℕ) : Semaphores :=
  ⟨Function.update s.free s.created permits, s.created + 1⟩

def Semaphores.acquire (s : Semaphores) (slots : ℕ) : Semaphores :=
  { s with free := Function.update s.free slots (s.free slots - 1) }

def Semaphores.release (s : Semaphores) (slots : ℕ) : Semaphores :=
  { s with free := Function.update s.free slots (s.free slots + 1) }

def sourceRate (now : ℕ) : TokenBucket :=
  .new SOURCE_BURST SOURCE_REFILL now (by decide) (by decide) (by decide)

structure SourceAdmission where
  sources : List (SourceGroup × Source)
  nextSweep : Option ℕ

/-- How a try ends. -/
inductive AdmitOutcome
  | limited
  | refused
  | admitted (slots : ℕ)
  deriving DecidableEq, Repr

namespace SourceAdmission

def new : SourceAdmission := ⟨[], none⟩

def sweep (a : SourceAdmission) (semaphores : Semaphores) (now : ℕ) : SourceAdmission where
  sources := a.sources.filter fun entry =>
    semaphores.free entry.2.slots ≠ SOURCE_SLOTS || now - entry.2.seen < SOURCE_IDLE
  nextSweep := some (now + 10 ^ 9)

def update (a : SourceAdmission) (group : SourceGroup) (source : Source) : SourceAdmission :=
  { a with sources := a.sources.map fun entry =>
      if entry.1 = group then (group, source) else entry }

/-- Take a slot and a token of a source that is stored. The slot is given back if there is no
token. -/
def admitSource (a : SourceAdmission) (semaphores : Semaphores) (group : SourceGroup)
    (source : Source) (now : ℕ) : AdmitOutcome × SourceAdmission × Semaphores :=
  if semaphores.free source.slots = 0 then (.refused, a, semaphores)
  else
    match source.rate.take now with
    | (false, rate) => (.refused, a.update group { source with rate }, semaphores)
    | (true, rate) => (.admitted source.slots, a.update group { source with rate, seen := now },
        semaphores.acquire source.slots)

def tryAdmit (a : SourceAdmission) (semaphores : Semaphores) (ip : IpAddr) (now : ℕ) :
    AdmitOutcome × SourceAdmission × Semaphores :=
  let group := SourceGroup.ofIp ip
  match a.sources.lookup group with
  | some source => a.admitSource semaphores group source now
  | none =>
    let a := if a.sources.length ≥ MAX_SOURCES ∨ a.nextSweep.all (now ≥ ·) then
      a.sweep semaphores now else a
    if a.sources.length ≥ MAX_SOURCES then (.limited, a, semaphores)
    else
      let source : Source := ⟨semaphores.created, sourceRate now, now⟩
      admitSource { a with sources := a.sources ++ [(group, source)] }
        (semaphores.create SOURCE_SLOTS) group source now

end SourceAdmission

/-- A permit that a connection of the group holds. -/
structure Permit where
  group : SourceGroup
  slots : ℕ
  deriving DecidableEq, Repr

/-- What a reference is asked. -/
inductive ReferenceCall
  | tryAdmit (group : SourceGroup) (now : ℕ)
  | release (group : SourceGroup)
  deriving DecidableEq, Repr

/-- A listener with the connections it has admitted. What it has been asked is kept, but for
the tries that met the limit. -/
structure Listener where
  admission : SourceAdmission
  semaphores : Semaphores
  permits : List Permit
  clock : ℕ
  calls : List ReferenceCall
  decisions : List Bool

inductive ListenerInput
  | tryAdmit (ip : IpAddr) (now : ℕ)
  | sweep (now : ℕ)
  | release (index : ℕ)

namespace Listener

def new : Listener := ⟨.new, ⟨fun _ => 0, 0⟩, [], 0, [], []⟩

/-- The listener after a try. -/
def record (l : Listener) (group : SourceGroup) (now : ℕ) :
    AdmitOutcome × SourceAdmission × Semaphores → Listener
  | (.limited, admission, semaphores) =>
    ⟨admission, semaphores, l.permits, now, l.calls, l.decisions⟩
  | (.refused, admission, semaphores) =>
    ⟨admission, semaphores, l.permits, now, l.calls ++ [.tryAdmit group now], l.decisions ++ [false]⟩
  | (.admitted slots, admission, semaphores) =>
    ⟨admission, semaphores, l.permits ++ [⟨group, slots⟩], now, l.calls ++ [.tryAdmit group now],
      l.decisions ++ [true]⟩

/-- The clock does not go back. A connection that ends gives its permit back. -/
def step (l : Listener) : ListenerInput → Option Listener
  | .tryAdmit ip now =>
    if now < l.clock then none
    else some (l.record (.ofIp ip) now (l.admission.tryAdmit l.semaphores ip now))
  | .sweep now =>
    if now < l.clock then none
    else some { l with admission := l.admission.sweep l.semaphores now, clock := now }
  | .release index => l.permits[index]?.map fun permit =>
    { l with
      semaphores := l.semaphores.release permit.slots
      permits := l.permits.eraseIdx index
      calls := l.calls ++ [.release permit.group] }

end Listener

/-- What a group has without anything being forgotten. -/
structure Account where
  live : ℕ
  rate : TokenBucket

/-- A listener that stores every group it has seen. -/
abbrev Reference := SourceGroup → Option Account

namespace Reference

def empty : Reference := fun _ => none

def tryAdmit (r : Reference) (group : SourceGroup) (now : ℕ) : Bool × Reference :=
  let account := (r group).getD ⟨0, sourceRate now⟩
  if account.live ≥ SOURCE_SLOTS then (false, Function.update r group (some account))
  else
    match account.rate.take now with
    | (false, rate) => (false, Function.update r group (some { account with rate }))
    | (true, rate) => (true, Function.update r group (some ⟨account.live + 1, rate⟩))

def release (r : Reference) (group : SourceGroup) : Reference :=
  Function.update r group ((r group).map fun account => { account with live := account.live - 1 })

def after (r : Reference) : List ReferenceCall → Reference
  | [] => r
  | .tryAdmit group now :: calls => after (r.tryAdmit group now).2 calls
  | .release group :: calls => after (r.release group) calls

/-- The answers to the tries. -/
def decisions (r : Reference) : List ReferenceCall → List Bool
  | [] => []
  | .tryAdmit group now :: calls =>
    (r.tryAdmit group now).1 :: decisions (r.tryAdmit group now).2 calls
  | .release group :: calls => decisions (r.release group) calls

variable {r : Reference}

lemma after_append (calls calls' : List ReferenceCall) :
    r.after (calls ++ calls') = (r.after calls).after calls' := by
  induction calls generalizing r with
  | nil => rfl
  | cons c calls ih => cases c <;> exact ih

lemma decisions_append (calls calls' : List ReferenceCall) :
    r.decisions (calls ++ calls') = r.decisions calls ++ (r.after calls).decisions calls' := by
  induction calls generalizing r with
  | nil => rfl
  | cons c calls ih =>
    cases c with
    | tryAdmit g t => exact congrArg ((r.tryAdmit g t).1 :: ·) ih
    | release => exact ih

end Reference

/-- A bucket as sources have it. -/
def TokenBucket.IsSourceRate (b : TokenBucket) : Prop :=
  b.burst = SOURCE_BURST ∧ b.refill = SOURCE_REFILL

namespace Listener

/-- The permits of a source. -/
def live (l : Listener) (source : Source) : ℕ := l.permits.countP (·.slots = source.slots)

/-- A source in the table, and the account of its group. -/
structure Tracks (l : Listener) (r : Reference) (entry : SourceGroup × Source) : Prop where
  created : entry.2.slots < l.semaphores.created
  counted : l.semaphores.free entry.2.slots + l.live entry.2 = SOURCE_SLOTS
  rate : entry.2.rate.IsSourceRate
  seen : entry.2.rate.last ≤ entry.2.seen ∧ entry.2.seen ≤ l.clock
  stored : r entry.1 = some ⟨l.live entry.2, entry.2.rate⟩

/-- The listener agrees with a reference that has been asked the same. A group that it does not
store is new to the reference too, or would find its bucket full. -/
structure Follows (l : Listener) (r : Reference) : Prop where
  groups : (l.admission.sources.map Prod.fst).Nodup
  slots : (l.admission.sources.map fun entry => entry.2.slots).Nodup
  tracked : ∀ entry ∈ l.admission.sources, l.Tracks r entry
  owned : ∀ permit ∈ l.permits, ∃ entry ∈ l.admission.sources,
    entry.1 = permit.group ∧ entry.2.slots = permit.slots
  forgotten : ∀ group account, group ∉ l.admission.sources.map Prod.fst → r group = some account →
    account.live = 0 ∧ account.rate.IsSourceRate ∧ account.rate.last + SOURCE_IDLE ≤ l.clock
  limited : l.admission.sources.length ≤ MAX_SOURCES

variable {l l' : Listener} {r r' : Reference} {now : ℕ} {group : SourceGroup}
  {entry : SourceGroup × Source}

/-- What a source that nothing happens to needs. -/
lemma Tracks.congr (h : l.Tracks r entry) (hcreated : l.semaphores.created ≤ l'.semaphores.created)
    (hfree : l'.semaphores.free entry.2.slots = l.semaphores.free entry.2.slots)
    (hlive : l'.live entry.2 = l.live entry.2) (hclock : l.clock ≤ l'.clock)
    (hr : r' entry.1 = r entry.1) : l'.Tracks r' entry :=
  ⟨h.created.trans_le hcreated, by rw [hfree, hlive]; exact h.counted, h.rate,
    ⟨h.seen.1, h.seen.2.trans hclock⟩, by rw [hr, hlive]; exact h.stored⟩

/-- A source that is swept has no permits, and its bucket would be full. -/
lemma Follows.sweep (h : l.Follows r) (hnow : l.clock ≤ now) :
    Follows { l with admission := l.admission.sweep l.semaphores now, clock := now } r := by
  have hsub : (l.admission.sweep l.semaphores now).sources.Sublist l.admission.sources :=
    List.filter_sublist
  refine ⟨h.groups.sublist (hsub.map _), h.slots.sublist (hsub.map _),
    fun entry hentry => (h.tracked entry (hsub.subset hentry)).congr le_rfl rfl rfl hnow rfl, ?_, ?_,
    hsub.length_le.trans h.limited⟩
  · intro permit hpermit
    obtain ⟨entry, hentry, hgroup, hslot⟩ := h.owned permit hpermit
    have hlive : 0 < l.live entry.2 := List.countP_pos_iff.mpr ⟨permit, hpermit, by simp [hslot]⟩
    have hcounted := (h.tracked entry hentry).counted
    have hfree : l.semaphores.free entry.2.slots ≠ SOURCE_SLOTS := by omega
    exact ⟨entry, List.mem_filter.mpr ⟨hentry, by simp [hfree]⟩, hgroup, hslot⟩
  · intro group account hgroup haccount
    by_cases hold : group ∈ l.admission.sources.map Prod.fst
    · obtain ⟨entry, hentry, rfl⟩ := List.mem_map.mp hold
      have hswept : ¬(l.semaphores.free entry.2.slots ≠ SOURCE_SLOTS ∨
          now - entry.2.seen < SOURCE_IDLE) := fun hkept =>
        hgroup (List.mem_map_of_mem (List.mem_filter.mpr ⟨hentry, by simpa using hkept⟩))
      obtain ⟨-, hcounted, hrate, hseen, hstored⟩ := h.tracked entry hentry
      rw [hstored, Option.some.injEq] at haccount
      subst haccount
      refine ⟨?_, hrate, ?_⟩ <;> dsimp only <;> omega
    · obtain ⟨hlive, hrate, hlast⟩ := h.forgotten group account hold haccount
      exact ⟨hlive, hrate, hlast.trans hnow⟩

/-- A bucket that has not been used for so long is as good as a new one. -/
lemma take_of_idle {b : TokenBucket} (hb : b.IsSourceRate) (hidle : b.last + SOURCE_IDLE ≤ now) :
    b.take now = (sourceRate now).take now := by
  obtain ⟨hburst, hrefill⟩ := hb
  have hfull : b.burst ≤ b.intervals now := by
    rw [hburst, TokenBucket.intervals, hrefill]
    exact (show SOURCE_BURST ≤ SOURCE_IDLE / SOURCE_REFILL by decide).trans
      (Nat.div_le_div_right (by omega))
  have hold : b.refilled now = sourceRate now := by
    obtain ⟨-, htokens, hlast⟩ | ⟨hpart, -⟩ := TokenBucket.refilled_cases b now
    · ext
      · exact htokens.trans hburst
      · exact TokenBucket.burst_refilled.trans hburst
      · exact TokenBucket.refill_refilled.trans hrefill
      · exact hlast
    · omega
  have hnew : (sourceRate now).refilled now = sourceRate now :=
    TokenBucket.refilled_of_intervals (by simp [TokenBucket.intervals, sourceRate, TokenBucket.new])
  simp only [TokenBucket.take, TokenBucket.available, hold, hnew]

/-- The reference treats a group that the listener has forgotten like a new one. -/
lemma Follows.admit_forgotten (h : l.Follows r) (hnow : l.clock ≤ now)
    (hgroup : group ∉ l.admission.sources.map Prod.fst) :
    r.tryAdmit group now =
      Reference.tryAdmit (Function.update r group (some ⟨0, sourceRate now⟩)) group now := by
  cases haccount : r group with
  | none => simp [Reference.tryAdmit, haccount]
  | some account =>
    obtain ⟨hlive, hrate, hlast⟩ := h.forgotten group account hgroup haccount
    simp only [Reference.tryAdmit, haccount, Option.getD_some, Function.update_self, hlive,
      take_of_idle hrate (hlast.trans hnow), Function.update_idem]
    rfl

/-- The listener with a source for a group that it does not store. -/
def withSource (l : Listener) (group : SourceGroup) (now : ℕ) : Listener :=
  { l with
    admission := { l.admission with
      sources := l.admission.sources ++ [(group, ⟨l.semaphores.created, sourceRate now, now⟩)] }
    semaphores := l.semaphores.create SOURCE_SLOTS
    clock := now }

lemma Follows.slots_lt (h : l.Follows r) {permit : Permit} (hpermit : permit ∈ l.permits) :
    permit.slots < l.semaphores.created := by
  obtain ⟨entry, hentry, -, hslot⟩ := h.owned permit hpermit
  exact hslot ▸ (h.tracked entry hentry).created

lemma Follows.withSource (h : l.Follows r) (hnow : l.clock ≤ now)
    (hgroup : group ∉ l.admission.sources.map Prod.fst)
    (hroom : l.admission.sources.length < MAX_SOURCES) :
    (l.withSource group now).Follows (Function.update r group (some ⟨0, sourceRate now⟩)) := by
  have hunused : l.permits.countP (·.slots = l.semaphores.created) = 0 := by
    rw [List.countP_eq_zero]
    intro permit hpermit
    simpa using (h.slots_lt hpermit).ne
  have hsources : (l.withSource group now).admission.sources =
      l.admission.sources ++ [(group, ⟨l.semaphores.created, sourceRate now, now⟩)] := rfl
  have hfresh : l.semaphores.created ∉ l.admission.sources.map fun entry => entry.2.slots := by
    rw [List.mem_map]
    rintro ⟨entry, hentry, heq⟩
    exact (h.tracked entry hentry).created.ne heq
  refine ⟨?_, ?_, fun entry hentry => ?_, fun permit hpermit => ?_,
    fun other account hother haccount => ?_, ?_⟩
  · simpa [hsources] using h.groups.concat hgroup
  · simpa [hsources] using h.slots.concat hfresh
  · rcases List.mem_append.mp hentry with hentry | hentry
    · have hne : entry.1 ≠ group := fun heq => hgroup (heq ▸ List.mem_map_of_mem hentry)
      refine (h.tracked entry hentry).congr (Nat.le_succ _) ?_ rfl hnow
        (Function.update_of_ne hne _ _)
      exact Function.update_of_ne (h.tracked entry hentry).created.ne _ _
    · rw [List.mem_singleton.mp hentry]
      refine ⟨Nat.lt_succ_self _, ?_, ⟨rfl, rfl⟩, ⟨le_rfl, le_rfl⟩, ?_⟩
      · simp [Listener.live, Listener.withSource, Semaphores.create, hunused]
      · simp [Listener.live, Listener.withSource, hunused]
  · obtain ⟨entry, hentry, howns⟩ := h.owned permit hpermit
    exact ⟨entry, List.mem_append_left _ hentry, howns⟩
  · rw [hsources, List.map_append, List.mem_append, not_or] at hother
    have hne : other ≠ group := by simpa using hother.2
    rw [Function.update_of_ne hne] at haccount
    obtain ⟨hlive, hrate, hlast⟩ := h.forgotten other account hother.1 haccount
    exact ⟨hlive, hrate, hlast.trans hnow⟩
  · simpa [hsources] using hroom

section Admit
variable {source : Source}

lemma Follows.eq_of_group (h : l.Follows r) (hsource : (group, source) ∈ l.admission.sources)
    (hentry : entry ∈ l.admission.sources) (hgroup : entry.1 = group) : entry = (group, source) :=
  List.inj_on_of_nodup_map h.groups hentry hsource hgroup

lemma Follows.eq_of_slots (h : l.Follows r) (hsource : (group, source) ∈ l.admission.sources)
    (hentry : entry ∈ l.admission.sources) (hslots : entry.2.slots = source.slots) :
    entry = (group, source) :=
  List.inj_on_of_nodup_map h.slots hentry hsource hslots

/-- Time alone changes nothing for the sources. -/
lemma Follows.wait (h : l.Follows r) (hnow : l.clock ≤ now) (calls : List ReferenceCall)
    (decisions : List Bool) :
    Follows ⟨l.admission, l.semaphores, l.permits, now, calls, decisions⟩ r := by
  refine ⟨h.groups, h.slots, fun entry hentry => ?_, h.owned, fun group account hgroup haccount => ?_,
    h.limited⟩
  · exact (h.tracked entry hentry).congr le_rfl rfl rfl hnow rfl
  · obtain ⟨hlive, hrate, hlast⟩ := h.forgotten group account hgroup haccount
    exact ⟨hlive, hrate, hlast.trans hnow⟩

/-- The entries after one of them has been replaced. -/
lemma mem_update {a : SourceAdmission} (h : entry ∈ (a.update group source).sources) :
    entry = (group, source) ∨ entry ∈ a.sources ∧ entry.1 ≠ group := by
  obtain ⟨old, hold, rfl⟩ := List.mem_map.mp h
  split_ifs with hgroup
  · exact .inl rfl
  · exact .inr ⟨hold, hgroup⟩

lemma Follows.update_self (h : l.Follows r) (hsource : (group, source) ∈ l.admission.sources) :
    l.admission.update group source = l.admission := by
  have hsources : l.admission.sources.map (fun entry =>
      if entry.1 = group then (group, source) else entry) = l.admission.sources := by
    conv_rhs => rw [← List.map_id l.admission.sources]
    refine List.map_congr_left fun entry hentry => ?_
    split_ifs with hgroup
    · exact (h.eq_of_group hsource hentry hgroup).symm
    · rfl
  rw [SourceAdmission.update, hsources]

/-- A permit is given out. -/
lemma Follows.acquire (h : l.Follows r) (hnow : l.clock ≤ now)
    (hsource : (group, source) ∈ l.admission.sources)
    (hfree : l.semaphores.free source.slots ≠ 0) (calls : List ReferenceCall) (decisions : List Bool) :
    Follows ⟨l.admission.update group { source with rate := (source.rate.take now).2, seen := now },
        l.semaphores.acquire source.slots, l.permits ++ [⟨group, source.slots⟩], now, calls,
        decisions⟩
      (Function.update r group (some ⟨l.live source + 1, (source.rate.take now).2⟩)) := by
  have hkeep {κ : Type} (f : SourceGroup × Source → κ)
      (hf : ∀ rate seen, f (group, { source with rate, seen }) = f (group, source)) :
      (l.admission.update group
        { source with rate := (source.rate.take now).2, seen := now }).sources.map f =
        l.admission.sources.map f := by
    rw [SourceAdmission.update, List.map_map]
    refine List.map_congr_left fun entry hentry => ?_
    by_cases hgroup : entry.1 = group
    · rw [h.eq_of_group hsource hentry hgroup, Function.comp_apply, if_pos rfl, hf]
    · rw [Function.comp_apply, if_neg hgroup]
  have hgroups := hkeep Prod.fst fun _ _ => rfl
  have hmem : (group, { source with rate := (source.rate.take now).2, seen := now }) ∈
      (l.admission.update group
        { source with rate := (source.rate.take now).2, seen := now }).sources :=
    List.mem_map.mpr ⟨_, hsource, if_pos rfl⟩
  have htracked := h.tracked _ hsource
  refine ⟨?_, ?_, fun entry hentry => ?_, fun permit hpermit => ?_,
    fun other account hother haccount => ?_, ?_⟩
  · rw [hgroups]
    exact h.groups
  · rw [hkeep (fun entry => entry.2.slots) fun _ _ => rfl]
    exact h.slots
  · rcases mem_update hentry with rfl | ⟨hold, hgroup⟩
    · have hcounted := htracked.counted
      have hlive : Listener.live ⟨l.admission.update group
            { source with rate := (source.rate.take now).2, seen := now },
          l.semaphores.acquire source.slots, l.permits ++ [⟨group, source.slots⟩], now, calls,
          decisions⟩ { source with rate := (source.rate.take now).2, seen := now } =
            l.live source + 1 := by
        simp [Listener.live]
      refine ⟨htracked.created, ?_, ?_, ⟨?_, le_rfl⟩, ?_⟩
      · rw [hlive]
        simp only [Semaphores.acquire, Function.update_self]
        dsimp only at hcounted
        omega
      · obtain ⟨hburst, hrefill⟩ := htracked.rate
        exact ⟨TokenBucket.burst_take.trans hburst, TokenBucket.refill_take.trans hrefill⟩
      · exact TokenBucket.last_take_le (htracked.seen.1.trans (htracked.seen.2.trans hnow))
      · rw [hlive]
        exact Function.update_self ..
    · have hslots : entry.2.slots ≠ source.slots := fun heq =>
        hgroup (congrArg Prod.fst (h.eq_of_slots hsource hold heq))
      refine (h.tracked entry hold).congr le_rfl (Function.update_of_ne hslots _ _) ?_ hnow
        (Function.update_of_ne hgroup _ _)
      simp [Listener.live, hslots.symm]
  · rcases List.mem_append.mp hpermit with hpermit | hpermit
    · obtain ⟨entry, hentry, howner, hslots⟩ := h.owned permit hpermit
      by_cases hgroup : entry.1 = group
      · rw [h.eq_of_group hsource hentry hgroup] at howner hslots
        exact ⟨_, hmem, howner, hslots⟩
      · exact ⟨entry, List.mem_map.mpr ⟨entry, hentry, if_neg hgroup⟩, howner, hslots⟩
    · rw [List.mem_singleton.mp hpermit]
      exact ⟨_, hmem, rfl, rfl⟩
  · rw [hgroups] at hother
    have hne : other ≠ group := fun heq => hother (heq ▸ List.mem_map_of_mem hsource)
    rw [Function.update_of_ne hne] at haccount
    obtain ⟨hlive, hrate, hlast⟩ := h.forgotten other account hother haccount
    exact ⟨hlive, hrate, hlast.trans hnow⟩
  · have hlength := congrArg List.length hgroups
    rw [List.length_map, List.length_map] at hlength
    exact hlength ▸ h.limited

/-- A stored source is admitted as its account is. -/
lemma Follows.admitSource (h : l.Follows r) (hnow : l.clock ≤ now)
    (hsource : (group, source) ∈ l.admission.sources) :
    ∃ next, l.record group now (l.admission.admitSource l.semaphores group source now) = next ∧
      next.Follows (r.tryAdmit group now).2 ∧ next.calls = l.calls ++ [.tryAdmit group now] ∧
      next.decisions = l.decisions ++ [(r.tryAdmit group now).1] := by
  obtain ⟨-, hcounted, -, -, hstored⟩ := h.tracked _ hsource
  dsimp only at hcounted hstored
  unfold SourceAdmission.admitSource
  by_cases hfree : l.semaphores.free source.slots = 0
  · have hreference : r.tryAdmit group now = (false, r) := by
      simp only [Reference.tryAdmit, hstored, Option.getD_some]
      rw [if_pos (by omega), ← hstored, Function.update_eq_self]
    rw [if_pos hfree, hreference]
    exact ⟨_, rfl, h.wait hnow _ _, rfl, rfl⟩
  · rw [if_neg hfree]
    have hslots : ¬l.live source ≥ SOURCE_SLOTS := by omega
    cases htake : source.rate.take now with
    | mk answer rate =>
      cases answer with
      | false =>
        -- the slot is given back, and nothing else has happened
        have hrate : (source.rate.take now).2 = source.rate :=
          TokenBucket.take_refused (by rw [htake])
        rw [htake] at hrate
        obtain rfl : rate = source.rate := hrate
        have hreference : r.tryAdmit group now = (false, r) := by
          simp only [Reference.tryAdmit, hstored, Option.getD_some]
          rw [if_neg hslots, htake]
          dsimp only
          rw [← hstored, Function.update_eq_self]
        rw [hreference]
        dsimp only
        rw [h.update_self hsource]
        exact ⟨_, rfl, h.wait hnow _ _, rfl, rfl⟩
      | true =>
        have hacquire := h.acquire hnow hsource hfree (l.calls ++ [.tryAdmit group now])
          (l.decisions ++ [true])
        have hreference : r.tryAdmit group now =
            (true, Function.update r group (some ⟨l.live source + 1, rate⟩)) := by
          simp only [Reference.tryAdmit, hstored, Option.getD_some]
          rw [if_neg hslots, htake]
        rw [hreference]
        rw [htake] at hacquire
        exact ⟨_, rfl, hacquire, rfl, rfl⟩

end Admit

/-- A permit comes back. -/
lemma Follows.release (h : l.Follows r) {index : ℕ} {permit : Permit}
    (hpermit : l.permits[index]? = some permit) (calls : List ReferenceCall) :
    Follows { l with
      semaphores := l.semaphores.release permit.slots
      permits := l.permits.eraseIdx index
      calls := calls } (r.release permit.group) := by
  obtain ⟨hindex, hget⟩ := List.getElem?_eq_some_iff.mp hpermit
  have hperm : (permit :: l.permits.eraseIdx index).Perm l.permits :=
    hget ▸ List.getElem_cons_eraseIdx_perm hindex
  obtain ⟨⟨group, source⟩, hsource, rfl, hslots⟩ := h.owned permit (hget ▸ List.getElem_mem hindex)
  dsimp only at hslots
  have hlive (other : Source) : l.live other = (l.permits.eraseIdx index).countP
      (·.slots = other.slots) + if permit.slots = other.slots then 1 else 0 := by
    rw [Listener.live, ← hperm.countP_eq, List.countP_cons]
    simp
  have htracked := h.tracked _ hsource
  have hmine := hlive source
  rw [if_pos hslots.symm] at hmine
  refine ⟨h.groups, h.slots, fun entry hentry => ?_, fun other hother => ?_,
    fun other account hother haccount => ?_, h.limited⟩
  · by_cases heq : entry.2.slots = source.slots
    · obtain rfl := h.eq_of_slots hsource hentry heq
      refine ⟨htracked.created, ?_, htracked.rate, htracked.seen, ?_⟩
      · have hcounted := htracked.counted
        simp only [Semaphores.release, ← hslots, Function.update_self, Listener.live]
          at hcounted hmine ⊢
        omega
      · simp only [Reference.release, Function.update_self, htracked.stored, Option.map_some,
          Option.some.injEq, Account.mk.injEq, and_true, hmine]
        rfl
    · have hgroup : entry.1 ≠ permit.group := fun hgroup =>
        heq (congrArg (fun e => e.2.slots) (h.eq_of_group hsource hentry hgroup))
      refine (h.tracked entry hentry).congr le_rfl
        (Function.update_of_ne (fun h => heq (h.trans hslots.symm)) _ _) ?_ le_rfl
        (Function.update_of_ne hgroup _ _)
      have := hlive entry.2
      rw [if_neg (fun h => heq (h.symm.trans hslots.symm))] at this
      exact this.symm
  · exact h.owned other (List.mem_of_mem_eraseIdx hother)
  · have hne : other ≠ permit.group := fun heq => hother (heq ▸ List.mem_map_of_mem hsource)
    rw [Reference.release, Function.update_of_ne hne] at haccount
    exact h.forgotten other account hother haccount

/-- The listener and the reference that has been asked what the listener has. -/
structure Agrees (l : Listener) : Prop where
  follows : l.Follows (Reference.empty.after l.calls)
  decided : Reference.empty.decisions l.calls = l.decisions

lemma agrees_new : new.Agrees := by
  refine ⟨⟨List.nodup_nil, List.nodup_nil, ?_, ?_, ?_, Nat.zero_le _⟩, rfl⟩
  · simp [new, SourceAdmission.new]
  · simp [new]
  · intro group account _ haccount
    cases haccount

/-- A new group is admitted like one that has just been stored. -/
lemma Agrees.admit_new (h : l.Agrees) (hnow : l.clock ≤ now)
    (hgroup : group ∉ l.admission.sources.map Prod.fst)
    (hroom : l.admission.sources.length < MAX_SOURCES) :
    (l.record group now ((l.withSource group now).admission.admitSource
      (l.withSource group now).semaphores group ⟨l.semaphores.created, sourceRate now, now⟩
      now)).Agrees := by
  obtain ⟨hfollows, hdecided⟩ := h
  have hstored : (group, ⟨l.semaphores.created, sourceRate now, now⟩) ∈
      (l.withSource group now).admission.sources :=
    List.mem_append_right _ (List.mem_singleton_self _)
  have hclock : (l.withSource group now).clock ≤ now := le_rfl
  obtain ⟨next, hnext, hfollows', hcalls, hdecisions⟩ :=
    (hfollows.withSource hnow hgroup hroom).admitSource hclock hstored
  rw [← hfollows.admit_forgotten hnow hgroup] at hfollows' hdecisions
  have hrecord (outcome : AdmitOutcome × SourceAdmission × Semaphores) :
      (l.withSource group now).record group now outcome = l.record group now outcome := rfl
  rw [← hrecord, hnext]
  refine ⟨?_, ?_⟩
  · rw [hcalls]
    exact (Reference.after_append l.calls _).symm ▸ hfollows'
  · rw [hcalls, hdecisions]
    exact (Reference.decisions_append l.calls _).trans (congrArg (· ++ _) hdecided)

lemma Agrees.tryAdmit (h : l.Agrees) (ip : IpAddr) (hnow : l.clock ≤ now) :
    (l.record (.ofIp ip) now (l.admission.tryAdmit l.semaphores ip now)).Agrees := by
  generalize hgroup : SourceGroup.ofIp ip = group
  unfold SourceAdmission.tryAdmit
  rw [hgroup]
  dsimp only
  cases hlookup : l.admission.sources.lookup group with
  | some =>
    obtain ⟨hfollows, hdecided⟩ := h
    obtain ⟨next, hnext, hfollows', hcalls, hdecisions⟩ :=
      hfollows.admitSource hnow (mem_of_lookup hlookup)
    dsimp only
    rw [hnext]
    refine ⟨?_, ?_⟩
    · rwa [hcalls, Reference.after_append]
    · rw [hcalls, Reference.decisions_append, hdecided, hdecisions]
      rfl
  | none =>
    have hunknown : group ∉ l.admission.sources.map Prod.fst := by
      rw [List.lookup_eq_none_iff] at hlookup
      rw [List.mem_map]
      rintro ⟨entry, hentry, rfl⟩
      simpa using hlookup entry hentry
    generalize hswept : (if l.admission.sources.length ≥ MAX_SOURCES ∨
      l.admission.nextSweep.all (now ≥ ·) then l.admission.sweep l.semaphores now
      else l.admission) = swept
    have hagrees : Agrees { l with admission := swept, clock := now } ∧
        swept.sources ⊆ l.admission.sources := by
      rw [← hswept]
      split_ifs with hsweep
      · exact ⟨⟨h.follows.sweep hnow, h.decided⟩, List.filter_sublist.subset⟩
      · exact ⟨⟨h.follows.wait hnow _ _, h.decided⟩, List.Subset.refl _⟩
    dsimp only
    by_cases hfull : swept.sources.length ≥ MAX_SOURCES
    · rw [if_pos hfull]
      exact hagrees.1
    · rw [if_neg hfull]
      exact hagrees.1.admit_new le_rfl (fun hmem => hunknown (List.map_subset _ hagrees.2 hmem))
        (Nat.lt_of_not_ge hfull)

lemma Agrees.step {i : ListenerInput} (h : l.Agrees) (hstep : l.step i = some l') : l'.Agrees := by
  cases i with
  | tryAdmit ip =>
    simp only [Listener.step] at hstep
    split_ifs at hstep with hnow
    cases hstep
    exact h.tryAdmit ip (Nat.le_of_not_lt hnow)
  | sweep =>
    simp only [Listener.step] at hstep
    split_ifs at hstep with hnow
    cases hstep
    exact ⟨h.follows.sweep (Nat.le_of_not_lt hnow), h.decided⟩
  | release =>
    obtain ⟨permit, hpermit, rfl⟩ := Option.map_eq_some_iff.mp hstep
    refine ⟨?_, ?_⟩
    · rw [Reference.after_append]
      exact h.follows.release hpermit _
    · rw [Reference.decisions_append]
      exact (List.append_nil _).trans h.decided

/-- A source that fills its slots, is refused under its mapped address too, leaves and comes back
after it has been forgotten. -/
def returningSource : List ListenerInput :=
  let ip : IpAddr := .v4 [203, 0, 113, 9]
  let mapped : IpAddr := .v6 (List.replicate 10 0 ++ [0xff, 0xff, 203, 0, 113, 9])
  [.tryAdmit ip 0, .tryAdmit ip 0, .tryAdmit mapped 1, .tryAdmit ip 1, .tryAdmit mapped 2,
    .release 3, .tryAdmit mapped 3, .release 2, .release 0, .release 0, .release 0,
    .sweep (SOURCE_IDLE + 3), .tryAdmit ip (SOURCE_IDLE + 4)]

end Listener

end AnonGuard
