import AnonGuard.ConnectionCap
import AnonGuard.KillSwitch
import AnonGuard.Tally

/-!
# The accept loop of the gateway

The loop counts a connection under the group of its address and spawns a task for it. The task
polls its work and the subscription to the kill switch in a random order. The work makes a
guard when it is first polled, and the guard counts the connection down again in a task of its
own. A task that is stopped before it has polled its work has no guard.
-/
namespace AnonGuard

def DEFAULT_MAX_CONCURRENT_CONNECTIONS : ℕ := 32

def MAX_CONCURRENT_PER_IP : ℕ := 8

/-- Where the loop waits. -/
inductive AcceptPhase
  | checking
  /-- The switch was active, half a second ago. -/
  | pausing
  | acquiring
  | accepting
  /-- For the lock of the counts. -/
  | counting (key : IpAddr)
  | stopped
  deriving DecidableEq, Repr

inductive ConnectionPhase
  | spawned
  /-- Its work has made the guard. -/
  | working
  | ended
  /-- Its work was dropped before it was polled. -/
  | abandoned
  deriving DecidableEq, Repr

structure GatewayConnection where
  key : IpAddr
  phase : ConnectionPhase
  deriving DecidableEq, Repr

/-- The branch that `select!` polls first. -/
inductive SelectBranch
  | work
  | cancellation
  deriving DecidableEq, Repr

/-- The loop, its counts, the connections that it has accepted, and the guards that were
dropped and whose tasks have not run yet. -/
structure GatewayAccept where
  killSwitch : KillSwitch
  phase : AcceptPhase
  permits : ℕ
  ipConnections : IpAddr → Option ℕ
  connections : List GatewayConnection
  decrements : List IpAddr

inductive AcceptInput
  | switch (input : SwitchInput)
  | check
  | resume
  | acquire
  | accept (ip : IpAddr)
  /-- `accept` or `set_nodelay` fails. -/
  | acceptError
  | count
  /-- The first poll of a task. -/
  | poll (connection : ℕ) (first : SelectBranch)
  /-- The work of a task is over, or dropped because of the kill switch. -/
  | finish (connection : ℕ)
  /-- The loop has ended, and its tasks with it. -/
  | abort (connection : ℕ)
  | decrement (index : ℕ)

namespace GatewayAccept

def new (killSwitch : KillSwitch) : GatewayAccept where
  killSwitch := killSwitch
  phase := .checking
  permits := DEFAULT_MAX_CONCURRENT_CONNECTIONS
  ipConnections _ := none
  connections := []
  decrements := []

/-- A connection is counted and gets its task, or is dropped with its permit. -/
def count (s : GatewayAccept) (key : IpAddr) : GatewayAccept :=
  let count := (s.ipConnections key).getD 0
  if MAX_CONCURRENT_PER_IP ≤ count then
    { s with
      phase := .checking
      permits := s.permits + 1
      ipConnections := Function.update s.ipConnections key (some count) }
  else
    { s with
      phase := .checking
      ipConnections := Function.update s.ipConnections key (some (count + 1))
      connections := s.connections ++ [⟨key, .spawned⟩] }

/-- A task ends and gives its permit back. The guard, if there is one, spawns a decrement. -/
def leave (s : GatewayAccept) (i : ℕ) (c : GatewayConnection) : ConnectionPhase → GatewayAccept
  | .ended => { s with
      permits := s.permits + 1
      connections := s.connections.set i { c with phase := .ended }
      decrements := s.decrements ++ [c.key] }
  | phase => { s with
      permits := s.permits + 1
      connections := s.connections.set i { c with phase := phase } }

/-- The first poll of a task. The subscription is over if the channel has `true`, and the work
returns at once if the flag is up. -/
def poll (s : GatewayAccept) (i : ℕ) (c : GatewayConnection) (first : SelectBranch) : GatewayAccept :=
  if first = .cancellation ∧ s.killSwitch.published = true then s.leave i c .abandoned
  else if s.killSwitch.tripped = true ∨ s.killSwitch.published = true then s.leave i c .ended
  else { s with connections := s.connections.set i { c with phase := .working } }

/-- The task of a dropped guard. -/
def applyDecrement (s : GatewayAccept) (key : IpAddr) : IpAddr → Option ℕ :=
  match s.ipConnections key with
  | none => s.ipConnections
  | some count => Function.update s.ipConnections key (if count ≤ 1 then none else some (count - 1))

def step (s : GatewayAccept) : AcceptInput → Option GatewayAccept
  | .switch input => (s.killSwitch.step input).map fun killSwitch => { s with killSwitch := killSwitch }
  | .check =>
    if s.phase = .checking then
      some { s with phase := if s.killSwitch.tripped then .pausing else .acquiring }
    else none
  | .resume => if s.phase = .pausing then some { s with phase := .checking } else none
  | .acquire =>
    if s.phase = .acquiring ∧ s.permits ≠ 0 then
      some { s with phase := .accepting, permits := s.permits - 1 }
    else none
  | .accept ip =>
    if s.phase = .accepting then some { s with phase := .counting (normalizeIpForCap ip) } else none
  | .acceptError =>
    if s.phase = .accepting then some { s with phase := .stopped, permits := s.permits + 1 } else none
  | .count =>
    match s.phase with
    | .counting key => some (s.count key)
    | _ => none
  | .poll i first =>
    match s.connections[i]? with
    | some c => if c.phase = .spawned then some (s.poll i c first) else none
    | none => none
  | .finish i =>
    match s.connections[i]? with
    | some c => if c.phase = .working then some (s.leave i c .ended) else none
    | none => none
  | .abort i =>
    match s.connections[i]? with
    | some c =>
      if s.phase ≠ .stopped then none
      else
        match c.phase with
        | .spawned => some (s.leave i c .abandoned)
        | .working => some (s.leave i c .ended)
        | .ended | .abandoned => none
    | none => none
  | .decrement j =>
    match s.decrements[j]? with
    | some key => some { s with
        ipConnections := s.applyDecrement key
        decrements := s.decrements.eraseIdx j }
    | none => none

/-- The count that is stored for a group. -/
def stored (s : GatewayAccept) (key : IpAddr) : ℕ := (s.ipConnections key).getD 0

/-- The connections of a group that are in such a phase. -/
def inPhase (s : GatewayAccept) (key : IpAddr) (phases : List ConnectionPhase) : ℕ :=
  s.connections.countP fun c => c.key = key ∧ c.phase ∈ phases

/-- The accepted connections of a group whose task has not ended. -/
def live (s : GatewayAccept) (key : IpAddr) : ℕ := s.inPhase key [.spawned, .working]

/-- The decrements of a group that have not been applied. -/
def scheduled (s : GatewayAccept) (key : IpAddr) : ℕ := s.decrements.count key

/-- The step does not drop the work of a task that has not polled it. -/
def StartsWork (s : GatewayAccept) : AcceptInput → Prop
  | .poll _ first => first = .work ∨ s.killSwitch.published = false
  | .abort i => ∀ c ∈ s.connections[i]?, c.phase ≠ .spawned
  | _ => True

variable {s s' : GatewayAccept} {i : AcceptInput} {n : ℕ} {c : GatewayConnection}
  {phase : ConnectionPhase}

/-- What a step does to the counts, to the connections and to the decrements. -/
inductive Effect (s : GatewayAccept) (i : AcceptInput) (s' : GatewayAccept) : Prop
  | quiet (hok : s.StartsWork i) (hstored : s'.stored = s.stored)
      (hconnections : s'.connections = s.connections) (hdecrements : s'.decrements = s.decrements)
  | counted (hok : s.StartsWork i) (key : IpAddr) (hbelow : s.stored key < MAX_CONCURRENT_PER_IP)
      (hstored : s'.stored = Function.update s.stored key (s.stored key + 1))
      (hconnections : s'.connections = s.connections ++ [⟨key, .spawned⟩])
      (hdecrements : s'.decrements = s.decrements)
  | started (hok : s.StartsWork i) (n : ℕ) (c : GatewayConnection) (hc : s.connections[n]? = some c)
      (hphase : c.phase = .spawned) (hstored : s'.stored = s.stored)
      (hconnections : s'.connections = s.connections.set n { c with phase := .working })
      (hdecrements : s'.decrements = s.decrements)
  | finished (hok : s.StartsWork i) (n : ℕ) (c : GatewayConnection) (hc : s.connections[n]? = some c)
      (hphase : c.phase = .spawned ∨ c.phase = .working) (hstored : s'.stored = s.stored)
      (hconnections : s'.connections = s.connections.set n { c with phase := .ended })
      (hdecrements : s'.decrements = s.decrements ++ [c.key])
  | abandoned (hbad : ¬ s.StartsWork i) (n : ℕ) (c : GatewayConnection)
      (hc : s.connections[n]? = some c) (hphase : c.phase = .spawned) (hstored : s'.stored = s.stored)
      (hconnections : s'.connections = s.connections.set n { c with phase := .abandoned })
      (hdecrements : s'.decrements = s.decrements)
  | decremented (hok : s.StartsWork i) (n : ℕ) (key : IpAddr) (hkey : s.decrements[n]? = some key)
      (hstored : s'.stored = Function.update s.stored key (s.stored key - 1))
      (hconnections : s'.connections = s.connections)
      (hdecrements : s'.decrements = s.decrements.eraseIdx n)

lemma stored_of_update {key : IpAddr} {count : Option ℕ} {stored : ℕ}
    (h : s'.ipConnections = Function.update s.ipConnections key count) (hcount : count.getD 0 = stored) :
    s'.stored = Function.update s.stored key stored := by
  subst hcount
  funext k
  by_cases hk : k = key
  · subst hk
    simp [GatewayAccept.stored, h]
  · simp [GatewayAccept.stored, h, hk]

lemma effect_count (key : IpAddr) : Effect s .count (s.count key) := by
  by_cases hfull : MAX_CONCURRENT_PER_IP ≤ (s.ipConnections key).getD 0
  · simp only [count, if_pos hfull]
    refine .quiet trivial ?_ rfl rfl
    rw [stored_of_update (s := s) rfl rfl]
    exact Function.update_eq_self key s.stored
  · simp only [count, if_neg hfull]
    exact .counted trivial key (not_le.mp hfull) (stored_of_update rfl rfl) rfl rfl

lemma effect_poll {first : SelectBranch}
    (hc : s.connections[n]? = some c) (hphase : c.phase = .spawned) :
    Effect s (.poll n first) (s.poll n c first) := by
  have hok (h : ¬ (first = .cancellation ∧ s.killSwitch.published = true)) :
      s.StartsWork (.poll n first) := by
    cases first with
    | work => exact .inl rfl
    | cancellation => exact .inr (by simpa using h)
  unfold poll
  split_ifs with habandoned hended
  · refine .abandoned ?_ n c hc hphase rfl rfl rfl
    rintro (hwork | hpublished)
    · simp [hwork] at habandoned
    · simp [hpublished] at habandoned
  · exact .finished (hok habandoned) n c hc (.inl hphase) rfl rfl rfl
  · exact .started (hok habandoned) n c hc hphase rfl rfl rfl

lemma effect_decrement {key : IpAddr} (hkey : s.decrements[n]? = some key) :
    Effect s (.decrement n) { s with
      ipConnections := s.applyDecrement key
      decrements := s.decrements.eraseIdx n } := by
  refine .decremented trivial n key hkey ?_ rfl rfl
  cases hcount : s.ipConnections key with
  | none =>
    have hzero : s.stored key - 1 = s.stored key := by simp [stored, hcount]
    rw [hzero, Function.update_eq_self]
    funext k
    simp [stored, applyDecrement, hcount]
  | some count =>
    have hupdate : s.applyDecrement key =
        Function.update s.ipConnections key (if count ≤ 1 then none else some (count - 1)) := by
      simp only [applyDecrement, hcount]
    refine stored_of_update hupdate ?_
    have hstored : s.stored key = count := by simp [stored, hcount]
    rw [hstored]
    split_ifs with hone
    · exact (Nat.sub_eq_zero_of_le hone).symm
    · rfl

/-- Every step does one of these things. -/
lemma step_effect (hs : s.step i = some s') : Effect s i s' := by
  cases i with
  | switch =>
    obtain ⟨killSwitch, -, rfl⟩ := Option.map_eq_some_iff.mp hs
    exact .quiet trivial rfl rfl rfl
  | check | resume | acquire | accept | acceptError =>
    simp only [step, Option.ite_none_right_eq_some, Option.some.injEq] at hs
    obtain ⟨-, rfl⟩ := hs
    exact .quiet trivial rfl rfl rfl
  | count =>
    simp only [step] at hs
    split at hs
    · cases hs
      exact effect_count _
    · cases hs
  | poll =>
    simp only [step] at hs
    split at hs
    case h_1 c hc =>
      simp only [Option.ite_none_right_eq_some, Option.some.injEq] at hs
      obtain ⟨hphase, rfl⟩ := hs
      exact effect_poll hc hphase
    case h_2 => cases hs
  | finish n =>
    simp only [step] at hs
    split at hs
    case h_1 c hc =>
      simp only [Option.ite_none_right_eq_some, Option.some.injEq] at hs
      obtain ⟨hphase, rfl⟩ := hs
      exact .finished trivial n c hc (.inr hphase) rfl rfl rfl
    case h_2 => cases hs
  | abort n =>
    simp only [step] at hs
    split at hs
    case h_1 c hc =>
      split_ifs at hs with hstopped
      split at hs
      case h_1 hphase =>
        cases hs
        refine .abandoned (fun hok => hok c hc hphase) n c hc hphase rfl rfl rfl
      case h_2 hphase =>
        cases hs
        refine .finished ?_ n c hc (.inr hphase) rfl rfl rfl
        intro c' hc'
        rw [hc] at hc'
        cases hc'
        simp [hphase]
      case h_3 => cases hs
      case h_4 => cases hs
    case h_2 => cases hs
  | decrement =>
    simp only [step] at hs
    split at hs
    case h_1 key hkey =>
      cases hs
      exact effect_decrement hkey
    case h_2 => cases hs

/-- The connections of a group that have not ended with a guard. -/
def outstanding (s : GatewayAccept) (key : IpAddr) : ℕ :=
  s.connections.countP fun c => c.key = key ∧ c.phase ≠ .ended

lemma outstanding_eq (s : GatewayAccept) (key : IpAddr) :
    s.outstanding key = s.live key + s.inPhase key [.abandoned] := by
  unfold outstanding live inPhase
  induction s.connections with
  | nil => rfl
  | cons c rest ih =>
    simp only [List.countP_cons, ih]
    cases hphase : c.phase <;> simp <;> omega

lemma outstanding_of_eq (h : s'.connections = s.connections) (key : IpAddr) :
    s'.outstanding key = s.outstanding key := by rw [outstanding, h, outstanding]

/-- A connection goes over into another phase. -/
lemma outstanding_of_set (hc : s.connections[n]? = some c) (hphase : c.phase ≠ .ended)
    (h : s'.connections = s.connections.set n { c with phase := phase }) (key : IpAddr) :
    s'.outstanding key + (if c.key = key then 1 else 0) =
      s.outstanding key + (if c.key = key ∧ phase ≠ .ended then 1 else 0) := by
  have := countP_set_add (p := fun c => c.key = key ∧ c.phase ≠ .ended) hc { c with phase := phase }
  simpa [outstanding, h, hphase] using this

/-- Every count is made up of the connections with a guard to come or to be dropped, and of the
decrements to come. -/
structure Tallied (s : GatewayAccept) : Prop where
  exact : ∀ key, s.stored key = s.outstanding key + s.scheduled key
  capped : ∀ key, s.stored key ≤ MAX_CONCURRENT_PER_IP

/-- A connection goes over into a phase in which it still counts. -/
lemma Tallied.of_set (h : s.Tallied)
    (hc : s.connections[n]? = some c) (hold : c.phase ≠ .ended) (hnew : phase ≠ .ended)
    (hstored : s'.stored = s.stored)
    (hconnections : s'.connections = s.connections.set n { c with phase := phase })
    (hdecrements : s'.decrements = s.decrements) : s'.Tallied := by
  refine ⟨fun key => ?_, fun key => hstored ▸ h.capped key⟩
  have hcount := outstanding_of_set hc hold hconnections key
  have hexact := h.exact key
  simp only [hnew, ne_eq, not_false_eq_true, and_true] at hcount
  rw [hstored, scheduled, hdecrements, ← scheduled]
  omega

lemma Tallied.of_effect (h : s.Tallied) (heffect : Effect s i s') : s'.Tallied := by
  cases heffect with
  | quiet hok hstored hconnections hdecrements =>
    refine ⟨fun key => ?_, fun key => hstored ▸ h.capped key⟩
    rw [hstored, outstanding_of_eq hconnections, scheduled, hdecrements]
    exact h.exact key
  | counted hok key hbelow hstored hconnections hdecrements =>
    have hcount (k : IpAddr) : s'.outstanding k = s.outstanding k + (if key = k then 1 else 0) := by
      simp [outstanding, hconnections, List.countP_append, List.countP_singleton]
    constructor
    · intro k
      have hexact := h.exact k
      rw [hstored, hcount, scheduled, hdecrements, Function.update_apply, ← scheduled]
      by_cases hk : k = key
      · subst hk
        rw [if_pos rfl, if_pos rfl]
        omega
      · rw [if_neg hk, if_neg (Ne.symm hk)]
        exact hexact
    · intro k
      rw [hstored, Function.update_apply]
      split_ifs with hk
      · exact hbelow
      · exact h.capped k
  | started _ _ _ hc hphase hstored hconnections hdecrements
  | abandoned _ _ _ hc hphase hstored hconnections hdecrements =>
    exact h.of_set hc (by simp [hphase]) (by simp) hstored hconnections hdecrements
  | finished hok n c hc hphase hstored hconnections hdecrements =>
    refine ⟨fun key => ?_, fun key => hstored ▸ h.capped key⟩
    have hold : c.phase ≠ .ended := by rcases hphase with hphase | hphase <;> simp [hphase]
    have hcount := outstanding_of_set hc hold hconnections key
    have hpending : s'.scheduled key = s.scheduled key + (if c.key = key then 1 else 0) := by
      simp [scheduled, hdecrements, List.count_append, List.count_singleton]
    have hexact := h.exact key
    simp only [ne_eq, not_true_eq_false, and_false, if_false] at hcount
    rw [hstored]
    omega
  | decremented hok n key hkey hstored hconnections hdecrements =>
    have hpending (k : IpAddr) : s'.scheduled k + (if key = k then 1 else 0) = s.scheduled k := by
      rw [scheduled, hdecrements]
      simpa [scheduled, List.count] using countP_eraseIdx_add (p := (· == k)) hkey
    constructor
    · intro k
      have hexact := h.exact k
      have hone := hpending k
      rw [outstanding_of_eq hconnections, hstored, Function.update_apply]
      by_cases hk : k = key
      · subst hk
        rw [if_pos rfl] at hone ⊢
        omega
      · rw [if_neg (Ne.symm hk)] at hone
        rw [if_neg hk]
        omega
    · intro k
      have hcapped := h.capped k
      rw [hstored, Function.update_apply]
      split_ifs with hk
      · subst hk
        omega
      · exact hcapped

variable {killSwitch : KillSwitch}

lemma tallied_of_run (h : Run step (new killSwitch) s) : s.Tallied := by
  refine h.invariant (I := Tallied) ⟨fun _ => rfl, fun _ => Nat.zero_le _⟩ fun s i s' ih _ hs => ?_
  exact ih.of_effect (step_effect hs)

/-- All abandoned connections. -/
def lost (s : GatewayAccept) : ℕ := s.connections.countP (·.phase = .abandoned)

lemma lost_of_effect (heffect : Effect s i s') :
    (s.StartsWork i → s'.lost = s.lost) ∧ (¬ s.StartsWork i → s'.lost = s.lost + 1) := by
  cases heffect with
  | quiet hok _ hconnections | decremented hok _ _ _ _ hconnections =>
    exact ⟨fun _ => by rw [lost, hconnections, lost], fun hbad => absurd hok hbad⟩
  | counted hok key hbelow hstored hconnections =>
    exact ⟨fun _ => by simp [lost, hconnections, List.countP_append], fun hbad => absurd hok hbad⟩
  | started hok n c hc hphase hstored hconnections =>
    refine ⟨fun _ => ?_, fun hbad => absurd hok hbad⟩
    simpa [lost, hconnections, hphase] using
      countP_set_add (p := fun c => c.phase = .abandoned) hc { c with phase := .working }
  | finished hok n c hc hphase hstored hconnections =>
    refine ⟨fun _ => ?_, fun hbad => absurd hok hbad⟩
    have hne : c.phase ≠ .abandoned := by rcases hphase with hphase | hphase <;> simp [hphase]
    simpa [lost, hconnections, hne] using
      countP_set_add (p := fun c => c.phase = .abandoned) hc { c with phase := .ended }
  | abandoned hbad n c hc hphase hstored hconnections =>
    refine ⟨fun hok => absurd hok hbad, fun _ => ?_⟩
    simpa [lost, hconnections, hphase] using
      countP_set_add (p := fun c => c.phase = .abandoned) hc { c with phase := .abandoned }

/-- An abandoned connection stays in the list, and only a bad step adds one. -/
lemma lost_eq_zero_iff (h : Run step (new killSwitch) s) :
    s.lost = 0 ↔ GuardedRun step StartsWork (new killSwitch) s := by
  constructor
  · induction h with
    | start => exact fun _ => .start
    | @step s s' i _ _ hs ih =>
      intro hlost
      have heffect := lost_of_effect (step_effect hs)
      by_cases hok : s.StartsWork i
      · exact .step (ih ((heffect.1 hok).symm.trans hlost)) hok hs
      · rw [heffect.2 hok] at hlost
        cases hlost
  · intro hguarded
    refine hguarded.invariant (I := fun s => s.lost = 0) rfl fun s i s' ih hok hs => ?_
    rw [(lost_of_effect (step_effect hs)).1 hok, ih]

/-- No count goes above the cap. The counts are those of the live connections and of the
decrements to come exactly if no task was stopped before it had polled its work. -/
theorem counts_exact_iff (h : Run step (new killSwitch) s) :
    (∀ key, s.stored key ≤ MAX_CONCURRENT_PER_IP) ∧
      ((∀ key, s.stored key = s.live key + s.scheduled key) ↔
        GuardedRun step StartsWork (new killSwitch) s) := by
  have htallied := tallied_of_run h
  refine ⟨htallied.capped, ?_⟩
  rw [← lost_eq_zero_iff h, lost, List.countP_eq_zero]
  have habandoned (key : IpAddr) : s.stored key = s.live key + s.scheduled key ↔
      s.inPhase key [.abandoned] = 0 := by
    have hexact := htallied.exact key
    have hsplit := s.outstanding_eq key
    omega
  simp only [habandoned, inPhase, List.countP_eq_zero]
  constructor
  · intro hnone c hc
    simpa using hnone c.key c hc
  · intro hnone key c hc
    have := hnone c hc
    simp_all

/-- A connection is accepted and polled before the switch trips. -/
theorem finished_connection_counted : ∃ s,
    runInputs step (new (.withThreshold 1 (10 ^ 9) 0))
      [.check, .acquire, .accept (.v4 [192, 0, 2, 1]), .count, .poll 0 .cancellation, .switch .trip,
        .switch .advance, .switch .advance, .switch .advance, .finish 0] = some s ∧
      (∀ key, s.stored key ≤ MAX_CONCURRENT_PER_IP) ∧
      ((∀ key, s.stored key = s.live key + s.scheduled key) ↔
        GuardedRun step StartsWork (new (.withThreshold 1 (10 ^ 9) 0)) s) := by
  obtain ⟨s, hs⟩ := Option.isSome_iff_exists.mp (show (runInputs step
      (new (.withThreshold 1 (10 ^ 9) 0))
      [.check, .acquire, .accept (.v4 [192, 0, 2, 1]), .count, .poll 0 .cancellation, .switch .trip,
        .switch .advance, .switch .advance, .switch .advance, .finish 0]).isSome = true by
    decide +kernel)
  exact ⟨s, hs, counts_exact_iff (Run.of_inputs _ hs)⟩

/-- A connection comes while the switch is active, and its task polls the subscription first. -/
def abandonedConnection (ip : IpAddr) (n : ℕ) : List AcceptInput :=
  [.check, .acquire, .switch .trip, .switch .advance, .switch .advance, .switch .advance, .accept ip,
    .count, .poll n .cancellation, .switch .reset, .switch .advance, .switch .advance,
    .switch .advance]

/-- Eight such connections of a client, and another one. -/
def abandonedClient (ip : IpAddr) : List AcceptInput :=
  (List.range 8).flatMap (abandonedConnection ip) ++ [.check, .acquire, .accept ip, .count]

/-- The client is refused although it has no connection left. -/
theorem abandonedClient_refused : ∃ s,
    runInputs step (new (.withThreshold 1 (10 ^ 9) 0)) (abandonedClient (.v4 [192, 0, 2, 1])) =
        some s ∧ s.phase = .checking ∧ s.connections.length = 8 ∧
      s.stored (.v4 [192, 0, 2, 1]) = 8 ∧ s.live (.v4 [192, 0, 2, 1]) = 0 ∧
      s.scheduled (.v4 [192, 0, 2, 1]) = 0 := by
  have hlook : (runInputs step (new (.withThreshold 1 (10 ^ 9) 0))
      (abandonedClient (.v4 [192, 0, 2, 1]))).map (fun s => (s.phase, s.connections.length,
        s.stored (.v4 [192, 0, 2, 1]), s.live (.v4 [192, 0, 2, 1]),
        s.scheduled (.v4 [192, 0, 2, 1]))) = some (.checking, 8, 8, 0, 0) := by
    decide +kernel
  obtain ⟨s, hs, hview⟩ := Option.map_eq_some_iff.mp hlook
  simp only [Prod.mk.injEq] at hview
  exact ⟨s, hs, hview⟩

end GatewayAccept

end AnonGuard
