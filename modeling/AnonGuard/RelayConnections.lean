import AnonGuard.OnionBackward
import AnonGuard.Relay

/-!
# What a relay connects to

Every connection that a relay opens for a circuit goes to an address that the exit policy
permits, out of an answer with permitted addresses only, and to a port that is not blocked.
A relay that is not an exit has found the target in a directory that was unexpired at the
time, and never starts a session.
-/
namespace AnonGuard

section Directory
variable {E : PoolEnv} {p : Pool} {s s' : PoolState} {i : PoolInput} {now : UInt64} {p' : Pool}
  {published : Option UInt64}

/-- The pool publishes the relays of a document that had a quorum when it was loaded. -/
structure Pool.Serves (E : PoolEnv) (p : Pool) (d : ConsensusDocument) : Prop where
  quorum : ∃ authorities threshold now,
    d.verifyQuorum E.toDirectoryEnv authorities threshold now = true
  accepted : p.acceptedSnapshot = some (d.acceptedAs E.toDirectoryEnv)
  deadline : p.consensusDeadline = d.validUntil
  endpoints : ∃ nodes, Publishes E (live p.revoked d.relays) nodes p.identityKeys

/-- The endpoint is that of a relay in the pool's snapshot, and the snapshot is unexpired
at the given time. -/
def Pool.ListsEndpoint (E : PoolEnv) (p : Pool) (host : String) (port : UInt16) (now : UInt64) :
    Prop :=
  ∃ d, p.Serves E d ∧ now < d.validUntil ∧ ∃ r ∈ live p.revoked d.relays, ∃ node,
    relayNode E r = .ok node ∧ node.host = host ∧ node.port = port

/-- The pool is empty, or it serves a snapshot. -/
def Pool.Backed (E : PoolEnv) (p : Pool) : Prop := p.identityKeys = [] ∨ ∃ d, p.Serves E d

/-- The deadline is not over at the given time, as `directory_expired` sees it. -/
def Pool.Current (p : Pool) (now : UInt64) : Prop :=
  p.consensusDeadline = 0 ∨ now < p.consensusDeadline

lemma Pool.current_of_not_expired (h : p.directoryExpired now = false) :
    p.Current now := by
  unfold Pool.directoryExpired at h
  by_cases hzero : p.consensusDeadline = 0
  · exact .inl hzero
  · refine .inr ?_
    simpa [hzero] using h

lemma Pool.exists_of_isMeshEndpoint {d : ConsensusDocument} {host : String} {port : UInt16}
    (hserves : p.Serves E d) (h : p.isMeshEndpoint host port = true) :
    ∃ r ∈ live p.revoked d.relays, ∃ node, relayNode E r = .ok node ∧ node.host = host ∧
      node.port = port := by
  obtain ⟨pin, hpin⟩ := Option.isSome_iff_exists.mp h
  obtain ⟨nodes, hpublishes⟩ := hserves.endpoints
  obtain ⟨r, hr, node, hnode, hkey, -⟩ := hpublishes.exists_of_lookup hpin
  exact ⟨r, hr, node, hnode, endpointKey_inj hkey⟩

/-- An endpoint that is found while the deadline is not over is in an unexpired snapshot. -/
theorem Pool.listsEndpoint_of_current {host : String} {port : UInt16}
    (hbacked : p.Backed E) (hcurrent : p.Current now) (h : p.isMeshEndpoint host port = true) :
    p.ListsEndpoint E host port now := by
  obtain hempty | ⟨d, hserves⟩ := hbacked
  · simp [isMeshEndpoint, hempty] at h
  · refine ⟨d, hserves, ?_, exists_of_isMeshEndpoint hserves h⟩
    obtain ⟨authorities, threshold, loadedAt, hquorum⟩ := hserves.quorum
    obtain ⟨-, hwindow, -⟩ := ConsensusDocument.signers_of_verifyQuorum hquorum
    have hpos : loadedAt < d.validUntil := by
      simp only [ConsensusDocument.inWindow, Bool.and_eq_true, decide_eq_true_eq] at hwindow
      exact hwindow.2
    unfold Current at hcurrent
    rw [hserves.deadline] at hcurrent
    obtain hzero | hlt := hcurrent
    · rw [hzero] at hpos
      exact absurd hpos (UInt64.not_lt_zero)
    · exact hlt

/-- A directory that has just been published is backed, and in its window. -/
lemma Pool.served_of_prepareLoad {docs : List ConsensusDocument} {authorities : Authorities}
    {threshold : ℕ} {order : HashOrder ConsensusDocument}
    {selected : ConsensusDocument} {staged : Staged}
    (h : p.prepareLoad E docs authorities threshold now order = .ok (selected, staged)) :
    (p.publish E selected staged).Serves E selected ∧ (p.publish E selected staged).Current now := by
  obtain ⟨hselect, -, hstage, -⟩ := prepareLoad_eq_ok_iff.mp h
  obtain ⟨-, hquorum⟩ :=
    ConsensusDocument.mem_candidates.mp (ConsensusDocument.selectSnapshot_eq_ok hselect)
  obtain ⟨-, hwindow, -⟩ := ConsensusDocument.signers_of_verifyQuorum hquorum
  refine ⟨⟨⟨authorities, threshold, now, hquorum⟩, rfl, rfl, _, publishes_of_stage hstage⟩, .inr ?_⟩
  simp only [ConsensusDocument.inWindow, Bool.and_eq_true, decide_eq_true_eq] at hwindow
  exact hwindow.2

/-- What a step does to the directory of a process that goes on running: nothing, or it
publishes a snapshot and says so. -/
inductive PoolState.Turns (E : PoolEnv) (p p' : Pool) : Option UInt64 → Prop
  | kept (hkeys : p'.identityKeys = p.identityKeys) (hdeadline : p'.consensusDeadline = p.consensusDeadline)
      (hrevoked : p'.revoked = p.revoked) (haccepted : p'.acceptedSnapshot = p.acceptedSnapshot) :
      Turns E p p' none
  | published (d : ConsensusDocument) (now : UInt64) (hserves : p'.Serves E d)
      (hcurrent : p'.Current now) : Turns E p p' (some now)

lemma PoolState.turns_of_step {p p' : Pool} (hp : s.running = some p) (hp' : s'.running = some p')
    (h : s.step E i = some s') : Turns E p p' (i.publishedAt s s') := by
  cases i with
  | load docs authorities threshold now order write =>
    simp only [step, hp, Option.map_some, Option.some.injEq] at h
    subst h
    cases hp'
    obtain ⟨e, hresult, hpool, -⟩ | ⟨selected, staged, hprepare, hresult, hpool, -⟩ :=
      Pool.load_cases E p s.snapshotFile docs authorities threshold now order write rfl
    · have hnone : PoolInput.publishedAt s (s.load (p.loadFromMultiConsensus E s.snapshotFile docs
          authorities threshold now order write)) (.load docs authorities threshold now order write) =
          none := by
        simp [PoolInput.publishedAt, PoolState.load, hresult]
      rw [hnone, hpool]
      exact .kept rfl rfl rfl rfl
    · have hsome : PoolInput.publishedAt s (s.load (p.loadFromMultiConsensus E s.snapshotFile docs
          authorities threshold now order write)) (.load docs authorities threshold now order write) =
          some now := by
        simp [PoolInput.publishedAt, PoolState.load, hresult, hpool, Pool.publish]
      obtain ⟨hserves, hcurrent⟩ := Pool.served_of_prepareLoad hprepare
      rw [hsome, hpool]
      exact .published selected now hserves hcurrent
  | start | crash | selectPublic | selectBridge | linkFailure | blocked =>
    obtain ⟨hkeys, hdeadline, hrevoked, haccepted⟩ := directory_kept h hp hp' (by simp)
    exact .kept hkeys hdeadline hrevoked haccepted

lemma Pool.Serves.congr {d : ConsensusDocument} (h : p.Serves E d)
    (hkeys : p'.identityKeys = p.identityKeys) (hdeadline : p'.consensusDeadline = p.consensusDeadline)
    (hrevoked : p'.revoked = p.revoked) (haccepted : p'.acceptedSnapshot = p.acceptedSnapshot) :
    p'.Serves E d :=
  ⟨h.quorum, haccepted.trans h.accepted, hdeadline.trans h.deadline,
    by rw [hkeys, hrevoked]; exact h.endpoints⟩

lemma PoolState.Turns.backed (h : Turns E p p' published) (hp : p.Backed E) : p'.Backed E := by
  cases h with
  | kept hkeys hdeadline hrevoked haccepted =>
    obtain hempty | ⟨d, hserves⟩ := hp
    · exact .inl (hkeys.trans hempty)
    · exact .inr ⟨d, hserves.congr hkeys hdeadline hrevoked haccepted⟩
  | published d now hserves => exact .inr ⟨d, hserves⟩

lemma PoolState.Turns.current {checkedAt : UInt64}
    (h : Turns E p p' published) (hp : p.Current checkedAt) : p'.Current (published.getD checkedAt) := by
  cases h with
  | kept hkeys hdeadline =>
    unfold Pool.Current
    rwa [hdeadline]
  | published d now hserves hcurrent => exact hcurrent

/-- A process starts with an empty directory. -/
lemma PoolState.backed_of_start (hstopped : s.running = none)
    (hp' : s'.running = some p') (h : s.step E i = some s') : p'.identityKeys = [] := by
  cases i with
  | start =>
    obtain ⟨-, rfl | rfl⟩ := start_cases h
    · rw [hstopped] at hp'
      cases hp'
    · cases hp'
      rfl
  | crash =>
    cases h
    cases hp'
  | load | selectPublic | selectBridge | linkFailure | blocked => simp [step, hstopped] at h

end Directory

/-- The target that a cell names. -/
def cellTarget (command : CellCommand) (payload : Bytes) : Option (String × UInt16) :=
  if command = .extend then
    (decodeExtendPayload (payload.take (payload.length - 32))).toOption.map fun body =>
      (body.host, body.port)
  else (decodeRelayTarget payload).toOption

section Link
variable {E : RelayEnv} {C : RelayConfig E} {s s' : RelayLink} {hop : RelayCircuitHop}
  {purpose : ConnectPurpose} {check : Option DirectoryCheck} {call : ConnectCall} {p : Pool}
  {payload : Bytes}

/-- What the relay has checked about a connection when it opens it. -/
structure OpenedConnection.Permitted (C : RelayConfig E) (o : OpenedConnection) : Prop where
  command : o.command ∈ [CellCommand.extend, .relay, .sessionOpen]
  target : cellTarget o.command o.payload = some (o.host, o.port)
  port : o.port ∉ C.policy.blockedPorts
  ip : C.policy.isIpPermitted o.ip = true
  resolved : o.ip ∈ o.answer
  answer : ∀ ip ∈ o.answer, C.policy.isIpPermitted ip = true
  listed : C.isExitAllowed = false →
    ∃ c ∈ o.check, c.pool.ListsEndpoint E.toPoolEnv o.host o.port c.checkedAt

/-- What the relay has checked about a target before it connects. -/
structure TargetChecked (C : RelayConfig E) (command : CellCommand) (payload : Bytes) (host : String)
    (port : UInt16) (check : Option DirectoryCheck) : Prop where
  connects : command ∈ [CellCommand.extend, .relay, .sessionOpen]
  target : cellTarget command payload = some (host, port)
  listed : C.isExitAllowed = false →
    ∃ c ∈ check, c.pool.ListsEndpoint E.toPoolEnv host port c.checkedAt

lemma ConnectCall.permitted_of_opens {command : CellCommand} (hcall : call.Checked C.policy)
    (htarget : TargetChecked C command payload call.host call.port check) :
    ∀ o ∈ call.opens command payload check, o.Permitted C := by
  intro o ho
  obtain ⟨⟨ip, answer⟩, hattempt, rfl⟩ := List.mem_map.mp ho
  rw [Option.mem_toList, attempt] at hattempt
  cases hstage : call.stage with
  | resolving => simp [hstage] at hattempt
  | trying =>
    simp only [hstage, Option.some.injEq, Prod.mk.injEq] at hattempt
    obtain ⟨rfl, rfl⟩ := hattempt
    obtain ⟨hpermitted, hmem, -⟩ := hcall.answer _ _ _ hstage
    exact ⟨htarget.connects, htarget.target, hcall.port, hpermitted _ hmem, hmem, hpermitted, htarget.listed⟩

lemma ConnectPurpose.command_mem (purpose : ConnectPurpose) :
    purpose.command ∈ [CellCommand.extend, .relay, .sessionOpen] := by
  cases purpose with
  | extend => exact List.mem_cons_self ..
  | relay => exact List.mem_cons_of_mem _ (List.mem_cons_self ..)

/-- The call of a session's task has passed the checks. -/
def DialTask.Sound (C : RelayConfig E) : DialTask → Prop
  | .running payload call => call.Checked C.policy ∧
      cellTarget .sessionOpen payload = some (call.host, call.port)
  | .finished _ => True

/-- What the task of a link knows while it waits. -/
def RelayPhase.Sound (C : RelayConfig E) (directory : PoolState) : RelayPhase → Prop
  | .checking _ purpose checkedAt =>
    cellTarget purpose.command purpose.payload = some (purpose.host, purpose.port) ∧
      ∃ p, directory.running = some p ∧ p.Current checkedAt
  | .connecting _ purpose check call => call.Checked C.policy ∧
    TargetChecked C purpose.command purpose.payload call.host call.port check
  | .session _ _ dials => C.isExitAllowed = true ∧ ∀ d ∈ dials, d.2.Sound C
  | _ => True

structure RelayLink.Sound (C : RelayConfig E) (s : RelayLink) : Prop where
  directory : ∀ p, s.directory.running = some p → p.Backed E.toPoolEnv
  phase : s.phase.Sound C s.directory
  opened : ∀ o ∈ s.opened, o.Permitted C
  sessions : C.isExitAllowed = false → s.sessions = []

namespace RelayLink

/-- A step that opens nothing. -/
lemma Sound.move (h : s.Sound C) {phase : RelayPhase} (hphase : phase.Sound C s.directory) :
    Sound C { s with phase := phase } :=
  { h with phase := hphase }

lemma Sound.ends (h : s.Sound C) (result : Except String Unit) : (s.ends result).Sound C :=
  h.move trivial

lemma Sound.create (h : s.Sound C) (frame : Frame) (eph : RelayEphemeral) :
    (create C s frame eph).Sound C := by
  unfold RelayLink.create
  split
  · exact h.ends _
  · split
    · exact h.ends _
    · exact h.move trivial

lemma Sound.dial (h : s.Sound C)
    (htarget : TargetChecked C purpose.command purpose.payload purpose.host purpose.port check) :
    (dial C s hop purpose check).Sound C := by
  unfold RelayLink.dial
  split
  · exact h.ends _
  · cases hcall : C.policy.resolveAndConnect E.toDirectoryEnv purpose.host purpose.port with
    | error => exact h.ends _
    | ok =>
      obtain ⟨hchecked, rfl⟩ := ExitPolicy.checked_of_resolveAndConnect hcall
      exact h.move ⟨hchecked, htarget⟩

lemma Sound.checkTarget (h : s.Sound C) (hp : s.directory.running = some p) (now : UInt64)
    (htarget : cellTarget purpose.command purpose.payload = some (purpose.host, purpose.port)) :
    (checkTarget C s p hop purpose now).Sound C := by
  unfold RelayLink.checkTarget
  split
  · rename_i hexit
    refine h.dial ⟨purpose.command_mem, htarget, fun hnot => ?_⟩
    rw [hexit] at hnot
    cases hnot
  · split
    · exact h.ends _
    · rename_i hcurrent
      exact h.move ⟨htarget, p, hp, Pool.current_of_not_expired (by simpa using hcurrent)⟩

/-- A session starts at an exit only. -/
lemma Sound.startSession (h : s.Sound C) (frame : Frame) (len : ℕ) (padding : Padding)
    (interval : ℕ) : (startSession C s hop frame len padding interval).Sound C := by
  unfold RelayLink.startSession
  split
  · exact h.ends _
  · rename_i hallowed
    have hexit : C.isExitAllowed = true := by simpa using (not_or.mp hallowed).1
    split
    · exact h.ends _
    · split
      · exact h.ends _
      · split
        · exact h.ends _
        · split
          · exact h.ends _
          · refine { h with phase := ⟨hexit, by simp⟩, sessions := fun hnot => ?_ }
            rw [hexit] at hnot
            cases hnot

lemma cellTarget_of_extendBody {body : ExtendBody} (h : hop.extendBody payload = .ok body) :
    cellTarget .extend payload = some (body.host, body.port) := by
  unfold RelayCircuitHop.extendBody at h
  split_ifs at h with hsize
  cases hdecode : decodeExtendPayload (payload.take (payload.length - 32)) with
  | error => simp [hdecode] at h
  | ok =>
    simp only [hdecode] at h
    split_ifs at h
    cases h
    simp [cellTarget, hdecode, Except.toOption]

lemma Sound.setup (h : s.Sound C) (hp : s.directory.running = some p) (frame : Frame) (now : UInt64)
    (padding : Padding) (interval : ℕ) : (setup C s p hop frame now padding interval).Sound C := by
  unfold RelayLink.setup
  split
  · dsimp only
    split
    · exact h.ends _
    · rename_i body hbody
      exact h.checkTarget hp now (cellTarget_of_extendBody hbody)
  · exact h.startSession _ _ _ _
  · dsimp only
    split
    · exact h.move trivial
    · rename_i host port hdecode
      exact h.checkTarget hp now (by simp [cellTarget, ConnectPurpose.command,
        ConnectPurpose.payload, ConnectPurpose.host, ConnectPurpose.port, hdecode, Except.toOption])
  · exact h.ends _

lemma Sound.connected (h : s.Sound C) (padding : Padding) (written : Bool) (start : ℕ) :
    (connected E s hop purpose padding written start).Sound C := by
  unfold RelayLink.connected
  split
  · exact h.move trivial
  · split
    · exact h.move trivial
    · split
      · exact h.ends _
      · split
        · exact h.move trivial
        · exact h.move trivial

lemma Sound.created (h : s.Sound C) {body : ExtendBody} (nextId : UInt32) (padding : Padding)
    (response : Frame) (written : Bool) :
    (created E s hop body nextId padding response written).Sound C := by
  unfold RelayLink.created
  split
  · exact h.ends _
  · split
    · exact h.ends _
    · split
      · exact h.move trivial
      · exact h.ends _

lemma Sound.forward (h : s.Sound C) (downstreamId : UInt32) (frame : Frame) (written : Bool) :
    (forward E s hop downstreamId frame written).Sound C := by
  unfold RelayLink.forward
  split
  · exact h.move trivial
  · exact h.ends _

lemma Sound.withStream (h : s.Sound C) (stream : StreamExit) : (s.withStream hop stream).Sound C := by
  unfold RelayLink.withStream
  split
  · exact h.move trivial
  · exact h.ends _
  · exact h.ends _

lemma Sound.exitFrame (h : s.Sound C) (stream : StreamExit) (now : ℕ) (frame : Frame) :
    (exitFrame E s hop stream now frame).Sound C := by
  unfold RelayLink.exitFrame
  split
  · exact h.withStream _
  · exact h.ends _

lemma Sound.exitFlush (h : s.Sound C) {stream : StreamExit}
    (hstep : s.exitFlush hop stream = some s') : s'.Sound C := by
  unfold RelayLink.exitFlush at hstep
  split at hstep
  · cases hstep
    exact h.withStream _
  · cases hstep
    exact h.ends _
  · cases hstep

variable {dials : List (ℕ × DialTask)}

lemma Sound.withActor (h : s.Sound C) (actor : Endpoint)
    (hexit : C.isExitAllowed = true) (hdials : ∀ d ∈ dials, d.2.Sound C) :
    (s.withActor hop actor dials).Sound C := by
  unfold RelayLink.withActor
  split
  · exact h.move ⟨hexit, hdials⟩
  all_goals exact h.ends _

lemma sound_of_spawned {actor actor' : Endpoint} {cell : Except CircuitError SessionCell} :
    ∀ d ∈ spawned C actor actor' cell, d.2.Sound C := by
  unfold spawned
  split
  · simp
  · split
    · split
      · simp
      · rename_i c _ host port hdecode
        cases hcall : C.policy.resolveAndConnect E.toDirectoryEnv host port with
        | error => simp [DialTask.Sound]
        | ok =>
          obtain ⟨hchecked, rfl⟩ := ExitPolicy.checked_of_resolveAndConnect hcall
          intro d hd
          cases List.mem_singleton.mp hd
          exact ⟨hchecked, by simp [cellTarget, hdecode, Except.toOption]⟩
    · simp

lemma sound_setDial {id : ℕ} {task : DialTask}
    (hdials : ∀ d ∈ dials, d.2.Sound C) (htask : task.Sound C) :
    ∀ d ∈ setDial dials id task, d.2.Sound C := by
  intro d hd
  obtain ⟨d', hd', rfl⟩ := List.mem_map.mp hd
  split_ifs
  · exact htask
  · exact hdials d' hd'

lemma Sound.sessionFrame (h : s.Sound C) {actor : Endpoint}
    (hexit : C.isExitAllowed = true) (hdials : ∀ d ∈ dials, d.2.Sound C) {now : ℕ} {frame : Frame}
    (hstep : sessionFrame C s hop actor dials now frame = some s') : s'.Sound C := by
  unfold RelayLink.sessionFrame at hstep
  dsimp only at hstep
  split at hstep
  · cases hstep
  · cases hstep
    refine h.withActor _ hexit fun d hd => ?_
    obtain hd | hd := List.mem_append.mp hd
    · exact hdials d hd
    · exact sound_of_spawned d hd

/-- A step of a session's task opens only what its call has checked. -/
lemma Sound.stepDial (h : s.Sound C) {actor : Endpoint} {id : ℕ}
    {event : ConnectEvent} (hexit : C.isExitAllowed = true)
    (hdials : ∀ d ∈ dials, d.2.Sound C) (hcall : DialTask.Sound C (.running payload call))
    (hstep : stepDial C s hop actor dials id payload call event = some s') : s'.Sound C := by
  obtain ⟨hchecked, htarget⟩ := hcall
  unfold RelayLink.stepDial at hstep
  split at hstep
  · cases hstep
  · rename_i call' hwait
    cases hstep
    obtain ⟨hchecked', hhost, hport⟩ := hchecked.step hwait
    have htarget' : cellTarget .sessionOpen payload = some (call'.host, call'.port) := by
      rw [hhost, hport, htarget]
    refine { h with
      phase := ⟨hexit, sound_setDial hdials ⟨hchecked', htarget'⟩⟩
      opened := fun o ho => ?_ }
    obtain ho | ho := List.mem_append.mp ho
    · exact h.opened o ho
    · refine ConnectCall.permitted_of_opens hchecked' ⟨by decide, htarget', fun hnot => ?_⟩ o ho
      rw [hexit] at hnot
      cases hnot
  · cases hstep
    exact h.move ⟨hexit, sound_setDial hdials trivial⟩
  · cases hstep
    exact h.move ⟨hexit, sound_setDial hdials trivial⟩

/-- A step of `resolve_and_connect` opens only what the call has checked. -/
lemma Sound.stepConnect (h : s.Sound C) {event : ConnectEvent} {padding : Padding} {written : Bool}
    {start : ℕ} (hcall : call.Checked C.policy)
    (htarget : TargetChecked C purpose.command purpose.payload call.host call.port check)
    (hstep : stepConnect C s hop purpose check call event padding written start = some s') :
    s'.Sound C := by
  unfold RelayLink.stepConnect at hstep
  split at hstep
  · cases hstep
  · rename_i call' hwait
    cases hstep
    obtain ⟨hchecked', hhost, hport⟩ := hcall.step hwait
    have htarget' : TargetChecked C purpose.command purpose.payload call'.host call'.port check := by
      rw [hhost, hport]
      exact htarget
    refine { h with phase := ⟨hchecked', htarget'⟩, opened := fun o ho => ?_ }
    obtain ho | ho := List.mem_append.mp ho
    · exact h.opened o ho
    · exact ConnectCall.permitted_of_opens hchecked' htarget' o ho
  · cases hstep
    exact h.ends _
  · cases hstep
    exact h.connected _ _ _

/-- What waits for a look-up may connect after it. -/
lemma Sound.lookUp (h : s.Sound C) (hp : s.directory.running = some p) {checkedAt : UInt64}
    (hphase : RelayPhase.Sound C s.directory (.checking hop purpose checkedAt))
    (hlisted : p.isMeshEndpoint purpose.host purpose.port = true) :
    (RelayLink.dial C s hop purpose (some ⟨p, checkedAt⟩)).Sound C := by
  obtain ⟨htarget, q, hq, hcurrent⟩ := hphase
  rw [hp, Option.some.injEq] at hq
  subst hq
  refine h.dial ⟨purpose.command_mem, htarget, fun _ => ⟨_, rfl, ?_⟩⟩
  exact Pool.listsEndpoint_of_current (h.directory p hp) hcurrent hlisted

/-- One step of the task. -/
lemma Sound.stepPhase (h : s.Sound C) (hp : s.directory.running = some p) {i : LinkInput}
    (hstep : stepPhase C s p s.phase i = some s') : s'.Sound C := by
  have hphase := h.phase
  generalize s.phase = phase at hphase hstep
  unfold RelayLink.stepPhase at hstep
  split at hstep
  · cases hstep
    exact h.create _ _
  · cases hstep
    exact h.setup hp _ _ _ _
  · cases hstep
    split
    · rename_i hlisted
      exact h.lookUp hp hphase hlisted
    · exact h.ends _
  · exact h.stepConnect hphase.1 hphase.2 hstep
  · split_ifs at hstep
    cases hstep
    exact h.created _ _ _ _
  · cases hstep
    exact h.forward _ _ _
  · cases hstep
    split
    · exact h
    · exact h.ends _
  · split_ifs at hstep
    cases hstep
    exact h.exitFrame _ _ _
  · obtain ⟨stream, -, rfl⟩ := Option.map_eq_some_iff.mp hstep
    exact h.withStream _
  · exact h.exitFlush hstep
  · exact h.sessionFrame hphase.1 hphase.2 hstep
  · split_ifs at hstep
    obtain ⟨actor, -, rfl⟩ := Option.map_eq_some_iff.mp hstep
    exact h.withActor _ hphase.1 hphase.2
  · split at hstep
    · rename_i payload call hlookup
      exact h.stepDial hphase.1 hphase.2 (hphase.2 _ (mem_of_lookup hlookup)) hstep
    · cases hstep
  · split at hstep
    · obtain ⟨actor, -, rfl⟩ := Option.map_eq_some_iff.mp hstep
      exact h.withActor _ hphase.1 fun d hd => hphase.2 d (List.mem_filter.mp hd).1
    · cases hstep
  · cases hstep
  · cases hstep
    exact h.ends _
  · cases hstep

/-- One step of the process around the link. -/
lemma Sound.directoryStep (h : s.Sound C) {i : PoolInput} {directory : PoolState}
    (hstep : s.directory.step E.toPoolEnv i = some directory) :
    Sound C { s with directory := directory, phase := s.phaseAfter directory i } := by
  refine { h with directory := fun p' hp' => ?_, phase := ?_ }
  · cases hp : s.directory.running with
    | none => exact .inl (PoolState.backed_of_start hp hp' hstep)
    | some p => exact (PoolState.turns_of_step hp hp' hstep).backed (h.directory p hp)
  · have hphase := h.phase
    unfold RelayLink.phaseAfter
    split
    · trivial
    · rename_i halive
      cases hs : s.phase with
      | checking =>
        rw [hs] at hphase
        obtain ⟨htarget, p, hp, hcurrent⟩ := hphase
        obtain ⟨p', hp'⟩ : ∃ p', directory.running = some p' := by
          simpa [hp, ← Option.ne_none_iff_exists'] using halive
        exact ⟨htarget, p', hp', (PoolState.turns_of_step hp hp' hstep).current hcurrent⟩
      | greeting | awaiting => trivial
      | connecting | session =>
        rw [hs] at hphase
        exact hphase
      | linking | intermediate | exiting => trivial
      | ended => trivial

lemma Sound.step (h : s.Sound C) {i : LinkInput} (hstep : step C s i = some s') : s'.Sound C := by
  unfold RelayLink.step at hstep
  split at hstep
  · obtain ⟨directory, hdirectory, rfl⟩ := Option.map_eq_some_iff.mp hstep
    exact h.directoryStep hdirectory
  · split at hstep
    · cases hstep
    · rename_i p hp
      exact h.stepPhase hp hstep

/-- In every run, whatever cells the peer sends and however the directory changes: every
connection has passed the checks, and a relay that is not an exit starts no session. -/
theorem connections_permitted {directory : PoolState}
    (hfresh : ∀ p, directory.running = some p → ∃ revoked, p = Pool.withRevokedIdentities revoked)
    (hrun : Run (step C) (new directory) s) :
    (∀ o ∈ s.opened, o.Permitted C) ∧ (C.isExitAllowed = false → s.sessions = []) := by
  have hnew : (new directory).Sound C := by
    refine ⟨fun p hp => .inl ?_, trivial, by simp [new], fun _ => rfl⟩
    obtain ⟨revoked, rfl⟩ := hfresh p hp
    rfl
  have hs : s.Sound C := hrun.invariant hnew fun _ _ _ h _ hstep => h.step hstep
  exact ⟨hs.opened, hs.sessions⟩

end RelayLink

end Link

section Sample

/-- Key agreements with constant secrets, and keys that are their labels. -/
def sampleRelayEnv : RelayEnv where
  toPoolEnv := samplePool
  x25519Public _ := List.replicate 32 9
  diffieHellman _ _ := [1]
  mlkemPublic _ := List.replicate 1184 0
  encapsulate _ _ := some (List.replicate 1088 0, [2])
  decapsulate _ _ := some [2]
  expand _ _ info := some info
  length_x25519Public := sampleHandshake.length_x25519Public
  length_mlkemPublic := sampleHandshake.length_mlkemPublic
  length_cipher := sampleHandshake.length_cipher
  primitives := identityPrimitives

/-- A middle relay with the default policy. -/
def sampleMiddle : RelayConfig sampleRelayEnv := ⟨sampleKey 7, false, none, .strict⟩

def sampleFrame (command : CellCommand) (sequenceNo : UInt32) (data : Bytes) : Option Frame :=
  ((OnionCell.new 7 sequenceNo command 0 data samplePadding).toOption).map OnionCell.serialize

def sampleCreate : Option Frame :=
  (buildCreateCell 7 (List.replicate 32 9) (List.replicate 1184 0) 0 samplePadding).toOption.map
    OnionCell.serialize

def sampleExtend : Option Frame :=
  (encodeExtendPayload "1.1.1.1" 9001 (List.replicate 32 9) (List.replicate 1184 0) 1).toOption.bind
    fun body => sampleFrame .extend 1 (body ++ List.replicate 32 7)

def sampleProcessState : PoolState := ⟨some (Pool.withRevokedIdentities []), none, none, [], []⟩

/-- A directory is loaded, and a client extends its circuit to one of the relays in it. -/
def sampleExtension : List LinkInput :=
  match sampleCreate, sampleExtend with
  | some create, some extend =>
    [.directory (.load [Pool.sampleDirectory 900 [poolRelay 1, poolRelay 2]] Pool.twoAuthorities 2
        1000 (.listed _) .done),
      .create create ⟨[], [], samplePadding⟩, .setup extend 1100 samplePadding 0, .lookUp,
      .connect (.resolved (.ok [.v4 [1, 1, 1, 1]])) samplePadding true 0]
  | _, _ => []

def sampleExtended : RelayLink :=
  (runInputs (RelayLink.step sampleMiddle) (.new sampleProcessState) sampleExtension).getD
    (.new sampleProcessState)

theorem sampleExtended_permitted :
    sampleExtended.opened.map (fun o => (o.command, o.host, o.port, o.ip)) =
      [(.extend, "1.1.1.1", 9001, .v4 [1, 1, 1, 1])] ∧
    (∀ o ∈ sampleExtended.opened, o.Permitted sampleMiddle) ∧ sampleExtended.sessions = [] := by
  have hfresh : ∀ p, sampleProcessState.running = some p →
      ∃ revoked, p = Pool.withRevokedIdentities revoked := by
    rintro p ⟨⟩
    exact ⟨[], rfl⟩
  have h := RelayLink.connections_permitted (C := sampleMiddle) hfresh
    (Run.getD_inputs sampleExtension)
  exact ⟨by decide +kernel, h.1, h.2 rfl⟩

end Sample

end AnonGuard
