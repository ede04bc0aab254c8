import AnonGuard.Socks
import AnonGuard.Transition

/-!
# The cache of padded sessions

Requests of one privacy context share a session. The cache maps the label of a context to
a slot, in which one of the requests that hold it starts the session while the others
wait. Slots are reclaimed on every lookup, also while requests still hold them, and a
request may be cancelled at any time. A session still only serves requests of the context
that it was started for.
-/
namespace AnonGuard

/-- The label of requests without credentials. -/
def DEFAULT_CONTEXT : Bytes := List.replicate 32 0

/-- A `OnceCell` for the result of a start. Sessions are numbered. -/
inductive SlotCell
  | empty
  | running
  | done (result : Except String ℕ)

/-- A slot, and the label that it was made for. -/
structure CacheSlot where
  key : Bytes
  cell : SlotCell

inductive RequestPhase
  | arrived
  | waiting (slot : ℕ)
  | starting (slot : ℕ)
  | served (session : ℕ)
  | failed (error : String)
  | cancelled
  deriving DecidableEq

def RequestPhase.holds (slot : ℕ) : RequestPhase → Bool
  | waiting slot' | starting slot' => slot' = slot
  | _ => false

/-- What a request makes of the result in its slot. -/
def RequestPhase.ofResult : Except String ℕ → RequestPhase
  | .ok session => served session
  | .error e => failed e

/-- A request, with all that its client has sent. -/
structure PaddedRequest where
  input : Bytes
  target : SocksRequest
  phase : RequestPhase

def PaddedRequest.key (r : PaddedRequest) : Bytes := r.target.context.getD DEFAULT_CONTEXT

/-- The map from labels to slots, every slot that was ever made, every request, and the
label of every session that was started. -/
structure PaddedGateway where
  entries : List (Bytes × ℕ)
  slots : List CacheSlot
  requests : List PaddedRequest
  sessions : List Bytes

inductive PaddedInput
  | arrive (input : Bytes)
  | lookup (request : ℕ) (alive : ℕ → Bool)
  | start (request : ℕ)
  | finish (request : ℕ) (error : Option String)
  | observe (request : ℕ)
  | cancel (request : ℕ)

/-- What the gateway is configured with. -/
structure PaddedConfig where
  env : DirectoryEnv
  disableIpv6 : Bool
  maximum : ℕ

namespace PaddedGateway

def new : PaddedGateway := ⟨[], [], [], []⟩

def setPhase (s : PaddedGateway) (i : ℕ) (r : PaddedRequest) (phase : RequestPhase) :
    PaddedGateway :=
  { s with requests := s.requests.set i { r with phase := phase } }

def setCell (s : PaddedGateway) (i : ℕ) (slot : CacheSlot) (cell : SlotCell) : PaddedGateway :=
  { s with slots := s.slots.set i { slot with cell := cell } }

/-- Read a request; a refused one leaves no trace. -/
def arrive (C : PaddedConfig) (s : PaddedGateway) (input : Bytes) : PaddedGateway :=
  match readSocks5RequestContext C.env true ⟨input, []⟩ with
  | .error _ _ => s
  | .ok target _ =>
    match C.disableIpv6, C.env.parseIp target.host with
    | true, some (.v6 _) => s
    | _, _ => { s with requests := s.requests ++ [⟨input, target, .arrived⟩] }

/-- The slots that a lookup keeps: those with a live session, and those without a result
that some request holds. -/
def retained (s : PaddedGateway) (alive : ℕ → Bool) : List (Bytes × ℕ) :=
  s.entries.filter fun entry =>
    match s.slots[entry.2]? with
    | some ⟨_, .done (.ok session)⟩ => alive session
    | some ⟨_, .done (.error _)⟩ => false
    | _ => s.requests.any (·.phase.holds entry.2)

/-- The part of `get_or_start` under the lock. -/
def lookup (C : PaddedConfig) (s : PaddedGateway) (alive : ℕ → Bool) (i : ℕ) (r : PaddedRequest) :
    PaddedGateway :=
  let s := { s with entries := s.retained alive }
  match s.entries.find? (·.1 = r.key) with
  | some entry => s.setPhase i r (.waiting entry.2)
  | none =>
    if C.maximum ≤ s.entries.length then s.setPhase i r (.failed "Privacy context limit reached")
    else
      let slot := s.slots.length
      let s : PaddedGateway := { s with
        entries := s.entries ++ [(r.key, slot)]
        slots := s.slots ++ [⟨r.key, .empty⟩] }
      s.setPhase i r (.waiting slot)

def step (C : PaddedConfig) (s : PaddedGateway) : PaddedInput → Option PaddedGateway
  | .arrive input => some (s.arrive C input)
  | .lookup i alive =>
    match s.requests[i]? with
    | some r => if r.phase = .arrived then some (s.lookup C alive i r) else none
    | none => none
  | .start i =>
    match s.requests[i]? with
    | some r =>
      match r.phase with
      | .waiting slot =>
        match s.slots[slot]? with
        | some ⟨key, .empty⟩ =>
          some ((s.setCell slot ⟨key, .empty⟩ .running).setPhase i r (.starting slot))
        | _ => none
      | _ => none
    | none => none
  | .finish i error =>
    match s.requests[i]? with
    | some r =>
      match r.phase with
      | .starting slot =>
        match s.slots[slot]? with
        | some found =>
          match error with
          | none =>
            let session := s.sessions.length
            let s := { s with sessions := s.sessions ++ [found.key] }
            some ((s.setCell slot found (.done (.ok session))).setPhase i r (.served session))
          | some e => some ((s.setCell slot found (.done (.error e))).setPhase i r (.failed e))
        | none => none
      | _ => none
    | none => none
  | .observe i =>
    match s.requests[i]? with
    | some r =>
      match r.phase with
      | .waiting slot =>
        match s.slots[slot]? with
        | some ⟨_, .done result⟩ => some (s.setPhase i r (.ofResult result))
        | _ => none
      | _ => none
    | none => none
  | .cancel i =>
    match s.requests[i]? with
    | some r =>
      match r.phase with
      | .arrived | .waiting _ => some (s.setPhase i r .cancelled)
      | .starting slot =>
        match s.slots[slot]? with
        | some found => some ((s.setCell slot found .empty).setPhase i r .cancelled)
        | none => none
      | _ => none
    | none => none

variable {C : PaddedConfig} {s s' : PaddedGateway} {i : ℕ}

/-- The slot was made for this label. -/
def MadeFor (s : PaddedGateway) (slot : ℕ) (key : Bytes) : Prop :=
  ∃ cell, s.slots[slot]? = some ⟨key, cell⟩

/-- What a phase may refer to: a slot made for the label, or a session started for it. -/
def Fits (s : PaddedGateway) (key : Bytes) : RequestPhase → Prop
  | .waiting slot | .starting slot => s.MadeFor slot key
  | .served session => s.sessions[session]? = some key
  | .arrived | .failed _ | .cancelled => True

/-- Labels are kept apart in the map, in the slots and in the requests. -/
structure Keyed (C : PaddedConfig) (s : PaddedGateway) : Prop where
  entries : ∀ entry ∈ s.entries, s.MadeFor entry.2 entry.1
  cells : ∀ (i : ℕ) (key : Bytes) (session : ℕ), s.slots[i]? = some ⟨key, .done (.ok session)⟩ →
    s.sessions[session]? = some key
  fits : ∀ r ∈ s.requests, s.Fits r.key r.phase
  parsed : ∀ r ∈ s.requests, ∃ t, readSocks5RequestContext C.env true ⟨r.input, []⟩ = .ok r.target t

lemma keyed_new : Keyed C new :=
  ⟨fun _ h => (by cases h), fun _ _ _ h => (by cases h), fun _ h => (by cases h),
    fun _ h => (by cases h)⟩

lemma Keyed.setPhase (h : Keyed C s) {r : PaddedRequest} (hr : s.requests[i]? = some r)
    {phase : RequestPhase} (hphase : s.Fits r.key phase) : Keyed C (s.setPhase i r phase) := by
  have hmem : r ∈ s.requests := List.mem_of_getElem? hr
  refine ⟨h.entries, h.cells, fun q hq => ?_, fun q hq => ?_⟩
  · rcases List.mem_or_eq_of_mem_set hq with hq | rfl
    · exact h.fits q hq
    · exact hphase
  · rcases List.mem_or_eq_of_mem_set hq with hq | rfl
    · exact h.parsed q hq
    · exact h.parsed r hmem

/-- Slots and sessions that stay what they were made for. -/
structure Extends (s s' : PaddedGateway) : Prop where
  slots : ∀ (i : ℕ) (key : Bytes), s.MadeFor i key → s'.MadeFor i key
  sessions : ∀ (i : ℕ) (key : Bytes), s.sessions[i]? = some key → s'.sessions[i]? = some key

lemma Extends.fits (h : s.Extends s') {key : Bytes} {phase : RequestPhase} (hf : s.Fits key phase) :
    s'.Fits key phase := by
  cases phase with
  | waiting slot | starting slot => exact h.slots slot key hf
  | served session => exact h.sessions session key hf
  | arrived | failed | cancelled => trivial

lemma madeFor_setCell {slot : CacheSlot} (hslot : s.slots[i]? = some slot) (cell : SlotCell)
    {j : ℕ} {key : Bytes} (h : s.MadeFor j key) : (s.setCell i slot cell).MadeFor j key := by
  obtain ⟨c, hc⟩ := h
  by_cases hij : i = j
  · subst hij
    rw [hslot, Option.some.injEq] at hc
    refine ⟨cell, ?_⟩
    simp [PaddedGateway.setCell, (List.getElem?_eq_some_iff.mp hslot).1, hc]
  · exact ⟨c, by simp [PaddedGateway.setCell, hij, hc]⟩

/-- A slot gets a new content; a session in it must be one of the slot's label. -/
lemma Keyed.setCell (h : Keyed C s) {slot : CacheSlot} (hslot : s.slots[i]? = some slot)
    {cell : SlotCell}
    (hcell : ∀ session, cell = .done (.ok session) → s.sessions[session]? = some slot.key) :
    Keyed C (s.setCell i slot cell) := by
  have hext : s.Extends (s.setCell i slot cell) :=
    ⟨fun j key hj => madeFor_setCell hslot cell hj, fun _ _ hj => hj⟩
  refine ⟨fun entry he => hext.slots _ _ (h.entries entry he), fun j key session hj => ?_,
    fun r hr => hext.fits (h.fits r hr), h.parsed⟩
  by_cases hij : i = j
  · subst hij
    simp only [PaddedGateway.setCell, List.getElem?_set_self (List.getElem?_eq_some_iff.mp hslot).1,
      Option.some.injEq, CacheSlot.mk.injEq] at hj
    exact hj.1 ▸ hcell session hj.2
  · refine h.cells j key session ?_
    simpa [PaddedGateway.setCell, hij] using hj

/-- One more session. -/
lemma Keyed.addSession (h : Keyed C s) (key : Bytes) :
    Keyed C { s with sessions := s.sessions ++ [key] } := by
  have hkept : ∀ (i : ℕ) (k : Bytes), s.sessions[i]? = some k → (s.sessions ++ [key])[i]? = some k :=
    fun i k hi => by rw [List.getElem?_append_left (List.getElem?_eq_some_iff.mp hi).1, hi]
  have hext : s.Extends { s with sessions := s.sessions ++ [key] } := ⟨fun _ _ hj => hj, hkept⟩
  exact ⟨h.entries, fun i k session hi => hkept _ _ (h.cells i k session hi),
    fun r hr => hext.fits (h.fits r hr), h.parsed⟩

lemma Keyed.arrive (h : Keyed C s) (input : Bytes) : Keyed C (s.arrive C input) := by
  unfold PaddedGateway.arrive
  split
  · exact h
  · rename_i target t hread
    split
    · exact h
    · refine ⟨h.entries, h.cells, fun r hr => ?_, fun r hr => ?_⟩
      · rcases List.mem_append.mp hr with hr | hr
        · exact h.fits r hr
        · rw [List.mem_singleton.mp hr]
          trivial
      · rcases List.mem_append.mp hr with hr | hr
        · exact h.parsed r hr
        · rw [List.mem_singleton.mp hr]
          exact ⟨t, hread⟩

lemma Keyed.lookup (h : Keyed C s) (alive : ℕ → Bool) {r : PaddedRequest}
    (hr : s.requests[i]? = some r) : Keyed C (s.lookup C alive i r) := by
  have hretained : Keyed C { s with entries := s.retained alive } :=
    ⟨fun entry he => h.entries entry (List.mem_of_mem_filter he), h.cells, h.fits, h.parsed⟩
  unfold PaddedGateway.lookup
  dsimp only
  split
  · rename_i entry hfind
    have hkey : entry.1 = r.key := by simpa using List.find?_some hfind
    exact hretained.setPhase hr (hkey ▸ hretained.entries entry (List.mem_of_find?_eq_some hfind))
  · split_ifs
    · exact hretained.setPhase hr trivial
    · -- a new slot at the end, made for the label of the request
      have hext : s.Extends { s with
          entries := s.retained alive ++ [(r.key, s.slots.length)]
          slots := s.slots ++ [⟨r.key, .empty⟩] } := by
        refine ⟨fun j key hj => ?_, fun _ _ hj => hj⟩
        obtain ⟨c, hc⟩ := hj
        exact ⟨c, by rw [List.getElem?_append_left (List.getElem?_eq_some_iff.mp hc).1, hc]⟩
      have hnew : MadeFor { s with
          entries := s.retained alive ++ [(r.key, s.slots.length)]
          slots := s.slots ++ [⟨r.key, .empty⟩] } s.slots.length r.key := ⟨.empty, by simp⟩
      refine Keyed.setPhase ⟨fun entry he => ?_, fun j key session hj => ?_,
        fun q hq => hext.fits (h.fits q hq), h.parsed⟩ hr hnew
      · rcases List.mem_append.mp he with he | he
        · exact hext.slots _ _ (hretained.entries entry he)
        · rw [List.mem_singleton.mp he]
          exact hnew
      · rw [List.getElem?_append] at hj
        split_ifs at hj
        · exact h.cells j key session hj
        · rw [List.getElem?_singleton] at hj
          split_ifs at hj
          cases hj

lemma Keyed.step (h : Keyed C s) {i : PaddedInput} (hs : step C s i = some s') : Keyed C s' := by
  cases i with
  | arrive input =>
    cases hs
    exact h.arrive input
  | lookup i alive =>
    simp only [PaddedGateway.step] at hs
    split at hs
    · rename_i r hr
      split_ifs at hs
      cases hs
      exact h.lookup alive hr
    · cases hs
  | start i =>
    simp only [PaddedGateway.step] at hs
    split at hs
    · rename_i r hr
      split at hs
      · rename_i slot hphase
        have hfits := h.fits r (List.mem_of_getElem? hr)
        rw [hphase] at hfits
        split at hs
        · rename_i key hslot
          cases hs
          refine (h.setCell hslot fun _ hc => (by cases hc)).setPhase hr ?_
          exact madeFor_setCell hslot _ hfits
        · cases hs
      · cases hs
    · cases hs
  | finish i error =>
    simp only [PaddedGateway.step] at hs
    split at hs
    · rename_i r hr
      split at hs
      · rename_i slot hphase
        have hfits := h.fits r (List.mem_of_getElem? hr)
        rw [hphase] at hfits
        split at hs
        · rename_i found hslot
          have hkey : found.key = r.key := by
            obtain ⟨c, hc⟩ := hfits
            rw [hslot, Option.some.injEq] at hc
            rw [hc]
          have hnew : (s.sessions ++ [found.key])[s.sessions.length]? = some found.key := by simp
          split at hs
          · cases hs
            refine Keyed.setPhase ((h.addSession found.key).setCell hslot fun v hv => ?_) hr ?_
            · cases hv
              exact hnew
            · exact hkey ▸ hnew
          · cases hs
            exact (h.setCell hslot fun _ hc => (by cases hc)).setPhase hr trivial
        · cases hs
      · cases hs
    · cases hs
  | observe i =>
    simp only [PaddedGateway.step] at hs
    split at hs
    · rename_i r hr
      split at hs
      · rename_i slot hphase
        have hfits := h.fits r (List.mem_of_getElem? hr)
        rw [hphase] at hfits
        split at hs
        · rename_i key result hslot
          have hkey : key = r.key := by
            obtain ⟨c, hc⟩ := hfits
            rw [hslot, Option.some.injEq, CacheSlot.mk.injEq] at hc
            exact hc.1
          cases hs
          refine h.setPhase hr ?_
          cases result with
          | ok session => exact hkey ▸ h.cells slot key session hslot
          | error => trivial
        · cases hs
      · cases hs
    · cases hs
  | cancel i =>
    simp only [PaddedGateway.step] at hs
    split at hs
    · rename_i r hr
      split at hs
      · cases hs
        exact h.setPhase hr trivial
      · cases hs
        exact h.setPhase hr trivial
      · split at hs
        · rename_i found hslot
          cases hs
          exact (h.setCell hslot fun _ hc => (by cases hc)).setPhase hr trivial
        · cases hs
      · cases hs
    · cases hs

/-- The hash keeps the labels of the requests apart from each other and from the label of
requests without credentials. -/
structure HashSeparates (E : DirectoryEnv) (requests : List PaddedRequest) : Prop where
  injective : ∀ r ∈ requests, ∀ r' ∈ requests, ∀ pair pair' : Bytes × Bytes,
    presented r.input = some pair → presented r'.input = some pair' →
    E.sha256 (contextLabel pair.1 pair.2) = E.sha256 (contextLabel pair'.1 pair'.2) →
    contextLabel pair.1 pair.2 = contextLabel pair'.1 pair'.2
  nonzero : ∀ r ∈ requests, ∀ pair : Bytes × Bytes, presented r.input = some pair →
    E.sha256 (contextLabel pair.1 pair.2) ≠ DEFAULT_CONTEXT

/-- Requests with one label have presented the same. -/
lemma presented_of_key {requests : List PaddedRequest} (hhash : HashSeparates C.env requests)
    {r r' : PaddedRequest} (hr : r ∈ requests) (hr' : r' ∈ requests) (hcontext : r.target.context =
      (presented r.input).map fun pair => C.env.sha256 (contextLabel pair.1 pair.2))
    (hcontext' : r'.target.context =
      (presented r'.input).map fun pair => C.env.sha256 (contextLabel pair.1 pair.2))
    (hkey : r.key = r'.key) : presented r.input = presented r'.input := by
  unfold PaddedRequest.key at hkey
  rw [hcontext, hcontext'] at hkey
  cases hp : presented r.input with
  | none =>
    cases hp' : presented r'.input with
    | none => rfl
    | some pair' =>
      rw [hp, hp'] at hkey
      exact absurd hkey.symm (hhash.nonzero r' hr' pair' hp')
  | some pair =>
    cases hp' : presented r'.input with
    | none =>
      rw [hp, hp'] at hkey
      exact absurd hkey (hhash.nonzero r hr pair hp)
    | some pair' =>
      rw [hp, hp'] at hkey
      obtain ⟨huser, hpass⟩ := contextLabel_inj (length_presented hp) (length_presented hp')
        (hhash.injective r hr r' hr' pair pair' hp hp' hkey)
      rw [Prod.ext huser hpass]

/-- In every interleaving two requests are served by one session only if their clients
have presented the same user name and password, or both none. -/
theorem shared_session_same_credentials (h : Run (step C) new s)
    (hhash : HashSeparates C.env s.requests) {r r' : PaddedRequest} (hr : r ∈ s.requests)
    (hr' : r' ∈ s.requests) {session : ℕ} (hserved : r.phase = .served session)
    (hserved' : r'.phase = .served session) : presented r.input = presented r'.input := by
  have hs : Keyed C s := h.invariant keyed_new fun _ _ _ hk _ hstep => hk.step hstep
  have hkey : r.key = r'.key := by
    have hfits := hs.fits r hr
    have hfits' := hs.fits r' hr'
    rw [hserved] at hfits
    rw [hserved'] at hfits'
    exact Option.some.inj (hfits.symm.trans hfits')
  obtain ⟨t, hread⟩ := hs.parsed r hr
  obtain ⟨t', hread'⟩ := hs.parsed r' hr'
  exact presented_of_key hhash hr hr' (context_of_readSocks5RequestContext hread)
    (context_of_readSocks5RequestContext hread') hkey

/-- A hash that loses nothing. -/
def sampleConfig : PaddedConfig where
  env := { sampleEnv with sha256 := id }
  disableIpv6 := true
  maximum := 8

lemma hashSeparates_sample (requests : List PaddedRequest) :
    HashSeparates sampleConfig.env requests := by
  refine ⟨fun _ _ _ _ _ _ _ _ heq => heq, fun _ _ pair _ hzero => ?_⟩
  have hhead : (contextLabel pair.1 pair.2).head? = some 65 := by
    have hutf8 : utf8 "AnonGuard-local-context-v1" =
        65 :: (utf8 "AnonGuard-local-context-v1").tail := by decide +kernel
    rw [contextLabel, hutf8]
    rfl
  have hlabel : contextLabel pair.1 pair.2 = DEFAULT_CONTEXT := hzero
  rw [hlabel] at hhead
  cases hhead

/-- A request with these credentials. -/
def sampleRequest (username password : Bytes) : Bytes :=
  [5, 1, 2, 1, UInt8.ofNat username.length] ++ username ++ [UInt8.ofNat password.length] ++
    password ++ [5, 1, 0, 1, 10, 0, 0, 1, 0, 80]

/-- Three requests, two of one context and one whose credentials are split elsewhere. -/
def sampleRequests : PaddedGateway :=
  (runInputs (step sampleConfig) new
    [.arrive (sampleRequest [97, 98] [99]), .arrive (sampleRequest [97] [98, 99]),
      .arrive (sampleRequest [97, 98] [99]), .lookup 0 (fun _ => true), .lookup 1 (fun _ => true),
      .lookup 2 (fun _ => true), .start 0, .start 1, .finish 1 none, .finish 0 none,
      .observe 2]).getD new

theorem sampleRequests_same_credentials :
    sampleRequests.requests.map (·.phase) = [.served 1, .served 0, .served 1] ∧
      ∀ r ∈ sampleRequests.requests, ∀ r' ∈ sampleRequests.requests, r.phase = .served 1 →
        r'.phase = .served 1 → presented r.input = presented r'.input :=
  ⟨by decide +kernel, fun _ hr _ hr' hserved hserved' => shared_session_same_credentials
    (Run.getD_inputs _) (hashSeparates_sample _) hr hr' hserved hserved'⟩

end PaddedGateway

end AnonGuard
