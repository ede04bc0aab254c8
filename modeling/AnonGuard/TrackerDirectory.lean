import AnonGuard.Tally
import AnonGuard.SignedMessages
import AnonGuard.Tracker

/-!
# The directory of the tracker

A registration that waits belongs to a handler that holds a permit, and the handler takes it out
of the directory before it gives the permit back. This bounds what waits. An entry without
registrations may stay for a while: the handler of a registration that a client took out still has
to come by.
-/
namespace AnonGuard

namespace Tracker

/-- The permit to wait is held from before the directory is locked until the handler returns. -/
def Phase.holdsWait : Phase → Bool
  | .claiming _ | .registered .. => true
  | .replying _ permit => permit == .wait
  | _ => false

/-- A handler that is in the directory, or was, or has returned. -/
def Phase.settled : Phase → Bool
  | .registered .. | .finished => true
  | _ => false

/-- What a handler is registered under. -/
structure Registration where
  node : String
  token : String
  id : UInt64
  serial : ℕ

def Handler.registration (h : Handler) : Option Registration :=
  match h.phase with
  | .registered id serial _ _ =>
    match h.request with
    | .registerReverse node token _ _ => some ⟨node, token, id, serial⟩
    | _ => none
  | _ => none

/-- The registration of a handler, if it has one. -/
def registrationAt (s : Tracker) (k : ℕ) : Option Registration := s.handlers[k]?.bind Handler.registration

/-- How many handlers hold a permit to wait. -/
def holders (s : Tracker) : ℕ := s.handlers.countP (·.phase.holdsWait)

/-- How a handler may change: its command stays once it is read, and it does not register again. -/
structure Handler.Evolves (h h' : Handler) : Prop where
  command : h.phase ≠ .reading → h'.command = h.command ∧ h'.phase ≠ .reading
  settled : h.phase.settled = true → h'.phase.settled = true

/-- What every step does to the handlers and to the permits. -/
structure Evolves (s s' : Tracker) : Prop where
  handlers : ∀ (k : ℕ) (h : Handler), s.handlers[k]? = some h →
    ∃ h', s'.handlers[k]? = some h' ∧ h.Evolves h'
  permits : s'.waiting + s'.holders = s.waiting + s.holders

variable {S : IdentityScheme} {difficulty : ℕ} {s s' s'' : Tracker} {k : ℕ} {h h' : Handler}
  {command : String} {id : UInt64}

lemma Handler.Evolves.refl (h : Handler) : h.Evolves h := ⟨fun hne => ⟨rfl, hne⟩, id⟩

lemma Handler.Evolves.trans {h'' : Handler} (h₁ : h.Evolves h') (h₂ : h'.Evolves h'') : h.Evolves h'' := by
  refine ⟨fun hne => ?_, fun hs => h₂.settled (h₁.settled hs)⟩
  obtain ⟨hcommand, hne'⟩ := h₁.command hne
  obtain ⟨hcommand', hne''⟩ := h₂.command hne'
  exact ⟨hcommand'.trans hcommand, hne''⟩

lemma Evolves.trans (h₁ : Evolves s s') (h₂ : Evolves s' s'') : Evolves s s'' := by
  refine ⟨fun k h hk => ?_, h₂.permits.trans h₁.permits⟩
  obtain ⟨h', hk', hev⟩ := h₁.handlers k h hk
  obtain ⟨h'', hk'', hev'⟩ := h₂.handlers k h' hk'
  exact ⟨h'', hk'', hev.trans hev'⟩

/-- One handler changes. -/
lemma Evolves.of_set (hk : s.handlers[k]? = some h) (hhandlers : s'.handlers = s.handlers.set k h')
    (hev : h.Evolves h') (hpermits : s'.waiting + (if h'.phase.holdsWait then 1 else 0) =
      s.waiting + if h.phase.holdsWait then 1 else 0) : Evolves s s' := by
  have hlt := (List.getElem?_eq_some_iff.mp hk).1
  constructor
  · intro j g hj
    rw [hhandlers]
    by_cases hjk : k = j
    · subst hjk
      rw [hk] at hj
      cases hj
      exact ⟨h', by simp [hlt], hev⟩
    · exact ⟨g, by rw [List.getElem?_set_ne hjk, hj], .refl g⟩
  · have hcount := countP_set_add (p := fun h : Handler => h.phase.holdsWait) hk h'
    unfold holders
    rw [hhandlers]
    omega

/-- A handler that is not settled moves on with its command. -/
lemma Handler.Evolves.move {p p' : Phase} (hp : p.settled = false)
    (hp' : p' ≠ .reading) : Handler.Evolves ⟨command, p⟩ ⟨command, p'⟩ :=
  ⟨fun _ => ⟨rfl, hp'⟩, fun hs => by simp [hp] at hs⟩

/-- A handler has read its command. -/
lemma Handler.Evolves.read {command command' : String} {p' : Phase} :
    Handler.Evolves ⟨command, .reading⟩ ⟨command', p'⟩ :=
  ⟨fun hne => absurd rfl hne, fun hs => by simp [Phase.settled] at hs⟩

/-- A settled handler stays so. -/
lemma Handler.Evolves.stay {p p' : Phase} (hp' : p'.settled = true) :
    Handler.Evolves ⟨command, p⟩ ⟨command, p'⟩ :=
  ⟨fun _ => ⟨rfl, by rintro rfl; cases hp'⟩, fun _ => hp'⟩

/-- A step that leaves the directory and the registrations alone. -/
structure Quiet (s s' : Tracker) : Prop extends Evolves s s' where
  directory : s'.directory = s.directory
  handed : s'.handed = s.handed
  kept : ∀ (k : ℕ) (r : Registration), s.registrationAt k = some r → s'.registrationAt k = some r

lemma Quiet.trans (h₁ : Quiet s s') (h₂ : Quiet s' s'') : Quiet s s'' where
  toEvolves := h₁.toEvolves.trans h₂.toEvolves
  directory := h₂.directory.trans h₁.directory
  handed := h₂.handed.trans h₁.handed
  kept := fun k r hr => h₂.kept k r (h₁.kept k r hr)

lemma registrationAt_set (hk : s.handlers[k]? = some h) (hhandlers : s'.handlers = s.handlers.set k h')
    (j : ℕ) : s'.registrationAt j = if j = k then h'.registration else s.registrationAt j := by
  have hlt := (List.getElem?_eq_some_iff.mp hk).1
  unfold registrationAt
  rw [hhandlers]
  split_ifs with hjk
  · subst hjk
    simp [hlt]
  · rw [List.getElem?_set_ne fun heq => hjk heq.symm]

lemma Quiet.of_set (hk : s.handlers[k]? = some h) (hhandlers : s'.handlers = s.handlers.set k h')
    (hev : h.Evolves h') (hpermits : s'.waiting + (if h'.phase.holdsWait then 1 else 0) =
      s.waiting + if h.phase.holdsWait then 1 else 0)
    (hdirectory : s'.directory = s.directory) (hhanded : s'.handed = s.handed)
    (hkept : ∀ r, h.registration = some r → h'.registration = some r) : Quiet s s' := by
  refine ⟨.of_set hk hhandlers hev hpermits, hdirectory, hhanded, fun j r hr => ?_⟩
  rw [registrationAt_set hk hhandlers]
  split_ifs with hjk
  · subst hjk
    apply hkept
    simpa [registrationAt, hk] using hr
  · exact hr

lemma registration_of_unsettled (h : h'.phase.settled = false) : h'.registration = none := by
  obtain ⟨command, phase⟩ := h'
  cases phase with
  | registered => cases h
  | _ => rfl

/-- A handler that is not settled moves on, and so do the permits. -/
lemma Quiet.move (hk : s.handlers[k]? = some h) (hunsettled : h.phase.settled = false)
    (hhandlers : s'.handlers = s.handlers.set k h') (hev : h.Evolves h')
    (hpermits : s'.waiting + (if h'.phase.holdsWait then 1 else 0) =
      s.waiting + if h.phase.holdsWait then 1 else 0)
    (hdirectory : s'.directory = s.directory) (hhanded : s'.handed = s.handed) : Quiet s s' := by
  refine .of_set hk hhandlers hev hpermits hdirectory hhanded fun r hr => ?_
  rw [registration_of_unsettled hunsettled] at hr
  cases hr

/-- A registered handler goes on with its channel. -/
lemma Quiet.stage {serial : ℕ} {offer offer' : Option ℕ}
    {stage stage' : Stage} (hk : s.handlers[k]? = some ⟨command, .registered id serial offer stage⟩) :
    Quiet s (s.setHandler k ⟨command, .registered id serial offer' stage'⟩) :=
  .of_set hk rfl (.stay rfl) rfl rfl rfl fun _ hr => hr

lemma quiet_dispatch {command command' : String} {now : UInt64} {challenge : Bytes}
    (hk : s.handlers[k]? = some ⟨command, .reading⟩) :
    Quiet s (s.dispatch S difficulty k command' now challenge) := by
  unfold dispatch
  dsimp only
  cases parseCommand (splitWhitespace command') with
  | registerReverse =>
    dsimp only
    split_ifs
    · exact .move hk rfl rfl .read rfl rfl rfl
    · exact .move hk rfl rfl .read rfl rfl rfl
    · exact .move hk rfl rfl .read rfl rfl rfl
  | connectReverse | nodes | invalid => exact .move hk rfl rfl .read rfl rfl rfl

lemma quiet_checkProof {command encoded : String} {now : UInt64} {challenge : Bytes}
    {exporter : Option Bytes} (hk : s.handlers[k]? = some ⟨command, .proving now challenge⟩)
    (hs : s.checkProof S k ⟨command, .proving now challenge⟩ now challenge encoded exporter = some s') :
    Quiet s s' := by
  have hmove {p : Phase} (hp : p ≠ .reading) :
      Handler.Evolves ⟨command, .proving now challenge⟩ ⟨command, p⟩ := .move rfl hp
  unfold checkProof at hs
  dsimp only at hs
  split at hs
  · split_ifs at hs
    · cases hs
      exact .move hk rfl rfl (hmove (by simp)) rfl rfl rfl
    · split at hs
      · cases hs
        exact .move hk rfl rfl (hmove (by simp)) rfl rfl rfl
      · split_ifs at hs
        · cases hs
          exact .move hk rfl rfl (hmove (by simp)) rfl rfl rfl
        · split at hs
          · cases hs
            exact .move hk rfl rfl (hmove (by simp)) rfl rfl rfl
          · split at hs
            · cases hs
              exact .move hk rfl rfl (hmove (by simp)) rfl rfl rfl
            · cases hs
              exact .move hk rfl rfl (hmove (by simp)) rfl rfl rfl
  · cases hs

lemma quiet_hand {registration : ℕ} (hk : s.handlers[k]? = some ⟨command, .handing registration⟩) :
    Quiet s (s.hand k ⟨command, .handing registration⟩ registration) := by
  have hmove (p : Phase) (hp : p ≠ .reading) (hpermit : p.holdsWait = false) :
      Quiet s (s.setHandler k ⟨command, p⟩) :=
    .move hk rfl rfl (.move rfl hp) (by rw [hpermit]; rfl) rfl rfl
  unfold hand
  split
  · rename_i command' id serial offer stage hr
    have hne : k ≠ registration := by
      rintro rfl
      rw [hk] at hr
      cases hr
    have hr' : (s.setHandler k ⟨command, .awaiting registration⟩).handlers[registration]? =
        some ⟨command', .registered id serial offer stage⟩ := by
      rw [setHandler, List.getElem?_set_ne hne, hr]
    exact (hmove (.awaiting registration) (by simp) rfl).trans (.stage hr')
  · exact hmove _ (by simp) rfl

lemma quiet_handOver {serial connector : ℕ} {offer : Option ℕ}
    (hk : s.handlers[k]? = some ⟨command, .registered id serial offer (.ready connector)⟩) :
    Quiet s (s.handOver k ⟨command, .registered id serial offer (.ready connector)⟩ connector id serial
      offer) := by
  have hleave : Quiet s (s.setHandler k ⟨command, .registered id serial offer .leaving⟩) := .stage hk
  unfold handOver
  dsimp only
  split
  · rename_i command' registration hc
    split_ifs
    · exact hleave.trans (.move hc rfl rfl (.move rfl (by simp)) rfl rfl rfl)
    · exact hleave
  · exact hleave

/-- A handler puts its registration into an entry. -/
structure Pushes (s s' : Tracker) (k : ℕ) (command node token : String) (id : UInt64) : Prop
    extends Evolves s s' where
  handler : s.handlers[k]? = some ⟨command, .claiming id⟩
  request : ∃ timestamp nonce,
    parseCommand (splitWhitespace command) = .registerReverse node token timestamp nonce
  matching : (s.entryOf node token).token = token
  room : (s.entryOf node token).waiting.length < MAX_PER_NODE
  moves : s'.handlers = s.handlers.set k
    ⟨command, .registered id (s.entryOf node token).serial none .acknowledging⟩
  directory : s'.directory = s.directory.insert node
    { s.entryOf node token with waiting := (s.entryOf node token).waiting ++ [⟨id, k⟩] }
  handed : s'.handed = s.handed

/-- A client takes a registration out. -/
structure Pops (s s' : Tracker) (k : ℕ) (command node : String) (entry : Entry) (w : Waiting) : Prop
    extends Evolves s s' where
  handler : s.handlers[k]? = some ⟨command, .connecting⟩
  request : parseCommand (splitWhitespace command) = .connectReverse node entry.token
  found : s.directory[node]? = some entry
  last : entry.waiting.getLast? = some w
  moves : s'.handlers = s.handlers.set k ⟨command, .handing w.request⟩
  directory : s'.directory = s.directory.insert node { entry with waiting := entry.waiting.dropLast }
  handed : s'.handed = s.handed ++ [⟨w.request, k, entry.token⟩]

/-- A handler takes what is left of its registration out. -/
structure Cleans (s s' : Tracker) (k : ℕ) (node : String) (id : UInt64) : Prop
    extends Evolves s s' where
  handler : ∃ command serial offer token timestamp nonce,
    s.handlers[k]? = some ⟨command, .registered id serial offer .leaving⟩ ∧
    parseCommand (splitWhitespace command) = .registerReverse node token timestamp nonce ∧
    s'.handlers = s.handlers.set k ⟨command, .finished⟩
  directory : ∀ (n : String) (e : Entry), s'.directory[n]? = some e →
    n ≠ node ∧ s.directory[n]? = some e ∨
      n = node ∧ ∃ e₀, s.directory[n]? = some e₀ ∧ e.waiting ≠ [] ∧
        e = { e₀ with waiting := e₀.waiting.filter (·.id ≠ id) }
  handed : s'.handed = s.handed

/-- What a step can do to the directory. -/
inductive Effect (s s' : Tracker) : Prop
  | quiet (h : Quiet s s')
  | pushed {k : ℕ} {command node token : String} {id : UInt64} (h : Pushes s s' k command node token id)
  | popped {k : ℕ} {command node : String} {entry : Entry} {w : Waiting}
      (h : Pops s s' k command node entry w)
  | cleaned {k : ℕ} {node : String} {id : UInt64} (h : Cleans s s' k node id)

lemma effect_claim (hk : s.handlers[k]? = some ⟨command, .claiming id⟩)
    (hs : s.claim k ⟨command, .claiming id⟩ id = some s') : Effect s s' := by
  have hmove {p : Phase} (hp : p ≠ .reading) : Handler.Evolves ⟨command, .claiming id⟩ ⟨command, p⟩ :=
    .move rfl hp
  cases hrequest : parseCommand (splitWhitespace command) with
  | registerReverse =>
    simp only [claim, Handler.request, hrequest] at hs
    split_ifs at hs with htoken hroom
    · cases hs
      exact .quiet (.move hk rfl rfl (hmove (by simp)) rfl rfl rfl)
    · cases hs
      exact .quiet (.move hk rfl rfl (hmove (by simp)) rfl rfl rfl)
    · cases hs
      exact .pushed ⟨.of_set hk rfl (hmove (by simp)) rfl, hk, ⟨_, _, hrequest⟩,
        eq_of_tokensMatch (Bool.eq_true_of_not_eq_false htoken), Nat.lt_of_not_le hroom, rfl, rfl, rfl⟩
  | connectReverse | nodes | invalid => simp [claim, Handler.request, hrequest] at hs

lemma effect_select (hk : s.handlers[k]? = some ⟨command, .connecting⟩)
    (hs : s.select k ⟨command, .connecting⟩ = some s') : Effect s s' := by
  have hmove {p : Phase} (hp : p ≠ .reading) : Handler.Evolves ⟨command, .connecting⟩ ⟨command, p⟩ :=
    .move rfl hp
  have hunavailable :
      Quiet s (s.setHandler k ⟨command, .replying "ERROR_UNAVAILABLE" .none⟩) :=
    .move hk rfl rfl (hmove (by simp)) rfl rfl rfl
  cases hrequest : parseCommand (splitWhitespace command) with
  | connectReverse node =>
    simp only [select, Handler.request, hrequest] at hs
    cases hentry : s.directory[node]? with
    | none =>
      simp only [hentry, Option.some.injEq] at hs
      subst hs
      exact .quiet hunavailable
    | some entry =>
      simp only [hentry] at hs
      split_ifs at hs with htoken
      · cases hs
        exact .quiet hunavailable
      · cases hw : entry.waiting.getLast? with
        | none =>
          simp only [hw, Option.some.injEq] at hs
          subst hs
          exact .quiet hunavailable
        | some =>
          simp only [hw, Option.some.injEq] at hs
          subst hs
          have heq := eq_of_tokensMatch (Bool.eq_true_of_not_eq_false htoken)
          exact .popped ⟨.of_set hk rfl (hmove (by simp)) rfl, hk, heq ▸ hrequest, hentry, hw, rfl, rfl,
            rfl⟩
  | registerReverse | nodes | invalid => simp [select, Handler.request, hrequest] at hs

lemma effect_cleanUp {serial : ℕ} {offer : Option ℕ}
    (hk : s.handlers[k]? = some ⟨command, .registered id serial offer .leaving⟩)
    (hs : s.cleanUp k ⟨command, .registered id serial offer .leaving⟩ id = some s') : Effect s s' := by
  cases hrequest : parseCommand (splitWhitespace command) with
  | registerReverse node =>
    simp only [cleanUp, Handler.request, hrequest] at hs
    have hclean {directory : Std.TreeMap String Entry} (hdirectory) :
        Cleans s { s with
          directory := directory, waiting := s.waiting + 1
          handlers := s.handlers.set k ⟨command, .finished⟩ } k node id :=
      ⟨.of_set hk rfl (.stay rfl) rfl, ⟨_, _, _, _, _, _, hk, hrequest, rfl⟩, hdirectory, rfl⟩
    cases hentry : s.directory[node]? with
    | none =>
      simp only [hentry, Option.some.injEq] at hs
      subst hs
      refine .cleaned (hclean fun n e he => .inl ⟨?_, he⟩)
      rintro rfl
      have he' : s.directory[n]? = some e := he
      rw [hentry] at he'
      cases he'
    | some entry =>
      simp only [hentry] at hs
      split_ifs at hs with hempty
      · cases hs
        refine .cleaned (hclean fun n e he => .inl ?_)
        obtain ⟨hne, he⟩ := getElem?_of_erase he
        exact ⟨hne.symm, he⟩
      · cases hs
        refine .cleaned (hclean fun n e he => ?_)
        obtain ⟨rfl, rfl⟩ | ⟨hne, he⟩ := getElem?_insert_cases he
        · exact .inr ⟨rfl, entry, hentry, hempty, rfl⟩
        · exact .inl ⟨hne.symm, he⟩
  | connectReverse | nodes | invalid => simp [cleanUp, Handler.request, hrequest] at hs

lemma quiet_accept : Quiet s { s with handlers := s.handlers ++ [⟨"", .reading⟩] } := by
  have hold {k : ℕ} {h : Handler} (hk : s.handlers[k]? = some h) :
      (s.handlers ++ [⟨"", .reading⟩])[k]? = some h := by
    rw [List.getElem?_append_left (List.getElem?_eq_some_iff.mp hk).1, hk]
  refine ⟨⟨fun k h hk => ⟨h, hold hk, .refl h⟩, ?_⟩, rfl, rfl, fun k r hr => ?_⟩
  · simp [holders, List.countP_append, Phase.holdsWait]
  · obtain ⟨h, hk, hh⟩ := Option.bind_eq_some_iff.mp hr
    exact Option.bind_eq_some_iff.mpr ⟨h, hold hk, hh⟩

theorem step_effect {i : TrackerInput} (hs : s.step S difficulty i = some s') : Effect s s' := by
  cases i with
  | accept =>
    cases hs
    exact .quiet quiet_accept
  | command =>
    simp only [step] at hs
    split at hs
    next hk =>
      split at hs
      · cases hs
        exact .quiet (.move hk rfl rfl .read rfl rfl rfl)
      · cases hs
        exact .quiet (quiet_dispatch hk)
    next => cases hs
  | proof =>
    simp only [step] at hs
    split at hs
    next hk =>
      split at hs
      · cases hs
        exact .quiet (.move hk rfl rfl (.move rfl (by simp)) rfl rfl rfl)
      · exact .quiet (quiet_checkProof hk hs)
    next => cases hs
  | reserve =>
    simp only [step] at hs
    split at hs
    next hk =>
      split_ifs at hs with hempty
      · cases hs
        exact .quiet (.move hk rfl rfl (.move rfl (by simp)) rfl rfl rfl)
      · cases hs
        refine .quiet (.move hk rfl rfl (.move rfl (by simp)) ?_ rfl rfl)
        show s.waiting - 1 + 1 = s.waiting + 0
        omega
    next => cases hs
  | claim =>
    simp only [step] at hs
    split at hs
    next hk => exact effect_claim hk hs
    next => cases hs
  | acknowledged | target =>
    simp only [step] at hs
    split at hs
    next hk =>
      cases hs
      exact .quiet (.stage hk)
    next => cases hs
  | leave =>
    simp only [step] at hs
    split at hs
    next hk =>
      split_ifs at hs
      cases hs
      exact .quiet (.stage hk)
    next => cases hs
  | ready =>
    simp only [step] at hs
    split at hs
    next hk =>
      cases hs
      exact .quiet (quiet_handOver hk)
    next => cases hs
  | cleanUp =>
    simp only [step] at hs
    split at hs
    next hk => exact effect_cleanUp hk hs
    next => cases hs
  | select =>
    simp only [step] at hs
    split at hs
    next hk => exact effect_select hk hs
    next => cases hs
  | hand =>
    simp only [step] at hs
    split at hs
    next hk =>
      cases hs
      exact .quiet (quiet_hand hk)
    next => cases hs
  | giveUp | close | list =>
    simp only [step] at hs
    split at hs
    next hk =>
      cases hs
      exact .quiet (.move hk rfl rfl (.move rfl (by simp)) rfl rfl rfl)
    next => cases hs
  | replied =>
    simp only [step] at hs
    split at hs
    next permit hk =>
      cases hs
      cases permit with
      | none | proof | wait => exact .quiet (.move hk rfl rfl (.move rfl (by simp)) rfl rfl rfl)
    next => cases hs
  | disconnect =>
    simp only [step] at hs
    split at hs
    next hk =>
      cases hs
      exact .quiet (.move hk rfl rfl .read rfl rfl rfl)
    next hk =>
      cases hs
      exact .quiet (.move hk rfl rfl (.move rfl (by simp)) rfl rfl rfl)
    next => cases hs

/-- A registration went to a client that has the token of its entry. -/
structure HandedOver (s : Tracker) (x : Handover) (node : String) : Prop where
  registration : ∃ r timestamp nonce, s.handlers[x.registration]? = some r ∧ r.phase.settled = true ∧
    r.request = .registerReverse node x.token timestamp nonce
  connector : ∃ c, s.handlers[x.connector]? = some c ∧ c.phase ≠ .reading ∧
    c.request = .connectReverse node x.token

lemma HandedOver.evolves {x : Handover} {node : String} (h : HandedOver s x node) (hev : Evolves s s') :
    HandedOver s' x node := by
  obtain ⟨⟨r, timestamp, nonce, hr, hsettled, hrequest⟩, c, hc, hread, hconnect⟩ := h
  constructor
  · obtain ⟨r', hr', hevolves⟩ := hev.handlers _ _ hr
    have hread' : r.phase ≠ .reading := by
      intro heq
      rw [heq] at hsettled
      cases hsettled
    refine ⟨r', timestamp, nonce, hr', hevolves.settled hsettled, ?_⟩
    rw [Handler.request, (hevolves.command hread').1]
    exact hrequest
  · obtain ⟨c', hc', hevolves⟩ := hev.handlers _ _ hc
    obtain ⟨hcommand, hread'⟩ := hevolves.command hread
    refine ⟨c', hc', hread', ?_⟩
    rw [Handler.request, hcommand]
    exact hconnect

lemma of_registrationAt {r : Registration} (hr : s.registrationAt k = some r) :
    ∃ h timestamp nonce, s.handlers[k]? = some h ∧ h.phase.settled = true ∧
      h.phase.holdsWait = true ∧ h.request = .registerReverse r.node r.token timestamp nonce := by
  obtain ⟨⟨command, phase⟩, hk, hh⟩ := Option.bind_eq_some_iff.mp hr
  cases phase with
  | registered =>
    cases hrequest : parseCommand (splitWhitespace command) with
    | registerReverse node token timestamp nonce =>
      simp only [Handler.registration, Handler.request, hrequest, Option.some.injEq] at hh
      subst hh
      exact ⟨_, timestamp, nonce, hk, rfl, rfl, hrequest⟩
    | connectReverse | nodes | invalid =>
      simp [Handler.registration, Handler.request, hrequest] at hh
  | _ => cases hh

/-- What holds of the tracker at all times. -/
structure Sound (s : Tracker) : Prop where
  permits : s.waiting + s.holders = MAX_WAITING
  listed : ∀ (node : String) (e : Entry), s.directory[node]? = some e → ∀ w ∈ e.waiting,
    s.registrationAt w.request = some ⟨node, e.token, w.id, e.serial⟩
  nodup : ∀ (node : String) (e : Entry), s.directory[node]? = some e → (e.waiting.map (·.request)).Nodup
  room : ∀ (node : String) (e : Entry), s.directory[node]? = some e → e.waiting.length ≤ MAX_PER_NODE
  owned : ∀ (node : String) (e : Entry), s.directory[node]? = some e →
    ∃ k id, s.registrationAt k = some ⟨node, e.token, id, e.serial⟩
  once : (s.handed.map (·.registration)).Nodup
  handed : ∀ x ∈ s.handed, ∃ node, HandedOver s x node
  unhanded : ∀ (node : String) (e : Entry), s.directory[node]? = some e → ∀ w ∈ e.waiting,
    ∀ x ∈ s.handed, x.registration ≠ w.request

lemma sound_new (registry : NonceRegistry) : Sound (new registry) where
  permits := rfl
  listed := fun node e he => by simp [new] at he
  nodup := fun node e he => by simp [new] at he
  room := fun node e he => by simp [new] at he
  owned := fun node e he => by simp [new] at he
  once := List.nodup_nil
  handed := fun x hx => by simp [new] at hx
  unhanded := fun node e he => by simp [new] at he

/-- What holds of an entry of the directory. -/
structure EntryOk (s : Tracker) (node : String) (e : Entry) : Prop where
  listed : ∀ w ∈ e.waiting, s.registrationAt w.request = some ⟨node, e.token, w.id, e.serial⟩
  nodup : (e.waiting.map (·.request)).Nodup
  room : e.waiting.length ≤ MAX_PER_NODE
  owned : ∃ k id, s.registrationAt k = some ⟨node, e.token, id, e.serial⟩
  unhanded : ∀ w ∈ e.waiting, ∀ x ∈ s.handed, x.registration ≠ w.request

section Entries
variable {node : String} {e : Entry}

lemma Sound.entry (h : s.Sound) (he : s.directory[node]? = some e) : EntryOk s node e :=
  ⟨h.listed node e he, h.nodup node e he, h.room node e he, h.owned node e he, h.unhanded node e he⟩

/-- A step keeps the tracker sound if it keeps its entries so. -/
lemma Sound.evolves (h : s.Sound) (hev : Evolves s s')
    (hentries : ∀ n e, s'.directory[n]? = some e → EntryOk s' n e)
    (honce : (s'.handed.map (·.registration)).Nodup)
    (hhanded : ∀ x ∈ s'.handed, x ∈ s.handed ∨ ∃ node, HandedOver s' x node) : s'.Sound where
  permits := hev.permits.trans h.permits
  listed n e he := (hentries n e he).listed
  nodup n e he := (hentries n e he).nodup
  room n e he := (hentries n e he).room
  owned n e he := (hentries n e he).owned
  once := honce
  handed x hx := by
    refine (hhanded x hx).elim (fun hx => ?_) fun h => h
    obtain ⟨node, hx⟩ := h.handed x hx
    exact ⟨node, hx.evolves hev⟩
  unhanded n e he := (hentries n e he).unhanded

/-- No registration goes. -/
lemma EntryOk.keep (h : EntryOk s node e)
    (hkept : ∀ j r, s.registrationAt j = some r → s'.registrationAt j = some r)
    (hunhanded : ∀ w ∈ e.waiting, ∀ x ∈ s'.handed, x.registration ≠ w.request) :
    EntryOk s' node e where
  listed w hw := hkept _ _ (h.listed w hw)
  nodup := h.nodup
  room := h.room
  owned := by
    obtain ⟨k, id, hk⟩ := h.owned
    exact ⟨k, id, hkept _ _ hk⟩
  unhanded := hunhanded

/-- Fewer registrations wait. -/
lemma EntryOk.sublist (h : EntryOk s node e) {waiting : List Waiting}
    (hsub : waiting.Sublist e.waiting) : EntryOk s node { e with waiting := waiting } where
  listed w hw := h.listed w (hsub.subset hw)
  nodup := h.nodup.sublist (hsub.map _)
  room := hsub.length_le.trans h.room
  owned := h.owned
  unhanded w hw := h.unhanded w (hsub.subset hw)

lemma Sound.quiet (h : s.Sound) (hq : Quiet s s') : s'.Sound := by
  refine h.evolves hq.toEvolves (fun n e he => ?_) (hq.handed ▸ h.once) fun x hx => .inl (hq.handed ▸ hx)
  have hentry := h.entry (hq.directory ▸ he)
  exact hentry.keep hq.kept (hq.handed ▸ hentry.unhanded)

/-- A handler that was not registered moves on. -/
lemma registrationAt_of_set {r : Registration} {j : ℕ} (hk : s.handlers[k]? = some h)
    (hhandlers : s'.handlers = s.handlers.set k h') (hnone : h.registration = none)
    (hr : s.registrationAt j = some r) : s'.registrationAt j = some r := by
  rw [registrationAt_set hk hhandlers, if_neg, hr]
  rintro rfl
  simp [registrationAt, hk, hnone] at hr

/-- What an entry has before it takes one more registration. -/
lemma entryOf_cases (s : Tracker) (node token : String) :
    s.directory[node]? = some (s.entryOf node token) ∨ (s.entryOf node token).waiting = [] := by
  unfold entryOf
  cases s.directory[node]? with
  | none => exact .inr rfl
  | some => exact .inl rfl

lemma Sound.pushed {command token : String} (h : s.Sound)
    (hp : Pushes s s' k command node token id) : s'.Sound := by
  obtain ⟨timestamp, nonce, hrequest⟩ := hp.request
  -- the handler was not registered before, and is now
  have hunregistered : s.registrationAt k = none := by
    simp [registrationAt, hp.handler, Handler.registration]
  have hregistered : s'.registrationAt k =
      some ⟨node, (s.entryOf node token).token, id, (s.entryOf node token).serial⟩ := by
    rw [registrationAt_set hp.handler hp.moves, if_pos rfl]
    simp [Handler.registration, Handler.request, hrequest, hp.matching]
  have hkept (j : ℕ) (r : Registration) : s.registrationAt j = some r → s'.registrationAt j = some r :=
    registrationAt_of_set hp.handler hp.moves rfl
  -- a registration that was handed over is settled
  have hnew : ∀ x ∈ s'.handed, x.registration ≠ k := by
    rw [hp.handed]
    rintro x hx rfl
    obtain ⟨n, ⟨r, _, _, hr, hsettled, -⟩, -⟩ := h.handed x hx
    rw [hp.handler] at hr
    cases hr
    cases hsettled
  refine h.evolves hp.toEvolves (fun n e he => ?_) (hp.handed ▸ h.once) fun x hx => .inl (hp.handed ▸ hx)
  rw [hp.directory] at he
  obtain ⟨rfl, rfl⟩ | ⟨-, he⟩ := getElem?_insert_cases he
  · have hold : ∀ w ∈ (s.entryOf node token).waiting, EntryOk s node (s.entryOf node token) := by
      intro w hw
      obtain hentry | hempty := entryOf_cases s node token
      · exact h.entry hentry
      · rw [hempty] at hw
        cases hw
    refine ⟨fun w hw => ?_, ?_, ?_, ⟨k, id, hregistered⟩, fun w hw => ?_⟩
    · obtain hw | hw := List.mem_append.mp hw
      · exact hkept _ _ ((hold w hw).listed w hw)
      · rw [List.mem_singleton.mp hw]
        exact hregistered
    · rw [List.map_append, List.map_singleton]
      refine List.Nodup.append ?_ (List.nodup_singleton _) ?_
      · obtain hentry | hempty := entryOf_cases s node token
        · exact h.nodup node _ hentry
        · simp [hempty]
      · intro j hj hjk
        obtain ⟨w, hw, rfl⟩ := List.mem_map.mp hj
        have hlisted := (hold w hw).listed w hw
        rw [List.mem_singleton.mp hjk, hunregistered] at hlisted
        cases hlisted
    · rw [List.length_append, List.length_singleton]
      exact hp.room
    · obtain hw | hw := List.mem_append.mp hw
      · exact hp.handed ▸ (hold w hw).unhanded w hw
      · rw [List.mem_singleton.mp hw]
        exact hnew
  · exact (h.entry he).keep hkept (hp.handed ▸ (h.entry he).unhanded)

lemma Sound.popped {entry : Entry} {w : Waiting} (h : s.Sound)
    (hp : Pops s s' k command node entry w) : s'.Sound := by
  have hlt := (List.getElem?_eq_some_iff.mp hp.handler).1
  have hentry := h.entry hp.found
  have hlisted := hentry.listed w (List.mem_of_getLast? hp.last)
  have hkept (j : ℕ) (r : Registration) : s.registrationAt j = some r → s'.registrationAt j = some r :=
    registrationAt_of_set hp.handler hp.moves rfl
  refine h.evolves hp.toEvolves (fun n e he => ?_) ?_ fun x hx => ?_
  · -- the registration that goes to the client does not wait any more
    have hkeep {e : Entry} (hold : EntryOk s n e) (hne : ∀ v ∈ e.waiting, v.request ≠ w.request) :
        EntryOk s' n e := by
      refine hold.keep hkept fun v hv x hx => ?_
      rw [hp.handed] at hx
      obtain hx | hx := List.mem_append.mp hx
      · exact hold.unhanded v hv x hx
      · rw [List.mem_singleton.mp hx]
        exact (hne v hv).symm
    rw [hp.directory] at he
    obtain ⟨rfl, rfl⟩ | ⟨hne, he⟩ := getElem?_insert_cases he
    · refine hkeep (hentry.sublist (List.dropLast_sublist _)) fun v hv => ?_
      have hnodup := hentry.nodup
      rw [← List.dropLast_append_getLast? w hp.last, List.map_append, List.nodup_append] at hnodup
      exact hnodup.2.2 _ (List.mem_map_of_mem hv) _ (List.mem_map_of_mem (by simp))
    · -- a handler is registered for one node only
      refine hkeep (h.entry he) fun v hv heq => ?_
      have hlisted' := h.listed n e he v hv
      rw [heq, hlisted] at hlisted'
      exact hne (congrArg Registration.node (Option.some.inj hlisted'))
  · rw [hp.handed, List.map_append, List.map_singleton]
    refine List.Nodup.append h.once (List.nodup_singleton _) fun j hj hjw => ?_
    obtain ⟨x, hx, rfl⟩ := List.mem_map.mp hj
    exact hentry.unhanded w (List.mem_of_getLast? hp.last) x hx (List.mem_singleton.mp hjw)
  · rw [hp.handed] at hx
    refine (List.mem_append.mp hx).imp_right fun hx => ?_
    -- the client that takes the registration has shown the token of the entry
    rw [List.mem_singleton.mp hx]
    obtain ⟨r, timestamp, nonce, hr, hsettled, -, hregister⟩ := of_registrationAt (hkept _ _ hlisted)
    refine ⟨node, ⟨r, timestamp, nonce, hr, hsettled, hregister⟩, ⟨command, .handing w.request⟩, ?_, ?_,
      hp.request⟩
    · simp [hp.moves, hlt]
    · simp

lemma Sound.cleaned (h : s.Sound) (hc : Cleans s s' k node id) : s'.Sound := by
  obtain ⟨command, serial, offer, token, timestamp, nonce, hk, hrequest, hmoves⟩ := hc.handler
  -- other registrations are for another node or have another id
  have hkept (j : ℕ) (r : Registration) (hr : s.registrationAt j = some r)
      (hne : r.node ≠ node ∨ r.id ≠ id) : s'.registrationAt j = some r := by
    rw [registrationAt_set hk hmoves, if_neg, hr]
    rintro rfl
    simp only [registrationAt, hk, Handler.registration, Handler.request, hrequest, Option.bind_some,
      Option.some.injEq] at hr
    simp [← hr] at hne
  refine h.evolves hc.toEvolves (fun n e he => ?_) (hc.handed ▸ h.once) fun x hx => .inl (hc.handed ▸ hx)
  obtain ⟨hne, he⟩ | ⟨rfl, e₀, he₀, hnonempty, rfl⟩ := hc.directory n e he
  · have hentry := h.entry he
    obtain ⟨j, id', hj⟩ := hentry.owned
    exact ⟨fun w hw => hkept _ _ (hentry.listed w hw) (.inl hne), hentry.nodup, hentry.room,
      ⟨j, id', hkept _ _ hj (.inl hne)⟩, hc.handed ▸ hentry.unhanded⟩
  · have hentry := (h.entry he₀).sublist (List.filter_sublist (p := (·.id ≠ id)))
    have hlisted : ∀ w ∈ e₀.waiting.filter (·.id ≠ id),
        s'.registrationAt w.request = some ⟨n, e₀.token, w.id, e₀.serial⟩ := fun w hw =>
      hkept _ _ (hentry.listed w hw) (.inr (by simpa using (List.mem_filter.mp hw).2))
    obtain ⟨w, hw⟩ := List.exists_mem_of_ne_nil _ hnonempty
    exact ⟨hlisted, hentry.nodup, hentry.room, ⟨w.request, w.id, hlisted w hw⟩,
      hc.handed ▸ hentry.unhanded⟩

end Entries

lemma Sound.effect (h : s.Sound) (heffect : Effect s s') : s'.Sound := by
  cases heffect with
  | quiet hq => exact h.quiet hq
  | pushed hp => exact h.pushed hp
  | popped hp => exact h.popped hp
  | cleaned hc => exact h.cleaned hc

theorem sound_of_run {registry : NonceRegistry} (h : Run (step S difficulty) (new registry) s) : s.Sound :=
  h.invariant (sound_new registry) fun _ _ _ hsound _ hs => hsound.effect (step_effect hs)

/-- No step changes an entry into another one. -/
lemma Effect.entry_same (h : Effect s s') {node : String} {e e' : Entry}
    (he : s.directory[node]? = some e) (he' : s'.directory[node]? = some e') :
    e'.token = e.token ∧ e'.serial = e.serial := by
  have hsame {e' : Entry} (he' : s.directory[node]? = some e') :
      e'.token = e.token ∧ e'.serial = e.serial := by
    rw [he] at he'
    cases he'
    exact ⟨rfl, rfl⟩
  cases h with
  | quiet hq => exact hsame (hq.directory ▸ he')
  | pushed hp =>
    rw [hp.directory] at he'
    obtain ⟨rfl, rfl⟩ | ⟨-, he'⟩ := getElem?_insert_cases he'
    · rw [entryOf, he, Option.getD_some]
      exact ⟨rfl, rfl⟩
    · exact hsame he'
  | popped hp =>
    rw [hp.directory] at he'
    obtain ⟨rfl, rfl⟩ | ⟨-, he'⟩ := getElem?_insert_cases he'
    · have hkept := hsame hp.found
      exact hkept
    · exact hsame he'
  | cleaned hc =>
    obtain ⟨-, he'⟩ | ⟨-, e₀, he₀, -, rfl⟩ := hc.directory node e' he'
    · exact hsame he'
    · have hkept := hsame he₀
      exact hkept

/-- The number of registrations that wait. -/
def totalWaiting (s : Tracker) : ℕ := ((valuesOf s.directory).map (·.waiting.length)).sum

/-- Every registration that waits has a handler of its own that holds a permit. -/
lemma Sound.totalWaiting_le (h : s.Sound) : s.totalWaiting ≤ MAX_WAITING := by
  have hnodup : ((valuesOf s.directory).flatMap fun e => e.waiting.map (·.request)).Nodup := by
    rw [List.nodup_flatMap]
    constructor
    · intro e he
      obtain ⟨node, he⟩ := mem_valuesOf.mp he
      exact h.nodup node e he
    · refine pairwise_valuesOf fun node node' e e' he he' hne => ?_
      intro j hj hj'
      obtain ⟨w, hw, rfl⟩ := List.mem_map.mp hj
      obtain ⟨w', hw', heq⟩ := List.mem_map.mp hj'
      have hlisted := h.listed node e he w hw
      have hlisted' := h.listed node' e' he' w' hw'
      rw [heq, hlisted] at hlisted'
      exact hne (congrArg Registration.node (Option.some.inj hlisted'))
  have hholders := length_le_countP (p := fun h : Handler => h.phase.holdsWait) (l := s.handlers) hnodup ?_
  · have hpermits := h.permits
    have htotal : s.totalWaiting =
        ((valuesOf s.directory).flatMap fun e => e.waiting.map (·.request)).length := by
      simp [totalWaiting, List.length_flatMap]
    unfold holders at hpermits
    omega
  · intro j hj
    obtain ⟨e, he, hj⟩ := List.mem_flatMap.mp hj
    obtain ⟨w, hw, rfl⟩ := List.mem_map.mp hj
    obtain ⟨node, he⟩ := mem_valuesOf.mp he
    obtain ⟨g, _, _, hg, -, hholds, -⟩ := of_registrationAt (h.listed node e he w hw)
    exact ⟨g, hg, hholds⟩

lemma length_listedNodes_le (s : Tracker) : s.listedNodes.length ≤ s.totalWaiting := by
  rw [listedNodes, totalWaiting, valuesOf, List.map_map, List.length_map]
  induction s.directory.toList with
  | nil => simp
  | cons entry entries ih =>
    rw [List.filter_cons, List.map_cons, List.sum_cons]
    split_ifs with hwaiting
    · have hpos : 0 < entry.2.waiting.length := by
        rw [List.length_pos_iff]
        simpa using hwaiting
      simp only [List.length_cons, Function.comp_apply]
      omega
    · exact ih.trans (Nat.le_add_left _ _)

lemma Sound.length_of_listedNodes (h : s.Sound) {node : String} (hnode : node ∈ s.listedNodes) :
    (utf8 node).length = 64 := by
  obtain ⟨⟨n, e⟩, hmem, rfl⟩ := List.mem_map.mp hnode
  have he := Std.TreeMap.mem_toList_iff_getElem?_eq_some.mp (List.mem_filter.mp hmem).1
  obtain ⟨k, id, hk⟩ := h.owned n e he
  obtain ⟨g, timestamp, nonce, -, -, -, hrequest⟩ := of_registrationAt hk
  exact length_of_validNode (validNode_of_parseCommand hrequest)

lemma Sound.nodesReply_fits (h : s.Sound) :
    ∃ frame, writeControl s.nodesReply = .ok frame ∧ readControl frame = .ok s.nodesReply := by
  have hlength : (utf8 ("\n".intercalate (s.listedNodes.mergeSort fun a b => decide (a ≤ b)))).length ≤
      MAX_CONTROL := by
    refine (length_utf8_intercalate_le _ _).trans ?_
    have hcount : (s.listedNodes.mergeSort fun a b => decide (a ≤ b)).length ≤ MAX_WAITING := by
      rw [List.length_mergeSort]
      exact (length_listedNodes_le s).trans h.totalWaiting_le
    have hsum := List.sum_le_card_nsmul
      ((s.listedNodes.mergeSort fun a b => decide (a ≤ b)).map fun node => (utf8 node).length) 64 ?_
    · rw [List.length_map, smul_eq_mul] at hsum
      have hseparator : (utf8 "\n").length = 1 := by decide
      unfold MAX_WAITING at hcount
      rw [hseparator, MAX_CONTROL]
      omega
    · intro n hn
      obtain ⟨node, hnode, rfl⟩ := List.mem_map.mp hn
      exact (h.length_of_listedNodes (List.mem_mergeSort.mp hnode)).le
  apply writeControl_eq_ok
  · unfold nodesReply
    dsimp only
    split_ifs with hempty
    · decide
    · intro hnil
      exact hempty (utf8_inj hnil)
  · unfold nodesReply
    dsimp only
    split_ifs
    · decide
    · exact hlength

end Tracker

end AnonGuard
