import AnonGuard.OnionBackward
import AnonGuard.Transport

/-!
# Order and integrity of the secure transport

What an end has opened is the beginning of what the other one has sealed, in every run in
which the adversary does not forge. Each end seals under its own key and counts, so no
nonce comes back under a key. After an operation that did not succeed none does.
-/
namespace AnonGuard

section Numbers

lemma checkedSucc64_eq_some {n next : UInt64} (h : checkedSucc64 n = some next) :
    next.toNat = n.toNat + 1 := by
  unfold checkedSucc64 at h
  split_ifs at h with hmax
  cases h
  have hlt := n.toNat_lt
  rw [UInt64.toNat_add, UInt64.toNat_one, Nat.mod_eq_of_lt (by omega)]

lemma makeNonce_inj {a b : UInt64} (h : makeNonce a = makeNonce b) : a = b :=
  be64_inj (List.append_inj h rfl).2

end Numbers

variable {header body : Bytes}

namespace TransportEnd
variable {P : Primitives} {e e' : TransportEnd} {records : List SealRecord}

/-- The frames that the operation going on has read. -/
def parts (e : TransportEnd) : List Bytes := e.op.elim [] TransportOp.parts

/-- The counters count, and what reads have returned was opened first. -/
structure Counted (e : TransportEnd) : Prop where
  sendCounter : e.session.sendCounter.toNat = e.sent.length
  recvCounter : e.session.recvCounter.toNat = e.opened.length
  reads : e.reads.flatMap ReadResult.frames ++ e.parts <+: e.opened
  ordered : e.outcomes.Pairwise fun later earlier => later = true → earlier = true

/-- What holds of an end at all times. -/
structure Ok (e : TransportEnd) : Prop extends Counted e where
  complete : false ∉ e.outcomes → e.reads.flatMap ReadResult.frames ++ e.parts = e.opened
  busy : e.op.isSome = true → e.session.poisoned = true ∧ false ∉ e.outcomes
  idle : e.op = none → (e.session.poisoned = true ↔ false ∈ e.outcomes)

lemma ok_new (sendKey recvKey : Bytes) : (new sendKey recvKey).Ok where
  sendCounter := rfl
  recvCounter := rfl
  reads := List.prefix_rfl
  complete _ := rfl
  ordered := .nil
  busy h := by cases h
  idle _ := by simp [new, SecureTransportSession.fromKeys]

/-- The keys stay, and so do the frames that were sealed and opened. -/
structure SameFrames (e e' : TransportEnd) : Prop where
  sendKey : e'.session.sendKey = e.session.sendKey
  recvKey : e'.session.recvKey = e.session.recvKey
  sent : e'.sent = e.sent
  opened : e'.opened = e.opened

/-- What a step of an end does to its frames, reading apart: nothing, or seal the next one. -/
inductive Effect (P : Primitives) (e e' : TransportEnd) : List SealRecord → Prop
  | quiet (h : e.SameFrames e') : Effect P e e' []
  | sealed (frame : Bytes) (h : SameFrames { e with sent := e.sent ++ [frame] } e') :
      Effect P e e' [⟨e.session.sendKey, makeNonce e.session.sendCounter, [], frame,
        (P.encrypt e.session.sendKey (makeNonce e.session.sendCounter) [] frame).1,
        (P.encrypt e.session.sendKey (makeNonce e.session.sendCounter) [] frame).2⟩]

lemma Effect.of_poison (h : Effect P e.poison e' records) : Effect P e e' records := by
  cases h with
  | quiet h => exact .quiet ⟨h.sendKey, h.recvKey, h.sent, h.opened⟩
  | sealed frame h => exact .sealed frame ⟨h.sendKey, h.recvKey, h.sent, h.opened⟩

/-- A failure of an operation that was going on, or of a call on a poisoned end. -/
lemma Counted.fail (h : e.Counted) (hpoisoned : e.session.poisoned = true) : e.fail.Ok where
  sendCounter := h.sendCounter
  recvCounter := h.recvCounter
  reads := by
    show e.reads.flatMap ReadResult.frames ++ [] <+: e.opened
    rw [List.append_nil]
    exact (List.prefix_append _ _).trans h.reads
  complete hclean := absurd List.mem_cons_self hclean
  ordered := List.pairwise_cons.mpr ⟨fun _ _ hfalse => (by cases hfalse), h.ordered⟩
  busy hsome := by cases hsome
  idle _ := ⟨fun _ => List.mem_cons_self, fun _ => hpoisoned⟩

/-- A success, with everything returned that was opened. -/
lemma Counted.succeed (h : e.Counted) (hclean : false ∉ e.outcomes) {reads : List ReadResult}
    (hreads : reads.flatMap ReadResult.frames = e.opened) :
    Ok { e with reads := reads }.succeed := by
  have hclean' : false ∉ true :: e.outcomes := fun hmem => by
    rcases List.mem_cons.mp hmem with hfalse | hmem
    · cases hfalse
    · exact hclean hmem
  have hall : reads.flatMap ReadResult.frames ++ [] = e.opened := by rw [List.append_nil, hreads]
  exact {
    sendCounter := h.sendCounter
    recvCounter := h.recvCounter
    reads := hall ▸ List.prefix_rfl
    complete := fun _ => hall
    ordered := List.pairwise_cons.mpr ⟨fun outcome hmem _ => by
      cases outcome with
      | true => rfl
      | false => exact absurd hmem hclean, h.ordered⟩
    busy := fun hsome => by cases hsome
    idle := fun _ => ⟨fun hfalse => (by cases hfalse), fun hmem => absurd hmem hclean'⟩ }

/-- An operation goes on and waits. -/
lemma Counted.wait (h : e.Counted) (hpoisoned : e.session.poisoned = true)
    (hclean : false ∉ e.outcomes) {op : TransportOp}
    (hparts : e.reads.flatMap ReadResult.frames ++ op.parts = e.opened) :
    Ok { e with op := some op } where
  sendCounter := h.sendCounter
  recvCounter := h.recvCounter
  reads := hparts ▸ List.prefix_rfl
  complete _ := hparts
  ordered := h.ordered
  busy _ := ⟨hpoisoned, hclean⟩
  idle hnone := by cases hnone

lemma sendNext_spec (h : e.Counted) (hclean : false ∉ e.outcomes)
    (hpoisoned : e.session.poisoned = true)
    (hread : e.reads.flatMap ReadResult.frames = e.opened) (frame : Bytes) (rest : List Bytes) :
    (e.sendNext P frame rest).1.Ok ∧
      Effect P e (e.sendNext P frame rest).1 (e.sendNext P frame rest).2 := by
  unfold sendNext SecureTransportSession.sealFrame
  split_ifs
  · exact ⟨h.fail hpoisoned, .quiet ⟨rfl, rfl, rfl, rfl⟩⟩
  · cases hnext : checkedSucc64 e.session.sendCounter with
    | none => exact ⟨h.fail hpoisoned, .quiet ⟨rfl, rfl, rfl, rfl⟩⟩
    | some next =>
      have hall : e.reads.flatMap ReadResult.frames ++ [] = e.opened := by
        rw [List.append_nil, hread]
      refine ⟨⟨⟨?_, h.recvCounter, hall ▸ List.prefix_rfl, h.ordered⟩, fun _ => hall,
        fun _ => ⟨hpoisoned, hclean⟩, fun hnone => (by cases hnone)⟩,
        .sealed frame ⟨rfl, rfl, rfl, rfl⟩⟩
      show next.toNat = (e.sent ++ [frame]).length
      rw [checkedSucc64_eq_some hnext, h.sendCounter]
      simp

lemma call_spec (h : e.Ok) {c : TransportCall} (hc : e.call P c = some (e', records)) :
    e'.Ok ∧ Effect P e e' records := by
  unfold call at hc
  by_cases hbusy : e.op.isSome = true
  · rw [if_pos hbusy] at hc
    cases hc
  rw [if_neg hbusy] at hc
  by_cases hpoisoned : e.session.poisoned = true
  · rw [if_pos hpoisoned] at hc
    cases hc
    exact ⟨h.fail hpoisoned, .quiet ⟨rfl, rfl, rfl, rfl⟩⟩
  rw [if_neg hpoisoned] at hc
  have hidle : e.op = none := Option.not_isSome_iff_eq_none.mp hbusy
  have hclean : false ∉ e.outcomes := fun hmem => hpoisoned ((h.idle hidle).mpr hmem)
  have hread : e.reads.flatMap ReadResult.frames = e.opened := by
    have hall := h.complete hclean
    rwa [parts, hidle, Option.elim_none, List.append_nil] at hall
  have hcounted : e.poison.Counted := ⟨h.sendCounter, h.recvCounter, h.reads, h.ordered⟩
  have hall : e.reads.flatMap ReadResult.frames ++ [] = e.opened := by rw [List.append_nil, hread]
  cases c with
  | writeFrame payload =>
    have hspec := sendNext_spec (P := P) hcounted hclean rfl hread payload []
    rw [Option.some.inj hc] at hspec
    exact ⟨hspec.1, hspec.2.of_poison⟩
  | writeDocument document =>
    dsimp only at hc
    split_ifs at hc
    · cases hc
      exact ⟨hcounted.fail rfl, .quiet ⟨rfl, rfl, rfl, rfl⟩⟩
    · have hspec := sendNext_spec (P := P) hcounted hclean rfl hread (documentHeader document)
        (document.toChunks MAX_FRAME_LEN)
      rw [Option.some.inj hc] at hspec
      exact ⟨hspec.1, hspec.2.of_poison⟩
  | readFrame | readDocument =>
    cases hc
    exact ⟨hcounted.wait rfl hclean hall, .quiet ⟨rfl, rfl, rfl, rfl⟩⟩

lemma written_spec (h : e.Ok) (hw : e.written P = some (e', records)) :
    e'.Ok ∧ Effect P e e' records := by
  unfold written at hw
  split at hw
  · rename_i hop
    have hclean := (h.busy (by rw [hop]; rfl)).2
    have hread := h.complete hclean
    rw [parts, hop, Option.elim_some, TransportOp.parts, List.append_nil] at hread
    cases hw
    exact ⟨h.toCounted.succeed hclean hread, .quiet ⟨rfl, rfl, rfl, rfl⟩⟩
  · rename_i frame rest hop
    obtain ⟨hpoisoned, hclean⟩ := h.busy (by rw [hop]; rfl)
    have hread := h.complete hclean
    rw [parts, hop, Option.elim_some, TransportOp.parts, List.append_nil] at hread
    have hspec := sendNext_spec (P := P) h.toCounted hclean hpoisoned hread frame rest
    rw [Option.some.inj hw] at hspec
    exact hspec
  · cases hw

lemma abort_spec (h : e.Ok) (ha : e.abort = some e') : e'.Ok ∧ Effect P e e' [] := by
  unfold abort at ha
  split_ifs at ha with hbusy
  cases ha
  exact ⟨h.fail (h.busy hbusy).1, .quiet ⟨rfl, rfl, rfl, rfl⟩⟩

/-- A read takes the last frame that was opened. -/
lemma take_spec (h : e.Counted) (hpoisoned : e.session.poisoned = true) (hclean : false ∉ e.outcomes)
    {op : TransportOp} {plain : Bytes}
    (hread : e.reads.flatMap ReadResult.frames ++ (op.parts ++ [plain]) = e.opened)
    (ht : e.take op plain = some e') : e'.Ok ∧ e.SameFrames e' := by
  cases op with
  | writing => cases ht
  | readingFrame =>
    cases ht
    refine ⟨h.succeed hclean ?_, ⟨rfl, rfl, rfl, rfl⟩⟩
    rw [List.flatMap_append, ← hread]
    rfl
  | readingHeader =>
    simp only [take] at ht
    split at ht
    · cases ht
      exact ⟨h.fail hpoisoned, ⟨rfl, rfl, rfl, rfl⟩⟩
    · cases ht
      exact ⟨h.wait hpoisoned hclean hread, ⟨rfl, rfl, rfl, rfl⟩⟩
  | readingChunks =>
    simp only [take] at ht
    split_ifs at ht
    · cases ht
      exact ⟨h.fail hpoisoned, ⟨rfl, rfl, rfl, rfl⟩⟩
    · cases ht
      exact ⟨h.wait hpoisoned hclean hread, ⟨rfl, rfl, rfl, rfl⟩⟩
    · cases ht
      refine ⟨h.succeed hclean ?_, ⟨rfl, rfl, rfl, rfl⟩⟩
      rw [List.flatMap_append, ← hread]
      simp [ReadResult.frames, TransportOp.parts]

/-- A frame that arrives goes to the read that is under way. -/
lemma open_of_receive (hr : e.receive P header body = some e') :
    ∃ op, e.op = some op ∧ (match e.session.openFrame P header body with
      | (.error _, session) => some { e with session := session }.fail
      | (.ok plain, session) =>
        { e with session := session, opened := e.opened ++ [plain] }.take op plain) = some e' := by
  unfold receive at hr
  cases hop : e.op with
  | none =>
    rw [hop] at hr
    cases hr
  | some op =>
    refine ⟨op, rfl, ?_⟩
    rw [hop] at hr
    cases op with
    | writing => cases hr
    | readingFrame | readingHeader | readingChunks =>
      dsimp only at hr
      split_ifs at hr
      exact hr

/-- A frame that arrives fails the read, or is opened under the next number. -/
lemma receive_spec (h : e.Ok) (hr : e.receive P header body = some e') :
    e'.Ok ∧ (e.SameFrames e' ∨ ∃ plain,
      P.decrypt e.session.recvKey (makeNonce e.session.recvCounter) []
        (SecureTransportSession.cipherOf header body)
        (SecureTransportSession.tagOf header body) = some plain ∧
      SameFrames { e with opened := e.opened ++ [plain] } e') := by
  obtain ⟨op, hop, hopening⟩ := open_of_receive hr
  obtain ⟨hpoisoned, hclean⟩ := h.busy (by rw [hop]; rfl)
  have hread := h.complete hclean
  rw [parts, hop, Option.elim_some] at hread
  unfold SecureTransportSession.openFrame at hopening
  split_ifs at hopening
  · cases hopening
    exact ⟨h.toCounted.fail hpoisoned, .inl ⟨rfl, rfl, rfl, rfl⟩⟩
  · cases hdecrypt : P.decrypt e.session.recvKey (makeNonce e.session.recvCounter) []
        (SecureTransportSession.cipherOf header body)
        (SecureTransportSession.tagOf header body) with
    | none =>
      rw [hdecrypt] at hopening
      cases hopening
      exact ⟨h.toCounted.fail hpoisoned, .inl ⟨rfl, rfl, rfl, rfl⟩⟩
    | some plain =>
      rw [hdecrypt] at hopening
      dsimp only at hopening
      cases hnext : checkedSucc64 e.session.recvCounter with
      | none =>
        rw [hnext] at hopening
        cases hopening
        exact ⟨h.toCounted.fail hpoisoned, .inl ⟨rfl, rfl, rfl, rfl⟩⟩
      | some next =>
        rw [hnext] at hopening
        have hcounted : Counted { e with
            session := { e.session with recvCounter := next }
            opened := e.opened ++ [plain] } := by
          refine ⟨h.sendCounter, ?_, h.reads.trans (List.prefix_append _ _), h.ordered⟩
          show next.toNat = (e.opened ++ [plain]).length
          rw [checkedSucc64_eq_some hnext, h.recvCounter]
          simp
        obtain ⟨hok, hsame⟩ := take_spec hcounted hpoisoned hclean
          (by rw [← List.append_assoc, hread]) hopening
        exact ⟨hok, .inr ⟨plain, rfl, hsame.sendKey, hsame.recvKey, hsame.sent, hsame.opened⟩⟩

end TransportEnd

namespace TransportPair
variable {P : Primitives} {clientKey serverKey : Bytes} {s s' : TransportPair} {e : TransportEnd}

/-- The key that a side seals with. -/
def keyOf (clientKey serverKey : Bytes) : Side → Bytes
  | .client => clientKey
  | .server => serverKey

/-- A sealing call of this side: its payload is the frame that the nonce counts. -/
structure SealedBy (P : Primitives) (key : Bytes) (sent : List Bytes) (r : SealRecord) : Prop where
  key_eq : r.key = key
  plain : ∃ n : ℕ, sent[n]? = some r.plain ∧ r.nonce = makeNonce (UInt64.ofNat n)
  cipher : P.encrypt r.key r.nonce [] r.plain = (r.cipher, r.tag)

lemma SealedBy.mono {key : Bytes} {sent : List Bytes} {r : SealRecord} (h : SealedBy P key sent r)
    (frame : Bytes) : SealedBy P key (sent ++ [frame]) r := by
  obtain ⟨n, hn, hnonce⟩ := h.plain
  refine ⟨h.key_eq, ⟨n, ?_, hnonce⟩, h.cipher⟩
  rw [List.getElem?_append_left (List.getElem?_eq_some_iff.mp hn).1, hn]

/-- What holds in every run without forgeries. -/
structure Secure (P : Primitives) (clientKey serverKey : Bytes) (s : TransportPair) : Prop where
  ends : ∀ x, (s.ends x).Ok
  keys : ∀ x, (s.ends x).session.sendKey = keyOf clientKey serverKey x ∧
    (s.ends x).session.recvKey = keyOf clientKey serverKey x.peer
  opened : ∀ x, (s.ends x).opened <+: (s.ends x.peer).sent
  sealed : ∀ r ∈ s.seals, ∃ x, SealedBy P (keyOf clientKey serverKey x) (s.ends x).sent r
  fresh : s.seals.Pairwise fun a b => (a.key, a.nonce) ≠ (b.key, b.nonce)

lemma secure_new : Secure P clientKey serverKey (new clientKey serverKey) where
  ends x := by cases x <;> exact TransportEnd.ok_new _ _
  keys x := by cases x <;> exact ⟨rfl, rfl⟩
  opened x := by cases x <;> exact List.nil_prefix
  sealed r hr := by cases hr
  fresh := .nil

@[simp] lemma ends_set_self (x : Side) (e : TransportEnd) (records : List SealRecord) :
    (s.set x e records).ends x = e := Function.update_self _ _ _

@[simp] lemma ends_set_peer (x : Side) (e : TransportEnd) (records : List SealRecord) :
    (s.set x e records).ends x.peer = s.ends x.peer :=
  Function.update_of_ne (by cases x <;> decide) _ _

/-- One side or the other. -/
lemma forall_side {p : Side → Prop} (x : Side) (h : p x) (h' : p x.peer) : ∀ y, p y := by
  intro y
  cases x <;> cases y <;> assumption

lemma peer_peer (x : Side) : x.peer.peer = x := by cases x <;> rfl

/-- A step that seals nothing. What it opens, the other end has sent. -/
lemma Secure.unsealed (h : Secure P clientKey serverKey s) (x : Side) (hok : e.Ok) {opened : List Bytes}
    (hsame : TransportEnd.SameFrames { s.ends x with opened } e)
    (hopened : opened <+: (s.ends x.peer).sent) : Secure P clientKey serverKey (s.set x e []) where
  ends := forall_side x (by rwa [ends_set_self]) (by rw [ends_set_peer]; exact h.ends _)
  keys := by
    refine forall_side x ?_ ?_
    · rw [ends_set_self, hsame.sendKey, hsame.recvKey]
      exact h.keys x
    · rw [ends_set_peer]
      exact h.keys _
  opened := by
    refine forall_side x ?_ ?_
    · rw [ends_set_self, ends_set_peer, hsame.opened]
      exact hopened
    · have hpeer := h.opened x.peer
      rw [peer_peer] at hpeer ⊢
      rw [ends_set_self, ends_set_peer, hsame.sent]
      exact hpeer
  sealed r hr := by
    obtain ⟨y, hy⟩ := h.sealed r hr
    refine ⟨y, ?_⟩
    have hsent : ∀ y, ((s.set x e []).ends y).sent = (s.ends y).sent :=
      forall_side x (by rw [ends_set_self, hsame.sent]) (by rw [ends_set_peer])
    rw [hsent]
    exact hy
  fresh := h.fresh

/-- The nonce of the next frame has not been used under the key. -/
lemma Secure.next_fresh (h : Secure P clientKey serverKey s) (hkeys : clientKey ≠ serverKey)
    (x : Side) {r : SealRecord} (hr : r ∈ s.seals) :
    ((s.ends x).session.sendKey, makeNonce (s.ends x).session.sendCounter) ≠ (r.key, r.nonce) := by
  intro heq
  obtain ⟨hkey, hnonce⟩ := Prod.mk.injEq .. ▸ heq
  obtain ⟨y, hy⟩ := h.sealed r hr
  have hxy : x = y := by
    rw [(h.keys x).1, hy.key_eq] at hkey
    cases x <;> cases y
    · rfl
    · exact absurd hkey hkeys
    · exact absurd hkey.symm hkeys
    · rfl
  subst hxy
  obtain ⟨n, hn, hrn⟩ := hy.plain
  have hlt : n < (s.ends x).sent.length := (List.getElem?_eq_some_iff.mp hn).1
  have hcounter := (h.ends x).sendCounter
  have hbound := (s.ends x).session.sendCounter.toNat_lt
  have hnat := congrArg UInt64.toNat (makeNonce_inj (hnonce.trans hrn))
  rw [UInt64.toNat_ofNat', Nat.mod_eq_of_lt (by omega)] at hnat
  omega

/-- A step that seals the next frame. -/
lemma Secure.sealNext (h : Secure P clientKey serverKey s) (hkeys : clientKey ≠ serverKey) (x : Side)
    (hok : e.Ok) {records : List SealRecord}
    (heffect : (s.ends x).Effect P e records) : Secure P clientKey serverKey (s.set x e records) := by
  cases heffect with
  | quiet hsame => exact h.unsealed x hok hsame (h.opened x)
  | sealed frame hsame =>
    have hsent : e.sent = (s.ends x).sent ++ [frame] := hsame.sent
    refine ⟨forall_side x (by rwa [ends_set_self]) (by rw [ends_set_peer]; exact h.ends _),
      forall_side x ?_ ?_, forall_side x ?_ ?_, fun r hr => ?_, ?_⟩
    · rw [ends_set_self, hsame.sendKey, hsame.recvKey]
      exact h.keys x
    · rw [ends_set_peer]
      exact h.keys _
    · rw [ends_set_self, ends_set_peer, hsame.opened]
      exact h.opened x
    · have hpeer := h.opened x.peer
      rw [peer_peer] at hpeer ⊢
      rw [ends_set_self, ends_set_peer, hsent]
      exact hpeer.trans (List.prefix_append _ _)
    · rcases List.mem_append.mp hr with hr | hr
      · rw [List.mem_singleton] at hr
        subst hr
        refine ⟨x, (h.keys x).1, ⟨(s.ends x).sent.length, ?_, ?_⟩, rfl⟩
        · rw [ends_set_self, hsent]
          simp
        · rw [← (h.ends x).sendCounter, UInt64.ofNat_toNat]
      · obtain ⟨y, hy⟩ := h.sealed r hr
        refine ⟨y, ?_⟩
        by_cases hxy : y = x
        · subst hxy
          rw [ends_set_self, hsent]
          exact hy.mono frame
        · have hpeer : y = x.peer := by
            cases x <;> cases y <;> first | rfl | exact absurd rfl hxy
          rw [hpeer, ends_set_peer]
          exact hpeer ▸ hy
    · exact List.pairwise_cons.mpr ⟨fun r hr => h.next_fresh hkeys x hr, h.fresh⟩

/-- A step that opens a frame, which the other end has sealed under its number. -/
lemma Secure.openNext (hcorrect : P.Correct) (h : Secure P clientKey serverKey s)
    (hkeys : clientKey ≠ serverKey) (x : Side) {header body plain : Bytes}
    (hunforged : s.Unforged P (.receive x header body))
    (hdecrypt : P.decrypt (s.ends x).session.recvKey (makeNonce (s.ends x).session.recvCounter) []
      (SecureTransportSession.cipherOf header body)
      (SecureTransportSession.tagOf header body) = some plain) :
    (s.ends x).opened ++ [plain] <+: (s.ends x.peer).sent := by
  rcases hunforged with hnone | ⟨r, hr, hkey, hnonce, hcipher, htag⟩
  · rw [hdecrypt] at hnone
    cases hnone
  obtain ⟨y, hy⟩ := h.sealed r hr
  have hpeer : y = x.peer := by
    rw [hy.key_eq, (h.keys x).2] at hkey
    cases x <;> cases y
    · exact absurd hkey hkeys
    · rfl
    · rfl
    · exact absurd hkey.symm hkeys
  subst hpeer
  have hplain : r.plain = plain := by
    have hopen := hcorrect r.key r.nonce [] r.plain
    rw [hy.cipher, hcipher, htag, hkey, hnonce, hdecrypt, Option.some.injEq] at hopen
    exact hopen.symm
  obtain ⟨n, hn, hrn⟩ := hy.plain
  have hindex : n = (s.ends x).opened.length := by
    have hlt : n < (s.ends x.peer).sent.length := (List.getElem?_eq_some_iff.mp hn).1
    have hcounter := (h.ends x.peer).sendCounter
    have hbound := (s.ends x.peer).session.sendCounter.toNat_lt
    have hrecv := (h.ends x).recvCounter
    have hnat := congrArg UInt64.toNat (makeNonce_inj (hnonce.symm.trans hrn))
    rw [UInt64.toNat_ofNat', Nat.mod_eq_of_lt (by omega)] at hnat
    omega
  obtain ⟨rest, hrest⟩ := h.opened x
  rw [hindex, ← hrest, List.getElem?_append_right (le_refl _), Nat.sub_self] at hn
  cases rest with
  | nil => cases hn
  | cons a rest =>
    have ha : a = r.plain := Option.some.inj hn
    refine ⟨rest, ?_⟩
    rw [← hrest, List.append_assoc, ← hplain, ← ha]
    rfl

lemma Secure.receive (hcorrect : P.Correct) (h : Secure P clientKey serverKey s)
    (hkeys : clientKey ≠ serverKey) (x : Side) (hunforged : s.Unforged P (.receive x header body))
    (hr : (s.ends x).receive P header body = some e) :
    Secure P clientKey serverKey (s.set x e []) := by
  obtain ⟨hok, hsame | ⟨plain, hdecrypt, hsame⟩⟩ := TransportEnd.receive_spec (h.ends x) hr
  · exact h.unsealed x hok hsame (h.opened x)
  · exact h.unsealed x hok hsame (h.openNext hcorrect hkeys x hunforged hdecrypt)

lemma Secure.step (hcorrect : P.Correct) (hkeys : clientKey ≠ serverKey)
    (h : Secure P clientKey serverKey s) {i : TransportInput} (hunforged : s.Unforged P i)
    (hs : s.step P i = some s') : Secure P clientKey serverKey s' := by
  cases i with
  | call x =>
    obtain ⟨out, hout, rfl⟩ := Option.map_eq_some_iff.mp hs
    obtain ⟨hok, heffect⟩ := TransportEnd.call_spec (h.ends x) hout
    exact h.sealNext hkeys x hok heffect
  | written x =>
    obtain ⟨out, hout, rfl⟩ := Option.map_eq_some_iff.mp hs
    obtain ⟨hok, heffect⟩ := TransportEnd.written_spec (h.ends x) hout
    exact h.sealNext hkeys x hok heffect
  | receive x =>
    obtain ⟨e, he, rfl⟩ := Option.map_eq_some_iff.mp hs
    exact h.receive hcorrect hkeys x hunforged he
  | abort x =>
    obtain ⟨e, he, rfl⟩ := Option.map_eq_some_iff.mp hs
    obtain ⟨hok, heffect⟩ := TransportEnd.abort_spec (P := P) (h.ends x) he
    exact h.sealNext hkeys x hok heffect

/-- Against an adversary that does not forge, the frames that the reads of an end have
returned are the first ones that the other end has sealed; after an operation that has
failed or was cancelled none succeeds; and no nonce is used twice under a key. -/
theorem transport_secure (hcorrect : P.Correct) (hkeys : clientKey ≠ serverKey)
    (h : GuardedRun (step P) (Unforged P) (new clientKey serverKey) s) :
    (∀ x, (s.ends x).reads.flatMap ReadResult.frames <+: (s.ends x.peer).sent) ∧
      (∀ x, (s.ends x).outcomes.Pairwise fun later earlier => later = true → earlier = true) ∧
      s.seals.Pairwise fun a b => (a.key, a.nonce) ≠ (b.key, b.nonce) := by
  have hs : Secure P clientKey serverKey s :=
    h.invariant secure_new fun _ _ _ hi hok hstep => hi.step hcorrect hkeys hok hstep
  refine ⟨fun x => ?_, fun x => (hs.ends x).ordered, hs.fresh⟩
  exact ((List.prefix_append _ _).trans (hs.ends x).reads).trans (hs.opened x)

/-- The client writes a frame and a document, the server reads both and then gives up. -/
def sampleExchange : List TransportInput :=
  [.call .client (.writeFrame [7]), .call .server .readFrame,
    .receive .server (toBe 4 17) (7 :: List.replicate 16 0), .written .client,
    .call .client (.writeDocument [8, 9]), .written .client, .call .server .readDocument,
    .receive .server (toBe 4 28) (documentHeader [8, 9] ++ List.replicate 16 0),
    .receive .server (toBe 4 18) ([8, 9] ++ List.replicate 16 0), .call .server .readFrame,
    .abort .server, .call .server (.writeFrame [1])]

theorem sampleExchange_secure :
    let s := (runInputs (step identityPrimitives) (new [1] [2]) sampleExchange).getD (new [1] [2])
    (s.ends .server).reads.flatMap ReadResult.frames = [[7], documentHeader [8, 9], [8, 9]] ∧
      (s.ends .server).outcomes = [false, false, true, true] ∧
      (s.ends .server).reads.flatMap ReadResult.frames <+: (s.ends .client).sent := by
  intro s
  have hchecks : inputsOk (step identityPrimitives) (Unforged identityPrimitives) (new [1] [2])
      sampleExchange = true ∧
      (s.ends .server).reads.flatMap ReadResult.frames = [[7], documentHeader [8, 9], [8, 9]] ∧
      (s.ends .server).outcomes = [false, false, true, true] := by decide +kernel
  obtain ⟨hok, hreads, houtcomes⟩ := hchecks
  exact ⟨hreads, houtcomes, (transport_secure identityPrimitives_correct (by decide)
    (GuardedRun.getD_inputs sampleExchange hok _)).1 .server⟩

end TransportPair

end AnonGuard
