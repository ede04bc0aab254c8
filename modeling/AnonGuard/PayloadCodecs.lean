import AnonGuard.Handshake
import AnonGuard.Session

/-!
# The payloads that relays and exits accept

The payload of an EXTEND cell has the lengths of its parts, and the parser takes nothing behind
them: it accepts exactly what the client can write. The parser of targets takes what stands behind
the port, but a session exit writes the target again and compares.
-/
namespace AnonGuard

namespace ExtendBody

def encode (body : ExtendBody) : Except CircuitError Bytes :=
  encodeExtendPayload body.host body.port body.clientPub body.clientMlkemPub body.hopIndex

/-- What an EXTEND payload can hold. -/
structure Valid (body : ExtendBody) : Prop where
  hopIndex : body.hopIndex < MAX_HOPS
  host : (utf8 body.host).length ≤ 255
  clientPub : body.clientPub.length = 32
  clientMlkemPub : mlkem768PublicIsCanonical body.clientMlkemPub = true

end ExtendBody

variable {payload : Bytes}

/-- The octets behind the first two are those of the parts. -/
lemma parts_of_extendPayload {hostLen : ℕ} (hlength : payload.length = EXTEND_FIXED + hostLen) :
    slice 2 (2 + hostLen) payload ++ (slice (2 + hostLen) (2 + hostLen + 2) payload ++
      (slice (2 + hostLen + 2) (2 + hostLen + 2 + 32) payload ++
        slice (2 + hostLen + 2 + 32) (2 + hostLen + 2 + 32 + 1184) payload)) = payload.drop 2 := by
  have hend : 2 + hostLen + 2 + 32 + 1184 = payload.length := by
    rw [hlength, EXTEND_FIXED]
    omega
  rw [slice_append_slice (by omega) (by omega), slice_append_slice (by omega) (by omega),
    slice_append_slice (by omega) (by omega), hend, slice, List.take_length]

/-- A payload that is accepted is what one gets by writing its parts. -/
lemma encode_of_decodeExtendPayload {body : ExtendBody}
    (h : decodeExtendPayload payload = .ok body) : body.Valid ∧ body.encode = .ok payload := by
  unfold decodeExtendPayload at h
  dsimp only at h
  split_ifs at h with hshort hindex hfull hexact hcanonical
  · split at h <;> cases h
  · split at h
    · cases h
    · rename_i host htext
      cases h
      have hlength := not_not.mp hexact
      have hlong : EXTEND_FIXED ≤ payload.length := Nat.not_lt.mp hshort
      have hlt := (payload.getD 1 0).toNat_lt
      have hname := utf8_of_fromUTF8 htext
      have hnameLength : (utf8 host).length = (payload.getD 1 0).toNat := by
        rw [hname, length_slice (by rw [hlength, EXTEND_FIXED]; omega), Nat.add_sub_cancel_left]
      refine ⟨⟨Nat.not_le.mp hindex, by dsimp only; omega, ?_, by simpa using hcanonical⟩, ?_⟩
      · exact (length_slice (by rw [hlength, EXTEND_FIXED]; omega)).trans (Nat.add_sub_cancel_left _ _)
      · have hport : (slice (2 + (payload.getD 1 0).toNat) (2 + (payload.getD 1 0).toNat + 2)
            payload).length = 2 :=
          (length_slice (by rw [hlength, EXTEND_FIXED]; omega)).trans (Nat.add_sub_cancel_left _ _)
        have hhost : ¬ (utf8 host).length > 255 := by omega
        have hfirst : UInt8.ofNat (payload.getD 0 0).toNat ::
            UInt8.ofNat (payload.getD 1 0).toNat :: payload.drop 2 = payload := by
          unfold EXTEND_FIXED at hlong
          cases payload with
          | nil => simp at hlong
          | cons a payload =>
            cases payload with
            | nil => simp at hlong
            | cons => simp
        unfold ExtendBody.encode encodeExtendPayload
        dsimp only
        rw [if_neg hindex, if_neg hhost, hnameLength, hname, be16_u16OfBe hport,
          parts_of_extendPayload hlength, hfirst]

/-- Reading and writing EXTEND payloads are inverse to each other. -/
theorem decodeExtendPayload_eq_ok_iff (payload : Bytes) (body : ExtendBody) :
    decodeExtendPayload payload = .ok body ↔ body.Valid ∧ body.encode = .ok payload := by
  constructor
  · exact encode_of_decodeExtendPayload
  · rintro ⟨hvalid, hencode⟩
    exact decodeExtendPayload_encode hvalid.clientPub hvalid.clientMlkemPub hencode

lemma encodeRelayTarget_eq_ok {host : String} {port : UInt16}
    (h : encodeRelayTarget host port = .ok payload) :
    (utf8 host).length ≤ 255 ∧
      payload = UInt8.ofNat (utf8 host).length :: utf8 host ++ be16 port := by
  unfold encodeRelayTarget at h
  dsimp only at h
  split_ifs at h with hlong
  cases h
  exact ⟨Nat.not_lt.mp hlong, rfl⟩

/-- The exit reads the target as the client has named it. -/
lemma decodeRelayTarget_of_encode {host : String} {port : UInt16}
    (h : encodeRelayTarget host port = .ok payload) :
    decodeRelayTarget payload = .ok (host, port) := by
  obtain ⟨hshort, hoctets⟩ := encodeRelayTarget_eq_ok h
  have hsize : payload.length = 1 + (utf8 host).length + 2 := by
    rw [hoctets]
    simp only [List.cons_append, List.length_cons, List.length_append, length_be16]
    omega
  have hlength : (payload.getD 0 0).toNat = (utf8 host).length := by
    rw [hoctets, List.cons_append, List.getD_cons_zero, UInt8.toNat_ofNat',
      Nat.mod_eq_of_lt (by omega)]
  have hname : (payload.drop 1).take (utf8 host).length = utf8 host := by
    rw [hoctets, List.cons_append, List.drop_one, List.tail_cons, List.take_left]
  have hport : (payload.drop (1 + (utf8 host).length)).take 2 = be16 port := by
    rw [hoctets, List.cons_append, Nat.add_comm 1, List.drop_succ_cons, List.drop_left,
      List.take_of_length_le (by simp)]
  unfold decodeRelayTarget
  simp only [hlength, hname, hport, fromUTF8_utf8, u16OfBe_be16]
  rw [if_neg (by omega), if_neg (by omega)]

namespace Endpoint
variable {e : Endpoint} {now id : ℕ} {data : Bytes}

/-- An exit that has a place for a stream with this id looks at the target. -/
structure ReadsTarget (e : Endpoint) (id : ℕ) : Prop where
  exit : e.client = false
  running : e.peerFinish = false
  next : e.lastId < id
  inRange : id ≤ MAX_IDS
  place : e.streams.size + e.connecting.card < MAX_STREAMS

/-- The exit connects for the stream. -/
def connect (e : Endpoint) (now id : ℕ) : Endpoint :=
  { e with
    lastId := id
    connecting := insert id e.connecting
    connectTasks := insert id e.connectTasks
    dialing := insert id e.dialing
    activity := now }

lemma acceptOpen_eq_ok_iff (hplace : e.streams.size + e.connecting.card < MAX_STREAMS) (e' : Endpoint) :
    e.acceptOpen now id data = .ok e' ↔
      (∃ host port, host ≠ "" ∧ (utf8 host).length ≤ 255 ∧ port ≠ 0 ∧
        encodeRelayTarget host port = .ok data) ∧ e' = e.connect now id := by
  have hroom : ¬ e.streams.size + e.connecting.card ≥ MAX_STREAMS := Nat.not_le.mpr hplace
  unfold acceptOpen
  dsimp only
  rw [if_neg hroom]
  constructor
  · intro h
    split at h
    · cases h
    · rename_i host port hdecode
      split_ifs at h with hempty
      rw [not_or] at hempty
      split at h
      · cases h
      · rename_i target hencode
        split_ifs at h with hsame
        cases h
        rw [not_not.mp hsame] at hencode
        exact ⟨⟨host, port, hempty.1, (encodeRelayTarget_eq_ok hencode).1, hempty.2, hencode⟩, rfl⟩
  · rintro ⟨⟨host, port, hhost, -, hport, hencode⟩, rfl⟩
    have hchecks : ¬ (host = "" ∨ port = 0) := not_or.mpr ⟨hhost, hport⟩
    simp only [decodeRelayTarget_of_encode hencode, if_neg hchecks, hencode, ne_eq, not_true, if_false]
    rfl

/-- The exit answers a SessionOpen by connecting if and only if it could have written the target. -/
lemma dispatch_open_eq_ok_iff (h : e.ReadsTarget id) (e' : Endpoint) :
    e.dispatch now ⟨.sessionOpen, id, data⟩ = .ok e' ↔
      (∃ host port, host ≠ "" ∧ (utf8 host).length ≤ 255 ∧ port ≠ 0 ∧
        encodeRelayTarget host port = .ok data) ∧ e' = e.connect now id := by
  have hstate : e.client = false ∧ e.peerFinish = false ∧ id > e.lastId ∧ id ≤ MAX_IDS :=
    ⟨h.exit, h.running, h.next, h.inRange⟩
  rw [← acceptOpen_eq_ok_iff h.place]
  simp only [dispatch, lateCommand, Bool.false_eq_true, and_false, if_false, if_pos hstate]

end Endpoint

/-- Between the payloads that a relay accepts in an EXTEND cell and what they can hold, reading and
writing are inverse to each other. An exit connects for a SessionOpen that it looks at if and only if
the payload is a target that has a host and a port, as a client writes it. -/
theorem payloads_canonical :
    (∀ (payload : Bytes) (body : ExtendBody),
      decodeExtendPayload payload = .ok body ↔ body.Valid ∧ body.encode = .ok payload) ∧
    ∀ (e : Endpoint) (id : ℕ), e.ReadsTarget id → ∀ (now : ℕ) (data : Bytes) (e' : Endpoint),
      e.dispatch now ⟨.sessionOpen, id, data⟩ = .ok e' ↔
        (∃ host port, host ≠ "" ∧ (utf8 host).length ≤ 255 ∧ port ≠ 0 ∧
          encodeRelayTarget host port = .ok data) ∧ e' = e.connect now id := by
  refine ⟨decodeExtendPayload_eq_ok_iff, fun e id h now data e' => ?_⟩
  exact Endpoint.dispatch_open_eq_ok_iff h e'

/-- A new exit connects for the target `8.8.8.8:443`, and not if an octet stands behind it. -/
theorem newExit_payloads :
    (∃ payload, decodeExtendPayload payload =
      .ok ⟨"1.1.1.1", 9001, List.replicate 32 9, List.replicate 1184 0, 1⟩) ∧
    (∃ e', (Endpoint.new false .balanced 0 1).dispatch 5
      ⟨.sessionOpen, 1, [7, 56, 46, 56, 46, 56, 46, 56, 1, 187]⟩ = .ok e') ∧
    ∀ e', (Endpoint.new false .balanced 0 1).dispatch 5
      ⟨.sessionOpen, 1, [7, 56, 46, 56, 46, 56, 46, 56, 1, 187, 0]⟩ ≠ .ok e' := by
  obtain ⟨hextend, htarget⟩ := payloads_canonical
  have hreads : (Endpoint.new false .balanced 0 1).ReadsTarget 1 :=
    ⟨rfl, rfl, Nat.zero_lt_one, by decide, by decide⟩
  have hencode : encodeRelayTarget "8.8.8.8" 443 =
      .ok [7, 56, 46, 56, 46, 56, 46, 56, 1, 187] := by
    unfold encodeRelayTarget
    rfl
  refine ⟨⟨_, (hextend _ _).mpr ⟨⟨by decide, by decide +kernel, rfl, by decide +kernel⟩, rfl⟩⟩,
    ⟨_, (htarget _ 1 hreads 5 _ _).mpr ⟨⟨_, _, by decide, by decide +kernel, by decide, hencode⟩, rfl⟩⟩,
    fun e' he' => ?_⟩
  obtain ⟨⟨host, port, -, hshort, -, hwritten⟩, -⟩ := (htarget _ 1 hreads 5 _ e').mp he'
  obtain ⟨-, hoctets⟩ := encodeRelayTarget_eq_ok hwritten
  have hlength := congrArg List.length hoctets
  have hfirst : (7 : UInt8) = UInt8.ofNat (utf8 host).length := (List.cons.inj hoctets).1
  have hseven := congrArg UInt8.toNat hfirst
  rw [UInt8.toNat_ofNat', Nat.mod_eq_of_lt (by omega)] at hseven
  simp only [List.cons_append, List.length_cons, List.length_append, length_be16, ← hseven] at hlength
  cases hlength

end AnonGuard
