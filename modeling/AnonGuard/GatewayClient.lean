import AnonGuard.IpText
import AnonGuard.PayloadCodecs
import AnonGuard.Socks
import AnonGuard.TelescopeNetwork
import AnonGuard.WriteLog

/-!
# The client paths of the gateway

The gateway reads a SOCKS request and takes the target to a padded session, through an
onion circuit of its own, or through a chain of plain SOCKS proxies. Each path has its own
encoding of the target. With `disable_ipv6` the padded path refuses an IPv6 target at once,
and on the plain path the builder of the CONNECT frame does.

What the network does with a request is an argument: the chain that was selected, the
answers of relays and proxies, and which connections fail. Time-outs are failed
connections or missing answers.
-/
namespace AnonGuard

inductive TargetAddress
  | ipv4 (octets : Bytes)
  | domain (name : String)
  | ipv6 (octets : Bytes)
  deriving DecidableEq, Repr

def buildSocks5hConnectFrame (target : TargetAddress) (port : UInt16) (blockIpv6 : Bool) :
    Except String Bytes :=
  if port = 0 then .error "Zero destination port"
  else
    match target with
    | .domain name =>
      if validateDomain (utf8 name) = false then .error "Invalid SOCKS5 domain"
      else .ok ([5, 1, 0, 3] ++ (UInt8.ofNat (utf8 name).length :: utf8 name ++ be16 port))
    | .ipv4 ip => .ok ([5, 1, 0, 1] ++ (ip ++ be16 port))
    | .ipv6 ip =>
      if blockIpv6 = true then
        .error "IPv6 target blocked by AnonGuard policy to prevent dual-stack leak"
      else .ok ([5, 1, 0, 4] ++ (ip ++ be16 port))

/-- The stream to a proxy: the octets that it still sends, and what has been written. -/
structure ProxyStream where
  incoming : Bytes
  sent : List Bytes

abbrev ProxyM (ε : Type) := EStateM ε ProxyStream

namespace ProxyM

def readExact (size : ℕ) : ProxyM String Bytes := fun s =>
  if s.incoming.length < size then .error "early eof" { s with incoming := [] }
  else .ok (s.incoming.take size) { s with incoming := s.incoming.drop size }

def writeAll (octets : Bytes) : ProxyM String Unit := fun s =>
  .ok () { s with sent := s.sent ++ [octets] }

def require (c : Prop) [Decidable c] (e : String) : ProxyM String Unit :=
  if c then pure () else throw e

def ofExcept {α : Type} : Except String α → ProxyM String α
  | .ok a => pure a
  | .error e => throw e

end ProxyM

/-- How a proxy is told the target: as an address if the text is one. -/
def targetAddress (E : DirectoryEnv) (targetHost : String) : TargetAddress :=
  match E.parseIp targetHost with
  | some (.v4 ip) => .ipv4 ip
  | some (.v6 ip) => .ipv6 ip
  | none => .domain targetHost

/-- The bound address in the answer of a proxy. -/
def skipBoundAddress (atyp : UInt8) : ProxyM String Unit :=
  if atyp = 1 then do
    let _ ← ProxyM.readExact (4 + 2)
  else if atyp = 4 then do
    let _ ← ProxyM.readExact (16 + 2)
  else if atyp = 3 then do
    let length ← ProxyM.readExact 1
    ProxyM.require (length.headD 0 ≠ 0) "Empty bound domain"
    let _ ← ProxyM.readExact ((length.headD 0).toNat + 2)
  else throw "Unknown ATYP in SOCKS5 response"

def socks5ConnectThrough (E : DirectoryEnv) (targetHost : String) (targetPort : UInt16)
    (blockIpv6 : Bool) : ProxyM String Unit := do
  ProxyM.writeAll [5, 1, 0]
  let auth ← ProxyM.readExact 2
  ProxyM.require (auth.headD 0 = 5 ∧ auth.getD 1 0 = 0) "SOCKS5 proxy rejected no-auth"
  let request ← ProxyM.ofExcept
    (buildSocks5hConnectFrame (targetAddress E targetHost) targetPort blockIpv6)
  ProxyM.writeAll request
  let header ← ProxyM.readExact 4
  ProxyM.require (header.headD 0 = 5 ∧ header.getD 1 0 = 0 ∧ header.getD 2 0 = 0)
    ("SOCKS5 connection failed with reply code: " ++ toString (header.getD 1 0).toNat)
  skipBoundAddress (header.getD 3 0)

/-- The tunnel through a chain of proxies. Each is told the next one, and the last one the
target. The error names the proxy at which the tunnel ends. -/
def connectChain (E : DirectoryEnv) (blockIpv6 : Bool) (targetHost : String) (targetPort : UInt16) :
    List ProxyNode → ProxyM (ProxyNode × String) Unit
  | [] => pure ()
  | [node] => EStateM.adaptExcept (node, ·) (socks5ConnectThrough E targetHost targetPort blockIpv6)
  | node :: next :: rest => do
    EStateM.adaptExcept (node, ·) (socks5ConnectThrough E next.host next.port blockIpv6)
    connectChain E blockIpv6 targetHost targetPort (next :: rest)

/-- What a client path sends to others: cells of a session, the RELAY cell for the exit of
a circuit, a command for the tracker, and octets for the proxies. -/
inductive Sent
  | session (cell : SessionCell)
  | relay (payload : Bytes)
  | tracker (command : String)
  | proxy (octets : Bytes)
  deriving DecidableEq, Repr

/-- The target that the receiver of a message reads in it. -/
def Sent.target (E : DirectoryEnv) : Sent → Option (String × UInt16)
  | session cell => (decodeRelayTarget cell.data).toOption
  | relay payload => (decodeRelayTarget payload).toOption
  | tracker _ => none
  | proxy octets =>
    match readTarget E ⟨octets, []⟩ with
    | .ok target _ => some target
    | .error _ _ => none

/-- The errors of `build_telescopic_circuit`. -/
inductive CircuitBuildError
  | negotiation (error : TelescopeError)
  | encodeTarget (error : CircuitError)
  | relayCell (error : String)
  | wrapForward (error : CircuitError)
  | link
  | unwrapBackward (error : CircuitError)
  | response (command : CellCommand)

/-- The texts, up to the error of the layer below. -/
def CircuitBuildError.message : CircuitBuildError → String
  | negotiation e => e.message
  | encodeTarget _ => "Failed to encode RELAY target payload: "
  | relayCell _ => "Failed to build RELAY cell: "
  | wrapForward _ => "Failed to wrap forward relay cell: "
  | link => ""
  | unwrapBackward _ => "Failed to unwrap backward cell from Exit hop: "
  | response command => "Expected RELAY response from exit hop, got " ++ command.debug

structure ClientConfig where
  env : DirectoryEnv
  disableIpv6 : Bool
  paddedSessions : Bool
  enableOnionRouting : Bool
  strictKillswitch : Bool
  trackerUrl : Option String
  trackerIdentityPin : Option Bytes

/-- What happens outside of the gateway while it serves one request. -/
structure ClientNetwork (σ : Type*) where
  /-- The session of the privacy context, from `get_or_start`. -/
  session : Except String Endpoint
  now : ℕ
  /-- Whether the exit answers SessionOpen with SessionOpened. -/
  opened : Bool
  chain : List ProxyNode
  identityKeys : List Bytes
  /-- Whether the link to the first node, or to its tracker, is made. -/
  entryLink : Bool
  trackerAccepts : Bool
  /-- The random circuit id. -/
  drawnId : UInt32
  exchange : σ → Frame → Option (Frame × σ)
  net : σ
  coins : ℕ → ClientEphemeral
  padding : Padding
  proxyAnswers : Bytes

/-- What was sent, the codes of the replies to the client, the nodes given to
`rotate_on_block`, and the reason for which the kill switch was tripped. -/
structure ClientRun where
  sent : List Sent
  replies : List UInt8
  rotated : List String
  tripped : Option String

namespace ClientConfig
variable {σ : Type*} (S : HandshakeScheme) (P : Primitives) (C : ClientConfig)

/-- A run that ends with a reply and has no other effect. -/
def answer (sent : List Sent) (reply : UInt8) : ClientRun := ⟨sent, [reply], [], none⟩

def trip (reason : String) : Option String := if C.strictKillswitch then some reason else none

/-- The path of padded sessions. -/
def servePadded (N : ClientNetwork σ) (r : SocksRequest) : ClientRun :=
  match C.disableIpv6, C.env.parseIp r.host with
  | true, some (.v6 _) => answer [] 1
  | _, _ =>
    match N.session with
    | .error _ => answer [] 1
    | .ok session =>
      match session.request N.now r.host r.port with
      | .error _ => answer [] 1
      | .ok session' =>
        let sent := (session'.controls.drop session.controls.length).map Sent.session
        answer sent (if N.opened then 0 else 1)

def circuitId (drawn : UInt32) : UInt32 :=
  if drawn >>> 24 = 5 ∨ drawn >>> 24 = 0 then drawn ^^^ 0x10000000 else drawn

def buildTelescopicCircuit (N : ClientNetwork σ) (circuitId : UInt32) (r : SocksRequest) :
    Except CircuitBuildError OnionCircuit × List Sent :=
  match negotiateTelescopicHops S P N.exchange circuitId N.net N.chain N.identityKeys N.coins with
  | .error e => (.error (.negotiation e), [])
  | .ok n =>
    match encodeRelayTarget r.host r.port with
    | .error e => (.error (.encodeTarget e), [])
    | .ok payload =>
      match OnionCell.new circuitId 1 .relay 0 payload N.padding with
      | .error e => (.error (.relayCell e), [])
      | .ok relayCell =>
        match n.circuit.wrapForward P relayCell with
        | (.error e, _) => (.error (.wrapForward e), [])
        | (.ok wire, circuit) =>
          match N.exchange n.net wire with
          | none => (.error .link, [.relay payload])
          | some (returned, _) =>
            match circuit.unwrapBackward P returned with
            | (.error e, _) => (.error (.unwrapBackward e), [.relay payload])
            | (.ok (responseHop, response), circuit) =>
              if responseHop ≠ N.chain.length - 1 ∨ response.command ≠ .relay ∨
                  response.payload.take response.length.toNat ≠ utf8 "CONNECTED" then
                (.error (.response response.command), [.relay payload])
              else (.ok circuit, [.relay payload])

/-- The path of one onion circuit per request. -/
def serveOnion (N : ClientNetwork σ) (entry : ProxyNode) (r : SocksRequest) : ClientRun :=
  let failed (sent : List Sent) : ClientRun :=
    ⟨sent, [5], [], C.trip "Onion circuit negotiation failure"⟩
  if utf8 "reverse://" <+: utf8 entry.rawUrl ∨ N.entryLink = false then failed []
  else
    match buildTelescopicCircuit S P N (circuitId N.drawnId) r with
    | (.error _, sent) => failed sent
    | (.ok _, sent) => answer sent 0

/-- The handshakes with the proxies, after what was sent to reach the first one. -/
def throughProxies (N : ClientNetwork σ) (before : List Sent) (r : SocksRequest) : ClientRun :=
  match connectChain C.env C.disableIpv6 r.host r.port N.chain ⟨N.proxyAnswers, []⟩ with
  | .error (node, _) stream =>
    ⟨before ++ stream.sent.map .proxy, [5], [node.rawUrl], C.trip "Tunnel negotiation failure"⟩
  | .ok () stream => answer (before ++ stream.sent.map .proxy) 0

/-- The path of plain SOCKS proxies. A reverse node is reached through its tracker. -/
def servePlain (N : ClientNetwork σ) (entry : ProxyNode) (r : SocksRequest) : ClientRun :=
  if utf8 "reverse://" <+: utf8 entry.rawUrl then
    match C.trackerUrl with
    | none => answer [] 1
    | some _ =>
      let command := "CONNECT_REVERSE " ++ entry.host ++ " " ++ entry.username.getD ""
      if C.trackerIdentityPin = none ∨ N.entryLink = false then ⟨[], [4], [entry.rawUrl], none⟩
      else if N.trackerAccepts = false then ⟨[.tracker command], [4], [entry.rawUrl], none⟩
      else C.throughProxies N [.tracker command] r
  else if N.entryLink = false then
    ⟨[], [4], [entry.rawUrl], C.trip "Entry node connection failure"⟩
  else C.throughProxies N [] r

/-- The work of the gateway for one client connection. -/
def serve (N : ClientNetwork σ) (input : Bytes) : ClientRun :=
  match readSocks5RequestContext C.env C.paddedSessions ⟨input, []⟩ with
  | .error _ _ => ⟨[], [], [], none⟩
  | .ok r _ =>
    if C.paddedSessions = true then C.servePadded N r
    else
      match N.chain with
      | [] => answer [] 1
      | entry :: _ =>
        if C.enableOnionRouting = true then C.serveOnion S P N entry r
        else C.servePlain N entry r

end ClientConfig

/-- An address that was written as text is read back. -/
def DirectoryEnv.ReadsAddresses (E : DirectoryEnv) : Prop :=
  ∀ ip : IpAddr, ip.Sized → E.parseIp (E.ipText ip) = some ip

/-- The text is an IPv6 address. -/
def DirectoryEnv.IsIpv6 (E : DirectoryEnv) (host : String) : Prop :=
  ∃ octets, E.parseIp host = some (.v6 octets)

/-- A request whose target is an IPv6 address, by its address type or as text. -/
def Ipv6Request (E : DirectoryEnv) (contextMode : Bool) (input : Bytes) : Prop :=
  ∃ credentials t context u target v, readMethods contextMode ⟨input, []⟩ = .ok credentials t ∧
    readContext E credentials t = .ok context u ∧ readTarget E u = .ok target v ∧
    (u.incoming.getD 3 0 = 4 ∨ E.IsIpv6 target.1)

/-- The receiver of the message reads no IPv6 address in it. -/
def Sent.KeepsIpv6 (E : DirectoryEnv) (m : Sent) : Prop :=
  ∀ target, m.target E = some target → ¬ E.IsIpv6 target.1

/-- A proxy reads no IPv6 address in these octets. -/
def KeepsIpv6 (E : DirectoryEnv) (octets : Bytes) : Prop :=
  ∀ target s, readTarget E ⟨octets, []⟩ = .ok target s → ¬ E.IsIpv6 target.1

section Frames
variable {E : DirectoryEnv}

/-- A request by address type is read as the text of an IPv6 address. -/
lemma Ipv6Request.read (hE : E.ReadsAddresses) {contextMode : Bool} {input : Bytes}
    (h : Ipv6Request E contextMode input) :
    ∃ r s, readSocks5RequestContext E contextMode ⟨input, []⟩ = .ok r s ∧ E.IsIpv6 r.host := by
  obtain ⟨credentials, t, context, u, target, v, hmethods, hcontext, htarget, hliteral⟩ := h
  refine ⟨⟨target.1, target.2, context⟩, v, ?_, ?_⟩
  · exact SocksM.bind_eq_ok.mpr ⟨_, _, hmethods, SocksM.bind_eq_ok.mpr ⟨_, _, hcontext,
      SocksM.bind_eq_ok.mpr ⟨_, _, htarget, rfl⟩⟩⟩
  · rcases hliteral with htype | htext
    · obtain ⟨header, w, w', hlen, hin, hhost⟩ := readTarget_eq_ok htarget
      have hatyp : header.getD 3 0 = 4 := by
        rw [hin, List.getD_eq_getElem?_getD, List.getElem?_append_left (by omega)] at htype
        rw [List.getD_eq_getElem?_getD, htype]
      rw [hatyp] at hhost
      obtain ⟨address, hsize, -, htext⟩ := readAddress_eq_ok hhost
      exact ⟨address, by rw [htext]; exact hE (.v6 address) hsize⟩
    · exact htext

lemma keepsIpv6_greeting : KeepsIpv6 E [5, 1, 0] := by
  intro target s hread
  obtain ⟨header, t, -, hlen, hin, -⟩ := readTarget_eq_ok hread
  have hshort := congrArg List.length hin
  rw [List.length_append, hlen] at hshort
  simp at hshort
  omega

/-- The frames that `block_ipv6` lets pass. -/
lemma keepsIpv6_frame (hE : E.ReadsAddresses) {host : String} {port : UInt16} {frame : Bytes}
    (h : buildSocks5hConnectFrame (targetAddress E host) port true = .ok frame) :
    KeepsIpv6 E frame := by
  intro target s hread
  obtain ⟨header, t, t', hlen, hin, hhost⟩ := readTarget_eq_ok hread
  unfold buildSocks5hConnectFrame targetAddress at h
  by_cases hport : port = 0
  · rw [if_pos hport] at h
    cases h
  rw [if_neg hport] at h
  cases hparse : E.parseIp host with
  | none =>
    simp only [hparse] at h
    by_cases hvalid : validateDomain (utf8 host) = false
    · rw [if_pos hvalid] at h
      cases h
    rw [if_neg hvalid] at h
    cases h
    have hshort : (utf8 host).length ≤ 255 := by
      simp only [validateDomain, Bool.not_eq_false, Bool.and_eq_true, decide_eq_true_eq] at hvalid
      exact hvalid.1.2
    obtain ⟨rfl, htail⟩ := List.append_inj hin (by rw [hlen]; rfl)
    obtain ⟨length, domain, hdomain, hsize, htext⟩ := readDomain_eq_ok hhost
    rw [← htail] at hdomain
    obtain ⟨rfl, hoctets⟩ := List.cons.inj hdomain
    have hname : utf8 host = domain := by
      refine (List.append_inj hoctets ?_).1
      rw [hsize, UInt8.toNat_ofNat', Nat.mod_eq_of_lt (by omega)]
    rw [← hname, fromUTF8_utf8] at htext
    rintro ⟨octets, hv6⟩
    rw [← Option.some.inj htext, hparse] at hv6
    cases hv6
  | some ip =>
    cases ip with
    | v4 =>
      simp only [hparse] at h
      cases h
      obtain ⟨rfl, htail⟩ := List.append_inj hin (by rw [hlen]; rfl)
      obtain ⟨address, hsize, haddress, htext⟩ := readAddress_eq_ok hhost
      rintro ⟨octets', hv6⟩
      rw [htext, hE (.v4 address) hsize] at hv6
      cases hv6
    | v6 =>
      simp only [hparse] at h
      cases h

end Frames

section Tunnel
variable {E : DirectoryEnv} {Q : Bytes → Prop}

lemma writes_readExact (size : ℕ) : Writes ProxyStream.sent Q (ProxyM.readExact size) := by
  refine .of_log_eq fun s => ?_
  unfold stateAfter ProxyM.readExact
  split_ifs <;> rfl

lemma writes_writeAll {octets : Bytes} (h : Q octets) :
    Writes ProxyStream.sent Q (ProxyM.writeAll octets) :=
  .message h fun _ => rfl

lemma writes_require (c : Prop) [Decidable c] (e : String) :
    Writes ProxyStream.sent Q (ProxyM.require c e) := by
  unfold ProxyM.require
  split_ifs
  · exact .pure ()
  · exact .throw e

lemma writes_skipBoundAddress (atyp : UInt8) :
    Writes ProxyStream.sent Q (skipBoundAddress atyp) := by
  unfold skipBoundAddress
  split_ifs
  · exact .bind (writes_readExact _) fun _ _ _ _ => .pure ()
  · exact .bind (writes_readExact _) fun _ _ _ _ => .pure ()
  · refine .bind (writes_readExact _) fun _ _ _ _ => .bind (writes_require _ _) fun _ _ _ _ => ?_
    exact .bind (writes_readExact _) fun _ _ _ _ => .pure ()
  · exact .throw _

/-- A handshake writes the greeting, and a frame only if the builder made one. -/
lemma writes_socks5ConnectThrough (hE : E.ReadsAddresses) (host : String) (port : UInt16) :
    Writes ProxyStream.sent (KeepsIpv6 E) (socks5ConnectThrough E host port true) := by
  refine .bind (writes_writeAll keepsIpv6_greeting) fun _ _ _ _ => ?_
  refine .bind (writes_readExact 2) fun auth _ _ _ => .bind (writes_require _ _) fun _ _ _ _ => ?_
  cases hframe : buildSocks5hConnectFrame (targetAddress E host) port true with
  | error e => exact .bind (.throw e) fun _ _ _ hrun => by cases hrun
  | ok frame =>
    refine .bind (.pure frame) fun request _ _ hrun => ?_
    cases hrun
    refine .bind (writes_writeAll (keepsIpv6_frame hE hframe)) fun _ _ _ _ => ?_
    refine .bind (writes_readExact 4) fun header _ _ _ => .bind (writes_require _ _) fun _ _ _ _ => ?_
    exact writes_skipBoundAddress _

/-- By induction on the chain: no handshake on the way writes an IPv6 address. -/
lemma writes_connectChain (hE : E.ReadsAddresses) (host : String) (port : UInt16)
    (chain : List ProxyNode) :
    Writes ProxyStream.sent (KeepsIpv6 E) (connectChain E true host port chain) := by
  induction chain with
  | nil => exact .pure ()
  | cons node rest ih =>
    cases rest with
    | nil => exact (writes_socks5ConnectThrough hE host port).adaptExcept _
    | cons next =>
      exact .bind ((writes_socks5ConnectThrough hE next.host next.port).adaptExcept _)
        fun _ _ _ _ => ih

end Tunnel

namespace ClientConfig
variable {σ : Type*} {S : HandshakeScheme} {P : Primitives} {C : ClientConfig}
  {N : ClientNetwork σ} {r : SocksRequest} {m : Sent}

lemma keepsIpv6_throughProxies (hE : C.env.ReadsAddresses) (hipv6 : C.disableIpv6 = true)
    {before : List Sent} (hbefore : ∀ m ∈ before, m.KeepsIpv6 C.env)
    (hm : m ∈ (C.throughProxies N before r).sent) : m.KeepsIpv6 C.env := by
  obtain ⟨new, hnew, hkeeps⟩ :=
    writes_connectChain hE r.host r.port N.chain ⟨N.proxyAnswers, []⟩
  have hsent : (C.throughProxies N before r).sent = before ++ new.map .proxy := by
    unfold throughProxies
    unfold stateAfter at hnew
    rw [hipv6]
    cases hrun : connectChain C.env true r.host r.port N.chain ⟨N.proxyAnswers, []⟩ with
    | ok =>
      rw [hrun] at hnew
      simp only [answer, hnew, List.nil_append]
    | error =>
      rw [hrun] at hnew
      simp only [hnew, List.nil_append]
  rw [hsent, List.mem_append, List.mem_map] at hm
  rcases hm with hm | ⟨octets, hoctets, rfl⟩
  · exact hbefore m hm
  · intro target htarget
    simp only [Sent.target] at htarget
    split at htarget
    · rename_i read stream hread
      cases htarget
      exact hkeeps octets hoctets _ _ hread
    · cases htarget

lemma keepsIpv6_servePlain (hE : C.env.ReadsAddresses) (hipv6 : C.disableIpv6 = true)
    {entry : ProxyNode} (hm : m ∈ (C.servePlain N entry r).sent) : m.KeepsIpv6 C.env := by
  have htracker : ∀ command : String, (Sent.tracker command).KeepsIpv6 C.env := by
    intro command target htarget
    cases htarget
  unfold servePlain at hm
  by_cases hreverse : utf8 "reverse://" <+: utf8 entry.rawUrl
  · rw [if_pos hreverse] at hm
    cases hurl : C.trackerUrl with
    | none =>
      rw [hurl] at hm
      cases hm
    | some =>
      simp only [hurl] at hm
      split_ifs at hm with hlink haccepts
      · cases hm
      · rw [List.mem_singleton] at hm
        exact hm ▸ htracker _
      · refine keepsIpv6_throughProxies hE hipv6 (fun m hmem => ?_) hm
        exact List.mem_singleton.mp hmem ▸ htracker _
  · rw [if_neg hreverse] at hm
    split_ifs at hm with hlink
    · cases hm
    · exact keepsIpv6_throughProxies hE hipv6 (fun m hmem => absurd hmem List.not_mem_nil) hm

lemma sent_servePadded (hipv6 : C.disableIpv6 = true) (hhost : C.env.IsIpv6 r.host) :
    (C.servePadded N r).sent = [] := by
  obtain ⟨octets, hparse⟩ := hhost
  unfold servePadded
  rw [hipv6, hparse]
  rfl

end ClientConfig

namespace ClientConfig
variable {σ : Type*} {S : HandshakeScheme} {P : Primitives} {C : ClientConfig}
  {N : ClientNetwork σ} {r : SocksRequest}

/-- Once the hops are there, the RELAY cell with the target is written. -/
lemma sent_buildTelescopicCircuit {circuitId : UInt32} {n : Negotiation σ} {hops : List HopKeys}
    {last : HopKeys} {payload : Bytes}
    (hn : negotiateTelescopicHops S P N.exchange circuitId N.net N.chain N.identityKeys N.coins =
      .ok n) (hid : n.circuit.circuitId = circuitId) (hhops : n.circuit.hops = hops ++ [last])
    (hseq : n.circuit.sequenceNo.toNat + 1 < 2 ^ 32)
    (hpayload : encodeRelayTarget r.host r.port = .ok payload) :
    (buildTelescopicCircuit S P N circuitId r).2 = [.relay payload] := by
  obtain ⟨hshort, hoctets⟩ := encodeRelayTarget_eq_ok hpayload
  have hsize : payload.length ≤ PAYLOAD_SIZE := by
    have hlength : payload.length = (utf8 r.host).length + 3 := by
      rw [hoctets]
      simp
    have hmax : 258 ≤ PAYLOAD_SIZE := by decide
    omega
  obtain ⟨cell, hcell, hcellId, -⟩ := OnionCell.new_eq_ok circuitId 1 .relay 0 N.padding hsize
  obtain ⟨wire, next, hwrap, -⟩ :=
    wrapForward_eq P n.circuit cell hops last hhops (hcellId.trans hid.symm) hseq
  unfold buildTelescopicCircuit
  simp only [hn, hpayload, hcell, hwrap]
  split
  · rfl
  · split
    · rfl
    · split_ifs <;> rfl

/-- The onion path does not look at `disable_ipv6`: it tells the exit every target. -/
theorem serve_onion_sends_target {input : Bytes} {s : SocksStream} {entry : ProxyNode}
    {rest : List ProxyNode} {n : Negotiation σ} {hops : List HopKeys} {last : HopKeys}
    (hpadded : C.paddedSessions = false) (honion : C.enableOnionRouting = true)
    (hread : readSocks5RequestContext C.env false ⟨input, []⟩ = .ok r s)
    (hhost : (utf8 r.host).length ≤ 255) (hchain : N.chain = entry :: rest)
    (hentry : ¬ utf8 "reverse://" <+: utf8 entry.rawUrl) (hlink : N.entryLink = true)
    (hn : negotiateTelescopicHops S P N.exchange (circuitId N.drawnId) N.net N.chain
      N.identityKeys N.coins = .ok n)
    (hid : n.circuit.circuitId = circuitId N.drawnId) (hhops : n.circuit.hops = hops ++ [last])
    (hseq : n.circuit.sequenceNo.toNat + 1 < 2 ^ 32) :
    ∃ m ∈ (C.serve S P N input).sent, m.target C.env = some (r.host, r.port) := by
  obtain ⟨payload, hpayload⟩ : ∃ payload, encodeRelayTarget r.host r.port = .ok payload := by
    unfold encodeRelayTarget
    exact ⟨_, if_neg (Nat.not_lt.mpr hhost)⟩
  have hsent := sent_buildTelescopicCircuit hn hid hhops hseq hpayload
  have hserve : (C.serve S P N input).sent = [.relay payload] := by
    unfold serve
    rw [hpadded, hread]
    simp only [Bool.false_eq_true, if_false, hchain, honion, if_true]
    unfold serveOnion
    rw [if_neg (by simp [hentry, hlink])]
    dsimp only
    split
    · rename_i e sent hbuild
      rw [hbuild] at hsent
      exact hsent
    · rename_i circuit sent hbuild
      rw [hbuild] at hsent
      exact hsent
  refine ⟨.relay payload, by rw [hserve]; exact List.mem_singleton_self _, ?_⟩
  simp only [Sent.target, decodeRelayTarget_of_encode hpayload, Except.toOption]

end ClientConfig

section Sample

/-- Each octet of an address is one character, after the family. -/
def plainText (ip : IpAddr) : String :=
  match ip with
  | .v4 octets => String.ofList ('4' :: octets.map fun b => Char.ofNat b.toNat)
  | .v6 octets => String.ofList ('6' :: octets.map fun b => Char.ofNat b.toNat)

def readPlainText (text : String) : Option IpAddr :=
  match text.toList with
  | [] => none
  | family :: rest =>
    let octets : Bytes := rest.map fun c => UInt8.ofNat c.toNat
    if family = '4' ∧ octets.length = 4 then some (.v4 octets)
    else if family = '6' ∧ octets.length = 16 then some (.v6 octets)
    else none

def plainTextEnv : DirectoryEnv := ⟨sampleScheme, readPlainText, plainText⟩

lemma map_ofNat_toNat (octets : Bytes) :
    (octets.map fun b => Char.ofNat b.toNat).map (fun c => UInt8.ofNat c.toNat) = octets := by
  have hchar : ∀ n < 256, (Char.ofNat n).toNat = n := by decide +kernel
  rw [List.map_map]
  refine (List.map_congr_left fun b _ => ?_).trans (List.map_id octets)
  rw [Function.comp_apply, hchar _ b.toNat_lt, UInt8.ofNat_toNat]
  rfl

lemma plainTextEnv_readsAddresses : plainTextEnv.ReadsAddresses := by
  rintro (octets | octets) hsize
  · simp only [plainTextEnv, plainText, readPlainText, String.toList_ofList, map_ofNat_toNat]
    exact if_pos ⟨trivial, hsize⟩
  · simp only [plainTextEnv, plainText, readPlainText, String.toList_ofList, map_ofNat_toNat]
    rw [if_neg fun h => absurd h.1 (by decide)]
    exact if_pos ⟨trivial, hsize⟩

/-- CONNECT to port 443 of 2001:db8::1, without credentials. -/
def ipv6Input : Bytes :=
  [5, 1, 0, 5, 1, 0, 4, 0x20, 0x01, 0x0d, 0xb8, 0, 0, 0, 0, 0, 0, 0, 0, 0, 0, 0, 1, 1, 187]

/-- Three honest relays, which as proxies accept the first two handshakes and the third
greeting. -/
def sampleNetwork : ClientNetwork (RelayPath sampleHandshake) where
  session := .error ""
  now := 0
  opened := false
  chain := sampleChain
  identityKeys := sampleRoute.map fun r => r.key.verifyingKey
  entryLink := true
  trackerAccepts := false
  drawnId := 7
  exchange := pathExchange identityPrimitives sampleDial (sampleHop 1)
  net := []
  coins := sampleCoins
  padding := samplePadding
  proxyAnswers := [5, 0, 5, 0, 0, 1, 0, 0, 0, 0, 0, 0, 5, 0, 5, 0, 0, 1, 0, 0, 0, 0, 0, 0, 5, 0]

def onionClient : ClientConfig := ⟨plainTextEnv, true, false, true, true, none, none⟩

def plainClient : ClientConfig := ⟨plainTextEnv, true, false, false, true, none, none⟩

def ipv6Target : Bytes := [0x20, 0x01, 0x0d, 0xb8, 0, 0, 0, 0, 0, 0, 0, 0, 0, 0, 0, 1]

lemma read_ipv6Input : readSocks5RequestContext plainTextEnv false ⟨ipv6Input, []⟩ =
    .ok ⟨plainText (.v6 ipv6Target), 443, none⟩ ⟨[], [5, 0]⟩ := rfl

lemma ipv6Request_ipv6Input : Ipv6Request plainTextEnv false ipv6Input :=
  ⟨false, ⟨ipv6Input.drop 3, []⟩, none, ⟨ipv6Input.drop 3, [5, 0]⟩,
    (plainText (.v6 ipv6Target), 443), ⟨[], [5, 0]⟩, rfl, rfl, rfl, .inl rfl⟩

end Sample

end AnonGuard
