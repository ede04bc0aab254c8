import AnonGuard.PoolNode

/-!
# The exit policy of a relay

`resolve_and_connect` refuses blocked ports and internal names, resolves the host
once, checks every address of the answer and then tries the addresses in their
order. A call waits for the resolver and for each connection attempt; it is a
state machine here, and what it waits for is an input.
-/
namespace AnonGuard

structure ExitPolicy where
  allowPrivateNetworks : Bool
  blockedPorts : List UInt16
  deriving DecidableEq, Repr

/-- The special-purpose networks of IPv4. -/
def restrictedV4 (octets : Bytes) : Bool :=
  let a := octets.getD 0 0
  let b := octets.getD 1 0
  let c := octets.getD 2 0
  let d := octets.getD 3 0
  -- loopback, unspecified, link-local
  a == 127 || a == 0 || (a == 169 && b == 254) ||
  -- private networks
  a == 10 || (a == 172 && 16 ≤ b && b ≤ 31) || (a == 192 && b == 168) ||
  -- multicast, broadcast, carrier-grade NAT
  (224 ≤ a && a ≤ 239) || (a == 255 && b == 255 && c == 255 && d == 255) ||
  (a == 100 && 64 ≤ b && b ≤ 127) ||
  -- documentation, future use, protocol assignments, benchmarking
  (a == 192 && b == 0 && c == 2) || (a == 198 && b == 51 && c == 100) ||
  (a == 203 && b == 0 && c == 113) || a &&& 0xf0 == 240 || (a == 192 && b == 0 && c == 0) ||
  (a == 198 && b &&& 0xfe == 18)

/-- A 16-bit segment of an IPv6 address. -/
def segment (octets : Bytes) (i : ℕ) : UInt16 := u16OfBe (slice (2 * i) (2 * i + 2) octets)

/-- `Ipv6Addr::to_ipv4`: the IPv4 address of a mapped or compatible one. -/
def toIpv4 (octets : Bytes) : Option Bytes :=
  if octets.take 10 = List.replicate 10 0 ∧ (segment octets 5 = 0 ∨ segment octets 5 = 0xffff) then
    some (slice 12 16 octets)
  else none

/-- The IPv6 part of `is_ip_permitted`. -/
def permittedV6 (octets : Bytes) : Bool :=
  let s := segment octets
  if octets = List.replicate 15 0 ++ [1] ∨ octets = List.replicate 16 0 then false
  -- multicast, link-local, unique local
  else if s 0 &&& 0xff00 = 0xff00 ∨ s 0 &&& 0xffc0 = 0xfe80 ∨ s 0 &&& 0xfe00 = 0xfc00 then false
  else
    match toIpv4 octets with
    | some embedded => !restrictedV4 embedded
    | none =>
      -- the two NAT64 networks
      if s 0 = 0x64 ∧ s 1 = 0xff9b ∧ s 2 = 0 ∧ s 3 = 0 ∧ s 4 = 0 ∧ s 5 = 0 then
        !restrictedV4 (slice 12 16 octets)
      else if s 0 = 0x64 ∧ s 1 = 0xff9b ∧ s 2 = 1 then false
      -- 6to4
      else if s 0 = 0x2002 then !restrictedV4 (slice 2 6 octets)
      -- Teredo, documentation, ORCHIDv2, discard-only
      else if s 0 = 0x2001 ∧ s 1 = 0 then false
      else if s 0 = 0x2001 ∧ s 1 = 0xdb8 then false
      else if s 0 = 0x2001 ∧ s 1 &&& 0xfff0 = 0x20 then false
      else if s 0 = 0x100 ∧ s 1 = 0 ∧ s 2 = 0 ∧ s 3 = 0 then false
      else true

/-- The errors of `resolve_and_connect`: its own, and those of the resolver and the socket. -/
inductive ConnectError
  | restrictedTarget (host : String) (port : UInt16)
  | resolutionTimedOut
  | restrictedAddress (ip : IpAddr) (host : String)
  | noAddresses
  | deadlineExceeded
  | resolver (error : String)
  | socket (error : String)
  deriving DecidableEq, Repr

def ConnectError.message (S : DirectoryEnv) : ConnectError → String
  | restrictedTarget host port => "Exit relay policy blocked connection to restricted target " ++
      host ++ ":" ++ toString port.toNat ++ " (anti-SSRF)"
  | resolutionTimedOut => "Exit DNS resolution timed out"
  | restrictedAddress ip host => "Exit relay policy blocked resolved IP " ++ S.ipText ip ++
      " for target " ++ host ++ " (anti-SSRF / anti-DNS rebinding)"
  | noAddresses => "No destination addresses"
  | deadlineExceeded => "Exit connection deadline exceeded"
  | resolver error | socket error => error

/-- Where a call waits: for the resolver, or for the attempt to reach `addr`, with the
addresses that it tries next. -/
inductive ConnectStage
  | resolving
  | trying (answer : List IpAddr) (addr : IpAddr) (rest : List IpAddr)
  deriving DecidableEq, Repr

/-- A call of `resolve_and_connect`. -/
structure ConnectCall where
  host : String
  port : UInt16
  stage : ConnectStage
  deriving DecidableEq, Repr

/-- What the call waits for. -/
inductive ConnectEvent
  | resolved (answer : Except String (List IpAddr))
  | connected
  | failed (error : String)
  | deadline
  deriving Repr

namespace ExitPolicy

def default : ExitPolicy where
  allowPrivateNetworks := false
  blockedPorts :=
    [25, 135, 137, 138, 139, 445, 22, 2375, 2376, 3306, 5432, 6379, 9200, 11211, 27017]

variable (S : DirectoryEnv) (p : ExitPolicy)

def isIpPermitted : IpAddr → Bool
  | .v4 octets => p.allowPrivateNetworks || !restrictedV4 octets
  | .v6 octets => p.allowPrivateNetworks || permittedV6 octets

/-- The names are ASCII, and no other character has a lower case in them, so the lower
case of ASCII decides. -/
def isPermitted (host : String) (port : UInt16) : Bool :=
  if port ∈ p.blockedPorts then false
  else
    let lower := (trimChars isWhiteSpace isWhiteSpace host).toLower
    let under (name : String) : Bool := decide (utf8 name <:+ utf8 lower)
    if under ".onion" then false
    else if p.allowPrivateNetworks then true
    else if lower = "localhost" ∨ under ".localhost" = true ∨ under ".local" = true ∨
        under ".internal" = true ∨ lower = "metadata.google.internal" ∨ lower = "instance-data" then
      false
    else
      match S.parseIp host with
      | some ip => p.isIpPermitted ip
      | none => true

def validateResolvedIps (host : String) : List IpAddr → Except ConnectError Unit
  | [] => .ok ()
  | ip :: ips =>
    if p.isIpPermitted ip = false then .error (.restrictedAddress ip host)
    else validateResolvedIps host ips

/-- The start of `resolve_and_connect`. -/
def resolveAndConnect (host : String) (port : UInt16) : Except ConnectError ConnectCall :=
  if p.isPermitted S host port = false then .error (.restrictedTarget host port)
  else .ok ⟨host, port, .resolving⟩

/-- `connect_resolved` up to its first attempt. -/
def connectResolved (call : ConnectCall) (addrs : List IpAddr) : Except ConnectError ConnectCall :=
  match p.validateResolvedIps call.host addrs with
  | .error e => .error e
  | .ok () =>
    match addrs with
    | [] => .error .noAddresses
    | addr :: rest => .ok { call with stage := .trying addrs addr rest }

end ExitPolicy

/-- How a call goes on: it waits again, it fails, or it has a connection. -/
inductive ConnectProgress
  | waiting (call : ConnectCall)
  | failed (error : ConnectError)
  | connected
  deriving DecidableEq, Repr

def ConnectProgress.ofExcept : Except ConnectError ConnectCall → ConnectProgress
  | .error e => .failed e
  | .ok call => .waiting call

/-- A step of a call; `none` if the call does not wait for this. -/
def ConnectCall.step (p : ExitPolicy) (call : ConnectCall) : ConnectEvent → Option ConnectProgress
  | .resolved answer =>
    match call.stage, answer with
    | .resolving, .error e => some (.failed (.resolver e))
    | .resolving, .ok addrs => some (.ofExcept (p.connectResolved call addrs))
    | .trying .., _ => none
  | .connected =>
    match call.stage with
    | .resolving => none
    | .trying .. => some .connected
  | .failed error =>
    match call.stage with
    | .resolving => none
    | .trying _ _ [] => some (.failed (.socket error))
    | .trying answer _ (addr :: rest) =>
      some (.waiting { call with stage := .trying answer addr rest })
  | .deadline =>
    match call.stage with
    | .resolving => some (.failed .resolutionTimedOut)
    | .trying .. => some (.failed .deadlineExceeded)

/-- The address that the call is trying to reach, with the answer it comes from. -/
def ConnectCall.attempt (call : ConnectCall) : Option (IpAddr × List IpAddr) :=
  match call.stage with
  | .resolving => none
  | .trying answer addr _ => some (addr, answer)

section Checked
variable {S : DirectoryEnv} {p : ExitPolicy} {call call' : ConnectCall} {host : String}
  {port : UInt16}

lemma ExitPolicy.not_blocked_of_isPermitted (h : p.isPermitted S host port = true) :
    port ∉ p.blockedPorts := by
  intro hblocked
  simp [isPermitted, hblocked] at h

lemma ExitPolicy.validateResolvedIps_eq_ok {ips : List IpAddr}
    (h : p.validateResolvedIps host ips = .ok ()) : ∀ ip ∈ ips, p.isIpPermitted ip = true := by
  induction ips with
  | nil => simp
  | cons ip ips ih =>
    unfold validateResolvedIps at h
    split_ifs at h with hip
    intro ip' hmem
    obtain rfl | hmem := List.mem_cons.mp hmem
    · simpa using hip
    · exact ih h ip' hmem

/-- What a waiting call has passed. -/
structure ConnectCall.Checked (p : ExitPolicy) (call : ConnectCall) : Prop where
  port : call.port ∉ p.blockedPorts
  answer : ∀ answer addr rest, call.stage = .trying answer addr rest →
    (∀ ip ∈ answer, p.isIpPermitted ip = true) ∧ addr ∈ answer ∧ rest ⊆ answer

lemma ExitPolicy.checked_of_resolveAndConnect
    (h : p.resolveAndConnect S host port = .ok call) : call.Checked p ∧
      call = ⟨host, port, .resolving⟩ := by
  unfold resolveAndConnect at h
  split_ifs at h with hpermitted
  cases h
  have hallowed : p.isPermitted S host port = true := by simpa using hpermitted
  refine ⟨⟨not_blocked_of_isPermitted hallowed, ?_⟩, rfl⟩
  intro answer addr rest hstage
  cases hstage

lemma ExitPolicy.checked_of_connectResolved (hcall : call.Checked p) {addrs : List IpAddr}
    (h : p.connectResolved call addrs = .ok call') :
    call'.Checked p ∧ call'.host = call.host ∧ call'.port = call.port := by
  unfold connectResolved at h
  cases hvalid : p.validateResolvedIps call.host addrs with
  | error => simp [hvalid] at h
  | ok =>
    simp only [hvalid] at h
    cases addrs with
    | nil => cases h
    | cons =>
      cases h
      refine ⟨⟨hcall.port, ?_⟩, rfl, rfl⟩
      intro answer addr' rest' hstage
      cases hstage
      exact ⟨validateResolvedIps_eq_ok hvalid, List.mem_cons_self .., List.subset_cons_self ..⟩

/-- Whatever a call waits for next, it has passed the checks. -/
theorem ConnectCall.Checked.step (hcall : call.Checked p) {event : ConnectEvent}
    (h : call.step p event = some (.waiting call')) :
    call'.Checked p ∧ call'.host = call.host ∧ call'.port = call.port := by
  unfold ConnectCall.step at h
  cases event with
  | resolved result =>
    cases hstage : call.stage with
    | trying => simp [hstage] at h
    | resolving =>
      cases result with
      | error => simp [hstage] at h
      | ok addrs =>
        simp only [hstage, Option.some.injEq] at h
        cases hconnect : p.connectResolved call addrs with
        | error => simp [hconnect, ConnectProgress.ofExcept] at h
        | ok =>
          simp only [hconnect, ConnectProgress.ofExcept, ConnectProgress.waiting.injEq] at h
          exact h ▸ ExitPolicy.checked_of_connectResolved hcall hconnect
  | connected | deadline =>
    cases hstage : call.stage with
    | resolving | trying => simp [hstage] at h
  | failed =>
    cases hstage : call.stage with
    | resolving => simp [hstage] at h
    | trying answer addr rest =>
      cases rest with
      | nil => simp [hstage] at h
      | cons next rest =>
        simp only [hstage, Option.some.injEq, ConnectProgress.waiting.injEq] at h
        obtain ⟨hpermitted, -, hrest⟩ := hcall.answer answer addr (next :: rest) hstage
        subst h
        refine ⟨⟨hcall.port, ?_⟩, rfl, rfl⟩
        intro answer' addr' rest' hstage'
        cases hstage'
        exact ⟨hpermitted, hrest (List.mem_cons_self ..),
          fun ip hip => hrest (List.mem_cons_of_mem _ hip)⟩

end Checked

end AnonGuard
