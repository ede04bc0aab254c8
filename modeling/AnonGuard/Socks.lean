import AnonGuard.Consensus

/-!
# SOCKS requests

The gateway reads a SOCKS5 request octet by octet. In context mode a client may name a
privacy context by a user name and a password; their hash is the label of the context.
The length octets in front of both make the label tell where one ends.
-/
namespace AnonGuard

/-- What a client still sends, and what has been written to it. -/
structure SocksStream where
  incoming : Bytes
  replies : Bytes

abbrev SocksM := EStateM String SocksStream

namespace SocksM
variable {α β : Type} {s s' : SocksStream}

lemma bind_eq_ok {x : SocksM α} {f : α → SocksM β} {b : β} :
    (x >>= f) s = .ok b s' ↔ ∃ a t, x s = .ok a t ∧ f a t = .ok b s' := by
  show EStateM.bind x f s = _ ↔ _
  unfold EStateM.bind
  cases x s with
  | ok | error => simp

lemma pure_eq_ok {a b : α} : (pure a : SocksM α) s = .ok b s' ↔ a = b ∧ s = s' := by
  show EStateM.Result.ok a s = _ ↔ _
  simp

/-- Go on only if the condition holds. -/
def require (c : Prop) [Decidable c] (e : String) : SocksM Unit := if c then pure () else throw e

lemma require_eq_ok {c : Prop} [Decidable c] {e : String} {u : Unit}
    (h : require c e s = .ok u s') : c ∧ s = s' := by
  unfold require at h
  split_ifs at h with hc
  · exact ⟨hc, (pure_eq_ok.mp h).2⟩
  · cases h

end SocksM

open SocksM (require bind_eq_ok pure_eq_ok require_eq_ok)

/-- `read_exact` into a buffer of this size. -/
def readExact (size : ℕ) : SocksM Bytes := fun s =>
  if s.incoming.length < size then .error "early eof" { s with incoming := [] }
  else .ok (s.incoming.take size) { s with incoming := s.incoming.drop size }

def writeAll (octets : Bytes) : SocksM Unit := fun s =>
  .ok () { s with replies := s.replies ++ octets }

/-- `read_u8`. -/
def readU8 : SocksM UInt8 := do
  let octets ← readExact 1
  return octets.headD 0

def validateDomain (domain : Bytes) : Bool :=
  domain ≠ [] && domain.length ≤ 255 && domain.all fun b => 32 < b && b < 127

/-- The octets that the label of a privacy context is the hash of. -/
def contextLabel (username password : Bytes) : Bytes :=
  utf8 "AnonGuard-local-context-v1" ++ [UInt8.ofNat username.length] ++ username ++
    [UInt8.ofNat password.length] ++ password

/-- The choice of a method: whether the client is to present credentials. -/
def readMethods (contextMode : Bool) : SocksM Bool := do
  let request ← readExact 2
  require (request.headD 0 = 5) "Not SOCKS5"
  let methods ← readExact (request.getD 1 0).toNat
  if 0 ∈ methods ∨ (contextMode = true ∧ 2 ∈ methods) then
    return contextMode && methods.contains 2
  else do
    writeAll [5, 0xff]
    throw "No supported authentication method"

/-- User name and password, each after its length. -/
def readCredentials : SocksM (Bytes × Bytes) := do
  writeAll [5, 2]
  let version ← readU8
  let length ← readU8
  require (version = 1 ∧ length ≠ 0) "Invalid privacy context framing"
  let username ← readExact length.toNat
  let length ← readU8
  require (length ≠ 0) "Empty privacy context password"
  let password ← readExact length.toNat
  writeAll [1, 0]
  return (username, password)

def readHost (E : DirectoryEnv) (atyp : UInt8) : SocksM String :=
  if atyp = 1 then do
    let address ← readExact 4
    return E.ipText (.v4 address)
  else if atyp = 4 then do
    let address ← readExact 16
    return E.ipText (.v6 address)
  else if atyp = 3 then do
    let length ← readU8
    let domain ← readExact length.toNat
    match String.fromUTF8? ⟨domain.toArray⟩ with
    | none => throw "Invalid domain encoding"
    | some host => do
      require (validateDomain domain = true) "Invalid SOCKS5 domain"
      return host
  else throw "Unknown ATYP"

def readTarget (E : DirectoryEnv) : SocksM (String × UInt16) := do
  let header ← readExact 4
  require (header.headD 0 = 5 ∧ header.getD 1 0 = 1 ∧ header.getD 2 0 = 0) "Only CONNECT supported"
  let host ← readHost E (header.getD 3 0)
  let octets ← readExact 2
  require (u16OfBe octets ≠ 0) "Zero destination port"
  return (host, u16OfBe octets)

structure SocksRequest where
  host : String
  port : UInt16
  context : Option Bytes
  deriving DecidableEq

/-- The label of the privacy context, if the client is to present one. -/
def readContext (E : DirectoryEnv) (credentials : Bool) : SocksM (Option Bytes) :=
  if credentials = true then do
    let pair ← readCredentials
    return some (E.sha256 (contextLabel pair.1 pair.2))
  else do
    writeAll [5, 0]
    return none

def readSocks5RequestContext (E : DirectoryEnv) (contextMode : Bool) : SocksM SocksRequest := do
  let credentials ← readMethods contextMode
  let context ← readContext E credentials
  let target ← readTarget E
  return ⟨target.1, target.2, context⟩

/-- The methods that a client offers. -/
def offeredMethods (input : Bytes) : Bytes := (input.drop 2).take (input.getD 1 0).toNat

/-- The user name and the password in what a client sends, by the layout of the messages:
the offered methods, then a version octet, and both strings after their lengths. -/
def presented (input : Bytes) : Option (Bytes × Bytes) :=
  if 2 ∈ offeredMethods input then
    let rest := input.drop (2 + (input.getD 1 0).toNat)
    let username := (rest.drop 2).take (rest.getD 1 0).toNat
    let rest := rest.drop (2 + (rest.getD 1 0).toNat)
    some (username, (rest.drop 1).take (rest.getD 0 0).toNat)
  else none

section Reading
variable {s s' : SocksStream} {E : DirectoryEnv}

lemma readExact_eq_ok {size : ℕ} {octets : Bytes} (h : readExact size s = .ok octets s') :
    octets.length = size ∧ s.incoming = octets ++ s'.incoming := by
  unfold readExact at h
  split_ifs at h with hlen
  cases h
  exact ⟨by simp; omega, (List.take_append_drop _ _).symm⟩

lemma readU8_eq_ok {octet : UInt8} (h : readU8 s = .ok octet s') :
    s.incoming = octet :: s'.incoming := by
  unfold readU8 at h
  obtain ⟨octets, t, hread, hpure⟩ := bind_eq_ok.mp h
  obtain ⟨hhead, rfl⟩ := pure_eq_ok.mp hpure
  obtain ⟨hlen, hin⟩ := readExact_eq_ok hread
  obtain ⟨a, rfl⟩ := List.length_eq_one_iff.mp hlen
  rw [hin, ← hhead]
  rfl

lemma writeAll_eq_ok {octets : Bytes} {u : Unit} (h : writeAll octets s = .ok u s') :
    s'.incoming = s.incoming := by
  cases h
  rfl

lemma readMethods_eq_ok {contextMode credentials : Bool}
    (h : readMethods contextMode s = .ok credentials s') :
    ∃ (count : UInt8) (methods : Bytes), s.incoming = [5, count] ++ methods ++ s'.incoming ∧
      methods.length = count.toNat ∧ credentials = (contextMode && methods.contains 2) := by
  unfold readMethods at h
  obtain ⟨request, t, hread, h⟩ := bind_eq_ok.mp h
  obtain ⟨hlen, hin⟩ := readExact_eq_ok hread
  obtain ⟨version, count, rfl⟩ := List.length_eq_two.mp hlen
  obtain ⟨_, t', hrequire, h⟩ := bind_eq_ok.mp h
  obtain ⟨rfl, rfl⟩ := require_eq_ok hrequire
  obtain ⟨methods, u, hread', h⟩ := bind_eq_ok.mp h
  obtain ⟨hlen', hin'⟩ := readExact_eq_ok hread'
  split_ifs at h
  · obtain ⟨rfl, rfl⟩ := pure_eq_ok.mp h
    exact ⟨count, methods, by rw [hin, hin']; simp, hlen', rfl⟩
  · obtain ⟨_, w, hwrite, h⟩ := bind_eq_ok.mp h
    cases h

lemma readCredentials_eq_ok {pair : Bytes × Bytes} (h : readCredentials s = .ok pair s') :
    ∃ ulen plen : UInt8,
      s.incoming = [1, ulen] ++ pair.1 ++ [plen] ++ pair.2 ++ s'.incoming ∧
      pair.1.length = ulen.toNat ∧ pair.2.length = plen.toNat := by
  unfold readCredentials at h
  obtain ⟨_, t₁, hwrite, h⟩ := bind_eq_ok.mp h
  obtain ⟨version, t₂, hversion, h⟩ := bind_eq_ok.mp h
  obtain ⟨ulen, t₃, hulen, h⟩ := bind_eq_ok.mp h
  obtain ⟨_, t₄, hrequire, h⟩ := bind_eq_ok.mp h
  obtain ⟨⟨rfl, -⟩, rfl⟩ := require_eq_ok hrequire
  obtain ⟨username, t₅, huser, h⟩ := bind_eq_ok.mp h
  obtain ⟨plen, t₆, hplen, h⟩ := bind_eq_ok.mp h
  obtain ⟨_, t₇, hrequire', h⟩ := bind_eq_ok.mp h
  obtain ⟨-, rfl⟩ := require_eq_ok hrequire'
  obtain ⟨password, t₈, hpass, h⟩ := bind_eq_ok.mp h
  obtain ⟨_, t₉, hwrite', h⟩ := bind_eq_ok.mp h
  obtain ⟨rfl, rfl⟩ := pure_eq_ok.mp h
  obtain ⟨huserLen, huserIn⟩ := readExact_eq_ok huser
  obtain ⟨hpassLen, hpassIn⟩ := readExact_eq_ok hpass
  refine ⟨ulen, plen, ?_, huserLen, hpassLen⟩
  rw [← writeAll_eq_ok hwrite, readU8_eq_ok hversion, readU8_eq_ok hulen, huserIn,
    readU8_eq_ok hplen, hpassIn, writeAll_eq_ok hwrite']
  simp

/-- An address is read in full and then written as text. -/
lemma readAddress_eq_ok {size : ℕ} {ip : Bytes → IpAddr} {host : String}
    (h : (do return E.ipText (ip (← readExact size)) : SocksM String) s = .ok host s') :
    ∃ address, address.length = size ∧ s.incoming = address ++ s'.incoming ∧
      host = E.ipText (ip address) := by
  obtain ⟨address, t, hread, hpure⟩ := bind_eq_ok.mp h
  obtain ⟨rfl, rfl⟩ := pure_eq_ok.mp hpure
  obtain ⟨hlen, hin⟩ := readExact_eq_ok hread
  exact ⟨address, hlen, hin, rfl⟩

lemma readDomain_eq_ok {host : String} (h : readHost E 3 s = .ok host s') :
    ∃ (length : UInt8) (domain : Bytes), s.incoming = length :: domain ++ s'.incoming ∧
      domain.length = length.toNat ∧ String.fromUTF8? ⟨domain.toArray⟩ = some host := by
  obtain ⟨length, t, hlength, h⟩ := bind_eq_ok.mp h
  obtain ⟨domain, t', hdomain, h⟩ := bind_eq_ok.mp h
  obtain ⟨hlen, hin⟩ := readExact_eq_ok hdomain
  cases htext : String.fromUTF8? ⟨domain.toArray⟩ with
  | none =>
    simp only [htext] at h
    cases h
  | some =>
    simp only [htext] at h
    obtain ⟨_, u, hvalid, hpure⟩ := bind_eq_ok.mp h
    obtain ⟨-, rfl⟩ := require_eq_ok hvalid
    obtain ⟨rfl, rfl⟩ := pure_eq_ok.mp hpure
    exact ⟨length, domain, by rw [readU8_eq_ok hlength, hin]; rfl, hlen, htext⟩

/-- The address type decides how the octets after the header are read. -/
lemma readTarget_eq_ok {target : String × UInt16} (h : readTarget E s = .ok target s') :
    ∃ header t t', header.length = 4 ∧ s.incoming = header ++ t.incoming ∧
      readHost E (header.getD 3 0) t = .ok target.1 t' := by
  obtain ⟨header, t, hheader, h⟩ := bind_eq_ok.mp h
  obtain ⟨_, t', hrequire, h⟩ := bind_eq_ok.mp h
  obtain ⟨-, rfl⟩ := require_eq_ok hrequire
  obtain ⟨host, u, hhost, h⟩ := bind_eq_ok.mp h
  obtain ⟨octets, v, -, h⟩ := bind_eq_ok.mp h
  obtain ⟨_, w, -, h⟩ := bind_eq_ok.mp h
  obtain ⟨rfl, -⟩ := pure_eq_ok.mp h
  obtain ⟨hlen, hin⟩ := readExact_eq_ok hheader
  exact ⟨header, t, u, hlen, hin, hhost⟩

/-- The context of a request is the hash of the credentials in it, if it has any. -/
theorem context_of_readSocks5RequestContext {r : SocksRequest}
    (h : readSocks5RequestContext E true s = .ok r s') :
    r.context = (presented s.incoming).map fun pair => E.sha256 (contextLabel pair.1 pair.2) := by
  unfold readSocks5RequestContext at h
  obtain ⟨credentials, t, hmethods, h⟩ := bind_eq_ok.mp h
  obtain ⟨context, t', hcontext, h⟩ := bind_eq_ok.mp h
  obtain ⟨target, t'', -, h⟩ := bind_eq_ok.mp h
  obtain ⟨rfl, -⟩ := pure_eq_ok.mp h
  obtain ⟨count, methods, hin, hlen, hmode⟩ := readMethods_eq_ok hmethods
  have hoffered : offeredMethods s.incoming = methods := by
    rw [hin]
    simp [offeredMethods, ← hlen]
  have hrest : s.incoming.drop (2 + (s.incoming.getD 1 0).toNat) = t.incoming := by
    rw [hin]
    simp [← hlen, Nat.add_comm 2]
  simp only [Bool.true_and] at hmode
  unfold presented
  rw [hoffered, hrest]
  unfold readContext at hcontext
  by_cases hmem : 2 ∈ methods
  · rw [if_pos hmem]
    rw [if_pos (hmode.trans (List.contains_iff_mem.mpr hmem))] at hcontext
    obtain ⟨pair, u, hpair, hpure⟩ := bind_eq_ok.mp hcontext
    obtain ⟨rfl, rfl⟩ := pure_eq_ok.mp hpure
    obtain ⟨ulen, plen, hcreds, hulen, hplen⟩ := readCredentials_eq_ok hpair
    have huser : (t.incoming.drop 2).take (t.incoming.getD 1 0).toNat = pair.1 := by
      rw [hcreds]
      simp [← hulen]
    have htail : t.incoming.drop (2 + (t.incoming.getD 1 0).toNat) =
        [plen] ++ pair.2 ++ u.incoming := by
      rw [hcreds]
      simp [← hulen, Nat.add_comm 2]
    dsimp only
    rw [huser, htail]
    simp [← hplen]
  · rw [if_neg hmem]
    have hfalse : ¬ credentials = true := by
      rw [hmode, List.contains_iff_mem]
      exact hmem
    rw [if_neg hfalse] at hcontext
    obtain ⟨_, u, -, hpure⟩ := bind_eq_ok.mp hcontext
    obtain ⟨rfl, -⟩ := pure_eq_ok.mp hpure
    rfl

/-- The label of a context tells user name and password apart. -/
theorem contextLabel_inj {u p u' p' : Bytes} (hu : u.length < 256) (hu' : u'.length < 256)
    (h : contextLabel u p = contextLabel u' p') : u = u' ∧ p = p' := by
  unfold contextLabel at h
  simp only [List.append_assoc, List.append_cancel_left_eq] at h
  obtain ⟨hlen, hrest⟩ := List.append_inj h rfl
  have heq : u.length = u'.length := by
    have hnat := congrArg UInt8.toNat (List.cons.inj hlen).1
    simpa [Nat.mod_eq_of_lt hu, Nat.mod_eq_of_lt hu'] using hnat
  obtain ⟨rfl, htail⟩ := List.append_inj hrest heq
  exact ⟨rfl, (List.append_inj htail rfl).2⟩

lemma length_presented {input : Bytes} {pair : Bytes × Bytes} (h : presented input = some pair) :
    pair.1.length < 256 := by
  unfold presented at h
  split_ifs at h
  cases h
  refine (List.length_take_le _ _).trans_lt ?_
  exact UInt8.toNat_lt _

end Reading

end AnonGuard
