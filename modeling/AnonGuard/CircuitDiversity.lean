import AnonGuard.IpText
import AnonGuard.PoolChain

/-!
# When a circuit is diverse

The check of a chain goes through its hosts and keeps what it has seen. It accepts exactly
the lists whose hosts are addresses in pairwise different networks: an address counts for
the first two octets of its IPv4 address, also when it is an IPv6 address that carries one,
and otherwise for its first four octets. The order of the hosts does not matter then, and
part of an accepted list is accepted too.
-/
namespace AnonGuard

/-- What two hosts of one circuit must not share. -/
inductive Network
  | ipv4 (subnet : Bytes)
  | ipv6 (subnet : Bytes)
  deriving DecidableEq, Repr

def IpAddr.network : IpAddr → Network
  | v4 octets => .ipv4 (octets.take 2)
  | v6 octets =>
    match embeddedSubnet octets with
    | some subnet => .ipv4 subnet
    | none => .ipv6 (octets.take 4)

/-- The network of a host, if the host is an address. -/
def hostNetwork (S : DirectoryEnv) (host : String) : Option Network :=
  (S.parseIp (trimChars (· == '[') (· == ']') host)).map IpAddr.network

section Loop
variable {S : DirectoryEnv} {seen : SeenNetworks} {visited : List String}

/-- What the loop has seen is what it has visited. -/
structure SeenNetworks.Records (S : DirectoryEnv) (seen : SeenNetworks) (visited : List String) :
    Prop where
  hosts : seen.hosts = visited
  ipv4Subnets : ∀ subnet, subnet ∈ seen.ipv4Subnets ↔
    some (.ipv4 subnet) ∈ visited.map (hostNetwork S)
  ipv6Subnets : ∀ subnet, subnet ∈ seen.ipv6Subnets ↔
    some (.ipv6 subnet) ∈ visited.map (hostNetwork S)

lemma SeenNetworks.records_nil (S : DirectoryEnv) :
    SeenNetworks.Records S ⟨[], [], []⟩ [] := ⟨rfl, by simp, by simp⟩

/-- What a visit answers: a host passes if its network is new. -/
def SeenNetworks.Answers (S : DirectoryEnv) (visited : List String) (host : String) :
    Except SybilError SeenNetworks → Prop
  | .ok next => next.Records S (visited ++ [host]) ∧ (hostNetwork S host).isSome = true ∧
      hostNetwork S host ∉ visited.map (hostNetwork S)
  | .error _ => (hostNetwork S host).isSome = true →
      hostNetwork S host ∈ visited.map (hostNetwork S)

lemma SeenNetworks.answers_addIpv4 (hseen : seen.Records S visited) {host : String} {subnet : Bytes}
    (hnetwork : hostNetwork S host = some (.ipv4 subnet)) :
    Answers S visited host (addIpv4 { seen with hosts := seen.hosts ++ [host] } subnet) := by
  obtain ⟨hhosts, hipv4, hipv6⟩ := hseen
  unfold SeenNetworks.addIpv4
  by_cases hsubnet : subnet ∈ seen.ipv4Subnets
  · rw [if_pos hsubnet]
    intro _
    rw [hnetwork]
    exact (hipv4 subnet).mp hsubnet
  · rw [if_neg hsubnet]
    refine ⟨⟨by rw [hhosts], fun other => ?_, fun other => ?_⟩, by rw [hnetwork]; rfl, ?_⟩
    · simp [hipv4, hnetwork]
    · simp [hipv6, hnetwork]
    · rw [hnetwork]
      exact mt (hipv4 subnet).mpr hsubnet

/-- The check of the host's own text refuses nothing more. -/
lemma SeenNetworks.answers_visit (hseen : seen.Records S visited) (host : String) :
    Answers S visited host (seen.visit S host) := by
  unfold SeenNetworks.visit
  by_cases hhost : host ∈ seen.hosts
  · rw [if_pos hhost]
    intro _
    exact List.mem_map_of_mem (hseen.hosts ▸ hhost)
  rw [if_neg hhost]
  dsimp only
  cases hparse : S.parseIp (trimChars (· == '[') (· == ']') host) with
  | none => simp [Answers, hostNetwork, hparse]
  | some ip =>
    cases ip with
    | v4 => exact answers_addIpv4 hseen (by simp [hostNetwork, hparse, IpAddr.network])
    | v6 octets =>
      dsimp only
      cases hembedded : embeddedSubnet octets with
      | some =>
        exact answers_addIpv4 hseen (by simp [hostNetwork, hparse, IpAddr.network, hembedded])
      | none =>
        obtain ⟨hhosts, hipv4, hipv6⟩ := hseen
        have hnetwork : hostNetwork S host = some (.ipv6 (octets.take 4)) := by
          simp [hostNetwork, hparse, IpAddr.network, hembedded]
        dsimp only
        by_cases hsubnet : octets.take 4 ∈ seen.ipv6Subnets
        · rw [if_pos hsubnet]
          intro _
          rw [hnetwork]
          exact (hipv6 _).mp hsubnet
        · rw [if_neg hsubnet]
          refine ⟨⟨by rw [hhosts], fun other => ?_, fun other => ?_⟩, by rw [hnetwork]; rfl, ?_⟩
          · simp [hipv4, hnetwork]
          · simp [hipv6, hnetwork]
          · rw [hnetwork]
            exact mt (hipv6 _).mpr hsubnet

lemma isOk_foldlM_visit (hosts : List String) (hseen : seen.Records S visited)
    (hvisited : (visited.map (hostNetwork S)).Nodup) :
    (hosts.foldlM (SeenNetworks.visit S) seen).isOk = true ↔
      (∀ host ∈ hosts, (hostNetwork S host).isSome = true) ∧
        ((visited ++ hosts).map (hostNetwork S)).Nodup := by
  induction hosts generalizing seen visited with
  | nil => simpa [pure, Except.pure, Except.isOk, Except.toBool] using hvisited
  | cons host rest ih =>
    have hanswer := SeenNetworks.answers_visit hseen host
    rw [List.foldlM_cons]
    cases hvisit : seen.visit S host with
    | ok =>
      rw [hvisit] at hanswer
      obtain ⟨hnext, hsome, hfresh⟩ := hanswer
      have hnodup : ((visited ++ [host]).map (hostNetwork S)).Nodup := by
        rw [List.map_append, List.nodup_append']
        exact ⟨hvisited, by simp, by simpa using hfresh⟩
      refine (ih hnext hnodup).trans ?_
      rw [List.append_assoc, List.singleton_append, List.forall_mem_cons]
      exact ⟨fun h => ⟨⟨hsome, h.1⟩, h.2⟩, fun h => ⟨h.1.2, h.2⟩⟩
    | error =>
      rw [hvisit] at hanswer
      refine ⟨fun h => absurd h (by simp [bind, Except.bind, Except.isOk, Except.toBool]), ?_⟩
      rintro ⟨hsome, hnodup⟩
      have hmem := hanswer (hsome host (by simp))
      rw [List.map_append, List.nodup_append'] at hnodup
      exact absurd hmem fun hmem => hnodup.2.2 hmem (by simp)

/-- The hosts of a diverse list are addresses in different networks. -/
def DistinctNetworks (S : DirectoryEnv) (hosts : List String) : Prop :=
  (∀ host ∈ hosts, (hostNetwork S host).isSome = true) ∧ (hosts.map (hostNetwork S)).Nodup

lemma validateCircuitDiversity_isOk (S : DirectoryEnv) (hosts : List String) :
    (validateCircuitDiversity S hosts).isOk = true ↔ DistinctNetworks S hosts := by
  have hfold := isOk_foldlM_visit hosts (SeenNetworks.records_nil S) List.nodup_nil
  rw [List.nil_append] at hfold
  rw [DistinctNetworks, ← hfold, validateCircuitDiversity]
  cases hosts.foldlM (SeenNetworks.visit S) ⟨[], [], []⟩ <;> rfl

lemma DistinctNetworks.sublist {hosts part : List String} (h : DistinctNetworks S hosts)
    (hpart : part.Sublist hosts) : DistinctNetworks S part :=
  ⟨fun host hhost => h.1 host (hpart.subset hhost), h.2.sublist (hpart.map _)⟩

lemma DistinctNetworks.perm {hosts other : List String} (h : DistinctNetworks S hosts)
    (hother : hosts.Perm other) : DistinctNetworks S other :=
  ⟨fun host hhost => h.1 host (hother.mem_iff.mpr hhost), (hother.map _).nodup_iff.mp h.2⟩

end Loop

section Transition

/-- The IPv4 address that the sixteen octets of an IPv6 address carry, in the forms of the
transition mechanisms. -/
inductive Carries : Bytes → Bytes → Prop
  | mapped (ip : Bytes) : ip.length = 4 → Carries (List.replicate 10 0 ++ [0xff, 0xff] ++ ip) ip
  | compatible (ip : Bytes) : ip.length = 4 → Carries (List.replicate 12 0 ++ ip) ip
  | sixToFour (ip rest : Bytes) : ip.length = 4 → rest.length = 10 →
      Carries ([0x20, 0x02] ++ ip ++ rest) ip
  | teredo (rest ip : Bytes) : rest.length = 8 → ip.length = 4 →
      Carries ([0x20, 0x01, 0x00, 0x00] ++ rest ++ ip.map (· ^^^ 0xff)) ip
  | nat64 (ip : Bytes) : ip.length = 4 →
      Carries ([0x00, 0x64, 0xff, 0x9b] ++ List.replicate 8 0 ++ ip) ip

lemma exists_octets {ip : Bytes} (h : ip.length = 4) : ∃ a b c d, ip = [a, b, c, d] := by
  obtain ⟨a, tail, rfl⟩ := List.exists_cons_of_length_eq_add_one h
  obtain ⟨b, c, d, rfl⟩ := List.length_eq_three.mp (Nat.succ.inj h)
  exact ⟨a, b, c, d, rfl⟩

lemma xor_xor_ff (x : UInt8) : x ^^^ 0xff ^^^ 0xff = x := by
  rw [UInt8.xor_assoc, UInt8.xor_self, UInt8.xor_zero]

lemma take_append_slice {start stop : ℕ} (h : start ≤ stop) (bytes : Bytes) :
    bytes.take start ++ slice start stop bytes = bytes.take stop := by
  have htake : bytes.take start = (bytes.take stop).take start := by
    rw [List.take_take, Nat.min_eq_left h]
  rw [htake, slice, List.take_append_drop]

lemma embeddedSubnet_of_carries {octets ip : Bytes} (h : Carries octets ip) :
    embeddedSubnet octets = some (ip.take 2) := by
  cases h with
  | mapped _ hip | compatible _ hip | sixToFour _ _ hip =>
    obtain ⟨a, b, c, d, rfl⟩ := exists_octets hip
    rfl
  | teredo rest _ hrest hip =>
    obtain ⟨a, b, c, d, rfl⟩ := exists_octets hip
    have hsubnet : slice 12 14 ([0x20, 0x01, 0x00, 0x00] ++ rest ++ [a, b, c, d].map (· ^^^ 0xff)) =
        [a ^^^ 0xff, b ^^^ 0xff] := by
      simp [slice, List.take_append, hrest]
    rw [embeddedSubnet, hsubnet]
    simp [xor_xor_ff]
  | nat64 _ hip =>
    obtain ⟨a, b, c, d, rfl⟩ := exists_octets hip
    rfl

/-- An address that starts in a given way carries what stands behind it. -/
lemma carries_of_embeddedSubnet {octets subnet : Bytes} (hlength : octets.length = 16)
    (h : embeddedSubnet octets = some subnet) : ∃ ip, Carries octets ip ∧ subnet = ip.take 2 := by
  have hdrop : (octets.drop 12).length = 4 := by simp [hlength]
  have hslice : slice 12 14 octets = (octets.drop 12).take 2 := by
    rw [slice, List.drop_take]
  unfold embeddedSubnet at h
  split_ifs at h with hmapped hcompatible hsixToFour hteredo hnat64
  · refine ⟨octets.drop 12, ?_, ?_⟩
    · have := Carries.mapped _ hdrop
      rwa [← hmapped, List.take_append_drop] at this
    · rw [← Option.some.inj h, hslice]
  · refine ⟨octets.drop 12, ?_, ?_⟩
    · have := Carries.compatible _ hdrop
      rwa [← hcompatible, List.take_append_drop] at this
    · rw [← Option.some.inj h, hslice]
  · refine ⟨slice 2 6 octets, ?_, ?_⟩
    · have := Carries.sixToFour (slice 2 6 octets) (octets.drop 6) (by simp [slice, hlength])
        (by simp [hlength])
      rwa [← hsixToFour, take_append_slice (by decide), List.take_append_drop] at this
    · rw [← Option.some.inj h, slice, slice, List.take_drop, List.take_take]
      rfl
  · refine ⟨(octets.drop 12).map (· ^^^ 0xff), ?_, ?_⟩
    · have := Carries.teredo (slice 4 12 octets) ((octets.drop 12).map (· ^^^ 0xff))
        (by simp [slice, hlength]) (by simp [hlength])
      rwa [← hteredo, take_append_slice (by decide), List.map_map,
        show ((· ^^^ 0xff) ∘ (· ^^^ 0xff) : UInt8 → UInt8) = id from funext xor_xor_ff, List.map_id,
        List.take_append_drop] at this
    · rw [← Option.some.inj h, hslice, List.map_take]
  · refine ⟨octets.drop 12, ?_, ?_⟩
    · have := Carries.nat64 _ hdrop
      rwa [← hnat64, List.take_append_drop] at this
    · rw [← Option.some.inj h, hslice]

/-- The network that an address counts for. -/
inductive IpAddr.InNetwork : IpAddr → Network → Prop
  | ipv4 (octets : Bytes) : InNetwork (.v4 octets) (.ipv4 (octets.take 2))
  | carried {octets ip : Bytes} : Carries octets ip →
      InNetwork (.v6 octets) (.ipv4 (ip.take 2))
  | ipv6 {octets : Bytes} : (∀ ip, ¬Carries octets ip) →
      InNetwork (.v6 octets) (.ipv6 (octets.take 4))

lemma IpAddr.inNetwork_network {ip : IpAddr} (hip : ip.Sized) : ip.InNetwork ip.network := by
  cases ip with
  | v4 octets => exact .ipv4 octets
  | v6 octets =>
    simp only [network]
    cases hembedded : embeddedSubnet octets with
    | some =>
      obtain ⟨carried, hcarried, rfl⟩ := carries_of_embeddedSubnet hip hembedded
      exact .carried hcarried
    | none =>
      refine .ipv6 fun carried hcarried => ?_
      rw [embeddedSubnet_of_carries hcarried] at hembedded
      cases hembedded

lemma IpAddr.network_eq_of_inNetwork {ip : IpAddr} {n : Network} (hip : ip.Sized)
    (h : ip.InNetwork n) : ip.network = n := by
  cases h with
  | ipv4 => rfl
  | carried hcarried => simp [network, embeddedSubnet_of_carries hcarried]
  | @ipv6 octets hnone =>
    simp only [network]
    cases hembedded : embeddedSubnet octets with
    | none => rfl
    | some =>
      obtain ⟨carried, hcarried, -⟩ := carries_of_embeddedSubnet hip hembedded
      exact absurd hcarried (hnone carried)

/-- A host that is an address of the network, in brackets or not. -/
def HostIn (host : String) (n : Network) : Prop :=
  ∃ ip, IpAddr.parse (trimChars (· == '[') (· == ']') host) = some ip ∧ ip.InNetwork n

lemma hostIn_iff (I : IdentityScheme) {host : String} {n : Network} :
    HostIn host n ↔ hostNetwork (stdNet I) host = some n := by
  simp only [hostNetwork, stdNet, Option.map_eq_some_iff]
  constructor
  · rintro ⟨ip, hparse, hin⟩
    exact ⟨ip, hparse, IpAddr.network_eq_of_inNetwork (IpAddr.sized_of_parse hparse) hin⟩
  · rintro ⟨ip, hparse, rfl⟩
    exact ⟨ip, hparse, IpAddr.inNetwork_network (IpAddr.sized_of_parse hparse)⟩

lemma distinctNetworks_iff (I : IdentityScheme) (hosts : List String) :
    DistinctNetworks (stdNet I) hosts ↔
      ∃ networks, List.Forall₂ HostIn hosts networks ∧ networks.Nodup := by
  have hmap (networks : List Network) : List.Forall₂ HostIn hosts networks ↔
      hosts.map (hostNetwork (stdNet I)) = networks.map some := by
    rw [← List.forall₂_eq_eq_eq, List.forall₂_map_left_iff, List.forall₂_map_right_iff]
    exact ⟨.imp fun _ _ => (hostIn_iff I).mp, .imp fun _ _ => (hostIn_iff I).mpr⟩
  simp only [hmap]
  constructor
  · rintro ⟨hsome, hnodup⟩
    have hnetworks : (hosts.filterMap (hostNetwork (stdNet I))).map some =
        hosts.map (hostNetwork (stdNet I)) := by
      rw [List.map_filterMap_some_eq_filter_map_isSome, List.filter_eq_self]
      simpa using hsome
    refine ⟨_, hnetworks.symm, ?_⟩
    rw [← hnetworks] at hnodup
    exact hnodup.of_map some
  · rintro ⟨networks, hnetworks, hnodup⟩
    refine ⟨fun host hhost => ?_, ?_⟩
    · have hmem : hostNetwork (stdNet I) host ∈ networks.map some :=
        hnetworks ▸ List.mem_map_of_mem hhost
      obtain ⟨n, -, hn⟩ := List.mem_map.mp hmem
      rw [← hn]
      rfl
    · rw [hnetworks]
      exact hnodup.map (Option.some_injective _)

end Transition

lemma validateCircuitDiversity_eq_ok (S : DirectoryEnv) (hosts : List String) :
    validateCircuitDiversity S hosts = .ok () ↔ DistinctNetworks S hosts := by
  rw [← validateCircuitDiversity_isOk]
  cases validateCircuitDiversity S hosts <;> simp [Except.isOk, Except.toBool]

/-- The check accepts the lists of addresses in different networks. -/
theorem circuit_diversity_iff_networks (I : IdentityScheme) (hosts : List String) :
    (validateCircuitDiversity (stdNet I) hosts = .ok () ↔
      ∃ networks, List.Forall₂ HostIn hosts networks ∧ networks.Nodup) ∧
    (∀ other, hosts.Perm other → (validateCircuitDiversity (stdNet I) hosts = .ok () ↔
      validateCircuitDiversity (stdNet I) other = .ok ())) ∧
    (∀ part, part.Sublist hosts → validateCircuitDiversity (stdNet I) hosts = .ok () →
      validateCircuitDiversity (stdNet I) part = .ok ()) ∧
    ∀ host other n, HostIn host n → HostIn other n → [host, other].Sublist hosts →
      validateCircuitDiversity (stdNet I) hosts ≠ .ok () := by
  simp only [validateCircuitDiversity_eq_ok, ne_eq]
  refine ⟨distinctNetworks_iff I hosts, fun other hother => ?_, fun part hpart h => ?_, ?_⟩
  · exact ⟨fun h => h.perm hother, fun h => h.perm hother.symm⟩
  · exact h.sublist hpart
  · intro host other n hhost hother hpair h
    have hnodup := (h.sublist hpair).2
    rw [hostIn_iff I] at hhost hother
    simp [hhost, hother] at hnodup

end AnonGuard
