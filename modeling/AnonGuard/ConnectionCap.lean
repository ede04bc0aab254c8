import AnonGuard.SourceAdmission

/-!
# Groups of client addresses

The gateway caps the connections of a client. It takes IPv6 clients together by the first 48
bits of their addresses, and every IPv4 client by itself. On a listener for both families an
IPv4 client has an address under `::ffff:0:0/96`, which the admission of sources reads back
and the gateway takes for an IPv6 address.
-/
namespace AnonGuard

def normalizeIpForCap : IpAddr → IpAddr
  | .v4 octets => .v4 octets
  -- The segments after the third one are zero.
  | .v6 octets => .v6 (octets.take 6 ++ List.replicate 10 0)

namespace IpAddr

/-- The IPv6 address stands for an IPv4 host. -/
def Mapped : IpAddr → Prop
  | v4 _ => False
  | v6 octets => octets.take 12 = List.replicate 10 0 ++ [0xff, 0xff]

/-- The addresses are of one IPv4 host, or native and of one network of 48 bits. -/
def SameClient (x y : IpAddr) : Prop :=
  (∃ host, SourceGroup.ofIp x = .v4 host ∧ SourceGroup.ofIp y = .v4 host) ∨
    ∃ a b, x = .v6 a ∧ y = .v6 b ∧ ¬ x.Mapped ∧ ¬ y.Mapped ∧ a.take 6 = b.take 6

/-- An address that stands for an IPv4 host, and another one of the same host or under
`::/48`. -/
def Conflated (x y : IpAddr) : Prop :=
  x.Mapped ∧ x ≠ y ∧
    match y with
    | .v4 host => SourceGroup.ofIp x = .v4 host
    | .v6 octets => octets.take 6 = List.replicate 6 0

variable {octets : Bytes}

lemma ofIp_of_mapped (h : (v6 octets).Mapped) :
    SourceGroup.ofIp (.v6 octets) = .v4 (octets.drop 12) := if_pos h

lemma ofIp_of_not_mapped (h : ¬ (v6 octets).Mapped) :
    SourceGroup.ofIp (.v6 octets) = .v6 (octets.take 8) := if_neg h

/-- All such addresses are under `::/48`. -/
lemma Mapped.take_six (h : (v6 octets).Mapped) :
    octets.take 6 = List.replicate 6 0 := by
  have htake : (octets.take 12).take 6 = octets.take 6 := by rw [List.take_take]; rfl
  rw [← htake, h]
  rfl

variable {a b : Bytes}

lemma Mapped.eq_iff (ha : (v6 a).Mapped) (hb : (v6 b).Mapped) :
    a = b ↔ a.drop 12 = b.drop 12 := by
  refine ⟨fun h => h ▸ rfl, fun h => ?_⟩
  rw [← List.take_append_drop 12 a, ← List.take_append_drop 12 b, h]
  exact congrArg (· ++ _) (ha.trans hb.symm)

/-- An IPv4 address and an IPv6 one never share a cap. -/
lemma cap_v4_v6 {host octets : Bytes} :
    (normalizeIpForCap (.v4 host) = normalizeIpForCap (.v6 octets) ↔ SameClient (.v4 host) (.v6 octets)) ↔
      ¬ Conflated (.v6 octets) (.v4 host) := by
  have hcap : normalizeIpForCap (.v4 host) ≠ normalizeIpForCap (.v6 octets) := by
    simp [normalizeIpForCap]
  rw [iff_false_left hcap]
  refine not_congr ?_
  by_cases hmapped : (v6 octets).Mapped
  · simp [SameClient, Conflated, hmapped, SourceGroup.ofIp, eq_comm]
  · simp [SameClient, Conflated, hmapped, ofIp_of_not_mapped hmapped]

lemma SameClient.symm {x y : IpAddr} (h : x.SameClient y) : y.SameClient x := by
  rcases h with ⟨host, hx, hy⟩ | ⟨a, b, hx, hy, hnx, hny, heq⟩
  · exact .inl ⟨host, hy, hx⟩
  · exact .inr ⟨b, a, hy, hx, hny, hnx, heq.symm⟩

lemma sameClient_comm {x y : IpAddr} : x.SameClient y ↔ y.SameClient x := ⟨.symm, .symm⟩

/-- An IPv4 host and a native IPv6 client share a cap if the client is under `::/48`. -/
lemma cap_mapped_native (ha : (v6 a).Mapped) (hb : ¬ (v6 b).Mapped) :
    (a.take 6 = b.take 6 ↔ SameClient (.v6 a) (.v6 b)) ↔ ¬ Conflated (.v6 a) (.v6 b) := by
  have hsame : ¬ SameClient (.v6 a) (.v6 b) := by simp [SameClient, ha, ofIp_of_not_mapped hb]
  have hne : a ≠ b := by
    rintro rfl
    exact hb ha
  rw [iff_false_right hsame, ha.take_six]
  simp [Conflated, ha, hne, eq_comm]

/-- Two IPv6 addresses share a cap by their first six octets. -/
lemma cap_v6_v6 :
    (normalizeIpForCap (.v6 a) = normalizeIpForCap (.v6 b) ↔ SameClient (.v6 a) (.v6 b)) ↔
      ¬ Conflated (.v6 a) (.v6 b) ∧ ¬ Conflated (.v6 b) (.v6 a) := by
  have hcap : normalizeIpForCap (.v6 a) = normalizeIpForCap (.v6 b) ↔ a.take 6 = b.take 6 := by
    simp [normalizeIpForCap]
  have hnative {x y : IpAddr} (h : ¬ x.Mapped) : ¬ Conflated x y := fun hc => h hc.1
  rw [hcap]
  by_cases ha : (v6 a).Mapped <;> by_cases hb : (v6 b).Mapped
  · have hsame : SameClient (.v6 a) (.v6 b) ↔ a = b := by
      simp [SameClient, ha, ofIp_of_mapped ha, ofIp_of_mapped hb, ha.eq_iff hb, eq_comm]
    simp [hsame, Conflated, ha, hb, ha.take_six, hb.take_six, eq_comm]
  · rw [cap_mapped_native ha hb, and_iff_left (hnative hb)]
  · rw [eq_comm, sameClient_comm, cap_mapped_native hb ha, and_iff_right (hnative ha)]
  · have hsame : SameClient (.v6 a) (.v6 b) ↔ a.take 6 = b.take 6 := by
      simp [SameClient, ha, hb, ofIp_of_not_mapped ha]
    simp [hsame, Conflated, ha, hb]

/-- The gateway groups two clients rightly unless one of them is an IPv4 host behind an IPv6
address and the other one is the same host, or under `::/48`. -/
theorem cap_groups_iff (x y : IpAddr) :
    (normalizeIpForCap x = normalizeIpForCap y ↔ x.SameClient y) ↔
      ¬ x.Conflated y ∧ ¬ y.Conflated x := by
  cases x with
  | v4 =>
    cases y with
    | v4 => simp [normalizeIpForCap, SameClient, Conflated, Mapped, SourceGroup.ofIp, eq_comm]
    | v6 => rw [cap_v4_v6, and_iff_right fun h => h.1]
  | v6 =>
    cases y with
    | v4 => rw [eq_comm, sameClient_comm, cap_v4_v6, and_iff_left fun h => h.1]
    | v6 => exact cap_v6_v6

/-- The address under which a listener for both families sees an IPv4 host. -/
def mapped (host : Bytes) : IpAddr := .v6 (List.replicate 10 0 ++ [0xff, 0xff] ++ host)

/-- Two IPv4 hosts behind a listener for both families share a cap. -/
theorem mapped_hosts_share_cap :
    normalizeIpForCap (mapped [192, 0, 2, 1]) = normalizeIpForCap (mapped [198, 51, 100, 7]) ∧
      ¬ SameClient (mapped [192, 0, 2, 1]) (mapped [198, 51, 100, 7]) := by
  refine ⟨by decide, ?_⟩
  rintro (⟨host, hx, hy⟩ | ⟨a, b, -, -, hnative, -⟩)
  · rw [← hx] at hy
    revert hy
    decide
  · exact hnative rfl

end IpAddr

end AnonGuard
