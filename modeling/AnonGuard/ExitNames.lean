import AnonGuard.ExitPolicy
import AnonGuard.IpText

/-!
# The spellings of a name at an exit

A host may be written in capitals, between white space and with the dot of the root at its end,
and denotes the same name. `is_permitted` looks for reserved names in the trimmed host, with
the dot if it has one, and for an address in the host as it is. So a reserved name with a dot
passes, and so does a refused address that is not written bare.
-/
namespace AnonGuard

/-- What the reserved names are compared with. -/
def lowerHost (host : String) : String := (trimChars isWhiteSpace isWhiteSpace host).toLower

/-- The host has the dot of the root. -/
def Dotted (host : String) : Prop := (lowerHost host).toList.getLast? = some '.'

instance : DecidablePred Dotted := fun host =>
  inferInstanceAs (Decidable ((lowerHost host).toList.getLast? = some '.'))

/-- The name that a host denotes: in lower case, trimmed, without the dot. -/
def dnsName (host : String) : String :=
  if Dotted host then String.ofList (lowerHost host).toList.dropLast else lowerHost host

/-- The host is written without white space and without the dot. -/
def Bare (host : String) : Prop := host.toLower = dnsName host

def IsUnder (suffix name : String) : Prop := utf8 suffix <:+ utf8 name

instance (suffix name : String) : Decidable (IsUnder suffix name) :=
  inferInstanceAs (Decidable (utf8 suffix <:+ utf8 name))

namespace ExitPolicy

/-- The names that the policy refuses. -/
def Reserved (p : ExitPolicy) (name : String) : Prop :=
  IsUnder ".onion" name ∨ p.allowPrivateNetworks = false ∧
    (name = "localhost" ∨ IsUnder ".localhost" name ∨ IsUnder ".local" name ∨
      IsUnder ".internal" name ∨ name = "metadata.google.internal" ∨ name = "instance-data")

instance (p : ExitPolicy) : DecidablePred p.Reserved := fun name =>
  inferInstanceAs (Decidable (IsUnder ".onion" name ∨ p.allowPrivateNetworks = false ∧
    (name = "localhost" ∨ IsUnder ".localhost" name ∨ IsUnder ".local" name ∨
      IsUnder ".internal" name ∨ name = "metadata.google.internal" ∨ name = "instance-data")))

/-- The name is an address that the policy refuses. -/
def RefusedLiteral (p : ExitPolicy) (name : String) : Prop :=
  ∃ ip, IpAddr.parse name = some ip ∧ p.isIpPermitted ip = false

end ExitPolicy

section Names
variable {host : String}

lemma lowerHost_of_dotted (h : Dotted host) : lowerHost host = dnsName host ++ "." := by
  apply String.toList_injective
  rw [dnsName, if_pos h, String.toList_append, String.toList_ofList]
  exact (List.dropLast_append_getLast? '.' h).symm

lemma lowerHost_of_not_dotted (h : ¬Dotted host) : lowerHost host = dnsName host := by
  rw [dnsName, if_neg h]

/-- No name of the policy ends in a dot. -/
lemma not_isUnder_dot {suffix name : String} {last : UInt8}
    (hlast : (utf8 suffix).getLast? = some last) (hdot : last ≠ 46) :
    ¬IsUnder suffix (name ++ ".") := by
  rintro ⟨front, hfront⟩
  have hends := congrArg List.getLast? hfront
  have hroot : utf8 "." = [46] := by decide +kernel
  rw [List.getLast?_append, hlast, utf8_append, hroot, List.getLast?_concat] at hends
  exact hdot (by simpa using hends)

lemma ne_append_dot {reserved name : String} (hlast : reserved.toList.getLast? ≠ some '.') :
    name ++ "." ≠ reserved := by
  rintro rfl
  simp at hlast

lemma ExitPolicy.not_reserved_dot (p : ExitPolicy) (name : String) : ¬p.Reserved (name ++ ".") := by
  have hunder {suffix : String} (h : (utf8 suffix).getLast?.any (· != 46) = true) :
      ¬IsUnder suffix (name ++ ".") := by
    obtain ⟨last, hlast, hdot⟩ := Option.any_eq_true _ _ |>.mp h
    exact not_isUnder_dot hlast (by simpa using hdot)
  rintro (honion | ⟨-, hname⟩)
  · exact hunder (by decide +kernel) honion
  · rcases hname with hname | hname | hname | hname | hname | hname
    · exact ne_append_dot (by decide) hname
    · exact hunder (by decide +kernel) hname
    · exact hunder (by decide +kernel) hname
    · exact hunder (by decide +kernel) hname
    · exact ne_append_dot (by decide) hname
    · exact ne_append_dot (by decide) hname

/-- The dot hides a reserved name. -/
lemma ExitPolicy.reserved_lowerHost (p : ExitPolicy) (host : String) :
    p.Reserved (lowerHost host) ↔ p.Reserved (dnsName host) ∧ ¬Dotted host := by
  by_cases hdotted : Dotted host
  · rw [lowerHost_of_dotted hdotted]
    simp [p.not_reserved_dot, hdotted]
  · rw [lowerHost_of_not_dotted hdotted]
    simp [hdotted]

lemma trimChars_of_forall {p : Char → Bool} {s : String} (h : ∀ c ∈ s.toList, p c = false) :
    trimChars p p s = s := by
  have hkeep {l : List Char} (hl : ∀ c ∈ l, p c = false) : l.dropWhile p = l := by
    cases l with
    | nil => rfl
    | cons c => exact List.dropWhile_cons_of_neg (by simp [hl c List.mem_cons_self])
  rw [trimChars, hkeep h, hkeep fun c hc => h c (List.mem_reverse.mp hc), List.reverse_reverse,
    String.ofList_toList]

lemma IpText.AddressChar.not_isWhiteSpace {c : Char} (h : IpText.AddressChar c) :
    isWhiteSpace c = false := by
  have hrange : 46 ≤ c.toNat ∧ c.toNat ≤ 102 := by
    rcases h with hdigit | rfl | rfl
    · simp only [IpText.toDigit] at hdigit
      split_ifs at hdigit
      · omega
      · omega
      · omega
      · simp at hdigit
    · decide
    · decide
  exact isWhiteSpace_eq_false (by omega) (by omega)

/-- An address is found only if it is written bare. -/
lemma parse_eq_some_iff {ip : IpAddr} :
    IpAddr.parse host = some ip ↔ Bare host ∧ IpAddr.parse (dnsName host) = some ip := by
  constructor
  · intro h
    obtain ⟨hchars, hlast⟩ := IpAddr.chars_of_parse h
    have hlower : lowerHost host = host.toLower := by
      rw [lowerHost, trimChars_of_forall fun c hc => (hchars c hc).not_isWhiteSpace]
    have hdotted : ¬Dotted host := by
      rw [Dotted, hlower, String.toLower, String.toList_map, List.getLast?_map]
      simpa [IpText.toLower_eq_iff (show '.'.toNat < 65 by decide)] using hlast
    have hbare : Bare host := by rw [Bare, ← lowerHost_of_not_dotted hdotted, hlower]
    exact ⟨hbare, by rw [← hbare, IpAddr.parse_toLower, h]⟩
  · rintro ⟨hbare, h⟩
    rwa [← hbare, IpAddr.parse_toLower] at h

lemma length_trimChars_le (p q : Char → Bool) (s : String) :
    (trimChars p q s).toList.length ≤ s.toList.length := by
  rw [trimChars, String.toList_ofList, List.length_reverse]
  refine (List.dropWhile_sublist q).length_le.trans ?_
  rw [List.length_reverse]
  exact (List.dropWhile_sublist p).length_le

lemma Bare.not_dotted (h : Bare host) : ¬Dotted host := by
  intro hdotted
  have hlower := congrArg (List.length ∘ String.toList) (lowerHost_of_dotted hdotted)
  have htrim := length_trimChars_le isWhiteSpace isWhiteSpace host
  have hbare := congrArg (List.length ∘ String.toList) h
  simp only [lowerHost, String.toLower, Function.comp_apply, String.toList_map, List.length_map,
    String.toList_append, List.length_append] at hlower hbare
  have hdot : ".".toList.length = 1 := rfl
  omega

end Names

section Policy
variable (I : IdentityScheme) (p : ExitPolicy) {host : String} {port : UInt16}

lemma ExitPolicy.isPermitted_iff_lower :
    p.isPermitted (stdNet I) host port = true ↔ port ∉ p.blockedPorts ∧
      ¬p.Reserved (lowerHost host) ∧
        ∀ ip, IpAddr.parse host = some ip → p.isIpPermitted ip = true := by
  have hprivate (h : p.allowPrivateNetworks = true) (ip : IpAddr) : p.isIpPermitted ip = true := by
    cases ip <;> simp [isIpPermitted, h]
  have hparse : (stdNet I).parseIp = IpAddr.parse := rfl
  simp only [isPermitted, hparse, Reserved, IsUnder, lowerHost, decide_eq_true_eq]
  split_ifs with hblocked honion hallow hname
  · simp [hblocked]
  · simp [honion]
  · simp [hblocked, honion, hallow, hprivate hallow]
  · simp only [Bool.not_eq_true] at hallow
    simp [hallow, hname]
  · simp only [Bool.not_eq_true] at hallow
    cases IpAddr.parse host with
    | none | some => simp [hblocked, honion, hname]

lemma ExitPolicy.isPermitted_iff :
    p.isPermitted (stdNet I) host port = true ↔ port ∉ p.blockedPorts ∧
      (p.Reserved (dnsName host) → Dotted host) ∧ (p.RefusedLiteral (dnsName host) → ¬Bare host) := by
  have hliteral : (∀ ip, IpAddr.parse host = some ip → p.isIpPermitted ip = true) ↔
      (p.RefusedLiteral (dnsName host) → ¬Bare host) := by
    constructor
    · rintro h ⟨ip, hip, hrefused⟩ hbare
      have hpermitted := h ip (parse_eq_some_iff.mpr ⟨hbare, hip⟩)
      rw [hrefused] at hpermitted
      cases hpermitted
    · intro h ip hparse
      obtain ⟨hbare, hip⟩ := parse_eq_some_iff.mp hparse
      by_contra hrefused
      exact h ⟨ip, hip, by simpa using hrefused⟩ hbare
  rw [isPermitted_iff_lower, p.reserved_lowerHost, hliteral, not_and, not_not]

/-- Two spellings of a name get one answer exactly if, for a reserved name, both or none have
the dot of the root, and, for a refused address, both or none are bare. By default a
reserved name gets to the resolver exactly if it has the dot and the port is not blocked. -/
theorem ExitPolicy.name_policy_iff (port : UInt16) :
    (∀ host host', dnsName host = dnsName host' →
      (p.isPermitted (stdNet I) host port = p.isPermitted (stdNet I) host' port ↔
        port ∈ p.blockedPorts ∨
          (p.Reserved (dnsName host) → (Dotted host ↔ Dotted host')) ∧
          (¬p.Reserved (dnsName host) → p.RefusedLiteral (dnsName host) →
            (Bare host ↔ Bare host')))) ∧
    ∀ host, IsUnder ".onion" (dnsName host) ∨ IsUnder ".local" (dnsName host) ∨
        IsUnder ".localhost" (dnsName host) ∨ IsUnder ".internal" (dnsName host) →
      (default.resolveAndConnect (stdNet I) host port = .ok ⟨host, port, .resolving⟩ ↔
        port ∉ default.blockedPorts ∧ Dotted host) := by
  refine ⟨fun host host' hname => ?_, fun host hunder => ?_⟩
  · rw [Bool.eq_iff_iff, isPermitted_iff, isPermitted_iff, ← hname]
    by_cases hblocked : port ∈ p.blockedPorts
    · simp [hblocked]
    · by_cases hreserved : p.Reserved (dnsName host)
      · -- a host with the dot is not bare, so it passes the second test as well
        have hdot (host : String) {q : Prop} : Dotted host ∧ (q → ¬Bare host) ↔ Dotted host :=
          and_iff_left_of_imp fun h _ hbare => hbare.not_dotted h
        simp only [hblocked, hreserved, not_false_eq_true, true_and, true_imp_iff, false_or,
          not_true_eq_false, false_imp_iff, and_true, hdot]
      · by_cases hliteral : p.RefusedLiteral (dnsName host)
        · simp only [hblocked, hreserved, hliteral, not_false_eq_true, true_and, true_imp_iff,
            false_or, false_imp_iff, not_iff_not]
        · simp only [hblocked, hreserved, hliteral, not_false_eq_true, true_and, false_or,
            false_imp_iff, imp_true_iff]
  · have hreserved : default.Reserved (dnsName host) := by
      rcases hunder with h | h | h | h
      · exact .inl h
      · exact .inr ⟨rfl, .inr (.inr (.inl h))⟩
      · exact .inr ⟨rfl, .inr (.inl h)⟩
      · exact .inr ⟨rfl, .inr (.inr (.inr (.inl h)))⟩
    have hpermitted : default.isPermitted (stdNet I) host port = true ↔
        port ∉ default.blockedPorts ∧ Dotted host := by
      rw [isPermitted_iff]
      refine and_congr_right fun _ => ⟨fun h => h.1 hreserved, fun h => ⟨fun _ => h, ?_⟩⟩
      exact fun _ hbare => hbare.not_dotted h
    rw [← hpermitted, resolveAndConnect]
    cases default.isPermitted (stdNet I) host port <;> simp

/-- Case, white space and the dot make no difference for a name that is not reserved. -/
theorem ExitPolicy.example_com_permitted :
    dnsName "Example.com" = "example.com" ∧ dnsName " example.com.\n" = "example.com" ∧
      default.isPermitted (stdNet sampleScheme) "Example.com" 443 =
        default.isPermitted (stdNet sampleScheme) " example.com.\n" 443 := by
  have hplain : dnsName "Example.com" = "example.com" := by decide +kernel
  have hdotted : dnsName " example.com.\n" = "example.com" := by decide +kernel
  have hreserved : ¬default.Reserved "example.com" := by decide +kernel
  have hliteral : IpAddr.parse "example.com" = none := by decide +kernel
  have hanswers := (name_policy_iff sampleScheme default 443).1 "Example.com" " example.com.\n"
    (hplain.trans hdotted.symm)
  rw [hplain] at hanswers
  refine ⟨hplain, hdotted, hanswers.mpr (.inr ⟨fun h => absurd h hreserved, ?_⟩)⟩
  rintro - ⟨ip, hip, -⟩
  rw [hliteral] at hip
  cases hip

/-- With the dot of the root an onion name is resolved, and white space hides a loopback
address. -/
theorem ExitPolicy.dotted_onion_resolved :
    dnsName "secret.onion" = "secret.onion" ∧ dnsName "secret.onion." = "secret.onion" ∧
      default.isPermitted (stdNet sampleScheme) "secret.onion" 443 = false ∧
      default.resolveAndConnect (stdNet sampleScheme) "secret.onion." 443 =
        .ok ⟨"secret.onion.", 443, .resolving⟩ ∧
      dnsName "127.0.0.1" = "127.0.0.1" ∧ dnsName " 127.0.0.1" = "127.0.0.1" ∧
      default.isPermitted (stdNet sampleScheme) "127.0.0.1" 443 = false ∧
      default.isPermitted (stdNet sampleScheme) " 127.0.0.1" 443 = true := by
  have hpermitted : default.isPermitted (stdNet sampleScheme) "secret.onion." 443 = true := by
    decide +kernel
  refine ⟨?_, ?_, ?_, ?_, ?_, ?_, ?_, ?_⟩
  case refine_4 => rw [resolveAndConnect, hpermitted, if_neg (by decide)]
  all_goals decide +kernel

end Policy

end AnonGuard
