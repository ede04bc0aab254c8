import AnonGuard.SignedMessages

/-!
# What a consensus digest covers

A digest is taken over the validity times and the relays in the order of their ids. The relays
have no count, but each text stands behind its length, so the octets determine the document as
long as the length of a text fits the four octets that are written. The length is cut to
them without a check: a longer id can hold the octets of other relays.
-/
namespace AnonGuard

namespace ConsensusDocument

/-- No two relays have the same id. -/
def DistinctIds (d : ConsensusDocument) : Prop := (d.relays.map (·.nodeId)).Nodup

/-- The keys are arrays, and no text is longer than the bound. -/
def TextsWithin (d : ConsensusDocument) (bound : ℕ) : Prop :=
  ∀ r ∈ d.relays, r.KeysSized ∧ (utf8 r.nodeId).length ≤ bound ∧ (utf8 r.host).length ≤ bound

lemma TextsWithin.mono {d : ConsensusDocument} {bound bound' : ℕ} (h : d.TextsWithin bound)
    (hle : bound ≤ bound') : d.TextsWithin bound' := by
  intro r hr
  obtain ⟨hkeys, hid, hhost⟩ := h r hr
  exact ⟨hkeys, hid.trans hle, hhost.trans hle⟩

/-- The documents have the same times and the same relays, but for the relays' own proofs. -/
def SameContent (d d' : ConsensusDocument) : Prop :=
  d.validAfter = d'.validAfter ∧ d.validUntil = d'.validUntil ∧
    ∀ r, r ∈ d.relays.map RelayDescriptor.unsigned ↔ r ∈ d'.relays.map RelayDescriptor.unsigned

lemma sameContent_of_contentBytes {d d' : ConsensusDocument} {bound : ℕ} (hbound : bound < 2 ^ 32)
    (h : d.TextsWithin bound) (h' : d'.TextsWithin bound) (heq : d.contentBytes = d'.contentBytes) :
    d.SameContent d' := by
  have hframed {r : RelayDescriptor} (hr : r.KeysSized ∧ (utf8 r.nodeId).length ≤ bound ∧
      (utf8 r.host).length ≤ bound) : r.Framed :=
    ⟨hr.1, by omega, by omega⟩
  obtain ⟨hafter, huntil, hrelays⟩ := contentBytes_injective (fun r hr => hframed (h r hr))
    (fun r hr => hframed (h' r hr)) heq
  have hmem (d : ConsensusDocument) (r : RelayDescriptor) :
      r ∈ d.relays.map RelayDescriptor.unsigned ↔
        r ∈ (d.relays.insertionSort fun a b => a.nodeId ≤ b.nodeId).map RelayDescriptor.unsigned :=
    ((List.perm_insertionSort _ _).map _).mem_iff.symm
  exact ⟨hafter, huntil, fun r => by rw [hmem, hmem, hrelays]⟩

end ConsensusDocument

section Collision

/-- A character again and again. -/
@[irreducible] def repeated (n : ℕ) (c : Char) : String := String.ofList (List.replicate n c)

lemma utf8_repeated {c : Char} {octet : UInt8} (hc : utf8 (String.singleton c) = [octet]) (n : ℕ) :
    utf8 (repeated n c) = List.replicate n octet := by
  have hencode : String.utf8EncodeChar c = [octet] := by
    rw [utf8_eq_flatMap, String.toList_singleton, List.flatMap_singleton] at hc
    exact hc
  unfold repeated
  rw [utf8_ofList, List.flatMap_replicate, hencode, List.flatten_replicate_singleton]

/-- A descriptor of zeros. -/
def blankRelay (nodeId host : String) : RelayDescriptor :=
  ⟨nodeId, host, 0, List.replicate 32 0, List.replicate 32 0, false, 0, 0, []⟩

variable {host nodeId joined : String}

lemma fieldBytes_blankRelay : (blankRelay nodeId host).fieldBytes =
    toBe 4 (utf8 nodeId).length ++ (utf8 nodeId ++ (toBe 4 (utf8 host).length ++ (utf8 host ++
      List.replicate 83 0))) := by
  have hzeros : be16 0 ++ (List.replicate 32 0 ++ (List.replicate 32 0 ++ ([0] ++
      (be64 0 ++ be64 0)))) = List.replicate 83 0 := by
    decide
  simp only [RelayDescriptor.fieldBytes, blankRelay, List.append_assoc, Bool.false_eq_true,
    if_false, hzeros]

/-- Two relays, the first without an id. -/
def splitDocument (host nodeId : String) : ConsensusDocument :=
  ⟨0, 0, [blankRelay "" host, blankRelay nodeId ""], []⟩

def joinedDocument (joined : String) : ConsensusDocument := ⟨0, 0, [blankRelay joined ""], []⟩

lemma insertionSort_pair {a b : RelayDescriptor} (h : a.nodeId ≤ b.nodeId) :
    ([a, b].insertionSort fun a b => a.nodeId ≤ b.nodeId) = [a, b] := by
  simp [h]

lemma empty_le (s : String) : "" ≤ s := fun h => List.not_lt_nil _ h

/-- The id is written behind the length zero, and goes on with the rest of the first relay and
the start of the second. -/
structure Joins (host nodeId joined : String) : Prop where
  length : (utf8 joined).length = 2 ^ 32
  octets : utf8 joined = toBe 4 (utf8 host).length ++ (utf8 host ++ (List.replicate 83 0 ++
    (toBe 4 (utf8 nodeId).length ++ utf8 nodeId)))
  nodeId : nodeId ≠ ""

lemma utf8_empty : utf8 "" = [] := by decide +kernel

lemma Joins.contentBytes_eq (h : Joins host nodeId joined) :
    (splitDocument host nodeId).contentBytes = (joinedDocument joined).contentBytes := by
  have hcut : toBe 4 (2 ^ 32) = toBe 4 0 := by decide
  have hfields : (blankRelay joined "").fieldBytes =
      (blankRelay "" host).fieldBytes ++ (blankRelay nodeId "").fieldBytes := by
    rw [fieldBytes_blankRelay, fieldBytes_blankRelay, fieldBytes_blankRelay, h.length, hcut,
      h.octets, utf8_empty]
    simp only [List.length_nil, List.append_assoc, List.nil_append]
  simp only [ConsensusDocument.contentBytes, splitDocument, joinedDocument]
  rw [insertionSort_pair (empty_le _)]
  simp only [List.insertionSort_cons, List.insertionSort_nil, List.orderedInsert_nil,
    List.flatMap_cons, List.flatMap_nil, List.append_nil, hfields]

lemma Joins.distinctIds (h : Joins host nodeId joined) :
    (splitDocument host nodeId).DistinctIds ∧ (joinedDocument joined).DistinctIds := by
  have hne := h.nodeId.symm
  constructor
  · simpa [ConsensusDocument.DistinctIds, splitDocument, blankRelay] using hne
  · exact List.nodup_singleton _

lemma Joins.textsWithin (h : Joins host nodeId joined) :
    (splitDocument host nodeId).TextsWithin (2 ^ 32) ∧
      (joinedDocument joined).TextsWithin (2 ^ 32) := by
  have hlength := h.length
  have hparts := congrArg List.length h.octets
  simp only [List.length_append, length_toBe, List.length_replicate] at hparts
  have hempty : (utf8 "").length = 0 := by rw [utf8_empty, List.length_nil]
  have hblank {id text : String} (hid : (utf8 id).length ≤ 2 ^ 32)
      (htext : (utf8 text).length ≤ 2 ^ 32) : (blankRelay id text).KeysSized ∧
        (utf8 (blankRelay id text).nodeId).length ≤ 2 ^ 32 ∧
        (utf8 (blankRelay id text).host).length ≤ 2 ^ 32 :=
    ⟨⟨List.length_replicate, List.length_replicate⟩, hid, htext⟩
  constructor
  · intro r hr
    simp only [splitDocument, List.mem_cons, List.not_mem_nil, or_false] at hr
    rcases hr with rfl | rfl
    · exact hblank (by omega) (by omega)
    · exact hblank (by omega) (by omega)
  · intro r hr
    obtain rfl := List.mem_singleton.mp hr
    exact hblank (by omega) (by omega)

lemma Joins.not_sameContent (h : Joins host nodeId joined) :
    ¬(splitDocument host nodeId).SameContent (joinedDocument joined) := by
  rintro ⟨-, -, hrelays⟩
  have hfirst : (blankRelay "" host).unsigned ∈
      (splitDocument host nodeId).relays.map RelayDescriptor.unsigned :=
    List.mem_map_of_mem List.mem_cons_self
  obtain ⟨r, hr, heq⟩ := List.mem_map.mp ((hrelays _).mp hfirst)
  obtain rfl := List.mem_singleton.mp hr
  have hid : joined = "" := congrArg RelayDescriptor.nodeId heq
  have hlength := h.length
  rw [hid, utf8_empty, List.length_nil] at hlength
  omega

/-- The lengths of the two texts are themselves written in UTF-8. -/
def longHost : String := repeated 0xf4808080 'a'

def longId : String := repeated 0x0b7f7f25 'b'

def joinedId : String :=
  String.singleton (Char.ofNat 0x100000) ++ (longHost ++ (repeated 83 (Char.ofNat 0) ++
    ("\x0b\x7f\x7f%" ++ longId)))

lemma length_longHost : (utf8 longHost).length = 0xf4808080 := by
  have ha : utf8 (String.singleton 'a') = [97] := by decide +kernel
  rw [longHost, utf8_repeated ha, List.length_replicate]

lemma length_longId : (utf8 longId).length = 0x0b7f7f25 := by
  have hb : utf8 (String.singleton 'b') = [98] := by decide +kernel
  rw [longId, utf8_repeated hb, List.length_replicate]

lemma joins_joinedId : Joins longHost longId joinedId := by
  have hhost : utf8 (String.singleton (Char.ofNat 0x100000)) = toBe 4 0xf4808080 := by
    decide +kernel
  have hid : utf8 "\x0b\x7f\x7f%" = toBe 4 0x0b7f7f25 := by decide +kernel
  have hzeros : utf8 (repeated 83 (Char.ofNat 0)) = List.replicate 83 0 :=
    utf8_repeated (by decide +kernel) _
  have hoctets : utf8 joinedId = toBe 4 (utf8 longHost).length ++ (utf8 longHost ++
      (List.replicate 83 0 ++ (toBe 4 (utf8 longId).length ++ utf8 longId))) := by
    rw [joinedId, utf8_append, utf8_append, utf8_append, utf8_append, hhost, hid, hzeros,
      length_longHost, length_longId]
  refine ⟨?_, hoctets, ?_⟩
  · rw [hoctets, List.length_append, List.length_append, List.length_append, List.length_append,
      length_toBe, length_toBe, List.length_replicate, length_longHost, length_longId]
    norm_num
  · intro hempty
    have hlength := length_longId
    rw [hempty, utf8_empty, List.length_nil] at hlength
    omega

end Collision

/-- The octets do not depend on the order of the relays. They determine the times and the relays
as long as no text may have 2^32 octets, and no longer than that. -/
theorem ConsensusDocument.digest_octets_iff (bound : ℕ) :
    (∀ (d : ConsensusDocument) (relays : List RelayDescriptor), d.DistinctIds →
      relays.Perm d.relays → { d with relays }.contentBytes = d.contentBytes) ∧
    ((∀ d d' : ConsensusDocument, d.DistinctIds → d'.DistinctIds → d.TextsWithin bound →
      d'.TextsWithin bound → d.contentBytes = d'.contentBytes → d.SameContent d') ↔
        bound < 2 ^ 32) := by
  refine ⟨fun d relays hids hperm => ?_, fun h => ?_, fun hbound d d' _ _ ht ht' heq => ?_⟩
  · have heq : d.contentBytes = { d with relays }.contentBytes :=
      contentBytes_of_perm rfl rfl hperm.symm fun r hr r' hr' => List.inj_on_of_nodup_map hids hr hr'
    exact heq.symm
  · by_contra! hbound
    obtain ⟨hsplit, hjoined⟩ := joins_joinedId.textsWithin
    obtain ⟨hids, hids'⟩ := joins_joinedId.distinctIds
    refine joins_joinedId.not_sameContent (h _ _ hids hids' ?_ ?_ joins_joinedId.contentBytes_eq)
    · exact hsplit.mono hbound
    · exact hjoined.mono hbound
  · exact sameContent_of_contentBytes hbound ht ht' heq

/-- One relay whose id contains another relay. -/
theorem ConsensusDocument.long_id_collides :
    ∃ d d' : ConsensusDocument, d.DistinctIds ∧ d'.DistinctIds ∧ d.TextsWithin (2 ^ 32) ∧
      d'.TextsWithin (2 ^ 32) ∧ d.contentBytes = d'.contentBytes ∧ d.relays.length = 2 ∧
      d'.relays.length = 1 :=
  ⟨splitDocument longHost longId, joinedDocument joinedId, joins_joinedId.distinctIds.1,
    joins_joinedId.distinctIds.2, joins_joinedId.textsWithin.1, joins_joinedId.textsWithin.2,
    joins_joinedId.contentBytes_eq, rfl, rfl⟩

end AnonGuard
