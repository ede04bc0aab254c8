import AnonGuard.ChainSelection

/-!
# What a returned chain guarantees

A directory lists every node under its own endpoint. A chain that is selected from it
consists of different nodes then, as long as the entry is one of them, or is not in the
directory at all. A private bridge is kept out of the rest of its chain by a comparison of
texts: the address of the bridge as the standard library writes it, and the host of a node
as the URL parser has written it. The two differ for some addresses, and with the diversity
rule off a chain can then return to its entry.
-/
namespace AnonGuard

/-- Where a node is reached. -/
def ProxyNode.endpoint (n : ProxyNode) : String × UInt16 := (n.host, n.port)

namespace Pool

/-- The nodes stand under their own endpoints, each one once, and none without pins. -/
structure Listed (p : Pool) : Prop where
  keyed : ∀ entry ∈ p.nodes, entry.1 = entry.2.key
  distinct : (p.nodes.map Prod.fst).Nodup
  pinned : p.identityKeys = [] → p.nodes = []

/-- The nodes of the directory. -/
def directory (p : Pool) : List ProxyNode := p.nodes.map Prod.snd

/-- What the caller of a selection may rely on. -/
structure SoundChain (E : PoolEnv) (p : Pool) (enforceDiversity : Bool) (minHops maxHops : ℕ)
    (IsEntry : ProxyNode → Prop) (chain : List ProxyNode) : Prop where
  length : minHops ≤ chain.length ∧ chain.length ≤ maxHops
  endpoints : (chain.map ProxyNode.endpoint).Nodup
  shape : ∃ entry between exit, chain = entry :: between ++ [exit] ∧ IsEntry entry ∧
    (∀ n ∈ between, n ∈ p.directory ∧ n.isExit = false) ∧
    exit ∈ p.directory ∧ exit.isExit = true
  diverse : enforceDiversity = true →
    validateCircuitDiversity E.toDirectoryEnv (chain.map (·.host)) = .ok ()

section Listed
variable {E : PoolEnv} {p : Pool} {relays : List RelayDescriptor}

lemma Listed.endpoints (h : p.Listed) : (p.directory.map ProxyNode.endpoint).Nodup := by
  have hkeys : (p.directory.map ProxyNode.endpoint).map (fun e => endpointKey e.1 e.2) =
      p.nodes.map Prod.fst := by
    rw [directory, List.map_map, List.map_map]
    exact List.map_congr_left fun entry hentry => (h.keyed entry hentry).symm
  refine List.Nodup.of_map (fun e => endpointKey e.1 e.2) ?_
  rw [hkeys]
  exact h.distinct

lemma key_eq_of_publishes {nodes : List (String × ProxyNode)}
    {pins : List (String × Bytes)} (h : Publishes E relays nodes pins) :
    ∀ entry ∈ nodes, entry.1 = entry.2.key := by
  have hlisted := h.listed
  clear h
  induction hlisted with
  | nil => simp
  | cons hhead _ ih =>
    obtain ⟨node, -, -, rfl⟩ := hhead
    exact List.forall_mem_cons.mpr ⟨rfl, ih⟩

lemma listed_of_publishes (hne : p.nodes ≠ [])
    (h : Publishes E relays p.nodes p.identityKeys) : p.Listed := by
  refine ⟨key_eq_of_publishes h, h.distinctEndpoints, fun hempty => ?_⟩
  · have hlength := h.listed.length_eq.symm.trans h.pinned.length_eq
    rw [hempty, List.length_nil, List.length_eq_zero_iff] at hlength
    exact absurd hlength hne

/-- A chain of different nodes of the directory, and an entry that is none of them. -/
lemma nodup_endpoints {nodes between : List ProxyNode} {entry exit : ProxyNode}
    (hnodes : (nodes.map ProxyNode.endpoint).Nodup) (hbetween : between.Subperm nodes)
    (hmiddle : ∀ n ∈ between, n.isExit = false) (hexit : exit ∈ nodes) (hisExit : exit.isExit = true)
    (hentry : ∀ n ∈ between ++ [exit], n.endpoint ≠ entry.endpoint) :
    ((entry :: between ++ [exit]).map ProxyNode.endpoint).Nodup := by
  have hmiddles : (between.map ProxyNode.endpoint).Nodup := by
    obtain ⟨l, hperm, hsub⟩ := hbetween
    exact (hperm.map _).nodup_iff.mp (hnodes.sublist (hsub.map _))
  rw [List.cons_append, List.map_cons, List.nodup_cons, List.map_append, List.nodup_append']
  refine ⟨?_, hmiddles, by simp, ?_⟩
  · rw [← List.map_append, List.mem_map]
    rintro ⟨n, hn, heq⟩
    exact hentry n hn heq
  · intro e he hlast
    obtain ⟨n, hn, rfl⟩ := List.mem_map.mp he
    have hsame : n = exit := List.inj_on_of_nodup_map hnodes (hbetween.subset hn) hexit
      (by simpa using hlast)
    have := hmiddle n hn
    rw [hsame, hisExit] at this
    cases this

end Listed

variable {n : ProxyNode}

section Public
variable {E : PoolEnv} {p : Pool} {file : Option GuardState} {req : ChainRequest} {now : UInt64}
  {instant : ℕ} {rand : Randomness} {write : WriteResult} {sel : Selection}

/-- A stored guard of the directory that the selection may use. -/
def IsPublicEntry (p : Pool) (req : ChainRequest) (instant : ℕ) (state : GuardState)
    (entry : ProxyNode) : Prop :=
  ∃ pin ∈ state.pins, p.identityKeys.lookup entry.key = some pin ∧
    p.offCooldown instant pin = true ∧ (req.entryPins ≠ [] → pin ∈ req.entryPins)

/-- A chain of two hops or more comes from a guard that has been picked. -/
lemma picksGuard_of_chain (hexit : req.requireExitAtLast = true) (hmin : 2 ≤ req.minHops)
    (hsel : p.getOnionChainWithEntryPins E file req now instant rand write = sel)
    (hne : sel.chain ≠ []) :
    p.directoryExpired now = false ∧ ∃ guard, p.PicksGuard file req instant rand.middles write guard ∧
      sel.guardState = (p.publicGuards file req instant rand.middles write).2.1 := by
  unfold getOnionChainWithEntryPins onionChain at hsel
  dsimp only at hsel
  simp only [hexit, if_true, true_and] at hsel
  rw [show (p.healthy instant).filter (·.isExit) = p.exits instant from rfl,
    show (p.healthy instant).filter (!·.isExit) = p.relays instant from rfl] at hsel
  split_ifs at hsel with hexpired hsize hexits hceiling hzero
  · exact absurd (congrArg Selection.chain hsel.symm) hne
  · exact absurd (congrArg Selection.chain hsel.symm) hne
  · exact absurd (congrArg Selection.chain hsel.symm) hne
  · exact absurd (congrArg Selection.chain hsel.symm) hne
  · omega
  · refine ⟨Bool.eq_false_of_not_eq_true hexpired, ?_⟩
    unfold guardedChain at hsel
    rw [show p.saveGuards file (p.newGuards req.entryPins (rand.middles.order (p.relays instant)))
      write = p.publicGuards file req instant rand.middles write from rfl] at hsel
    cases hguards : p.publicGuards file req instant rand.middles write with
    | mk saved rest =>
      cases saved with
      | false =>
        rw [hguards] at hsel
        exact absurd (congrArg Selection.chain hsel.symm) hne
      | true =>
        rw [hguards] at hsel
        dsimp only at hsel
        cases hpicked : p.entryGuard req.entryPins rest.1 (rand.middles.order (p.relays instant)) with
        | none =>
          rw [hpicked] at hsel
          exact absurd (congrArg Selection.chain hsel.symm) hne
        | some guard =>
          rw [hpicked] at hsel
          refine ⟨guard, ⟨by omega, ⟨hexits, by omega⟩, by rw [hguards], by rw [hguards]; exact hpicked⟩, ?_⟩
          rw [← hsel]

/-- What a selection makes of its guard. -/
lemma completeChain_cases {exitNodes middles chain : List ProxyNode} {guard : ProxyNode}
    {middleCount : ℕ} (hexit : req.requireExitAtLast = true) (hmin : 2 ≤ req.minHops)
    (hcount : 1 ≤ middleCount)
    (hchain : completeChain E req exitNodes middles [guard] middleCount rand = chain)
    (hne : chain ≠ []) :
    ∃ exit ∈ exitNodes, Links E req.enforceDiversity guard middles exit chain ∧
      req.minHops ≤ chain.length ∧ chain.length ≤ middleCount + 1 := by
  unfold completeChain at hchain
  rw [reserveExit_eq hexit] at hchain
  cases hdrawn : drawnExit E req exitNodes guard rand with
  | none =>
    rw [hdrawn] at hchain
    exact absurd hchain.symm hne
  | some exit =>
    obtain ⟨hmem, hpair⟩ := diverse_of_drawnExit hdrawn
    have hbound : (fillMiddles E req.enforceDiversity (· ≥ middleCount) (some exit) [guard]
        middles).length ≤ middleCount :=
      length_fillMiddles_le middles hcount (by simp)
    have hone : (some exit).toList.length = 1 := rfl
    rw [hdrawn] at hchain
    dsimp only [Option.map_some] at hchain
    split_ifs at hchain with hshort
    · exact absurd hchain.symm hne
    · subst hchain
      obtain ⟨hlow, hhigh⟩ := genRange_mem (Nat.le_of_not_lt hshort) rand.pick
      refine ⟨exit, hmem, links_of_fillMiddles (hmin.trans hlow) hpair, ?_, ?_⟩
      · simp only [List.length_append, List.length_take]
        omega
      · simp only [List.length_append, List.length_take]
        omega

lemma mem_healthy (h : n ∈ p.healthy instant) :
    n ∈ p.directory ∧ ∀ pin, p.identityKeys.lookup n.key = some pin → p.offCooldown instant pin = true := by
  obtain ⟨hmem, htest⟩ := List.mem_filter.mp h
  rw [Bool.and_eq_true] at htest
  refine ⟨hmem, fun pin hpin => ?_⟩
  simpa [hpin] using htest.2

lemma isExit_of_mem_relays (h : n ∈ p.relays instant) : n.isExit = false := by
  simpa using (List.mem_filter.mp h).2

lemma isPublicEntry_of_entryGuard (hlisted : p.Listed) {state : GuardState} {guard : ProxyNode}
    (h : p.entryGuard req.entryPins state (rand.middles.order (p.relays instant)) = some guard) :
    p.IsPublicEntry req instant state guard := by
  have hguard := mem_healthy (List.mem_of_mem_filter (mem_relays_of_picked h))
  have hkeys : p.identityKeys ≠ [] := by
    intro hempty
    have hmem := hguard.1
    rw [directory, hlisted.pinned hempty] at hmem
    cases hmem
  obtain ⟨pin, hpin, hlookup, hallowed⟩ := pin_of_entryGuard (absurd · hkeys) h
  exact ⟨pin, hpin, hlookup, hguard.2 pin hlookup, hallowed⟩

/-- The public selection returns sound chains only. -/
lemma soundChain_public (hlisted : p.Listed) (hexit : req.requireExitAtLast = true)
    (hmin : 2 ≤ req.minHops)
    (hsel : p.getOnionChainWithEntryPins E file req now instant rand write = sel)
    (hne : sel.chain ≠ []) :
    p.SoundChain E req.enforceDiversity req.minHops req.maxHops
      (p.IsPublicEntry req instant sel.guardState) sel.chain := by
  obtain ⟨hcurrent, guard, hpicks, hstate⟩ := picksGuard_of_chain hexit hmin hsel hne
  have hguard : guard ∈ p.relays instant := mem_relays_of_picked hpicks.picked
  have hchain := hpicks.chain_eq (E := E) hexit hcurrent
  rw [hsel] at hchain
  have hpos : 0 < (p.relays instant).length := List.length_pos_of_mem hguard
  obtain ⟨hbounds, -, -, hpicked⟩ := hpicks
  obtain ⟨exit, hexitMem, ⟨⟨between, hbetween, hshape⟩, hdiverse⟩, hlow, hhigh⟩ :=
    completeChain_cases hexit hmin (by omega) hchain.symm hne
  obtain ⟨hexitHealthy, hisExit⟩ := List.mem_filter.mp hexitMem
  have hmiddle : ∀ n ∈ between, n ∈ p.relays instant ∧ n.endpoint ≠ guard.endpoint := by
    intro n hn
    obtain ⟨hmem, htest⟩ := List.mem_filter.mp (hbetween.subset hn)
    refine ⟨rand.middles.mem_order.mp hmem, fun heq => ?_⟩
    simp only [ProxyNode.endpoint, Prod.mk.injEq] at heq
    simp [heq] at htest
  have hrelays : (p.relays instant).Sublist p.directory :=
    List.filter_sublist.trans List.filter_sublist
  have hsubperm : between.Subperm p.directory :=
    ((hbetween.trans List.filter_sublist).subperm.trans (rand.middles.perm _).subperm).trans
      hrelays.subperm
  have hexitListed := (mem_healthy hexitHealthy).1
  refine ⟨⟨hlow, by omega⟩, ?_, ⟨guard, between, exit, hshape, ?_, fun n hn => ?_, hexitListed,
    hisExit⟩, fun henforce => ?_⟩
  · rw [hshape]
    refine nodup_endpoints hlisted.endpoints hsubperm
      (fun n hn => isExit_of_mem_relays (hmiddle n hn).1) hexitListed hisExit fun n hn => ?_
    rcases List.mem_append.mp hn with hn | hn
    · exact (hmiddle n hn).2
    · rw [List.mem_singleton.mp hn]
      intro heq
      have hsame := List.inj_on_of_nodup_map hlisted.endpoints hexitListed (hrelays.subset hguard) heq
      rw [hsame, isExit_of_mem_relays hguard] at hisExit
      cases hisExit
  · rw [hstate]
    exact isPublicEntry_of_entryGuard hlisted hpicked
  · exact ⟨hrelays.subset (hmiddle n hn).1, isExit_of_mem_relays (hmiddle n hn).1⟩
  · exact (validateCircuitDiversity_eq_ok _ _).mpr (diverse_iff.mp hdiverse henforce)

end Public

section Bridges
variable {E : PoolEnv} {p : Pool} {file : Option GuardState} {bindings : List BridgeTransport}
  {enforceDiversity : Bool} {minHops maxHops : ℕ} {now : UInt64} {instant : ℕ} {rand : Randomness}
  {write : WriteResult} {sel : Selection} {entry : ProxyNode}

/-- The node of a binding that is a stored guard. -/
def IsBridgeEntry (E : PoolEnv) (p : Pool) (bindings : List BridgeTransport) (instant : ℕ)
    (state : GuardState) (entry : ProxyNode) : Prop :=
  ∃ b ∈ bindings, b.entryNode E = .ok entry ∧ b.endpoint E.toDirectoryEnv ∈ state.guards ∧
    state.identities[b.endpoint E.toDirectoryEnv]? = some b.identity ∧
    p.offCooldown instant b.identity = true

/-- A candidate has the endpoint of the entry, and a chain exists. -/
def EntryRelisted (E : PoolEnv) (p : Pool) (file : Option GuardState)
    (bindings : List BridgeTransport) (minHops maxHops : ℕ) (now : UInt64) (instant : ℕ)
    (write : WriteResult) : Prop :=
  ∃ b entry, p.ChoosesBinding E file bindings minHops maxHops now instant write b ∧
    b.entryNode E = .ok entry ∧
    (∃ exit ∈ p.bridgeCandidates E bindings, exit.isExit = true) ∧
    minHops ≤ ((p.bridgeCandidates E bindings).filter (!·.isExit)).length + 2 ∧
    ∃ n ∈ p.bridgeCandidates E bindings, n.endpoint = entry.endpoint

lemma choosesBinding_of_chain
    (hsel : p.getPrivateBridgeChainWithBounds E file bindings enforceDiversity minHops maxHops now
      instant rand write = sel) (hne : sel.chain ≠ []) :
    ∃ b entry, p.ChoosesBinding E file bindings minHops maxHops now instant write b ∧
      b.entryNode E = .ok entry ∧
      sel.guardState = (p.bridgeGuards E file bindings write).2.1 ∧
      sel.chain = bridgeHops E enforceDiversity minHops maxHops entry
        (rand.middles.order (p.bridgeCandidates E bindings)) rand.pick := by
  unfold getPrivateBridgeChainWithBounds at hsel
  dsimp only at hsel
  rw [show p.saveGuards file ((bindings.take 3).foldl (addBridge E.toDirectoryEnv) p.guardState)
    write = p.bridgeGuards E file bindings write from rfl] at hsel
  split_ifs at hsel with hbounds hunusable
  · exact absurd (congrArg Selection.chain hsel.symm) hne
  · exact absurd (congrArg Selection.chain hsel.symm) hne
  · cases hguards : p.bridgeGuards E file bindings write with
    | mk saved rest =>
      rw [hguards] at hsel
      cases saved with
      | false => exact absurd (congrArg Selection.chain hsel.symm) hne
      | true =>
        dsimp only at hsel
        cases hchosen : p.entryBinding E bindings rest.1 instant with
        | none =>
          rw [hchosen] at hsel
          exact absurd (congrArg Selection.chain hsel.symm) hne
        | some b =>
          rw [hchosen] at hsel
          dsimp only at hsel
          cases hentry : b.entryNode E with
          | error =>
            rw [hentry] at hsel
            exact absurd (congrArg Selection.chain hsel.symm) hne
          | ok entry =>
            rw [hentry] at hsel
            simp only [List.any_eq_true, decide_eq_true_eq, not_or, not_exists, not_and,
              Bool.not_eq_true] at hunusable
            exact ⟨b, entry, ⟨by omega, hunusable.2.1, hunusable.2.2, by rw [hguards],
              by rw [hguards]; exact hchosen⟩, hentry, by rw [← hsel], by rw [← hsel]⟩

lemma isBridgeEntry_of_entryBinding {state : GuardState} {b : BridgeTransport}
    (h : p.entryBinding E bindings state instant = some b) (hentry : b.entryNode E = .ok entry) :
    p.IsBridgeEntry E bindings instant state entry := by
  obtain ⟨hb, hstored⟩ := stored_of_entryBinding h
  exact ⟨b, hb, hentry, hstored⟩

/-- Different networks belong to different hosts. -/
lemma endpoint_ne_of_diverseNodes {rest : List ProxyNode}
    (h : DiverseNodes E true (entry :: rest)) (hn : n ∈ rest) :
    n.endpoint ≠ entry.endpoint := by
  obtain ⟨-, hnodup⟩ := diverse_iff.mp h rfl
  rw [List.map_cons, List.map_cons, List.nodup_cons] at hnodup
  intro heq
  have hhost : n.host = entry.host := congrArg Prod.fst heq
  exact hnodup.1 (hhost ▸ List.mem_map_of_mem (List.mem_map_of_mem hn))

/-- The search through a bridge returns a sound chain, unless it leads back to the entry. -/
lemma soundChain_bridge (hlisted : p.Listed)
    (hsel : p.getPrivateBridgeChainWithBounds E file bindings enforceDiversity minHops maxHops now
      instant rand write = sel) (hne : sel.chain ≠ []) (hentry : enforceDiversity = true ∨
      ¬p.EntryRelisted E file bindings minHops maxHops now instant write) :
    p.SoundChain E enforceDiversity minHops maxHops
      (p.IsBridgeEntry E bindings instant sel.guardState) sel.chain := by
  obtain ⟨b, entry, hchooses, hnode, hstate, hchain⟩ := choosesBinding_of_chain hsel hne
  obtain ⟨hmin, hmax, -⟩ := hchooses.bounds
  obtain ⟨exit, hexit, hisExit, ⟨⟨between, hbetween, hshape⟩, hdiverse⟩, hlow, hhigh⟩ :=
    bridgeHops_cases (by omega) hchain.symm hne
  rw [rand.middles.mem_order] at hexit
  have hcandidates : (p.bridgeCandidates E bindings).Sublist p.directory := List.filter_sublist
  have hmiddle : ∀ n ∈ between, n ∈ p.bridgeCandidates E bindings ∧ n.isExit = false := by
    intro n hn
    obtain ⟨hmem, htest⟩ := List.mem_filter.mp (hbetween.subset hn)
    exact ⟨rand.middles.mem_order.mp hmem, by simpa using htest⟩
  have hsubperm : between.Subperm p.directory :=
    ((hbetween.trans List.filter_sublist).subperm.trans (rand.middles.perm _).subperm).trans
      hcandidates.subperm
  refine ⟨⟨hlow, hhigh⟩, ?_, ⟨entry, between, exit, hshape, ?_, fun n hn => ?_,
    hcandidates.subset hexit, hisExit⟩, fun henforce => ?_⟩
  · rw [hshape]
    refine nodup_endpoints hlisted.endpoints hsubperm (fun n hn => (hmiddle n hn).2)
      (hcandidates.subset hexit) hisExit fun n hn => ?_
    rcases hentry with henforce | hrelisted
    · rw [hshape, henforce] at hdiverse
      exact endpoint_ne_of_diverseNodes hdiverse hn
    · have hmem : n ∈ p.bridgeCandidates E bindings := by
        rcases List.mem_append.mp hn with hn | hn
        · exact (hmiddle n hn).1
        · rwa [List.mem_singleton.mp hn]
      intro heq
      refine hrelisted ⟨b, entry, hchooses, hnode, ⟨exit, hexit, hisExit⟩, ?_, n, hmem, heq⟩
      have hcount := hbetween.length_le
      rw [((rand.middles.perm _).filter _).length_eq] at hcount
      rw [hshape] at hlow
      simp only [List.length_append, List.length_cons, List.length_nil] at hlow
      omega
  · rw [hstate]
    exact isBridgeEntry_of_entryBinding hchooses.chosen hnode
  · exact ⟨hcandidates.subset (hmiddle n hn).1, (hmiddle n hn).2⟩
  · exact (validateCircuitDiversity_eq_ok _ _).mpr (diverse_iff.mp hdiverse henforce)

/-- Without the rule, the exit has no influence on what is filled in. -/
lemma fillMiddles_unruled {full : ℕ → Bool} (exit exit' : Option ProxyNode)
    (selected middles : List ProxyNode) :
    fillMiddles E false full exit selected middles =
      fillMiddles E false full exit' selected middles := by
  rw [fillMiddles_eq_fill, fillMiddles_eq_fill]
  rfl

/-- Without the rule, the search ends with its first exit. -/
lemma bridgeHops_unruled {candidates : List ProxyNode} {pick : ℕ}
    (hne : bridgeHops E false minHops maxHops entry candidates pick ≠ []) :
    ∃ exit exits ceiling length, candidates.filter (·.isExit) = exit :: exits ∧
      minHops ≤ ceiling ∧ minHops ≤ length ∧
      bridgeHops E false minHops maxHops entry candidates pick =
        (fillMiddles E false (· == ceiling - 1) (some exit) [entry]
          (candidates.filter (!·.isExit))).take (length - 1) ++ [exit] := by
  unfold bridgeHops at hne ⊢
  dsimp only at hne ⊢
  generalize candidates.filter (!·.isExit) = middles at hne ⊢
  split_ifs at hne ⊢ with hceiling
  · exact absurd rfl hne
  cases hexits : candidates.filter (·.isExit) with
  | nil =>
    rw [hexits] at hne
    exact absurd rfl hne
  | cons exit exits =>
    rw [hexits, List.findSome?_cons] at hne
    rw [List.findSome?_cons]
    have hrule (other : ProxyNode) :
        diverse E.toDirectoryEnv false [entry.host, other.host] = true := rfl
    simp only [hrule, Bool.true_eq_false, if_false] at hne ⊢
    by_cases hlong : (fillMiddles E false (· == min maxHops (middles.length + 2) - 1) (some exit)
        [entry] middles).length + 1 ≥ minHops
    · rw [if_pos hlong]
      exact ⟨exit, exits, _, _, rfl, by omega, (genRange_mem hlong pick).1, rfl⟩
    · rw [if_neg hlong] at hne
      dsimp only at hne
      cases hfind : List.findSome? _ exits with
      | none =>
        rw [hfind] at hne
        exact absurd rfl hne
      | some =>
        obtain ⟨other, -, hother⟩ := List.exists_of_findSome?_eq_some hfind
        rw [fillMiddles_unruled (some other) (some exit), if_neg hlong] at hother
        cases hother

/-- Without the rule, a candidate that comes first is in the chain. -/
lemma mem_bridgeHops_first {entry n : ProxyNode} {rest : List ProxyNode} {pick : ℕ} (hmin : 3 ≤ minHops)
    (hne : bridgeHops E false minHops maxHops entry (n :: rest) pick ≠ []) :
    ∃ tail, bridgeHops E false minHops maxHops entry (n :: rest) pick = entry :: tail ∧
      n ∈ tail := by
  obtain ⟨exit, exits, ceiling, length, hexits, hceiling, hlength, hchain⟩ := bridgeHops_unruled hne
  obtain ⟨k, rfl⟩ := Nat.exists_eq_add_of_le' (hmin.trans hlength)
  rw [hchain]
  cases hexit : n.isExit with
  | true =>
    rw [List.filter_cons_of_pos hexit] at hexits
    obtain ⟨rfl, -⟩ := List.cons.inj hexits
    rw [fillMiddles_eq_fill]
    obtain ⟨taken, -, htaken⟩ := Greedy.exists_fill_eq [entry] ((n :: rest).filter (!·.isExit))
    rw [htaken]
    exact ⟨taken.take (k + 1) ++ [n], rfl, by simp⟩
  | false =>
    have hroom : (1 == ceiling - 1) = false := beq_eq_false_iff_ne.mpr (by omega)
    have hfill : Greedy.fill (fitsChain E false (some exit)) (· == ceiling - 1) [entry]
        (n :: rest.filter (!·.isExit)) =
          Greedy.fill (fitsChain E false (some exit)) (· == ceiling - 1) [entry, n]
            (rest.filter (!·.isExit)) := by
      have hfits : fitsChain E false (some exit) [entry] n = true := rfl
      rw [Greedy.fill, if_neg (by simp [hroom]), if_pos hfits]
      rfl
    rw [List.filter_cons_of_pos (by simp [hexit]), fillMiddles_eq_fill, hfill]
    obtain ⟨taken, -, htaken⟩ := Greedy.exists_fill_eq [entry, n] (rest.filter (!·.isExit))
    rw [htaken]
    exact ⟨n :: taken.take k ++ [exit], rfl, by simp⟩

/-- All chains through a bridge are sound exactly if the rule is on or the entry is not in the
directory too. -/
lemma soundChain_bridge_iff (hlisted : p.Listed) :
    (∀ rand sel, p.getPrivateBridgeChainWithBounds E file bindings enforceDiversity minHops maxHops
        now instant rand write = sel → sel.chain ≠ [] →
      p.SoundChain E enforceDiversity minHops maxHops
        (p.IsBridgeEntry E bindings instant sel.guardState) sel.chain) ↔
      (enforceDiversity = true ∨
        ¬p.EntryRelisted E file bindings minHops maxHops now instant write) := by
  refine ⟨fun hsound => ?_, fun h rand sel hsel hne => soundChain_bridge hlisted hsel hne h⟩
  rw [or_iff_not_imp_left, Bool.not_eq_true]
  rintro rfl ⟨b, entry, hchooses, hnode, ⟨exit, hexit, hisExit⟩, hcount, n, hmem, heq⟩
  obtain ⟨hmin, hmax, -⟩ := hchooses.bounds
  -- the random order that puts the relisted node first
  have hchain : (p.getPrivateBridgeChainWithBounds E file bindings false minHops maxHops now instant
      ⟨.startingWith n, .listed _, 0⟩ write).chain = _ := hchooses.chain_eq
  rw [hnode] at hchain
  dsimp only at hchain
  have hpath : PathExists E false minHops entry
      ((HashOrder.startingWith n).order (p.bridgeCandidates E bindings)) := by
    rw [pathExists_perm ((HashOrder.startingWith n).perm _)]
    exact ⟨exit, hexit, hisExit, _, .refl _, by omega, rfl⟩
  have hne : bridgeHops E false minHops maxHops entry
      ((HashOrder.startingWith n).order (p.bridgeCandidates E bindings)) 0 ≠ [] :=
    (bridgeHops_ne_nil_iff (by omega) hmax).mpr hpath
  rw [HashOrder.order_startingWith hmem] at hne hchain
  obtain ⟨tail, htail, hn⟩ := mem_bridgeHops_first hmin hne
  have hendpoints := (hsound _ _ rfl (by rw [hchain]; exact hne)).endpoints
  rw [hchain, htail, List.map_cons, List.nodup_cons, ← heq] at hendpoints
  exact hendpoints.1 (List.mem_map_of_mem hn)

end Bridges

end Pool

namespace PoolState
variable {E : PoolEnv} {s s' : PoolState} {i : PoolInput}

/-- A running pool lists its nodes under their endpoints. -/
def ListsNodes (s : PoolState) : Prop := ∀ p, s.running = some p → p.Listed

lemma keys_markBlocked (url : String) (nodes : List (String × ProxyNode)) :
    (Pool.markBlocked url nodes).map (fun entry => (entry.1, entry.2.key)) =
      nodes.map fun entry => (entry.1, entry.2.key) := by
  induction nodes with
  | nil => rfl
  | cons entry rest ih =>
    unfold Pool.markBlocked
    split_ifs
    · rfl
    · rw [List.map_cons, List.map_cons, ih]

lemma listed_markBlocked {p : Pool} (h : p.Listed) (url : String) :
    Pool.Listed { p with nodes := Pool.markBlocked url p.nodes } := by
  have hkeys := keys_markBlocked url p.nodes
  have hfst := congrArg (List.map Prod.fst) hkeys
  rw [List.map_map, List.map_map] at hfst
  refine ⟨fun entry hentry => ?_, ?_, fun hempty => ?_⟩
  · have hmem : (entry.1, entry.2.key) ∈ p.nodes.map fun entry => (entry.1, entry.2.key) :=
      hkeys ▸ List.mem_map_of_mem hentry
    obtain ⟨old, hold, heq⟩ := List.mem_map.mp hmem
    obtain ⟨hkey, hnode⟩ := Prod.mk.inj heq
    rw [← hkey, ← hnode]
    exact h.keyed old hold
  · have hdistinct := h.distinct
    rwa [show p.nodes.map Prod.fst = _ from hfst.symm] at hdistinct
  · exact Pool.markBlocked_eq_nil.mpr (h.pinned hempty)

lemma ListsNodes.step (hs : s.ListsNodes) (h : step E s i = some s') : s'.ListsNodes := by
  cases i with
  | start =>
    obtain ⟨-, rfl | rfl⟩ := start_cases h
    · exact hs
    · intro q hq
      obtain rfl := Option.some.inj hq
      exact ⟨by simp [Pool.withRevokedIdentities, Pool.new], List.nodup_nil, fun _ => rfl⟩
  | crash =>
    cases h
    intro q hq
    cases hq
  | load docs authorities threshold now order write =>
    obtain ⟨p, hp, rfl⟩ := Option.map_eq_some_iff.mp h
    intro q hq
    obtain rfl := Option.some.inj hq
    obtain ⟨e, -, hpool, -⟩ | ⟨selected, staged, hprepare, -, hpool, -⟩ :=
      Pool.load_cases E p s.snapshotFile docs authorities threshold now order write rfl
    · rw [hpool]
      exact hs p hp
    · rw [hpool]
      obtain ⟨-, -, hstage, hne⟩ := Pool.prepareLoad_eq_ok_iff.mp hprepare
      exact Pool.listed_of_publishes hne (Pool.publishes_of_stage hstage)
  | selectPublic | selectBridge | linkFailure =>
    obtain ⟨p, hp, rfl⟩ := Option.map_eq_some_iff.mp h
    intro q hq
    obtain rfl := Option.some.inj hq
    obtain ⟨hkeyed, hdistinct, hpinned⟩ := hs p hp
    exact ⟨hkeyed, hdistinct, hpinned⟩
  | blocked url =>
    obtain ⟨p, hp, rfl⟩ := Option.map_eq_some_iff.mp h
    intro q hq
    obtain rfl := Option.some.inj hq
    exact listed_markBlocked (hs p hp) url

/-- In every run, public chains are sound, and chains through bridges are, as long as the rule
is on or the entry is not in the directory too. -/
theorem chains_sound_iff {snapshotFile : Option AcceptedSnapshot} {guardFile : Option GuardState}
    {p : Pool} (h : Run (step E) (stopped snapshotFile guardFile) s) (hp : s.running = some p) :
    (∀ req now instant rand write sel, req.requireExitAtLast = true → 3 ≤ req.minHops →
      req.minHops ≤ req.maxHops → req.maxHops ≤ 8 →
      p.getOnionChainWithEntryPins E s.guardFile req now instant rand write = sel → sel.chain ≠ [] →
      p.SoundChain E req.enforceDiversity req.minHops req.maxHops
        (p.IsPublicEntry req instant sel.guardState) sel.chain) ∧
    ∀ bindings enforceDiversity minHops maxHops now instant write, 3 ≤ minHops → minHops ≤ maxHops →
      maxHops ≤ 8 →
      ((∀ rand sel, p.getPrivateBridgeChainWithBounds E s.guardFile bindings enforceDiversity minHops
          maxHops now instant rand write = sel → sel.chain ≠ [] →
        p.SoundChain E enforceDiversity minHops maxHops
          (p.IsBridgeEntry E bindings instant sel.guardState) sel.chain) ↔
        (enforceDiversity = true ∨
          ¬p.EntryRelisted E s.guardFile bindings minHops maxHops now instant write)) := by
  have hlisted : p.Listed := by
    have hinvariant : s.ListsNodes :=
      h.invariant (fun _ hrunning => by cases hrunning) fun _ _ _ hs _ hstep => hs.step hstep
    exact hinvariant p hp
  refine ⟨fun req now instant rand write sel hexit hmin _ _ hsel hne =>
    Pool.soundChain_public hlisted hexit (by omega) hsel hne, ?_⟩
  intro bindings enforceDiversity minHops maxHops now instant write _ _ _
  exact Pool.soundChain_bridge_iff hlisted

section Sample

/-- A relay at a host that the key `n` has signed. -/
def relayOn (n : UInt8) (host : String) (isExit : Bool) : RelayDescriptor :=
  let r : RelayDescriptor := ⟨"relay-" ++ toString n, host, 9001, [n],
    (sampleKey n).verifyingKey, isExit, 1000, 1000, []⟩
  { r with signature := (sampleKey n).sign r.computeSigningBytes }

/-- A client with a relay in its directory that has the address of a bridge. -/
def relistingClient : PoolState :=
  (runInputs (step urlPool) (stopped none none) [.start [] none none,
    .load [Pool.sampleDirectory 900 [relayOn 1 "::ffff:1.2.3.4" false, relayOn 2 "2.1.0.1" true,
      relayOn 3 "3.1.0.1" false]] Pool.twoAuthorities 2 1000 (.listed _) .done]).getD
    (stopped none none)

def mappedBridge : BridgeTransport :=
  ⟨[9], .v6 (List.replicate 10 0 ++ [0xff, 0xff, 1, 2, 3, 4]), 9001⟩

/-- A selection through the bridge in which the relay comes first. -/
def mappedSelection (enforceDiversity : Bool) (p : Pool) : Selection :=
  p.getPrivateBridgeChainWithBounds urlPool relistingClient.guardFile [mappedBridge] enforceDiversity
    3 3 1000 0 ⟨.listed _, .listed _, 0⟩ .done

lemma relistingClient_selects :
    ∃ p, relistingClient.running = some p ∧
      (mappedSelection false p).chain.map ProxyNode.endpoint =
        [("::ffff:102:304", 9001), ("::ffff:102:304", 9001), ("2.1.0.1", 9001)] ∧
      (mappedSelection true p).chain.map (·.host) = ["::ffff:102:304", "3.1.0.1", "2.1.0.1"] := by
  have hselects : (relistingClient.running.map fun p =>
      ((mappedSelection false p).chain.map ProxyNode.endpoint,
        (mappedSelection true p).chain.map (·.host))) =
      some ([("::ffff:102:304", 9001), ("::ffff:102:304", 9001), ("2.1.0.1", 9001)],
        ["::ffff:102:304", "3.1.0.1", "2.1.0.1"]) := by
    decide +kernel
  obtain ⟨p, hp, hchains⟩ := Option.map_eq_some_iff.mp hselects
  obtain ⟨hoff, hon⟩ := Prod.mk.inj hchains
  exact ⟨p, hp, hoff, hon⟩

/-- With the rule off, the relay at the address of the bridge follows it. -/
theorem chain_returns_to_entry :
    ∃ s p, Run (step urlPool) (stopped none none) s ∧ s.running = some p ∧
      ∃ rand sel, p.getPrivateBridgeChainWithBounds urlPool s.guardFile [mappedBridge] false 3 3 1000 0
          rand .done = sel ∧ sel.chain ≠ [] ∧
        ¬p.SoundChain urlPool false 3 3 (p.IsBridgeEntry urlPool [mappedBridge] 0 sel.guardState)
          sel.chain := by
  obtain ⟨p, hp, hoff, -⟩ := relistingClient_selects
  refine ⟨relistingClient, p, Run.getD_inputs _, hp, _, mappedSelection false p, rfl, ?_, ?_⟩
  · intro hempty
    rw [hempty] at hoff
    cases hoff
  · intro hsound
    have hendpoints := hsound.endpoints
    rw [hoff] at hendpoints
    revert hendpoints
    decide

/-- With the rule on, the chain goes past it. -/
theorem relistingClient_sound :
    ∃ p, relistingClient.running = some p ∧
      (mappedSelection true p).chain.map (·.host) = ["::ffff:102:304", "3.1.0.1", "2.1.0.1"] ∧
      p.SoundChain urlPool true 3 3
        (p.IsBridgeEntry urlPool [mappedBridge] 0 (mappedSelection true p).guardState)
        (mappedSelection true p).chain := by
  obtain ⟨p, hp, -, hon⟩ := relistingClient_selects
  refine ⟨p, hp, hon, ?_⟩
  refine ((chains_sound_iff (Run.getD_inputs _) hp).2 [mappedBridge] true 3 3 1000 0 .done (by decide)
    (by decide) (by decide)).mpr (.inl rfl) _ _ rfl ?_
  intro hempty
  have hnil : (mappedSelection true p).chain = [] := hempty
  rw [hnil] at hon
  cases hon

end Sample

end PoolState

end AnonGuard
