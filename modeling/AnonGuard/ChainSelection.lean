import AnonGuard.CircuitDiversity
import AnonGuard.Greedy
import AnonGuard.PoolState

/-!
# What a selection returns

Both selections put an entry first, reserve an exit, fill the places between them greedily
and cut the result to a random length. Networks are an equivalence on hosts, so the greedy
fill is as long as any other. A search through private bridges tries every exit, and finds
a chain whenever there is one. The public search keeps the exit it has drawn.
-/
namespace AnonGuard

section Rule
variable {S : DirectoryEnv} {enforceDiversity : Bool} {hosts part : List String}

lemma diverse_iff :
    diverse S enforceDiversity hosts = true ↔
      (enforceDiversity = true → DistinctNetworks S hosts) := by
  rw [diverse, Bool.or_eq_true, validateCircuitDiversity_isOk]
  cases enforceDiversity <;> simp

lemma diverse_sublist (h : diverse S enforceDiversity hosts = true) (hpart : part.Sublist hosts) :
    diverse S enforceDiversity part = true :=
  diverse_iff.mpr fun henforce => (diverse_iff.mp h henforce).sublist hpart

lemma diverse_perm (h : diverse S enforceDiversity hosts = true) (hpart : hosts.Perm part) :
    diverse S enforceDiversity part = true :=
  diverse_iff.mpr fun henforce => (diverse_iff.mp h henforce).perm hpart

end Rule

namespace Pool

section Fill
variable {E : PoolEnv} {enforceDiversity : Bool} {full : ℕ → Bool} {entry exit : ProxyNode}

/-- Whether a node fits between what is selected and the exit. -/
def fitsChain (E : PoolEnv) (enforceDiversity : Bool) (exit : Option ProxyNode)
    (selected : List ProxyNode) (candidate : ProxyNode) : Bool :=
  diverse E.toDirectoryEnv enforceDiversity
    (selected.map (·.host) ++ [candidate.host] ++ (exit.map (·.host)).toList)

lemma fillMiddles_eq_fill (exit : Option ProxyNode) (selected middles : List ProxyNode) :
    fillMiddles E enforceDiversity full exit selected middles =
      Greedy.fill (fitsChain E enforceDiversity exit) full selected middles := by
  induction middles generalizing selected with
  | nil => rfl
  | cons candidate rest ih =>
    unfold fillMiddles Greedy.fill
    rw [ih, ih]
    rfl

/-- The nodes of a chain satisfy the rule. -/
abbrev DiverseNodes (E : PoolEnv) (enforceDiversity : Bool) (chain : List ProxyNode) : Prop :=
  diverse E.toDirectoryEnv enforceDiversity (chain.map (·.host)) = true

lemma diverseNodes_fillMiddles {selected : List ProxyNode} (middles : List ProxyNode)
    (h : DiverseNodes E enforceDiversity (selected ++ [exit])) :
    DiverseNodes E enforceDiversity
      (fillMiddles E enforceDiversity full (some exit) selected middles ++ [exit]) := by
  rw [fillMiddles_eq_fill]
  refine Greedy.fill_induction (P := fun s => DiverseNodes E enforceDiversity (s ++ [exit])) h ?_
  intro s c _ hfits
  simpa [fitsChain, DiverseNodes] using hfits

/-- With the rule, to fit is to bring a network of one's own. -/
lemma distinct_iff_diverseNodes {chain : List ProxyNode}
    (hexit : (hostNetwork E.toDirectoryEnv exit.host).isSome = true) :
    Greedy.Distinct (fun n => (hostNetwork E.toDirectoryEnv n.host).isSome = true)
        (fun n => hostNetwork E.toDirectoryEnv n.host)
        [hostNetwork E.toDirectoryEnv exit.host] chain ↔
      DiverseNodes E true (chain ++ [exit]) := by
  have hkeys : chain.map (fun n => hostNetwork E.toDirectoryEnv n.host) ++
      [hostNetwork E.toDirectoryEnv exit.host] =
        ((chain ++ [exit]).map (·.host)).map (hostNetwork E.toDirectoryEnv) := by
    simp
  rw [Greedy.Distinct, hkeys, DiverseNodes, diverse_iff]
  refine ⟨fun h _ => ⟨?_, h.2⟩, fun h => ⟨?_, (h rfl).2⟩⟩
  · intro host hhost
    obtain ⟨n, hn, rfl⟩ := List.mem_map.mp hhost
    rcases List.mem_append.mp hn with hn | hn
    · exact h.1 n hn
    · rwa [List.mem_singleton.mp hn]
  · intro n hn
    exact (h rfl).1 n.host (List.mem_map_of_mem (List.mem_append_left _ hn))

/-- No other middles fill the chain better. -/
lemma length_le_fillMiddles {selected middles other : List ProxyNode} (hother : other.Subperm middles)
    (h : DiverseNodes E enforceDiversity (selected ++ other ++ [exit])) :
    full (fillMiddles E enforceDiversity full (some exit) selected middles).length = true ∨
      selected.length + other.length ≤
        (fillMiddles E enforceDiversity full (some exit) selected middles).length := by
  rw [fillMiddles_eq_fill]
  cases enforceDiversity with
  | false =>
    have hfits : ∀ s c, fitsChain E false (some exit) s c = true := fun s c => rfl
    refine (Greedy.fill_of_fits hfits selected middles).imp_right fun hfill => ?_
    rw [hfill, List.length_append]
    exact Nat.add_le_add_left hother.length_le _
  | true =>
    have hexit : (hostNetwork E.toDirectoryEnv exit.host).isSome = true :=
      (diverse_iff.mp h rfl).1 exit.host (by simp)
    refine Greedy.length_le_fill (fun s c _ => ?_) hother.subset
      ((distinct_iff_diverseNodes hexit).mpr h)
    rw [distinct_iff_diverseNodes hexit]
    simp [fitsChain, DiverseNodes]

/-- The filled chain is long enough exactly if there are enough middles for one. -/
lemma le_length_fillMiddles_iff {minHops : ℕ} (hfull : ∀ n, full n = true → minHops ≤ n + 1)
    (hpair : DiverseNodes E enforceDiversity [entry, exit]) (middles : List ProxyNode) :
    minHops ≤ (fillMiddles E enforceDiversity full (some exit) [entry] middles).length + 1 ↔
      ∃ between, between.Subperm middles ∧ minHops - 2 ≤ between.length ∧
        DiverseNodes E enforceDiversity (entry :: between ++ [exit]) := by
  constructor
  · intro hlong
    have hdiverse : DiverseNodes E enforceDiversity
        (fillMiddles E enforceDiversity full (some exit) [entry] middles ++ [exit]) :=
      diverseNodes_fillMiddles middles hpair
    obtain ⟨taken, hsub, htaken⟩ := Greedy.exists_fill_eq [entry] middles
    rw [fillMiddles_eq_fill, htaken] at hlong hdiverse
    refine ⟨taken, hsub.subperm, ?_, hdiverse⟩
    simp only [List.length_append, List.length_singleton] at hlong
    omega
  · rintro ⟨between, hbetween, hlength, hdiverse⟩
    have hfill : _ ∨ [entry].length + between.length ≤
        (fillMiddles E enforceDiversity full (some exit) [entry] middles).length :=
      length_le_fillMiddles hbetween hdiverse
    rcases hfill with hfill | hfill
    · exact hfull _ hfill
    · rw [List.length_singleton] at hfill
      omega

lemma length_fillMiddles_le {exit : Option ProxyNode} (middles : List ProxyNode) {bound : ℕ}
    (hbound : 1 ≤ bound) (hfull : full bound = true) :
    (fillMiddles E enforceDiversity full exit [entry] middles).length ≤ bound := by
  rw [fillMiddles_eq_fill]
  exact Greedy.length_fill_le middles hbound hfull

/-- A chain from an entry over some of the middles to an exit. -/
structure Links (E : PoolEnv) (enforceDiversity : Bool) (entry : ProxyNode)
    (middles : List ProxyNode) (exit : ProxyNode) (chain : List ProxyNode) : Prop where
  shape : ∃ between, between.Sublist middles ∧ chain = entry :: between ++ [exit]
  diverse : DiverseNodes E enforceDiversity chain

/-- What is cut from a filled chain. -/
lemma links_of_fillMiddles {middles : List ProxyNode} {length : ℕ} (hlength : 2 ≤ length)
    (h : DiverseNodes E enforceDiversity [entry, exit]) :
    Links E enforceDiversity entry middles exit
      ((fillMiddles E enforceDiversity full (some exit) [entry] middles).take (length - 1) ++
        [exit]) := by
  obtain ⟨n, rfl⟩ := Nat.exists_eq_add_of_le' hlength
  refine ⟨?_, ?_⟩
  · obtain ⟨taken, hsub, htaken⟩ := Greedy.exists_fill_eq [entry] middles
    refine ⟨taken.take n, (List.take_sublist n taken).trans hsub, ?_⟩
    rw [fillMiddles_eq_fill, htaken]
    rfl
  · have hfilled : DiverseNodes E enforceDiversity
        (fillMiddles E enforceDiversity full (some exit) [entry] middles ++ [exit]) :=
      diverseNodes_fillMiddles middles h
    exact diverse_sublist hfilled (((List.take_sublist _ _).append_right _).map _)

lemma genRange_mem {low high : ℕ} (h : low ≤ high) (pick : ℕ) :
    low ≤ genRange low high pick ∧ genRange low high pick ≤ high := by
  have := Nat.mod_lt pick (show 0 < high + 1 - low by omega)
  unfold genRange
  omega

end Fill

section Bridges
variable {E : PoolEnv} {enforceDiversity : Bool} {minHops maxHops pick : ℕ} {entry : ProxyNode}
  {candidates chain : List ProxyNode}

/-- An exit and enough nodes before it that satisfy the rule with the entry. -/
def PathExists (E : PoolEnv) (enforceDiversity : Bool) (minHops : ℕ) (entry : ProxyNode)
    (candidates : List ProxyNode) : Prop :=
  ∃ exit ∈ candidates, exit.isExit = true ∧
    ∃ between, between.Subperm (candidates.filter (!·.isExit)) ∧ minHops - 2 ≤ between.length ∧
      DiverseNodes E enforceDiversity (entry :: between ++ [exit])

/-- What the search through a bridge returns. -/
lemma bridgeHops_cases (hmin : 2 ≤ minHops)
    (hchain : bridgeHops E enforceDiversity minHops maxHops entry candidates pick = chain)
    (hne : chain ≠ []) :
    ∃ exit ∈ candidates, exit.isExit = true ∧
      Links E enforceDiversity entry (candidates.filter (!·.isExit)) exit chain ∧
      minHops ≤ chain.length ∧ chain.length ≤ maxHops := by
  unfold bridgeHops at hchain
  dsimp only at hchain
  generalize hmiddles : candidates.filter (!·.isExit) = middles at hchain ⊢
  split_ifs at hchain with hceiling
  · exact absurd hchain.symm hne
  · cases hfind : List.findSome? _ _ with
    | none =>
      rw [hfind, Option.getD_none] at hchain
      exact absurd hchain.symm hne
    | some =>
      rw [hfind, Option.getD_some] at hchain
      subst hchain
      obtain ⟨exit, hexit, hfound⟩ := List.exists_of_findSome?_eq_some hfind
      obtain ⟨hmem, hisExit⟩ := List.mem_filter.mp hexit
      split_ifs at hfound with hrule hlong
      cases hfound
      have hbound : (fillMiddles E enforceDiversity (· == min maxHops (middles.length + 2) - 1)
          (some exit) [entry] middles).length ≤ min maxHops (middles.length + 2) - 1 :=
        length_fillMiddles_le middles (by omega) (beq_self_eq_true _)
      obtain ⟨hlow, hhigh⟩ := genRange_mem hlong pick
      refine ⟨exit, hmem, hisExit, links_of_fillMiddles (hmin.trans hlow) ?_, ?_, ?_⟩
      · exact Bool.eq_true_of_not_eq_false hrule
      · simp only [List.length_append, List.length_take, List.length_singleton]
        omega
      · simp only [List.length_append, List.length_take, List.length_singleton]
        omega

lemma bridgeHops_ne_nil_iff (hmin : 2 ≤ minHops) (hmax : minHops ≤ maxHops) :
    bridgeHops E enforceDiversity minHops maxHops entry candidates pick ≠ [] ↔
      PathExists E enforceDiversity minHops entry candidates := by
  constructor
  · intro hne
    obtain ⟨exit, hmem, hexit, ⟨⟨between, hbetween, hshape⟩, hdiverse⟩, hlength, -⟩ :=
      bridgeHops_cases hmin rfl hne
    refine ⟨exit, hmem, hexit, between, hbetween.subperm, ?_, hshape ▸ hdiverse⟩
    rw [hshape] at hlength
    simp only [List.length_append, List.length_cons, List.length_nil] at hlength
    omega
  · rintro ⟨exit, hmem, hexit, between, hbetween, hlength, hdiverse⟩
    have hcount := hbetween.length_le
    unfold bridgeHops
    dsimp only
    generalize candidates.filter (!·.isExit) = middles at hbetween hcount ⊢
    rw [if_neg (by omega)]
    cases hfind : List.findSome? _ _ with
    | some =>
      obtain ⟨exit', -, hfound⟩ := List.exists_of_findSome?_eq_some hfind
      split_ifs at hfound
      cases hfound
      simp
    | none =>
      rw [List.findSome?_eq_none_iff] at hfind
      have hnone := hfind exit (List.mem_filter.mpr ⟨hmem, hexit⟩)
      have hpair : diverse E.toDirectoryEnv enforceDiversity [entry.host, exit.host] = true :=
        diverse_sublist hdiverse (by simp)
      have hlong : minHops ≤ (fillMiddles E enforceDiversity
          (· == min maxHops (middles.length + 2) - 1) (some exit) [entry] middles).length + 1 := by
        refine (le_length_fillMiddles_iff (fun n hn => ?_) hpair middles).mpr
          ⟨between, hbetween, hlength, hdiverse⟩
        have := beq_iff_eq.mp hn
        omega
      rw [hpair, if_neg (by decide), if_pos hlong] at hnone
      cases hnone

lemma pathExists_perm {other : List ProxyNode} (hother : other.Perm candidates) :
    PathExists E enforceDiversity minHops entry other ↔
      PathExists E enforceDiversity minHops entry candidates := by
  unfold PathExists
  simp only [hother.mem_iff, (hother.filter (!·.isExit)).subperm_left]

end Bridges

section BridgeSelection
variable (E : PoolEnv) (p : Pool) (file : Option GuardState) (bindings : List BridgeTransport)
  (minHops maxHops : ℕ) (now : UInt64) (instant : ℕ) (write : WriteResult)

/-- The guards of a selection through bridges, and whether they are in place. -/
def bridgeGuards : Bool × GuardState × Option GuardState :=
  p.saveGuards file ((bindings.take 3).foldl (addBridge E.toDirectoryEnv) p.guardState) write

/-- The selection has come to its search, with a binding as the entry. -/
structure ChoosesBinding (b : BridgeTransport) : Prop where
  bounds : 3 ≤ minHops ∧ minHops ≤ maxHops ∧ maxHops ≤ MAX_HOPS
  unretired : ∀ b ∈ bindings, b.identity ∉ p.revoked
  current : p.consensusDeadline ≠ 0 ∧ p.directoryExpired now = false
  saved : (p.bridgeGuards E file bindings write).1 = true
  chosen : p.entryBinding E bindings (p.bridgeGuards E file bindings write).2.1 instant = some b

variable {E p file bindings minHops maxHops now instant write}

lemma ChoosesBinding.chain_eq {b : BridgeTransport} {enforceDiversity : Bool} {rand : Randomness}
    (h : p.ChoosesBinding E file bindings minHops maxHops now instant write b) :
    (p.getPrivateBridgeChainWithBounds E file bindings enforceDiversity minHops maxHops now instant
      rand write).chain =
      match b.entryNode E with
      | .error _ => []
      | .ok entry => bridgeHops E enforceDiversity minHops maxHops entry
          (rand.middles.order (p.bridgeCandidates E bindings)) rand.pick := by
  obtain ⟨hbounds, hunretired, hcurrent, hsaved, hchosen⟩ := h
  have hne : bindings ≠ [] := List.ne_nil_of_mem (stored_of_entryBinding hchosen).1
  unfold getPrivateBridgeChainWithBounds
  dsimp only
  rw [if_neg (by omega), if_neg (by simpa [hne, hcurrent] using hunretired)]
  unfold bridgeGuards at hsaved hchosen
  generalize p.saveGuards file
    ((bindings.take 3).foldl (addBridge E.toDirectoryEnv) p.guardState) write = guards
    at hsaved hchosen
  obtain ⟨saved, state, file'⟩ := guards
  obtain rfl : saved = true := hsaved
  dsimp only at hchosen ⊢
  rw [hchosen]
  dsimp only
  cases b.entryNode E <;> rfl

/-- Once the entry is chosen, the search finds a chain exactly if there is one. -/
theorem bridge_selection_complete {b : BridgeTransport} {enforceDiversity : Bool}
    {rand : Randomness}
    (h : p.ChoosesBinding E file bindings minHops maxHops now instant write b) :
    (p.getPrivateBridgeChainWithBounds E file bindings enforceDiversity minHops maxHops now instant
      rand write).chain ≠ [] ↔
      ∃ entry, b.entryNode E = .ok entry ∧
        ∃ exit ∈ p.bridgeCandidates E bindings, exit.isExit = true ∧
          ∃ between, between.Subperm ((p.bridgeCandidates E bindings).filter (!·.isExit)) ∧
            minHops - 2 ≤ between.length ∧ (enforceDiversity = true →
              validateCircuitDiversity E.toDirectoryEnv
                ((entry :: between ++ [exit]).map (·.host)) = .ok ()) := by
  obtain ⟨hmin, hmax, -⟩ := h.bounds
  rw [h.chain_eq]
  cases b.entryNode E with
  | error => simp
  | ok =>
    simp only [validateCircuitDiversity_eq_ok, ← diverse_iff, Except.ok.injEq, exists_eq_left']
    rw [bridgeHops_ne_nil_iff (by omega) hmax, pathExists_perm (rand.middles.perm _)]
    rfl

end BridgeSelection

section PublicSelection
variable (E : PoolEnv) (p : Pool) (file : Option GuardState) (req : ChainRequest) (instant : ℕ)
  (order : HashOrder ProxyNode) (write : WriteResult)

/-- The nodes that may stand before the exit. -/
def relays : List ProxyNode := (p.healthy instant).filter (!·.isExit)

def exits : List ProxyNode := (p.healthy instant).filter (·.isExit)

/-- The guards of a public selection, and whether they are in place. -/
def publicGuards : Bool × GuardState × Option GuardState :=
  p.saveGuards file (p.newGuards req.entryPins (order.order (p.relays instant))) write

/-- A selection of a chain with an exit has picked its guard. -/
structure PicksGuard (guard : ProxyNode) : Prop where
  bounds : 1 ≤ req.minHops ∧ req.minHops ≤ req.maxHops ∧ 2 ≤ req.maxHops ∧ req.maxHops ≤ MAX_HOPS
  enough : p.exits instant ≠ [] ∧ req.minHops ≤ (p.relays instant).length + 1
  saved : (p.publicGuards file req instant order write).1 = true
  picked : p.entryGuard req.entryPins (p.publicGuards file req instant order write).2.1
    (order.order (p.relays instant)) = some guard

variable {E p file req instant order write} {guard : ProxyNode} {rand : Randomness}
  {between : List ProxyNode}

lemma mem_relays_of_picked {state : GuardState}
    (h : p.entryGuard req.entryPins state (order.order (p.relays instant)) = some guard) :
    guard ∈ p.relays instant := by
  obtain ⟨endpoint, -, hfind⟩ := List.exists_of_findSome?_eq_some h
  exact order.mem_order.mp (List.mem_of_find?_eq_some hfind)

lemma PicksGuard.chain_eq {now : UInt64} (hexit : req.requireExitAtLast = true)
    (hcurrent : p.directoryExpired now = false)
    (h : p.PicksGuard file req instant rand.middles write guard) :
    (p.getOnionChainWithEntryPins E file req now instant rand write).chain =
      completeChain E req (p.exits instant)
        ((rand.middles.order (p.relays instant)).filter fun node =>
          node.host ≠ guard.host || node.port ≠ guard.port)
        [guard] (min req.maxHops ((p.relays instant).length + 1) - 1) rand := by
  obtain ⟨hbounds, ⟨hexits, henough⟩, hsaved, hpicked⟩ := h
  have hpos : 0 < (p.relays instant).length :=
    List.length_pos_of_mem (mem_relays_of_picked hpicked)
  have hsize : (p.relays instant).length + 1 ≤ (p.healthy instant).length := by
    have hsplit := List.length_eq_length_filter_add (l := p.healthy instant) (·.isExit)
    have := List.length_pos_of_ne_nil hexits
    unfold exits at this
    unfold relays
    omega
  unfold getOnionChainWithEntryPins onionChain
  rw [hcurrent]
  dsimp only
  simp only [hexit, if_true, true_and, Bool.false_eq_true, if_false]
  rw [show (p.healthy instant).filter (·.isExit) = p.exits instant from rfl,
    show (p.healthy instant).filter (!·.isExit) = p.relays instant from rfl]
  rw [if_neg (by omega), if_neg hexits, if_neg hexits, if_neg (by omega), if_neg (by omega)]
  unfold guardedChain
  unfold publicGuards at hsaved hpicked
  generalize p.saveGuards file
    (p.newGuards req.entryPins (rand.middles.order (p.relays instant))) write = guards
    at hsaved hpicked
  obtain ⟨saved, state, file'⟩ := guards
  obtain rfl : saved = true := hsaved
  dsimp only at hpicked ⊢
  rw [hpicked, Nat.min_eq_left (by omega : min req.maxHops _ ≤ MAX_HOPS)]

/-- The exit that is drawn for a guard. -/
def drawnExit (E : PoolEnv) (req : ChainRequest) (exitNodes : List ProxyNode) (guard : ProxyNode)
    (rand : Randomness) : Option ProxyNode :=
  (rand.exits.order exitNodes).find? fun node =>
    diverse E.toDirectoryEnv req.enforceDiversity [guard.host, node.host]

lemma reserveExit_eq (hexit : req.requireExitAtLast = true) (exitNodes : List ProxyNode) :
    reserveExit E req exitNodes [guard] rand = (drawnExit E req exitNodes guard rand).map some := by
  simp [reserveExit, drawnExit, hexit]

lemma diverse_of_drawnExit {exitNodes : List ProxyNode} {exit : ProxyNode}
    (h : drawnExit E req exitNodes guard rand = some exit) :
    exit ∈ exitNodes ∧ DiverseNodes E req.enforceDiversity [guard, exit] :=
  ⟨rand.exits.mem_order.mp (List.mem_of_find?_eq_some h), List.find?_some
    (p := fun node : ProxyNode =>
      diverse E.toDirectoryEnv req.enforceDiversity [guard.host, node.host]) h⟩

/-- With its exit drawn, the search finds a chain exactly if there is one to that exit. -/
lemma completeChain_ne_nil_iff {exitNodes middles : List ProxyNode} {middleCount : ℕ}
    (hexit : req.requireExitAtLast = true) (hmin : req.minHops ≤ middleCount + 1) :
    completeChain E req exitNodes middles [guard] middleCount rand ≠ [] ↔
      ∃ exit, drawnExit E req exitNodes guard rand = some exit ∧
        ∃ between, between.Subperm middles ∧ req.minHops - 2 ≤ between.length ∧
          DiverseNodes E req.enforceDiversity (guard :: between ++ [exit]) := by
  unfold completeChain
  rw [reserveExit_eq hexit]
  cases hdrawn : drawnExit E req exitNodes guard rand with
  | none => simp
  | some exit =>
    obtain ⟨-, hpair⟩ := diverse_of_drawnExit hdrawn
    have hfull : ∀ n, decide (n ≥ middleCount) = true → req.minHops ≤ n + 1 := by
      intro n hn
      have := of_decide_eq_true hn
      omega
    have hlong := le_length_fillMiddles_iff hfull hpair middles
    have hone : (some exit).toList.length = 1 := rfl
    simp only [Option.some.injEq, exists_eq_left']
    rw [← hlong]
    dsimp only [Option.map_some]
    generalize fillMiddles E req.enforceDiversity (· ≥ middleCount) (some exit) [guard] middles =
      filled
    by_cases hshort : filled.length + (some exit).toList.length < req.minHops
    · rw [if_pos hshort]
      refine ⟨fun h => absurd rfl h, fun h => ?_⟩
      omega
    · rw [if_neg hshort]
      exact ⟨fun _ => by omega, fun _ => by simp⟩

/-- The networks of relays that the guard is not in. -/
def spareNetworks (E : PoolEnv) (p : Pool) (instant : ℕ) (guard : ProxyNode) : Finset Network :=
  (((p.relays instant).filterMap fun n => hostNetwork E.toDirectoryEnv n.host).filter fun network =>
    some network ≠ hostNetwork E.toDirectoryEnv guard.host).toFinset

lemma mem_spareNetworks {network : Network} :
    network ∈ spareNetworks E p instant guard ↔
      (∃ n ∈ p.relays instant, hostNetwork E.toDirectoryEnv n.host = some network) ∧
        some network ≠ hostNetwork E.toDirectoryEnv guard.host := by
  simp [spareNetworks]

section Count
variable {exit : ProxyNode} {network : Network}

/-- The middles of a chain to an exit have different spare networks. -/
lemma length_le_card_spareNetworks (hexit : hostNetwork E.toDirectoryEnv exit.host = some network)
    (hrelays : ∀ n ∈ between, n ∈ p.relays instant)
    (hdiverse : DiverseNodes E true (guard :: between ++ [exit])) :
    between.length ≤ ((spareNetworks E p instant guard).erase network).card := by
  obtain ⟨hsome, hnodup⟩ := diverse_iff.mp hdiverse rfl
  rw [List.map_map, List.cons_append, List.map_cons, List.nodup_cons, List.map_append,
    List.nodup_append'] at hnodup
  obtain ⟨hfresh, hbetween, -, hlast⟩ := hnodup
  have hsubset : between.map (hostNetwork E.toDirectoryEnv ∘ fun n => n.host) ⊆
      ((spareNetworks E p instant guard).erase network).toList.map some := by
    intro k hk
    obtain ⟨n, hn, rfl⟩ := List.mem_map.mp hk
    obtain ⟨own, hown⟩ := Option.isSome_iff_exists.mp
      (hsome n.host (List.mem_map_of_mem (by simp [hn])))
    refine List.mem_map.mpr ⟨own, ?_, hown.symm⟩
    rw [Finset.mem_toList, Finset.mem_erase, mem_spareNetworks, ← hown]
    refine ⟨?_, ⟨n, hrelays n hn, rfl⟩, ?_⟩
    · rintro rfl
      exact hlast hk (by simp [hexit, hown])
    · intro heq
      exact hfresh (List.mem_append_left _ (List.mem_map.mpr ⟨n, hn, heq⟩))
  have hlength := (List.subperm_of_subset hbetween hsubset).length_le
  rwa [List.length_map, List.length_map, Finset.length_toList] at hlength

/-- One relay from each spare network makes a chain to the exit. -/
lemma exists_between_of_spareNetworks (hpair : DiverseNodes E true [guard, exit])
    (hexit : hostNetwork E.toDirectoryEnv exit.host = some network) :
    ∃ between : List ProxyNode, (∀ n ∈ between, n ∈ p.relays instant) ∧
      between.length = ((spareNetworks E p instant guard).erase network).card ∧
      DiverseNodes E true (guard :: between ++ [exit]) := by
  have : Nonempty ProxyNode := ⟨guard⟩
  have hchoose : ∀ spare ∈ (spareNetworks E p instant guard).erase network,
      ∃ n ∈ p.relays instant, hostNetwork E.toDirectoryEnv n.host = some spare :=
    fun spare hspare => (mem_spareNetworks.mp (Finset.mem_of_mem_erase hspare)).1
  choose! relay hrelay hnetwork using hchoose
  refine ⟨((spareNetworks E p instant guard).erase network).toList.map relay, ?_, by simp, ?_⟩
  · simp only [List.mem_map, Finset.mem_toList]
    rintro _ ⟨spare, hmem, rfl⟩
    exact hrelay spare hmem
  have hnetworks : (((spareNetworks E p instant guard).erase network).toList.map relay).map
      (fun n => hostNetwork E.toDirectoryEnv n.host) =
        ((spareNetworks E p instant guard).erase network).toList.map some := by
    rw [List.map_map]
    exact List.map_congr_left fun spare hmem => hnetwork spare (Finset.mem_toList.mp hmem)
  obtain ⟨hsome, hnodup⟩ := diverse_iff.mp hpair rfl
  generalize hspares : ((spareNetworks E p instant guard).erase network).toList = spares
    at hnetworks ⊢
  have hspare : ∀ spare ∈ spares, spare ≠ network ∧
      some spare ≠ hostNetwork E.toDirectoryEnv guard.host := by
    intro spare hmem
    rw [← hspares, Finset.mem_toList, Finset.mem_erase, mem_spareNetworks] at hmem
    exact ⟨hmem.1, hmem.2.2⟩
  have hdistinct : DistinctNetworks E.toDirectoryEnv
      (([guard, exit] ++ spares.map relay).map (·.host)) := by
    have hkeys : (([guard, exit] ++ spares.map relay).map (·.host)).map
        (hostNetwork E.toDirectoryEnv) =
          [hostNetwork E.toDirectoryEnv guard.host, some network] ++ spares.map some := by
      rw [← hnetworks, ← hexit]
      simp
    refine ⟨fun host hhost => ?_, ?_⟩
    · obtain ⟨n, hn, rfl⟩ := List.mem_map.mp hhost
      rcases List.mem_append.mp hn with hn | hn
      · exact hsome n.host (List.mem_map_of_mem hn)
      · obtain ⟨spare, hmem, rfl⟩ := List.mem_map.mp hn
        rw [← hspares, Finset.mem_toList] at hmem
        rw [hnetwork spare hmem]
        rfl
    · rw [hkeys, List.nodup_append']
      refine ⟨by simpa [hexit] using hnodup, ?_, ?_⟩
      · rw [← hspares]
        exact (Finset.nodup_toList _).map (Option.some_injective _)
      · intro k hk hmem
        obtain ⟨spare, hspare', rfl⟩ := List.mem_map.mp hmem
        obtain ⟨hne, hguard⟩ := hspare spare hspare'
        simp [hne, hguard] at hk
  -- in the chain the exit comes last
  have hlast : ([exit] ++ spares.map relay).Perm (spares.map relay ++ [exit]) :=
    List.perm_append_comm
  exact diverse_perm (diverse_iff.mpr fun _ => hdistinct) ((hlast.cons guard).map _)

/-- The middles that a chain to an exit can have are as many as there are networks for them. -/
lemma exists_between_iff (hpair : DiverseNodes E true [guard, exit])
    (hexit : hostNetwork E.toDirectoryEnv exit.host = some network) (count : ℕ) :
    (∃ between : List ProxyNode, (∀ n ∈ between, n ∈ p.relays instant) ∧ count ≤ between.length ∧
      DiverseNodes E true (guard :: between ++ [exit])) ↔
      count ≤ ((spareNetworks E p instant guard).erase network).card := by
  constructor
  · rintro ⟨between, hrelays, hcount, hdiverse⟩
    exact hcount.trans (length_le_card_spareNetworks hexit hrelays hdiverse)
  · intro hcount
    obtain ⟨between, hrelays, hlength, hdiverse⟩ := exists_between_of_spareNetworks hpair hexit
    exact ⟨between, hrelays, hlength ▸ hcount, hdiverse⟩

end Count

/-- A chain from the guard that the rule admits. -/
def AdmissibleChain (E : PoolEnv) (p : Pool) (instant minHops : ℕ) (guard : ProxyNode)
    (chain : List ProxyNode) : Prop :=
  ∃ between exit, chain = guard :: between ++ [exit] ∧ minHops ≤ chain.length ∧
    (∀ n ∈ between, n ∈ p.healthy instant ∧ n.isExit = false) ∧
    (exit ∈ p.healthy instant ∧ exit.isExit = true) ∧
    validateCircuitDiversity E.toDirectoryEnv (chain.map (·.host)) = .ok ()

/-- An exit that the guard can be joined with. -/
def Joins (E : PoolEnv) (p : Pool) (instant : ℕ) (guard exit : ProxyNode) : Prop :=
  exit ∈ p.exits instant ∧
    validateCircuitDiversity E.toDirectoryEnv [guard.host, exit.host] = .ok ()

/-- The relays suffice for one of the exits only: it does not lie in any of the spare networks,
another one does, and every spare network is needed. -/
def DependsOnExit (E : PoolEnv) (p : Pool) (instant minHops : ℕ) (guard : ProxyNode) : Prop :=
  (spareNetworks E p instant guard).card = minHops - 2 ∧
    (∃ exit network, Joins E p instant guard exit ∧
      hostNetwork E.toDirectoryEnv exit.host = some network ∧
      network ∈ spareNetworks E p instant guard) ∧
    ∃ exit network, Joins E p instant guard exit ∧
      hostNetwork E.toDirectoryEnv exit.host = some network ∧
      network ∉ spareNetworks E p instant guard

lemma joins_iff {exit : ProxyNode} :
    Joins E p instant guard exit ↔ exit ∈ p.exits instant ∧ DiverseNodes E true [guard, exit] := by
  rw [Joins, validateCircuitDiversity_eq_ok, DiverseNodes, diverse_iff]
  simp

lemma Joins.exists_network {exit : ProxyNode} (h : Joins E p instant guard exit) :
    ∃ network, hostNetwork E.toDirectoryEnv exit.host = some network :=
  Option.isSome_iff_exists.mp ((diverse_iff.mp (joins_iff.mp h).2 rfl).1 exit.host (by simp))

/-- There are enough spare networks for a chain to an exit. -/
def Reaches (E : PoolEnv) (p : Pool) (instant minHops : ℕ) (guard exit : ProxyNode) : Prop :=
  ∃ network, hostNetwork E.toDirectoryEnv exit.host = some network ∧
    minHops - 2 ≤ ((spareNetworks E p instant guard).erase network).card

lemma reaches_iff {minHops : ℕ} {exit : ProxyNode} (h : Joins E p instant guard exit) :
    Reaches E p instant minHops guard exit ↔
      ∃ between : List ProxyNode, (∀ n ∈ between, n ∈ p.relays instant) ∧
        minHops - 2 ≤ between.length ∧ DiverseNodes E true (guard :: between ++ [exit]) := by
  obtain ⟨network, hnetwork⟩ := h.exists_network
  rw [exists_between_iff (joins_iff.mp h).2 hnetwork, Reaches]
  simp [hnetwork]

lemma exists_admissibleChain_iff {minHops : ℕ} :
    (∃ chain, AdmissibleChain E p instant minHops guard chain) ↔
      ∃ exit, Joins E p instant guard exit ∧ Reaches E p instant minHops guard exit := by
  constructor
  · rintro ⟨_, between, exit, rfl, hlength, hbetween, hexit, hdiverse⟩
    have hnodes : DiverseNodes E true (guard :: between ++ [exit]) :=
      diverse_iff.mpr fun _ => (validateCircuitDiversity_eq_ok _ _).mp hdiverse
    have hjoins : Joins E p instant guard exit :=
      joins_iff.mpr ⟨List.mem_filter.mpr hexit, diverse_sublist hnodes (by simp)⟩
    refine ⟨exit, hjoins, (reaches_iff hjoins).mpr ⟨between, fun n hn => ?_, ?_, hnodes⟩⟩
    · exact List.mem_filter.mpr ⟨(hbetween n hn).1, by simp [(hbetween n hn).2]⟩
    · simp only [List.length_append, List.length_cons, List.length_nil] at hlength
      omega
  · rintro ⟨exit, hjoins, hreaches⟩
    obtain ⟨between, hrelays, hlength, hdiverse⟩ := (reaches_iff hjoins).mp hreaches
    refine ⟨_, between, exit, rfl, ?_, fun n hn => ?_, List.mem_filter.mp hjoins.1, ?_⟩
    · simp only [List.length_append, List.length_cons, List.length_nil]
      omega
    · simpa using List.mem_filter.mp (hrelays n hn)
    · exact (validateCircuitDiversity_eq_ok _ _).mpr (diverse_iff.mp hdiverse rfl)

/-- The relays of a diverse chain are among those that the guard leaves. -/
lemma subperm_of_diverseNodes {exit : ProxyNode} (hrelays : ∀ n ∈ between, n ∈ p.relays instant)
    (hdiverse : DiverseNodes E true (guard :: between ++ [exit])) :
    between.Subperm ((order.order (p.relays instant)).filter fun node =>
      node.host ≠ guard.host || node.port ≠ guard.port) := by
  obtain ⟨-, hnodup⟩ := diverse_iff.mp hdiverse rfl
  have hhosts := List.Nodup.of_map _ hnodup
  rw [List.cons_append, List.map_cons, List.nodup_cons] at hhosts
  have hnodes : (between ++ [exit]).Nodup := List.Nodup.of_map _ hhosts.2
  refine List.subperm_of_subset (List.nodup_append'.mp hnodes).1 fun n hn => ?_
  refine List.mem_filter.mpr ⟨order.mem_order.mpr (hrelays n hn), ?_⟩
  have hne : n.host ≠ guard.host := fun h =>
    hhosts.1 (h ▸ List.mem_map_of_mem (List.mem_append_left _ hn))
  simp [hne]

lemma joins_of_drawnExit (henforce : req.enforceDiversity = true) {exit : ProxyNode}
    (h : drawnExit E req (p.exits instant) guard rand = some exit) :
    Joins E p instant guard exit := by
  have hdrawn := diverse_of_drawnExit h
  rw [henforce] at hdrawn
  exact joins_iff.mpr hdrawn

/-- If there is an exit to join, one is drawn. -/
lemma exists_drawnExit (henforce : req.enforceDiversity = true) {exit : ProxyNode}
    (h : Joins E p instant guard exit) :
    ∃ drawn, drawnExit E req (p.exits instant) guard rand = some drawn := by
  obtain ⟨hmem, hdiverse⟩ := joins_iff.mp h
  refine Option.isSome_iff_exists.mp (List.find?_isSome.mpr ⟨exit, ?_, ?_⟩)
  · exact rand.exits.mem_order.mpr hmem
  · rw [henforce]
    exact hdiverse

/-- Every exit that can be joined is drawn at some time. -/
lemma drawnExit_startingWith (henforce : req.enforceDiversity = true) {exit : ProxyNode}
    (h : Joins E p instant guard exit) (pick : ℕ) :
    drawnExit E req (p.exits instant) guard ⟨order, .startingWith exit, pick⟩ = some exit := by
  obtain ⟨hmem, hdiverse⟩ := joins_iff.mp h
  rw [drawnExit, HashOrder.order_startingWith hmem, henforce]
  exact List.find?_cons_of_pos hdiverse

/-- The selection finds a chain exactly if the exit that is drawn can be reached. -/
lemma PicksGuard.chain_ne_nil_iff (E : PoolEnv) (rand : Randomness) {now : UInt64}
    (hexit : req.requireExitAtLast = true) (henforce : req.enforceDiversity = true)
    (hcurrent : p.directoryExpired now = false)
    (h : p.PicksGuard file req instant rand.middles write guard) :
    (p.getOnionChainWithEntryPins E file req now instant rand write).chain ≠ [] ↔
      ∃ exit, drawnExit E req (p.exits instant) guard rand = some exit ∧
        Reaches E p instant req.minHops guard exit := by
  obtain ⟨hbounds, ⟨-, henough⟩, -, -⟩ := id h
  rw [h.chain_eq hexit hcurrent, completeChain_ne_nil_iff hexit (by omega), henforce]
  refine exists_congr fun exit => and_congr_right fun hdrawn => ?_
  rw [reaches_iff (joins_of_drawnExit henforce hdrawn)]
  constructor
  · rintro ⟨between, hbetween, hlength, hdiverse⟩
    refine ⟨between, fun n hn => ?_, hlength, hdiverse⟩
    exact rand.middles.mem_order.mp (List.mem_of_mem_filter (hbetween.subset hn))
  · rintro ⟨between, hrelays, hlength, hdiverse⟩
    exact ⟨between, subperm_of_diverseNodes hrelays hdiverse, hlength, hdiverse⟩

/-- Two exits can be told apart only as `DependsOnExit` says. -/
lemma dependsOnExit_iff {minHops : ℕ} :
    DependsOnExit E p instant minHops guard ↔
      (∃ exit, Joins E p instant guard exit ∧ Reaches E p instant minHops guard exit) ∧
        ∃ exit, Joins E p instant guard exit ∧ ¬Reaches E p instant minHops guard exit := by
  constructor
  · rintro ⟨hcard, ⟨exit, network, hjoins, hnetwork, hmem⟩, exit', network', hjoins', hnetwork', hnot⟩
    refine ⟨⟨exit', hjoins', network', hnetwork', ?_⟩, exit, hjoins, ?_⟩
    · rw [Finset.erase_eq_of_notMem hnot, hcard]
    · rintro ⟨other, hother, hcount⟩
      obtain rfl : network = other := Option.some.inj (hnetwork.symm.trans hother)
      rw [Finset.card_erase_of_mem hmem] at hcount
      have := Finset.card_pos.mpr ⟨network, hmem⟩
      omega
  · rintro ⟨⟨exit', hjoins', network', hnetwork', hcount'⟩, exit, hjoins, hmisses⟩
    obtain ⟨network, hnetwork⟩ := hjoins.exists_network
    have hcount : ((spareNetworks E p instant guard).erase network).card < minHops - 2 := by
      rw [← not_le]
      exact fun hcount => hmisses ⟨network, hnetwork, hcount⟩
    have hle := Finset.card_erase_le (s := spareNetworks E p instant guard) (a := network')
    have hmem : network ∈ spareNetworks E p instant guard := by
      by_contra hnot
      rw [Finset.erase_eq_of_notMem hnot] at hcount
      omega
    rw [Finset.card_erase_of_mem hmem] at hcount
    have hnot : network' ∉ spareNetworks E p instant guard := by
      intro hmem'
      rw [Finset.card_erase_of_mem hmem'] at hcount'
      omega
    exact ⟨by omega, ⟨exit, network, hjoins, hnetwork, hmem⟩, exit', network', hjoins', hnetwork',
      hnot⟩

/-- The public search never misses a chain exactly if it does not depend on the exit that is
drawn. -/
theorem public_selection_complete_iff {now : UInt64} (hexit : req.requireExitAtLast = true)
    (henforce : req.enforceDiversity = true) (hcurrent : p.directoryExpired now = false)
    (h : p.PicksGuard file req instant order write guard) :
    (∀ exits pick, (∃ chain, AdmissibleChain E p instant req.minHops guard chain) →
      (p.getOnionChainWithEntryPins E file req now instant ⟨order, exits, pick⟩ write).chain ≠ []) ↔
      ¬DependsOnExit E p instant req.minHops guard := by
  have hfinds (exits : HashOrder ProxyNode) (pick : ℕ) :=
    PicksGuard.chain_ne_nil_iff E ⟨order, exits, pick⟩ hexit henforce hcurrent h
  simp only [hfinds, exists_admissibleChain_iff, dependsOnExit_iff]
  constructor
  · rintro hcomplete ⟨hexists, exit, hjoins, hmisses⟩
    obtain ⟨drawn, hdrawn, hreaches⟩ := hcomplete (.startingWith exit) 0 hexists
    rw [drawnExit_startingWith henforce hjoins] at hdrawn
    obtain rfl := Option.some.inj hdrawn
    exact hmisses hreaches
  · intro hnot exits pick hexists
    obtain ⟨exit, hjoins, -⟩ := id hexists
    obtain ⟨drawn, hdrawn⟩ := exists_drawnExit henforce hjoins
    refine ⟨drawn, hdrawn, ?_⟩
    by_contra hmisses
    exact hnot ⟨hexists, drawn, joins_of_drawnExit henforce hdrawn, hmisses⟩

end PublicSelection

end Pool

section Sample

/-- Addresses of the standard library, and a URL parser that writes an IPv6 address without a
dotted part. -/
def urlPool : PoolEnv where
  toDirectoryEnv := stdNet sampleScheme
  parseUrl text :=
    let chars := text.toList.drop 9
    let host := if chars.head? = some '[' then chars.takeWhile (· ≠ ']') ++ [']']
      else chars.takeWhile (· ≠ ':')
    let port := UInt16.ofNat (Nat.ofDigitChars 10 (chars.drop (host.length + 1)) 0)
    let hostStr :=
      match IpAddr.parse (trimChars (· == '[') (· == ']') (String.ofList host)) with
      | some (.v6 octets) => "[" ++ IpText.compressedText octets ++ "]"
      | _ => String.ofList host
    .ok ⟨"socks5", some hostStr, some port, "", none⟩

/-- A node at a host, as a directory lists it. -/
def nodeOn (host : String) (isExit : Bool) : ProxyNode :=
  ⟨"socks5://" ++ host ++ ":9001", .socks5h, host, 9001, none, none, true, 0, isExit⟩

/-- A pool that lists the given nodes. -/
def listingPool (nodes : List ProxyNode) : Pool :=
  { Pool.new [] with
    nodes := nodes.map fun n => (n.key, n)
    identityKeys := nodes.map fun n => (n.key, utf8 n.host)
    consensusDeadline := 2000 }

/-- Two relays, an exit in the network of the second one, and an exit in another network. -/
def crowdedPool : Pool := listingPool [nodeOn "1.1.0.1" false, nodeOn "2.1.0.1" false,
  nodeOn "2.1.0.2" true, nodeOn "4.1.0.1" true]

def threeHopRequest : ChainRequest := ⟨3, 3, true, true, []⟩

/-- The same with one more relay. -/
def roomyPool : Pool := listingPool [nodeOn "1.1.0.1" false, nodeOn "2.1.0.1" false,
  nodeOn "5.1.0.1" false, nodeOn "2.1.0.2" true, nodeOn "4.1.0.1" true]

/-- The first exit that is drawn takes the network of the only middle. -/
theorem crowded_exit_misses :
    crowdedPool.PicksGuard none threeHopRequest 0 (.listed _) .done (nodeOn "1.1.0.1" false) ∧
      Pool.AdmissibleChain urlPool crowdedPool 0 3 (nodeOn "1.1.0.1" false)
        [nodeOn "1.1.0.1" false, nodeOn "2.1.0.1" false, nodeOn "4.1.0.1" true] ∧
      (crowdedPool.getOnionChainWithEntryPins urlPool none threeHopRequest 1000 0
        ⟨.listed _, .listed _, 0⟩ .done).chain = [] := by
  refine ⟨⟨by decide, by decide +kernel, by decide +kernel, by decide +kernel⟩, ?_, by decide +kernel⟩
  exact ⟨[nodeOn "2.1.0.1" false], nodeOn "4.1.0.1" true, rfl, by decide, by decide +kernel,
    by decide +kernel, by decide +kernel⟩

theorem roomyPool_complete :
    roomyPool.PicksGuard none threeHopRequest 0 (.listed _) .done (nodeOn "1.1.0.1" false) ∧
      ∀ exits pick,
        (∃ chain, Pool.AdmissibleChain urlPool roomyPool 0 3 (nodeOn "1.1.0.1" false) chain) →
        (roomyPool.getOnionChainWithEntryPins urlPool none threeHopRequest 1000 0
          ⟨.listed _, exits, pick⟩ .done).chain ≠ [] := by
  have hpicks : roomyPool.PicksGuard none threeHopRequest 0 (.listed _) .done
      (nodeOn "1.1.0.1" false) :=
    ⟨by decide, by decide +kernel, by decide +kernel, by decide +kernel⟩
  refine ⟨hpicks, ?_⟩
  refine (Pool.public_selection_complete_iff rfl rfl (by decide) hpicks).mpr fun hdepends => ?_
  exact absurd hdepends.1 (by decide +kernel)

/-- A bridge behind which the pool has a chain. -/
def sampleBridge : BridgeTransport := ⟨[9], .v4 [9, 1, 0, 1], 443⟩

theorem crowdedPool_bridge :
    (crowdedPool.getPrivateBridgeChainWithBounds urlPool none [sampleBridge] true 3 3 1000 0
      ⟨.listed _, .listed _, 0⟩ .done).chain ≠ [] := by
  have hchooses : crowdedPool.ChoosesBinding urlPool none [sampleBridge] 3 3 1000 0 .done
      sampleBridge :=
    ⟨by decide, by decide +kernel, by decide, by decide +kernel, by decide +kernel⟩
  refine (Pool.bridge_selection_complete hchooses).mpr
    ⟨⟨"socks5://9.1.0.1:443", .socks5, "9.1.0.1", 443, none, none, true, 0, false⟩,
      by decide +kernel, nodeOn "4.1.0.1" true, by decide +kernel, rfl, [nodeOn "2.1.0.1" false],
      by decide +kernel, le_rfl, fun _ => by decide +kernel⟩

end Sample

end AnonGuard
