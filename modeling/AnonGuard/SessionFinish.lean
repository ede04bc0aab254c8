import AnonGuard.SessionFlow

/-!
# The finish handshake

A client that is drained announces its finish in a cell whose number fills a
bucket, and the exit answers with its last cell, which fills one of its own. The
client's clock keeps running until the answer arrives, so its total fills a
bucket exactly if the number of these late ticks does.
-/
namespace AnonGuard

variable {n : ℕ}

namespace Endpoint
variable {e e' : Endpoint} {i : SessionInput} {now : ℕ}

lemma isEmpty_iff : e.streams.isEmpty = true ↔ ∀ k : ℕ, e.streams[k]? = none := by
  rw [Std.TreeMap.isEmpty_iff_forall_not_mem]
  refine forall_congr' fun k => ?_
  rw [Std.TreeMap.mem_iff_isSome_getElem?, Bool.not_eq_true, Option.isSome_eq_false_iff,
    Option.isNone_iff_eq_none]

/-- Without streams the passes after a tick do nothing. -/
lemma passes_of_isEmpty (h : e.streams.isEmpty = true) : e.retire.cancel = e := by
  have hlist : e.streams.toList = [] := by
    rw [List.eq_nil_iff_forall_not_mem]
    rintro ⟨k, s⟩ hmem
    rw [Std.TreeMap.mem_toList_iff_getElem?_eq_some, isEmpty_iff.mp h k] at hmem
    cases hmem
  have hretire : e.retire = e := by simp [retire, retiring, hlist]
  rw [hretire]
  simp [cancel, cancelled, hlist]

/-- What the event and frame branches leave alone at a client. -/
structure KeepsFinish (e e' : Endpoint) : Prop where
  sentLog : e'.sentLog = e.sentLog
  cells : e'.cells = e.cells
  profile : e'.profile = e.profile
  finishing : e'.finishing = e.finishing
  controls : ∀ c ∈ e'.controls, c ∈ e.controls ∨ c.command ≠ .sessionFinish
  quiet : e.streams.isEmpty = true → e'.streams.isEmpty = true ∧ e'.controls = e.controls

lemma KeepsFinish.rfl : KeepsFinish e e :=
  ⟨.refl _, .refl _, .refl _, .refl _, fun _ => .inl, fun h => ⟨h, .refl _⟩⟩

lemma KeepsFinish.setStream {k : ℕ} {s s₀ : Stream} (w : Workers) (hs : e.streams[k]? = some s₀) :
    KeepsFinish e (e.setStream k s w) := by
  refine ⟨.refl _, .refl _, .refl _, .refl _, fun _ => .inl, fun h => ?_⟩
  rw [isEmpty_iff.mp h k] at hs
  cases hs

lemma KeepsFinish.resetStream {k : ℕ} {s : Stream} (hs : e.streams[k]? = some s) :
    KeepsFinish e (e.resetStream k) := by
  obtain ⟨_, _, _, hr⟩ := resetStream_eq (e := e) k
  rw [hr]
  refine ⟨.refl _, .refl _, .refl _, .refl _, fun c hc => ?_, fun h => ?_⟩
  · refine (List.mem_append.mp hc).imp_right fun hc => ?_
    rw [List.mem_singleton.mp hc]
    simp
  · rw [isEmpty_iff.mp h k] at hs
    cases hs

lemma KeepsFinish.closeStream (k : ℕ) : KeepsFinish e (e.closeStream k) := by
  have hstreams : e.streams.isEmpty = true → (e.closeStream k).streams.isEmpty = true := by
    rw [isEmpty_iff, isEmpty_iff]
    intro h j
    by_cases hj : j = k
    · subst hj
      have hview : (e.closeStream j).view j = _ := view_closeStream_self e
      simpa [view] using congrArg View.stream hview
    · exact (congrArg View.stream (view_closeStream_of_ne e hj)).trans (h j)
  obtain ⟨_, _, _, hr⟩ := closeStream_eq (e := e) k
  rw [hr] at hstreams ⊢
  exact ⟨.refl _, .refl _, .refl _, .refl _, fun _ => .inl, fun h => ⟨hstreams h, .refl _⟩⟩

lemma Handles.keepsFinish {x : Event} (hc : e.client = true) (h : Handles e x e') :
    KeepsFinish e e' := by
  cases h with
  | written id count s hs => exact .setStream _ hs
  | writtenLate | failedLate => exact .rfl
  | connected id hexit | connectFailed id hexit | connectLate id ok hexit =>
    rw [hc] at hexit
    cases hexit
  | failed id s hs => exact .resetStream hs

lemma Dispatches.keepsFinish {c : SessionCell} (hc : e.client = true)
    (h : Dispatches e now c e') : KeepsFinish e e' := by
  cases h with
  | late | dummy => exact .rfl
  | openRefused _ hexit | openAccepted _ hexit | finish _ hexit =>
    rw [hc] at hexit
    cases hexit
  | opened s _ _ hs | acked s _ _ hs => exact .setStream _ hs
  | openedLate s _ _ hs => exact .resetStream hs
  | refused => exact .closeStream _
  | data s w _ hs | ended s w _ hs =>
    refine ⟨.refl _, .refl _, .refl _, .refl _, fun _ => .inl, fun h => ?_⟩
    rw [isEmpty_iff.mp h c.id] at hs
    cases hs
  | reset =>
    obtain ⟨h1, h2, h3, h4, h5, h6⟩ := KeepsFinish.closeStream (e := e) c.id
    exact ⟨h1, h2, h3, h4, h5, h6⟩
  | finished => exact ⟨.refl _, .refl _, .refl _, .refl _, fun _ => .inl, fun h => ⟨h, .refl _⟩⟩

/-- The finish of a client: it is announced once, in a cell that fills a bucket,
by a drained session, and only cover follows. -/
structure Finishing (e : Endpoint) : Prop where
  counted : e.sentLog.length = e.cells
  quiet : e.finishing = true → e.streams.isEmpty = true ∧ e.controls = []
  before : e.finishing = false → ∀ c ∈ e.controls ++ e.sentLog, c.command ≠ .sessionFinish
  after : e.finishing = true → ∃ a k, e.sentLog =
    a ++ ⟨.sessionFinish, 0, []⟩ :: List.replicate k ⟨.dummy, 0, []⟩ ∧
      e.profile.bucket ∣ a.length + 1 ∧ ∀ c ∈ a, c.command ≠ .sessionFinish

lemma Finishing.keep (h : e.Finishing) (hk : KeepsFinish e e') : e'.Finishing := by
  refine ⟨?_, fun hf => ?_, fun hf => ?_, ?_⟩
  · rw [hk.sentLog, hk.cells, h.counted]
  · obtain ⟨hstreams, hcontrols⟩ := h.quiet (hk.finishing ▸ hf)
    obtain ⟨hstreams', hcontrols'⟩ := hk.quiet hstreams
    exact ⟨hstreams', hcontrols'.trans hcontrols⟩
  · have hold := h.before (hk.finishing ▸ hf)
    intro c hc
    rw [hk.sentLog] at hc
    rcases List.mem_append.mp hc with hc | hc
    · exact (hk.controls c hc).elim (fun hc => hold c (List.mem_append_left _ hc)) fun h => h
    · exact hold c (List.mem_append_right _ hc)
  · rw [hk.finishing, hk.sentLog, hk.profile]
    exact h.after

/-- A session without streams and controls emits cover. -/
lemma select_of_quiet {c : SessionCell} (hstreams : e.streams.isEmpty = true)
    (hcontrols : e.controls = []) (h : e.select now = .ok (c, e')) :
    c = ⟨.dummy, 0, []⟩ ∧ e' = e := by
  obtain ⟨rest, hc, -⟩ | ⟨k, s, -, -, -, -, -, hs, -⟩ | ⟨-, hc, he⟩ := select_eq_ok h
  · rw [hcontrols] at hc
    cases hc
  · rw [isEmpty_iff.mp hstreams k] at hs
    cases hs
  · exact ⟨hc, he⟩

/-- A session without streams emits the only queued control. -/
lemma select_of_announced {c d : SessionCell} (hstreams : e.streams.isEmpty = true)
    (hcontrols : e.controls = [d]) (h : e.select now = .ok (c, e')) :
    c = d ∧ e' = { e with controls := [] } := by
  obtain ⟨rest, hc, rfl⟩ | ⟨k, s, -, -, -, -, -, hs, -⟩ | ⟨hc, -, -⟩ := select_eq_ok h
  · rw [hcontrols] at hc
    cases hc
    exact ⟨rfl, rfl⟩
  · rw [isEmpty_iff.mp hstreams k] at hs
    cases hs
  · rw [hcontrols] at hc
    cases hc

lemma select_ne_finish {c : SessionCell} (h : e.select now = .ok (c, e'))
    (hno : ∀ d ∈ e.controls, d.command ≠ .sessionFinish) : c.command ≠ .sessionFinish := by
  obtain ⟨rest, hc, -⟩ | ⟨k, s, s', rx, -, -, -, -, hserve, -⟩ | ⟨-, rfl, -⟩ := select_eq_ok h
  · exact hno c (by simp [hc])
  · cases hserve <;> simp
  · simp

section Ticks
variable {t : Tick} {c : SessionCell} {e₁ : Endpoint} (time : ℕ)

/-- After the finish a tick emits cover. -/
lemma Finishing.tick_late (h : e.Finishing) (hfin : e.finishing = true)
    (hsel : (e.toSelect t.now).select t.now = .ok (c, e₁)) :
    (e₁.afterCell c time t.interval).retire.cancel.Finishing ∧
      (e₁.afterCell c time t.interval).retire.cancel.finishing = true := by
  have hframe := cellFrame_of_select time hsel
  have hsame : e.announceFinish t.now = e := by simp [announceFinish, hfin]
  have hquiet : (e.toSelect t.now).streams.isEmpty = true ∧ (e.toSelect t.now).controls = [] := by
    rw [toSelect, hsame]
    exact h.quiet hfin
  obtain ⟨rfl, rfl⟩ := select_of_quiet hquiet.1 hquiet.2 hsel
  rw [passes_of_isEmpty (e := (e.toSelect t.now).afterCell _ time t.interval) hquiet.1] at hframe ⊢
  obtain ⟨a, k, hlog, hdvd, ha⟩ := h.after hfin
  have hfin' := hframe.finishing
  rw [hsame, hfin] at hfin'
  refine ⟨⟨?_, fun _ => hquiet, fun hf => ?_, fun _ => ⟨a, k + 1, ?_, ?_, ha⟩⟩, hfin'⟩
  · rw [hframe.sentLog, hframe.cells, List.length_append, h.counted]
    rfl
  · rw [hfin'] at hf
    cases hf
  · rw [hframe.sentLog, hlog, List.append_assoc, List.cons_append, ← List.replicate_succ']
  · rw [hframe.profile]
    exact hdvd

/-- The tick that announces the finish emits it at once. -/
lemma Finishing.tick_announce (h : e.Finishing) (hfin : e.finishing = false)
    (hclient : e.client = true) (hmay : e.mayFinish t.now = true)
    (hsel : (e.toSelect t.now).select t.now = .ok (c, e₁)) :
    (e₁.afterCell c time t.interval).retire.cancel.Finishing ∧
      e.profile.bucket ∣ (e₁.afterCell c time t.interval).retire.cancel.sentLog.length := by
  have hframe := cellFrame_of_select time hsel
  have hann : e.announceFinish t.now =
      { e with finishing := true }.pushControl .sessionFinish 0 [] := by
    simp [announceFinish, hmay, hclient, hfin]
  simp only [mayFinish, isIdle, Bool.and_eq_true, List.isEmpty_iff] at hmay
  obtain ⟨⟨⟨hstreams, -⟩, hcontrols⟩, hcan⟩ := hmay
  have hdvd : e.profile.bucket ∣ e.sentLog.length + 1 := by
    rw [h.counted]
    exact Profile.bucket_dvd_of_canFinish hcan
  have hquiet : (e.toSelect t.now).streams.isEmpty = true ∧
      (e.toSelect t.now).controls = [⟨.sessionFinish, 0, []⟩] := by
    rw [toSelect, hann]
    exact ⟨hstreams, by simp [pushControl, hcontrols]⟩
  obtain ⟨rfl, rfl⟩ := select_of_announced hquiet.1 hquiet.2 hsel
  rw [passes_of_isEmpty (e := afterCell { e.toSelect t.now with controls := [] } _ time t.interval)
    hquiet.1] at hframe ⊢
  have hlen := congrArg List.length hframe.sentLog
  rw [List.length_append] at hlen
  refine ⟨⟨?_, fun _ => ⟨hquiet.1, rfl⟩, fun hf => ?_, fun _ => ⟨e.sentLog, 0, ?_, ?_, ?_⟩⟩, ?_⟩
  · rw [hlen, hframe.cells, h.counted]
    rfl
  · rw [hframe.finishing, hann] at hf
    cases hf
  · rw [hframe.sentLog]
    rfl
  · rw [hframe.profile]
    exact hdvd
  · exact fun c hc => h.before hfin c (List.mem_append_right _ hc)
  · rw [hlen]
    exact hdvd

/-- Any other tick. -/
lemma Finishing.tick_plain (h : e.Finishing) (hfin : e.finishing = false)
    (hmay : e.mayFinish t.now = false) (hsel : (e.toSelect t.now).select t.now = .ok (c, e₁)) :
    (e₁.afterCell c time t.interval).retire.cancel.Finishing ∧
      (e₁.afterCell c time t.interval).retire.cancel.finishing = false := by
  have hframe := cellFrame_of_select time hsel
  have hsame : e.announceFinish t.now = e := by simp [announceFinish, hmay]
  have hnone := h.before hfin
  have hfin' := hframe.finishing
  rw [hsame, hfin] at hfin'
  have hcne : c.command ≠ .sessionFinish := by
    refine select_ne_finish hsel fun d hd => ?_
    rw [toSelect, hsame] at hd
    exact hnone d (List.mem_append_left _ hd)
  obtain ⟨rest, resets, hctl, hresets, hrest⟩ := hframe.controls
  rw [hsame] at hrest
  refine ⟨⟨?_, fun hf => ?_, fun _ d hd => ?_, fun hf => ?_⟩, hfin'⟩
  · rw [hframe.sentLog, hframe.cells, List.length_append, h.counted]
    rfl
  · rw [hfin'] at hf
    cases hf
  · rw [hctl, hframe.sentLog, List.mem_append, List.mem_append, List.mem_append,
      List.mem_singleton] at hd
    rcases hd with (hd | hd) | hd | rfl
    · refine hnone d (List.mem_append_left _ ?_)
      rcases hrest with hrest | hrest
      · rwa [← hrest]
      · rw [hrest]
        exact List.mem_cons_of_mem _ hd
    · rw [hresets d hd]
      simp
    · exact hnone d (List.mem_append_right _ hd)
    · exact hcne
  · rw [hfin'] at hf
    cases hf

end Ticks

/-- One more tick of a client that has announced its finish. -/
def lateTick (e : Endpoint) : SessionInput → ℕ
  | .clock _ => if e.finishing then 1 else 0
  | _ => 0

/-- With `n` late ticks, all cells but the last `n` fill buckets. -/
structure LateCount (e : Endpoint) (n : ℕ) : Prop where
  before : e.finishing = false → n = 0
  after : e.finishing = true → ∃ m, e.sentLog.length = m + n ∧ e.profile.bucket ∣ m

lemma LateCount.keep (h : e.LateCount n) (hk : KeepsFinish e e') : e'.LateCount n := by
  refine ⟨fun hf => h.before (hk.finishing ▸ hf), fun hf => ?_⟩
  rw [hk.sentLog, hk.profile]
  exact h.after (hk.finishing ▸ hf)

/-- What a client step does to its finish: it fails, or it keeps both
invariants. -/
theorem Finishing.step (h : e.Finishing) (hn : e.LateCount n)
    (hclient : e.client = true) (hs : e.step i = some e') :
    e'.Finishing ∧ ((∃ x, e'.result = some (.error x)) ∨ e'.LateCount (n + e.lateTick i)) := by
  cases advances_of_step hs with
  | failed _ x => exact ⟨⟨h.counted, h.quiet, h.before, h.after⟩, .inl ⟨x, rfl⟩⟩
  | requestRefused | worker | connect =>
    exact ⟨⟨h.counted, h.quiet, h.before, h.after⟩, .inr ⟨hn.before, hn.after⟩⟩
  | tick t _ _ _ ht =>
    have hstart : Finishing { e with time := t.now } := ⟨h.counted, h.quiet, h.before, h.after⟩
    cases tick_eq_ok ht with
    | last _ _ hexit =>
      rw [show e.client = false from hexit] at hclient
      cases hclient
    | cell c e₁ time _ hsel =>
      have hframe := cellFrame_of_select time hsel
      have hlen := congrArg List.length hframe.sentLog
      rw [List.length_append] at hlen
      cases hfin : e.finishing with
      | true =>
        obtain ⟨htick, hfin'⟩ := hstart.tick_late time hfin hsel
        obtain ⟨m, hm, hdvd⟩ := hn.after hfin
        have hnot : ((e₁.afterCell c time t.interval).retire.cancel).finishing ≠ false := by
          simp [hfin']
        refine ⟨htick, .inr ⟨fun hf => absurd hf hnot, fun _ => ⟨m, ?_, ?_⟩⟩⟩
        · rw [hlen, show e.sentLog.length = m + n from hm]
          simp only [lateTick, hfin, List.length_cons, List.length_nil, if_true]
          omega
        · rw [hframe.profile]
          exact hdvd
      | false =>
        have hlate : n + e.lateTick (.clock t) = 0 := by simp [lateTick, hfin, hn.before hfin]
        rw [hlate]
        cases hmay : mayFinish { e with time := t.now } t.now with
        | true =>
          obtain ⟨htick, hdvd⟩ := hstart.tick_announce time hfin hclient hmay hsel
          refine ⟨htick, .inr ⟨fun _ => rfl, fun _ => ⟨_, rfl, ?_⟩⟩⟩
          rw [hframe.profile]
          exact hdvd
        | false =>
          obtain ⟨htick, hfin'⟩ := hstart.tick_plain time hfin hmay hsel
          exact ⟨htick, .inr ⟨fun _ => rfl, fun hf => by rw [hfin'] at hf; cases hf⟩⟩
  | requested now host port _ _ _ hfin hreq =>
    obtain ⟨target, rfl⟩ := request_eq_ok hreq
    have hnot : e.finishing ≠ true := by simp [hfin]
    refine ⟨⟨h.counted, fun hf => absurd hf hnot, fun _ c hc => ?_, fun hf => absurd hf hnot⟩,
      .inr ⟨hn.before, fun hf => absurd hf hnot⟩⟩
    have hc : c ∈ (e.controls ++ [⟨.sessionOpen, e.lastId + 1, target⟩]) ++ e.sentLog := hc
    rw [List.mem_append, List.mem_append, List.mem_singleton] at hc
    rcases hc with (hc | rfl) | hc
    · exact h.before hfin c (List.mem_append_left _ hc)
    · simp
    · exact h.before hfin c (List.mem_append_right _ hc)
  | event now x rest _ he _ _ hx =>
    have hstart : Finishing { e with time := now, events := rest } :=
      ⟨h.counted, h.quiet, h.before, h.after⟩
    have hk := Handles.keepsFinish (e := { e with time := now, events := rest }) hclient hx
    have hcount : LateCount { e with time := now, events := rest } n := ⟨hn.before, hn.after⟩
    exact ⟨hstart.keep hk, .inr (hcount.keep hk)⟩
  | frame now budget c _ _ _ hd =>
    have hstart : Finishing (e.logFrame now budget c) := ⟨h.counted, h.quiet, h.before, h.after⟩
    have hk := Dispatches.keepsFinish (e := e.logFrame now budget c) hclient hd
    have hcount : LateCount (e.logFrame now budget c) n := ⟨hn.before, hn.after⟩
    exact ⟨hstart.keep hk, .inr (hcount.keep hk)⟩

lemma Finishing.exists_lateCount (h : e.Finishing) : ∃ n, e.LateCount n := by
  cases hfin : e.finishing with
  | false => exact ⟨0, fun _ => rfl, fun hf => by rw [hfin] at hf; cases hf⟩
  | true =>
    obtain ⟨a, k, hlog, hdvd, -⟩ := h.after hfin
    refine ⟨k, fun hf => by (rw [hfin] at hf; cases hf), fun _ => ⟨a.length + 1, ?_, hdvd⟩⟩
    rw [hlog, List.length_append, List.length_cons, List.length_replicate]
    omega

/-- The exit's cells: all are counted but the last, which fills a bucket. -/
structure ExitCount (e : Endpoint) : Prop where
  running : e.result ≠ some (.ok ()) → e.sentLog.length = e.cells
  finished : e.result = some (.ok ()) → e.profile.bucket ∣ e.sentLog.length

lemma ExitCount.keep (h : e.ExitCount) (hlog : e'.sentLog = e.sentLog) (hcells : e'.cells = e.cells)
    (hprofile : e'.profile = e.profile) (hresult : e'.result = e.result) : e'.ExitCount := by
  refine ⟨?_, ?_⟩
  · rw [hresult, hlog, hcells]
    exact h.running
  · rw [hresult, hlog, hprofile]
    exact h.finished

theorem ExitCount.step (h : e.ExitCount) (hexit : e.client = false)
    (hs : e.step i = some e') : e'.ExitCount := by
  cases advances_of_step hs with
  | failed _ x hr => exact ⟨fun _ => h.running (by simp [hr]), by rintro ⟨⟩⟩
  | requestRefused | worker | connect => exact h.keep rfl rfl rfl rfl
  | tick t _ hr _ ht =>
    have hlen : e.sentLog.length = e.cells := h.running (by simp [hr])
    cases tick_eq_ok ht with
    | last time hfin =>
      refine ⟨fun hne => absurd rfl hne, fun _ => ?_⟩
      simp only [mayFinish, Bool.and_eq_true] at hfin
      rw [List.length_append, hlen]
      exact Profile.bucket_dvd_of_canFinish hfin.2
    | cell c e₁ time _ hsel =>
      have hframe := cellFrame_of_select time hsel
      refine ⟨fun _ => ?_, fun hok => ?_⟩
      · rw [hframe.sentLog, hframe.cells, List.length_append]
        exact congrArg (· + 1) hlen
      · rw [hframe.result, show e.result = none from hr] at hok
        cases hok
  | requested _ _ _ _ _ hc =>
    rw [hexit] at hc
    cases hc
  | event now x rest _ _ _ _ hx =>
    obtain ⟨_, _, _, _, _, _, rfl⟩ := hx.tables
    exact h.keep rfl rfl rfl rfl
  | frame now budget c _ _ _ hd =>
    obtain ⟨_, _, _, _, _, _, _, _, _, _, result, rfl, -, hresult⟩ := hd.tables
    refine h.keep rfl rfl rfl (hresult.resolve_right fun hfinished => ?_)
    rw [show e.client = true from hfinished.2.1] at hexit
    cases hexit

/-- A client only returns after it has announced its finish. -/
lemma finishing_of_step (hclient : e.client = true)
    (h : e.result = some (.ok ()) → e.finishing = true) (hs : e.step i = some e') :
    e'.result = some (.ok ()) → e'.finishing = true := by
  cases advances_of_step hs with
  | failed => rintro ⟨⟩
  | requestRefused => exact h
  | worker | connect => exact h
  | tick t _ hr _ ht =>
    cases tick_eq_ok ht with
    | last _ _ hexit =>
      rw [show e.client = false from hexit] at hclient
      cases hclient
    | cell c e₁ time _ hsel =>
      rw [(cellFrame_of_select time hsel).result, show e.result = none from hr]
      simp
  | requested now host port _ hr _ _ hreq =>
    obtain ⟨target, rfl⟩ := request_eq_ok hreq
    exact h
  | event now x rest _ _ _ _ hx =>
    obtain ⟨_, _, _, _, _, _, rfl⟩ := hx.tables
    exact h
  | frame now budget c _ _ _ hd =>
    obtain ⟨_, _, _, _, _, _, _, _, _, _, result, rfl, -, rfl | ⟨-, -, hfin⟩⟩ := hd.tables
    · exact h
    · exact fun _ => hfin

/-- An endpoint that has failed stays failed. -/
lemma error_of_step {x : SessionError} (hs : e.step i = some e')
    (hr : e.result = some (.error x)) : e'.result = some (.error x) := by
  cases advances_of_step hs with
  | worker | connect => exact hr
  | _ => simp_all

end Endpoint

namespace SessionPair
variable {p p' : SessionPair} {profile : Profile}
  {clientSeq exitSeq clientInterval exitInterval : ℕ}

def lateTick (p : SessionPair) : PairInput → ℕ
  | .client i => p.client.lateTick i
  | _ => 0

/-- How often the client's clock fires in a run after the client has announced
its finish. -/
def lateTicks : SessionPair → List PairInput → ℕ
  | _, [] => 0
  | p, i :: is => p.lateTick i + match p.step i with
      | none => 0
      | some p' => p'.lateTicks is

/-- The client's part of the invariant. -/
structure ClientCount (p : SessionPair) (n : ℕ) : Prop where
  client : p.client.client = true
  finishing : p.client.Finishing
  count : (∃ x, p.client.result = some (.error x)) ∨ p.client.LateCount n

lemma ClientCount.of_client {j : SessionInput} (h : p.ClientCount n)
    (hs : p.client.step j = some p'.client) : p'.ClientCount (n + p.client.lateTick j) := by
  refine ⟨(Endpoint.setup_step hs).1.trans h.client, ?_, ?_⟩
  · obtain ⟨m, hm⟩ := h.finishing.exists_lateCount
    exact (h.finishing.step hm h.client hs).1
  · rcases h.count with ⟨x, hx⟩ | hn
    · exact .inl ⟨x, Endpoint.error_of_step hs hx⟩
    · exact (h.finishing.step hn h.client hs).2

lemma ClientCount.step {i : PairInput} (h : p.ClientCount n) (hs : p.step i = some p') :
    p'.ClientCount (n + p.lateTick i) := by
  cases i with
  | client =>
    simp only [SessionPair.step] at hs
    split_ifs at hs
    obtain ⟨e, he, rfl⟩ := Option.map_eq_some_iff.mp hs
    exact h.of_client he
  | exit =>
    simp only [SessionPair.step] at hs
    split_ifs at hs
    obtain ⟨e, he, rfl⟩ := Option.map_eq_some_iff.mp hs
    exact ⟨h.client, h.finishing, h.count⟩
  | deliverForward =>
    simp only [SessionPair.step] at hs
    split at hs
    · cases hs
    · obtain ⟨e, he, rfl⟩ := Option.map_eq_some_iff.mp hs
      exact ⟨h.client, h.finishing, h.count⟩
  | deliverBackward now =>
    simp only [SessionPair.step] at hs
    split at hs
    · cases hs
    · rename_i c rest hq
      obtain ⟨e, he, rfl⟩ := Option.map_eq_some_iff.mp hs
      have hclient : ClientCount { p with
          client := e, backward := rest, forward := p.forward ++ p.client.emitted e }
          (n + p.client.lateTick (.frame now (.ok c))) := h.of_client he
      exact hclient

lemma ClientCount.run (is : List PairInput) (h : p.ClientCount n)
    (hs : runInputs SessionPair.step p is = some p') : p'.ClientCount (n + p.lateTicks is) := by
  induction is generalizing p n with
  | nil =>
    cases hs
    exact h
  | cons i is ih =>
    obtain ⟨q, hq, hrest⟩ := Option.bind_eq_some_iff.mp hs
    have hstep := ih (h.step hq) hrest
    rw [lateTicks, hq, ← Nat.add_assoc]
    exact hstep

lemma clientCount_new :
    (new profile clientSeq exitSeq clientInterval exitInterval).ClientCount 0 :=
  ⟨rfl, ⟨rfl, by rintro ⟨⟩, by simp [new, Endpoint.new], by rintro ⟨⟩⟩, .inr ⟨fun _ => rfl, by rintro ⟨⟩⟩⟩

/-- A session that finishes leaves the exit with full buckets. The client's cells
fill buckets if and only if the ticks after its announcement do. -/
theorem finish_aligned_iff {is : List PairInput}
    (h : runInputs step (new profile clientSeq exitSeq clientInterval exitInterval) is = some p)
    (hclient : p.client.result = some (.ok ())) (hexit : p.exit.result = some (.ok ())) :
    profile.bucket ∣ p.exit.sentLog.length ∧
      (profile.bucket ∣ p.client.sentLog.length ↔ profile.bucket ∣
        (new profile clientSeq exitSeq clientInterval exitInterval).lateTicks is) := by
  have hrun := runs_of_run (both_of_run (Run.of_inputs is h))
  refine ⟨?_, ?_⟩
  · have hinv : p.exit.client = false ∧ p.exit.ExitCount := by
      refine hrun.2.invariant (I := fun e => e.client = false ∧ e.ExitCount)
        ⟨rfl, fun _ => rfl, by rintro ⟨⟩⟩ fun e i e' he _ hs => ?_
      exact ⟨(Endpoint.setup_step hs).1.trans he.1, he.2.step he.1 hs⟩
    have hdvd := hinv.2.finished hexit
    rwa [(Endpoint.client_of_run hrun.2).2] at hdvd
  · have hcount := ClientCount.run is clientCount_new h
    rw [Nat.zero_add] at hcount
    -- a client that has returned has seen the answer to its announcement
    have hfin : p.client.finishing = true := by
      refine (hrun.1.invariant (I := fun e => e.client = true ∧
        (e.result = some (.ok ()) → e.finishing = true)) ⟨rfl, by rintro ⟨⟩⟩ fun e i e' he _ hs => ?_).2 hclient
      exact ⟨(Endpoint.setup_step hs).1.trans he.1, Endpoint.finishing_of_step he.1 he.2 hs⟩
    obtain ⟨m, hm, hdvd⟩ := (hcount.count.resolve_left (by simp [hclient])).after hfin
    rw [(Endpoint.client_of_run hrun.1).2] at hdvd
    rw [hm]
    exact Nat.dvd_add_right hdvd

/-- Both clocks fire and all cells arrive at once. -/
def quietRound (ms : ℕ) : List PairInput := [
  .client (.clock (.prompt ms)), .deliverForward (millis ms), .exit (.clock (.prompt ms)),
  .deliverBackward (millis ms)]

/-- A session without streams whose first cells take 29 seconds on the link, up
to the exit's last cell. -/
def quietSession : List PairInput :=
  [.client (.clock ⟨millis 40, some (millis 29000), millis 40⟩),
    .exit (.clock ⟨millis 40, some (millis 29000), millis 40⟩),
    .deliverForward (millis 29000), .deliverBackward (millis 29000)] ++
  (List.range' 1 62).flatMap (fun k => quietRound (29000 + 40 * k)) ++
  [.client (.clock (.prompt 31520)), .deliverForward (millis 31520), .exit (.clock (.prompt 31520))]

def quietStart : SessionPair := .new .balanced 1 1 (millis 40) (millis 40)

/-- The client's clock fires once more before the answer arrives. -/
def lateAnswer : SessionPair :=
  (runInputs step quietStart
    (quietSession ++ [.client (.clock (.prompt 31560)), .deliverBackward (millis 31560)])).getD
    quietStart

theorem unaligned_client : Run step quietStart lateAnswer ∧
    lateAnswer.client.result = some (.ok ()) ∧ lateAnswer.exit.result = some (.ok ()) ∧
    lateAnswer.client.sentLog.length = 65 ∧ lateAnswer.exit.sentLog.length = 64 :=
  ⟨Run.getD_inputs _, by decide +kernel⟩

/-- The answer arrives at once. -/
def promptAnswer : SessionPair :=
  (runInputs step quietStart (quietSession ++ [.deliverBackward (millis 31530)])).getD quietStart

theorem aligned_client : 64 ∣ promptAnswer.exit.sentLog.length ∧
    (64 ∣ promptAnswer.client.sentLog.length ↔
      64 ∣ quietStart.lateTicks (quietSession ++ [.deliverBackward (millis 31530)])) := by
  have hrun : (runInputs step quietStart
      (quietSession ++ [.deliverBackward (millis 31530)])).isSome = true := by decide +kernel
  have hstate : runInputs step quietStart (quietSession ++ [.deliverBackward (millis 31530)]) =
      some promptAnswer := by
    obtain ⟨p, hp⟩ := Option.isSome_iff_exists.mp hrun
    rw [promptAnswer, hp]
    rfl
  exact finish_aligned_iff hstate (by decide +kernel) (by decide +kernel)

end SessionPair

end AnonGuard
