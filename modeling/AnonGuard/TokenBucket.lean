import Mathlib.Tactic

/-!
# Token buckets

A bucket starts with `burst` tokens and gains one at every full interval since its last
refill. Once `burst` intervals have passed it is full again and a new interval starts, so
that the part of the interval that was running is lost; before that the interval goes on.
Times are in nanoseconds.
-/
namespace AnonGuard

@[ext] structure TokenBucket where
  tokens : ℕ
  burst : ℕ
  refill : ℕ
  last : ℕ
  burst_pos : 0 < burst
  burst_lt : burst < 2 ^ 32
  refill_pos : 0 < refill
  tokens_le : tokens ≤ burst

namespace TokenBucket

/-- `TokenBucket::new`, which asserts that there is a burst and an interval. -/
def new (burst refill now : ℕ) (hburst : 0 < burst) (hlt : burst < 2 ^ 32) (hrefill : 0 < refill) :
    TokenBucket :=
  ⟨burst, burst, refill, now, hburst, hlt, hrefill, le_rfl⟩

/-- The intervals that are over. -/
def intervals (b : TokenBucket) (now : ℕ) : ℕ := (now - b.last) / b.refill

/-- The bucket once its refill is accounted for. -/
def refilled (b : TokenBucket) (now : ℕ) : TokenBucket :=
  let refill := b.intervals now
  if refill ≥ b.burst then { b with tokens := b.burst, last := now, tokens_le := le_rfl }
  else if refill > 0 then
    { b with
      -- a saturating addition of 32 bits
      tokens := min (min (b.tokens + refill) (2 ^ 32 - 1)) b.burst
      last := b.last + b.refill * refill
      tokens_le := min_le_right _ _ }
  else b

def available (b : TokenBucket) (now : ℕ) : Bool × TokenBucket :=
  (decide (0 < (b.refilled now).tokens), b.refilled now)

def spend (b : TokenBucket) : TokenBucket :=
  { b with tokens := b.tokens - 1, tokens_le := (Nat.sub_le _ _).trans b.tokens_le }

def take (b : TokenBucket) (now : ℕ) : Bool × TokenBucket :=
  match b.available now with
  | (false, b) => (false, b)
  | (true, b) => (true, b.spend)

/-- A call at a clock reading. -/
inductive Call
  | available (now : ℕ)
  | take (now : ℕ)
  deriving DecidableEq, Repr

def Call.time : Call → ℕ
  | available now | take now => now

def call (b : TokenBucket) : Call → Bool × TokenBucket
  | .available now => b.available now
  | .take now => b.take now

/-- The bucket after a row of calls. -/
def after (b : TokenBucket) (calls : List Call) : TokenBucket :=
  calls.foldl (fun b c => (b.call c).2) b

/-- The times of the takes that succeed. -/
def spends (b : TokenBucket) : List Call → List ℕ
  | [] => []
  | .available now :: calls => spends (b.available now).2 calls
  | .take now :: calls =>
    if (b.take now).1 then now :: spends (b.take now).2 calls else spends (b.take now).2 calls

section Step
variable {b : TokenBucket} {now t : ℕ}

/-- Everything that a refill can do. -/
lemma refilled_cases (b : TokenBucket) (now : ℕ) :
    (b.burst ≤ b.intervals now ∧ (b.refilled now).tokens = b.burst ∧ (b.refilled now).last = now) ∨
      (b.intervals now < b.burst ∧
        (b.refilled now).tokens = min (b.tokens + b.intervals now) b.burst ∧
        (b.refilled now).last = b.last + b.refill * b.intervals now) := by
  unfold refilled
  dsimp only
  have hlt := b.burst_lt
  have hle := b.tokens_le
  split_ifs with hfull hsome
  · exact .inl ⟨hfull, rfl, rfl⟩
  · refine .inr ⟨by omega, ?_, rfl⟩
    show min (min (b.tokens + b.intervals now) (2 ^ 32 - 1)) b.burst = _
    omega
  · have hzero : b.intervals now = 0 := by omega
    rw [hzero]
    refine .inr ⟨b.burst_pos, ?_, ?_⟩
    · omega
    · simp

@[simp] lemma burst_refilled : (b.refilled now).burst = b.burst := by
  unfold refilled
  dsimp only
  split_ifs <;> rfl

@[simp] lemma refill_refilled : (b.refilled now).refill = b.refill := by
  unfold refilled
  dsimp only
  split_ifs <;> rfl

@[simp] lemma burst_spend : b.spend.burst = b.burst := rfl

@[simp] lemma refill_spend : b.spend.refill = b.refill := rfl

@[simp] lemma last_spend : b.spend.last = b.last := rfl

lemma take_of_tokens (h : 0 < (b.refilled now).tokens) :
    b.take now = (true, (b.refilled now).spend) := by
  simp [take, available, h]

lemma take_of_no_tokens (h : (b.refilled now).tokens = 0) : b.take now = (false, b.refilled now) := by
  simp [take, available, h]

lemma refilled_of_intervals (h : b.intervals now = 0) : b.refilled now = b := by
  have := b.burst_pos
  simp [refilled, h, this.ne']

@[simp] lemma burst_take : (b.take now).2.burst = b.burst := by
  by_cases htokens : (b.refilled now).tokens = 0
  · simp [take_of_no_tokens htokens]
  · simp [take_of_tokens (Nat.pos_of_ne_zero htokens)]

@[simp] lemma refill_take : (b.take now).2.refill = b.refill := by
  by_cases htokens : (b.refilled now).tokens = 0
  · simp [take_of_no_tokens htokens]
  · simp [take_of_tokens (Nat.pos_of_ne_zero htokens)]

/-- A take is refused only if nothing has been refilled, and leaves everything as it is. -/
lemma take_refused (h : (b.take now).1 = false) : (b.take now).2 = b := by
  have hzero : (b.refilled now).tokens = 0 := by
    by_contra hpos
    rw [take_of_tokens (Nat.pos_of_ne_zero hpos)] at h
    cases h
  rw [take_of_no_tokens hzero]
  refine refilled_of_intervals ?_
  have := b.burst_pos
  rcases refilled_cases b now with ⟨-, htokens, -⟩ | ⟨-, htokens, -⟩ <;> omega

lemma refill_mul_intervals_le (b : TokenBucket) (now : ℕ) :
    b.refill * b.intervals now ≤ now - b.last := Nat.mul_div_le _ _

lemma lt_refill_mul_intervals (b : TokenBucket) (now : ℕ) :
    now - b.last < b.refill * b.intervals now + b.refill := by
  have := Nat.lt_mul_div_succ (now - b.last) b.refill_pos
  rwa [mul_add, mul_one] at this

end Step

section Bounds
variable {b : TokenBucket} {now t : ℕ} {calls : List Call}

/-- What the bucket may still give out up to a time. -/
def allowance (b : TokenBucket) (t : ℕ) : ℕ := b.tokens + (t - b.last) / b.refill

/-- A refill only moves intervals into tokens. -/
lemma allowance_refilled_le (hnow : now ≤ t) : (b.refilled now).allowance t ≤ b.allowance t := by
  have hle := refill_mul_intervals_le b now
  have hpos := b.burst_pos
  obtain ⟨htokens, hlast⟩ : (b.refilled now).tokens ≤ b.tokens + b.intervals now ∧
      b.last + b.refill * b.intervals now ≤ (b.refilled now).last := by
    rcases refilled_cases b now with ⟨hfull, htokens, hlast⟩ | ⟨-, htokens, hlast⟩
    · have hprod : 0 < b.refill * b.intervals now := Nat.mul_pos b.refill_pos (by omega)
      omega
    · omega
  have hdiv : (t - (b.refilled now).last) / b.refill ≤ (t - b.last) / b.refill - b.intervals now := by
    rw [← Nat.sub_mul_div]
    exact Nat.div_le_div_right (by omega)
  have hmono : b.intervals now ≤ (t - b.last) / b.refill := Nat.div_le_div_right (by omega)
  unfold allowance
  rw [refill_refilled]
  omega

lemma allowance_take (hnow : now ≤ t) :
    (if (b.take now).1 then 1 else 0) + (b.take now).2.allowance t ≤ b.allowance t := by
  have hrefilled := allowance_refilled_le (b := b) hnow
  by_cases htokens : (b.refilled now).tokens = 0
  · rw [take_of_no_tokens htokens]
    simpa using hrefilled
  · have hpos := Nat.pos_of_ne_zero htokens
    rw [take_of_tokens hpos]
    have hspend : 1 + (b.refilled now).spend.allowance t = (b.refilled now).allowance t := by
      simp only [allowance, spend]
      omega
    simpa [hspend] using hrefilled

lemma mem_spends {time : ℕ} (h : time ∈ b.spends calls) : ∃ c ∈ calls, c.time = time := by
  induction calls generalizing b with
  | nil => cases h
  | cons c calls ih =>
    cases c with
    | available =>
      obtain ⟨c, hc, htime⟩ := ih h
      exact ⟨c, List.mem_cons_of_mem _ hc, htime⟩
    | take =>
      simp only [spends] at h
      split_ifs at h
      · rcases List.mem_cons.mp h with rfl | h
        · exact ⟨.take _, List.mem_cons_self .., rfl⟩
        · obtain ⟨c, hc, htime⟩ := ih h
          exact ⟨c, List.mem_cons_of_mem _ hc, htime⟩
      · obtain ⟨c, hc, htime⟩ := ih h
        exact ⟨c, List.mem_cons_of_mem _ hc, htime⟩

/-- The takes up to a time that succeed are within the allowance for that time. -/
lemma countP_spends_le (hsorted : calls.Pairwise (·.time ≤ ·.time)) :
    (b.spends calls).countP (· ≤ t) ≤ b.allowance t := by
  induction calls generalizing b with
  | nil => simp [spends]
  | cons c calls ih =>
    obtain ⟨hfirst, hrest⟩ := List.pairwise_cons.mp hsorted
    by_cases hnow : c.time ≤ t
    · cases c with
      | available => exact (ih hrest).trans (allowance_refilled_le hnow)
      | take now =>
        have hnow' : now ≤ t := hnow
        have hstep := allowance_take (b := b) hnow'
        have hih := ih (b := (b.take now).2) hrest
        simp only [spends]
        split_ifs with htake
        · rw [if_pos htake] at hstep
          rw [List.countP_cons_of_pos (by simpa using hnow')]
          omega
        · omega
    · -- nothing of this call or a later one counts
      have hlate : (b.spends (c :: calls)).countP (· ≤ t) = 0 := by
        rw [List.countP_eq_zero]
        intro time htime
        obtain ⟨c', hc', rfl⟩ := mem_spends htime
        rcases List.mem_cons.mp hc' with rfl | hc'
        · simpa using hnow
        · have := hfirst c' hc'
          simp only [decide_eq_true_eq]
          omega
      omega

/-- After a take that succeeds, one token is missing, and the running interval has begun before
the take. -/
lemma allowance_of_take {start length : ℕ} (htake : (b.take now).1 = true) (hstart : start ≤ now) :
    (b.take now).2.allowance (start + length) ≤ b.burst + length / b.refill := by
  have hpos : 0 < (b.refilled now).tokens := by
    by_contra hzero
    rw [take_of_no_tokens (by omega)] at htake
    cases htake
  have hlast : now < (b.refilled now).last + b.refill := by
    have hlt := lt_refill_mul_intervals b now
    have := b.refill_pos
    rcases refilled_cases b now with ⟨-, -, hlast⟩ | ⟨-, -, hlast⟩ <;> omega
  have hle := (b.refilled now).tokens_le
  have hdiv : (start + length - (b.refilled now).last) / b.refill ≤ length / b.refill + 1 := by
    rw [← Nat.add_div_right _ b.refill_pos]
    exact Nat.div_le_div_right (by omega)
  rw [take_of_tokens hpos]
  simp only [allowance, spend, refill_refilled, burst_refilled] at hle ⊢
  omega

/-- The takes in a closed window that succeed. -/
lemma countP_spends_window_le (hsorted : calls.Pairwise (·.time ≤ ·.time)) (start length : ℕ) :
    (b.spends calls).countP (fun time => start ≤ time ∧ time ≤ start + length) ≤
      b.burst + length / b.refill + 1 := by
  induction calls generalizing b with
  | nil => simp [spends]
  | cons c calls ih =>
    obtain ⟨-, hrest⟩ := List.pairwise_cons.mp hsorted
    cases c with
    | available now => simpa [spends, available] using ih (b := (b.available now).2) hrest
    | take now =>
      have hlater := ih (b := (b.take now).2) hrest
      rw [burst_take, refill_take] at hlater
      simp only [spends]
      by_cases htake : (b.take now).1 = true
      · rw [if_pos htake]
        by_cases hwindow : start ≤ now ∧ now ≤ start + length
        · have hcount : ((b.take now).2.spends calls).countP
              (fun time => start ≤ time ∧ time ≤ start + length) ≤
                ((b.take now).2.spends calls).countP (· ≤ start + length) :=
            List.countP_mono_left (by simp)
          have hbound := countP_spends_le (b := (b.take now).2) (t := start + length) hrest
          have hallowance : (b.take now).2.allowance (start + length) ≤ _ :=
            allowance_of_take htake hwindow.1
          rw [List.countP_cons_of_pos (by simpa using hwindow)]
          omega
        · rw [List.countP_cons_of_neg (by simpa using hwindow)]
          exact hlater
      · rw [if_neg htake]
        exact hlater

end Bounds

section Credit
variable {b b' : TokenBucket} {now t : ℕ} {calls : List Call}

/-- The credit at a time, in nanoseconds: the tokens, and the part of the interval that has
passed. -/
def credit (b : TokenBucket) (t : ℕ) : ℕ :=
  (b.refilled t).tokens * b.refill + (t - (b.refilled t).last)

/-- Credit grows with time up to a limit, where tokens or the running interval are lost. -/
lemma credit_cases (b : TokenBucket) (t : ℕ) :
    b.burst * b.refill ≤ b.refill * b.intervals t ∧ b.credit t = b.burst * b.refill ∨
      b.refill * b.intervals t + b.refill ≤ b.burst * b.refill ∧
      b.credit t = min (b.tokens * b.refill + b.refill * b.intervals t) (b.burst * b.refill) +
        (t - b.last - b.refill * b.intervals t) := by
  have hle := refill_mul_intervals_le b t
  rcases refilled_cases b t with ⟨hfull, htokens, hl⟩ | ⟨hpart, htokens, hl⟩
  · refine .inl ⟨?_, ?_⟩
    · rw [mul_comm b.refill]
      exact Nat.mul_le_mul_right _ hfull
    · rw [credit, htokens, hl, Nat.sub_self, Nat.add_zero]
  · refine .inr ⟨?_, ?_⟩
    · have := Nat.mul_le_mul_right b.refill hpart
      rw [Nat.succ_mul, mul_comm (b.intervals t)] at this
      exact this
    · rw [credit, htokens, hl, ← Nat.mul_min_mul_right, add_mul, mul_comm (b.intervals t)]
      omega

/-- Two buckets of one kind whose credits differ by less than a token. -/
structure Close (t : ℕ) (b b' : TokenBucket) : Prop where
  burst : b.burst = b'.burst
  refill : b.refill = b'.refill
  last : b.last ≤ t
  last' : b'.last ≤ t
  credit : b.credit t < b'.credit t + b.refill
  credit' : b'.credit t < b.credit t + b.refill

/-- How credit changes from one time to a later one. -/
lemma credit_later {later : ℕ} (hlast : b.last ≤ t) (hlater : t ≤ later) :
    b.credit later ≤ b.credit t + (later - t) ∧
      b.credit later < b.burst * b.refill + b.refill ∧
      (b.credit later = b.credit t + (later - t) ∨ b.burst * b.refill ≤ b.credit later) := by
  have hmono : b.intervals t ≤ b.intervals later := Nat.div_le_div_right (by omega)
  have hstep : b.refill * b.intervals t = b.refill * b.intervals later ∨
      b.refill * b.intervals t + b.refill ≤ b.refill * b.intervals later := by
    rcases hmono.eq_or_lt with heq | hlt
    · exact .inl (by rw [heq])
    · exact .inr (Nat.mul_le_mul_left b.refill hlt)
  have htokens := Nat.mul_le_mul_right b.refill b.tokens_le
  have hle := refill_mul_intervals_le b t
  have hlt := lt_refill_mul_intervals b t
  have hle' := refill_mul_intervals_le b later
  have hlt' := lt_refill_mul_intervals b later
  have hpos := b.refill_pos
  have hcredit := credit_cases b t
  have hcredit' := credit_cases b later
  generalize b.refill * b.intervals t = q at *
  generalize b.refill * b.intervals later = q' at *
  generalize b.tokens * b.refill = tokens at *
  generalize b.burst * b.refill = burst at *
  omega

/-- Buckets stay close while time passes. -/
lemma Close.mono {later : ℕ} (h : Close t b b') (hlater : t ≤ later) : Close later b b' := by
  obtain ⟨hburst, hrefill, hlast, hlast', hcredit, hcredit'⟩ := h
  obtain ⟨hgrow, hlimit, hkept⟩ := credit_later hlast hlater
  obtain ⟨hgrow', hlimit', hkept'⟩ := credit_later hlast' hlater
  rw [← hburst, ← hrefill] at hlimit' hkept'
  generalize b.burst * b.refill = burst at *
  exact ⟨hburst, hrefill, hlast.trans hlater, hlast'.trans hlater, by omega, by omega⟩

lemma last_refilled_le (h : b.last ≤ t) : (b.refilled t).last ≤ t := by
  have hle := refill_mul_intervals_le b t
  rcases refilled_cases b t with ⟨-, -, hlast⟩ | ⟨-, -, hlast⟩ <;> omega

/-- A refill at the same time is accounted for already. -/
lemma intervals_refilled (h : b.last ≤ t) : (b.refilled t).intervals t = 0 := by
  have hlt := lt_refill_mul_intervals b t
  have hpos := b.refill_pos
  rw [intervals, refill_refilled]
  refine Nat.div_eq_of_lt ?_
  rcases refilled_cases b t with ⟨-, -, hlast⟩ | ⟨-, -, hlast⟩ <;> omega

lemma credit_refilled (h : b.last ≤ t) : (b.refilled t).credit t = b.credit t := by
  rw [credit, credit, refilled_of_intervals (intervals_refilled h), refill_refilled]

lemma Close.available (h : Close t b b') : Close t (b.available t).2 b' := by
  have hcredit := credit_refilled h.last
  refine ⟨by simp [TokenBucket.available, h.burst], by simp [TokenBucket.available, h.refill],
    last_refilled_le h.last, h.last', ?_, ?_⟩
  · simpa [TokenBucket.available, hcredit] using h.credit
  · simpa [TokenBucket.available, hcredit] using h.credit'

/-- A take costs a token, or is refused for want of one. -/
lemma credit_take (h : b.last ≤ t) :
    b.refill ≤ b.credit t ∧ (b.take t).2.credit t + b.refill = b.credit t ∨
      b.credit t < b.refill ∧ (b.take t).2.credit t = b.credit t := by
  have hsettled := intervals_refilled h
  by_cases htokens : (b.refilled t).tokens = 0
  · rw [take_of_no_tokens htokens]
    refine .inr ⟨?_, credit_refilled h⟩
    have hlt := lt_refill_mul_intervals (b.refilled t) t
    rw [hsettled, Nat.mul_zero, Nat.zero_add, refill_refilled] at hlt
    rwa [credit, htokens, Nat.zero_mul, Nat.zero_add]
  · have hpos := Nat.pos_of_ne_zero htokens
    have hspend : (b.refilled t).spend.refilled t = (b.refilled t).spend :=
      refilled_of_intervals hsettled
    rw [take_of_tokens hpos]
    have hcredit : (b.refilled t).spend.credit t =
        ((b.refilled t).tokens - 1) * b.refill + (t - (b.refilled t).last) := by
      rw [credit, hspend, refill_spend, refill_refilled, last_spend]
      rfl
    obtain ⟨n, hn⟩ := Nat.exists_eq_succ_of_ne_zero htokens
    refine .inl ?_
    dsimp only
    rw [hcredit, credit, hn, Nat.succ_sub_one, Nat.succ_mul]
    omega

lemma last_take_le (h : b.last ≤ t) : (b.take t).2.last ≤ t := by
  have hlast := last_refilled_le h
  by_cases htokens : (b.refilled t).tokens = 0
  · rwa [take_of_no_tokens htokens]
  · rw [take_of_tokens (Nat.pos_of_ne_zero htokens)]
    exact hlast

lemma Close.take (h : Close t b b') : Close t (b.take t).2 (b'.take t).2 := by
  obtain ⟨hburst, hrefill, hlast, hlast', hcredit, hcredit'⟩ := h
  have htake := credit_take hlast
  have htake' := credit_take hlast'
  refine ⟨by simp [hburst], by simp [hrefill], last_take_le hlast, last_take_le hlast', ?_, ?_⟩
  · rw [refill_take]
    omega
  · rw [refill_take]
    omega

def Call.isTake : Call → Bool
  | available _ => false
  | take _ => true

lemma refill_after (b : TokenBucket) (calls : List Call) : (b.after calls).refill = b.refill := by
  induction calls generalizing b with
  | nil => rfl
  | cons c calls ih =>
    cases c with
    | available => exact (ih _).trans refill_refilled
    | take => exact (ih _).trans refill_take

/-- Buckets that get the same takes stay close, whatever else one of them is asked. -/
lemma Close.after {start : ℕ} (h : Close start b b') (hsorted : calls.Pairwise (·.time ≤ ·.time))
    (hstart : ∀ c ∈ calls, start ≤ c.time) (hend : ∀ c ∈ calls, c.time ≤ t) (ht : start ≤ t) :
    Close t (b.after calls) (b'.after (calls.filter Call.isTake)) := by
  induction calls generalizing b b' start with
  | nil => exact h.mono ht
  | cons c calls ih =>
    obtain ⟨hfirst, hrest⟩ := List.pairwise_cons.mp hsorted
    obtain ⟨hnow, hlater⟩ := List.forall_mem_cons.mp hend
    have hthen := h.mono (hstart c (List.mem_cons_self ..))
    cases c with
    | available => exact ih hthen.available hrest hfirst hlater hnow
    | take => exact ih hthen.take hrest hfirst hlater hnow

end Credit

section Main
variable {burst refill : ℕ}

/-- A bucket gives out its burst and one token for each interval, and at most one more than that
in a window of time. A take that is refused leaves the bucket as it is. A question whether a
token is available moves the credit at later times by less than one token. -/
theorem takes_bounded (hburst : 0 < burst) (hlt : burst < 2 ^ 32) (hrefill : 0 < refill)
    (created : ℕ) (calls : List Call) (hsorted : calls.Pairwise (·.time ≤ ·.time))
    (hcreated : ∀ c ∈ calls, created ≤ c.time) :
    (∀ t, ((new burst refill created hburst hlt hrefill).spends calls).countP (· ≤ t) ≤
      burst + (t - created) / refill) ∧
    (∀ start length, ((new burst refill created hburst hlt hrefill).spends calls).countP
      (fun time => start ≤ time ∧ time ≤ start + length) ≤ burst + length / refill + 1) ∧
    (∀ now, (((new burst refill created hburst hlt hrefill).after calls).take now).1 = false →
      (((new burst refill created hburst hlt hrefill).after calls).take now).2 =
        (new burst refill created hburst hlt hrefill).after calls) ∧
    ∀ t, created ≤ t → (∀ c ∈ calls, c.time ≤ t) →
      let asked := ((new burst refill created hburst hlt hrefill).after calls).credit t
      let unasked := ((new burst refill created hburst hlt hrefill).after
        (calls.filter Call.isTake)).credit t
      asked < unasked + refill ∧ unasked < asked + refill := by
  refine ⟨fun t => countP_spends_le hsorted, countP_spends_window_le hsorted,
    fun now => take_refused, fun t ht hend => ?_⟩
  have hclose : Close created (new burst refill created hburst hlt hrefill)
      (new burst refill created hburst hlt hrefill) :=
    ⟨rfl, rfl, le_rfl, le_rfl, Nat.lt_add_of_pos_right hrefill, Nat.lt_add_of_pos_right hrefill⟩
  obtain ⟨-, -, -, -, hcredit, hcredit'⟩ := hclose.after hsorted hcreated hend ht
  rw [refill_after] at hcredit hcredit'
  exact ⟨hcredit, hcredit'⟩

/-- A question, and three takes. -/
def sampleCalls : List Call := [.available 10, .take 25, .take 44, .take 44]

theorem sampleCalls_bounded :
    ((new 2 10 0 (by decide) (by decide) (by decide)).spends sampleCalls).countP (· ≤ 44) ≤ 6 ∧
      ((new 2 10 0 (by decide) (by decide) (by decide)).spends sampleCalls).countP
        (fun time => 25 ≤ time ∧ time ≤ 44) ≤ 4 := by
  have h := takes_bounded (show 0 < 2 by decide) (by decide) (show 0 < 10 by decide) 0 sampleCalls
    (by decide) (by simp)
  exact ⟨h.1 44, h.2.1 25 19⟩

/-- Because of the question, the bucket is refilled as a whole at 44, and the interval that was
running is lost. -/
theorem question_costs_take :
    (((new 2 10 0 (by decide) (by decide) (by decide)).after sampleCalls).take 45).1 = false ∧
      (((new 2 10 0 (by decide) (by decide) (by decide)).after
        (sampleCalls.filter Call.isTake)).take 45).1 = true := by
  decide

end Main

end TokenBucket

end AnonGuard
