import AnonGuard.Maps
import Mathlib.Tactic

/-!
# Maps that keep the latest entry

Entries carry their own key and a time. A map takes an entry in if it has none under its key or
an earlier one. Whatever the order in which entries arrive, the map then holds a latest entry of
all that it has seen; if there is only one for each key, this determines the map.
-/
namespace AnonGuard

namespace LatestMap
variable {κ α τ : Type*} [Ord κ] [LinearOrder τ] {key : α → κ} {time : α → τ}

/-- Take an entry into the map, unless the map has one that is as late. -/
def upsert (key : α → κ) (time : α → τ) (m : Std.TreeMap κ α) (a : α) : Std.TreeMap κ α :=
  match m[key a]? with
  | none => m.insert (key a) a
  | some b => if time a > time b then m.insert (key a) a else m

/-- The map has a latest entry for every key in the set. -/
structure Holds (key : α → κ) (time : α → τ) (m : Std.TreeMap κ α) (s : Set α) : Prop where
  mem : ∀ (k : κ) (a : α), m[k]? = some a → a ∈ s ∧ key a = k
  latest : ∀ a ∈ s, ∃ b, m[key a]? = some b ∧ time a ≤ time b

variable {m m' : Std.TreeMap κ α} {s t : Set α} {a : α}

/-- Entries that are no later than others do not matter. -/
lemma Holds.extend (h : Holds key time m s) (hsub : s ⊆ t)
    (hlate : ∀ a ∈ t, ∃ b ∈ s, key b = key a ∧ time a ≤ time b) : Holds key time m t := by
  refine ⟨fun k a ha => ⟨hsub (h.mem k a ha).1, (h.mem k a ha).2⟩, fun a ha => ?_⟩
  obtain ⟨b, hb, hkey, hle⟩ := hlate a ha
  obtain ⟨c, hc, hle'⟩ := h.latest b hb
  exact ⟨c, hkey ▸ hc, hle.trans hle'⟩

variable [Std.TransOrd κ] [Std.LawfulEqOrd κ]

lemma getElem?_insert_of_ne {k : κ} (h : key a ≠ k) : (m.insert (key a) a)[k]? = m[k]? := by
  rw [Std.TreeMap.getElem?_insert, if_neg fun heq => h (Std.compare_eq_iff_eq.mp heq)]

/-- Taking in a later entry, or the first one under its key. -/
lemma Holds.insert (h : Holds key time m s) (hlater : ∀ b, m[key a]? = some b → time b ≤ time a) :
    Holds key time (m.insert (key a) a) (insert a s) := by
  constructor
  · intro k x hx
    rcases getElem?_insert_cases hx with ⟨hk, rfl⟩ | ⟨-, hx⟩
    · exact ⟨Set.mem_insert _ _, hk⟩
    · exact ⟨Set.mem_insert_of_mem _ (h.mem k x hx).1, (h.mem k x hx).2⟩
  · rintro x (rfl | hx)
    · exact ⟨x, by simp, le_rfl⟩
    · obtain ⟨b, hb, hle⟩ := h.latest x hx
      by_cases hk : key a = key x
      · rw [← hk] at hb ⊢
        exact ⟨a, by simp, hle.trans (hlater b hb)⟩
      · exact ⟨b, (getElem?_insert_of_ne hk).trans hb, hle⟩

lemma Holds.upsert (h : Holds key time m s) (a : α) :
    Holds key time (LatestMap.upsert key time m a) (Insert.insert a s) := by
  unfold LatestMap.upsert
  cases hb : m[key a]? with
  | none =>
    refine h.insert fun b hb' => ?_
    rw [hb] at hb'
    cases hb'
  | some b =>
    dsimp only
    split_ifs with hlater
    · refine h.insert fun b' hb' => ?_
      rw [hb] at hb'
      cases hb'
      exact hlater.le
    · refine ⟨fun k x hx => ⟨Set.mem_insert_of_mem _ (h.mem k x hx).1, (h.mem k x hx).2⟩, ?_⟩
      rintro x (rfl | hx)
      · exact ⟨b, hb, not_lt.mp hlater⟩
      · exact h.latest x hx

/-- A loop that takes in the entries of the items that it accepts. The set `u` bounds what the map
may hold when an item is looked at. -/
lemma Holds.foldl {β : Type*} {f : Std.TreeMap κ α → β → Std.TreeMap κ α} (accepts : β → Prop)
    (entry : β → α) {u : Set α} {l : List β} (hf : ∀ m s, Holds key time m s → s ⊆ u → ∀ b ∈ l,
      (accepts b → f m b = LatestMap.upsert key time m (entry b)) ∧ (¬ accepts b → f m b = m))
    (hl : ∀ b ∈ l, entry b ∈ u) (h : Holds key time m s) (hs : s ⊆ u) :
    Holds key time (l.foldl f m) (s ∪ {a | ∃ b ∈ l, accepts b ∧ entry b = a}) := by
  induction l generalizing m s with
  | nil =>
    have hset : s ∪ {a | ∃ b ∈ ([] : List β), accepts b ∧ entry b = a} = s := by simp
    rw [hset]
    exact h
  | cons b l ih =>
    have hrest : ∀ m s, Holds key time m s → s ⊆ u → ∀ b ∈ l,
        (accepts b → f m b = LatestMap.upsert key time m (entry b)) ∧ (¬ accepts b → f m b = m) :=
      fun m s h hs b hb => hf m s h hs b (by simp [hb])
    have hentries : ∀ b ∈ l, entry b ∈ u := fun b hb => hl b (by simp [hb])
    rw [List.foldl_cons]
    by_cases haccepts : accepts b
    · have hset : s ∪ {a | ∃ b' ∈ b :: l, accepts b' ∧ entry b' = a} =
          Insert.insert (entry b) s ∪ {a | ∃ b' ∈ l, accepts b' ∧ entry b' = a} := by
        ext x
        simp only [Set.mem_union, Set.mem_ofPred_eq, List.mem_cons, Set.mem_insert_iff,
          exists_eq_or_imp, haccepts, true_and]
        tauto
      rw [hset, (hf m s h hs b (by simp)).1 haccepts]
      exact ih hrest hentries (h.upsert _) (Set.insert_subset (hl b (by simp)) hs)
    · have hset : s ∪ {a | ∃ b' ∈ b :: l, accepts b' ∧ entry b' = a} =
          s ∪ {a | ∃ b' ∈ l, accepts b' ∧ entry b' = a} := by
        ext x
        simp only [Set.mem_union, Set.mem_ofPred_eq, List.mem_cons, exists_eq_or_imp, haccepts,
          false_and, false_or]
      rw [hset, (hf m s h hs b (by simp)).2 haccepts]
      exact ih hrest hentries h hs

/-- A map under its own keys holds its entries. -/
lemma holds_valuesOf (h : ∀ (k : κ) (a : α), m[k]? = some a → key a = k) :
    Holds key time m {a | a ∈ valuesOf m} := by
  refine ⟨fun k a ha => ⟨mem_valuesOf.mpr ⟨k, ha⟩, h k a ha⟩, fun a ha => ?_⟩
  obtain ⟨k, hk⟩ := mem_valuesOf.mp ha
  obtain rfl := h k a hk
  exact ⟨a, hk, le_rfl⟩

/-- Having taken in a map that holds `t` amounts to having taken in all of `t`. -/
lemma Holds.absorb (h : Holds key time m (s ∪ {a | a ∈ valuesOf m'})) (h' : Holds key time m' t) :
    Holds key time m (s ∪ t) := by
  refine h.extend ?_ ?_
  · refine Set.union_subset_union_right s fun a ha => ?_
    obtain ⟨k, hk⟩ := mem_valuesOf.mp ha
    exact (h'.mem k a hk).1
  · rintro a (ha | ha)
    · exact ⟨a, .inl ha, rfl, le_rfl⟩
    · obtain ⟨b, hb, hle⟩ := h'.latest a ha
      exact ⟨b, .inr (mem_valuesOf.mpr ⟨key a, hb⟩), (h'.mem _ b hb).2, hle⟩

/-- If equal times under one key mean equal entries, the set determines the map. -/
lemma Holds.toList_eq (h : Holds key time m s) (h' : Holds key time m' s)
    (hunique : ∀ a ∈ s, ∀ b ∈ s, key a = key b → time a = time b → a = b) :
    m.toList = m'.toList := by
  have hle : ∀ {m m' : Std.TreeMap κ α}, Holds key time m s → Holds key time m' s →
      ∀ (k : κ) (a : α), m[k]? = some a → m'[k]? = some a := by
    intro m m' h h' k a ha
    obtain ⟨hmem, hkey⟩ := h.mem k a ha
    obtain ⟨b, hb, hab⟩ := h'.latest a hmem
    obtain ⟨hmem', hkey'⟩ := h'.mem _ b hb
    obtain ⟨c, hc, hbc⟩ := h.latest b hmem'
    rw [hkey', hkey, ha] at hc
    cases hc
    rw [hunique a hmem b hmem' hkey'.symm (le_antisymm hab hbc), ← hb, hkey]
  refine Std.TreeMap.Equiv.toList_eq (.of_forall_constGet?_eq fun k => ?_)
  show m[k]? = m'[k]?
  cases ha : m[k]? with
  | some a => exact (hle h h' k a ha).symm
  | none =>
    cases hb : m'[k]? with
    | none => rfl
    | some b =>
      rw [hle h' h k b hb] at ha
      cases ha

end LatestMap

end AnonGuard
