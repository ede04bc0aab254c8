import Mathlib.Data.List.Perm.Subperm
import Mathlib.Tactic

/-!
# Greedy selection

Candidates are looked at in turn, and one that fits what has been taken is taken too, until
enough are there. Where to fit means to have a key of one's own, no choice of candidates
has more elements than the greedy one.
-/
namespace AnonGuard.Greedy

variable {α κ : Type*}

/-- Take the candidates that fit, until the selection is full. -/
def fill (fits : List α → α → Bool) (full : ℕ → Bool) (selected : List α) : List α → List α
  | [] => selected
  | candidate :: rest =>
    if full selected.length then selected
    else if fits selected candidate then fill fits full (selected ++ [candidate]) rest
    else fill fits full selected rest

section Fill
variable {fits : List α → α → Bool} {full : ℕ → Bool}

lemma exists_fill_eq (selected candidates : List α) :
    ∃ taken, taken.Sublist candidates ∧ fill fits full selected candidates = selected ++ taken := by
  induction candidates generalizing selected with
  | nil => exact ⟨[], .refl _, (List.append_nil _).symm⟩
  | cons candidate rest ih =>
    unfold fill
    split_ifs
    · exact ⟨[], List.nil_sublist _, (List.append_nil _).symm⟩
    · obtain ⟨taken, hsub, htaken⟩ := ih (selected ++ [candidate])
      exact ⟨candidate :: taken, hsub.cons_cons candidate, by simp [htaken]⟩
    · obtain ⟨taken, hsub, htaken⟩ := ih selected
      exact ⟨taken, hsub.cons candidate, htaken⟩

lemma subset_fill (selected candidates : List α) :
    selected ⊆ fill fits full selected candidates := by
  obtain ⟨taken, -, htaken⟩ := exists_fill_eq selected candidates
  rw [htaken]
  exact List.subset_append_left selected taken

/-- What every candidate that fits preserves holds in the end. -/
lemma fill_induction {P : List α → Prop} {selected candidates : List α} (hselected : P selected)
    (hstep : ∀ s c, P s → fits s c = true → P (s ++ [c])) :
    P (fill fits full selected candidates) := by
  induction candidates generalizing selected with
  | nil => exact hselected
  | cons candidate rest ih =>
    unfold fill
    split_ifs with hfull hfits
    · exact hselected
    · exact ih (hstep _ _ hselected hfits)
    · exact ih hselected

lemma length_fill_le {selected : List α} (candidates : List α) {bound : ℕ}
    (hselected : selected.length ≤ bound) (hfull : full bound = true) :
    (fill fits full selected candidates).length ≤ bound := by
  induction candidates generalizing selected with
  | nil => exact hselected
  | cons candidate rest ih =>
    unfold fill
    split_ifs with hnow hfits
    · exact hselected
    · refine ih ?_
      have hne : selected.length ≠ bound := fun h => hnow (h ▸ hfull)
      simp only [List.length_append, List.length_singleton]
      omega
    · exact ih hselected

/-- If everything fits, everything is taken. -/
lemma fill_of_fits (hfits : ∀ s c, fits s c = true) (selected candidates : List α) :
    full (fill fits full selected candidates).length = true ∨
      fill fits full selected candidates = selected ++ candidates := by
  induction candidates generalizing selected with
  | nil => exact .inr (List.append_nil _).symm
  | cons candidate rest ih =>
    unfold fill
    split_ifs with hfull hfit
    · exact .inl hfull
    · simpa using ih (selected ++ [candidate])
    · exact absurd (hfits selected candidate) hfit

end Fill

section Keys

/-- Good elements that share no key with each other, and have none of the blocked keys. -/
def Distinct (Good : α → Prop) (key : α → κ) (blocked : List κ) (s : List α) : Prop :=
  (∀ a ∈ s, Good a) ∧ (s.map key ++ blocked).Nodup

variable {Good : α → Prop} {key : α → κ} {blocked : List κ} {fits : List α → α → Bool}
  {full : ℕ → Bool}

lemma distinct_concat {s : List α} {c : α} (hs : Distinct Good key blocked s) :
    Distinct Good key blocked (s ++ [c]) ↔ Good c ∧ key c ∉ s.map key ∧ key c ∉ blocked := by
  have hperm : ((s ++ [c]).map key ++ blocked).Perm (key c :: (s.map key ++ blocked)) := by
    rw [List.map_append, List.append_assoc]
    exact List.perm_middle
  rw [Distinct, hperm.nodup_iff, List.nodup_cons, List.mem_append, not_or]
  constructor
  · rintro ⟨hgood, hnew, -⟩
    exact ⟨hgood c (by simp), hnew⟩
  · rintro ⟨hc, hnew⟩
    refine ⟨fun a ha => ?_, hnew, hs.2⟩
    rcases List.mem_append.mp ha with ha | ha
    · exact hs.1 a ha
    · rwa [List.mem_singleton.mp ha]

/-- A good candidate is left out only because its key is there already. -/
lemma key_mem_fill (hfits : ∀ s c, Distinct Good key blocked s →
      (fits s c = true ↔ Distinct Good key blocked (s ++ [c])))
    {selected : List α} (hselected : Distinct Good key blocked selected) (candidates : List α) :
    full (fill fits full selected candidates).length = true ∨
      ∀ c ∈ candidates, Good c → key c ∉ blocked →
        key c ∈ (fill fits full selected candidates).map key := by
  induction candidates generalizing selected with
  | nil => simp
  | cons candidate rest ih =>
    unfold fill
    split_ifs with hfull hfit
    · exact .inl hfull
    · have hnext := (hfits _ _ hselected).mp hfit
      refine (ih hnext).imp_right fun hrest c hc hgood hblocked => ?_
      rcases List.mem_cons.mp hc with rfl | hc
      · exact List.mem_map_of_mem (subset_fill _ rest (by simp))
      · exact hrest c hc hgood hblocked
    · refine (ih hselected).imp_right fun hrest c hc hgood hblocked => ?_
      rcases List.mem_cons.mp hc with rfl | hc
      · rw [hfits _ _ hselected, distinct_concat hselected] at hfit
        exact List.map_subset key (subset_fill selected rest) (by tauto)
      · exact hrest c hc hgood hblocked

/-- No other choice of candidates with keys of their own is larger. -/
theorem length_le_fill (hfits : ∀ s c, Distinct Good key blocked s →
      (fits s c = true ↔ Distinct Good key blocked (s ++ [c])))
    {selected candidates other : List α} (hother : other ⊆ candidates)
    (hdistinct : Distinct Good key blocked (selected ++ other)) :
    full (fill fits full selected candidates).length = true ∨
      selected.length + other.length ≤ (fill fits full selected candidates).length := by
  obtain ⟨hgood, hnodup⟩ := hdistinct
  have hsub : (selected.map key ++ blocked).Sublist ((selected ++ other).map key ++ blocked) :=
    ((List.sublist_append_left selected other).map key).append_right blocked
  have hselected : Distinct Good key blocked selected :=
    ⟨fun a ha => hgood a (List.mem_append_left _ ha), hnodup.sublist hsub⟩
  refine (key_mem_fill hfits hselected candidates).imp_right fun hmem => ?_
  obtain ⟨hkeys, -, hdisjoint⟩ := List.nodup_append'.mp hnodup
  have hsubset : (selected ++ other).map key ⊆ (fill fits full selected candidates).map key := by
    intro k hk
    obtain ⟨c, hc, rfl⟩ := List.mem_map.mp hk
    rcases List.mem_append.mp hc with hc' | hc'
    · exact List.mem_map_of_mem (subset_fill selected candidates hc')
    · exact hmem c (hother hc') (hgood c hc) (hdisjoint hk)
  simpa using (List.subperm_of_subset hkeys hsubset).length_le

end Keys

end AnonGuard.Greedy
