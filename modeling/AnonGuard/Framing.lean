import AnonGuard.Bytes

/-!
# Framing of fields

A message is put together from the fields of a record: some have a fixed length, some
stand behind their length, some end at a separator. An encoding *reads* a part of the
record if its octets determine that part and also where they end, whatever comes after
them. Fields are added one by one, and records that read can be put in a row.
-/
namespace AnonGuard

variable {α β γ δ : Type*} {P : α → Prop} {enc : α → List β} {f : α → γ}

/-- On the records in `P`, the encoding determines `f` and its own end. -/
def Reads (P : α → Prop) (enc : α → List β) (f : α → γ) : Prop :=
  ∀ ⦃a a'⦄, P a → P a' → ∀ ⦃rest rest'⦄, enc a ++ rest = enc a' ++ rest' →
    f a = f a' ∧ rest = rest'

namespace Reads

/-- A fixed text. -/
lemma literal (P : α → Prop) (text : List β) : Reads P (fun _ => text) fun _ => () :=
  fun _ _ _ _ _ _ heq => ⟨rfl, List.append_cancel_left heq⟩

/-- The first field, of a fixed length. -/
lemma first (enc : α → List β) (f : α → γ)
    (hlen : ∀ a a', P a → P a' → (enc a).length = (enc a').length)
    (hinj : ∀ a a', P a → P a' → enc a = enc a' → f a = f a') : Reads P enc f := by
  intro a a' ha ha' rest rest' heq
  obtain ⟨henc, hrest⟩ := List.append_inj heq (hlen a a' ha ha')
  exact ⟨hinj a a' ha ha' henc, hrest⟩

/-- One more field, whose length is known from what stands before it. -/
lemma field (h : Reads P enc f) (next : α → List β) (g : α → δ)
    (hlen : ∀ a a', P a → P a' → f a = f a' → (next a).length = (next a').length)
    (hinj : ∀ a a', P a → P a' → next a = next a' → g a = g a') :
    Reads P (fun a => enc a ++ next a) fun a => (f a, g a) := by
  intro a a' ha ha' rest rest' heq
  rw [List.append_assoc, List.append_assoc] at heq
  obtain ⟨hf, htail⟩ := h ha ha' heq
  obtain ⟨hnext, hrest⟩ := List.append_inj htail (hlen a a' ha ha' hf)
  exact ⟨Prod.ext hf (hinj a a' ha ha' hnext), hrest⟩

/-- One more field, which ends at the first separator. -/
lemma upTo (h : Reads P enc f) (separator : β) (next : α → List β) (g : α → δ)
    (hfree : ∀ a, P a → separator ∉ next a)
    (hinj : ∀ a a', P a → P a' → next a = next a' → g a = g a') :
    Reads P (fun a => enc a ++ (next a ++ [separator])) fun a => (f a, g a) := by
  intro a a' ha ha' rest rest' heq
  simp only [List.append_assoc, List.singleton_append] at heq
  obtain ⟨hf, htail⟩ := h ha ha' heq
  -- If one of the two fields went further, it would contain the separator.
  have hsame : next a = next a' ∧ rest = rest' := by
    obtain ⟨more, hnext, hmore⟩ | ⟨more, hnext, hmore⟩ := List.append_eq_append_iff.mp htail
    · cases more with
      | nil => exact ⟨by simpa using hnext.symm, (List.cons.inj hmore).2⟩
      | cons b =>
        have hb : separator = b := (List.cons.inj hmore).1
        exact absurd (by simp [hnext, hb]) (hfree a' ha')
    · cases more with
      | nil => exact ⟨by simpa using hnext, (List.cons.inj hmore).2.symm⟩
      | cons b =>
        have hb : separator = b := (List.cons.inj hmore).1
        exact absurd (by simp [hnext, hb]) (hfree a ha)
  exact ⟨Prod.ext hf (hinj a a' ha ha' hsame.1), hsame.2⟩

/-- What is read may be put in another form. -/
lemma map (h : Reads P enc f) (g : α → δ) (hg : ∀ a a', f a = f a' → g a = g a') :
    Reads P enc g := by
  intro a a' ha ha' rest rest' heq
  obtain ⟨hf, hrest⟩ := h ha ha' heq
  exact ⟨hg a a' hf, hrest⟩

lemma injective (h : Reads P enc f) {a a' : α} (ha : P a) (ha' : P a') (heq : enc a = enc a') :
    f a = f a' :=
  (h ha ha' (congrArg (· ++ []) heq)).1

/-- Encodings in a row, up to the end of the message. -/
lemma flatMap_injective (h : Reads P enc f) (hne : ∀ a, P a → enc a ≠ []) {as bs : List α}
    (has : ∀ a ∈ as, P a) (hbs : ∀ b ∈ bs, P b) (heq : as.flatMap enc = bs.flatMap enc) :
    as.map f = bs.map f := by
  induction as generalizing bs with
  | nil =>
    cases bs with
    | nil => rfl
    | cons b =>
      rw [List.flatMap_nil, List.flatMap_cons, eq_comm, List.append_eq_nil_iff] at heq
      exact absurd heq.1 (hne b (hbs b List.mem_cons_self))
  | cons a as ih =>
    cases bs with
    | nil =>
      rw [List.flatMap_nil, List.flatMap_cons, List.append_eq_nil_iff] at heq
      exact absurd heq.1 (hne a (has a List.mem_cons_self))
    | cons =>
      rw [List.forall_mem_cons] at has hbs
      rw [List.flatMap_cons, List.flatMap_cons] at heq
      obtain ⟨hhead, htail⟩ := h has.1 hbs.1 heq
      rw [List.map_cons, List.map_cons, hhead, ih has.2 hbs.2 htail]

end Reads

/-- A number that fits its width. -/
lemma toBe_inj {w m n : ℕ} (hm : m < 256 ^ w) (hn : n < 256 ^ w) (h : toBe w m = toBe w n) :
    m = n := by
  have hnat := congrArg ofBe h
  rwa [ofBe_toBe, ofBe_toBe, Nat.mod_eq_of_lt hm, Nat.mod_eq_of_lt hn] at hnat

/-- Blocks of one length are determined by the octets that they make up. -/
lemma flatten_inj_of_length {n : ℕ} {as bs : List (List β)} (has : ∀ a ∈ as, a.length = n)
    (hbs : ∀ b ∈ bs, b.length = n) (hlen : as.length = bs.length)
    (heq : as.flatten = bs.flatten) : as = bs := by
  have hsizes : as.map List.length = bs.map List.length := by
    rw [List.map_eq_replicate_iff.mpr has, List.map_eq_replicate_iff.mpr hbs, hlen]
  exact List.eq_iff_flatten_eq.mpr ⟨heq, hsizes⟩

end AnonGuard
