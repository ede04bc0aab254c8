import Mathlib.Tactic

/-!
# Escaped symbols

A mark stands before every symbol that has a meaning of its own, so that a text can be put between
delimiters. A reader that takes a mark together with the symbol behind it splits at the delimiters
that the writer put there, and at no others.
-/
namespace AnonGuard

section Escaping
variable {α : Type*} {mark delimiter x : α} {special : α → Bool}

/-- The special symbols, each with a mark before it, and the others. -/
def escape (mark : α) (special : α → Bool) (text : List α) : List α :=
  text.flatMap fun x => if special x then [mark, x] else [x]

lemma escape_cons (x : α) (text : List α) :
    escape mark special (x :: text) =
      (if special x then [mark, x] else [x]) ++ escape mark special text := rfl

lemma escape_append (a b : List α) :
    escape mark special (a ++ b) = escape mark special a ++ escape mark special b :=
  List.flatMap_append

/-- Nothing is escaped where nothing is special. -/
lemma escape_eq_self {text : List α} (h : ∀ x ∈ text, special x = false) :
    escape mark special text = text := by
  induction text with
  | nil => rfl
  | cons x text ih =>
    rw [List.forall_mem_cons] at h
    rw [escape_cons, h.1, ih h.2]
    rfl

variable [DecidableEq α]

/-- The text without its marks; a mark at the end has nothing to stand for. -/
def unescape (mark : α) : List α → Option (List α)
  | [] => some []
  | x :: rest =>
    if x = mark then
      match rest with
      | [] => none
      | y :: rest => (unescape mark rest).map (y :: ·)
    else (unescape mark rest).map (x :: ·)

/-- The pieces between the delimiters that have no mark before them, with all marks left in. -/
def splitUnescaped (mark delimiter : α) : List α → List (List α)
  | [] => [[]]
  | x :: rest =>
    if x = mark then
      match rest with
      | [] => [[x]]
      | y :: rest => (splitUnescaped mark delimiter rest).modifyHead ([x, y] ++ ·)
    else if x = delimiter then [] :: splitUnescaped mark delimiter rest
    else (splitUnescaped mark delimiter rest).modifyHead (x :: ·)

@[simp] lemma unescape_mark (rest : List α) :
    unescape mark (mark :: x :: rest) = (unescape mark rest).map (x :: ·) := by
  rw [unescape.eq_def]
  simp

lemma unescape_of_ne (hx : x ≠ mark) (rest : List α) :
    unescape mark (x :: rest) = (unescape mark rest).map (x :: ·) := by
  rw [unescape.eq_def]
  simp [hx]

@[simp] lemma splitUnescaped_mark (rest : List α) :
    splitUnescaped mark delimiter (mark :: x :: rest) =
      (splitUnescaped mark delimiter rest).modifyHead ([mark, x] ++ ·) := by
  rw [splitUnescaped.eq_def]
  simp

lemma splitUnescaped_delimiter (hne : delimiter ≠ mark) (rest : List α) :
    splitUnescaped mark delimiter (delimiter :: rest) =
      [] :: splitUnescaped mark delimiter rest := by
  rw [splitUnescaped.eq_def]
  simp [hne]

lemma splitUnescaped_of_ne (hmark : x ≠ mark) (hdelimiter : x ≠ delimiter) (rest : List α) :
    splitUnescaped mark delimiter (x :: rest) =
      (splitUnescaped mark delimiter rest).modifyHead (x :: ·) := by
  rw [splitUnescaped.eq_def]
  simp [hmark, hdelimiter]

theorem unescape_escape (hmark : special mark = true) (text : List α) :
    unescape mark (escape mark special text) = some text := by
  induction text with
  | nil => rfl
  | cons x text ih =>
    rw [escape_cons]
    by_cases hx : special x = true
    · rw [if_pos hx, List.cons_append, List.cons_append, List.nil_append, unescape_mark, ih]
      rfl
    · have hne : x ≠ mark := by
        rintro rfl
        exact hx hmark
      rw [if_neg hx, List.cons_append, List.nil_append, unescape_of_ne hne, ih]
      rfl

/-- The reader finds no delimiter in the text and is not left behind a mark at its end. -/
def Unbroken (mark delimiter : α) (text : List α) : Prop :=
  ∀ rest, splitUnescaped mark delimiter (text ++ rest) =
    (splitUnescaped mark delimiter rest).modifyHead (text ++ ·)

namespace Unbroken

lemma nil : Unbroken mark delimiter ([] : List α) := by
  intro rest
  rw [List.nil_append]
  cases splitUnescaped mark delimiter rest <;> rfl

lemma append {a b : List α} (ha : Unbroken mark delimiter a) (hb : Unbroken mark delimiter b) :
    Unbroken mark delimiter (a ++ b) := by
  intro rest
  rw [List.append_assoc, ha, hb, List.modifyHead_modifyHead]
  simp only [Function.comp_def, List.append_assoc]

lemma singleton (hmark : x ≠ mark) (hdelimiter : x ≠ delimiter) :
    Unbroken mark delimiter [x] := by
  intro rest
  rw [List.cons_append, List.nil_append, splitUnescaped_of_ne hmark hdelimiter]
  rfl

lemma marked (x : α) : Unbroken mark delimiter [mark, x] := by
  intro rest
  rw [List.cons_append, List.cons_append, List.nil_append, splitUnescaped_mark]

theorem of_escape (hmark : special mark = true) (hdelimiter : special delimiter = true)
    (text : List α) : Unbroken mark delimiter (escape mark special text) := by
  induction text with
  | nil => exact nil
  | cons x text ih =>
    rw [escape_cons]
    by_cases hx : special x = true
    · rw [if_pos hx]
      exact (marked x).append ih
    · rw [if_neg hx]
      refine (singleton ?_ ?_).append ih
      · rintro rfl
        exact hx hmark
      · rintro rfl
        exact hx hdelimiter

end Unbroken

/-- Pieces that hold no delimiter of their own come back as they were put together. -/
theorem splitUnescaped_joined (hne : delimiter ≠ mark) {text : List α} {texts : List (List α)}
    (htext : Unbroken mark delimiter text) (htexts : ∀ t ∈ texts, Unbroken mark delimiter t) :
    splitUnescaped mark delimiter (text ++ texts.flatMap (delimiter :: ·)) = text :: texts := by
  induction texts generalizing text with
  | nil =>
    rw [htext]
    simp [splitUnescaped]
  | cons next texts ih =>
    rw [List.forall_mem_cons] at htexts
    rw [htext, List.flatMap_cons, List.cons_append, splitUnescaped_delimiter hne,
      ih htexts.1 htexts.2]
    simp

end Escaping

end AnonGuard
