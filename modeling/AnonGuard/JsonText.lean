import AnonGuard.Bytes
import Mathlib.Data.Nat.Digits.Defs

/-!
# JSON texts

JSON as a serializer writes it to a buffer, without spaces. A value is the text that is written
for it. An octet of a string takes up to six octets of text; octets are also written in base64,
which needs no escapes. The lemmas bound the length of a text by the lengths of its parts.
-/
namespace AnonGuard

namespace JsonText

/-- The hexadecimal digit of a number below 16. -/
def hexDigit (n : ℕ) : UInt8 := UInt8.ofNat (Nat.digitChar n).toNat

/-- An octet in a string. Quotes, backslashes and control characters are escaped. -/
def escape (b : UInt8) : Bytes :=
  if b = 34 ∨ b = 92 then [92, b]
  else if b = 8 then [92, 98]
  else if b = 9 then [92, 116]
  else if b = 10 then [92, 110]
  else if b = 12 then [92, 102]
  else if b = 13 then [92, 114]
  else if b < 32 then [92, 117, 48, 48, hexDigit (b.toNat / 16), hexDigit (b.toNat % 16)]
  else [b]

def string (text : Bytes) : Bytes := 34 :: text.flatMap escape ++ [34]

def number (n : ℕ) : Bytes := (Nat.toDigits 10 n).map fun c => UInt8.ofNat c.toNat

def bool (b : Bool) : Bytes := if b then [116, 114, 117, 101] else [102, 97, 108, 115, 101]

/-- Values behind each other, with a comma between any two. -/
def separated : List Bytes → Bytes
  | [] => []
  | [item] => item
  | item :: next :: items => item ++ 44 :: separated (next :: items)

def array (items : List Bytes) : Bytes := 91 :: separated items ++ [93]

/-- An object with its fields in their order. -/
def object (fields : List (Bytes × Bytes)) : Bytes :=
  123 :: separated (fields.map fun field => string field.1 ++ 58 :: field.2) ++ [125]

/-- The digit of a number below 64. -/
def base64Digit (n : ℕ) : UInt8 :=
  if n < 26 then UInt8.ofNat (65 + n)
  else if n < 52 then UInt8.ofNat (71 + n)
  else if n < 62 then UInt8.ofNat (n - 4)
  else if n = 62 then 43
  else 47

/-- Three octets as four digits; the last digits are padded. -/
def base64 : Bytes → Bytes
  | [] => []
  | [a] => [base64Digit (a.toNat / 4), base64Digit (a.toNat % 4 * 16), 61, 61]
  | [a, b] => [base64Digit (a.toNat / 4), base64Digit (a.toNat % 4 * 16 + b.toNat / 16),
      base64Digit (b.toNat % 16 * 4), 61]
  | a :: b :: c :: rest => base64Digit (a.toNat / 4) ::
      base64Digit (a.toNat % 4 * 16 + b.toNat / 16) ::
      base64Digit (b.toNat % 16 * 4 + c.toNat / 64) :: base64Digit (c.toNat % 64) :: base64 rest

section Lengths
variable {text : Bytes} {items : List Bytes} {bound : ℕ}

lemma length_escape_le (b : UInt8) : (escape b).length ≤ 6 := by
  unfold escape
  split_ifs <;> simp

lemma length_string_le (text : Bytes) : (string text).length ≤ 6 * text.length + 2 := by
  have hflat : (text.flatMap escape).length ≤ 6 * text.length := by
    induction text with
    | nil => simp
    | cons b =>
      have hb := length_escape_le b
      simp only [List.flatMap_cons, List.length_append, List.length_cons]
      omega
  simp only [string, List.length_append, List.length_cons, List.length_nil]
  omega

/-- An octet that stands for itself. -/
def Plain (b : UInt8) : Prop := escape b = [b]

instance : DecidablePred Plain := fun b => inferInstanceAs (Decidable (escape b = [b]))

lemma plain_of_le {b : UInt8} (hcontrol : 32 ≤ b) (hquote : b ≠ 34) (hbackslash : b ≠ 92) :
    Plain b := by
  unfold Plain escape
  split_ifs <;> grind

lemma length_string_of_plain (h : ∀ b ∈ text, Plain b) : (string text).length = text.length + 2 := by
  have hflat : text.flatMap escape = text := by
    induction text with
    | nil => rfl
    | cons b text ih =>
      rw [List.forall_mem_cons] at h
      rw [List.flatMap_cons, h.1, ih h.2, List.singleton_append]
  simp [string, hflat]

lemma length_number_le {n : ℕ} (hbound : 0 < bound) (h : n < 10 ^ bound) :
    (number n).length ≤ bound := by
  rw [number, List.length_map]
  exact Nat.toDigits_length 10 n bound hbound h

lemma length_bool_le (b : Bool) : (bool b).length ≤ 5 := by
  cases b <;> simp [bool]

lemma length_separated_le (items : List Bytes) :
    (separated items).length ≤ (items.map fun item => item.length + 1).sum := by
  induction items using separated.induct with
  | case1 | case2 => simp [separated]
  | case3 =>
    rw [separated, List.length_append, List.length_cons, List.map_cons, List.sum_cons]
    omega

lemma length_array_le (h : ∀ item ∈ items, item.length ≤ bound) :
    (array items).length ≤ items.length * (bound + 1) + 2 := by
  have hitems := length_separated_le items
  have hsum : (items.map fun item => item.length + 1).sum ≤ items.length * (bound + 1) := by
    have hcard := List.sum_le_card_nsmul (items.map fun item => item.length + 1) (bound + 1) (by
      rw [List.forall_mem_map]
      exact fun item hitem => Nat.succ_le_succ (h item hitem))
    simpa using hcard
  simp only [array, List.length_append, List.length_cons, List.length_nil]
  omega

/-- A field takes four octets of punctuation. -/
lemma length_object_le (fields : List (Bytes × Bytes)) : (object fields).length ≤
    (fields.map fun field => 6 * field.1.length + field.2.length + 4).sum + 2 := by
  have hfields := length_separated_le (fields.map fun field => string field.1 ++ 58 :: field.2)
  have hsum : ((fields.map fun field => string field.1 ++ 58 :: field.2).map
      fun item => item.length + 1).sum ≤
        (fields.map fun field => 6 * field.1.length + field.2.length + 4).sum := by
    rw [List.map_map]
    refine List.sum_le_sum fun field _ => ?_
    have hkey := length_string_le field.1
    rw [Function.comp_apply, List.length_append, List.length_cons]
    omega
  simp only [object, List.length_append, List.length_cons, List.length_nil]
  omega

lemma length_base64 (bytes : Bytes) : (base64 bytes).length = (bytes.length + 2) / 3 * 4 := by
  induction bytes using base64.induct with
  | case1 => rfl
  | case2 | case3 => simp [base64]
  | case4 a b c rest ih =>
    simp only [base64, List.length_cons, ih]
    omega

lemma plain_base64Digit (n : ℕ) : Plain (base64Digit n) := by
  by_cases hn : n < 64
  · have hall : ∀ n < 64, Plain (base64Digit n) := by decide
    exact hall n hn
  · have hlast : base64Digit n = 47 := by
      unfold base64Digit
      rw [if_neg (by omega), if_neg (by omega), if_neg (by omega), if_neg (by omega)]
    rw [hlast]
    decide

lemma plain_of_mem_base64 {bytes : Bytes} : ∀ b ∈ base64 bytes, Plain b := by
  have hpad : Plain 61 := by decide
  induction bytes using base64.induct with
  | case1 => simp [base64]
  | case2 | case3 => simp [base64, plain_base64Digit, hpad]
  | case4 a b c rest ih =>
    simp only [base64, List.forall_mem_cons]
    exact ⟨plain_base64Digit _, plain_base64Digit _, plain_base64Digit _, plain_base64Digit _, ih⟩

/-- Octets in base64, as a string. -/
lemma length_string_base64 (bytes : Bytes) :
    (string (base64 bytes)).length = (bytes.length + 2) / 3 * 4 + 2 := by
  rw [length_string_of_plain plain_of_mem_base64, length_base64]

end Lengths

end JsonText

end AnonGuard
