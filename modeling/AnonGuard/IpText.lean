import Mathlib
import AnonGuard.Consensus

/-!
# The text of IP addresses

`str::parse` reads an address with a parser that never goes back past a complete octet or
group, and `to_string` writes the canonical text. An IPv4 address has four decimal octets
without leading zeros. An IPv6 address has eight groups of up to four hexadecimal digits,
of which the last two may be written as an IPv4 address and one row of zeros as `::`.
-/
namespace AnonGuard

/-- An address has the size of its family. -/
def IpAddr.Sized : IpAddr → Prop
  | v4 octets => octets.length = 4
  | v6 octets => octets.length = 16

variable {ip : IpAddr}

namespace IpText

section Read

/-- `char::to_digit`, for the two radices of addresses. -/
def toDigit (radix : ℕ) (c : Char) : Option ℕ :=
  let digit :=
    if 48 ≤ c.toNat ∧ c.toNat ≤ 57 then some (c.toNat - 48)
    else if 97 ≤ c.toNat ∧ c.toNat ≤ 102 then some (c.toNat - 87)
    else if 65 ≤ c.toNat ∧ c.toNat ≤ 70 then some (c.toNat - 55)
    else none
  digit.filter (· < radix)

/-- A number below `bound`. Only hexadecimal groups may have leading zeros. -/
def readNumber (radix maxDigits bound : ℕ) (allowZeroPrefix : Bool) (input : List Char) :
    Option (ℕ × List Char) :=
  let digits := input.takeWhile fun c => (toDigit radix c).isSome
  let value := digits.foldl (fun v c => v * radix + (toDigit radix c).getD 0) 0
  if digits = [] ∨ digits.length > maxDigits ∨
      (allowZeroPrefix = false ∧ digits.head? = some '0' ∧ digits.length > 1) ∨ value ≥ bound then none
  else some (value, input.drop digits.length)

def readGivenChar (target : Char) : List Char → Option (List Char)
  | [] => none
  | c :: rest => if c = target then some rest else none

/-- Every item but the first one stands behind a separator. -/
def readSeparator {α : Type} (separator : Char) (first : Bool)
    (inner : List Char → Option (α × List Char)) (input : List Char) : Option (α × List Char) :=
  if first then inner input
  else
    match readGivenChar separator input with
    | none => none
    | some rest => inner rest

/-- The next `count` octets of an IPv4 address. -/
def readOctets (first : Bool) : ℕ → List Char → Option (Bytes × List Char)
  | 0, input => some ([], input)
  | count + 1, input =>
    match readSeparator '.' first (readNumber 10 3 256 false) input with
    | none => none
    | some (octet, rest) =>
      match readOctets false count rest with
      | none => none
      | some (octets, rest) => some (UInt8.ofNat octet :: octets, rest)

def readIpv4Addr (input : List Char) : Option (Bytes × List Char) := readOctets true 4 input

/-- The octets of at most `limit` groups, and whether the last two are an IPv4 address. -/
def readGroups (first : Bool) : (limit : ℕ) → List Char → Bytes × Bool × List Char
  | 0, input => ([], false, input)
  | limit + 1, input =>
    -- an IPv4 address takes the place of two groups
    match if 0 < limit then readSeparator ':' first readIpv4Addr input else none with
    | some (octets, rest) => (octets, true, rest)
    | none =>
      match readSeparator ':' first (readNumber 16 4 65536 true) input with
      | none => ([], false, input)
      | some (group, rest) =>
        let (octets, ipv4, rest) := readGroups false limit rest
        (toBe 2 group ++ octets, ipv4, rest)

def readIpv6Addr (input : List Char) : Option (Bytes × List Char) :=
  let (head, ipv4, rest) := readGroups true 8 input
  if head.length = 16 then some (head, rest)
  else if ipv4 then none
  else
    match readGivenChar ':' rest with
    | none => none
    | some rest =>
      match readGivenChar ':' rest with
      | none => none
      | some rest =>
        -- the row of zeros stands for at least one group
        let (tail, _, rest) := readGroups true (8 - (head.length / 2 + 1)) rest
        some (head ++ List.replicate (16 - head.length - tail.length) 0 ++ tail, rest)

def readIpAddr (input : List Char) : Option (IpAddr × List Char) :=
  match readIpv4Addr input with
  | some (octets, rest) => some (.v4 octets, rest)
  | none => (readIpv6Addr input).map fun (octets, rest) => (.v6 octets, rest)

end Read

section Write

/-- A row of zero groups. -/
structure Span where
  start : ℕ
  len : ℕ

/-- The longest row of zeros among the groups from index `i` on. -/
def longestZeros (i : ℕ) (current longest : Span) : List UInt16 → Span
  | [] => longest
  | group :: rest =>
    if group = 0 then
      let current := if current.len = 0 then ⟨i, 1⟩ else { current with len := current.len + 1 }
      longestZeros (i + 1) current (if current.len > longest.len then current else longest) rest
    else longestZeros (i + 1) ⟨0, 0⟩ longest rest

def segments : Bytes → List UInt16
  | high :: low :: rest => u16OfBe [high, low] :: segments rest
  | _ => []

/-- Groups in lower case hexadecimal, with colons between them. -/
def groupsText (groups : List UInt16) : String :=
  ":".intercalate (groups.map fun group => String.ofList (Nat.toDigits 16 group.toNat))

def ipv4Text (octets : Bytes) : String :=
  ".".intercalate (octets.map fun octet => toString octet.toNat)

/-- All groups in hexadecimal, but for the longest row of zeros. -/
def compressedText (octets : Bytes) : String :=
  let groups := segments octets
  let zeros := longestZeros 0 ⟨0, 0⟩ ⟨0, 0⟩ groups
  if zeros.len > 1 then
    groupsText (groups.take zeros.start) ++ "::" ++ groupsText (groups.drop (zeros.start + zeros.len))
  else groupsText groups

def ipv6Text (octets : Bytes) : String :=
  if octets.take 12 = List.replicate 10 0 ++ [0xff, 0xff] then "::ffff:" ++ ipv4Text (octets.drop 12)
  else compressedText octets

end Write

variable {octets : Bytes} {first : Bool}

section Consumes

/-- The characters that an address is made of. -/
def AddressChar (c : Char) : Prop := (toDigit 16 c).isSome = true ∨ c = '.' ∨ c = ':'

/-- What a reader has taken from the input: characters of an address, without a dot at
the end. -/
def Consumes (input rest : List Char) : Prop :=
  ∃ taken, input = taken ++ rest ∧ (∀ c ∈ taken, AddressChar c) ∧ taken.getLast? ≠ some '.'

variable {input rest mid : List Char}

lemma Consumes.refl (input : List Char) : Consumes input input := ⟨[], by simp⟩

lemma Consumes.trans (h : Consumes input mid) (h' : Consumes mid rest) : Consumes input rest := by
  obtain ⟨a, rfl, ha, hlast⟩ := h
  obtain ⟨b, rfl, hb, hlast'⟩ := h'
  refine ⟨a ++ b, by simp, ?_, ?_⟩
  · intro c hc
    rcases List.mem_append.mp hc with hc | hc
    · exact ha c hc
    · exact hb c hc
  · rw [List.getLast?_append]
    cases hb' : b.getLast? with
    | none => simpa using hlast
    | some => simpa [hb'] using hlast'

lemma isSome_toDigit_sixteen {radix : ℕ} {c : Char} (hradix : radix ≤ 16)
    (h : (toDigit radix c).isSome = true) : (toDigit 16 c).isSome = true := by
  simp only [toDigit] at h ⊢
  split_ifs at h ⊢ <;> simp_all
  all_goals omega

lemma not_isSome_toDigit_dot (radix : ℕ) : ¬(toDigit radix '.').isSome = true := by
  simp [toDigit]

/-- A number is one digit or more, so that a separator before it is not what the text
ends with. -/
lemma readNumber_consumes {radix maxDigits bound value : ℕ} {allowZeroPrefix : Bool}
    (hradix : radix ≤ 16)
    (h : readNumber radix maxDigits bound allowZeroPrefix input = some (value, rest))
    (separator : List Char) (hseparator : ∀ c ∈ separator, AddressChar c) :
    Consumes (separator ++ input) rest := by
  simp only [readNumber] at h
  split at h
  · cases h
  · rename_i hnot
    push Not at hnot
    obtain ⟨hne, -⟩ := hnot
    simp only [Option.some.injEq, Prod.mk.injEq] at h
    obtain ⟨-, rfl⟩ := h
    have hall : ∀ c ∈ input.takeWhile fun c => (toDigit radix c).isSome,
        (toDigit radix c).isSome = true := by
      intro c hc
      exact List.mem_takeWhile_imp (p := fun c => (toDigit radix c).isSome) hc
    have hstart := List.takeWhile_prefix (fun c => (toDigit radix c).isSome) (l := input)
    generalize input.takeWhile (fun c => (toDigit radix c).isSome) = digits at hne hall hstart ⊢
    obtain ⟨tail, rfl⟩ := hstart
    rw [List.drop_left]
    refine ⟨separator ++ digits, by simp, ?_, ?_⟩
    · intro c hc
      rcases List.mem_append.mp hc with hc | hc
      · exact hseparator c hc
      · exact .inl (isSome_toDigit_sixteen hradix (hall c hc))
    · intro hlast
      rw [List.getLast?_append_of_ne_nil _ hne] at hlast
      exact not_isSome_toDigit_dot radix (hall _ (List.mem_of_getLast? hlast))

lemma readGivenChar_eq_some {target : Char} :
    readGivenChar target input = some rest ↔ input = target :: rest := by
  cases input with
  | nil => simp [readGivenChar]
  | cons =>
    simp only [readGivenChar]
    split <;> simp_all

lemma readOctets_consumes {count : ℕ}
    (h : readOctets first count input = some (octets, rest)) : Consumes input rest := by
  induction count generalizing first input octets with
  | zero =>
    simp only [readOctets, Option.some.injEq, Prod.mk.injEq] at h
    obtain ⟨-, rfl⟩ := h
    exact .refl input
  | succ count ih =>
    simp only [readOctets] at h
    split at h
    · cases h
    · rename_i octet mid hread
      split at h
      · cases h
      · rename_i tail rest' htail
        simp only [Option.some.injEq, Prod.mk.injEq] at h
        obtain ⟨-, rfl⟩ := h
        refine .trans ?_ (ih htail)
        simp only [readSeparator] at hread
        split at hread
        · exact readNumber_consumes (by decide) hread [] (by simp)
        · split at hread
          · cases hread
          · rename_i hdot
            rw [readGivenChar_eq_some.mp hdot]
            exact readNumber_consumes (by decide) hread ['.'] (by simp [AddressChar])

lemma readIpv4Addr_consumes (h : readIpv4Addr input = some (octets, rest)) :
    Consumes input rest := readOctets_consumes h

/-- A colon may stand anywhere. -/
lemma Consumes.colon (h : Consumes input rest) : Consumes (':' :: input) rest :=
  Consumes.trans ⟨[':'], rfl, by simp [AddressChar], by simp⟩ h

lemma readSeparator_colon_consumes {α : Type} {value : α} {inner : List Char → Option (α × List Char)}
    (hinner : ∀ {input value rest}, inner input = some (value, rest) → Consumes input rest)
    (h : readSeparator ':' first inner input = some (value, rest)) : Consumes input rest := by
  simp only [readSeparator] at h
  split at h
  · exact hinner h
  · split at h
    · cases h
    · rename_i hcolon
      rw [readGivenChar_eq_some.mp hcolon]
      exact (hinner h).colon

lemma readGroups_consumes (first : Bool) (limit : ℕ) (input : List Char) :
    Consumes input (readGroups first limit input).2.2 := by
  induction limit generalizing first input with
  | zero => exact .refl input
  | succ limit ih =>
    simp only [readGroups]
    split
    · rename_i hread
      split at hread
      · exact readSeparator_colon_consumes readIpv4Addr_consumes hread
      · cases hread
    · split
      · exact .refl input
      · rename_i hread
        have hgroup := readSeparator_colon_consumes
          (fun hnumber => readNumber_consumes (by decide) hnumber [] (by simp)) hread
        exact hgroup.trans (ih false _)

lemma readIpv6Addr_consumes (h : readIpv6Addr input = some (octets, rest)) :
    Consumes input rest := by
  simp only [readIpv6Addr] at h
  have hhead := readGroups_consumes true 8 input
  split at h
  · simp only [Option.some.injEq, Prod.mk.injEq] at h
    obtain ⟨-, rfl⟩ := h
    exact hhead
  · split at h
    · cases h
    · split at h
      · cases h
      · rename_i hcolon
        split at h
        · cases h
        · rename_i hcolon'
          simp only [Option.some.injEq, Prod.mk.injEq] at h
          obtain ⟨-, rfl⟩ := h
          rw [readGivenChar_eq_some.mp hcolon, readGivenChar_eq_some.mp hcolon'] at hhead
          exact hhead.trans (Consumes.colon (Consumes.colon (readGroups_consumes _ _ _)))

lemma readIpAddr_consumes (h : readIpAddr input = some (ip, rest)) :
    Consumes input rest := by
  simp only [readIpAddr] at h
  split at h
  · rename_i hipv4
    simp only [Option.some.injEq, Prod.mk.injEq] at h
    obtain ⟨-, rfl⟩ := h
    exact readIpv4Addr_consumes hipv4
  · obtain ⟨⟨octets, rest'⟩, hipv6, hval⟩ := Option.map_eq_some_iff.mp h
    simp only [Prod.mk.injEq] at hval
    obtain ⟨-, rfl⟩ := hval
    exact readIpv6Addr_consumes hipv6

end Consumes

section Sized

variable {input rest : List Char}

lemma length_readOctets {count : ℕ}
    (h : readOctets first count input = some (octets, rest)) : octets.length = count := by
  induction count generalizing first input octets rest with
  | zero =>
    simp only [readOctets, Option.some.injEq, Prod.mk.injEq] at h
    rw [← h.1, List.length_nil]
  | succ count ih =>
    simp only [readOctets] at h
    split at h
    · cases h
    · split at h
      · cases h
      · rename_i htail
        simp only [Option.some.injEq, Prod.mk.injEq] at h
        rw [← h.1, List.length_cons, ih htail]

/-- Groups have two octets each, and there are no more of them than the limit. -/
lemma length_readGroups_le (first : Bool) (limit : ℕ) (input : List Char) :
    (readGroups first limit input).1.length ≤ 2 * limit := by
  induction limit generalizing first input with
  | zero => simp [readGroups]
  | succ limit ih =>
    simp only [readGroups]
    split
    · rename_i octets rest hread
      split at hread
      · rename_i hlimit
        have hlength : octets.length = 4 := by
          simp only [readSeparator] at hread
          split at hread
          · exact length_readOctets hread
          · split at hread
            · cases hread
            · exact length_readOctets hread
        show octets.length ≤ 2 * (limit + 1)
        omega
      · cases hread
    · split
      · simp
      · rename_i group rest hread
        have htail := ih false rest
        simp only [List.length_append, length_toBe]
        omega

lemma length_readIpv6Addr (h : readIpv6Addr input = some (octets, rest)) : octets.length = 16 := by
  simp only [readIpv6Addr] at h
  have hhead := length_readGroups_le true 8 input
  split at h
  · rename_i hfull
    simp only [Option.some.injEq, Prod.mk.injEq] at h
    rw [← h.1, hfull]
  · split at h
    · cases h
    · split at h
      · cases h
      · split at h
        · cases h
        · rename_i rest' hcolon
          simp only [Option.some.injEq, Prod.mk.injEq] at h
          have htail := length_readGroups_le true
            (8 - ((readGroups true 8 input).1.length / 2 + 1)) rest'
          rw [← h.1]
          simp only [List.length_append, List.length_replicate]
          omega

lemma sized_readIpAddr (h : readIpAddr input = some (ip, rest)) : ip.Sized := by
  simp only [readIpAddr] at h
  split at h
  · rename_i hipv4
    simp only [Option.some.injEq, Prod.mk.injEq] at h
    rw [← h.1]
    exact length_readOctets hipv4
  · obtain ⟨⟨octets, rest'⟩, hipv6, hval⟩ := Option.map_eq_some_iff.mp h
    simp only [Prod.mk.injEq] at hval
    rw [← hval.1]
    exact length_readIpv6Addr hipv6

end Sized

section Case

lemma toNat_toLower (c : Char) :
    c.toLower.toNat = if 65 ≤ c.toNat ∧ c.toNat ≤ 90 then c.toNat + 32 else c.toNat := by
  simp only [Char.toLower, Char.toNat, ge_iff_le, UInt32.le_iff_toNat_le]
  split
  · rename_i hupper
    have hlower : 65 ≤ c.val.toNat := hupper.1
    have hbound : c.val.toNat ≤ 90 := hupper.2
    rw [if_pos ⟨hlower, hbound⟩, UInt32.toNat_add]
    exact Nat.mod_eq_of_lt (show c.val.toNat + 32 < 2 ^ 32 by omega)
  · rename_i hother
    exact (if_neg hother).symm

lemma toDigit_toLower (radix : ℕ) (c : Char) : toDigit radix c.toLower = toDigit radix c := by
  simp only [toDigit, toNat_toLower]
  congr 1
  split_ifs <;> first | omega | congr 1

lemma toLower_eq_iff {c target : Char} (htarget : target.toNat < 65) :
    c.toLower = target ↔ c = target := by
  rw [Char.ext_iff, Char.ext_iff, UInt32.toNat_inj.symm, UInt32.toNat_inj.symm]
  show c.toLower.toNat = target.toNat ↔ c.toNat = target.toNat
  rw [toNat_toLower]
  split <;> omega

/-- The reader of a lower-cased text. -/
lemma readNumber_toLower (radix maxDigits bound : ℕ) (allowZeroPrefix : Bool) (input : List Char) :
    readNumber radix maxDigits bound allowZeroPrefix (input.map Char.toLower) =
      (readNumber radix maxDigits bound allowZeroPrefix input).map
        (Prod.map id (List.map Char.toLower)) := by
  have hdigits : (input.map Char.toLower).takeWhile (fun c => (toDigit radix c).isSome) =
      (input.takeWhile fun c => (toDigit radix c).isSome).map Char.toLower := by
    rw [List.takeWhile_map]
    simp only [Function.comp_def, toDigit_toLower]
  have hhead (digits : List Char) :
      (digits.map Char.toLower).head? = some '0' ↔ digits.head? = some '0' := by
    simp [toLower_eq_iff (show '0'.toNat < 65 by decide)]
  simp only [readNumber, hdigits, List.foldl_map, toDigit_toLower, hhead, List.length_map,
    List.map_eq_nil_iff]
  split
  · rfl
  · simp

lemma readGivenChar_toLower {target : Char} (htarget : target.toNat < 65) (input : List Char) :
    readGivenChar target (input.map Char.toLower) =
      (readGivenChar target input).map (List.map Char.toLower) := by
  cases input with
  | nil => rfl
  | cons =>
    simp only [List.map_cons, readGivenChar, toLower_eq_iff htarget]
    split <;> rfl

lemma readSeparator_toLower {α : Type} {separator : Char} (hseparator : separator.toNat < 65)
    (first : Bool) {inner : List Char → Option (α × List Char)}
    (hinner : ∀ input, inner (input.map Char.toLower) =
      (inner input).map (Prod.map id (List.map Char.toLower))) (input : List Char) :
    readSeparator separator first inner (input.map Char.toLower) =
      (readSeparator separator first inner input).map (Prod.map id (List.map Char.toLower)) := by
  simp only [readSeparator]
  split
  · exact hinner input
  · rw [readGivenChar_toLower hseparator]
    cases readGivenChar separator input with
    | none => rfl
    | some rest => exact hinner rest

lemma readOctets_toLower (first : Bool) (count : ℕ) (input : List Char) :
    readOctets first count (input.map Char.toLower) =
      (readOctets first count input).map (Prod.map id (List.map Char.toLower)) := by
  induction count generalizing first input with
  | zero => rfl
  | succ count ih =>
    simp only [readOctets, readSeparator_toLower (show '.'.toNat < 65 by decide) first
      (readNumber_toLower 10 3 256 false)]
    cases readSeparator '.' first (readNumber 10 3 256 false) input with
    | none => rfl
    | some p =>
      simp only [Option.map_some, Prod.map_fst, Prod.map_snd, id_eq, ih]
      cases readOctets false count p.2 <;> rfl

lemma readGroups_toLower (first : Bool) (limit : ℕ) (input : List Char) :
    readGroups first limit (input.map Char.toLower) =
      Prod.map id (Prod.map id (List.map Char.toLower)) (readGroups first limit input) := by
  induction limit generalizing first input with
  | zero => rfl
  | succ limit ih =>
    have hipv4 : (if 0 < limit then readSeparator ':' first readIpv4Addr (input.map Char.toLower)
        else none) = (if 0 < limit then readSeparator ':' first readIpv4Addr input else none).map
          (Prod.map id (List.map Char.toLower)) := by
      split
      · exact readSeparator_toLower (by decide) first (readOctets_toLower true 4) input
      · rfl
    have hgroup := readSeparator_toLower (show ':'.toNat < 65 by decide) first
      (readNumber_toLower 16 4 65536 true) input
    simp only [readGroups, hipv4, hgroup]
    cases if 0 < limit then readSeparator ':' first readIpv4Addr input else none with
    | some => rfl
    | none =>
      cases readSeparator ':' first (readNumber 16 4 65536 true) input with
      | none => rfl
      | some =>
        simp only [Option.map_none, Option.map_some, Prod.map_fst, Prod.map_snd, id_eq, ih]
        rfl

lemma readIpv6Addr_toLower (input : List Char) :
    readIpv6Addr (input.map Char.toLower) =
      (readIpv6Addr input).map (Prod.map id (List.map Char.toLower)) := by
  simp only [readIpv6Addr, readGroups_toLower, Prod.map_fst, Prod.map_snd, id_eq]
  split
  · rfl
  · split
    · rfl
    · rw [readGivenChar_toLower (by decide)]
      cases readGivenChar ':' (readGroups true 8 input).2.2 with
      | none => rfl
      | some rest =>
        simp only [Option.map_some, readGivenChar_toLower (show ':'.toNat < 65 by decide)]
        cases readGivenChar ':' rest with
        | none => rfl
        | some =>
          simp only [Option.map_some, readGroups_toLower, Prod.map_apply, id_eq, Prod.map_snd, Prod.map_fst]

lemma readIpAddr_toLower (input : List Char) :
    readIpAddr (input.map Char.toLower) =
      (readIpAddr input).map (Prod.map id (List.map Char.toLower)) := by
  simp only [readIpAddr, readIpv4Addr, readOctets_toLower, readIpv6Addr_toLower]
  cases readOctets true 4 input with
  | some => rfl
  | none => cases readIpv6Addr input <;> rfl

end Case
end IpText

namespace IpAddr

/-- `str::parse::<IpAddr>`. -/
def parse (text : String) : Option IpAddr :=
  match IpText.readIpAddr text.toList with
  | some (ip, []) => some ip
  | _ => none

/-- `IpAddr::to_string`. -/
def display : IpAddr → String
  | v4 octets => IpText.ipv4Text octets
  | v6 octets => IpText.ipv6Text octets

variable {text : String}

lemma readIpAddr_of_parse (h : parse text = some ip) :
    IpText.readIpAddr text.toList = some (ip, []) := by
  simp only [parse] at h
  split at h
  · rename_i hread
    cases h
    exact hread
  · cases h

/-- The text of an address ends in a digit, a letter or a colon. -/
lemma chars_of_parse (h : parse text = some ip) :
    (∀ c ∈ text.toList, IpText.AddressChar c) ∧ text.toList.getLast? ≠ some '.' := by
  obtain ⟨taken, hinput, hchars, hlast⟩ := IpText.readIpAddr_consumes (readIpAddr_of_parse h)
  rw [hinput, List.append_nil]
  exact ⟨hchars, hlast⟩

lemma sized_of_parse (h : parse text = some ip) : ip.Sized :=
  IpText.sized_readIpAddr (readIpAddr_of_parse h)

lemma parse_toLower (text : String) : parse text.toLower = parse text := by
  simp only [parse, String.toLower, String.toList_map, IpText.readIpAddr_toLower]
  cases IpText.readIpAddr text.toList with
  | none => rfl
  | some p => rcases p with ⟨ip, _ | ⟨c, rest⟩⟩ <;> rfl

end IpAddr

/-- Identities with the addresses of the standard library. -/
def stdNet (S : IdentityScheme) : DirectoryEnv := ⟨S, IpAddr.parse, IpAddr.display⟩

end AnonGuard
