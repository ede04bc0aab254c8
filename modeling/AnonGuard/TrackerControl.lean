import AnonGuard.PoolNode

/-!
# Control frames of the tracker

A client of the tracker sends a command in a frame of at most 32 KiB: the length in 32 bits and
the text. Nodes and capabilities are 64 hexadecimal digits. To register, a node signs the command
together with a challenge and a value that only the two ends of its TLS channel have.
-/
namespace AnonGuard

/-- The longest control message of a tracker. -/
def MAX_CONTROL : ℕ := 32 * 1024

def writeControl (value : String) : Except String Bytes :=
  let data := utf8 value
  if data = [] ∨ MAX_CONTROL < data.length then .error "Invalid tracker control length"
  else .ok (toBe 4 data.length ++ data)

def readControl (input : Bytes) : Except String String :=
  if input.length < 4 then .error "early eof"
  else
    let size := ofBe (input.take 4)
    if size = 0 ∨ MAX_CONTROL < size then .error "Invalid tracker control length"
    else if input.length < 4 + size then .error "early eof"
    else
      match String.fromUTF8? ⟨((input.drop 4).take size).toArray⟩ with
      | some value => .ok value
      | none => .error "Invalid tracker control UTF-8"

def validToken (token : String) : Bool :=
  (utf8 token).length == 64 &&
    (utf8 token).all fun c => RelayDescriptor.isDigit c || (97 ≤ c && c ≤ 102)

def validNode (node : String) : Bool := validToken node

/-- Comparison in constant time. -/
def tokensMatch (a b : String) : Bool := utf8 a == utf8 b

/-- `str::parse::<u64>`. -/
def parseU64 (text : String) : Option UInt64 :=
  let digits := match text.toList with
    | '+' :: rest => rest
    | chars => chars
  if digits = [] ∨ digits.any (fun c => !c.isDigit) then none
  else
    let n := digits.foldl (fun n c => n * 10 + (c.toNat - 48)) 0
    if n < 2 ^ 64 then some (UInt64.ofNat n) else none

/-- `hex::encode`. -/
def hexEncode (bytes : Bytes) : String :=
  String.ofList (bytes.flatMap fun b => [Nat.digitChar (b.toNat / 16), Nat.digitChar (b.toNat % 16)])

def hexValue (c : UInt8) : Option UInt8 :=
  if 48 ≤ c ∧ c ≤ 57 then some (c - 48)
  else if 97 ≤ c ∧ c ≤ 102 then some (c - 87)
  else if 65 ≤ c ∧ c ≤ 70 then some (c - 55)
  else none

/-- `hex::decode`. -/
def hexDecode : Bytes → Option Bytes
  | [] => some []
  | [_] => none
  | high :: low :: rest => do
    let high ← hexValue high
    let low ← hexValue low
    let rest ← hexDecode rest
    return (high * 16 + low) :: rest

def registrationMessage (command : String) (challenge exporter : Bytes) : Bytes :=
  utf8 "AnonGuard-tracker-registration-v2\x00" ++ toBe 4 (utf8 command).length ++
    utf8 command ++ challenge ++ exporter

/-- `str::split_whitespace`. -/
def splitWhitespace (text : String) : List String :=
  ((text.toList.splitOnP isWhiteSpace).filter (· ≠ [])).map String.ofList

inductive TrackerCommand
  | registerReverse (node token timestamp nonce : String)
  | connectReverse (node token : String)
  | nodes
  | invalid
  deriving DecidableEq

/-- The match of `handle` on the words of a command. -/
def parseCommand : List String → TrackerCommand
  | [verb, node, token, timestamp, nonce] =>
    if verb = "REGISTER_REVERSE" ∧ validNode node = true ∧ validToken token = true then
      .registerReverse node token timestamp nonce
    else .invalid
  | [verb, node, token] =>
    if verb = "CONNECT_REVERSE" ∧ validNode node = true ∧ validToken token = true then
      .connectReverse node token
    else .invalid
  | [verb] => if verb = "NODES" then .nodes else .invalid
  | _ => .invalid

lemma eq_of_tokensMatch {a b : String} (h : tokensMatch a b = true) : a = b :=
  utf8_inj (beq_iff_eq.mp h)

lemma length_of_validNode {node : String} (h : validNode node = true) : (utf8 node).length = 64 := by
  simp only [validNode, validToken, Bool.and_eq_true, beq_iff_eq] at h
  exact h.1

lemma validNode_of_parseCommand {words : List String} {node token timestamp nonce : String}
    (h : parseCommand words = .registerReverse node token timestamp nonce) : validNode node = true := by
  unfold parseCommand at h
  split at h
  · split_ifs at h with hvalid
    cases h
    exact hvalid.2.1
  · split_ifs at h
  · split_ifs at h
  · cases h

/-- The octet of a hexadecimal digit. -/
def hexOctet (n : ℕ) : UInt8 := if n < 10 then 48 + UInt8.ofNat n else 87 + UInt8.ofNat n

lemma utf8EncodeChar_digitChar {n : ℕ} (hn : n < 16) :
    String.utf8EncodeChar (Nat.digitChar n) = [hexOctet n] := by
  have hall : ∀ n < 16, String.utf8EncodeChar (Nat.digitChar n) = [hexOctet n] := by decide
  exact hall n hn

lemma hexValue_hexOctet {n : ℕ} (hn : n < 16) : hexValue (hexOctet n) = some (UInt8.ofNat n) := by
  have hall : ∀ n < 16, hexValue (hexOctet n) = some (UInt8.ofNat n) := by decide
  exact hall n hn

lemma utf8_hexEncode_cons (b : UInt8) (bytes : Bytes) :
    utf8 (hexEncode (b :: bytes)) =
      hexOctet (b.toNat / 16) :: hexOctet (b.toNat % 16) :: utf8 (hexEncode bytes) := by
  have hlt := b.toNat_lt
  rw [hexEncode, utf8_ofList, hexEncode, utf8_ofList, List.flatMap_cons, List.flatMap_append,
    List.flatMap_cons, List.flatMap_cons, utf8EncodeChar_digitChar (by omega),
    utf8EncodeChar_digitChar (by omega)]
  rfl

theorem hexDecode_hexEncode (bytes : Bytes) : hexDecode (utf8 (hexEncode bytes)) = some bytes := by
  induction bytes with
  | nil => rfl
  | cons b bytes ih =>
    have hlt := b.toNat_lt
    have hjoin : UInt8.ofNat (b.toNat / 16) * 16 + UInt8.ofNat (b.toNat % 16) = b := by
      apply UInt8.toNat_inj.mp
      simp only [UInt8.toNat_add, UInt8.toNat_mul, UInt8.toNat_ofNat', UInt8.reduceToNat]
      omega
    rw [utf8_hexEncode_cons, hexDecode, hexValue_hexOctet (by omega), hexValue_hexOctet (by omega), ih]
    simp [hjoin]

lemma length_hexEncode (bytes : Bytes) : (utf8 (hexEncode bytes)).length = 2 * bytes.length := by
  induction bytes with
  | nil => rfl
  | cons b bytes ih =>
    rw [utf8_hexEncode_cons]
    simp only [List.length_cons, ih]
    omega

lemma validToken_hexEncode {bytes : Bytes} (h : bytes.length = 32) :
    validToken (hexEncode bytes) = true := by
  have hdigit : ∀ n < 16, (RelayDescriptor.isDigit (hexOctet n) ||
      (97 ≤ hexOctet n && hexOctet n ≤ 102)) = true := by decide
  have hall : (utf8 (hexEncode bytes)).all
      (fun c => RelayDescriptor.isDigit c || (97 ≤ c && c ≤ 102)) = true := by
    clear h
    induction bytes with
    | nil => rfl
    | cons b bytes ih =>
      have hlt := b.toNat_lt
      rw [utf8_hexEncode_cons, List.all_cons, List.all_cons, hdigit _ (by omega), hdigit _ (by omega), ih]
      rfl
  rw [validToken, hall, length_hexEncode, h]
  rfl

/-- A text that is one word. -/
def IsWord (s : String) : Prop := s.toList ≠ [] ∧ ∀ c ∈ s.toList, isWhiteSpace c = false

lemma isWord_of_validToken {token : String} (h : validToken token = true) : IsWord token := by
  simp only [validToken, Bool.and_eq_true, beq_iff_eq, List.all_eq_true] at h
  constructor
  · intro hnil
    have hlength := h.1
    rw [utf8_eq_flatMap, hnil] at hlength
    cases hlength
  · intro c hc
    obtain ⟨octet, hoctet, hcases⟩ := exists_mem_utf8EncodeChar c
    have hhex := h.2 octet (utf8EncodeChar_subset hc hoctet)
    simp only [RelayDescriptor.isDigit, Bool.or_eq_true, Bool.and_eq_true, decide_eq_true_eq,
      UInt8.le_iff_toNat_le, UInt8.reduceToNat] at hhex
    exact isWhiteSpace_eq_false (by omega) (by omega)

lemma isWord_toString (n : ℕ) : IsWord (toString n) := by
  rw [IsWord, Nat.toString_eq_ofList_toDigits, String.toList_ofList]
  exact ⟨Nat.toDigits_ne_nil, fun c hc =>
    isWhiteSpace_of_isDigit (Nat.isDigit_of_mem_toDigits (by decide) (by decide) hc)⟩

lemma IsWord.space_notMem {s : String} (h : IsWord s) : ' ' ∉ s.toList := by
  intro hmem
  exact absurd (h.2 ' ' hmem) (by decide)

/-- A value that is neither empty nor too long is written, and read back. -/
theorem writeControl_eq_ok {value : String} (hne : utf8 value ≠ [])
    (hle : (utf8 value).length ≤ MAX_CONTROL) :
    ∃ frame, writeControl value = .ok frame ∧ readControl frame = .ok value := by
  refine ⟨toBe 4 (utf8 value).length ++ utf8 value, ?_, ?_⟩
  · have hwrite : ¬ (utf8 value = [] ∨ MAX_CONTROL < (utf8 value).length) := by
      rintro (hempty | hlong)
      · exact hne hempty
      · omega
    exact if_neg hwrite
  · have hpos : (utf8 value).length ≠ 0 := fun h => hne (List.length_eq_zero_iff.mp h)
    have hsize : ofBe ((toBe 4 (utf8 value).length ++ utf8 value).take 4) = (utf8 value).length := by
      rw [List.take_left' (length_toBe 4 _), ofBe_toBe]
      apply Nat.mod_eq_of_lt
      unfold MAX_CONTROL at hle
      omega
    have hdrop : (toBe 4 (utf8 value).length ++ utf8 value).drop 4 = utf8 value :=
      List.drop_left' (length_toBe 4 _)
    unfold readControl
    rw [hsize, hdrop, List.length_append, length_toBe]
    dsimp only
    rw [List.take_length, fromUTF8_utf8, if_neg (by omega), if_neg (by omega), if_neg (by omega)]

lemma length_utf8_intercalate_le (separator : String) (l : List String) :
    (utf8 (separator.intercalate l)).length ≤
      (l.map fun s => (utf8 s).length).sum + l.length * (utf8 separator).length := by
  induction l with
  | nil => simp [utf8]
  | cons s l ih =>
    cases l with
    | nil => simp
    | cons s' l =>
      rw [String.intercalate_cons_cons, utf8_append, utf8_append]
      simp only [List.length_append, List.map_cons, List.sum_cons, List.length_cons] at ih ⊢
      rw [Nat.add_mul (l.length + 1) 1]
      omega

end AnonGuard
