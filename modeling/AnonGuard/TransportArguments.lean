import AnonGuard.Escaping
import AnonGuard.Identity

/-!
# Arguments of a pluggable transport

The arguments of a bridge go to its transport as one string of octets, `key=value` pairs joined by
semicolons. The reader of the transport is not part of the program; `parseArguments` says what it
has to make of the octets.
-/
namespace AnonGuard

/-- `char::is_control`. -/
def isControl (c : Char) : Bool := c.toNat < 0x20 || (0x7f ≤ c.toNat && c.toNat < 0xa0)

def isArgumentDelimiter (c : Char) : Bool := c = '\\' || c = '=' || c = ';'

/-- The closure `escape` of `encodeArguments`. -/
def escapeArgument (value : String) : String :=
  value.toList.foldl (fun result c =>
    (if isArgumentDelimiter c then result.push '\\' else result).push c) ""

/-- The loop over the pairs, with what is encoded so far. -/
def encodePairs : List (String × String) → Bytes → Except String Bytes
  | [], encoded => .ok encoded
  | (key, value) :: rest, encoded =>
    if key = "" ∨ (key.toList ++ value.toList).any isControl then
      .error "Invalid transport argument"
    else
      let separated := if encoded = [] then encoded else encoded ++ utf8 ";"
      let joined := separated ++ utf8 (escapeArgument key) ++ utf8 "=" ++
        utf8 (escapeArgument value)
      if joined.length > 254 then .error "Transport arguments exceed 254 bytes"
      else encodePairs rest joined

def encodeArguments (arguments : Std.TreeMap String String) : Except String Bytes :=
  if arguments.isEmpty then .error "Transport arguments are required"
  else encodePairs arguments.toList []

section Reader

def BACKSLASH : UInt8 := 0x5c
def EQUALS : UInt8 := 0x3d
def SEMICOLON : UInt8 := 0x3b

/-- The octets that the reader gives a meaning. -/
def isDelimiterOctet (b : UInt8) : Bool := b = BACKSLASH || b = EQUALS || b = SEMICOLON

/-- A key or a value without its marks, as a text. -/
def parseArgument (octets : Bytes) : Option String := do
  String.fromUTF8? ⟨(← unescape BACKSLASH octets).toArray⟩

/-- Exactly one sign of equality that is not escaped. -/
def parsePair (field : Bytes) : Option (String × String) :=
  match splitUnescaped BACKSLASH EQUALS field with
  | [key, value] => do return (← parseArgument key, ← parseArgument value)
  | _ => none

/-- The pairs in the order in which they stand. -/
def parseArguments (octets : Bytes) : Option (List (String × String)) :=
  (splitUnescaped BACKSLASH SEMICOLON octets).mapM parsePair

end Reader

section Octets

lemma escapeArgument_eq (value : String) :
    escapeArgument value = String.ofList (escape '\\' isArgumentDelimiter value.toList) := by
  have hfold : ∀ (rest : List Char) (result : String),
      rest.foldl (fun result c =>
        (if isArgumentDelimiter c then result.push '\\' else result).push c) result =
      result ++ String.ofList (escape '\\' isArgumentDelimiter rest) := by
    intro rest
    induction rest with
    | nil =>
      intro result
      exact (String.append_empty).symm
    | cons c rest ih =>
      intro result
      rw [List.foldl_cons, ih, escape_cons, String.ofList_append, ← String.append_assoc]
      congr 1
      by_cases hc : isArgumentDelimiter c = true
      · rw [if_pos hc, if_pos hc]
        apply String.toList_inj.1
        simp
      · rw [if_neg hc, if_neg hc]
        apply String.toList_inj.1
        simp
  exact (hfold value.toList "").trans String.empty_append

lemma isDelimiterOctet_ofNat {c : Char} (hc : c.toNat < 128) :
    isDelimiterOctet (UInt8.ofNat c.toNat) = isArgumentDelimiter c := by
  have hoctet : (UInt8.ofNat c.toNat).toNat = c.toNat := by
    rw [UInt8.toNat_ofNat']
    omega
  have heq : ∀ (d : Char) (b : UInt8), b.toNat = d.toNat →
      decide (UInt8.ofNat c.toNat = b) = decide (c = d) := by
    intro d b hb
    rw [decide_eq_decide, ← UInt8.toNat_inj, ← Char.toNat_inj, hoctet, hb]
  rw [isDelimiterOctet, isArgumentDelimiter, heq '\\' BACKSLASH rfl, heq '=' EQUALS rfl,
    heq ';' SEMICOLON rfl]

/-- The delimiters are ASCII: no octet of another character is taken for one. -/
lemma escape_utf8EncodeChar (c : Char) :
    escape BACKSLASH isDelimiterOctet (String.utf8EncodeChar c) =
      (if isArgumentDelimiter c then ['\\', c] else [c]).flatMap String.utf8EncodeChar := by
  obtain ⟨hc, hself⟩ | ⟨hc, -, hall⟩ := utf8EncodeChar_cases c
  · rw [hself, escape_cons, isDelimiterOctet_ofNat hc]
    by_cases hspecial : isArgumentDelimiter c = true
    · rw [if_pos hspecial, if_pos hspecial, List.flatMap_cons, List.flatMap_singleton, hself]
      rfl
    · rw [if_neg hspecial, if_neg hspecial, List.flatMap_singleton, hself]
      rfl
  · have hplain : ¬ isArgumentDelimiter c = true := by
      simp only [isArgumentDelimiter, Bool.or_eq_true, decide_eq_true_eq]
      rintro ((rfl | rfl) | rfl)
      all_goals exact absurd hc (by decide)
    rw [if_neg hplain, List.flatMap_singleton]
    apply escape_eq_self
    intro octet hoctet
    have hhigh := hall octet hoctet
    simp only [isDelimiterOctet, Bool.or_eq_false_iff, decide_eq_false_iff_not]
    refine ⟨⟨?_, ?_⟩, ?_⟩
    all_goals
      rintro rfl
      exact absurd hhigh (by decide)

lemma utf8_escapeArgument (value : String) :
    utf8 (escapeArgument value) = escape BACKSLASH isDelimiterOctet (utf8 value) := by
  rw [escapeArgument_eq, utf8_ofList, utf8_eq_flatMap]
  induction value.toList with
  | nil => rfl
  | cons c rest ih =>
    rw [escape_cons, List.flatMap_append, List.flatMap_cons, escape_append, ih,
      escape_utf8EncodeChar]

end Octets

section RoundTrip

/-- The octets of one pair. -/
def encodedPair (pair : String × String) : Bytes :=
  utf8 (escapeArgument pair.1) ++ utf8 "=" ++ utf8 (escapeArgument pair.2)

lemma encodedPair_ne_nil (pair : String × String) : encodedPair pair ≠ [] := by
  intro h
  have hequals := (List.append_eq_nil_iff.1 (List.append_eq_nil_iff.1 h).1).2
  exact absurd hequals (by decide)

variable {rest : List (String × String)}

/-- One turn of the loop: the pair behind what is there already. -/
lemma encodePairs_cons {pair : String × String}
    {encoded octets : Bytes} (h : encodePairs (pair :: rest) encoded = .ok octets) :
    encodePairs rest ((if encoded = [] then encoded else encoded ++ [SEMICOLON]) ++
      encodedPair pair) = .ok octets := by
  obtain ⟨key, value⟩ := pair
  have hsemicolon : utf8 ";" = [SEMICOLON] := by decide
  rw [encodePairs, hsemicolon] at h
  dsimp only at h
  split_ifs at h <;> simp_all [encodedPair]

variable {pairs : List (String × String)}

lemma encodePairs_eq_append {encoded octets : Bytes}
    (hne : encoded ≠ []) (h : encodePairs pairs encoded = .ok octets) :
    octets = encoded ++ (pairs.map encodedPair).flatMap (SEMICOLON :: ·) := by
  induction pairs generalizing encoded with
  | nil =>
    cases h
    simp
  | cons pair rest ih =>
    have hrest := encodePairs_cons h
    rw [if_neg hne] at hrest
    rw [ih (by simp) hrest]
    simp

variable {octets : Bytes}

lemma encodePairs_nil_eq {pair : String × String} (h : encodePairs (pair :: rest) [] = .ok octets) :
    octets = encodedPair pair ++ (rest.map encodedPair).flatMap (SEMICOLON :: ·) := by
  have hrest := encodePairs_cons h
  rw [if_pos rfl, List.nil_append] at hrest
  exact encodePairs_eq_append (encodedPair_ne_nil pair) hrest

lemma parseArgument_escape (value : String) :
    parseArgument (utf8 (escapeArgument value)) = some value := by
  rw [utf8_escapeArgument, parseArgument, unescape_escape (by decide)]
  exact fromUTF8_utf8 value

lemma unbroken_escapeArgument {delimiter : UInt8} (h : isDelimiterOctet delimiter = true)
    (value : String) : Unbroken BACKSLASH delimiter (utf8 (escapeArgument value)) := by
  rw [utf8_escapeArgument]
  exact .of_escape (by decide) h _

lemma unbroken_encodedPair (pair : String × String) :
    Unbroken BACKSLASH SEMICOLON (encodedPair pair) := by
  have hequals : Unbroken BACKSLASH SEMICOLON (utf8 "=") := .singleton (by decide) (by decide)
  exact ((unbroken_escapeArgument (by decide) _).append hequals).append
    (unbroken_escapeArgument (by decide) _)

lemma parsePair_encodedPair (pair : String × String) :
    parsePair (encodedPair pair) = some pair := by
  have hsplit : splitUnescaped BACKSLASH EQUALS (encodedPair pair) =
      [utf8 (escapeArgument pair.1), utf8 (escapeArgument pair.2)] := by
    have hkey : Unbroken BACKSLASH EQUALS (utf8 (escapeArgument pair.1)) :=
      unbroken_escapeArgument (by decide) pair.1
    have hvalue : ∀ t ∈ [utf8 (escapeArgument pair.2)], Unbroken BACKSLASH EQUALS t :=
      List.forall_mem_singleton.2 (unbroken_escapeArgument (by decide) pair.2)
    have hequals : utf8 "=" = [EQUALS] := by decide
    rw [← splitUnescaped_joined (by decide) hkey hvalue, encodedPair, hequals,
      List.flatMap_singleton, List.append_assoc]
    rfl
  rw [parsePair, hsplit]
  simp [parseArgument_escape]

lemma mapM_parsePair (pairs : List (String × String)) :
    (pairs.map encodedPair).mapM parsePair = some pairs := by
  induction pairs with
  | nil => rfl
  | cons pair rest ih =>
    rw [List.map_cons, List.mapM_cons, parsePair_encodedPair, ih]
    rfl

/-- What is accepted is read back as the pairs in their order. -/
theorem parseArguments_of_encodePairs (hpairs : pairs ≠ []) (h : encodePairs pairs [] = .ok octets) :
    parseArguments octets = some pairs := by
  obtain ⟨pair, rest, rfl⟩ := List.exists_cons_of_ne_nil hpairs
  have hrest : ∀ t ∈ rest.map encodedPair, Unbroken BACKSLASH SEMICOLON t :=
    List.forall_mem_map.2 fun pair _ => unbroken_encodedPair pair
  rw [encodePairs_nil_eq h, parseArguments,
    splitUnescaped_joined (by decide) (unbroken_encodedPair pair) hrest, ← List.map_cons]
  exact mapM_parsePair (pair :: rest)

lemma parseArguments_of_encodeArguments {arguments : Std.TreeMap String String}
    (h : encodeArguments arguments = .ok octets) :
    parseArguments octets = some arguments.toList := by
  unfold encodeArguments at h
  split_ifs at h with hempty
  refine parseArguments_of_encodePairs ?_ h
  intro hnil
  exact hempty (by rw [← Std.TreeMap.isEmpty_toList, hnil]; rfl)

end RoundTrip

/-- A reader that splits at the delimiters without a mark gets the keys and the values back, so
that two maps with the same octets agree at every key. -/
theorem encodeArguments_injective {arguments : Std.TreeMap String String} {octets : Bytes}
    (h : encodeArguments arguments = .ok octets) :
    parseArguments octets = some arguments.toList ∧
      ∀ other, encodeArguments other = .ok octets →
        ∀ key : String, other[key]? = arguments[key]? := by
  have hparse := parseArguments_of_encodeArguments h
  refine ⟨hparse, fun other hother key => ?_⟩
  have hlist : other.toList = arguments.toList :=
    Option.some.inj ((parseArguments_of_encodeArguments hother).symm.trans hparse)
  exact (Std.TreeMap.equiv_iff_toList_eq.2 hlist).getElem?_eq

/-- All three delimiters in a value, a mark at the end of a key, and an empty value. -/
def sampleArguments : Std.TreeMap String String :=
  (∅ : Std.TreeMap String String).insertMany [("k\\", ""), ("a", "b;c=d\\e")]

theorem sampleArguments_read_back :
    encodeArguments sampleArguments = .ok (utf8 "a=b\\;c\\=d\\\\e;k\\\\=") ∧
      parseArguments (utf8 "a=b\\;c\\=d\\\\e;k\\\\=") =
        some [("a", "b;c=d\\e"), ("k\\", "")] := by
  have haccepted : encodeArguments sampleArguments = .ok (utf8 "a=b\\;c\\=d\\\\e;k\\\\=") := by
    decide +kernel
  exact ⟨haccepted, (encodeArguments_injective haccepted).1⟩

end AnonGuard
