import Talos.Sdk.Webhooks

/-!
# Webhook signatures of the platform

`signPayload` and `verifySignature` (`web/src/lib/webhooks/signing.ts`). The header's
timestamp is read with `Number` and written into the signed string again as the number's
text, so both conversions are a parameter, with what the language says about them.
-/

namespace Talos.Webhooks.Signing

open Encoding
open Sdk.Webhook (Hmac comma dot equals letterT letterV)

def currentSignatureVersion : Nat := 1

def supportedSignatureVersions : List Nat := [1]

def maxTimestampAgeSec : ℚ := 300

/-- Timestamps of the clock have at most 13 digits. -/
abbrev Timestamp := Fin 10000000000000

/-- `Number(text)`, `none` unless it is finite, and the text of a number. -/
structure NumberText where
  parse : Utf16 → Option ℚ
  text : ℚ → Utf16
  text_timestamp : ∀ t : Timestamp, text (t.val : ℚ) = decimal t.val
  parse_timestamp : ∀ t : Timestamp, parse (decimal t.val) = some (t.val : ℚ)
  parse_text : ∀ s q, parse s = some q → parse (text q) = some q
  text_units : ∀ s q, parse s = some q → ∀ u ∈ text q,
    isDigit u = true ∨ u = dot ∨ u = 0x2B ∨ u = 0x2D ∨ u = 0x65

def asSecretList (secret : List Utf16) : List Utf16 := secret.filter (· ≠ [])

/-- The string that is signed. -/
def dataToSign (version : Nat) (timestamp payload : Utf16) : Utf16 :=
  decimal version ++ dot :: (timestamp ++ dot :: payload)

/-- `parts.join(",")` with the timestamp behind. -/
def joinSignatures (timestamp : Utf16) : List Utf16 → Utf16
  | [] => letterT :: equals :: timestamp
  | part :: parts => part ++ comma :: joinSignatures timestamp parts

/-- `signPayload`, at a time in milliseconds. -/
def signPayload (hmac : Hmac) (payload : Utf16) (secret : List Utf16) (version now : Nat) :
    Except String Utf16 :=
  let secrets := asSecretList secret
  if secrets = [] then .error "At least one signing secret is required"
  else
    let timestamp := decimal (now / 1000)
    .ok (joinSignatures timestamp (secrets.map fun s =>
      letterV :: (decimal version ++ equals :: hex (hmac s (dataToSign version timestamp payload)))))

/-- `.` in a regular expression. -/
def isLineTerminator (u : UInt16) : Bool := u == 0x0A || u == 0x0D || u == 0x2028 || u == 0x2029

/-- A part `v<digits>=`, as its digits and what follows. -/
def versionPart (part : Utf16) : Option (Utf16 × Utf16) :=
  let digits := part.tail.takeWhile isDigit
  let rest := part.tail.dropWhile isDigit
  if part.head? = some letterV ∧ digits ≠ [] ∧ rest.head? = some equals then
    some (digits, rest.tail)
  else none

/-- The version and the code of a part, if its version is supported and there is a code. -/
def providedCode (part : Utf16 × Utf16) : Option (Nat × List UInt8) :=
  let version := digitsValue part.1
  let provided := hexPairs part.2
  if part.2 = [] ∨ part.2.any isLineTerminator then none
  else if version ∉ supportedSignatureVersions then none
  else if provided = [] then none
  else some (version, provided)

/-- The value of the first part `t=`. -/
def timestampPart (parts : List Utf16) : Option Utf16 :=
  (parts.find? fun part => part.take 2 = [letterT, equals]).map (·.drop 2)

def headerParts (header : Utf16) : List Utf16 := (splitAll comma header).map trimSpace

/-- The number that the header has for its timestamp. -/
def headerTimestamp (numbers : NumberText) (header : Utf16) : Option ℚ :=
  (timestampPart (headerParts header)).bind numbers.parse

/-- The codes of the header that are compared. -/
def headerCodes (header : Utf16) : List (Nat × List UInt8) :=
  ((headerParts header).filterMap versionPart).filterMap providedCode

/-- The clock is close enough; `now` is in seconds. -/
def inWindow (timestamp : ℚ) (now : Int) : Bool := ¬ maxTimestampAgeSec < |now - timestamp|

/-- `verifySignature`, at a time in milliseconds. -/
def verifySignature (numbers : NumberText) (hmac : Hmac) (payload : Utf16)
    (signatureHeader : Option Utf16) (secret : List Utf16) (now : Int) : Bool :=
  match signatureHeader with
  | none => false
  | some header =>
      let secrets := asSecretList secret
      if header = [] ∨ secrets = [] then false
      else match headerTimestamp numbers header with
        | none => false
        | some timestamp =>
            inWindow timestamp (now / 1000) &&
              (headerCodes header).any fun code =>
                secrets.any fun s =>
                  code.2 = hmac s (dataToSign code.1 (numbers.text timestamp) payload)

end Talos.Webhooks.Signing

/-!
## Reading signature headers

A header of codes with the timestamp behind, as `signPayload` writes it, is read back by
both verifiers: by the SDK (`parseSignatureHeader_signatureHeader`) and, if the versions
are supported, by the platform (`headerCodes_signatureHeader`).
-/

namespace Talos.Webhooks.Signing

open Encoding
open Sdk.Webhook (Hmac HeaderState comma dot equals letterT letterV parseSignatureHeader readParts
  readPart readPair addVersion hexToBuf ParsedSignature)

/-- The part of a code. -/
def codePart (code : Nat × List UInt8) : Utf16 :=
  letterV :: (decimal code.1 ++ equals :: hex code.2)

def signatureHeader (timestamp : Utf16) (codes : List (Nat × List UInt8)) : Utf16 :=
  joinSignatures timestamp (codes.map codePart)

variable {numbers : NumberText} {hmac : Hmac} {secrets : List Utf16} {code : Nat × List UInt8}
  {codes : List (Nat × List UInt8)} {timestamp payload : Utf16} {version now : Nat}

/-! ### Parts without commas and spaces -/

theorem notMem_decimal {u : UInt16} (other : isDigit u = false) (n : Nat) : u ∉ decimal n := by
  intro mem
  rw [decimal_isDigit n u mem] at other
  cases other

/-- Neither a comma nor a space. -/
def PlainUnits (text : Utf16) : Prop := ∀ u ∈ text, u ≠ comma ∧ isStrWhiteSpace u = false

theorem PlainUnits.cons {u : UInt16} (other : u ≠ comma) (visible : isStrWhiteSpace u = false)
    (plain : PlainUnits timestamp) : PlainUnits (u :: timestamp) := by
  intro v mem
  rcases List.mem_cons.mp mem with rfl | later
  · exact ⟨other, visible⟩
  · exact plain v later

theorem PlainUnits.append {x y : Utf16} (left : PlainUnits x) (right : PlainUnits y) :
    PlainUnits (x ++ y) := by
  intro u mem
  rcases List.mem_append.mp mem with mem | mem
  · exact left u mem
  · exact right u mem

theorem PlainUnits.notMem {text : Utf16} (plain : PlainUnits text) : comma ∉ text :=
  fun mem => (plain comma mem).1 rfl

theorem PlainUnits.trim {text : Utf16} (plain : PlainUnits text) : trimSpace text = text :=
  trimSpace_eq_self fun u mem => (plain u mem).2

theorem plainUnits_of_range {text : Utf16} (range : ∀ u ∈ text, 0x2D ≤ u.toNat ∧ u.toNat < 0x80) :
    PlainUnits text := by
  intro u mem
  obtain ⟨low, high⟩ := range u mem
  refine ⟨?_, not_isStrWhiteSpace (by omega) high⟩
  rintro rfl
  exact absurd low (by decide)

theorem plainUnits_decimal (n : Nat) : PlainUnits (decimal n) :=
  plainUnits_of_range fun u mem => by
    have := isDigit_iff.mp (decimal_isDigit n u mem)
    omega

theorem plainUnits_hex (code : List UInt8) : PlainUnits (hex code) :=
  plainUnits_of_range fun u mem => by
    have := isHexDigit_range (hex_isHexDigit code u mem)
    omega

theorem plainUnits_codePart (code : Nat × List UInt8) : PlainUnits (codePart code) := by
  apply PlainUnits.cons (by decide) (by decide)
  apply (plainUnits_decimal code.1).append
  exact .cons (by decide) (by decide) (plainUnits_hex code.2)

theorem plainUnits_timestampPart (plain : PlainUnits timestamp) :
    PlainUnits (letterT :: equals :: timestamp) :=
  .cons (by decide) (by decide) (.cons (by decide) (by decide) plain)

/-- The text of a number. -/
theorem plainUnits_text {source : Utf16} {number : ℚ}
    (parses : numbers.parse source = some number) : PlainUnits (numbers.text number) := by
  intro u mem
  rcases numbers.text_units _ _ parses u mem with digit | rfl | rfl | rfl | rfl
  · obtain ⟨low, high⟩ := isDigit_iff.mp digit
    have range : ∀ v ∈ [u], 0x2D ≤ v.toNat ∧ v.toNat < 0x80 := by
      intro v same
      cases List.mem_singleton.mp same
      omega
    exact plainUnits_of_range range u (List.mem_singleton_self u)
  all_goals exact ⟨by decide, by decide⟩

theorem splitAll_signatureHeader (plain : PlainUnits timestamp)
    (codes : List (Nat × List UInt8)) :
    splitAll comma (signatureHeader timestamp codes) =
      codes.map codePart ++ [letterT :: equals :: timestamp] := by
  induction codes with
  | nil => exact splitAll_of_notMem (plainUnits_timestampPart plain).notMem
  | cons code codes ih =>
      have first := splitAll_cons (plainUnits_codePart code).notMem
        (signatureHeader timestamp codes)
      rw [ih] at first
      exact first

theorem signatureHeader_ne_nil (timestamp : Utf16) (codes : List (Nat × List UInt8)) :
    signatureHeader timestamp codes ≠ [] := by
  cases codes with
  | nil => exact List.cons_ne_nil _ _
  | cons code codes => exact List.cons_ne_nil _ _

/-! ### The SDK -/

theorem hex_ne_nil {bytes : List UInt8} (nonempty : bytes ≠ []) : hex bytes ≠ [] := by
  have length := hex_length bytes
  have some : 0 < bytes.length := List.length_pos_iff.mpr nonempty
  exact List.length_pos_iff.mp (by omega)

theorem hexToBuf_hex {bytes : List UInt8} (nonempty : bytes ≠ []) :
    hexToBuf (hex bytes) = some bytes := by
  have length := hex_length bytes
  have some : 0 < bytes.length := List.length_pos_iff.mpr nonempty
  have digits : (hex bytes).all isHexDigit = true := List.all_eq_true.mpr (hex_isHexDigit bytes)
  rw [hexToBuf, if_neg (by omega), if_pos digits, hexPairs_hex]

/-- A part with a key is read as it stands, without spaces. -/
theorem readPart_pair {key value : Utf16} (state : HeaderState) (none : equals ∉ key)
    (named : key ≠ []) (keyPlain : PlainUnits key) (valuePlain : PlainUnits value) :
    readPart state (key ++ equals :: value) = readPair state key value := by
  obtain ⟨front, rest⟩ := cut_at none value
  have found : equals ∈ key ++ equals :: value := List.mem_append_right _ List.mem_cons_self
  have head : (key ++ equals :: value).head? ≠ some equals := by
    obtain ⟨u, key, rfl⟩ := List.exists_cons_of_ne_nil named
    rw [List.cons_append, List.head?_cons]
    intro same
    exact none (Option.some.inj same ▸ List.mem_cons_self)
  rw [readPart, if_neg (not_or.mpr ⟨not_not.mpr found, head⟩), front, rest, List.tail_cons,
    keyPlain.trim, valuePlain.trim]

theorem readPart_codePart (state : HeaderState) (nonempty : code.2 ≠ []) :
    readPart state (codePart code) =
      .ok { state with
        versions := addVersion state.versions code.1
        signatures := state.signatures ++ [(code.1, hex code.2)] } := by
  have key : PlainUnits (letterV :: decimal code.1) :=
    .cons (by decide) (by decide) (plainUnits_decimal code.1)
  have unnamed : equals ∉ letterV :: decimal code.1 :=
    fun mem => (List.mem_cons.mp mem).elim (by decide) (notMem_decimal rfl code.1)
  have other : letterV :: decimal code.1 ≠ [letterT] := by
    intro same
    exact absurd (List.cons.inj same).1 (by decide)
  have digits : (decimal code.1).all isDigit = true :=
    List.all_eq_true.mpr (decimal_isDigit code.1)
  refine (readPart_pair state unnamed (List.cons_ne_nil _ _) key (plainUnits_hex code.2)).trans ?_
  unfold readPair
  rw [if_neg (hex_ne_nil nonempty), if_neg other,
    if_pos ⟨rfl, decimal_ne_nil code.1, digits⟩, List.tail_cons, digitsValue_decimal]

theorem readPart_timestampPart (state : HeaderState) {t : Nat} (small : t < 10000000000000) :
    readPart state (letterT :: equals :: decimal t) = .ok { state with timestamp := some t } := by
  have key : PlainUnits [letterT] := .cons (by decide) (by decide) nofun
  have digits : (decimal t).all isDigit = true := List.all_eq_true.mpr (decimal_isDigit t)
  have short : (decimal t).length ≤ 13 := decimalDigits_length (k := 12) small
  refine (readPart_pair state (by decide) (List.cons_ne_nil _ _) key (plainUnits_decimal t)).trans ?_
  unfold readPair
  rw [if_neg (decimal_ne_nil t), if_pos rfl, if_pos ⟨digits, short⟩, digitsValue_decimal]

theorem readParts_signatureHeader (state : HeaderState) {t : Nat} (small : t < 10000000000000)
    (nonempty : ∀ code ∈ codes, code.2 ≠ []) :
    readParts state (codes.map codePart ++ [letterT :: equals :: decimal t]) =
      .ok ⟨some t, codes.foldl (fun versions code => addVersion versions code.1) state.versions,
        state.signatures ++ codes.map fun code => (code.1, hex code.2)⟩ := by
  induction codes generalizing state with
  | nil =>
      rw [List.map_nil, List.nil_append, readParts, readPart_timestampPart state small]
      dsimp only
      rw [List.map_nil, List.append_nil]
      rfl
  | cons code codes ih =>
      have first := readPart_codePart state (nonempty code List.mem_cons_self)
      have later := fun c mem => nonempty c (List.mem_cons_of_mem _ mem)
      rw [List.map_cons, List.cons_append, readParts, first]
      dsimp only
      rw [ih _ later, List.append_assoc]
      rfl

/-- The SDK reads the timestamp and every code. -/
theorem parseSignatureHeader_signatureHeader {t : Nat} (small : t < 10000000000000)
    (some : codes ≠ []) (nonempty : ∀ code ∈ codes, code.2 ≠ []) :
    parseSignatureHeader (signatureHeader (decimal t) codes) =
      .ok ⟨t, codes.foldl (fun versions code => addVersion versions code.1) [],
        codes.map fun code => (code.1, hex code.2)⟩ := by
  unfold parseSignatureHeader
  rw [splitAll_signatureHeader (plainUnits_decimal t), readParts_signatureHeader _ small nonempty]
  dsimp only
  rw [List.nil_append, if_neg (mt List.map_eq_nil_iff.mp some)]

/-- The timestamp that the header's parts have so far. -/
def Short (state : HeaderState) : Prop :=
  ∀ t, state.timestamp = some t → t < 10000000000000

theorem Short.pair {state after : HeaderState} (short : Short state)
    {key value : Utf16} (read : readPair state key value = .ok after) : Short after := by
  unfold readPair at read
  split at read
  · cases read
    exact short
  · split at read
    · split at read
      · next digits =>
          cases read
          intro t same
          cases same
          have bound := digitsValue_lt (List.all_eq_true.mp digits.1)
          exact Nat.lt_of_lt_of_le bound (Nat.pow_le_pow_right (by omega) digits.2)
      · cases read
    · split at read
      · cases read
        exact short
      · cases read
        exact short

theorem Short.part {state after : HeaderState} (short : Short state) {part : Utf16}
    (read : readPart state part = .ok after) : Short after := by
  unfold readPart at read
  split at read
  · cases read
    exact short
  · exact short.pair read

theorem Short.parts {state after : HeaderState} (short : Short state)
    {parts : List Utf16} (read : readParts state parts = .ok after) : Short after := by
  induction parts generalizing state with
  | nil =>
      cases read
      exact short
  | cons part parts ih =>
      unfold readParts at read
      split at read
      · next first => exact ih (short.part first) read
      · cases read

/-- A timestamp of a header has at most 13 digits. -/
theorem timestamp_lt {header : Utf16} {parsed : ParsedSignature}
    (parses : parseSignatureHeader header = .ok parsed) : parsed.timestamp < 10000000000000 := by
  have start : Short ⟨none, [], []⟩ := nofun
  unfold parseSignatureHeader at parses
  split at parses
  · cases parses
  · cases parses
  · next t versions signatures read =>
      split at parses
      · cases parses
      · cases parses
        exact start.parts read t rfl

/-! ### The platform -/

theorem headerParts_signatureHeader (plain : PlainUnits timestamp)
    (codes : List (Nat × List UInt8)) :
    headerParts (signatureHeader timestamp codes) =
      codes.map codePart ++ [letterT :: equals :: timestamp] := by
  have trimmed : (codes.map codePart).map trimSpace = codes.map codePart := by
    rw [List.map_map]
    exact List.map_congr_left fun code _ => (plainUnits_codePart code).trim
  rw [headerParts, splitAll_signatureHeader plain, List.map_append, trimmed, List.map_singleton,
    (plainUnits_timestampPart plain).trim]

theorem headerTimestamp_signatureHeader (plain : PlainUnits timestamp)
    (codes : List (Nat × List UInt8)) :
    headerTimestamp numbers (signatureHeader timestamp codes) = numbers.parse timestamp := by
  rw [headerTimestamp, headerParts_signatureHeader plain, timestampPart]
  induction codes with
  | nil => rfl
  | cons code codes ih =>
      have other : ¬ (codePart code).take 2 = [letterT, equals] := by
        intro same
        exact absurd (List.cons.inj same).1 (by decide)
      rw [List.map_cons, List.cons_append, List.find?_cons, decide_eq_false other]
      exact ih

theorem not_isLineTerminator {u : UInt16} (low : 0x30 ≤ u.toNat) (high : u.toNat ≤ 0x66) :
    isLineTerminator u = false := by
  simp only [isLineTerminator, Bool.or_eq_false_iff, beq_eq_false_iff_ne, ne_eq, ← UInt16.toNat_inj,
    UInt16.reduceToNat]
  omega

theorem providedCode_hex (supported : code.1 ∈ supportedSignatureVersions)
    (nonempty : code.2 ≠ []) : providedCode (decimal code.1, hex code.2) = some code := by
  have visible : ¬ (hex code.2 = [] ∨ (hex code.2).any isLineTerminator = true) := by
    rintro (empty | terminator)
    · exact hex_ne_nil nonempty empty
    · obtain ⟨u, mem, isTerminator⟩ := List.any_eq_true.mp terminator
      obtain ⟨low, high⟩ := isHexDigit_range (hex_isHexDigit code.2 u mem)
      rw [not_isLineTerminator low high] at isTerminator
      cases isTerminator
  unfold providedCode
  dsimp only
  rw [if_neg visible, digitsValue_decimal, hexPairs_hex, if_neg (not_not.mpr supported),
    if_neg nonempty]

theorem versionPart_codePart (code : Nat × List UInt8) :
    versionPart (codePart code) = some (decimal code.1, hex code.2) := by
  have digits := decimal_isDigit code.1
  unfold versionPart
  rw [codePart, List.tail_cons, List.takeWhile_append_of_pos digits,
    List.dropWhile_append_of_pos digits, List.takeWhile_cons_of_neg (by decide),
    List.dropWhile_cons_of_neg (by decide), List.append_nil]
  exact if_pos ⟨rfl, decimal_ne_nil code.1, rfl⟩

/-- The platform reads every code of a supported version. -/
theorem headerCodes_signatureHeader (plain : PlainUnits timestamp)
    (supported : ∀ code ∈ codes, code.1 ∈ supportedSignatureVersions)
    (nonempty : ∀ code ∈ codes, code.2 ≠ []) :
    headerCodes (signatureHeader timestamp codes) = codes := by
  have other : versionPart (letterT :: equals :: timestamp) = none := by
    unfold versionPart
    exact if_neg fun both => absurd (Option.some.inj both.1) (by decide)
  rw [headerCodes, headerParts_signatureHeader plain]
  induction codes with
  | nil => rw [List.map_nil, List.nil_append, List.filterMap_cons_none other]; rfl
  | cons code codes ih =>
      have first := providedCode_hex (supported code List.mem_cons_self)
        (nonempty code List.mem_cons_self)
      have rest := ih (fun later mem => supported later (List.mem_cons_of_mem _ mem))
        fun later mem => nonempty later (List.mem_cons_of_mem _ mem)
      rw [List.map_cons, List.cons_append, List.filterMap_cons_some (versionPart_codePart code),
        List.filterMap_cons_some first, rest]

theorem headerCodes_supported {header : Utf16} {found : Nat × List UInt8}
    (mem : found ∈ headerCodes header) : found.1 ∈ supportedSignatureVersions := by
  obtain ⟨part, -, provided⟩ := List.mem_filterMap.mp mem
  unfold providedCode at provided
  dsimp only at provided
  split at provided
  · cases provided
  · split at provided
    · cases provided
    · next supported =>
        split at provided
        · cases provided
        · cases provided
          exact not_not.mp supported

/-! ### What the platform signs -/

theorem mem_asSecretList {s : Utf16} : s ∈ asSecretList secrets ↔ s ∈ secrets ∧ s ≠ [] := by
  simp [asSecretList]

/-- A header is accepted if its timestamp is in time and a code is right. -/
theorem verifySignature_iff {header : Utf16} {number : ℚ} {now : Int}
    (reads : headerTimestamp numbers header = some number) (nonempty : header ≠ []) :
    verifySignature numbers hmac payload (some header) secrets now = true ↔
      inWindow number (now / 1000) = true ∧
        ∃ code ∈ headerCodes header, ∃ s ∈ secrets, s ≠ [] ∧
          code.2 = hmac s (dataToSign code.1 (numbers.text number) payload) := by
  have compared : ((headerCodes header).any fun code => (asSecretList secrets).any fun s =>
        code.2 = hmac s (dataToSign code.1 (numbers.text number) payload)) = true ↔
      ∃ code ∈ headerCodes header, ∃ s ∈ secrets, s ≠ [] ∧
        code.2 = hmac s (dataToSign code.1 (numbers.text number) payload) := by
    simp only [List.any_eq_true, decide_eq_true_eq, mem_asSecretList, and_assoc]
  unfold verifySignature
  dsimp only
  by_cases unusable : asSecretList secrets = []
  · rw [if_pos (.inr unusable)]
    refine ⟨nofun, fun ⟨_, code, _, s, mem, usable, _⟩ => ?_⟩
    have found := mem_asSecretList.mpr ⟨mem, usable⟩
    rw [unusable] at found
    cases found
  · rw [if_neg (not_or.mpr ⟨nonempty, unusable⟩), reads]
    dsimp only
    rw [Bool.and_eq_true, compared]

/-- The header that is sent: a code for every secret. -/
theorem signPayload_eq (some : asSecretList secrets ≠ []) :
    signPayload hmac payload secrets version now =
      .ok (signatureHeader (decimal (now / 1000)) ((asSecretList secrets).map fun s =>
        (version, hmac s (dataToSign version (decimal (now / 1000)) payload)))) := by
  unfold signPayload
  rw [if_neg some, signatureHeader, List.map_map]
  rfl

/-- A header that is sent is accepted with any of its secrets while it is in time. -/
theorem verifySignature_signPayload {header s : Utf16} {sender : List Utf16} {clock : Int}
    (signs : signPayload hmac payload sender version now = .ok header)
    (nonempty : ∀ s content, hmac s content ≠ [])
    (supported : version ∈ supportedSignatureVersions) (small : now / 1000 < 10000000000000)
    (timely : inWindow ((now / 1000 : ℕ) : ℚ) (clock / 1000) = true)
    (sent : s ∈ sender) (known : s ∈ secrets) (usable : s ≠ []) :
    verifySignature numbers hmac payload (some header) secrets clock = true := by
  have mem : s ∈ asSecretList sender := mem_asSecretList.mpr ⟨sent, usable⟩
  rw [signPayload_eq (List.ne_nil_of_mem mem)] at signs
  cases signs
  have plain := plainUnits_decimal (now / 1000)
  have reads : ∀ codes, headerTimestamp numbers (signatureHeader (decimal (now / 1000)) codes) =
      some ((now / 1000 : ℕ) : ℚ) := fun codes =>
    (headerTimestamp_signatureHeader plain codes).trans
      (numbers.parse_timestamp ⟨now / 1000, small⟩)
  refine (verifySignature_iff (reads _) (signatureHeader_ne_nil _ _)).mpr ⟨timely, ?_⟩
  · rw [headerCodes_signatureHeader plain]
    · refine ⟨_, List.mem_map_of_mem mem, s, known, usable, ?_⟩
      rw [numbers.text_timestamp ⟨now / 1000, small⟩]
    · intro code written
      obtain ⟨_, -, rfl⟩ := List.mem_map.mp written
      exact supported
    · intro code written
      obtain ⟨_, -, rfl⟩ := List.mem_map.mp written
      exact nonempty _ _

end Talos.Webhooks.Signing
