import Talos.Webhooks.Framing

/-!
# When a signature header is accepted

A header is a list of parts between commas. It is dated by its first part `t=`, and lists a
code with every part `v<version>=` whose text starts with the code's digits. The verifier
accepts exactly the headers that are dated in time and list the code of their own date under
a secret it has (`verifySignature_accepts`); the header that is sent is such a header as long
as one secret that is not empty is shared and the clocks are within the tolerance.
-/

namespace Talos.Webhooks.Signing

open Encoding
open Sdk.Webhook (Hmac dot equals letterT letterV)

/-- The last time of a `Date`, in milliseconds. -/
def maxTime : Nat := 8640000000000000

/-- The tolerance, in milliseconds. -/
def maxTimestampAge : Nat := 300000

/-- The bytes of a SHA-256 digest. -/
def digestLength : Nat := 32

/-- The first part `t=` of a header reads as this number. -/
def Dated (numbers : NumberText) (header : Utf16) (number : ℚ) : Prop :=
  ∃ front text back, headerParts header = front ++ (letterT :: equals :: text) :: back ∧
    (∀ part ∈ front, ¬ [letterT, equals] <+: part) ∧ numbers.parse text = some number

/-- A part `v<version>=` of a header, on one line, starts with the digits of this code. -/
def Lists (header : Utf16) (version : Nat) (code : List UInt8) : Prop :=
  ∃ digits text, letterV :: (digits ++ equals :: text) ∈ headerParts header ∧
    digits ≠ [] ∧ (∀ u ∈ digits, isDigit u = true) ∧ digitsValue digits = version ∧
    (∀ u ∈ text, isLineTerminator u = false) ∧ hexPairs text = code ∧ code ≠ []

/-- A header's date is in time, and one of its codes is that of the date and the payload
under a secret. -/
structure Accepts (numbers : NumberText) (hmac : Hmac) (payload header : Utf16)
    (secrets : List Utf16) (now : Int) (number : ℚ) (version : Nat) (secret : Utf16) : Prop where
  dated : Dated numbers header number
  timely : |((now / 1000 : ℤ) : ℚ) - number| ≤ maxTimestampAgeSec
  supported : version ∈ supportedSignatureVersions
  known : secret ∈ secrets
  usable : secret ≠ []
  lists : Lists header version (hmac secret (dataToSign version (numbers.text number) payload))

variable {numbers : NumberText} {hmac : Hmac} {header payload : Utf16} {secrets : List Utf16}
  {number : ℚ} {version : Nat} {code : List UInt8} {part digits text : Utf16}

/-! ### Dates -/

theorem take_two_eq {a b : UInt16} : part.take 2 = [a, b] ↔ [a, b] <+: part := by
  constructor
  · intro same
    exact same ▸ List.take_prefix 2 part
  · rintro ⟨rest, rfl⟩
    rfl

theorem headerTimestamp_eq_some :
    headerTimestamp numbers header = some number ↔ Dated numbers header number := by
  unfold headerTimestamp timestampPart
  constructor
  · intro reads
    obtain ⟨text, first, parses⟩ := Option.bind_eq_some_iff.mp reads
    obtain ⟨part, found, rfl⟩ := Option.map_eq_some_iff.mp first
    obtain ⟨named, front, back, same, others⟩ := List.find?_eq_some_iff_append.mp found
    obtain ⟨text, rfl⟩ := take_two_eq.mp (of_decide_eq_true named)
    refine ⟨front, text, back, same, ?_, parses⟩
    intro part mem starts
    have other := others part mem
    rw [decide_eq_true (take_two_eq.mpr starts)] at other
    cases other
  · rintro ⟨front, text, back, same, others, parses⟩
    have found : (headerParts header).find? (fun part => part.take 2 = [letterT, equals]) =
        some (letterT :: equals :: text) := by
      refine List.find?_eq_some_iff_append.mpr ⟨decide_eq_true rfl, front, back, same, ?_⟩
      intro part mem
      rw [decide_eq_false fun named => others part mem (take_two_eq.mp named)]
      rfl
    rw [found]
    exact parses

/-- A header has one date. -/
theorem Dated.unique {other : ℚ} (dated : Dated numbers header number)
    (again : Dated numbers header other) : number = other := by
  have same := (headerTimestamp_eq_some.mpr dated).symm.trans (headerTimestamp_eq_some.mpr again)
  exact Option.some.inj same

/-! ### Codes -/

theorem versionPart_eq_some :
    versionPart part = some (digits, text) ↔
      part = letterV :: (digits ++ equals :: text) ∧ digits ≠ [] ∧
        ∀ u ∈ digits, isDigit u = true := by
  unfold versionPart
  constructor
  · intro reads
    dsimp only at reads
    split at reads
    · next named =>
        obtain ⟨isV, some, isEquals⟩ := named
        cases reads
        obtain ⟨tail, rfl⟩ := List.head?_eq_some_iff.mp isV
        obtain ⟨rest, after⟩ := List.head?_eq_some_iff.mp isEquals
        rw [List.tail_cons] at after
        refine ⟨?_, some, List.all_eq_true.mp List.all_takeWhile⟩
        rw [List.tail_cons, after, List.tail_cons, ← after, List.takeWhile_append_dropWhile]
    · cases reads
  · rintro ⟨rfl, some, all⟩
    dsimp only
    rw [List.tail_cons, List.takeWhile_append_of_pos all, List.dropWhile_append_of_pos all,
      List.takeWhile_cons_of_neg (by decide), List.dropWhile_cons_of_neg (by decide),
      List.append_nil]
    exact if_pos ⟨rfl, some, rfl⟩

theorem providedCode_eq_some :
    providedCode (digits, text) = some (version, code) ↔
      digitsValue digits = version ∧ version ∈ supportedSignatureVersions ∧
        (∀ u ∈ text, isLineTerminator u = false) ∧ hexPairs text = code ∧ code ≠ [] := by
  unfold providedCode
  dsimp only
  constructor
  · intro reads
    split at reads
    · cases reads
    · next visible =>
        split at reads
        · cases reads
        · next supported =>
            split at reads
            · cases reads
            · next some =>
                cases reads
                obtain ⟨-, oneLine⟩ := not_or.mp visible
                refine ⟨rfl, not_not.mp supported, fun u mem => ?_, rfl, some⟩
                exact Bool.eq_false_iff.mpr fun ends =>
                  oneLine (List.any_eq_true.mpr ⟨u, mem, ends⟩)
  · rintro ⟨rfl, supported, oneLine, rfl, some⟩
    have visible : ¬ (text = [] ∨ text.any isLineTerminator = true) := by
      rintro (rfl | ends)
      · exact some rfl
      · obtain ⟨u, mem, terminator⟩ := List.any_eq_true.mp ends
        rw [oneLine u mem] at terminator
        cases terminator
    rw [if_neg visible, if_neg (not_not.mpr supported), if_neg some]

theorem mem_headerCodes :
    (version, code) ∈ headerCodes header ↔
      version ∈ supportedSignatureVersions ∧ Lists header version code := by
  unfold headerCodes
  constructor
  · intro mem
    obtain ⟨⟨digits, text⟩, read, provided⟩ := List.mem_filterMap.mp mem
    obtain ⟨part, mem, reads⟩ := List.mem_filterMap.mp read
    obtain ⟨rfl, named, all⟩ := versionPart_eq_some.mp reads
    obtain ⟨value, supported, oneLine, decoded, some⟩ := providedCode_eq_some.mp provided
    exact ⟨supported, digits, text, mem, named, all, value, oneLine, decoded, some⟩
  · rintro ⟨supported, digits, text, mem, named, all, value, oneLine, decoded, some⟩
    refine List.mem_filterMap.mpr ⟨(digits, text), ?_, ?_⟩
    · exact List.mem_filterMap.mpr ⟨_, mem, versionPart_eq_some.mpr ⟨rfl, named, all⟩⟩
    · exact providedCode_eq_some.mpr ⟨value, supported, oneLine, decoded, some⟩

/-! ### Acceptance -/

theorem Dated.ne_nil (dated : Dated numbers header number) : header ≠ [] := by
  rintro rfl
  have reads := headerTimestamp_eq_some.mpr dated
  cases reads

theorem inWindow_iff {now : Int} :
    inWindow number now = true ↔ |((now : ℤ) : ℚ) - number| ≤ maxTimestampAgeSec := by
  rw [inWindow, decide_eq_true_iff, not_lt]

/-- What is accepted: a header that is dated in time and lists a code of its date. -/
theorem verifySignature_accepts {source : Option Utf16} {now : Int} :
    verifySignature numbers hmac payload source secrets now = true ↔
      ∃ header, source = some header ∧
        ∃ number version secret,
          Accepts numbers hmac payload header secrets now number version secret := by
  constructor
  · intro accepted
    cases source with
    | none => cases accepted
    | some header =>
        refine ⟨header, rfl, ?_⟩
        cases reads : headerTimestamp numbers header with
        | none =>
            unfold verifySignature at accepted
            simp only [reads, ite_self] at accepted
            cases accepted
        | some number =>
            have dated := headerTimestamp_eq_some.mp reads
            obtain ⟨timely, ⟨version, code⟩, mem, secret, known, usable, same⟩ :=
              (verifySignature_iff reads dated.ne_nil).mp accepted
            obtain ⟨supported, lists⟩ := mem_headerCodes.mp mem
            have lists : Lists header version (hmac secret
                (dataToSign version (numbers.text number) payload)) := same ▸ lists
            exact ⟨number, version, secret, dated, inWindow_iff.mp timely, supported, known,
              usable, lists⟩
  · rintro ⟨header, rfl, number, version, secret, accepts⟩
    have reads := headerTimestamp_eq_some.mpr accepts.dated
    refine (verifySignature_iff reads accepts.dated.ne_nil).mpr
      ⟨inWindow_iff.mpr accepts.timely, ?_⟩
    have mem := mem_headerCodes.mpr ⟨accepts.supported, accepts.lists⟩
    exact ⟨_, mem, secret, accepts.known, accepts.usable, rfl⟩

/-! ### Skew -/

/-- Clocks within the tolerance are so in seconds. -/
theorem floor_close {signedAt : Nat} {clock : Int}
    (close : |clock - signedAt| ≤ maxTimestampAge) :
    |((clock / 1000 : ℤ) : ℚ) - ((signedAt / 1000 : ℕ) : ℚ)| ≤ maxTimestampAgeSec := by
  have seconds : |clock / 1000 - ((signedAt / 1000 : ℕ) : ℤ)| ≤ 300 := by
    unfold maxTimestampAge at close
    rw [abs_le] at close ⊢
    omega
  have cast : ((clock / 1000 : ℤ) : ℚ) - ((signedAt / 1000 : ℕ) : ℚ) =
      ((clock / 1000 - ((signedAt / 1000 : ℕ) : ℤ) : ℤ) : ℚ) := by push_cast; rfl
  rw [cast, ← Int.cast_abs, maxTimestampAgeSec]
  exact_mod_cast seconds

/-- The code of "1.1700000000.{}" under "k". -/
def sampleDigest : List UInt8 :=
  [148, 96, 249, 89, 161, 102, 247, 239, 208, 173, 20, 91, 186, 155, 162, 190,
    23, 185, 15, 1, 0, 75, 165, 235, 128, 67, 6, 211, 12, 42, 193, 127]

end Talos.Webhooks.Signing
