import Talos.Webhooks.SignatureHeader
import Talos.Sdk.WebhookReplay

/-!
# What a webhook signature says

A signature is the code of a string that joins version, timestamp and payload with dots.
The SDK reads a code under two framings, with and without the version, and takes any version; the web
verifier takes its own framing and reads the timestamp as any number. So one signed string
may have several readings. Both verifiers accept only what was signed exactly if no signed
message has another reading whose timestamp is in time (`genuine_iff`).
-/

namespace Talos.Webhooks.Framing

open Encoding Signing
open Sdk.Webhook (Hmac comma dot equals letterT letterV Payload payloadToString VerifyOptions
  ParsedSignature ReplayStore Times Seconds Timely parseSignatureHeader hexToBuf verify
  signatureMatches signedContentCandidates)

/-! ### Signed messages -/

/-- What the sender signs: in the platform's scheme (`signPayload`) or the SDK's. -/
inductive Message where
  | platform (version : Nat) (timestamp : Timestamp) (payload : Utf16)
  | sdk (timestamp : Timestamp) (payload : Utf16)

def Message.timestamp : Message → Timestamp
  | platform _ timestamp _ => timestamp
  | sdk timestamp _ => timestamp

def Message.payload : Message → Utf16
  | platform _ _ payload => payload
  | sdk _ payload => payload

/-- The signed string. -/
def Message.content : Message → Utf16
  | platform version timestamp payload => dataToSign version (decimal timestamp.val) payload
  | sdk timestamp payload => decimal timestamp.val ++ dot :: payload

/-- HMAC as an injective function of the signed string. -/
structure Mac where
  hmac : Hmac
  injective : ∀ {s s' c c'}, hmac s c = hmac s' c' → c = c'
  nonempty : ∀ s c, hmac s c ≠ []

/-- Nobody but the sender computes codes: one of a header is no code or that of a message. -/
def Unforged (mac : Mac) (signed : Set Message) (secrets : List Utf16) (code : List UInt8) : Prop :=
  ∀ s ∈ secrets, ∀ content, code = mac.hmac s content →
    ∃ message ∈ signed, code = mac.hmac s message.content

/-- The timestamp and the payload are those of a signed message. -/
def Signs (signed : Set Message) (timestamp : ℚ) (payload : Utf16) : Prop :=
  ∃ message ∈ signed, (message.timestamp.val : ℚ) = timestamp ∧ message.payload = payload

/-- `TalosWebhook.verify` accepts signed pairs only. -/
def SdkGenuine (mac : Mac) (signed : Set Message) (secrets : List Utf16) (tolerance : Seconds)
    (now : Int) : Prop :=
  ∀ (options : VerifyOptions) (times : Times) (store after : Option ReplayStore)
    (parsed : ParsedSignature),
    options.secret = secrets → options.toleranceSeconds = tolerance → times.now = now →
    (∀ signature ∈ parsed.signatures, ∀ code, hexToBuf signature.2 = some code →
      Unforged mac signed secrets code) →
    verify mac.hmac options times store = (.ok parsed, after) →
    Signs signed parsed.timestamp (payloadToString options.payload)

/-- `verifySignature` accepts signed pairs only. -/
def WebGenuine (numbers : NumberText) (mac : Mac) (signed : Set Message) (secrets : List Utf16)
    (now : Int) : Prop :=
  ∀ (payload header : Utf16) (timestamp : ℚ),
    headerTimestamp numbers header = some timestamp →
    (∀ code ∈ headerCodes header, Unforged mac signed secrets code.2) →
    verifySignature numbers mac.hmac payload (some header) secrets now = true →
    Signs signed timestamp payload

/-! ### Other readings -/

/-- No signed message has another reading under the SDK's framings in time: a platform
message without its version, an SDK message with its timestamp for a version. -/
structure SdkUnambiguous (signed : Set Message) (tolerance : Seconds) (now : Int) : Prop where
  platform : ∀ (version : Nat) (timestamp : Timestamp) (payload : Utf16),
    .platform version timestamp payload ∈ signed → version < 10000000000000 →
    Timely tolerance version now → Signs signed version (decimal timestamp.val ++ dot :: payload)
  sdk : ∀ (version timestamp : Timestamp) (payload : Utf16),
    .sdk version (decimal timestamp.val ++ dot :: payload) ∈ signed →
    Timely tolerance timestamp.val now → Signs signed timestamp.val payload

/-- Nor under the web verifier's: a platform message whose payload goes on with the
timestamp's number, an SDK message with its timestamp for a version. -/
structure WebUnambiguous (numbers : NumberText) (signed : Set Message) (now : Int) : Prop where
  platform : ∀ (version : Nat) (timestamp : Timestamp) (digits payload source : Utf16) (number : ℚ),
    .platform version timestamp (digits ++ dot :: payload) ∈ signed →
    version ∈ supportedSignatureVersions → numbers.parse source = some number →
    inWindow number (now / 1000) = true →
    numbers.text number = decimal timestamp.val ++ dot :: digits → Signs signed number payload
  sdk : ∀ (version : Timestamp) (payload source : Utf16) (number : ℚ),
    .sdk version (numbers.text number ++ dot :: payload) ∈ signed →
    version.val ∈ supportedSignatureVersions → numbers.parse source = some number →
    inWindow number (now / 1000) = true → Signs signed number payload

variable {mac : Mac} {signed : Set Message} {secrets : List Utf16} {tolerance : Seconds}
  {numbers : NumberText} {now : Int}

/-! ### Readings of a signed string -/

/-- A number and what follows its dot. -/
theorem dot_inj {a b : Nat} {x y : Utf16} :
    decimal a ++ dot :: x = decimal b ++ dot :: y ↔ a = b ∧ x = y := by
  rw [append_sep_inj (notMem_decimal rfl a) (notMem_decimal rfl b)]
  exact and_congr_left fun _ => ⟨decimal_injective, congrArg decimal⟩

theorem signs_of_mem {message : Message} (mem : message ∈ signed) :
    Signs signed message.timestamp.val message.payload := ⟨message, mem, rfl, rfl⟩

/-- A code that is compared is that of a signed message. -/
theorem Unforged.message {code : List UInt8} (unforged : Unforged mac signed secrets code)
    {s content : Utf16} (mem : s ∈ secrets) (same : code = mac.hmac s content) :
    ∃ message ∈ signed, content = message.content := by
  obtain ⟨message, found, computed⟩ := unforged s mem content same
  exact ⟨message, found, mac.injective (same.symm.trans computed)⟩

theorem unforged_of_mem {message : Message} (mem : message ∈ signed) (s : Utf16) :
    Unforged mac signed secrets (mac.hmac s message.content) := by
  intro s' _ content same
  refine ⟨message, mem, ?_⟩
  rw [← mac.injective same] at same
  exact same.symm ▸ rfl

/-- What the SDK reads in a signed string was signed, or is another reading. -/
theorem SdkUnambiguous.signs (unambiguous : SdkUnambiguous signed tolerance now)
    {version timestamp : Nat} {payload content : Utf16} (small : timestamp < 10000000000000)
    (timely : Timely tolerance timestamp now) {message : Message} (mem : message ∈ signed)
    (candidate : content ∈ signedContentCandidates version timestamp payload)
    (same : content = message.content) : Signs signed timestamp payload := by
  rcases List.mem_cons.mp candidate with rfl | candidate
  · cases message with
    | platform version' timestamp' payload' =>
        obtain ⟨rfl, rfl⟩ := dot_inj.mp same
        exact unambiguous.platform _ _ _ mem small timely
    | sdk timestamp' payload' =>
        obtain ⟨rfl, rfl⟩ := dot_inj.mp same
        exact signs_of_mem mem
  · cases List.mem_singleton.mp candidate
    cases message with
    | platform version' timestamp' payload' =>
        obtain ⟨rfl, rest⟩ := dot_inj.mp same
        obtain ⟨rfl, rfl⟩ := dot_inj.mp rest
        exact signs_of_mem mem
    | sdk timestamp' payload' =>
        obtain ⟨rfl, rfl⟩ := dot_inj.mp same
        exact unambiguous.sdk _ ⟨timestamp, small⟩ _ mem timely

/-- What the web verifier reads in a signed string was signed, or is another reading. -/
theorem WebUnambiguous.signs (unambiguous : WebUnambiguous numbers signed now) {version : Nat}
    {source payload : Utf16} {number : ℚ} (supported : version ∈ supportedSignatureVersions)
    (parses : numbers.parse source = some number) (timely : inWindow number (now / 1000) = true)
    {message : Message} (mem : message ∈ signed)
    (same : dataToSign version (numbers.text number) payload = message.content) :
    Signs signed number payload := by
  cases message with
  | platform version' timestamp' payload' =>
      obtain ⟨rfl, rest⟩ := dot_inj.mp same
      by_cases fraction : dot ∈ numbers.text number
      · obtain ⟨whole, digits, text, before⟩ := List.eq_append_cons_of_mem fraction
        rw [text, List.append_assoc, List.cons_append,
          append_sep_inj before (notMem_decimal rfl _)] at rest
        obtain ⟨rfl, rfl⟩ := rest
        exact unambiguous.platform _ _ _ _ _ _ mem supported parses timely text
      · obtain ⟨text, rfl⟩ := (append_sep_inj fraction (notMem_decimal rfl _)).mp rest
        have parsed := numbers.parse_text _ _ parses
        rw [text, numbers.parse_timestamp] at parsed
        cases parsed
        exact signs_of_mem mem
  | sdk timestamp' payload' =>
      obtain ⟨rfl, rfl⟩ := dot_inj.mp same
      exact unambiguous.sdk _ _ _ _ mem supported parses timely

/-! ### The SDK -/

theorem signatureMatches_iff {hmac : Hmac} {t : Nat} {payload : Utf16} {signature : Nat × Utf16} :
    signatureMatches hmac secrets t payload signature = true ↔
      ∃ code, hexToBuf signature.2 = some code ∧
        ∃ content ∈ signedContentCandidates signature.1 t payload,
          ∃ s ∈ secrets, s ≠ [] ∧ code = hmac s content := by
  unfold signatureMatches
  cases hexToBuf signature.2 with
  | none => simp
  | some code =>
      simp only [Option.some.injEq, exists_eq_left', List.any_eq_true, decide_eq_true_eq]

theorem verifyHeader_of_verify {hmac : Hmac} {options : VerifyOptions} {times : Times}
    {store after : Option ReplayStore} {parsed : ParsedSignature}
    (verified : verify hmac options times store = (.ok parsed, after)) :
    Sdk.Webhook.verifyHeader hmac options (times.now / 1000) = .ok parsed := by
  cases store with
  | none => exact (Prod.mk.inj verified).1
  | some store =>
      rcases Sdk.Webhook.verify_cases hmac ⟨options, times⟩ store with
        ⟨error, failed⟩ | ⟨read, id, accepted, header, -⟩
      · cases failed.symm.trans verified
      · cases accepted.symm.trans verified
        exact header

theorem SdkGenuine.of_unambiguous
    (unambiguous : (∃ s ∈ secrets, s ≠ []) → SdkUnambiguous signed tolerance now) :
    SdkGenuine mac signed secrets tolerance now := by
  rintro options times store after parsed rfl rfl rfl unforged verified
  obtain ⟨-, parses, timely, valid⟩ :=
    Sdk.Webhook.verifyHeader_ok.mp (verifyHeader_of_verify verified)
  obtain ⟨signature, mem, matched⟩ := List.any_eq_true.mp valid
  obtain ⟨code, readable, content, candidate, s, known, nonempty, computed⟩ :=
    signatureMatches_iff.mp matched
  obtain ⟨message, found, same⟩ := (unforged signature mem code readable).message known computed
  exact (unambiguous ⟨s, known, nonempty⟩).signs (timestamp_lt parses) timely found candidate same

/-- The SDK accepts every reading of a signed string that is in time. -/
theorem SdkGenuine.signs (genuine : SdkGenuine mac signed secrets tolerance now)
    (usable : ∃ s ∈ secrets, s ≠ []) {message : Message} (mem : message ∈ signed) {t : Nat}
    {payload : Utf16} (small : t < 10000000000000) (timely : Timely tolerance t now)
    (candidate : message.content ∈ signedContentCandidates version t payload) :
    Signs signed t payload := by
  obtain ⟨s, known, nonempty⟩ := usable
  obtain ⟨code, isCode⟩ : ∃ code, code = mac.hmac s message.content := ⟨_, rfl⟩
  have some : code ≠ [] := isCode ▸ mac.nonempty s message.content
  let options : VerifyOptions :=
    ⟨.text payload, signatureHeader (decimal t) [(version, code)], secrets, tolerance, none, none⟩
  have parses : parseSignatureHeader options.signatureHeader =
      .ok ⟨t, [version], [(version, hex code)]⟩ :=
    parseSignatureHeader_signatureHeader small (List.cons_ne_nil _ _) (by simpa using some)
  have valid : signatureMatches mac.hmac secrets t payload (version, hex code) = true :=
    signatureMatches_iff.mpr
      ⟨code, hexToBuf_hex some, message.content, candidate, s, known, nonempty, isCode⟩
  have verified : verify mac.hmac options ⟨now, now, now, false, false⟩ none =
      (.ok ⟨t, [version], [(version, hex code)]⟩, none) := by
    refine congrArg (·, none) (Sdk.Webhook.verifyHeader_ok.mpr ⟨rfl, parses, timely, ?_⟩)
    exact List.any_eq_true.mpr ⟨_, List.mem_singleton_self _, valid⟩
  refine genuine options _ none none _ rfl rfl rfl ?_ verified
  intro signature mem' code' readable
  cases List.mem_singleton.mp mem'
  rw [hexToBuf_hex some] at readable
  cases readable
  exact isCode ▸ unforged_of_mem mem s

theorem SdkGenuine.unambiguous (genuine : SdkGenuine mac signed secrets tolerance now)
    (usable : ∃ s ∈ secrets, s ≠ []) : SdkUnambiguous signed tolerance now where
  platform := by
    intro version timestamp payload mem small timely
    have candidate : dataToSign version (decimal timestamp.val) payload ∈
        signedContentCandidates 0 version (decimal timestamp.val ++ dot :: payload) :=
      List.mem_cons_self
    exact genuine.signs usable mem small timely candidate
  sdk := by
    intro version timestamp payload mem timely
    have candidate : decimal version.val ++ dot :: (decimal timestamp.val ++ dot :: payload) ∈
        signedContentCandidates version.val timestamp.val payload :=
      List.mem_cons_of_mem _ (List.mem_singleton_self _)
    exact genuine.signs usable mem timestamp.isLt timely candidate

/-! ### The web verifier -/

theorem WebGenuine.of_unambiguous
    (unambiguous : (∃ s ∈ secrets, s ≠ []) → WebUnambiguous numbers signed now) :
    WebGenuine numbers mac signed secrets now := by
  intro payload header number reads unforged verified
  have nonempty : header ≠ [] := by
    rintro rfl
    cases reads
  obtain ⟨timely, code, mem, s, known, usable, computed⟩ :=
    (verifySignature_iff reads nonempty).mp verified
  obtain ⟨message, found, same⟩ := (unforged code mem).message known computed
  obtain ⟨source, -, parses⟩ := Option.bind_eq_some_iff.mp reads
  exact (unambiguous ⟨s, known, usable⟩).signs (headerCodes_supported mem) parses timely found same

/-- The web verifier accepts every reading of a signed string that is in time. -/
theorem WebGenuine.signs (genuine : WebGenuine numbers mac signed secrets now)
    (usable : ∃ s ∈ secrets, s ≠ []) {message : Message} (mem : message ∈ signed)
    (supported : version ∈ supportedSignatureVersions) {source payload : Utf16} {number : ℚ}
    (parses : numbers.parse source = some number) (timely : inWindow number (now / 1000) = true)
    (same : message.content = dataToSign version (numbers.text number) payload) :
    Signs signed number payload := by
  obtain ⟨s, known, nonempty⟩ := usable
  obtain ⟨code, isCode⟩ : ∃ code, code = mac.hmac s message.content := ⟨_, rfl⟩
  have some : code ≠ [] := isCode ▸ mac.nonempty s message.content
  have plain := plainUnits_text parses
  have codes : headerCodes (signatureHeader (numbers.text number) [(version, code)]) =
      [(version, code)] :=
    headerCodes_signatureHeader plain (by simpa using supported) (by simpa using some)
  have reads : headerTimestamp numbers
      (signatureHeader (numbers.text number) [(version, code)]) = .some number :=
    (headerTimestamp_signatureHeader plain _).trans (numbers.parse_text _ _ parses)
  have written := signatureHeader_ne_nil (numbers.text number) [(version, code)]
  refine genuine payload _ number reads ?_ ((verifySignature_iff reads written).mpr ⟨timely, ?_⟩)
  · rw [codes]
    intro code' mem'
    cases List.mem_singleton.mp mem'
    exact isCode ▸ unforged_of_mem mem s
  · rw [codes]
    exact ⟨_, List.mem_singleton_self _, s, known, nonempty, isCode.trans (congrArg _ same)⟩

theorem WebGenuine.unambiguous (genuine : WebGenuine numbers mac signed secrets now)
    (usable : ∃ s ∈ secrets, s ≠ []) : WebUnambiguous numbers signed now where
  platform := by
    intro version timestamp digits payload source number mem supported parses timely text
    refine genuine.signs usable mem supported parses timely ?_
    rw [text, Message.content, dataToSign, dataToSign, List.append_assoc, List.cons_append]
  sdk := by
    intro version payload source number mem supported parses timely
    exact genuine.signs usable mem supported parses timely rfl

/-! ### Both -/

/-- Signatures are never read in another way if and only if, once a secret is usable, no
signed message has another reading in time. -/
theorem genuine_iff :
    (SdkGenuine mac signed secrets tolerance now ∧ WebGenuine numbers mac signed secrets now) ↔
      ((∃ s ∈ secrets, s ≠ []) →
        SdkUnambiguous signed tolerance now ∧ WebUnambiguous numbers signed now) := by
  constructor
  · rintro ⟨sdk, web⟩ usable
    exact ⟨sdk.unambiguous usable, web.unambiguous usable⟩
  · intro unambiguous
    exact ⟨.of_unambiguous fun usable => (unambiguous usable).1,
      .of_unambiguous fun usable => (unambiguous usable).2⟩

/-! ### Payloads that are objects -/

def brace : UInt16 := 0x7B

theorem brace_notMem_text {source : Utf16} {number : ℚ}
    (parses : numbers.parse source = some number) : brace ∉ numbers.text number := by
  intro mem
  rcases numbers.text_units _ _ parses _ mem with digit | same | same | same | same
  · cases digit
  all_goals exact absurd same (by decide)

theorem head?_ne_brace {x : Utf16} (none : brace ∉ x) (y : Utf16) :
    (x ++ dot :: y).head? ≠ some brace := by
  cases x with
  | nil => exact nofun
  | cons u x =>
      intro same
      exact none (Option.some.inj same ▸ List.mem_cons_self)

/-- Payloads that are texts of objects have no other reading, as long as no version passes
for a timestamp. -/
theorem unambiguous_of_objects
    (objects : ∀ message ∈ signed, message.payload.head? = some brace)
    (versions : ∀ version timestamp payload, .platform version timestamp payload ∈ signed →
      ¬ Timely tolerance version now) :
    SdkUnambiguous signed tolerance now ∧ WebUnambiguous numbers signed now := by
  refine ⟨⟨?_, ?_⟩, ⟨?_, ?_⟩⟩
  · intro version timestamp payload mem _ timely
    exact absurd timely (versions version timestamp payload mem)
  · intro version timestamp payload mem _
    exact absurd (objects _ mem) (head?_ne_brace (notMem_decimal rfl timestamp.val) payload)
  · intro version timestamp digits payload source number mem _ parses _ text
    have none : brace ∉ digits := by
      intro found
      apply brace_notMem_text parses
      rw [text]
      exact List.mem_append_right _ (List.mem_cons_of_mem _ found)
    exact absurd (objects _ mem) (head?_ne_brace none payload)
  · intro version payload source number mem _ parses _
    exact absurd (objects _ mem) (head?_ne_brace (brace_notMem_text parses) payload)

/-! ### Two signed messages with another reading -/

/-- The units of a text as bytes. -/
def unitBytes : Utf16 → List UInt8
  | [] => []
  | u :: rest => UInt8.ofNat (u.toNat / 256) :: UInt8.ofNat (u.toNat % 256) :: unitBytes rest

theorem unitBytes_injective {x y : Utf16} (same : unitBytes x = unitBytes y) : x = y := by
  induction x generalizing y with
  | nil =>
      cases y with
      | nil => rfl
      | cons v y => cases same
  | cons u x ih =>
      cases y with
      | nil => cases same
      | cons v y =>
          obtain ⟨high, rest⟩ := List.cons.inj same
          obtain ⟨low, rest⟩ := List.cons.inj rest
          have high := congrArg UInt8.toNat high
          have low := congrArg UInt8.toNat low
          have uMax := u.toNat_lt
          have vMax := v.toNat_lt
          have first : u.toNat = v.toNat := by
            simp only [UInt8.toNat_ofNat'] at high low
            omega
          rw [UInt16.toNat_inj.mp first, ih rest]

/-- A code that is the signed string itself. -/
def plainCode : Mac where
  hmac _ content := 1 :: unitBytes content
  injective same := unitBytes_injective (List.cons.inj same).2
  nonempty _ _ := List.cons_ne_nil _ _

/-- The tenths in a text with at most one decimal. -/
def readTenths (text : Utf16) : Option Nat :=
  let whole := text.takeWhile isDigit
  if whole = [] then none
  else match text.dropWhile isDigit with
    | [] => some (10 * digitsValue whole)
    | [u, d] => if u = dot ∧ isDigit d then some (10 * digitsValue whole + digitsValue [d]) else none
    | _ => none

def writeTenths (n : Nat) : Utf16 :=
  if n % 10 = 0 then decimal (n / 10) else decimal (n / 10) ++ [dot, digit n]

theorem readTenths_writeTenths (n : Nat) : readTenths (writeTenths n) = some n := by
  have digits := decimal_isDigit (n / 10)
  unfold writeTenths readTenths
  by_cases integral : n % 10 = 0
  · rw [if_pos integral, ← List.append_nil (decimal (n / 10)),
      List.takeWhile_append_of_pos digits, List.dropWhile_append_of_pos digits]
    dsimp only [List.takeWhile_nil, List.dropWhile_nil]
    rw [List.append_nil, if_neg (decimal_ne_nil _), digitsValue_decimal]
    exact congrArg some (by omega)
  · have last : digitsValue [digit n] = n % 10 := by
      have same : digit n = digit (n % 10) := by rw [digit, digit, Nat.mod_mod]
      rw [same]
      exact digitsValue_digit (Nat.mod_lt n (by omega))
    rw [if_neg integral, List.takeWhile_append_of_pos digits, List.dropWhile_append_of_pos digits,
      List.takeWhile_cons_of_neg (by decide), List.dropWhile_cons_of_neg (by decide)]
    dsimp only
    rw [List.append_nil, if_neg (decimal_ne_nil _), if_pos ⟨rfl, isDigit_digit n⟩, last,
      digitsValue_decimal]
    exact congrArg some (by omega)

/-- Numbers with at most one decimal. -/
def tenths : NumberText where
  parse s := (readTenths s).map fun n : Nat => (n : ℚ) / 10
  text q := writeTenths (10 * q).num.natAbs
  text_timestamp t := by
    have whole : (10 * (t.val : ℚ)).num.natAbs = 10 * t.val := by
      have cast : 10 * (t.val : ℚ) = ((10 * t.val : ℕ) : ℚ) := by push_cast; rfl
      rw [cast]
      rfl
    rw [whole, writeTenths, if_pos (Nat.mul_mod_right 10 t.val),
      Nat.mul_div_cancel_left _ (by omega)]
  parse_timestamp t := by
    have written : writeTenths (10 * t.val) = decimal t.val := by
      rw [writeTenths, if_pos (Nat.mul_mod_right 10 t.val), Nat.mul_div_cancel_left _ (by omega)]
    rw [← written, readTenths_writeTenths]
    refine congrArg some ?_
    push_cast
    exact mul_div_cancel_left₀ _ (by norm_num)
  parse_text s q parses := by
    obtain ⟨n, -, rfl⟩ := Option.map_eq_some_iff.mp parses
    have whole : (10 * ((n : ℚ) / 10)).num.natAbs = n := by
      rw [mul_div_cancel₀ (n : ℚ) (by norm_num)]
      rfl
    rw [whole, readTenths_writeTenths]
    rfl
  text_units s q _ u mem := by
    unfold writeTenths at mem
    split at mem
    · exact .inl (decimal_isDigit _ u mem)
    · rcases List.mem_append.mp mem with front | last
      · exact .inl (decimal_isDigit _ u front)
      · rcases List.mem_cons.mp last with rfl | last
        · exact .inr (.inl rfl)
        · cases List.mem_singleton.mp last
          exact .inl (isDigit_digit _)

/-- "5.x", signed by the platform at 1000. -/
def fraction : Message := .platform 1 1000 [53, 46, 120]

/-- "1000.x", signed in the SDK's scheme at 1000. -/
def nested : Message := .sdk 1000 [49, 48, 48, 48, 46, 120]

/-- The web verifier accepts "x" at 1000.5, the SDK accepts "x" at 1000. -/
theorem reframed :
    ¬ WebGenuine tenths plainCode {fraction} [[107]] 1000000 ∧
      ¬ SdkGenuine plainCode {nested} [[107]] Sdk.Webhook.defaultTolerance 1000000 := by
  have usable : ∃ s ∈ [[107]], s ≠ ([] : Utf16) := ⟨[107], List.mem_cons_self, nofun⟩
  constructor
  · intro genuine
    have parses : tenths.parse [49, 48, 48, 48, 46, 53] = some (2001 / 2) := by decide +kernel
    have text : tenths.text (2001 / 2) = decimal 1000 ++ dot :: [53] := by decide +kernel
    obtain ⟨message, mem, -, same⟩ := (genuine.unambiguous usable).platform 1 1000 [53] [120] _ _ rfl
      (List.mem_singleton_self 1) parses (by decide +kernel) text
    cases mem
    cases same
  · intro genuine
    obtain ⟨message, mem, -, same⟩ := (genuine.unambiguous usable).sdk 1000 1000 [120] rfl rfl
    cases mem
    cases same

end Talos.Webhooks.Framing
