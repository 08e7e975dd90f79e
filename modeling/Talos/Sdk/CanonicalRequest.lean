import Talos.Encoding.Base64
import Talos.Encoding.FormUrlencoded
import Talos.Encoding.Headers
import Talos.Sdk.SigningController

/-!
# Canonical requests

`canonicalizeRequest` of `packages/sdk/src/signing.ts`: the bytes of a request that are signed.
Seven fields are joined by line feeds, and one of them, the headers, has line feeds of its own.
The bytes determine the request up to what the canonical form leaves out, except that
`TextEncoder` replaces unpaired surrogates of the timestamp and the nonce
(`canonicalizeRequest_eq_iff`).

The hash, the URL parser and the case data outside ASCII are parameters.
-/

namespace Talos.Sdk.Signing

open Encoding

structure SigningError where
  code : SigningErrorCode
  message : String
  retryable : Bool
  deriving DecidableEq

def REQUEST_SIGNATURE_VERSION : Utf16 := ascii "talos-request-v1"

/-- `-1`, `1` or `0`. -/
def compareOrdinal (left right : Utf16) : Int :=
  if ¬ ordinalLE right left then -1 else if ¬ ordinalLE left right then 1 else 0

def SIGNATURE_HEADERS : List Utf16 :=
  [ascii "authorization", ascii "cookie", ascii "proxy-authorization", ascii "set-cookie",
    ascii "x-api-key", ascii "x-talos-algorithm", ascii "x-talos-key-id", ascii "x-talos-nonce",
    ascii "x-talos-signature", ascii "x-talos-signature-version", ascii "x-talos-timestamp"]

/-- A parsed URL. Host (with the port) and path are percent-encoded; the pairs of the query are
decoded. -/
structure URL where
  protocol : Utf16
  username : Utf16
  password : Utf16
  host : Utf16
  pathname : Utf16
  searchParams : List (Utf16 × Utf16)
  hash : Utf16
  host_units : ∀ u ∈ host, 0x20 < u.toNat ∧ u.toNat < 0x7F ∧ u ≠ 47
  path_units : ∀ u ∈ pathname, 0x20 ≤ u.toNat ∧ u.toNat < 0x7F ∧ u ≠ 63
  path_start : protocol = ascii "https:" ∨ protocol = ascii "http:" → pathname.head? = some 47
  pairs_wellFormed : ∀ p ∈ searchParams, WellFormed p.1 ∧ WellFormed p.2

/-- What the request is canonicalized with. `upper` is the upper case of a code point outside
ASCII, and `parseUrl` is `new URL(input)`, `none` when it throws. -/
structure Platform where
  sha256 : List UInt8 → List UInt8
  parseUrl : Utf16 → Option URL
  lower : CaseTable
  upper : CodePoint → List CodePoint

def toUpperCase (platform : Platform) (s : Utf16) : Utf16 :=
  (codePoints s).flatMap fun c =>
    if 0x61 ≤ c.val ∧ c.val ≤ 0x7A then units (c - 0x20)
    else if c.val < 0x80 then units c
    else (platform.upper c).flatMap units

/-- The bodies that can be sent; `bytes` is a buffer, a view of one or a blob. -/
inductive BodyInit where
  | text (s : Utf16)
  | searchParams (pairs : List (Utf16 × Utf16))
  | bytes (content : List UInt8)
  /-- A stream, form data or anything else. -/
  | other
  deriving DecidableEq

structure CanonicalRequest where
  method : Utf16
  url : Utf16
  headers : List (Utf16 × Utf16)
  body : Option BodyInit
  timestamp : Utf16
  nonce : Utf16
  deriving DecidableEq

def invalidInput (message : String) : SigningError := ⟨.invalidInput, message, false⟩

def bodyBytes : Option BodyInit → Except SigningError (List UInt8)
  | none => .ok []
  | some (.text s) => .ok (utf8 s)
  | some (.searchParams pairs) => .ok (utf8 (formSerialize pairs))
  | some (.bytes content) => .ok content
  | some .other => .error (invalidInput
      "Streaming, FormData, and unknown request bodies cannot be signed deterministically")

/-- The comparison of the query pairs. -/
def compareEntries (a b : Utf16 × Utf16) : Int :=
  if a.1 = b.1 then compareOrdinal a.2 b.2 else compareOrdinal a.1 b.1

/-- `url.search`, once the query has been set through `searchParams`. -/
def URL.search (url : URL) : Utf16 :=
  if url.searchParams = [] then [] else 63 :: formSerialize url.searchParams

/-- `url.toString()` -/
def URL.text (url : URL) : Utf16 :=
  url.protocol ++ ascii "//" ++
    (if url.username = [] ∧ url.password = [] then []
      else url.username ++ (if url.password = [] then [] else 58 :: url.password) ++ [64]) ++
    url.host ++ url.pathname ++ url.search ++ url.hash

def URL.sorted (url : URL) : URL where
  protocol := url.protocol
  username := url.username
  password := url.password
  host := url.host
  pathname := url.pathname
  searchParams := url.searchParams.insertionSort (compareEntries · · ≤ 0)
  hash := []
  host_units := url.host_units
  path_units := url.path_units
  path_start := url.path_start
  pairs_wellFormed p mem := url.pairs_wellFormed p ((List.mem_insertionSort _).mp mem)

def canonicalUrl (platform : Platform) (input : Utf16) : Except SigningError Utf16 :=
  match platform.parseUrl input with
  | none => .error (invalidInput "A request URL must be absolute")
  | some url =>
      if (url.protocol ≠ ascii "https:" ∧ url.protocol ≠ ascii "http:") ∨ url.username ≠ [] ∨
          url.password ≠ [] then
        .error (invalidInput "Request URL must use HTTP(S) without embedded credentials")
      else .ok url.sorted.text

/-- The headers that are signed, in order. -/
def canonicalHeaders (platform : Platform) (requestHeaders : Headers) : List (Utf16 × Utf16) :=
  ((requestHeaders.entries.map fun e =>
      (toLowerCase platform.lower e.1, collapse false (trimSpace e.2))).filter
    fun e => e.1 ∉ SIGNATURE_HEADERS).insertionSort fun a b => compareOrdinal a.1 b.1 ≤ 0

def headerText (headers : List (Utf16 × Utf16)) : Utf16 :=
  [10].intercalate (headers.map fun e => e.1 ++ 58 :: e.2)

/-- `/[\r\n]/` finds nothing, and the text is not empty. -/
def isField (text : Utf16) : Bool := text ≠ [] && text.all fun u => u != 10 && u != 13

/-- `/^[A-Z]+$/` -/
def isMethod (method : Utf16) : Bool := method ≠ [] && method.all fun u => 65 ≤ u && u ≤ 90

def canonicalMethod (platform : Platform) (method : Utf16) : Utf16 :=
  toUpperCase platform (trimSpace method)

def canonicalizeRequest (platform : Platform) (request : CanonicalRequest) :
    Except SigningError (List UInt8) :=
  let method := canonicalMethod platform request.method
  if !isMethod method || !isField request.timestamp || !isField request.nonce then
    .error (invalidInput "Invalid method, timestamp, or nonce")
  else match Headers.ofInit request.headers with
    | none => .error (invalidInput "Invalid request headers")
    | some requestHeaders => do
        let headers := headerText (canonicalHeaders platform requestHeaders)
        let digest := base64Url (platform.sha256 (← bodyBytes request.body))
        let url ← canonicalUrl platform request.url
        .ok (utf8 ([10].intercalate [REQUEST_SIGNATURE_VERSION, method, url, headers, digest,
          request.timestamp, request.nonce]))

/-! ### What the signer is asked for -/

/-- Equal up to the fragment and the order of the query. -/
structure URL.Same (url url' : URL) : Prop where
  protocol : url.protocol = url'.protocol
  username : url.username = url'.username
  password : url.password = url'.password
  host : url.host = url'.host
  pathname : url.pathname = url'.pathname
  query : url.searchParams.Perm url'.searchParams

/-- The headers that are signed: names in lower case, each with the words of its value. -/
def signedHeaders (h : Headers) : Set (Utf16 × List Utf16) :=
  {e | e.1 ∈ h.names ∧ e.1 ∉ SIGNATURE_HEADERS ∧ e.2 = words (h.get e.1)}

/-- Two requests that differ at most in timestamp, nonce and what the canonical form leaves out. -/
structure Agree (platform : Platform) (request request' : CanonicalRequest) : Prop where
  method : canonicalMethod platform request.method = canonicalMethod platform request'.method
  url : ∃ url ∈ platform.parseUrl request.url, ∃ url' ∈ platform.parseUrl request'.url,
    url.Same url'
  headers : (Headers.ofInit request.headers).map signedHeaders =
    (Headers.ofInit request'.headers).map signedHeaders
  body : bodyBytes request.body = bodyBytes request'.body

variable {platform : Platform} {request request' : CanonicalRequest} {url url' : URL}
  {h h' : Headers} {bytes bytes' : List UInt8} {x y x' y' : Utf16}

/-! ### Sorting -/

theorem compareOrdinal_le : compareOrdinal x y ≤ 0 ↔ ordinalLE x y := by
  by_cases right : ordinalLE y x
  · by_cases left : ordinalLE x y
    · simp [compareOrdinal, right, left]
    · simp [compareOrdinal, right, left]
  · have left : ordinalLE x y := (Std.Total.total x y).resolve_right right
    simp [compareOrdinal, right, left]

theorem compareEntries_le {a b : Utf16 × Utf16} : compareEntries a b ≤ 0 ↔
    ordinalLE a.1 b.1 ∧ (a.1 = b.1 → ordinalLE a.2 b.2) := by
  unfold compareEntries
  split_ifs with same
  · rw [compareOrdinal_le, same]
    have refl := (Std.Total.total (r := ordinalLE) b.1 b.1).elim id id
    exact ⟨fun le => ⟨refl, fun _ => le⟩, fun both => both.2 rfl⟩
  · rw [compareOrdinal_le]
    exact ⟨fun le => ⟨le, fun equal => absurd equal same⟩, And.left⟩

instance : Std.Total fun a b : Utf16 × Utf16 => compareEntries a b ≤ 0 where
  total a b := by
    simp only [compareEntries_le]
    by_cases same : a.1 = b.1
    · have refl := (Std.Total.total (r := ordinalLE) b.1 b.1).elim id id
      rw [same]
      exact (Std.Total.total a.2 b.2).imp (fun le => ⟨refl, fun _ => le⟩)
        fun ge => ⟨refl, fun _ => ge⟩
    · exact (Std.Total.total a.1 b.1).imp (fun le => ⟨le, fun equal => absurd equal same⟩)
        fun ge => ⟨ge, fun equal => absurd equal.symm same⟩

instance : IsTrans (Utf16 × Utf16) fun a b => compareEntries a b ≤ 0 where
  trans a b c := by
    simp only [compareEntries_le]
    rintro ⟨le, tie⟩ ⟨le', tie'⟩
    refine ⟨IsTrans.trans _ _ _ le le', fun same => ?_⟩
    have first : a.1 = b.1 := Std.Antisymm.antisymm (r := ordinalLE) _ _ le (same ▸ le')
    exact IsTrans.trans _ _ _ (tie first) (tie' (first.symm.trans same))

instance : Std.Antisymm fun a b : Utf16 × Utf16 => compareEntries a b ≤ 0 where
  antisymm a b := by
    simp only [compareEntries_le]
    rintro ⟨le, tie⟩ ⟨ge, tie'⟩
    have names : a.1 = b.1 := Std.Antisymm.antisymm _ _ le ge
    exact Prod.ext names (Std.Antisymm.antisymm _ _ (tie names) (tie' names.symm))

/-- ASCII without control characters. -/
def Printable (text : Utf16) : Prop := ∀ u ∈ text, 0x20 ≤ u.toNat ∧ u.toNat < 0x7F

/-! ### URLs -/

structure URL.Valid (url : URL) : Prop where
  protocol : url.protocol = ascii "https:" ∨ url.protocol = ascii "http:"
  username : url.username = []
  password : url.password = []

theorem canonicalUrl_ok {text : Utf16} (ok : canonicalUrl platform x = .ok text) :
    ∃ url ∈ platform.parseUrl x, url.Valid ∧ text = url.sorted.text := by
  unfold canonicalUrl at ok
  split at ok
  · cases ok
  · rename_i url parsed
    split at ok
    · cases ok
    · rename_i none
      obtain ⟨protocol, credentials⟩ := not_or.mp none
      obtain ⟨username, password⟩ := not_or.mp credentials
      refine ⟨url, parsed, ⟨?_, not_not.mp username, not_not.mp password⟩, (Except.ok.inj ok).symm⟩
      by_contra other
      exact protocol (not_or.mp other)

theorem URL.sorted_text (valid : url.Valid) : url.sorted.text =
    url.protocol ++ 47 :: (47 :: url.host ++ (url.pathname ++ url.sorted.search)) := by
  have none : url.sorted.username = [] ∧ url.sorted.password = [] :=
    ⟨valid.username, valid.password⟩
  rw [URL.text, if_pos none, URL.sorted]
  simp [ascii]

theorem URL.search_inj (path : 63 ∉ x) (path' : 63 ∉ x')
    (same : x ++ url.search = x' ++ url'.search) :
    x = x' ∧ url.searchParams = url'.searchParams := by
  unfold URL.search at same
  split_ifs at same with none none' none'
  · rw [List.append_nil, List.append_nil] at same
    exact ⟨same, none.trans none'.symm⟩
  · rw [List.append_nil] at same
    exact absurd (same ▸ List.mem_append_right _ List.mem_cons_self) path
  · rw [List.append_nil] at same
    exact absurd (same ▸ List.mem_append_right _ List.mem_cons_self) path'
  · obtain ⟨paths, pairs⟩ := (append_sep_inj path path').mp same
    exact ⟨paths, formSerialize_injective url.pairs_wellFormed url'.pairs_wellFormed pairs⟩

theorem URL.protocol_inj (valid : url.Valid) (valid' : url'.Valid)
    (same : url.protocol ++ 47 :: x = url'.protocol ++ 47 :: x') :
    url.protocol = url'.protocol ∧ x = x' := by
  have free : ∀ {url : URL}, url.Valid → 47 ∉ url.protocol := by
    intro url valid
    rcases valid.protocol with https | http
    · rw [https]
      decide
    · rw [http]
      decide
  exact (append_sep_inj (free valid) (free valid')).mp same

/-- The host ends where the path starts. -/
theorem URL.host_inj (valid : url.Valid) (valid' : url'.Valid)
    (same : url.host ++ (url.pathname ++ x) = url'.host ++ (url'.pathname ++ x')) :
    url.host = url'.host ∧ url.pathname ++ x = url'.pathname ++ x' := by
  have free : ∀ url : URL, 47 ∉ url.host := fun url mem => (url.host_units 47 mem).2.2 rfl
  have start : ∀ {url : URL}, url.Valid → ∃ rest, url.pathname = 47 :: rest := fun valid =>
    List.head?_eq_some_iff.mp (URL.path_start _ valid.protocol)
  obtain ⟨rest, path⟩ := start valid
  obtain ⟨rest', path'⟩ := start valid'
  rw [path, path', List.cons_append, List.cons_append] at same ⊢
  obtain ⟨hosts, rests⟩ := (append_sep_inj (free url) (free url')).mp same
  exact ⟨hosts, congrArg (47 :: ·) rests⟩

/-- The text of a URL is all of it but the fragment and the order of the query. -/
theorem URL.text_eq_iff (valid : url.Valid) (valid' : url'.Valid) :
    url.sorted.text = url'.sorted.text ↔ url.Same url' := by
  have free : ∀ url : URL, 63 ∉ url.pathname := fun url mem => (url.path_units 63 mem).2.2 rfl
  rw [URL.sorted_text valid, URL.sorted_text valid']
  constructor
  · intro same
    obtain ⟨protocols, rest⟩ := URL.protocol_inj valid valid' same
    obtain ⟨hosts, rest⟩ := URL.host_inj valid valid' (List.cons.inj rest).2
    obtain ⟨paths, pairs⟩ := URL.search_inj (free url) (free url') rest
    exact ⟨protocols, valid.username.trans valid'.username.symm,
      valid.password.trans valid'.password.symm, hosts, paths, insertionSort_eq_iff.mp pairs⟩
  · intro same
    have pairs : url.sorted.searchParams = url'.sorted.searchParams :=
      insertionSort_eq_iff.mpr same.query
    rw [same.protocol, same.host, same.pathname, URL.search, URL.search, pairs]

theorem URL.text_printable (valid : url.Valid) : Printable url.sorted.text := by
  rw [URL.sorted_text valid, Printable, List.forall_mem_append, List.forall_mem_cons,
    List.forall_mem_append, List.forall_mem_append, List.forall_mem_cons]
  refine ⟨?_, by decide, ⟨by decide, ?_⟩, ?_, ?_⟩
  · rcases valid.protocol with https | http
    · rw [https]
      exact by decide
    · rw [http]
      exact by decide
  · exact fun u mem => ⟨(url.host_units u mem).1.le, (url.host_units u mem).2.1⟩
  · exact fun u mem => ⟨(url.path_units u mem).1, (url.path_units u mem).2.1⟩
  · unfold URL.search
    split_ifs
    · exact List.forall_mem_nil _
    · refine List.forall_mem_cons.mpr ⟨by decide, fun u mem => ?_⟩
      exact ⟨(mem_formSerialize mem).1.le, (mem_formSerialize mem).2⟩

/-! ### Headers -/

theorem toLowerCase_name {name : Utf16} (mem : name ∈ h.names) :
    toLowerCase platform.lower name = name := by
  obtain ⟨-, lower, units⟩ := Headers.names_spec mem
  rw [toLowerCase_of_plain fun u part => .inl ((units u part).2.1.trans (by decide)), lower]

theorem flatMap_filter {α β : Type} {q : α → Bool} {f : α → β} {g : α → List β} {l : List α}
    (each : ∀ a ∈ l, g a = if q a then [f a] else []) : l.flatMap g = (l.filter q).map f := by
  induction l with
  | nil => rfl
  | cons a l ih =>
      obtain ⟨first, rest⟩ := List.forall_mem_cons.mp each
      rw [List.flatMap_cons, first, ih rest]
      by_cases keep : q a = true
      · rw [if_pos keep, List.filter_cons_of_pos keep]
        rfl
      · rw [if_neg keep, List.filter_cons_of_neg keep]
        rfl

/-- The names that are signed are in order already, and none of them is `set-cookie`. -/
theorem canonicalHeaders_eq (platform : Platform) (h : Headers) : canonicalHeaders platform h =
    (h.names.filter (· ∉ SIGNATURE_HEADERS)).map fun name =>
      (name, [0x20].intercalate (words (h.get name))) := by
  have lines : (h.entries.map fun e =>
      (toLowerCase platform.lower e.1, collapse false (trimSpace e.2))).filter
        (fun e => e.1 ∉ SIGNATURE_HEADERS) =
      (h.names.filter (· ∉ SIGNATURE_HEADERS)).map fun name =>
        (name, [0x20].intercalate (words (h.get name))) := by
    rw [Headers.entries, List.map_flatMap, List.filter_flatMap]
    refine flatMap_filter fun name mem => ?_
    have lower : toLowerCase platform.lower name = name := toLowerCase_name mem
    by_cases cookie : name = ascii "set-cookie"
    · have excluded : name ∈ SIGNATURE_HEADERS := by
        rw [cookie]
        decide
      rw [if_pos cookie, if_neg (by simpa using excluded), List.map_map, List.filter_eq_nil_iff]
      intro e found
      obtain ⟨value, _, rfl⟩ := List.mem_map.mp found
      simpa [lower] using excluded
    · rw [if_neg cookie, List.map_singleton, lower, collapse_trimSpace, List.filter_singleton]
      exact cond_eq_ite _ _ _
  rw [canonicalHeaders, lines]
  refine List.Pairwise.insertionSort_eq ?_
  simp only [compareOrdinal_le]
  exact List.pairwise_map.mpr ((Headers.names_sorted h).filter _)

/-- A line of the headers: a name without a colon, and a value without a line break. -/
theorem headerLine_spec {e : Utf16 × Utf16} (mem : e ∈ canonicalHeaders platform h) :
    58 ∉ e.1 ∧ ∀ u ∈ e.1 ++ 58 :: e.2, u ≠ 10 ∧ u.toNat < 0xD800 := by
  rw [canonicalHeaders_eq] at mem
  obtain ⟨name, found, rfl⟩ := List.mem_map.mp mem
  obtain ⟨-, -, units⟩ := Headers.names_spec (List.mem_filter.mp found).1
  refine ⟨fun colon => (units 58 colon).2.2 rfl, List.forall_mem_append.mpr ⟨?_, ?_⟩⟩
  · intro u part
    obtain ⟨low, high, -⟩ := units u part
    refine ⟨?_, high.trans (by decide)⟩
    rintro rfl
    exact absurd low (by decide)
  · refine List.forall_mem_cons.mpr ⟨by decide, fun u part => ?_⟩
    rcases mem_joined part with space | ⟨word, among, letter⟩
    · cases List.mem_singleton.mp space
      decide
    · obtain ⟨inside, black⟩ := mem_words among u letter
      refine ⟨?_, (Headers.mem_get inside).trans_lt (by decide)⟩
      rintro rfl
      exact absurd black (by decide)

theorem headerText_inj
    (same : headerText (canonicalHeaders platform h) = headerText (canonicalHeaders platform h')) :
    canonicalHeaders platform h = canonicalHeaders platform h' := by
  have each : ∀ {h : Headers}, ∀ e ∈ canonicalHeaders platform h,
      e.1 ++ 58 :: e.2 ≠ [] ∧ 10 ∉ e.1 ++ 58 :: e.2 := fun e mem =>
    ⟨List.append_ne_nil_of_right_ne_nil _ (List.cons_ne_nil _ _),
      fun found => ((headerLine_spec mem).2 _ found).1 rfl⟩
  refine joined_map_inj each each ?_ same
  intro e mem e' mem' lines
  obtain ⟨names, values⟩ :=
    (append_sep_inj (headerLine_spec mem).1 (headerLine_spec mem').1).mp lines
  exact Prod.ext names values

theorem headerText_below : ∀ u ∈ headerText (canonicalHeaders platform h), u.toNat < 0xD800 := by
  intro u mem
  rcases mem_joined mem with separator | ⟨line, among, part⟩
  · cases List.mem_singleton.mp separator
    decide
  · obtain ⟨e, found, rfl⟩ := List.mem_map.mp among
    exact ((headerLine_spec found).2 u part).2

theorem mem_signedHeaders {name : Utf16} {ws : List Utf16} : (name, ws) ∈ signedHeaders h ↔
    name ∈ h.names.filter (· ∉ SIGNATURE_HEADERS) ∧ ws = words (h.get name) := by
  rw [List.mem_filter, decide_eq_true_iff, and_assoc]
  rfl

/-- The lines are the same exactly if the same headers are signed. -/
theorem headerText_eq_iff :
    headerText (canonicalHeaders platform h) = headerText (canonicalHeaders platform h') ↔
      signedHeaders h = signedHeaders h' := by
  have joined : ∀ {text text' : Utf16},
      [0x20].intercalate (words text) = [0x20].intercalate (words text') ↔
        words text = words text' :=
    joined_inj nil_notMem_words nil_notMem_words words_free words_free
  constructor
  · intro same
    have lines := headerText_inj same
    rw [canonicalHeaders_eq, canonicalHeaders_eq] at lines
    have names : h.names.filter (· ∉ SIGNATURE_HEADERS) =
        h'.names.filter (· ∉ SIGNATURE_HEADERS) := by
      simpa [Function.comp_def] using congrArg (List.map Prod.fst) lines
    rw [names, List.map_inj_left] at lines
    ext ⟨name, ws⟩
    rw [mem_signedHeaders, mem_signedHeaders, names]
    refine and_congr_right fun mem => ?_
    rw [joined.mp (Prod.mk.inj (lines name mem)).2]
  · intro same
    have signed : ∀ {h h' : Headers}, signedHeaders h = signedHeaders h' →
        ∀ name ∈ h.names.filter (· ∉ SIGNATURE_HEADERS),
          name ∈ h'.names.filter (· ∉ SIGNATURE_HEADERS) ∧
            words (h.get name) = words (h'.get name) := by
      intro h h' same name mem
      rw [← mem_signedHeaders, ← same]
      exact mem_signedHeaders.mpr ⟨mem, rfl⟩
    have names : h.names.filter (· ∉ SIGNATURE_HEADERS) =
        h'.names.filter (· ∉ SIGNATURE_HEADERS) := by
      refine List.Perm.eq_of_pairwise' ((Headers.names_sorted h).filter _)
        ((Headers.names_sorted h').filter _) ?_
      refine (List.perm_ext_iff_of_nodup ((Headers.names_nodup h).filter _)
        ((Headers.names_nodup h').filter _)).mpr fun name => ?_
      exact ⟨fun mem => (signed same name mem).1, fun mem => (signed same.symm name mem).1⟩
    rw [canonicalHeaders_eq, canonicalHeaders_eq, ← names]
    refine congrArg headerText (List.map_congr_left fun name mem => ?_)
    rw [(signed same name mem).2]

/-! ### The whole text -/

/-- Cut at the last separator. -/
theorem append_sep_inj_last {sep : UInt16} (none : sep ∉ y) (none' : sep ∉ y') :
    x ++ sep :: y = x' ++ sep :: y' ↔ x = x' ∧ y = y' := by
  have reversed : ∀ x y : Utf16, (x ++ sep :: y).reverse = y.reverse ++ sep :: x.reverse := by
    simp
  rw [← List.reverse_inj, reversed, reversed, append_sep_inj (by simpa using none)
    (by simpa using none'), List.reverse_inj, List.reverse_inj, and_comm]

theorem Printable.free {text : Utf16} (printable : Printable text) : 10 ∉ text :=
  fun mem => absurd (printable 10 mem).1 (by decide)

theorem Printable.wellFormed {text : Utf16} (printable : Printable text) :
    toWellFormed text = text :=
  toWellFormed_of_lt fun u mem => (printable u mem).2.trans (by decide)

/-- The fields after the version, of which only the headers have line breaks. -/
structure Fields where
  method : Utf16
  url : Utf16
  headers : Utf16
  digest : Utf16
  timestamp : Utf16
  nonce : Utf16
  method_printable : Printable method
  url_printable : Printable url
  digest_printable : Printable digest
  headers_below : ∀ u ∈ headers, u.toNat < 0xD800
  timestamp_free : 10 ∉ timestamp
  nonce_free : 10 ∉ nonce

def Fields.text (f : Fields) : Utf16 :=
  [10].intercalate [REQUEST_SIGNATURE_VERSION, f.method, f.url, f.headers, f.digest, f.timestamp,
    f.nonce]

theorem Fields.toWellFormed_text (f : Fields) : toWellFormed f.text =
    REQUEST_SIGNATURE_VERSION ++ 10 :: (f.method ++ 10 :: (f.url ++ 10 ::
      (((f.headers ++ 10 :: f.digest) ++ 10 :: toWellFormed f.timestamp) ++
        10 :: toWellFormed f.nonce))) := by
  have version : Printable REQUEST_SIGNATURE_VERSION := by unfold Printable; decide
  have low : (10 : UInt16).toNat < 0xD800 := by decide
  simp only [Fields.text, List.intercalate_cons_cons, List.intercalate_singleton, List.append_assoc,
    List.cons_append, List.nil_append, toWellFormed_append_cons low, version.wellFormed,
    f.method_printable.wellFormed, f.url_printable.wellFormed, f.digest_printable.wellFormed,
    toWellFormed_of_lt f.headers_below]

theorem notMem_toWellFormed {text : Utf16} (free : 10 ∉ text) : 10 ∉ toWellFormed text :=
  mt (mem_of_mem_toWellFormed (by decide)) free

/-- The fields are read off the bytes from both ends. -/
theorem Fields.utf8_eq_iff (f g : Fields) : utf8 f.text = utf8 g.text ↔
    f.method = g.method ∧ f.url = g.url ∧ f.headers = g.headers ∧ f.digest = g.digest ∧
      toWellFormed f.timestamp = toWellFormed g.timestamp ∧
      toWellFormed f.nonce = toWellFormed g.nonce := by
  rw [Encoding.utf8_eq_iff, toWellFormed_text, toWellFormed_text, List.append_cancel_left_eq,
    List.cons.injEq, append_sep_inj f.method_printable.free g.method_printable.free,
    append_sep_inj f.url_printable.free g.url_printable.free,
    append_sep_inj_last (notMem_toWellFormed f.nonce_free) (notMem_toWellFormed g.nonce_free),
    append_sep_inj_last (notMem_toWellFormed f.timestamp_free)
      (notMem_toWellFormed g.timestamp_free),
    append_sep_inj_last f.digest_printable.free g.digest_printable.free]
  tauto

/-! ### Canonical requests -/

theorem isField_free {text : Utf16} (field : isField text = true) : 10 ∉ text := by
  intro mem
  have units := List.all_eq_true.mp (Bool.and_eq_true_iff.mp field).2 10 mem
  exact absurd units (by decide)

theorem isMethod_printable {method : Utf16} (valid : isMethod method = true) :
    Printable method := by
  intro u mem
  have units := List.all_eq_true.mp (Bool.and_eq_true_iff.mp valid).2 u mem
  simp only [Bool.and_eq_true, decide_eq_true_iff, UInt16.le_iff_toNat_le, UInt16.reduceToNat]
    at units
  exact ⟨by omega, by omega⟩

/-- What a valid request is read as, and the fields that are written. -/
theorem canonicalizeRequest_ok (ok : canonicalizeRequest platform request = .ok bytes) :
    ∃ h ∈ Headers.ofInit request.headers, ∃ body, bodyBytes request.body = .ok body ∧
      ∃ url ∈ platform.parseUrl request.url, url.Valid ∧
        ∃ f : Fields, bytes = utf8 f.text ∧ f.method = canonicalMethod platform request.method ∧
          f.url = url.sorted.text ∧ f.headers = headerText (canonicalHeaders platform h) ∧
          f.digest = base64Url (platform.sha256 body) ∧ f.timestamp = request.timestamp ∧
          f.nonce = request.nonce := by
  simp only [canonicalizeRequest] at ok
  split at ok
  · cases ok
  · rename_i checked
    simp only [Bool.or_eq_true, Bool.not_eq_true', not_or, Bool.not_eq_false] at checked
    obtain ⟨⟨method, timestamp⟩, nonce⟩ := checked
    split at ok
    · cases ok
    · rename_i h headers
      cases content : bodyBytes request.body with
      | error e =>
          rw [content] at ok
          cases ok
      | ok body =>
          rw [content] at ok
          cases written : canonicalUrl platform request.url with
          | error e =>
              rw [written] at ok
              cases ok
          | ok text =>
              rw [written] at ok
              obtain ⟨url, parsed, valid, rfl⟩ := canonicalUrl_ok written
              let f : Fields :=
                { method := canonicalMethod platform request.method
                  url := url.sorted.text
                  headers := headerText (canonicalHeaders platform h)
                  digest := base64Url (platform.sha256 body)
                  timestamp := request.timestamp
                  nonce := request.nonce
                  method_printable := isMethod_printable method
                  url_printable := URL.text_printable valid
                  digest_printable := fun u mem =>
                    ⟨(mem_base64Url mem).1.le, (mem_base64Url mem).2⟩
                  headers_below := headerText_below
                  timestamp_free := isField_free timestamp
                  nonce_free := isField_free nonce }
              exact ⟨h, headers, body, rfl, url, parsed, valid, f, (Except.ok.inj ok).symm, rfl,
                rfl, rfl, rfl, rfl, rfl⟩

/-- The canonical form of two valid requests, whose bodies do not collide, is the same exactly if
they agree on all that is signed, where unpaired surrogates of timestamp and nonce count as
U+FFFD. -/
theorem canonicalizeRequest_eq_iff (ok : canonicalizeRequest platform request = .ok bytes)
    (ok' : canonicalizeRequest platform request' = .ok bytes')
    (distinct : ∀ body body', bodyBytes request.body = .ok body →
      bodyBytes request'.body = .ok body' → platform.sha256 body = platform.sha256 body' →
      body = body') :
    bytes = bytes' ↔ Agree platform request request' ∧
      toWellFormed request.timestamp = toWellFormed request'.timestamp ∧
      toWellFormed request.nonce = toWellFormed request'.nonce := by
  obtain ⟨h, headers, body, content, url, parsed, valid, f, rfl, method, text, lines, digest,
    timestamp, nonce⟩ := canonicalizeRequest_ok ok
  obtain ⟨h', headers', body', content', url', parsed', valid', f', rfl, method', text', lines',
    digest', timestamp', nonce'⟩ := canonicalizeRequest_ok ok'
  rw [Fields.utf8_eq_iff, method, method', text, text', URL.text_eq_iff valid valid', lines, lines',
    headerText_eq_iff, digest, digest', base64Url_injective.eq_iff, timestamp, timestamp', nonce,
    nonce', ← and_assoc, ← and_assoc, ← and_assoc]
  refine and_congr_left fun _ => ?_
  constructor
  · rintro ⟨⟨⟨methods, urls⟩, signed⟩, hashes⟩
    refine ⟨methods, ⟨url, parsed, url', parsed', urls⟩, ?_, ?_⟩
    · rw [Option.mem_def.mp headers, Option.mem_def.mp headers', Option.map_some, Option.map_some,
        signed]
    · rw [content, content', distinct body body' content content' hashes]
  · rintro ⟨methods, ⟨u, found, u', found', urls⟩, signed, bodies⟩
    cases Option.mem_unique found parsed
    cases Option.mem_unique found' parsed'
    rw [Option.mem_def.mp headers, Option.mem_def.mp headers'] at signed
    rw [content, content'] at bodies
    exact ⟨⟨⟨methods, urls⟩, Option.some.inj signed⟩, congrArg _ (Except.ok.inj bodies)⟩

/-- `https://example.test/v1/jobs` with a query and a fragment. -/
def jobsUrl (pairs : List (Utf16 × Utf16)) (hash : Utf16)
    (wellFormed : ∀ p ∈ pairs, WellFormed p.1 ∧ WellFormed p.2) : URL where
  protocol := ascii "https:"
  username := []
  password := []
  host := ascii "example.test"
  pathname := ascii "/v1/jobs"
  searchParams := pairs
  hash := hash
  host_units := by decide
  path_units := by decide
  path_start _ := rfl
  pairs_wellFormed := wellFormed

/-- Two spellings of one request, and the digest of the empty body. -/
def jobsPlatform : Platform where
  sha256 _ := [0xE3, 0xB0, 0xC4, 0x42, 0x98, 0xFC, 0x1C, 0x14, 0x9A, 0xFB, 0xF4, 0xC8, 0x99, 0x6F,
    0xB9, 0x24, 0x27, 0xAE, 0x41, 0xE4, 0x64, 0x9B, 0x93, 0x4C, 0xA4, 0x95, 0x99, 0x1B, 0x78, 0x52,
    0xB8, 0x55]
  parseUrl input :=
    if input = ascii "https://example.test/v1/jobs?z=2&a=1#ignored" then
      some (jobsUrl [(ascii "z", ascii "2"), (ascii "a", ascii "1")] (ascii "#ignored") (by decide))
    else if input = ascii "https://example.test/v1/jobs?a=1&z=2" then
      some (jobsUrl [(ascii "a", ascii "1"), (ascii "z", ascii "2")] [] (by decide))
    else none
  lower := .caseless
  upper c := [c]

def jobsRequest : CanonicalRequest where
  method := ascii "get"
  url := ascii "https://example.test/v1/jobs?z=2&a=1#ignored"
  headers := [(ascii "X-Zeta", ascii "  one   two "),
    (ascii "Authorization", ascii "Bearer redacted-vector-value"),
    (ascii "Accept", ascii "application/json")]
  body := none
  timestamp := ascii "2026-01-02T03:04:05.000Z"
  nonce := ascii "vector-1"

def jobsRequest' : CanonicalRequest where
  method := ascii " GET"
  url := ascii "https://example.test/v1/jobs?a=1&z=2"
  headers := [(ascii "accept", ascii "application/json"), (ascii "x-zeta", ascii "one two")]
  body := some (.text [])
  timestamp := ascii "2026-01-02T03:04:05.000Z"
  nonce := ascii "vector-1"

def jobsBytes : List UInt8 := utf8 (ascii "talos-request-v1\nGET\n" ++
  ascii "https://example.test/v1/jobs?a=1&z=2\naccept:application/json\nx-zeta:one two\n" ++
  ascii "47DEQpj8HBSa-_TImW-5JCeuQeRkm5NMpJWZG3hSuFU\n2026-01-02T03:04:05.000Z\nvector-1")

theorem canonicalizeRequest_of {lines url : Utf16} {body : List UInt8}
    (method : isMethod (canonicalMethod platform request.method) = true)
    (timestamp : isField request.timestamp = true) (nonce : isField request.nonce = true)
    (headers : (Headers.ofInit request.headers).map
      (fun h => headerText (canonicalHeaders platform h)) = some lines)
    (content : bodyBytes request.body = .ok body)
    (written : canonicalUrl platform request.url = .ok url) :
    canonicalizeRequest platform request = .ok (utf8 ([10].intercalate [REQUEST_SIGNATURE_VERSION,
      canonicalMethod platform request.method, url, lines, base64Url (platform.sha256 body),
      request.timestamp, request.nonce])) := by
  obtain ⟨h, found, rfl⟩ := Option.map_eq_some_iff.mp headers
  simp only [canonicalizeRequest, method, timestamp, nonce, found, content, written]
  rfl

/-- What both spellings are brought to. -/
theorem jobsRequest_spellings : ∀ request ∈ [jobsRequest, jobsRequest'],
    (Headers.ofInit request.headers).map
        (fun h => headerText (canonicalHeaders jobsPlatform h)) =
      some (ascii "accept:application/json\nx-zeta:one two") ∧
    canonicalUrl jobsPlatform request.url = .ok (ascii "https://example.test/v1/jobs?a=1&z=2") := by
  simp only [List.forall_mem_cons, jobsRequest, jobsRequest']
  repeat rw [ascii_ofList]
  exact ⟨⟨by decide, by decide⟩, ⟨by decide, by decide⟩, nofun⟩

theorem canonicalizeRequest_jobs :
    canonicalizeRequest jobsPlatform jobsRequest = .ok jobsBytes ∧
      canonicalizeRequest jobsPlatform jobsRequest' = .ok jobsBytes ∧
      Agree jobsPlatform jobsRequest jobsRequest' := by
  obtain ⟨⟨headers, url⟩, ⟨headers', url'⟩, -⟩ := by
    simpa only [List.forall_mem_cons] using jobsRequest_spellings
  have digest : base64Url (jobsPlatform.sha256 []) =
      ascii "47DEQpj8HBSa-_TImW-5JCeuQeRkm5NMpJWZG3hSuFU" := by
    rw [ascii_ofList]
    decide +kernel
  have bytes : utf8 ([10].intercalate [REQUEST_SIGNATURE_VERSION, ascii "GET",
      ascii "https://example.test/v1/jobs?a=1&z=2", ascii "accept:application/json\nx-zeta:one two",
      ascii "47DEQpj8HBSa-_TImW-5JCeuQeRkm5NMpJWZG3hSuFU", ascii "2026-01-02T03:04:05.000Z",
      ascii "vector-1"]) = jobsBytes := by
    rw [jobsBytes, REQUEST_SIGNATURE_VERSION]
    repeat rw [ascii_ofList]
    exact congrArg utf8 (by decide +kernel)
  have ok : canonicalizeRequest jobsPlatform jobsRequest = .ok jobsBytes := by
    rw [canonicalizeRequest_of (by decide +kernel) (by decide +kernel) (by decide +kernel)
      headers rfl url, digest, ← bytes]
    rfl
  have ok' : canonicalizeRequest jobsPlatform jobsRequest' = .ok jobsBytes := by
    rw [canonicalizeRequest_of (by decide +kernel) (by decide +kernel) (by decide +kernel)
      headers' rfl url', ← bytes]
    rw [show utf8 [] = [] from rfl, digest]
    rfl
  refine ⟨ok, ok', ((canonicalizeRequest_eq_iff ok ok' ?_).mp rfl).1⟩
  intro body body' content content' _
  exact (Except.ok.inj content).symm.trans (Except.ok.inj content')

/-- Two timestamps that the bytes do not tell apart. -/
theorem surrogate_timestamps_collide :
    let platform : Platform := { jobsPlatform with sha256 := id }
    let request : CanonicalRequest := { jobsRequest with timestamp := [0xD800] }
    let request' : CanonicalRequest := { jobsRequest with timestamp := [0xD801] }
    Function.Injective platform.sha256 ∧ request.timestamp ≠ request'.timestamp ∧
      ∃ bytes, canonicalizeRequest platform request = .ok bytes ∧
        canonicalizeRequest platform request' = .ok bytes := by
  let platform : Platform := { jobsPlatform with sha256 := id }
  obtain ⟨headers, url⟩ := jobsRequest_spellings jobsRequest (by simp)
  have method : isMethod (canonicalMethod platform (ascii "get")) = true := by decide
  have nonce : isField (ascii "vector-1") = true := by decide
  have canonical (timestamp : Utf16) (valid : isField timestamp = true) :
      canonicalizeRequest platform { jobsRequest with timestamp := timestamp } =
        .ok (utf8 ([10].intercalate [REQUEST_SIGNATURE_VERSION,
          canonicalMethod platform (ascii "get"), ascii "https://example.test/v1/jobs?a=1&z=2",
          ascii "accept:application/json
x-zeta:one two", base64Url [], timestamp,
          ascii "vector-1"])) :=
    canonicalizeRequest_of method valid nonce headers rfl url
  refine ⟨Function.injective_id, by decide, _, canonical [0xD800] (by decide),
    (canonical [0xD801] (by decide)).trans (congrArg Except.ok ?_)⟩
  change utf8 ([10].intercalate [REQUEST_SIGNATURE_VERSION, ascii "GET",
      ascii "https://example.test/v1/jobs?a=1&z=2",
      ascii "accept:application/json
x-zeta:one two", [], [0xD801], ascii "vector-1"]) =
    utf8 ([10].intercalate [REQUEST_SIGNATURE_VERSION, ascii "GET",
      ascii "https://example.test/v1/jobs?a=1&z=2",
      ascii "accept:application/json
x-zeta:one two", [], [0xD800], ascii "vector-1"])
  rw [REQUEST_SIGNATURE_VERSION]
  repeat rw [ascii_ofList]
  decide

end Talos.Sdk.Signing
