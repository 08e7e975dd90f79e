import Talos.Encoding.InternetAddress

/-!
# Guards against internal addresses

`is_public_url_sync` (`packages/prime-agent/src/talos_agent/security/ssrf.py`) and `validateUrl`
(`web/src/lib/security/ssrf.ts`). The parsed URL and the answer to the lookup of a host are inputs.
One guard compares addresses with networks, the other the text of an address with the starts of
texts: `guarded_iff` says which addresses both keep out and judge alike.
-/

namespace Talos.UrlGuards

open Internet

/-- What the lookup of a host answers, here `socket.getaddrinfo` and `dns.lookup`. -/
inductive Answer where
  | addresses (found : List Address)
  | failed (message : String)
  /-- The name cannot be encoded. -/
  | unencodable

/-! ### `is_public_url_sync` -/

inductive Network where
  | v4 (net : Net 32)
  | v6 (net : Net 128)

/-- No address is in a network of the other version. -/
def Network.contains : Network → Address → Bool
  | v4 net, .v4 x => net.contains x.value
  | v6 net, .v6 z => net.contains z.value
  | _, _ => false

def network4 (a b c d bits : Nat) : Network := .v4 ⟨((a * 256 + b) * 256 + c) * 256 + d, bits⟩

def BLOCKED_NETWORKS : List Network :=
  [network4 127 0 0 0 8, .v6 ⟨1, 128⟩, network4 0 0 0 0 8, network4 10 0 0 0 8,
    network4 172 16 0 0 12, network4 192 168 0 0 16, network4 169 254 0 0 16,
    .v6 ⟨0xfe80 * 2 ^ 112, 10⟩, .v6 ⟨0xfc00 * 2 ^ 112, 7⟩, network4 100 64 0 0 10]

def isBlockedIp (addr : String) : Bool :=
  match ipAddress addr with
  | none => true
  | some ip => BLOCKED_NETWORKS.any (·.contains ip)

/-- The members of `urlparse(url)` that are read. -/
structure ParseResult where
  scheme : String
  hostname : Option String

/-- `str.lower` and `_SSRF_ALLOWED_HOSTS`. -/
structure Settings where
  lower : String → String
  allowedHosts : List String

/-- The outcome is an error where the lookup raises one that is not caught. -/
def isPublicUrlSync (settings : Settings) (getaddrinfo : String → Answer)
    (parsed : Except String ParseResult) : Except String (Bool × Option String) :=
  match parsed with
  | .error exc => .ok (false, some ("URL parse error: " ++ exc))
  | .ok parsed =>
      let scheme := settings.lower parsed.scheme
      if scheme ≠ "http" ∧ scheme ≠ "https" then
        .ok (false, some
          ("Scheme '" ++ scheme ++ "' is not allowed; only http and https are permitted"))
      else
        let hostname := parsed.hostname.getD ""
        if hostname = "" then .ok (false, some "URL has no hostname")
        else if settings.lower hostname ∈ settings.allowedHosts then .ok (true, none)
        else match ipAddress hostname with
          | some _ =>
              if isBlockedIp hostname then
                .ok (false, some ("IP address '" ++ hostname ++ "' is in a restricted range"))
              else .ok (true, none)
          | none => match getaddrinfo hostname with
            | .unencodable => .error "UnicodeError"
            | .failed exc =>
                .ok (false, some ("DNS resolution failed for '" ++ hostname ++ "': " ++ exc))
            | .addresses found => match (found.map inetNtop).find? isBlockedIp with
              | some addr =>
                  .ok (false, some ("Hostname '" ++ hostname ++ "' resolves to '" ++ addr ++
                    "' which is in a restricted range"))
              | none => .ok (true, none)

/-! ### `validateUrl` -/

/-- The regular expressions of `RESTRICTED_IPS` that end in a separator, by what they match. -/
def restrictedStarts : List (List Char) :=
  ["127.".toList, "10.".toList] ++
    (List.range' 16 16).map (fun n => "172.".toList ++ decimalText n ++ ['.']) ++
    ["192.168.".toList, "169.254.".toList, "0.".toList, "fc00:".toList, "fe80:".toList]

def isRestrictedIP (ip : String) : Bool :=
  restrictedStarts.any (·.isPrefixOf ip.toList) || ip == "::1"

inductive Host where
  | v4 (address : V4)
  | v6 (address : V6)
  | name (text : String)

/-- `URL.hostname` -/
def Host.hostname : Host → String
  | v4 x => String.ofList x.text
  | v6 z => String.ofList ('[' :: [':'].intercalate z.parts ++ [']'])
  | name text => text

structure URL where
  protocol : String
  port : String
  host : Host

/-- `/^(\d{1,3}\.){3}\d{1,3}$/` -/
def isDottedDecimal (hostname : String) : Bool :=
  let parts := hostname.toList.splitOn '.'
  parts.length = 4 ∧ ∀ part ∈ parts, part.all Char.isDigit ∧ 1 ≤ part.length ∧ part.length ≤ 3

def validateUrl (lookup : String → Answer) (parsed : Option URL) : Except String URL :=
  match parsed with
  | none => .error "Invalid URL format"
  | some url =>
      let hostname := url.host.hostname
      if url.protocol ≠ "https:" ∧ url.protocol ≠ "http:" then .error "Protocol not allowed"
      else if url.port ≠ "" ∧ url.port ≠ "80" ∧ url.port ≠ "443" then .error "Port not allowed"
      else if (isDottedDecimal hostname ∨ ':' ∈ hostname.toList) ∧ isRestrictedIP hostname then
        .error "Restricted IP address"
      else match lookup hostname with
        | .addresses found =>
            if found.any fun a => isRestrictedIP (inetNtop a) then
              .error "Resolved to restricted IP address"
            else .ok url
        | _ => .error "DNS resolution failed"

/-- The lookup of an IPv6 address in brackets fails. -/
structure Resolver where
  lookup : String → Answer
  brackets : ∀ z found, lookup (Host.v6 z).hostname ≠ .addresses found

/-! ### Internal addresses -/

def Internal4 (x : V4) : Prop :=
  x.a.val = 0 ∨ x.a.val = 10 ∨ (x.a.val = 100 ∧ x.b.val / 64 = 1) ∨ x.a.val = 127 ∨
    (x.a.val = 169 ∧ x.b.val = 254) ∨ (x.a.val = 172 ∧ x.b.val / 16 = 1) ∨
    (x.a.val = 192 ∧ x.b.val = 168)

/-- Internal without an IPv4 address in it: `::1`, `fe80::/10` or `fc00::/7`. -/
def Internal6 (z : V6) : Prop :=
  z.groups = [0, 0, 0, 0, 0, 0, 0, 1] ∨ (z.groups.getD 0 0).val / 64 = 0xfe80 / 64 ∨
    (z.groups.getD 0 0).val / 512 = 0xfc00 / 512

def Internal : Address → Prop
  | .v4 x => Internal4 x
  | .v6 z => match z.mapped with
    | some x => Internal4 x
    | none => Internal6 z

/-- The host is the address or, if it is none, has it among its addresses. -/
def Reaches (lookup : String → Answer) (hostname : String) (a : Address) : Prop :=
  match ipAddress hostname with
  | some b => a = b
  | none => ∃ found, lookup hostname = .addresses found ∧ a ∈ found

def HostReaches (lookup : String → Answer) (host : Host) (a : Address) : Prop :=
  host = (match a with | .v4 x => .v4 x | .v6 z => .v6 z) ∨
    ∃ found, lookup host.hostname = .addresses found ∧ a ∈ found

/-- Neither guard lets a URL through that reaches the address if it is internal, and they judge the
address alike. -/
structure Guarded (a : Address) : Prop where
  agent : Internal a → ∀ settings getaddrinfo parsed, settings.allowedHosts = [] →
    Reaches getaddrinfo (parsed.hostname.getD "") a →
      isPublicUrlSync settings getaddrinfo (.ok parsed) ≠ .ok (true, none)
  web : Internal a → ∀ (resolver : Resolver) url, HostReaches resolver.lookup url.host a →
    validateUrl resolver.lookup (some url) ≠ .ok url
  agree : isBlockedIp (inetNtop a) = isRestrictedIP (inetNtop a)

/-- What is internal and one of the guards does not know. -/
def Missed : Address → Prop
  | .v4 x => x.a.val = 100 ∧ x.b.val / 64 = 1
  | .v6 z => match z.mapped with
    | some x => Internal4 x
    | none =>
        (z.groups.getD 0 0).val / 64 = 0xfe80 / 64 ∧ z.groups.getD 0 0 ≠ 0xfe80 ∨
          (z.groups.getD 0 0).val / 512 = 0xfc00 / 512 ∧ z.groups.getD 0 0 ≠ 0xfc00

variable {a : Address} {x : V4} {z : V6}

/-! ### The networks -/

theorem isBlockedIp_inetNtop (a : Address) :
    isBlockedIp (inetNtop a) = BLOCKED_NETWORKS.any (·.contains a) := by
  rw [isBlockedIp, ipAddress_inetNtop]

theorem contains_iff {width : Nat} (net : Net width) (value : Nat) : net.contains value = true ↔
    value / 2 ^ (width - net.bits) = net.base / 2 ^ (width - net.bits) :=
  decide_eq_true_iff

section Octets

variable {n m : Nat} (x : V4)

theorem contains_8 : (network4 n 0 0 0 8).contains (.v4 x) = true ↔ x.a.val = n := by
  simp only [network4, Network.contains, contains_iff, V4.value, V4.octets, List.foldl_cons,
    List.foldl_nil]
  omega

theorem contains_10 : (network4 n 64 0 0 10).contains (.v4 x) = true ↔
    x.a.val = n ∧ x.b.val / 64 = 1 := by
  simp only [network4, Network.contains, contains_iff, V4.value, V4.octets, List.foldl_cons,
    List.foldl_nil]
  omega

theorem contains_12 : (network4 n 16 0 0 12).contains (.v4 x) = true ↔
    x.a.val = n ∧ x.b.val / 16 = 1 := by
  simp only [network4, Network.contains, contains_iff, V4.value, V4.octets, List.foldl_cons,
    List.foldl_nil]
  omega

theorem contains_16 (octet : m < 256) : (network4 n m 0 0 16).contains (.v4 x) = true ↔
    x.a.val = n ∧ x.b.val = m := by
  simp only [network4, Network.contains, contains_iff, V4.value, V4.octets, List.foldl_cons,
    List.foldl_nil]
  omega

end Octets

theorem blocked4_iff (x : V4) : isBlockedIp (inetNtop (.v4 x)) = true ↔ Internal4 x := by
  have other (net : Net 128) : (Network.v6 net).contains (.v4 x) = false := rfl
  rw [isBlockedIp_inetNtop]
  simp only [BLOCKED_NETWORKS, List.any_cons, List.any_nil, Bool.or_eq_true, contains_8,
    contains_10, contains_12, contains_16 x (show 168 < 256 by decide), contains_16 x (show 254 < 256 by decide),
    other, Bool.false_eq_true, false_or, or_false, Internal4]
  tauto

theorem blocked6_iff (z : V6) : isBlockedIp (inetNtop (.v6 z)) = true ↔ Internal6 z := by
  obtain ⟨first, loopback⟩ := z.value_spec
  have other (a b c d bits : Nat) : (network4 a b c d bits).contains (.v6 z) = false := rfl
  have link : (Network.v6 ⟨0xfe80 * 2 ^ 112, 10⟩).contains (.v6 z) = true ↔
      z.value / 2 ^ 112 / 64 = 0xfe80 / 64 := by
    rw [Network.contains, contains_iff, Nat.div_div_eq_div_mul]
    exact Iff.rfl
  have unique : (Network.v6 ⟨0xfc00 * 2 ^ 112, 7⟩).contains (.v6 z) = true ↔
      z.value / 2 ^ 112 / 512 = 0xfc00 / 512 := by
    rw [Network.contains, contains_iff, Nat.div_div_eq_div_mul]
    exact Iff.rfl
  have whole : (Network.v6 ⟨1, 128⟩).contains (.v6 z) = true ↔ z.value = 1 := by
    rw [Network.contains, contains_iff, Nat.sub_self, Nat.pow_zero, Nat.div_one, Nat.div_one]
  rw [isBlockedIp_inetNtop, Internal6, ← loopback, ← first]
  simp only [BLOCKED_NETWORKS, List.any_cons, List.any_nil, Bool.or_eq_true, link, unique, whole,
    other, Bool.false_eq_true, false_or, or_false]

/-! ### The starts of texts -/

def octetStart (n : Nat) : List Char := decimalText n ++ '.' :: []

def octetsStart (p : Nat × Nat) : List Char :=
  decimalText p.1 ++ '.' :: (decimalText p.2 ++ '.' :: [])

def groupStart (n : Nat) : List Char := hexText n ++ ':' :: []

def restrictedPairs : List (Nat × Nat) :=
  (List.range' 16 16).map (fun n => (172, n)) ++ [(192, 168), (169, 254)]

theorem restrictedStarts_eq : restrictedStarts = [127, 10].map octetStart ++
    restrictedPairs.map octetsStart ++ [0].map octetStart ++ [0xfc00, 0xfe80].map groupStart := by
  decide

theorem isRestrictedIP_iff (text : List Char) : isRestrictedIP (String.ofList text) = true ↔
    (∃ n ∈ [127, 10], octetStart n <+: text) ∨ (∃ p ∈ restrictedPairs, octetsStart p <+: text) ∨
      octetStart 0 <+: text ∨ (∃ n ∈ [0xfc00, 0xfe80], groupStart n <+: text) ∨
        text = "::1".toList := by
  have same : String.ofList text = "::1" ↔ text = "::1".toList := by
    rw [← String.toList_inj, String.toList_ofList]
  simp only [isRestrictedIP, restrictedStarts_eq, Bool.or_eq_true, List.any_append, List.any_map,
    List.any_eq_true, Function.comp, List.isPrefixOf_iff_prefix, String.toList_ofList, beq_iff_eq,
    same, List.mem_cons, List.not_mem_nil, or_false, exists_eq_or_imp, exists_eq_left, or_assoc]

theorem decimal_free (n : Nat) : '.' ∉ decimalText n ∧ ':' ∉ decimalText n :=
  ⟨notMem_decimalText (.inl rfl), notMem_decimalText (.inr (.inl rfl))⟩

theorem decimal_dotFree (n : Nat) : '.' ∉ decimalText n ∧ '.' ∉ decimalText n :=
  ⟨(decimal_free n).1, (decimal_free n).1⟩

theorem hex_free (n : Nat) : '.' ∉ hexText n ∧ ':' ∉ hexText n :=
  ⟨notMem_hexText (.inl rfl), notMem_hexText (.inr (.inl rfl))⟩

theorem decimalText_injective {n m : Fin 256} (same : decimalText n = decimalText m) : n = m :=
  Option.some.inj ((parseOctet_decimalText n).symm.trans (same ▸ parseOctet_decimalText m))

theorem hexText_injective : Function.Injective hexText := fun n m same =>
  Option.some.inj ((hexValue_hexText n).symm.trans (same ▸ hexValue_hexText m))

theorem octetStart_iff (n : Fin 256) (x : V4) : octetStart n <+: x.text ↔ x.a = n := by
  rw [x.text_eq, octetStart, separated_prefix (decimal_dotFree _) (decimal_dotFree _)]
  refine ⟨fun starts => (decimalText_injective starts.1).symm, fun same => ?_⟩
  exact ⟨by rw [same], rfl, List.nil_prefix⟩

theorem octetsStart_iff (n m : Fin 256) (x : V4) :
    octetsStart (n, m) <+: x.text ↔ x.a = n ∧ x.b = m := by
  rw [x.text_eq, octetsStart, separated_prefix (decimal_dotFree _) (decimal_dotFree _),
    separated_prefix (decimal_dotFree _) (decimal_dotFree _)]
  constructor
  · rintro ⟨first, -, second, -⟩
    exact ⟨(decimalText_injective first).symm, (decimalText_injective second).symm⟩
  · rintro ⟨first, second⟩
    exact ⟨by rw [first], rfl, by rw [second], rfl, List.nil_prefix⟩

theorem groupStart_v4 (n : Nat) (x : V4) : ¬ groupStart n <+: x.text := by
  rw [x.text_eq, groupStart, separated_prefix (hex_free n).symm (decimal_free x.a).symm]
  rintro ⟨-, same, -⟩
  exact absurd same (by decide)

/-- The start of an IPv6 address ends in a colon. -/
theorem dotted_v6 {first rest : List Char} (free : '.' ∉ first ∧ ':' ∉ first) (z : V6) :
    ¬ first ++ '.' :: rest <+: z.text := by
  obtain ⟨start, text, whole, hex⟩ := z.text_eq
  have freeStart : '.' ∉ start ∧ ':' ∉ start := by
    rcases hex with rfl | ⟨rfl, -⟩
    · exact hex_free _
    · simp
  rw [whole, separated_prefix free freeStart]
  rintro ⟨-, same, -⟩
  exact absurd same (by decide)

theorem groupStart_iff {n : Fin 65536} (positive : n ≠ 0) (z : V6) :
    groupStart n <+: z.text ↔ z.groups.getD 0 0 = n := by
  obtain ⟨start, text, whole, hex⟩ := z.text_eq
  have freeStart : ':' ∉ start := by
    rcases hex with rfl | ⟨rfl, -⟩
    · exact (hex_free _).2
    · simp
  rw [whole, groupStart,
    separated_prefix ⟨(hex_free _).2, (hex_free _).2⟩ ⟨freeStart, freeStart⟩]
  constructor
  · rintro ⟨same, -⟩
    rcases hex with rfl | ⟨rfl, -⟩
    · exact Fin.ext (hexText_injective same).symm
    · exact absurd same hexText_ne_nil
  · intro same
    rcases hex with rfl | ⟨-, zero⟩
    · exact ⟨by rw [same], rfl, List.nil_prefix⟩
    · exact absurd (same.symm.trans zero) positive

def loopback : V6 := ⟨[0, 0, 0, 0, 0, 0, 0, 1], rfl⟩

theorem text_loopback_iff (a : Address) : inetNtop a = "::1" ↔ a = .v6 loopback := by
  have written : inetNtop (.v6 loopback) = "::1" := by decide
  rw [← written]
  exact inetNtop_injective.eq_iff

/-! ### What the texts tell -/

theorem mem_restrictedPairs {p : Nat × Nat} : p ∈ restrictedPairs ↔
    p.1 = 172 ∧ p.2 / 16 = 1 ∨ p = (192, 168) ∨ p = (169, 254) := by
  obtain ⟨n, m⟩ := p
  simp only [restrictedPairs, List.mem_append, List.mem_map, List.mem_range', List.mem_cons,
    List.not_mem_nil, or_false, Prod.mk.injEq]
  refine or_congr_left ⟨?_, ?_⟩
  · rintro ⟨_, ⟨i, small, rfl⟩, rfl, rfl⟩
    omega
  · rintro ⟨rfl, near⟩
    exact ⟨m, ⟨m - 16, by omega, by omega⟩, rfl, rfl⟩

/-- What the regular expressions find of the IPv4 addresses. -/
theorem restricted4_iff (x : V4) : isRestrictedIP (inetNtop (.v4 x)) = true ↔
    Internal4 x ∧ ¬ (x.a.val = 100 ∧ x.b.val / 64 = 1) := by
  have single (n : Fin 256) : octetStart n <+: x.text ↔ x.a.val = n.val :=
    (octetStart_iff n x).trans Fin.ext_iff
  have pair : (∃ p ∈ restrictedPairs, octetsStart p <+: x.text) ↔
      x.a.val = 172 ∧ x.b.val / 16 = 1 ∨ x.a.val = 192 ∧ x.b.val = 168 ∨
        x.a.val = 169 ∧ x.b.val = 254 := by
    constructor
    · rintro ⟨⟨n, m⟩, mem, starts⟩
      rw [mem_restrictedPairs, Prod.mk.injEq, Prod.mk.injEq] at mem
      have small : n < 256 ∧ m < 256 := by dsimp only at mem; omega
      have same := (octetsStart_iff ⟨n, small.1⟩ ⟨m, small.2⟩ x).1 starts
      rw [same.1, same.2]
      exact mem
    · intro mem
      refine ⟨(x.a.val, x.b.val), ?_, (octetsStart_iff x.a x.b x).2 ⟨rfl, rfl⟩⟩
      rw [mem_restrictedPairs, Prod.mk.injEq, Prod.mk.injEq]
      exact mem
  have other : x.text ≠ "::1".toList := fun same => by
    have read := (text_loopback_iff (.v4 x)).1 (by rw [inetNtop, same, String.ofList_toList])
    cases read
  have ten := single 10
  have local' := single 127
  have zero := single 0
  rw [inetNtop, isRestrictedIP_iff, pair]
  simp only [List.mem_cons, List.not_mem_nil, or_false, exists_eq_or_imp, exists_eq_left,
    groupStart_v4, other]
  rw [show octetStart 127 <+: x.text ↔ x.a.val = 127 from local',
    show octetStart 10 <+: x.text ↔ x.a.val = 10 from ten,
    show octetStart 0 <+: x.text ↔ x.a.val = 0 from zero]
  unfold Internal4
  generalize x.a.val = a, x.b.val = b
  constructor
  · rintro ((same | same) | (same | same | same) | same) <;> exact ⟨by simp [same], by omega⟩
  · rintro ⟨same | same | same | same | same | same | same, known⟩
    · exact .inr (.inr same)
    · exact .inl (.inr same)
    · exact absurd same known
    · exact .inl (.inl same)
    · exact .inr (.inl (.inr (.inr same)))
    · exact .inr (.inl (.inl same))
    · exact .inr (.inl (.inr (.inl same)))

theorem restricted6_iff (z : V6) : isRestrictedIP (inetNtop (.v6 z)) = true ↔
    z = loopback ∨ (z.groups.getD 0 0).val = 0xfc00 ∨ (z.groups.getD 0 0).val = 0xfe80 := by
  have group (n : Fin 65536) (positive : n ≠ 0) :
      groupStart n <+: z.text ↔ (z.groups.getD 0 0).val = n.val :=
    (groupStart_iff positive z).trans Fin.ext_iff
  have whole : z.text = "::1".toList ↔ z = loopback := by
    rw [← Address.v6.injEq, ← text_loopback_iff, inetNtop, ← String.toList_inj]
    exact iff_of_eq (congrArg (· = "::1".toList) String.toList_ofList.symm)
  have single (n : Nat) : ¬ octetStart n <+: z.text := dotted_v6 (decimal_free n) z
  have pair (p : Nat × Nat) : ¬ octetsStart p <+: z.text := dotted_v6 (decimal_free p.1) z
  rw [inetNtop, isRestrictedIP_iff]
  simp only [List.mem_cons, List.not_mem_nil, or_false, exists_eq_or_imp, exists_eq_left, single,
    pair, and_false, exists_false, false_or, whole]
  rw [show groupStart 0xfc00 <+: z.text ↔ (z.groups.getD 0 0).val = 0xfc00 from
      group 0xfc00 (by decide),
    show groupStart 0xfe80 <+: z.text ↔ (z.groups.getD 0 0).val = 0xfe80 from
      group 0xfe80 (by decide)]
  tauto

/-! ### What the guards let through -/

theorem accepted_agent {settings : Settings} {getaddrinfo : String → Answer} {parsed : ParseResult}
    (accepted : isPublicUrlSync settings getaddrinfo (.ok parsed) = .ok (true, none))
    (strict : settings.allowedHosts = [])
    (reaches : Reaches getaddrinfo (parsed.hostname.getD "") a) :
    isBlockedIp (inetNtop a) = false := by
  simp only [isPublicUrlSync, strict, List.not_mem_nil, if_false] at accepted
  split at accepted
  · simp at accepted
  split at accepted
  · simp at accepted
  unfold Reaches at reaches
  cases literal : ipAddress (parsed.hostname.getD "") with
  | some b =>
      simp only [literal, isBlockedIp] at accepted reaches
      subst reaches
      rw [isBlockedIp_inetNtop]
      split at accepted
      · simp at accepted
      · rename_i outside
        exact Bool.eq_false_iff.2 outside
  | none =>
      simp only [literal] at accepted reaches
      obtain ⟨found, answered, mem⟩ := reaches
      rw [answered] at accepted
      dsimp only at accepted
      split at accepted
      · simp at accepted
      · rename_i outside
        exact Bool.eq_false_iff.2 (List.find?_eq_none.1 outside _ (List.mem_map_of_mem mem))

theorem isDottedDecimal_text (x : V4) : isDottedDecimal (String.ofList x.text) = true := by
  have digits : ∀ n : Fin 256, (decimalText n).all Char.isDigit = true ∧
      1 ≤ (decimalText n).length ∧ (decimalText n).length ≤ 3 := by
    decide +kernel
  rw [isDottedDecimal, String.toList_ofList, x.splitOn_text, decide_eq_true_eq]
  refine ⟨rfl, fun part mem => ?_⟩
  obtain ⟨octet, -, rfl⟩ := List.mem_map.1 mem
  exact digits octet

theorem accepted_web {resolver : Resolver} {url : URL}
    (accepted : validateUrl resolver.lookup (some url) = .ok url)
    (reaches : HostReaches resolver.lookup url.host a) : isRestrictedIP (inetNtop a) = false := by
  simp only [validateUrl] at accepted
  split at accepted
  · simp at accepted
  split at accepted
  · simp at accepted
  split at accepted
  · simp at accepted
  rename_i named
  rcases reaches with host | ⟨found, answered, mem⟩
  · cases a with
    | v4 x =>
        rw [host] at named
        exact Bool.eq_false_iff.2 fun restricted =>
          named ⟨.inl (isDottedDecimal_text x), restricted⟩
    | v6 z =>
        split at accepted
        · rename_i found answered
          rw [host] at answered
          exact absurd answered (resolver.brackets z found)
        · simp at accepted
  · rw [answered] at accepted
    dsimp only at accepted
    split at accepted
    · simp at accepted
    · rename_i outside
      exact Bool.eq_false_iff.2 fun restricted => outside (List.any_eq_true.2 ⟨a, mem, restricted⟩)

/-- A host with one address. -/
def answerWith (a : Address) : Resolver where
  lookup hostname := if hostname = "internal.example" then .addresses [a] else .failed "ENOTFOUND"
  brackets z found := by
    have other : (Host.v6 z).hostname ≠ "internal.example" := fun same => by
      have first := congrArg (fun s : String => s.toList.head?) same
      simp [Host.hostname] at first
    rw [if_neg other]
    exact Answer.noConfusion

theorem plain_name : ipAddress "internal.example" = none ∧
    isRestrictedIP "internal.example" = false := by
  decide

theorem agent_reaches (open' : isBlockedIp (inetNtop a) = false) :
    isPublicUrlSync ⟨id, []⟩ (answerWith a).lookup (.ok ⟨"http", some "internal.example"⟩) =
      .ok (true, none) := by
  simp [isPublicUrlSync, plain_name.1, answerWith, open']

theorem web_reaches (open' : isRestrictedIP (inetNtop a) = false) :
    validateUrl (answerWith a).lookup (some ⟨"https:", "", .name "internal.example"⟩) =
      .ok ⟨"https:", "", .name "internal.example"⟩ := by
  simp [validateUrl, Host.hostname, plain_name.2, answerWith, open']

/-! ### Which addresses are guarded -/

theorem guarded_iff_rejected (a : Address) : Guarded a ↔
    (Internal a → isBlockedIp (inetNtop a) = true) ∧
      isBlockedIp (inetNtop a) = isRestrictedIP (inetNtop a) := by
  constructor
  · intro guarded
    refine ⟨fun internal => ?_, guarded.agree⟩
    by_contra open'
    refine guarded.agent internal _ _ _ rfl ?_ (agent_reaches (Bool.eq_false_iff.2 open'))
    simp [Reaches, plain_name.1, answerWith]
  · rintro ⟨blocked, agree⟩
    exact {
      agent := fun internal settings getaddrinfo parsed strict reaches accepted =>
        absurd (blocked internal) (Bool.eq_false_iff.1 (accepted_agent accepted strict reaches))
      web := fun internal resolver url reaches accepted =>
        absurd (agree ▸ blocked internal) (Bool.eq_false_iff.1 (accepted_web accepted reaches))
      agree := agree }

theorem eq_loopback_iff (z : V6) : z = loopback ↔ z.groups = [0, 0, 0, 0, 0, 0, 0, 1] := by
  obtain ⟨groups, length⟩ := z
  simp [loopback]

theorem mapped_start (mapped : z.mapped = some x) :
    (z.groups.getD 0 0).val = 0 ∧ z.groups ≠ [0, 0, 0, 0, 0, 0, 0, 1] := by
  obtain ⟨g₀, g₁, g₂, g₃, g₄, g₅, g₆, g₇, groups⟩ := z.exists_groups
  rw [V6.mapped, groups] at mapped
  split_ifs at mapped with start
  simp only [List.take_succ_cons, List.take_zero, List.cons.injEq, and_true] at start
  obtain ⟨rfl, -, -, -, -, rfl⟩ := start
  rw [groups]
  exact ⟨rfl, by simp⟩

theorem guarded_iff (a : Address) : Guarded a ↔ ¬ Missed a := by
  rw [guarded_iff_rejected, Bool.eq_iff_iff (b := isRestrictedIP (inetNtop a))]
  cases a with
  | v4 x =>
      rw [blocked4_iff, restricted4_iff]
      simp only [Internal, Missed]
      constructor
      · intro ⟨_, same⟩ shared
        exact (same.1 (.inr (.inr (.inl shared)))).2 shared
      · intro known
        exact ⟨id, fun inside => ⟨inside, known⟩, And.left⟩
  | v6 z =>
      rw [blocked6_iff, restricted6_iff, eq_loopback_iff]
      cases mapped : z.mapped with
      | some x =>
          obtain ⟨start, other⟩ := mapped_start mapped
          have outside : ¬ Internal6 z := by
            rintro (same | link | unique)
            · exact other same
            · rw [start] at link
              cases link
            · rw [start] at unique
              cases unique
          simp only [Internal, Missed, mapped, outside, start, other]
          simp
      | none =>
          have start : z.groups = [0, 0, 0, 0, 0, 0, 0, 1] → (z.groups.getD 0 0).val = 0 := by
            intro same
            rw [same]
            rfl
          simp only [Internal, Missed, mapped, Internal6, ne_eq, Fin.ext_iff]
          rw [show ((0xfe80 : Fin 65536) : Nat) = 0xfe80 from rfl,
            show ((0xfc00 : Fin 65536) : Nat) = 0xfc00 from rfl]
          generalize (z.groups.getD 0 0).val = g at *
          constructor
          · rintro ⟨-, same⟩ missed
            have inside := same.1 (missed.elim (fun m => .inr (.inl m.1)) fun m => .inr (.inr m.1))
            rcases inside with loop | ends
            · have zero := start loop
              omega
            · omega
          · intro known
            refine ⟨id, fun inside => ?_, fun ends => ?_⟩
            · rcases inside with loop | inside
              · exact .inl loop
              · exact .inr (by omega)
            · rcases ends with loop | ends
              · exact .inl loop
              · exact .inr (by omega)

/-- The metadata service as an IPv4-mapped address passes both guards, and `fd00::1` one of
them. -/
theorem metadata_accepted :
    (∃ z : V6, z.text = "::ffff:169.254.169.254".toList ∧ Internal (.v6 z) ∧
      isPublicUrlSync ⟨id, []⟩ (answerWith (.v6 z)).lookup (.ok ⟨"http", some "internal.example"⟩) =
        .ok (true, none) ∧
      validateUrl (answerWith (.v6 z)).lookup (some ⟨"https:", "", .name "internal.example"⟩) =
        .ok ⟨"https:", "", .name "internal.example"⟩) ∧
      ∃ z : V6, z.text = "fd00::1".toList ∧ isBlockedIp (inetNtop (.v6 z)) = true ∧
        isRestrictedIP (inetNtop (.v6 z)) = false := by
  refine ⟨⟨⟨[0, 0, 0, 0, 0, 0xffff, 0xa9fe, 0xa9fe], rfl⟩, by decide, ?_,
    agent_reaches (by decide), web_reaches (by decide)⟩,
    ⟨[0xfd00, 0, 0, 0, 0, 0, 0, 1], rfl⟩, by decide, by decide, by decide⟩
  simp only [Internal, V6.mapped, List.take_succ_cons, List.take_zero, if_true]
  exact .inr (.inr (.inr (.inr (.inl ⟨rfl, rfl⟩))))

end Talos.UrlGuards
