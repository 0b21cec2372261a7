/-
Which hosts a target URL can have that passes the SSRF check.  A host is a name
or an address, and the check sees its text only: an IPv6 address in brackets is
not read as an address, and a name is compared with its root dot.
-/
import X402Guard.ProxySystem

namespace X402Guard

/-- `url::Host`. -/
inductive Host
  | domain (name : String)
  | ipv4 (address : BitVec 32)
  | ipv6 (address : BitVec 128)
deriving DecidableEq

/-- The `Display` form of an IPv4 address. -/
def formatIpv4 (address : BitVec 32) : String :=
  s!"{octet address 0}.{octet address 1}.{octet address 2}.{octet address 3}"

/-- What the URL parser and the standard library make of hosts. -/
structure HostFormat where
  /-- `Url::host`, of the URL that the text parses to. -/
  host? : String → Option Host
  /-- The `Display` form of an IPv6 address. -/
  formatIpv6 : BitVec 128 → String

/-- The text of a host: an IPv6 address is in brackets. -/
def HostFormat.hostStr (format : HostFormat) : Host → String
  | .domain name => name
  | .ipv4 address => formatIpv4 address
  | .ipv6 address => "[" ++ format.formatIpv6 address ++ "]"

/-- What the two document of hosts. -/
structure HostFormat.Documented (format : HostFormat) (ext : Externals) :
    Prop where
  /-- `Url::host_str` is the text of `Url::host`. -/
  host_eq : ∀ text url, ext.parseUrl text = some url →
    url.host = (format.host? text).map format.hostStr
  /-- The names of web URLs are lower-cased. -/
  lowercase : ∀ text url name, ext.parseUrl text = some url →
    url.scheme = "https" → format.host? text = some (.domain name) →
    name.toLower = name
  /-- `IpAddr` reads dotted decimal. -/
  parse_ipv4 : ∀ address,
    ext.parseIpAddr (formatIpv4 address) = some (.v4 address)
  /-- `IpAddr` reads no brackets. -/
  parse_bracketed : ∀ text, ext.parseIpAddr ("[" ++ text ++ "]") = none
  /-- No address ends with a dot. -/
  parse_rooted : ∀ text, ext.parseIpAddr (text ++ ".") = none

/-- `localhost`, `.local` and `.internal`. -/
def isReservedName (name : String) : Bool :=
  name = "localhost" || name.endsWith ".local" || name.endsWith ".internal"

/-- The name without the dot of the root. -/
def withoutRootDot (name : String) : String :=
  if name.endsWith "." then String.ofList name.toList.dropLast else name

/-- The host is neither a reserved name, with its root dot or without, nor a
private address. -/
def Host.IsPublic : Host → Prop
  | .domain name => isReservedName (withoutRootDot name.toLower) = false
  | .ipv4 address => isPrivateIp (.v4 address) = false
  | .ipv6 address => isPrivateIp (.v6 address) = false

/-- The hosts that the check does not see through: a reserved name with its root
dot, and a private IPv6 address. -/
def Host.EscapesCheck : Host → Prop
  | .domain name =>
      name.endsWith "." = true ∧ isReservedName (withoutRootDot name) = true
  | .ipv4 _ => False
  | .ipv6 address => isPrivateIp (.v6 address) = true

instance (host : Host) : Decidable host.IsPublic :=
  match host with
  | .domain _ | .ipv4 _ | .ipv6 _ => inferInstanceAs (Decidable (_ = false))

instance (host : Host) : Decidable host.EscapesCheck :=
  match host with
  | .domain _ => inferInstanceAs (Decidable (_ ∧ _))
  | .ipv4 _ => inferInstanceAs (Decidable False)
  | .ipv6 _ => inferInstanceAs (Decidable (_ = true))

/-- The text is an HTTPS URL without credentials. -/
def IsPlainHttps (ext : Externals) (text : String) : Prop :=
  ∃ url, ext.parseUrl text = some url ∧ url.scheme = "https" ∧
    url.username = "" ∧ url.password = none

/-- The target is what the SSRF check is there to ensure. -/
def IsPublicTarget (ext : Externals) (format : HostFormat) (text : String) :
    Prop :=
  IsPlainHttps ext text ∧
    ∃ host, format.host? text = some host ∧ host.IsPublic

/-- The text of the host passes the check. -/
def PassesHostCheck (ext : Externals) (host : String) : Prop :=
  isReservedName host = false ∧
    ∀ address, ext.parseIpAddr host = some address →
      isPrivateIp address = false

variable {ext : Externals} {format : HostFormat} {text : String}

theorem passesHostCheck_iff {host : String} :
    PassesHostCheck ext host ↔
      ¬ (host = "localhost" ∨ host.endsWith ".local" ∨
        host.endsWith ".internal") ∧
      ¬ (ext.parseIpAddr host).any isPrivateIp := by
  cases hparse : ext.parseIpAddr host <;>
    simp [PassesHostCheck, isReservedName, hparse, and_assoc]

theorem validateTargetUrl_eq_ok_iff :
    validateTargetUrl ext text = .ok () ↔
      text.utf8ByteSize ≤ maxUrlLen ∧ ∃ url,
        ext.parseUrl text = some url ∧ url.scheme = "https" ∧
        (url.username = "" ∧ url.password = none) ∧
        ∃ host, url.host = some host ∧ PassesHostCheck ext host := by
  simp only [validateTargetUrl, except_bind_eq_ok, rejectIf_eq_ok_iff,
    okOr_eq_ok_iff, exists_const, not_lt, passesHostCheck_iff]
  simp only [not_or, ne_eq, not_not, Option.not_isSome_iff_eq_none]

namespace HostFormat.Documented

/-- An accepted target is a plain URL whose host passes the check. -/
theorem accepted_iff (hdoc : format.Documented ext) :
    validateTargetUrl ext text = .ok () ↔
      text.utf8ByteSize ≤ maxUrlLen ∧ IsPlainHttps ext text ∧
      ∃ host, format.host? text = some host ∧
        PassesHostCheck ext (format.hostStr host) := by
  rw [validateTargetUrl_eq_ok_iff]
  constructor
  · rintro ⟨hlen, url, hparse, hscheme, hcredentials, name, hname, hpasses⟩
    rw [hdoc.host_eq text url hparse, Option.map_eq_some_iff] at hname
    obtain ⟨host, hhost, rfl⟩ := hname
    exact ⟨hlen, ⟨url, hparse, hscheme, hcredentials⟩, host, hhost, hpasses⟩
  · rintro ⟨hlen, ⟨url, hparse, hscheme, hcredentials⟩, host, hhost, hpasses⟩
    refine ⟨hlen, url, hparse, hscheme, hcredentials, _, ?_, hpasses⟩
    rw [hdoc.host_eq text url hparse, hhost, Option.map_some]

theorem toLower_eq (hdoc : format.Documented ext)
    (hplain : IsPlainHttps ext text) {host : Host}
    (hhost : format.host? text = some host) (name : String)
    (hname : host = .domain name) : name.toLower = name := by
  obtain ⟨url, hparse, hscheme, -⟩ := hplain
  exact hdoc.lowercase text url name hparse hscheme (hname ▸ hhost)

end HostFormat.Documented

theorem endsWith_iff {name suffix : String} :
    name.endsWith suffix = true ↔ suffix.toList <:+ name.toList := by
  change name.toSlice.endsWith suffix = true ↔ _
  rw [String.Slice.endsWith_string_iff, String.copy_toSlice]

/-- A reserved name ends with a letter. -/
theorem isReservedName_of_last {name : String} {c : Char}
    (hlast : name.toList.getLast? = some c) (hc : c.isAlpha = false) :
    isReservedName name = false := by
  have hsuffix : ∀ suffix : String, suffix.toList <:+ name.toList →
      ∀ d ∈ suffix.toList.getLast?, d.isAlpha = false := by
    rintro suffix ⟨front, hfront⟩ d hd
    rw [← hfront, List.getLast?_append, hd] at hlast
    cases hlast
    exact hc
  rw [← Bool.not_eq_true]
  simp only [isReservedName, Bool.or_eq_true, decide_eq_true_eq, endsWith_iff]
  rintro ((rfl | h) | h)
  · exact absurd (hsuffix "localhost" List.suffix_rfl 't' rfl) (by decide)
  · exact absurd (hsuffix ".local" h 'l' rfl) (by decide)
  · exact absurd (hsuffix ".internal" h 'l' rfl) (by decide)

/-- A host that escapes the check passes it. -/
theorem Host.EscapesCheck.passes {host : Host} (h : host.EscapesCheck)
    (hdoc : format.Documented ext) :
    PassesHostCheck ext (format.hostStr host) := by
  cases host with
  | domain name =>
      obtain ⟨front, hfront⟩ := endsWith_iff.mp h.1
      have hname : name = String.ofList front ++ "." := by
        rw [← String.toList_inj, String.toList_append, String.toList_ofList]
        exact hfront.symm
      refine ⟨isReservedName_of_last (c := '.') ?_ (by decide), ?_⟩
      · rw [HostFormat.hostStr, ← hfront]
        exact List.getLast?_concat
      · simp [HostFormat.hostStr, hname, hdoc.parse_rooted]
  | ipv4 address => exact h.elim
  | ipv6 address =>
      refine ⟨isReservedName_of_last (c := ']') ?_ (by decide), ?_⟩
      · rw [HostFormat.hostStr, String.toList_append]
        exact List.getLast?_concat
      · simp [HostFormat.hostStr, hdoc.parse_bracketed]

/-- Of the hosts that pass the check the others are public. -/
theorem PassesHostCheck.isPublic_iff {host : Host}
    (hpasses : PassesHostCheck ext (format.hostStr host))
    (hdoc : format.Documented ext)
    (hlower : ∀ name, host = .domain name → name.toLower = name) :
    host.IsPublic ↔ ¬ host.EscapesCheck := by
  cases host with
  | domain name =>
      rw [Host.IsPublic, Host.EscapesCheck, hlower name rfl]
      by_cases hdot : name.endsWith "." = true
      · simp [hdot]
      · simp [hdot, withoutRootDot]
        exact hpasses.1
  | ipv4 address =>
      have hpublic := hpasses.2 _ (hdoc.parse_ipv4 address)
      simp [Host.IsPublic, Host.EscapesCheck, hpublic]
  | ipv6 address => simp [Host.IsPublic, Host.EscapesCheck]

/-- Exactly the targets whose host escapes the check are accepted without being
public. -/
theorem public_of_accepted_iff (hdoc : format.Documented ext) :
    (validateTargetUrl ext text = .ok () → IsPublicTarget ext format text) ↔
      (text.utf8ByteSize ≤ maxUrlLen → IsPlainHttps ext text →
        ∀ host, format.host? text = some host → ¬ host.EscapesCheck) := by
  rw [hdoc.accepted_iff]
  constructor
  · intro hpublic hlen hplain host hhost hescapes
    have hpasses := hescapes.passes hdoc
    obtain ⟨-, host', hhost', hispublic⟩ :=
      hpublic ⟨hlen, hplain, host, hhost, hpasses⟩
    rw [hhost] at hhost'
    cases hhost'
    exact (hpasses.isPublic_iff hdoc (hdoc.toLower_eq hplain hhost)).mp
      hispublic hescapes
  · rintro hnone ⟨hlen, hplain, host, hhost, hpasses⟩
    refine ⟨hplain, host, hhost, ?_⟩
    exact (hpasses.isPublic_iff hdoc (hdoc.toLower_eq hplain hhost)).mpr
      (hnone hlen hplain host hhost)

namespace HostSample

/-- The address of four decimal numbers. -/
def addressOf (text : String) : BitVec 32 :=
  BitVec.ofNat 32 ((text.toList.splitOn '.').foldl
    (fun acc digits => 256 * acc + Nat.ofDigitChars 10 digits 0) 0)

/-- Reads dotted decimal as the standard library does: no leading zeros and
nothing else. -/
def parseIpv4 (text : String) : Option IpAddr :=
  if formatIpv4 (addressOf text) = text then some (.v4 (addressOf text))
  else none

def loopbackUrl : String := "https://[::1]/"

/-- The third-party functions, on a URL with a name and one with an address. -/
def externals : Externals :=
  { Sample.externals with
    parseUrl := fun text =>
      if text = loopbackUrl then
        some ⟨"https", "", none, some "[::1]", none, "/"⟩
      else Sample.externals.parseUrl text
    parseIpAddr := parseIpv4 }

def hostFormat : HostFormat where
  host? text :=
    if text = loopbackUrl then some (.ipv6 1)
    else some (.domain "api.example.com")
  formatIpv6 _ := "::1"

theorem toList_formatIpv4 (address : BitVec 32) :
    (formatIpv4 address).toList = ['.'].intercalate
      [Nat.toDigits 10 (octet address 0), Nat.toDigits 10 (octet address 1),
        Nat.toDigits 10 (octet address 2), Nat.toDigits 10 (octet address 3)] := by
  simp only [formatIpv4, String.toList_append, toList_toString]
  simp [toString]

theorem dot_not_mem_digits (n : ℕ) : '.' ∉ Nat.toDigits 10 n :=
  not_mem_digits (by decide) n

theorem octets_eq (address : BitVec 32) :
    256 * (256 * (256 * (256 * 0 + octet address 0) + octet address 1) +
      octet address 2) + octet address 3 = address.toNat := by
  have hlt := address.isLt
  simp only [octet, BitVec.toNat_ushiftRight, Nat.shiftRight_eq_div_pow]
  omega

theorem addressOf_formatIpv4 (address : BitVec 32) :
    addressOf (formatIpv4 address) = address := by
  have hsplit : (formatIpv4 address).toList.splitOn '.' =
      [Nat.toDigits 10 (octet address 0), Nat.toDigits 10 (octet address 1),
        Nat.toDigits 10 (octet address 2),
        Nat.toDigits 10 (octet address 3)] := by
    rw [toList_formatIpv4, List.splitOn_intercalate _ _ (by simp)]
    simp [dot_not_mem_digits]
  simp only [addressOf, hsplit, List.foldl_cons, List.foldl_nil,
    Nat.ofDigitChars_ten_toDigits, octets_eq, BitVec.ofNat_toNat,
    BitVec.setWidth_eq]

/-- An address in dotted decimal ends with a digit. -/
theorem formatIpv4_last {address : BitVec 32} {c : Char}
    (hlast : (formatIpv4 address).toList.getLast? = some c) :
    c.isDigit = true := by
  have hne : Nat.toDigits 10 (octet address 3) ≠ [] := Nat.toDigits_ne_nil
  have hd := List.getLast?_eq_some_getLast hne
  have hmem := List.getLast_mem hne
  rw [toList_formatIpv4] at hlast
  simp only [List.intercalate_cons_cons, List.intercalate_singleton,
    List.getLast?_append, hd, Option.some_or, Option.some.injEq] at hlast
  rw [hlast] at hmem
  exact Nat.isDigit_of_mem_toDigits (by decide) (by decide) hmem

theorem parseIpv4_eq_none {text : String} {c : Char}
    (hlast : text.toList.getLast? = some c) (hc : c.isDigit = false) :
    parseIpv4 text = none := by
  rw [parseIpv4, if_neg]
  intro h
  rw [← h] at hlast
  simp [formatIpv4_last hlast] at hc

theorem externals_parseIpAddr (text : String) :
    externals.parseIpAddr text = parseIpv4 text := rfl

theorem documented : hostFormat.Documented externals where
  host_eq text url hparse := by
    simp only [externals, hostFormat, Sample.externals] at hparse ⊢
    split at hparse
    · cases hparse
      simp [*, HostFormat.hostStr]
    · split at hparse
      · cases hparse
        rw [if_neg ‹_›]
        rfl
      · cases hparse
  lowercase text url name _ _ hhost := by
    simp only [hostFormat] at hhost
    split at hhost
    · cases hhost
    · cases hhost
      decide +kernel
  parse_ipv4 address := by
    simp [externals_parseIpAddr, parseIpv4, addressOf_formatIpv4]
  parse_bracketed text := by
    rw [externals_parseIpAddr]
    refine parseIpv4_eq_none (c := ']') ?_ (by decide)
    rw [String.toList_append]
    exact List.getLast?_concat
  parse_rooted text := by
    rw [externals_parseIpAddr]
    refine parseIpv4_eq_none (c := '.') ?_ (by decide)
    rw [String.toList_append]
    exact List.getLast?_concat

end HostSample

theorem not_public_of_accepted :
    ¬ ∀ (ext : Externals) (format : HostFormat) (text : String),
      format.Documented ext → validateTargetUrl ext text = .ok () →
      IsPublicTarget ext format text := by
  intro h
  obtain ⟨-, host, hhost, hpublic⟩ :=
    h _ _ HostSample.loopbackUrl HostSample.documented (by decide)
  cases hhost
  exact absurd hpublic (by decide)

theorem public_of_accepted_sample :
    IsPublicTarget HostSample.externals HostSample.hostFormat Sample.url := by
  have hurl : Sample.url ≠ HostSample.loopbackUrl := by decide
  refine (public_of_accepted_iff HostSample.documented).mpr ?_
    (by decide +kernel)
  intro _ _ host hhost
  have hhost' : host = .domain "api.example.com" := by
    simpa [HostSample.hostFormat, hurl] using hhost.symm
  subst hhost'
  decide +kernel

end X402Guard
