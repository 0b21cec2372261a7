/-
The ranges of addresses that no request may be forwarded to, as network
prefixes.  The check compares octets and segments: for IPv4, mapped or not, it
accepts the documented prefixes exactly, for IPv6 it leaves three of them out.
-/
import Mathlib.Data.List.Basic
import X402Guard.UrlChecks

namespace X402Guard

/-- The addresses that agree with `network` in the first `len` bits. -/
structure NetworkPrefix (width : ℕ) where
  network : BitVec width
  len : ℕ

namespace NetworkPrefix

variable {width : ℕ} {range : NetworkPrefix width} {address : BitVec width}

def Contains (range : NetworkPrefix width) (address : BitVec width) : Prop :=
  address >>> (width - range.len) = range.network >>> (width - range.len)

instance : Decidable (range.Contains address) :=
  inferInstanceAs (Decidable (_ = _))

/-- One of the ranges contains the address. -/
def AnyContains (ranges : List (NetworkPrefix width))
    (address : BitVec width) : Prop :=
  ∃ range ∈ ranges, range.Contains address

instance {ranges : List (NetworkPrefix width)} :
    Decidable (AnyContains ranges address) :=
  inferInstanceAs (Decidable (∃ range ∈ ranges, range.Contains address))

theorem contains_iff_div : range.Contains address ↔
    address.toNat / 2 ^ (width - range.len) =
      range.network.toNat / 2 ^ (width - range.len) := by
  rw [Contains, ← BitVec.toNat_inj, BitVec.toNat_ushiftRight,
    BitVec.toNat_ushiftRight, Nat.shiftRight_eq_div_pow,
    Nat.shiftRight_eq_div_pow]

end NetworkPrefix

open NetworkPrefix

/-! ### IPv4 -/

def loopback : NetworkPrefix 32 := ⟨0x7f000000, 8⟩

/-- RFC 1918. -/
def privateUse : List (NetworkPrefix 32) :=
  [⟨0x0a000000, 8⟩, ⟨0xac100000, 12⟩, ⟨0xc0a80000, 16⟩]

def linkLocal : NetworkPrefix 32 := ⟨0xa9fe0000, 16⟩

def broadcast : NetworkPrefix 32 := ⟨0xffffffff, 32⟩

def unspecified : NetworkPrefix 32 := ⟨0, 32⟩

def documentation : List (NetworkPrefix 32) :=
  [⟨0xc0000200, 24⟩, ⟨0xc6336400, 24⟩, ⟨0xcb007100, 24⟩]

/-- CGNAT. -/
def sharedSpace : NetworkPrefix 32 := ⟨0x64400000, 10⟩

def documentedIpv4 : List (NetworkPrefix 32) :=
  [loopback] ++ privateUse ++ [linkLocal, broadcast, unspecified] ++
    documentation ++ [sharedSpace]

/-- The octets that the check compares fix the first bits of the address. -/
theorem isPrivateIpv4_iff {address : BitVec 32} :
    isPrivateIpv4 address = true ↔ AnyContains documentedIpv4 address := by
  have hwidth := address.isLt
  simp only [AnyContains, documentedIpv4, loopback, privateUse, linkLocal,
    broadcast, unspecified, documentation, sharedSpace, List.cons_append,
    List.nil_append, List.exists_mem_cons_iff, contains_iff_div,
    List.not_mem_nil, false_and, exists_false, or_false]
  simp only [isPrivateIpv4, octet, Bool.or_eq_true, Bool.and_eq_true,
    decide_eq_true_eq, ← BitVec.toNat_inj, BitVec.toNat_ushiftRight,
    Nat.shiftRight_eq_div_pow, BitVec.toNat_allOnes, or_assoc, and_assoc]
  generalize address.toNat = n at hwidth ⊢
  refine or_congr ?_ <| or_congr ?_ <| or_congr ?_ <| or_congr ?_ <|
    or_congr ?_ <| or_congr ?_ <| or_congr ?_ <| or_congr ?_ <|
    or_congr ?_ <| or_congr ?_ ?_
  all_goals
    simp only [Nat.reduceSub, Nat.reduceMul, Nat.reducePow,
      BitVec.reduceToNat, Nat.reduceDiv]
    omega

/-! ### IPv6 -/

/-- `Ipv6Addr::segments`, most significant first. -/
def segment (address : BitVec 128) (index : ℕ) : BitVec 16 :=
  (address >>> (16 * (7 - index))).setWidth 16

/-- `Ipv4Addr::new`. -/
def ipv4Of (a b c d : BitVec 8) : BitVec 32 :=
  BitVec.ofNat 32
    (2 ^ 24 * a.toNat + 2 ^ 16 * b.toNat + 2 ^ 8 * c.toNat + d.toNat)

/-- The IPv4 address in the last two segments, octet by octet. -/
def mappedIpv4 (address : BitVec 128) : BitVec 32 :=
  ipv4Of ((segment address 6 >>> 8).setWidth 8)
    ((segment address 6).setWidth 8)
    ((segment address 7 >>> 8).setWidth 8)
    ((segment address 7).setWidth 8)

theorem segment_toNat (address : BitVec 128) (index : ℕ) :
    (segment address index).toNat =
      address.toNat / 2 ^ (16 * (7 - index)) % 2 ^ 16 := by
  rw [segment, BitVec.toNat_setWidth, BitVec.toNat_ushiftRight,
    Nat.shiftRight_eq_div_pow]

/-- The truncating casts lose nothing of the two segments. -/
theorem mappedIpv4_eq (address : BitVec 128) :
    mappedIpv4 address = address.setWidth 32 := by
  apply BitVec.eq_of_toNat_eq
  simp only [mappedIpv4, ipv4Of, BitVec.toNat_ofNat, BitVec.toNat_setWidth,
    BitVec.toNat_ushiftRight, segment_toNat, Nat.shiftRight_eq_div_pow,
    Nat.reduceSub, Nat.reduceMul, Nat.reducePow]
  omega

/-- The check as the code makes it, segment by segment. -/
theorem isPrivateIp_v6_segments (address : BitVec 128) :
    isPrivateIp (.v6 address) = true ↔
      address = 1 ∨ address = 0 ∨
        (segment address 0 = 0 ∧ segment address 1 = 0 ∧
          segment address 2 = 0 ∧ segment address 3 = 0 ∧
          segment address 4 = 0 ∧ segment address 5 = 0xffff) ∧
        isPrivateIp (.v4 (mappedIpv4 address)) = true := by
  have hwidth := address.isLt
  have hmapped : (segment address 0 = 0 ∧ segment address 1 = 0 ∧
      segment address 2 = 0 ∧ segment address 3 = 0 ∧
      segment address 4 = 0 ∧ segment address 5 = 0xffff) ↔
      address.toNat / 2 ^ 32 = 0xffff := by
    simp only [← BitVec.toNat_inj, segment_toNat, Nat.reduceSub,
      Nat.reduceMul, Nat.reducePow, BitVec.reduceToNat]
    omega
  rw [hmapped, mappedIpv4_eq]
  simp only [isPrivateIp, Bool.or_eq_true, Bool.and_eq_true,
    decide_eq_true_eq, or_assoc]

def loopbackV6 : NetworkPrefix 128 := ⟨1, 128⟩

def unspecifiedV6 : NetworkPrefix 128 := ⟨0, 128⟩

def linkLocalV6 : NetworkPrefix 128 :=
  ⟨0xfe800000000000000000000000000000, 10⟩

def uniqueLocal : NetworkPrefix 128 :=
  ⟨0xfc000000000000000000000000000000, 7⟩

def documentationV6 : NetworkPrefix 128 :=
  ⟨0x20010db8000000000000000000000000, 32⟩

/-- The prefixes that are documented and not compared with. -/
def uncheckedIpv6 : List (NetworkPrefix 128) :=
  [linkLocalV6, uniqueLocal, documentationV6]

def documentedIpv6 : List (NetworkPrefix 128) :=
  [loopbackV6, unspecifiedV6] ++ uncheckedIpv6

/-- `::ffff:a.b.c.d`. -/
def mapped (address : BitVec 32) : BitVec 128 :=
  BitVec.ofNat 128 (0xffff * 2 ^ 32 + address.toNat)

/-- The address is in a range that the check is documented to cover. -/
def Documented : IpAddr → Prop
  | .v4 address => AnyContains documentedIpv4 address
  | .v6 address => AnyContains documentedIpv6 address ∨
      ∃ inner, address = mapped inner ∧ AnyContains documentedIpv4 inner

/-- It is in one of those that are not compared with. -/
def Unchecked : IpAddr → Prop
  | .v4 _ => False
  | .v6 address => AnyContains uncheckedIpv6 address

theorem mapped_toNat (inner : BitVec 32) :
    (mapped inner).toNat = 0xffff * 2 ^ 32 + inner.toNat := by
  have hwidth := inner.isLt
  rw [mapped, BitVec.toNat_ofNat]
  omega

/-- The mapped addresses are those with this prefix, and the rest is what is
mapped. -/
theorem eq_mapped_iff {address : BitVec 128} {inner : BitVec 32} :
    address = mapped inner ↔
      address.toNat / 2 ^ 32 = 0xffff ∧ address.setWidth 32 = inner := by
  have hwidth := inner.isLt
  rw [← BitVec.toNat_inj, ← BitVec.toNat_inj, mapped_toNat,
    BitVec.toNat_setWidth]
  omega

/-- For IPv6 the check accepts two addresses and the mapped ones. -/
theorem isPrivateIp_v6_iff {address : BitVec 128} :
    isPrivateIp (.v6 address) = true ↔
      address = 1 ∨ address = 0 ∨
        ∃ inner, address = mapped inner ∧
          AnyContains documentedIpv4 inner := by
  simp only [isPrivateIp, Bool.or_eq_true, Bool.and_eq_true,
    decide_eq_true_eq, or_assoc, isPrivateIpv4_iff, eq_mapped_iff]
  refine or_congr_right (or_congr_right ?_)
  constructor
  · rintro ⟨hmapped, hinner⟩
    exact ⟨_, ⟨hmapped, rfl⟩, hinner⟩
  · rintro ⟨_, ⟨hmapped, rfl⟩, hinner⟩
    exact ⟨hmapped, hinner⟩

/-- None of the unchecked prefixes begins with 80 zeros. -/
theorem le_toNat_of_unchecked {address : BitVec 128}
    (h : AnyContains uncheckedIpv6 address) : 2 ^ 48 ≤ address.toNat := by
  simp only [AnyContains, uncheckedIpv6, linkLocalV6, uniqueLocal,
    documentationV6, List.exists_mem_cons_iff, contains_iff_div,
    List.not_mem_nil, false_and, exists_false, or_false, Nat.reduceSub,
    BitVec.reduceToNat, Nat.reducePow, Nat.reduceDiv] at h
  omega

theorem anyContains_documentedIpv6_iff {address : BitVec 128} :
    AnyContains documentedIpv6 address ↔
      address = 1 ∨ address = 0 ∨ AnyContains uncheckedIpv6 address := by
  simp only [AnyContains, documentedIpv6, List.cons_append, List.nil_append,
    List.exists_mem_cons_iff, loopbackV6, unspecifiedV6, NetworkPrefix.Contains,
    Nat.sub_self, BitVec.ushiftRight_zero]

theorem isPrivateIp_eq_false_of_unchecked {address : BitVec 128}
    (h : AnyContains uncheckedIpv6 address) :
    isPrivateIp (.v6 address) = false := by
  have hlarge := le_toNat_of_unchecked h
  rw [Bool.eq_false_iff, Ne, isPrivateIp_v6_iff]
  rintro (rfl | rfl | ⟨inner, rfl, _⟩)
  · exact absurd hlarge (by decide)
  · exact absurd hlarge (by decide)
  · rw [mapped_toNat] at hlarge
    have hwidth := inner.isLt
    omega

/-- The check covers a documented address exactly when it is not in one of the
three unchecked prefixes. -/
theorem isPrivateIp_of_documented_iff (ip : IpAddr) :
    (Documented ip → isPrivateIp ip = true) ↔ ¬ Unchecked ip := by
  cases ip with
  | v4 address =>
      simp only [Documented, isPrivateIp, isPrivateIpv4_iff, Unchecked,
        imp_self, not_false_eq_true]
  | v6 address =>
      simp only [Documented, Unchecked, anyContains_documentedIpv6_iff]
      constructor
      · intro hcovered hunchecked
        have haccepted := hcovered (Or.inl (Or.inr (Or.inr hunchecked)))
        rw [isPrivateIp_eq_false_of_unchecked hunchecked] at haccepted
        cases haccepted
      · rintro hchecked ((hone | hzero | hunchecked) | hmapped)
        · exact isPrivateIp_v6_iff.mpr (Or.inl hone)
        · exact isPrivateIp_v6_iff.mpr (Or.inr (Or.inl hzero))
        · exact absurd hunchecked hchecked
        · exact isPrivateIp_v6_iff.mpr (Or.inr (Or.inr hmapped))

/-- An address in a prefix that is documented and not compared with. -/
theorem uncovered_of_unchecked {address : BitVec 128}
    (h : AnyContains uncheckedIpv6 address) :
    Documented (.v6 address) ∧ isPrivateIp (.v6 address) = false := by
  have hdocumented : AnyContains documentedIpv6 address :=
    anyContains_documentedIpv6_iff.mpr (Or.inr (Or.inr h))
  exact ⟨Or.inl hdocumented, isPrivateIp_eq_false_of_unchecked h⟩

/-- `fe80::1`, `fd00::1` and `2001:db8::1`. -/
theorem isPrivateIp_uncovered :
    (Documented (.v6 0xfe800000000000000000000000000001) ∧
      isPrivateIp (.v6 0xfe800000000000000000000000000001) = false) ∧
    (Documented (.v6 0xfd000000000000000000000000000001) ∧
      isPrivateIp (.v6 0xfd000000000000000000000000000001) = false) ∧
    (Documented (.v6 0x20010db8000000000000000000000001) ∧
      isPrivateIp (.v6 0x20010db8000000000000000000000001) = false) := by
  refine ⟨uncovered_of_unchecked ⟨linkLocalV6, ?_, by decide⟩,
    uncovered_of_unchecked ⟨uniqueLocal, ?_, by decide⟩,
    uncovered_of_unchecked ⟨documentationV6, ?_, by decide⟩⟩
  all_goals simp [uncheckedIpv6]

end X402Guard
