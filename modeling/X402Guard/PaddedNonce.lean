/-
`parse_bytes32` line by line: the padding offset is computed before the length
is compared, so the arithmetic of the build decides what becomes of a nonce of
more than 32 bytes.
-/
import X402Guard.PaymentVerification
import X402Guard.SolanaRpc

namespace X402Guard

open SolanaRpc (ok_bind)

/-- What an operation on `usize` does when its result is out of range. -/
inductive Arithmetic
  | checked
  | wrapping
deriving DecidableEq, Repr

/-- `a - b` on `usize`. -/
def subUsize {ε : Type} (arithmetic : Arithmetic) (a b : Nat) :
    Except (Fault ε) Nat :=
  if b ≤ a then .ok (a - b)
  else match arithmetic with
    | .checked => .error (.panic "attempt to subtract with overflow")
    | .wrapping => .ok ((a + (2 ^ 64 - b % 2 ^ 64)) % 2 ^ 64)

theorem subUsize_of_le {ε : Type} {arithmetic : Arithmetic} {a b : Nat}
    (h : b ≤ a) :
    (subUsize arithmetic a b : Except (Fault ε) Nat) = .ok (a - b) := if_pos h

/-- `result[start..].copy_from_slice(&bytes)`. -/
def Bytes32.copyFrom {ε : Type} (result : Bytes32) (start : Nat)
    (bytes : List UInt8) : Except (Fault ε) Bytes32 :=
  if hstart : start ≤ 32 then
    if hlength : bytes.length = 32 - start then
      .ok ⟨result.bytes.take start ++ bytes, by
        rw [List.length_append, List.length_take, result.length_eq]
        omega⟩
    else .error (.panic "source slice length does not match destination")
  else .error (.panic "range start index out of range")

/-- `parse_bytes32`, with the arithmetic of the build. -/
def parseBytes32In (arithmetic : Arithmetic) (hexStr : String) :
    Except (Fault FromHexError) Bytes32 := do
  let stripped := String.ofList (trimStart0x hexStr.toList)
  let bytes ← (hexDecode (utf8Bytes stripped)).mapError Fault.error
  if bytes.length ≠ 32 then
    let result := Bytes32.zero
    let start ← subUsize arithmetic 32 bytes.length
    if bytes.length ≤ 32 then
      result.copyFrom start bytes
    else .error (.error .invalidStringLength)
  else
    let arr := Bytes32.zero
    arr.copyFrom 0 bytes

/-- The bytes that `hex::decode` is called with. -/
def strippedBytes (hexStr : String) : List UInt8 :=
  utf8Bytes (String.ofList (trimStart0x hexStr.toList))

/-- An even number of hex digits. -/
def EvenHex (text : List UInt8) : Prop :=
  text.length % 2 = 0 ∧ ∀ byte ∈ text, (hexValue byte).isSome

theorem evenHex_cons_cons {high low : UInt8} {rest : List UInt8} :
    EvenHex (high :: low :: rest) ↔
      (hexValue high).isSome ∧ (hexValue low).isSome ∧ EvenHex rest := by
  rw [EvenHex, EvenHex, List.forall_mem_cons, List.forall_mem_cons,
    List.length_cons, List.length_cons, Nat.add_assoc, Nat.add_mod_right]
  constructor
  · rintro ⟨heven, hhigh, hlow, hrest⟩
    exact ⟨hhigh, hlow, heven, hrest⟩
  · rintro ⟨hhigh, hlow, heven, hrest⟩
    exact ⟨heven, hhigh, hlow, hrest⟩

theorem not_evenHex_of_none {high low : UInt8} {rest : List UInt8}
    (hnone : ∀ h l, hexValue high = some h → hexValue low = some l → False) :
    ¬ EvenHex (high :: low :: rest) := by
  rw [evenHex_cons_cons]
  rintro ⟨hhigh, hlow, _⟩
  obtain ⟨h, hhigh⟩ := Option.isSome_iff_exists.mp hhigh
  obtain ⟨l, hlow⟩ := Option.isSome_iff_exists.mp hlow
  exact hnone h l hhigh hlow

/-- A pair of digits is decoded to a byte in front of the others. -/
theorem hexDecode_cons_cons {high low : UInt8} {rest : List UInt8} {h l : Nat}
    (heven : ¬ rest.length % 2 = 1) (hhigh : hexValue high = some h)
    (hlow : hexValue low = some l) :
    hexDecode (high :: low :: rest) =
      (hexDecode rest).map (UInt8.ofNat (16 * h + l) :: ·) := by
  rw [hexDecode, if_neg heven, hhigh, hlow]

/-- Decoded is exactly even-length hex. -/
theorem exists_hexDecode_eq_ok_iff (text : List UInt8) :
    (∃ bytes, hexDecode text = .ok bytes) ↔ EvenHex text := by
  induction text using hexDecode.induct with
  | case1 => simp [hexDecode, EvenHex]
  | case2 byte => simp [hexDecode, EvenHex]
  | case3 high low rest hodd =>
      rw [hexDecode, if_pos hodd]
      simp [EvenHex, Nat.add_assoc, hodd]
  | case4 high low rest heven h l hlow hhigh ih =>
      rw [hexDecode_cons_cons heven hhigh hlow, evenHex_cons_cons, hhigh, hlow,
        ← ih]
      cases hexDecode rest <;> simp [Except.map]
  | case5 high low rest heven hnone =>
      have hrefused : hexDecode (high :: low :: rest) =
          .error .invalidHexCharacter := by
        rw [hexDecode, if_neg heven]
        cases hhigh : hexValue high with
        | none => rfl
        | some h =>
            cases hlow : hexValue low with
            | none => rfl
            | some l => exact (hnone h l hhigh hlow).elim
      rw [hrefused]
      refine iff_of_false ?_ (not_evenHex_of_none hnone)
      rintro ⟨_, ⟨⟩⟩

/-- Hex is decoded two digits to a byte. -/
theorem length_of_hexDecode {text bytes : List UInt8}
    (h : hexDecode text = .ok bytes) : text.length = 2 * bytes.length := by
  induction text using hexDecode.induct generalizing bytes with
  | case1 =>
      cases h
      rfl
  | case2 byte => cases h
  | case3 high low rest hodd =>
      rw [hexDecode, if_pos hodd] at h
      cases h
  | case4 high low rest heven x y hlow hhigh ih =>
      rw [hexDecode_cons_cons heven hhigh hlow] at h
      cases hrest : hexDecode rest with
      | error error =>
          rw [hrest] at h
          cases h
      | ok decoded =>
          rw [hrest] at h
          cases h
          rw [List.length_cons, List.length_cons, ih hrest, List.length_cons]
          rfl
  | case5 high low rest heven hnone =>
      have heven := (exists_hexDecode_eq_ok_iff _).mp ⟨bytes, h⟩
      exact absurd heven (not_evenHex_of_none hnone)

/-- At most 32 bytes are put behind zeros. -/
theorem Bytes32.zero_copyFrom {ε : Type} {bytes : List UInt8}
    (h : bytes.length ≤ 32) :
    ∃ result : Bytes32,
      (Bytes32.zero.copyFrom (32 - bytes.length) bytes :
        Except (Fault ε) Bytes32) = .ok result ∧
      result.bytes = List.replicate (32 - bytes.length) 0 ++ bytes := by
  have hlength : bytes.length = 32 - (32 - bytes.length) := by omega
  rw [Bytes32.copyFrom, dif_pos (Nat.sub_le 32 bytes.length),
    dif_pos hlength]
  refine ⟨_, rfl, ?_⟩
  change (List.replicate 32 0).take (32 - bytes.length) ++ bytes = _
  rw [List.take_replicate, Nat.min_eq_left (Nat.sub_le 32 bytes.length)]

theorem parseBytes32In_of_error (arithmetic : Arithmetic) {hexStr : String}
    {error : FromHexError}
    (h : hexDecode (strippedBytes hexStr) = .error error) :
    parseBytes32In arithmetic hexStr = .error (.error error) := by
  rw [strippedBytes] at h
  rw [parseBytes32In]
  dsimp only
  rw [h]
  rfl

/-- Up to 32 bytes the arithmetic makes no difference. -/
theorem parseBytes32In_of_le (arithmetic : Arithmetic) {hexStr : String}
    {bytes : List UInt8} (h : hexDecode (strippedBytes hexStr) = .ok bytes)
    (hle : bytes.length ≤ 32) :
    ∃ result, parseBytes32In arithmetic hexStr = .ok result ∧
      result.bytes = List.replicate (32 - bytes.length) 0 ++ bytes := by
  obtain ⟨result, hcopy, hbytes⟩ :=
    Bytes32.zero_copyFrom (ε := FromHexError) hle
  refine ⟨result, ?_, hbytes⟩
  rw [strippedBytes] at h
  rw [parseBytes32In]
  dsimp only
  rw [h, Except.mapError, ok_bind]
  by_cases hfull : bytes.length = 32
  · rw [if_neg (not_not_intro hfull)]
    rwa [hfull] at hcopy
  · rw [if_pos hfull, subUsize_of_le hle, ok_bind, if_pos hle]
    exact hcopy

/-- Past 32 bytes it decides: the subtraction comes first. -/
theorem parseBytes32In_of_gt (arithmetic : Arithmetic) {hexStr : String}
    {bytes : List UInt8} (h : hexDecode (strippedBytes hexStr) = .ok bytes)
    (hgt : 32 < bytes.length) :
    parseBytes32In arithmetic hexStr = .error (match arithmetic with
      | .checked => .panic "attempt to subtract with overflow"
      | .wrapping => .error .invalidStringLength) := by
  rw [strippedBytes] at h
  rw [parseBytes32In]
  dsimp only
  have hnot := Nat.not_le_of_lt hgt
  rw [h, Except.mapError, ok_bind, if_pos hgt.ne']
  cases arithmetic with
  | checked =>
      have hsub : subUsize (ε := FromHexError) .checked 32 bytes.length =
          .error (.panic "attempt to subtract with overflow") := if_neg hnot
      rw [hsub]
      rfl
  | wrapping =>
      have hsub : subUsize (ε := FromHexError) .wrapping 32 bytes.length =
          .ok ((32 + (2 ^ 64 - bytes.length % 2 ^ 64)) % 2 ^ 64) := if_neg hnot
      rw [hsub, ok_bind, if_neg hnot]

/-- A build that wraps computes `parseBytes32`. -/
theorem parseBytes32In_wrapping (hexStr : String) :
    parseBytes32In .wrapping hexStr =
      (parseBytes32 hexStr).mapError Fault.error := by
  have hparse : parseBytes32 hexStr =
      hexDecode (strippedBytes hexStr) >>= fun bytes =>
        if h : bytes.length ≤ 32 then
          .ok ⟨List.replicate (32 - bytes.length) 0 ++ bytes,
            by simp; omega⟩
        else .error .invalidStringLength := rfl
  rw [hparse]
  cases h : hexDecode (strippedBytes hexStr) with
  | error error => exact parseBytes32In_of_error _ h
  | ok bytes =>
      by_cases hle : bytes.length ≤ 32
      · obtain ⟨result, hresult, hbytes⟩ := parseBytes32In_of_le .wrapping h hle
        rw [hresult, ok_bind, dif_pos hle]
        exact congrArg Except.ok (Bytes32.ext hbytes)
      · rw [parseBytes32In_of_gt _ h (Nat.lt_of_not_le hle), ok_bind,
          dif_neg hle]
        rfl

/-- What `parse_bytes32` is to return on a text: an error when the text is not
even-length hex or too long, and otherwise its bytes behind zeros. -/
structure ParsesBytes32 (hexStr : String)
    (outcome : Except (Fault FromHexError) Bytes32) : Prop where
  no_panic : ∀ cause, outcome ≠ .error (.panic cause)
  error_iff : (∃ error, outcome = .error (.error error)) ↔
    ¬ EvenHex (strippedBytes hexStr) ∨
      ∃ bytes, hexDecode (strippedBytes hexStr) = .ok bytes ∧
        32 < bytes.length
  padded : ∀ bytes, hexDecode (strippedBytes hexStr) = .ok bytes →
    bytes.length ≤ 32 → ∃ result, outcome = .ok result ∧
      result.bytes = List.replicate (32 - bytes.length) 0 ++ bytes

/-- A panic is all that can go wrong. -/
theorem parsesBytes32_of_no_panic {arithmetic : Arithmetic} {hexStr : String}
    (h : ∀ cause, parseBytes32In arithmetic hexStr ≠ .error (.panic cause)) :
    ParsesBytes32 hexStr (parseBytes32In arithmetic hexStr) := by
  have heven := exists_hexDecode_eq_ok_iff (strippedBytes hexStr)
  cases hdecode : hexDecode (strippedBytes hexStr) with
  | error error =>
      have hrefused := parseBytes32In_of_error arithmetic hdecode
      rw [hdecode] at heven
      refine ⟨h, iff_of_true ⟨error, hrefused⟩ (Or.inl ?_), ?_⟩
      · rw [← heven]
        rintro ⟨_, ⟨⟩⟩
      · intro bytes hbytes
        rw [hdecode] at hbytes
        cases hbytes
  | ok bytes =>
      rw [hdecode] at heven
      have heven := heven.mp ⟨bytes, rfl⟩
      by_cases hle : bytes.length ≤ 32
      · obtain ⟨result, hresult, hpadded⟩ :=
          parseBytes32In_of_le arithmetic hdecode hle
        refine ⟨h, iff_of_false ?_ ?_, ?_⟩
        · rw [hresult]
          rintro ⟨_, ⟨⟩⟩
        · rintro (hodd | ⟨bytes', hbytes', hgt⟩)
          · exact hodd heven
          · rw [hdecode] at hbytes'
            cases hbytes'
            omega
        · intro bytes' hbytes' _
          rw [hdecode] at hbytes'
          cases hbytes'
          exact ⟨result, hresult, hpadded⟩
      · have hgt := Nat.lt_of_not_le hle
        have hlong := parseBytes32In_of_gt arithmetic hdecode hgt
        cases arithmetic with
        | checked => exact absurd hlong (h _)
        | wrapping =>
            refine ⟨h, iff_of_true ⟨_, hlong⟩
              (Or.inr ⟨bytes, hdecode, hgt⟩), ?_⟩
            intro bytes' hbytes' hle'
            rw [hdecode] at hbytes'
            cases hbytes'
            omega

/-- A build that wraps never panics here. -/
theorem parsesBytes32_wrapping (hexStr : String) :
    ParsesBytes32 hexStr (parseBytes32In .wrapping hexStr) := by
  apply parsesBytes32_of_no_panic
  intro cause
  rw [parseBytes32In_wrapping]
  cases parseBytes32 hexStr with
  | error error => rintro ⟨⟩
  | ok result => rintro ⟨⟩

theorem parseBytes32In_checked_panics_iff (hexStr : String) :
    (∃ cause, parseBytes32In .checked hexStr = .error (.panic cause)) ↔
      EvenHex (strippedBytes hexStr) ∧
        64 < (strippedBytes hexStr).length := by
  have heven := exists_hexDecode_eq_ok_iff (strippedBytes hexStr)
  rw [← heven]
  cases hdecode : hexDecode (strippedBytes hexStr) with
  | error error =>
      rw [parseBytes32In_of_error _ hdecode]
      simp
  | ok bytes =>
      have hlength := length_of_hexDecode hdecode
      by_cases hle : bytes.length ≤ 32
      · obtain ⟨result, hresult, _⟩ :=
          parseBytes32In_of_le .checked hdecode hle
        rw [hresult]
        simp
        omega
      · rw [parseBytes32In_of_gt _ hdecode (Nat.lt_of_not_le hle)]
        simp
        omega

/-- In checked arithmetic the function does what it is to do exactly when the
text is not hex of more than 64 digits; on such a text it panics. -/
theorem parsesBytes32_checked_iff (hexStr : String) :
    ParsesBytes32 hexStr (parseBytes32In .checked hexStr) ↔
      ¬ (EvenHex (strippedBytes hexStr) ∧
        64 < (strippedBytes hexStr).length) := by
  rw [← parseBytes32In_checked_panics_iff, not_exists]
  exact ⟨ParsesBytes32.no_panic, parsesBytes32_of_no_panic⟩

/-- Thirty-three bytes after the prefix. -/
theorem parseBytes32_underflows :
    parseBytes32In .checked (String.ofList ('0' :: 'x' ::
        List.replicate 66 '0')) =
      .error (.panic "attempt to subtract with overflow") ∧
    ¬ ParsesBytes32 (String.ofList ('0' :: 'x' :: List.replicate 66 '0'))
      (parseBytes32In .checked (String.ofList ('0' :: 'x' ::
        List.replicate 66 '0'))) := by
  have hpanics : parseBytes32In .checked (String.ofList ('0' :: 'x' ::
      List.replicate 66 '0')) =
        .error (.panic "attempt to subtract with overflow") := by
    decide
  exact ⟨hpanics, fun h => h.no_panic _ hpanics⟩

end X402Guard
