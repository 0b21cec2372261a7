/-
The base58 loops on machine words.  The carry is a `u32`, and every sum,
product and narrowing cast is checked; both directions run the same three
loops, which differ in the factor and in how a carry is split.
-/
import X402Guard.Base58

namespace X402Guard.SolanaRpc

open PositionalNotation

section Checked

variable {ε : Type}

/-- `a + b` on `u32`. -/
def addU32 (a b : UInt32) : Except (Fault ε) UInt32 :=
  if a.toNat + b.toNat < 2 ^ 32 then .ok (a + b)
  else .error (.panic "attempt to add with overflow")

/-- `a * b` on `u32`. -/
def mulU32 (a b : UInt32) : Except (Fault ε) UInt32 :=
  if a.toNat * b.toNat < 2 ^ 32 then .ok (a * b)
  else .error (.panic "attempt to multiply with overflow")

/-- `n as u8`; to lose bits counts as a panic. -/
def castU8 (n : UInt32) : Except (Fault ε) UInt8 :=
  if n.toNat < 2 ^ 8 then .ok n.toUInt8
  else .error (.panic "narrowing cast loses bits")

theorem addU32_eq {a b : UInt32} (h : a.toNat + b.toNat < 2 ^ 32) :
    (addU32 a b : Except (Fault ε) UInt32) = .ok (a + b) := if_pos h

theorem mulU32_eq {a b : UInt32} (h : a.toNat * b.toNat < 2 ^ 32) :
    (mulU32 a b : Except (Fault ε) UInt32) = .ok (a * b) := if_pos h

theorem castU8_eq {n : UInt32} (h : n.toNat < 2 ^ 8) :
    (castU8 n : Except (Fault ε) UInt8) = .ok n.toUInt8 := if_pos h

end Checked

/-- What the two directions differ in: the factor of a digit, the digit that a
carry leaves and what is carried on. -/
structure Conversion where
  factor : UInt32
  low : UInt32 → UInt32
  high : UInt32 → UInt32

namespace Conversion

variable {ε : Type}

/-- `for d in digits.iter_mut().rev()`. -/
def forLoop (c : Conversion) : List UInt8 → UInt32 →
    Except (Fault ε) (List UInt8 × UInt32)
  | [], carry => .ok ([], carry)
  | d :: rest, carry => do
      let (rest, carry) ← c.forLoop rest carry
      let carry ← addU32 carry (← mulU32 d.toUInt32 c.factor)
      let d ← castU8 (c.low carry)
      return (d :: rest, c.high carry)

/-- `while carry > 0`; not to end within the fuel counts as a panic. -/
def whileLoop (c : Conversion) : ℕ → UInt32 → List UInt8 →
    Except (Fault ε) (List UInt8)
  | 0, carry, digits =>
      if carry > 0 then .error (.panic "out of fuel") else .ok digits
  | fuel + 1, carry, digits =>
      if carry > 0 then do
        let d ← castU8 (c.low carry)
        c.whileLoop fuel (c.high carry) (d :: digits)
      else .ok digits

/-- A turn of the outer loop, from `let mut carry = digit as u32`. -/
def turn (c : Conversion) (fuel : ℕ) (digits : List UInt8) (carry : UInt32) :
    Except (Fault ε) (List UInt8) := do
  let (digits, carry) ← c.forLoop digits carry
  c.whileLoop fuel carry digits

/-- `c` multiplies digits in `base` by `factor`. -/
structure Converts (c : Conversion) (factor base : ℕ) : Prop where
  factor_eq : c.factor.toNat = factor
  low_eq : ∀ carry, (c.low carry).toNat = carry.toNat % base
  high_eq : ∀ carry, (c.high carry).toNat = carry.toNat / base
  base_gt : 1 < base
  base_le : base ≤ 256
  factor_le : factor ≤ 256
  factor_le_sq : factor ≤ base ^ 2

end Conversion

/-- `carry % 58` and `carry / 58`. -/
def toBase58 : Conversion where
  factor := 256
  low carry := carry % 58
  high carry := carry / 58

/-- `carry & 0xFF` and `carry >> 8`. -/
def toBase256 : Conversion where
  factor := 58
  low carry := carry &&& 0xFF
  high carry := carry >>> 8

theorem toBase58_converts : toBase58.Converts 256 58 where
  factor_eq := rfl
  low_eq _ := rfl
  high_eq _ := rfl
  base_gt := by decide
  base_le := by decide
  factor_le := by decide
  factor_le_sq := by decide

theorem toBase256_converts : toBase256.Converts 58 256 where
  factor_eq := rfl
  low_eq carry := by
    rw [toBase256, UInt32.toNat_and]
    exact Nat.and_two_pow_sub_one_eq_mod carry.toNat 8
  high_eq carry := by
    rw [toBase256, UInt32.toNat_shiftRight]
    exact Nat.shiftRight_eq_div_pow carry.toNat 8
  base_gt := by decide
  base_le := by decide
  factor_le := by decide
  factor_le_sq := by decide

namespace Conversion

variable {ε : Type} {c : Conversion} {factor base : ℕ}

/-- The digit that a carry leaves is a byte. -/
theorem Converts.castU8_low (h : c.Converts factor base) (carry : UInt32) :
    (castU8 (c.low carry) : Except (Fault ε) UInt8) =
      .ok (UInt8.ofNat (carry.toNat % base)) := by
  have hbase := h.base_gt
  have hlt : carry.toNat % base < base := Nat.mod_lt _ (by omega)
  have hbyte : (c.low carry).toNat < 2 ^ 8 := by
    rw [h.low_eq]
    exact hlt.trans_le h.base_le
  rw [castU8_eq hbyte, Except.ok.injEq, ← UInt8.toNat_inj,
    UInt32.toNat_toUInt8, h.low_eq, UInt8.toNat_ofNat']

/-- What is carried out of a digit is again less than the factor. -/
theorem Converts.carry_lt (h : c.Converts factor base) {carry d : ℕ}
    (hcarry : carry < factor) (hd : d < base) :
    carry + d * factor < base * factor ∧
      (carry + d * factor) / base < factor := by
  have hbound : carry + d * factor < base * factor := by
    have hle : (d + 1) * factor ≤ base * factor := Nat.mul_le_mul_right _ hd
    rw [Nat.succ_mul] at hle
    omega
  have hbase := h.base_gt
  exact ⟨hbound, (Nat.div_lt_iff_lt_mul (by omega)).mpr
    (by rwa [Nat.mul_comm factor])⟩

/-- Over digits of the base, with a carry below the factor, the backward loop
is exact. -/
theorem Converts.forLoop_eq (h : c.Converts factor base) {ds : List UInt8}
    (hds : ∀ d ∈ numbers ds, d < base) {carry : UInt32}
    (hcarry : carry.toNat < factor) :
    ∃ carried : UInt32,
      (c.forLoop ds carry : Except (Fault ε) (List UInt8 × UInt32)) =
        .ok ((mulAdd factor base ds carry.toNat).1, carried) ∧
      carried.toNat = (mulAdd factor base ds carry.toNat).2 ∧
      carried.toNat < factor := by
  induction ds with
  | nil => exact ⟨carry, rfl, rfl, hcarry⟩
  | cons d ds ih =>
      rw [numbers_cons, List.forall_mem_cons] at hds
      obtain ⟨carried, hloop, hcarried, hlt⟩ := ih hds.2
      obtain ⟨hsum, hnext⟩ := h.carry_lt hlt hds.1
      have hsmall : base * factor ≤ 256 * 256 :=
        Nat.mul_le_mul h.base_le h.factor_le
      have hproduct : d.toUInt32.toNat * c.factor.toNat =
          d.toNat * factor := by
        rw [UInt8.toNat_toUInt32, h.factor_eq]
      have hmul : (d.toUInt32 * c.factor).toNat = d.toNat * factor := by
        rw [UInt32.toNat_mul, hproduct, Nat.mod_eq_of_lt (by omega)]
      have hadd : (carried + d.toUInt32 * c.factor).toNat =
          carried.toNat + d.toNat * factor := by
        rw [UInt32.toNat_add, hmul, Nat.mod_eq_of_lt (by omega)]
      refine ⟨c.high (carried + d.toUInt32 * c.factor), ?_, ?_, ?_⟩
      · rw [forLoop, hloop, ok_bind]
        dsimp only
        rw [mulU32_eq (by omega), ok_bind, addU32_eq (by omega), ok_bind,
          h.castU8_low, ok_bind, hadd, hcarried]
        rfl
      · rw [h.high_eq, hadd, hcarried, mulAdd]
      · rw [h.high_eq, hadd]
        exact hnext

theorem whileLoop_of_zero (c : Conversion) (fuel : ℕ) {carry : UInt32}
    (hzero : carry.toNat = 0) (ds : List UInt8) :
    (c.whileLoop fuel carry ds : Except (Fault ε) (List UInt8)) = .ok ds := by
  have hnot : ¬ carry > 0 := by
    rw [gt_iff_lt, UInt32.lt_iff_toNat_lt, hzero]
    exact Nat.lt_irrefl 0
  cases fuel with
  | zero => rw [whileLoop, if_neg hnot]
  | succ fuel => rw [whileLoop, if_neg hnot]

/-- A carry below a power of the base is gone after as many turns. -/
theorem Converts.whileLoop_eq (h : c.Converts factor base) {fuel : ℕ}
    {carry : UInt32} (hfuel : carry.toNat < base ^ fuel) (ds : List UInt8) :
    ∃ result, (c.whileLoop fuel carry ds : Except (Fault ε) (List UInt8)) =
        .ok result ∧
      numbers result = digits base carry.toNat ++ numbers ds := by
  induction fuel generalizing carry ds with
  | zero =>
      have hzero : carry.toNat = 0 := by simpa using hfuel
      exact ⟨ds, c.whileLoop_of_zero 0 hzero ds, by simp [hzero]⟩
  | succ fuel ih =>
      have hbase := h.base_gt
      by_cases hpos : 0 < carry.toNat
      · have hgt : carry > 0 := by
          rw [gt_iff_lt, UInt32.lt_iff_toNat_lt]
          exact hpos
        have hless : (c.high carry).toNat < base ^ fuel := by
          rw [h.high_eq]
          exact (Nat.div_lt_iff_lt_mul (by omega)).mpr hfuel
        obtain ⟨result, hloop, hresult⟩ :=
          ih hless (UInt8.ofNat (carry.toNat % base) :: ds)
        refine ⟨result, ?_, ?_⟩
        · rw [whileLoop, if_pos hgt, h.castU8_low, ok_bind, hloop]
        · rw [hresult, h.high_eq, numbers_cons,
            toNat_digit hbase h.base_le, digits_of_pos hbase hpos,
            List.append_assoc, List.singleton_append]
      · have hzero : carry.toNat = 0 := Nat.eq_zero_of_not_pos hpos
        exact ⟨ds, c.whileLoop_of_zero (fuel + 1) hzero ds, by simp [hzero]⟩

/-- A turn on machine words appends a digit as the exact turn does, and its
`while` loop ends after at most two turns. -/
theorem Converts.turn_eq (h : c.Converts factor base) {fuel : ℕ}
    (hfuel : 2 ≤ fuel) {ds : List UInt8} (hds : ∀ d ∈ numbers ds, d < base)
    {carry : UInt32} (hcarry : carry.toNat < factor) :
    (c.turn fuel ds carry : Except (Fault ε) (List UInt8)) =
      .ok (pushDigit factor base ds carry.toNat) := by
  obtain ⟨carried, hfor, hcarried, hlt⟩ := h.forLoop_eq hds hcarry
  have hbase := h.base_gt
  have hends : carried.toNat < base ^ fuel :=
    hlt.trans_le (h.factor_le_sq.trans (Nat.pow_le_pow_right (by omega) hfuel))
  obtain ⟨result, hwhile, hresult⟩ :=
    h.whileLoop_eq hends (mulAdd factor base ds carry.toNat).1
  rw [turn, hfor, ok_bind]
  dsimp only
  rw [hwhile, Except.ok.injEq, ← numbers_inj, hresult, pushDigit,
    numbers_insertCarry hbase h.base_le (Nat.le_refl _), hcarried]

/-- The outer loop, over digits of the other base. -/
theorem Converts.foldlM_turn_eq (h : c.Converts factor base)
    (hfactor : 0 < factor) {fuel : ℕ} (hfuel : 2 ≤ fuel)
    {carries : List UInt32} (hcarries : ∀ carry ∈ carries,
      carry.toNat < factor) :
    (carries.foldlM (c.turn fuel) [] : Except (Fault ε) (List UInt8)) =
      .ok ((carries.map UInt32.toNat).foldl (pushDigit factor base) []) := by
  induction carries using List.reverseRecOn with
  | nil => rfl
  | append_singleton carries carry ih =>
      rw [List.forall_mem_append, List.forall_mem_singleton] at hcarries
      have hdigits := numbers_foldl_pushDigit h.base_gt h.base_le hfactor
        (carries.map UInt32.toNat)
      rw [List.foldlM_append, ih hcarries.1, ok_bind, List.foldlM_cons,
        h.turn_eq hfuel ?_ hcarries.2, ok_bind, List.foldlM_nil,
        List.map_append, List.map_singleton, List.foldl_concat]
      · rfl
      · intro d hd
        rw [hdigits] at hd
        exact digits_lt h.base_gt hd

end Conversion

/-- The conversion loop of `bs58_encode`. -/
def bs58EncodeLoop {ε : Type} (fuel : ℕ) (input : List UInt8) :
    Except (Fault ε) (List UInt8) :=
  input.foldlM (fun digits byte => toBase58.turn fuel digits byte.toUInt32) []

/-- The digit of a byte, out of `alpha_map`. -/
def alphaMap (ch : UInt8) : Except String ℕ :=
  base58Digit (Char.ofUInt8 ch)

/-- The conversion loop of `bs58_decode`. -/
def bs58DecodeLoop (fuel : ℕ) (input : List UInt8) :
    Except (Fault String) (List UInt8) :=
  input.foldlM (fun result ch => do
    let digit ← (alphaMap ch).mapError Fault.error
    toBase256.turn fuel result (UInt32.ofNat digit)) []

/-- The bytes are the number in the base, with no zero in front. -/
structure Represents (base : ℕ) (bytes : List UInt8) (n : ℕ) : Prop where
  value_eq : value base (numbers bytes) = n
  digit_lt : ∀ d ∈ numbers bytes, d < base
  head?_ne : (numbers bytes).head? ≠ some 0

theorem represents_foldl_pushDigit {factor base : ℕ} (hbase : 1 < base)
    (hbyte : base ≤ 256) (hfactor : 0 < factor) (ds : List ℕ) :
    Represents base (ds.foldl (pushDigit factor base) [])
      (value factor ds) := by
  have hdigits := numbers_foldl_pushDigit hbase hbyte hfactor ds
  refine ⟨?_, ?_, ?_⟩
  · rw [hdigits, value_digits]
  · intro d hd
    rw [hdigits] at hd
    exact digits_lt hbase hd
  · rw [hdigits]
    exact head?_digits_ne_zero base _

/-- The loop leaves what the exact loop of `bs58Encode` leaves. -/
theorem bs58EncodeLoop_eq {ε : Type} {fuel : ℕ} (hfuel : 2 ≤ fuel)
    (input : List UInt8) :
    (bs58EncodeLoop fuel input : Except (Fault ε) (List UInt8)) =
      .ok ((numbers input).foldl (pushDigit 256 58) []) := by
  have hcarries : ∀ carry ∈ input.map UInt8.toUInt32, carry.toNat < 256 := by
    intro carry hcarry
    obtain ⟨byte, _, rfl⟩ := List.mem_map.mp hcarry
    rw [UInt8.toNat_toUInt32]
    exact byte.toNat_lt
  have hmap : (input.map UInt8.toUInt32).map UInt32.toNat = numbers input := by
    rw [List.map_map]
    exact List.map_congr_left fun byte _ => UInt8.toNat_toUInt32 byte
  rw [← hmap, ← toBase58_converts.foldlM_turn_eq (by decide) hfuel hcarries,
    List.foldlM_map, bs58EncodeLoop]

theorem alphaMap_lt {ch : UInt8} {digit : ℕ} (h : alphaMap ch = .ok digit) :
    digit < 58 :=
  (base58Digit_eq_ok_iff.mp h).1

/-- The loop leaves what the exact turns leave of the digits, or fails at the
first byte without a digit. -/
theorem bs58DecodeLoop_eq {fuel : ℕ} (hfuel : 2 ≤ fuel) (input : List UInt8) :
    bs58DecodeLoop fuel input =
      ((input.mapM alphaMap).map fun ds =>
        ds.foldl (pushDigit 58 256) []).mapError Fault.error := by
  induction input using List.reverseRecOn with
  | nil => rfl
  | append_singleton input ch ih =>
      have hloop : bs58DecodeLoop fuel (input ++ [ch]) =
          (bs58DecodeLoop fuel input >>= fun result => do
            let digit ← (alphaMap ch).mapError Fault.error
            toBase256.turn fuel result (UInt32.ofNat digit)) := by
        simp [bs58DecodeLoop, List.foldlM_append]
      rw [hloop, ih, List.mapM_append]
      cases hds : input.mapM alphaMap with
      | error message => rfl
      | ok ds =>
          cases hdigit : alphaMap ch with
          | error message =>
              simp [hdigit, Except.map, Except.mapError, bind, Except.bind]
          | ok digit =>
              have hlt := alphaMap_lt hdigit
              have hcarry : (UInt32.ofNat digit).toNat = digit :=
                UInt32.toNat_ofNat_of_lt' (hlt.trans (by decide))
              have hrepresents := represents_foldl_pushDigit
                (by decide : 1 < 256) (Nat.le_refl 256) (by decide : 0 < 58) ds
              have hturn : _ = Except.ok (ε := Fault String) _ :=
                toBase256_converts.turn_eq hfuel hrepresents.digit_lt
                  (hcarry.trans_lt hlt)
              rw [hcarry] at hturn
              simp [hdigit, Except.map, Except.mapError, bind, Except.bind,
                hturn, List.foldl_append, pure, Except.pure]

theorem base58Digit_of_ge {c : Char} (h : 128 ≤ c.toNat) :
    base58Digit c = .error "non-ASCII character in base58" := by
  rw [base58Digit, rejectIf, if_pos h]
  rfl

/-- The bytes of a text have the digits of its characters. -/
theorem mapM_alphaMap_utf8Bytes (text : String) :
    (utf8Bytes text).mapM alphaMap = text.toList.mapM base58Digit := by
  rw [utf8Bytes_eq_flatMap]
  induction text.toList with
  | nil => rfl
  | cons c cs ih =>
      rw [List.flatMap_cons, List.mapM_append, ih, List.mapM_cons]
      by_cases hascii : c.toNat < 128
      · obtain ⟨byte, hone, hsame⟩ := exists_utf8EncodeChar_ascii hascii
        rw [hone, List.mapM_cons, List.mapM_nil, alphaMap, hsame]
        simp
      · obtain ⟨byte, bytes, hbytes, hge⟩ :=
          exists_utf8EncodeChar_eq (Nat.le_of_not_lt hascii)
        have hfirst : alphaMap byte = .error "non-ASCII character in base58" :=
          base58Digit_of_ge hge
        rw [hbytes, List.mapM_cons, hfirst,
          base58Digit_of_ge (Nat.le_of_not_lt hascii)]
        rfl

/-- After each turn the vector is the number consumed so far, in the other base
and with no zero in front: `digits` in `bs58_encode`, `result` in `bs58_decode`
up to the first byte without a digit.  No step overflows or loses bits, and no
`while` loop takes more than two turns. -/
theorem bs58_loops_represent {fuel : ℕ} (hfuel : 2 ≤ fuel) :
    (∀ (input : List UInt8) (i : ℕ), ∃ digits,
      (bs58EncodeLoop fuel (input.take i) :
        Except (Fault String) (List UInt8)) = .ok digits ∧
      Represents 58 digits (value 256 (numbers (input.take i)))) ∧
    (∀ (input : String) (i : ℕ),
      (∃ consumed result,
        ((utf8Bytes input).take i).mapM alphaMap = .ok consumed ∧
        bs58DecodeLoop fuel ((utf8Bytes input).take i) = .ok result ∧
        Represents 256 result (value 58 consumed)) ∨
      (∃ message,
        ((utf8Bytes input).take i).mapM alphaMap = .error message ∧
        bs58DecodeLoop fuel ((utf8Bytes input).take i) =
          .error (.error message))) := by
  constructor
  · intro input i
    exact ⟨_, bs58EncodeLoop_eq hfuel _, represents_foldl_pushDigit
      (by decide) (by decide) (by decide) _⟩
  · intro input i
    rw [bs58DecodeLoop_eq hfuel]
    cases ((utf8Bytes input).take i).mapM alphaMap with
    | ok consumed =>
        exact Or.inl ⟨consumed, _, rfl, rfl, represents_foldl_pushDigit
          (by decide) (by decide) (by decide) _⟩
    | error message => exact Or.inr ⟨message, rfl, rfl⟩

theorem bs58_loops_represent_sample :
    (∃ digits,
      (bs58EncodeLoop 2 ([1, 0].take 2) :
        Except (Fault String) (List UInt8)) = .ok digits ∧
      Represents 58 digits (value 256 (numbers ([1, 0].take 2)))) ∧
    ((∃ consumed result,
        ((utf8Bytes "5R").take 2).mapM alphaMap = .ok consumed ∧
        bs58DecodeLoop 2 ((utf8Bytes "5R").take 2) = .ok result ∧
        Represents 256 result (value 58 consumed)) ∨
      (∃ message,
        ((utf8Bytes "5R").take 2).mapM alphaMap = .error message ∧
        bs58DecodeLoop 2 ((utf8Bytes "5R").take 2) =
          .error (.error message))) :=
  ⟨(bs58_loops_represent (Nat.le_refl 2)).1 [1, 0] 2,
    (bs58_loops_represent (Nat.le_refl 2)).2 "5R" 2⟩

/-- `bs58_encode` on machine words, with the index into the alphabet checked. -/
def bs58EncodeChecked (fuel : ℕ) (input : List UInt8) :
    Except (Fault String) String := do
  let leadingZeros := (input.takeWhile (· = 0)).length
  let digits ← bs58EncodeLoop fuel input
  let chars ← digits.mapM fun d =>
    okOr (.panic "index out of bounds") base58Alphabet[d.toNat]?
  return String.ofList (List.replicate leadingZeros '1' ++ chars)

/-- `bs58_decode` on machine words. -/
def bs58DecodeChecked (fuel : ℕ) (input : String) :
    Except (Fault String) (List UInt8) := do
  let leadingZeros := ((utf8Bytes input).takeWhile (· = 49)).length
  let result ← bs58DecodeLoop fuel (utf8Bytes input)
  return List.replicate leadingZeros 0 ++ result

theorem mapM_alphabet {fault : Fault String} {ds : List UInt8}
    (h : ∀ d ∈ numbers ds, d < 58) :
    (ds.mapM fun d => okOr fault base58Alphabet[d.toNat]?) =
      .ok (ds.map fun d => base58Alphabet.getD d.toNat '1') := by
  induction ds with
  | nil => rfl
  | cons d ds ih =>
      rw [numbers_cons, List.forall_mem_cons] at h
      rw [List.mapM_cons, symbol_eq_getElem h.1, ih h.2]
      rfl

/-- On machine words `bs58_encode` does not panic, and writes the same. -/
theorem bs58EncodeChecked_eq {fuel : ℕ} (hfuel : 2 ≤ fuel)
    (input : List UInt8) :
    bs58EncodeChecked fuel input = .ok (bs58Encode input) := by
  have hrepresents := represents_foldl_pushDigit (by decide : 1 < 58)
    (by decide) (by decide : 0 < 256) (numbers input)
  rw [bs58EncodeChecked, bs58EncodeLoop_eq hfuel, ok_bind,
    mapM_alphabet hrepresents.digit_lt, ok_bind, bs58Encode, numbers,
    List.foldl_map]
  rfl

/-- The loop over the characters takes the digits first. -/
theorem foldlM_base58Digit_eq (cs : List Char) (start : List UInt8) :
    cs.foldlM (fun result c => do
        let digit ← base58Digit c
        return pushDigit 58 256 result digit) start =
      (cs.mapM base58Digit).map fun ds =>
        ds.foldl (pushDigit 58 256) start := by
  induction cs generalizing start with
  | nil => rfl
  | cons c cs ih =>
      rw [List.foldlM_cons, List.mapM_cons]
      cases base58Digit c with
      | error message => rfl
      | ok digit =>
          rw [ok_bind, ok_bind]
          refine (ih _).trans ?_
          cases cs.mapM base58Digit <;> rfl

/-- The ones in front are the same bytes as characters. -/
theorem length_takeWhile_utf8Bytes (text : String) :
    ((utf8Bytes text).takeWhile (· = 49)).length =
      (text.toList.takeWhile (· = '1')).length := by
  rw [utf8Bytes_eq_flatMap]
  induction text.toList with
  | nil => rfl
  | cons c cs ih =>
      rw [List.flatMap_cons]
      by_cases hone : c = '1'
      · subst hone
        exact congrArg (· + 1) ih
      · have hfirst : ∃ byte bytes,
            String.utf8EncodeChar c = byte :: bytes ∧ byte ≠ 49 := by
          by_cases hascii : c.toNat < 128
          · obtain ⟨byte, hbyte, hsame⟩ := exists_utf8EncodeChar_ascii hascii
            refine ⟨byte, [], hbyte, ?_⟩
            rintro rfl
            exact hone hsame.symm
          · obtain ⟨byte, bytes, hbytes, hge⟩ :=
              exists_utf8EncodeChar_eq (Nat.le_of_not_lt hascii)
            refine ⟨byte, bytes, hbytes, ?_⟩
            rintro rfl
            exact absurd hge (by decide)
        obtain ⟨byte, bytes, hbytes, hne⟩ := hfirst
        rw [hbytes, List.cons_append, List.takeWhile_cons_of_neg (by simpa),
          List.takeWhile_cons_of_neg (by simpa)]
        rfl

/-- On machine words `bs58_decode` does not panic, and reads the same. -/
theorem bs58DecodeChecked_eq {fuel : ℕ} (hfuel : 2 ≤ fuel) (input : String) :
    bs58DecodeChecked fuel input =
      (bs58Decode input).mapError Fault.error := by
  rw [bs58DecodeChecked, bs58DecodeLoop_eq hfuel, mapM_alphaMap_utf8Bytes,
    length_takeWhile_utf8Bytes, bs58Decode, foldlM_base58Digit_eq]
  cases input.toList.mapM base58Digit <;> rfl

end X402Guard.SolanaRpc
