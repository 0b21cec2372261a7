/-
The base58 codec.  Each turn of its loops appends a digit to a big-endian
number, so both directions rewrite digits in another base, and each undoes the
other.
-/
import X402Guard.PositionalNotation
import X402Guard.SolanaRpc

namespace X402Guard.SolanaRpc

open PositionalNotation

/-- The bytes as digits. -/
def numbers (bytes : List UInt8) : List ℕ := bytes.map UInt8.toNat

@[simp] theorem numbers_cons (byte : UInt8) (bytes : List UInt8) :
    numbers (byte :: bytes) = byte.toNat :: numbers bytes := rfl

@[simp] theorem length_numbers (bytes : List UInt8) :
    (numbers bytes).length = bytes.length := List.length_map _

theorem numbers_inj {bytes bytes' : List UInt8} :
    numbers bytes = numbers bytes' ↔ bytes = bytes' :=
  (List.map_injective_iff.mpr fun _ _ => UInt8.toNat_inj.mp).eq_iff

theorem numbers_lt (bytes : List UInt8) : ∀ d ∈ numbers bytes, d < 256 := by
  intro d hd
  obtain ⟨byte, _, rfl⟩ := List.mem_map.mp hd
  exact byte.toNat_lt

/-- Digits below 256 are bytes. -/
theorem exists_numbers_eq {ds : List ℕ} (h : ∀ d ∈ ds, d < 256) :
    ∃ bytes, numbers bytes = ds := by
  refine ⟨ds.map UInt8.ofNat, ?_⟩
  rw [numbers, List.map_map]
  refine (List.map_congr_left fun d hd => ?_).trans (List.map_id ds)
  exact UInt8.toNat_ofNat_of_lt' (h d hd)

section Carry

variable {factor base : ℕ}

theorem length_mulAdd (ds : List UInt8) (carry : ℕ) :
    (mulAdd factor base ds carry).1.length = ds.length := by
  induction ds with
  | nil => rfl
  | cons d ds ih => exact congrArg (· + 1) ih

/-- A digit is what the narrowing cast leaves of the carry. -/
theorem toNat_digit (hbase : 1 < base) (hbyte : base ≤ 256) (carry : ℕ) :
    (UInt8.ofNat (carry % base)).toNat = carry % base := by
  have hlt : carry % base < base := Nat.mod_lt _ (by omega)
  exact UInt8.toNat_ofNat_of_lt' (by rw [UInt8.size]; omega)

theorem mulAdd_lt (hbase : 1 < base) (hbyte : base ≤ 256) (ds : List UInt8)
    (carry : ℕ) :
    ∀ d ∈ numbers (mulAdd factor base ds carry).1, d < base := by
  induction ds with
  | nil => simp [mulAdd, numbers]
  | cons d ds ih =>
      rw [mulAdd, numbers_cons, toNat_digit hbase hbyte, List.forall_mem_cons]
      exact ⟨Nat.mod_lt _ (by omega), ih⟩

/-- One pass multiplies by the factor and adds the carry. -/
theorem value_mulAdd (hbase : 1 < base) (hbyte : base ≤ 256)
    (ds : List UInt8) (carry : ℕ) :
    (mulAdd factor base ds carry).2 * base ^ ds.length +
        value base (numbers (mulAdd factor base ds carry).1) =
      value base (numbers ds) * factor + carry := by
  induction ds with
  | nil => simp [mulAdd, numbers]
  | cons d ds ih =>
      rw [mulAdd, numbers_cons, toNat_digit hbase hbyte, numbers_cons,
        value_cons, value_cons, length_numbers, length_numbers,
        length_mulAdd, List.length_cons, pow_succ]
      generalize mulAdd factor base ds carry = passed at ih
      have hsplit := Nat.div_add_mod (passed.2 + d.toNat * factor) base
      calc (passed.2 + d.toNat * factor) / base *
              (base ^ ds.length * base) +
            ((passed.2 + d.toNat * factor) % base * base ^ ds.length +
              value base (numbers passed.1))
          = (base * ((passed.2 + d.toNat * factor) / base) +
              (passed.2 + d.toNat * factor) % base) * base ^ ds.length +
              value base (numbers passed.1) := by ring
        _ = (d.toNat * base ^ ds.length) * factor +
              (passed.2 * base ^ ds.length +
                value base (numbers passed.1)) := by rw [hsplit]; ring
        _ = (d.toNat * base ^ ds.length + value base (numbers ds)) * factor +
              carry := by rw [ih]; ring

/-- The `while` loop ends, and has put the digits of the carry in front. -/
theorem numbers_insertCarry (hbase : 1 < base) (hbyte : base ≤ 256)
    {fuel carry : ℕ} (hfuel : carry ≤ fuel) (ds : List UInt8) :
    numbers (insertCarry base fuel carry ds) =
      digits base carry ++ numbers ds := by
  induction fuel generalizing carry ds with
  | zero =>
      obtain rfl := Nat.le_zero.mp hfuel
      simp [insertCarry]
  | succ fuel ih =>
      rw [insertCarry]
      split
      · rename_i hpos
        have hless : carry / base ≤ fuel :=
          Nat.le_of_lt_succ ((Nat.div_lt_self hpos hbase).trans_le hfuel)
        rw [ih hless, numbers_cons, toNat_digit hbase hbyte,
          digits_of_pos hbase hpos, List.append_assoc, List.singleton_append]
      · rename_i hzero
        obtain rfl : carry = 0 := Nat.eq_zero_of_not_pos hzero
        simp

/-- A turn of the outer loop appends a digit to the number. -/
theorem numbers_pushDigit (hbase : 1 < base) (hbyte : base ≤ 256)
    (hfactor : 0 < factor) {ds : List UInt8} {n : ℕ}
    (hds : numbers ds = digits base n) (d : ℕ) :
    numbers (pushDigit factor base ds d) = digits base (n * factor + d) := by
  have hpassed : _ = value base (numbers ds) * factor + d :=
    value_mulAdd hbase hbyte ds d
  have hsmall : ∀ e ∈ numbers (mulAdd factor base ds d).1, e < base :=
    mulAdd_lt hbase hbyte ds d
  have hlength : (numbers (mulAdd factor base ds d).1).length =
      (numbers ds).length := by
    rw [length_numbers, length_numbers, length_mulAdd]
  rw [pushDigit, numbers_insertCarry hbase hbyte (Nat.le_refl _)]
  generalize mulAdd factor base ds d = passed at *
  have hvalue : value base (digits base passed.2 ++ numbers passed.1) =
      n * factor + d := by
    rw [value_append, value_digits, hlength, length_numbers, hpassed, hds,
      value_digits]
  rw [← hvalue, digits_value hbase]
  · intro e he
    rcases List.mem_append.mp he with hcarry | hdigit
    · exact digits_lt hbase hcarry
    · exact hsmall e hdigit
  · refine head?_carry_ne_zero hbase hlength hsmall ?_ ?_
    · rw [hds]
      exact head?_digits_ne_zero base n
    · rw [hvalue, hds, value_digits]
      exact (Nat.le_mul_of_pos_right n hfactor).trans (Nat.le_add_right _ _)

/-- The whole loop reads its input in the one base and leaves the digits of
that number in the other. -/
theorem numbers_foldl_pushDigit (hbase : 1 < base) (hbyte : base ≤ 256)
    (hfactor : 0 < factor) (ds : List ℕ) :
    numbers (ds.foldl (pushDigit factor base) []) =
      digits base (value factor ds) := by
  induction ds using List.reverseRecOn with
  | nil => simp [numbers]
  | append_singleton ds d ih =>
      rw [List.foldl_concat, numbers_pushDigit hbase hbyte hfactor ih,
        value_snoc]

end Carry

/-- The character of a digit. -/
def symbol (d : ℕ) : Char := base58Alphabet.getD d '1'

/-- What there is to see of the characters. -/
theorem base58Alphabet_listed :
    base58Alphabet.length = 58 ∧ base58Alphabet.Nodup ∧
      base58Alphabet[0]? = some '1' ∧
      base58Alphabet.all (fun c => c.toNat < 128 ∧ c.utf8Size = 1) := by
  have hchars : base58Alphabet = _ := toList_of_eq_ofList (rfl :
    "123456789ABCDEFGHJKLMNPQRSTUVWXYZabcdefghijkmnopqrstuvwxyz" = _)
  rw [hchars]
  decide

theorem length_base58Alphabet : base58Alphabet.length = 58 :=
  base58Alphabet_listed.1

theorem nodup_base58Alphabet : base58Alphabet.Nodup :=
  base58Alphabet_listed.2.1

theorem base58Alphabet_ascii :
    ∀ c ∈ base58Alphabet, c.toNat < 128 ∧ c.utf8Size = 1 := by
  intro c hc
  obtain ⟨_, _, _, hall⟩ := base58Alphabet_listed
  exact of_decide_eq_true (List.all_eq_true.mp hall c hc)

theorem symbol_eq_getElem {d : ℕ} (h : d < 58) :
    base58Alphabet[d]? = some (symbol d) := by
  have hlt : d < base58Alphabet.length := by
    rwa [length_base58Alphabet]
  rw [symbol, List.getD_eq_getElem?_getD, List.getElem?_eq_getElem hlt]
  rfl

theorem symbol_mem {d : ℕ} (h : d < 58) : symbol d ∈ base58Alphabet :=
  List.mem_of_getElem? (symbol_eq_getElem h)

theorem symbol_zero : symbol 0 = '1' := by
  have hzero := symbol_eq_getElem (by decide : 0 < 58)
  rw [base58Alphabet_listed.2.2.1] at hzero
  exact (Option.some.inj hzero).symm

theorem symbol_inj {d e : ℕ} (hd : d < 58) (he : e < 58) :
    symbol d = symbol e ↔ d = e := by
  constructor
  · intro h
    have hsame : base58Alphabet[d]? = base58Alphabet[e]? := by
      rw [symbol_eq_getElem hd, symbol_eq_getElem he, h]
    rw [← length_base58Alphabet] at hd
    exact (List.getElem?_inj hd nodup_base58Alphabet).mp hsame
  · exact congrArg symbol

/-- Exactly the characters of the alphabet have a digit, each its own. -/
theorem base58Digit_eq_ok_iff {c : Char} {d : ℕ} :
    base58Digit c = .ok d ↔ d < 58 ∧ c = symbol d := by
  simp only [base58Digit, except_bind_eq_ok, rejectIf_eq_ok_iff,
    exists_const, okOr_eq_ok_iff, ge_iff_le, not_le,
    List.idxOf?_eq_some_iff]
  constructor
  · rintro ⟨_, hlt, rfl, _⟩
    rw [length_base58Alphabet] at hlt
    refine ⟨hlt, Option.some.inj ?_⟩
    rw [← symbol_eq_getElem hlt, List.getElem?_eq_getElem]
  · rintro ⟨hlt, rfl⟩
    have hsymbol := symbol_eq_getElem hlt
    obtain ⟨hlength, hsymbol⟩ := List.getElem?_eq_some_iff.mp hsymbol
    refine ⟨(base58Alphabet_ascii _ (symbol_mem hlt)).1, hlength, hsymbol, ?_⟩
    intro e he hsame
    have hfirst : e = d :=
      (nodup_base58Alphabet.getElem_inj_iff).mp (hsame.trans hsymbol.symm)
    omega

/-- The characters of the digits. -/
def symbols (ds : List ℕ) : List Char := ds.map symbol

/-- The ones in front of a text are the zeros in front of its digits. -/
theorem length_takeWhile_symbols {ds : List ℕ} (hds : ∀ d ∈ ds, d < 58) :
    ((symbols ds).takeWhile (· = '1')).length = leadingZeros ds := by
  induction ds with
  | nil => rfl
  | cons d ds ih =>
      rw [List.forall_mem_cons] at hds
      have hone : symbol d = '1' ↔ d = 0 := by
        rw [← symbol_zero, symbol_inj hds.1 (by decide)]
      rw [symbols, List.map_cons, leadingZeros]
      by_cases hd : d = 0
      · rw [List.takeWhile_cons_of_pos (by simpa [hone]),
          List.takeWhile_cons_of_pos (by simpa)]
        exact congrArg (· + 1) (ih hds.2)
      · rw [List.takeWhile_cons_of_neg (by simpa [hone]),
          List.takeWhile_cons_of_neg (by simpa), List.length_nil,
          List.length_nil]

theorem forall_mem_symbols {ds : List ℕ} (hds : ∀ d ∈ ds, d < 58) :
    ∀ c ∈ symbols ds, c ∈ base58Alphabet := by
  intro c hc
  obtain ⟨d, hd, rfl⟩ := List.mem_map.mp hc
  exact symbol_mem (hds d hd)

/-- A text over the alphabet is the text of some digits. -/
theorem exists_symbols_eq {cs : List Char} (h : ∀ c ∈ cs, c ∈ base58Alphabet) :
    ∃ ds, (∀ d ∈ ds, d < 58) ∧ cs = symbols ds := by
  induction cs with
  | nil => exact ⟨[], by simp, rfl⟩
  | cons c cs ih =>
      rw [List.forall_mem_cons] at h
      obtain ⟨ds, hds, rfl⟩ := ih h.2
      obtain ⟨d, hd⟩ := List.mem_iff_getElem?.mp h.1
      have hlt : d < 58 := by
        rw [← length_base58Alphabet]
        exact (List.getElem?_eq_some_iff.mp hd).1
      rw [symbol_eq_getElem hlt, Option.some.injEq] at hd
      exact ⟨d :: ds, List.forall_mem_cons.mpr ⟨hlt, hds⟩, hd ▸ rfl⟩

/-- Bytes are written as their digits in base 58. -/
theorem toList_bs58Encode (bytes : List UInt8) :
    (bs58Encode bytes).toList = symbols (convert 256 58 (numbers bytes)) := by
  have hzeros : (bytes.takeWhile (· = 0)).length =
      leadingZeros (numbers bytes) := by
    rw [leadingZeros, numbers, List.takeWhile_map, List.length_map]
    refine congrArg (fun p => (bytes.takeWhile p).length) ?_
    funext byte
    simp [← UInt8.toNat_inj]
  have hdigits : numbers ((numbers bytes).foldl (pushDigit 256 58) []) =
      digits 58 (value 256 (numbers bytes)) :=
    numbers_foldl_pushDigit (by decide) (by decide) (by decide) _
  rw [bs58Encode, String.toList_ofList, symbols, convert, List.map_append,
    List.map_replicate, symbol_zero, ← hdigits, ← hzeros, numbers, numbers,
    List.foldl_map, List.map_map]
  rfl

/-- The loop takes texts over the alphabet, and appends their digits. -/
theorem foldlM_base58Digit_eq_ok_iff {cs : List Char}
    {start result : List UInt8} :
    cs.foldlM (fun result c => do
        let digit ← base58Digit c
        return pushDigit 58 256 result digit) start = Except.ok result ↔
      ∃ ds, (∀ d ∈ ds, d < 58) ∧ cs = symbols ds ∧
        result = ds.foldl (pushDigit 58 256) start := by
  induction cs generalizing start with
  | nil =>
      simp only [List.foldlM_nil, pure, Except.pure, Except.ok.injEq]
      constructor
      · rintro rfl
        exact ⟨[], by simp, rfl, rfl⟩
      · rintro ⟨ds, _, hnil, rfl⟩
        rw [List.map_eq_nil_iff.mp hnil.symm]
        rfl
  | cons c cs ih =>
      simp only [List.foldlM_cons, except_bind_eq_ok, base58Digit_eq_ok_iff,
        ih]
      constructor
      · rintro ⟨_, ⟨d, ⟨hd, rfl⟩, ⟨⟩⟩, ds, hds, rfl, rfl⟩
        exact ⟨d :: ds, List.forall_mem_cons.mpr ⟨hd, hds⟩, rfl, rfl⟩
      · rintro ⟨ds, hds, hcs, rfl⟩
        cases ds with
        | nil => cases hcs
        | cons d ds =>
            rw [List.forall_mem_cons] at hds
            obtain ⟨rfl, rfl⟩ := List.cons_eq_cons.mp hcs
            exact ⟨_, ⟨d, ⟨hds.1, rfl⟩, rfl⟩, ds, hds.2, rfl, rfl⟩

/-- Read are the texts over the alphabet, as their digits in base 256. -/
theorem bs58Decode_eq_ok_iff {input : String} {bytes : List UInt8} :
    bs58Decode input = .ok bytes ↔
      ∃ ds, (∀ d ∈ ds, d < 58) ∧ input.toList = symbols ds ∧
        numbers bytes = convert 58 256 ds := by
  have hconvert : ∀ ds, (∀ d ∈ ds, d < 58) → numbers
      (List.replicate ((symbols ds).takeWhile (· = '1')).length 0 ++
        ds.foldl (pushDigit 58 256) []) = convert 58 256 ds := by
    intro ds hds
    rw [length_takeWhile_symbols hds, numbers, List.map_append,
      List.map_replicate, convert, ← numbers_foldl_pushDigit (by decide)
        (by decide) (by decide)]
    rfl
  simp only [bs58Decode, except_bind_eq_ok, foldlM_base58Digit_eq_ok_iff]
  constructor
  · rintro ⟨_, ⟨ds, hds, htext, rfl⟩, ⟨⟩⟩
    refine ⟨ds, hds, htext, ?_⟩
    rw [htext, hconvert ds hds]
  · rintro ⟨ds, hds, htext, hbytes⟩
    refine ⟨_, ⟨ds, hds, htext, rfl⟩, congrArg Except.ok ?_⟩
    rw [← numbers_inj, hbytes, htext, hconvert ds hds]

theorem bs58Decode_bs58Encode (bytes : List UInt8) :
    bs58Decode (bs58Encode bytes) = .ok bytes :=
  bs58Decode_eq_ok_iff.mpr ⟨convert 256 58 (numbers bytes),
    convert_lt (by decide), toList_bs58Encode bytes,
    (convert_convert (by decide) (numbers_lt bytes)).symm⟩

theorem bs58Encode_of_bs58Decode {input : String} {bytes : List UInt8}
    (h : bs58Decode input = .ok bytes) : bs58Encode bytes = input := by
  obtain ⟨ds, hds, htext, hbytes⟩ := bs58Decode_eq_ok_iff.mp h
  rw [← String.toList_inj, toList_bs58Encode, hbytes,
    convert_convert (by decide) hds, htext]

/-- The texts over the alphabet. -/
def base58Texts : Set String := {input | ∀ c ∈ input.toList, c ∈ base58Alphabet}

theorem mem_base58Texts_iff {input : String} :
    input ∈ base58Texts ↔ ∃ bytes, bs58Decode input = .ok bytes := by
  constructor
  · intro h
    obtain ⟨ds, hds, htext⟩ := exists_symbols_eq h
    have hlt : ∀ d ∈ convert 58 256 ds, d < 256 := convert_lt (by decide)
    obtain ⟨bytes, hbytes⟩ := exists_numbers_eq hlt
    exact ⟨bytes, bs58Decode_eq_ok_iff.mpr ⟨ds, hds, htext, hbytes⟩⟩
  · rintro ⟨bytes, h⟩
    obtain ⟨ds, hds, htext, _⟩ := bs58Decode_eq_ok_iff.mp h
    intro c hc
    rw [htext] at hc
    exact forall_mem_symbols hds c hc

theorem bs58Encode_mem (bytes : List UInt8) :
    bs58Encode bytes ∈ base58Texts :=
  mem_base58Texts_iff.mpr ⟨bytes, bs58Decode_bs58Encode bytes⟩

/-- Bytes and texts over the alphabet correspond one to one, decoding undoes
encoding and the other way round, and every other text is an error. -/
theorem bs58_bijOn :
    (∀ bytes, bs58Decode (bs58Encode bytes) = .ok bytes) ∧
    (∀ input bytes, bs58Decode input = .ok bytes →
      bs58Encode bytes = input) ∧
    Set.BijOn bs58Encode Set.univ base58Texts ∧
    (∀ input input' bytes, bs58Decode input = .ok bytes →
      bs58Decode input' = .ok bytes → input = input') ∧
    ∀ input, (∃ message, bs58Decode input = .error message) ↔
      input ∉ base58Texts := by
  refine ⟨bs58Decode_bs58Encode, fun _ _ => bs58Encode_of_bs58Decode,
    ⟨fun bytes _ => bs58Encode_mem bytes, ?_, ?_⟩, ?_, ?_⟩
  · intro bytes _ bytes' _ hsame
    have hback : bs58Decode (bs58Encode bytes) = .ok bytes' := by
      rw [hsame, bs58Decode_bs58Encode]
    rw [bs58Decode_bs58Encode] at hback
    exact Except.ok.inj hback
  · intro input hinput
    obtain ⟨bytes, hbytes⟩ := mem_base58Texts_iff.mp hinput
    exact ⟨bytes, Set.mem_univ _, bs58Encode_of_bs58Decode hbytes⟩
  · intro input input' bytes h h'
    rw [← bs58Encode_of_bs58Decode h, bs58Encode_of_bs58Decode h']
  · intro input
    rw [mem_base58Texts_iff]
    cases bs58Decode input <;> simp

theorem bs58_bijOn_sample :
    bs58Decode (bs58Encode [0, 0, 255]) = .ok [0, 0, 255] ∧
    bs58Encode [0, 0, 255] = "115Q" ∧
    ∃ message, bs58Decode "0" = .error message := by
  refine ⟨bs58_bijOn.1 _, bs58_bijOn.2.1 _ _ ?_, ?_⟩
  · decide
  · refine (bs58_bijOn.2.2.2.2 _).mpr fun h => ?_
    have hzero := h '0' (by decide)
    exact absurd hzero (by decide)

/-! ### Public keys -/

theorem utf8ByteSize_of_mem {input : String} (h : input ∈ base58Texts) :
    input.utf8ByteSize = input.length := by
  induction input using String.push_induction with
  | empty => rfl
  | push input c ih =>
      have hc : c ∈ base58Alphabet := h c (by simp)
      have hinput : input ∈ base58Texts :=
        fun d hd => h d (by simp [hd])
      rw [String.utf8ByteSize_push, String.length_push, ih hinput,
        (base58Alphabet_ascii c hc).2]

theorem length_bs58Encode (bytes : List UInt8) :
    (bs58Encode bytes).length =
      (convert 256 58 (numbers bytes)).length := by
  rw [← String.length_toList, toList_bs58Encode, symbols, List.length_map]

/-- A key never gets shorter, and 44 characters hold every 32 bytes. -/
theorem length_encodePubkey (key : Pubkey) :
    32 ≤ (encodePubkey key).length ∧ (encodePubkey key).length ≤ 44 := by
  have hlength : (numbers key.bytes).length = 32 := by
    rw [length_numbers, key.length_eq]
  rw [encodePubkey, length_bs58Encode]
  constructor
  · rw [← hlength]
    exact length_le_length_convert (by decide) (by decide) _
  · refine length_convert_le (by decide) (by decide) (by decide)
      (numbers_lt _) ?_
    rw [hlength]
    decide

theorem utf8ByteSize_encodePubkey (key : Pubkey) :
    (encodePubkey key).utf8ByteSize = (encodePubkey key).length :=
  utf8ByteSize_of_mem (bs58Encode_mem key.bytes)

/-- Decoded is a text that the codec reads as the bytes of the key, if it has
at most fifty of them. -/
theorem decodePubkey_eq_ok_iff {b58 : String} {key : Pubkey} :
    decodePubkey b58 = .ok key ↔
      b58.utf8ByteSize ≠ 0 ∧ b58.utf8ByteSize ≤ 50 ∧
        bs58Decode b58 = .ok key.bytes := by
  simp only [decodePubkey, except_bind_eq_ok, rejectIf_eq_ok_iff,
    exists_const, not_or, gt_iff_lt, not_lt, mapError_eq_ok_iff, and_assoc]
  refine and_congr_right fun _ => and_congr_right fun _ => ?_
  constructor
  · rintro ⟨bytes, hbytes, hkey⟩
    split at hkey
    · cases hkey
      exact hbytes
    · cases hkey
  · intro hbytes
    refine ⟨_, hbytes, ?_⟩
    rw [dif_pos key.length_eq]
    rfl

/-- A key has 32 to 44 characters, which is within what is decoded, and keys
and the texts that denote them correspond one to one. -/
theorem encodePubkey_decodes :
    (∀ key, 32 ≤ (encodePubkey key).length ∧
      (encodePubkey key).length ≤ 44 ∧
      (encodePubkey key).utf8ByteSize = (encodePubkey key).length ∧
      decodePubkey (encodePubkey key) = .ok key) ∧
    (∀ b58 key, decodePubkey b58 = .ok key → encodePubkey key = b58) ∧
    ∀ b58 b58' key, decodePubkey b58 = .ok key →
      decodePubkey b58' = .ok key → b58 = b58' := by
  have hback : ∀ b58 key, decodePubkey b58 = .ok key →
      encodePubkey key = b58 := by
    intro b58 key h
    exact bs58Encode_of_bs58Decode (decodePubkey_eq_ok_iff.mp h).2.2
  refine ⟨fun key => ?_, hback, fun b58 b58' key h h' => ?_⟩
  · obtain ⟨hlow, hhigh⟩ := length_encodePubkey key
    have hsize := utf8ByteSize_encodePubkey key
    refine ⟨hlow, hhigh, hsize, decodePubkey_eq_ok_iff.mpr ⟨?_, ?_, ?_⟩⟩
    · omega
    · omega
    · exact bs58Decode_bs58Encode key.bytes
  · rw [← hback b58 key h, hback b58' key h']

/-- The key of the system program. -/
theorem encodePubkey_decodes_sample :
    encodePubkey ⟨.replicate 32 0, rfl⟩ = "11111111111111111111111111111111" ∧
    decodePubkey (encodePubkey ⟨.replicate 32 255, rfl⟩) =
      .ok ⟨.replicate 32 255, rfl⟩ := by
  refine ⟨encodePubkey_decodes.2.1 _ _ ?_, (encodePubkey_decodes.1 _).2.2.2⟩
  decide

end X402Guard.SolanaRpc
