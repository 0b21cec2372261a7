/-
What the proxy reads of a vault: base58 keys, and the state of the vault out of
the bytes of its account.  The offsets are those of the code, a `usize` has 64
bits, and reading past the end or overflowing would be a panic.
-/
import X402Guard.VaultLayout

namespace X402Guard

open Borsh (Holds fromLeBytes Serialize serialize)

/-- How a function can fail: with an error that it returns, or by a panic. -/
inductive Fault (ε : Type)
  | error (error : ε)
  | panic (cause : String)
deriving DecidableEq

/-- Fail with an error when the condition holds. -/
def refuseIf {ε : Type} (condition : Prop) [Decidable condition] (error : ε) :
    Except (Fault ε) Unit :=
  rejectIf condition (.error error)

/-- The computation does not panic, and what it returns satisfies `Q`. -/
def Sound {ε α : Type} (Q : α → Prop) : Except (Fault ε) α → Prop
  | .ok value => Q value
  | .error (.error _) => True
  | .error (.panic _) => False

namespace Sound

variable {ε α β : Type} {Q : α → Prop} {R : β → Prop}

theorem pure {value : α} (h : Q value) :
    Sound Q (.ok value : Except (Fault ε) α) := h

theorem bind {x : Except (Fault ε) α} {f : α → Except (Fault ε) β}
    (hx : Sound Q x) (hf : ∀ value, Q value → Sound R (f value)) :
    Sound R (x >>= f) := by
  cases x with
  | ok value => exact hf value hx
  | error fault => cases fault <;> exact hx

theorem refuseIf {condition : Prop} [Decidable condition] {error : ε} :
    Sound (fun _ => ¬ condition) (refuseIf condition error) := by
  by_cases h : condition
  · rw [X402Guard.refuseIf, rejectIf, if_pos h]
    trivial
  · rw [X402Guard.refuseIf, rejectIf, if_neg h]
    exact h

/-- A sound computation returns something or fails with an error. -/
theorem cases {x : Except (Fault ε) α} (h : Sound Q x) :
    (∃ value, x = .ok value) ∨ ∃ error, x = .error (.error error) := by
  cases x with
  | ok value => exact Or.inl ⟨value, rfl⟩
  | error fault =>
      cases fault with
      | error error => exact Or.inr ⟨error, rfl⟩
      | panic => exact h.elim

end Sound

namespace SolanaRpc

def base58Alphabet : List Char :=
  "123456789ABCDEFGHJKLMNPQRSTUVWXYZabcdefghijkmnopqrstuvwxyz".toList

/-- One pass over a big-endian number, from its last digit to the first: each
digit is multiplied by `factor`, in base `base`, and what is carried goes on. -/
def mulAdd (factor base : ℕ) : List UInt8 → ℕ → List UInt8 × ℕ
  | [], carry => ([], carry)
  | digit :: rest, carry =>
      let (rest, carry) := mulAdd factor base rest carry
      let carry := carry + digit.toNat * factor
      (UInt8.ofNat (carry % base) :: rest, carry / base)

/-- The `while carry > 0` loop, with at most `fuel` turns. -/
def insertCarry (base : ℕ) : ℕ → ℕ → List UInt8 → List UInt8
  | 0, _, digits => digits
  | fuel + 1, carry, digits =>
      if carry > 0 then
        insertCarry base fuel (carry / base)
          (UInt8.ofNat (carry % base) :: digits)
      else digits

/-- Append one digit: a turn of the outer loop of the conversion. -/
def pushDigit (factor base : ℕ) (digits : List UInt8) (digit : ℕ) :
    List UInt8 :=
  let (digits, carry) := mulAdd factor base digits digit
  insertCarry base carry carry digits

/-- The digit of a character; one past ASCII is refused by its first byte. -/
def base58Digit (c : Char) : Except String ℕ := do
  rejectIf (c.toNat ≥ 128) "non-ASCII character in base58"
  okOr s!"invalid base58 character: '{c}'" (base58Alphabet.idxOf? c)

def bs58Decode (input : String) : Except String (List UInt8) := do
  let chars := input.toList
  let leadingZeros := (chars.takeWhile (· = '1')).length
  let result ← chars.foldlM (fun result c => do
    let digit ← base58Digit c
    return pushDigit 58 256 result digit) []
  return List.replicate leadingZeros 0 ++ result

def bs58Encode (input : List UInt8) : String :=
  let leadingZeros := (input.takeWhile (· = 0)).length
  let digits := input.foldl
    (fun digits byte => pushDigit 256 58 digits byte.toNat) []
  String.ofList (List.replicate leadingZeros '1' ++
    digits.map fun d => base58Alphabet.getD d.toNat '1')

/-- Decode a base58-encoded Solana public key into 32 bytes. -/
def decodePubkey (b58 : String) : Except String Pubkey := do
  rejectIf (b58.utf8ByteSize = 0 ∨ b58.utf8ByteSize > 50)
    s!"invalid pubkey length: {b58.utf8ByteSize}"
  let bytes ← (bs58Decode b58).mapError fun _ => "invalid base58 pubkey"
  if h : bytes.length = 32 then return ⟨bytes, h⟩
  else .error s!"pubkey must be 32 bytes, got {bytes.length}"

def encodePubkey (key : Pubkey) : String := bs58Encode key.bytes

abbrev Decoded (α : Type) := Except (Fault String) α

/-- `a + b` on `usize`. -/
def addUsize (a b : ℕ) : Decoded ℕ :=
  if a + b < 2 ^ 64 then .ok (a + b)
  else .error (.panic "attempt to add with overflow")

/-- `a * b` on `usize`. -/
def mulUsize (a b : ℕ) : Decoded ℕ :=
  if a * b < 2 ^ 64 then .ok (a * b)
  else .error (.panic "attempt to multiply with overflow")

/-- `data[pos]`. -/
def byteAt (data : List UInt8) (pos : ℕ) : Decoded UInt8 :=
  okOr (.panic "index out of bounds") data[pos]?

/-- `data[start..stop]`. -/
def sliceAt (data : List UInt8) (start stop : ℕ) : Decoded (List UInt8) :=
  if start ≤ stop ∧ stop ≤ data.length then
    .ok ((data.drop start).take (stop - start))
  else .error (.panic "range out of bounds")

/-- A slice as an array: `copy_from_slice`, `try_into().unwrap()`. -/
def toArray (width : ℕ) (bytes : List UInt8) :
    Decoded { bytes : List UInt8 // bytes.length = width } :=
  if h : bytes.length = width then .ok ⟨bytes, h⟩
  else .error (.panic "slice length does not match array length")

/-- Read `width` bytes at the given position, advancing it. -/
def readArray (what : String) (width : ℕ) (data : List UInt8) (pos : ℕ) :
    Decoded ({ bytes : List UInt8 // bytes.length = width } × ℕ) := do
  refuseIf ((← addUsize pos width) > data.length)
    s!"not enough data for {what} at offset {pos}"
  let bytes ← toArray width (← sliceAt data pos (← addUsize pos width))
  return (bytes, ← addUsize pos width)

def readPubkey (data : List UInt8) (pos : ℕ) : Decoded (Pubkey × ℕ) := do
  let (bytes, pos) ← readArray "pubkey" 32 data pos
  return (⟨bytes.1, bytes.2⟩, pos)

def readU64 (data : List UInt8) (pos : ℕ) : Decoded (UInt64 × ℕ) := do
  let (bytes, pos) ← readArray "u64" 8 data pos
  return (UInt64.ofNat (fromLeBytes bytes.1), pos)

def readI64 (data : List UInt8) (pos : ℕ) : Decoded (Int64 × ℕ) := do
  let (bytes, pos) ← readArray "i64" 8 data pos
  return ((UInt64.ofNat (fromLeBytes bytes.1)).toInt64, pos)

def readU32 (data : List UInt8) (pos : ℕ) : Decoded (ℕ × ℕ) := do
  let (bytes, pos) ← readArray "u32" 4 data pos
  return (fromLeBytes bytes.1, pos)

/-- The loop over the allowed programs. -/
def readPubkeys (data : List UInt8) : ℕ → ℕ → Decoded (List Pubkey × ℕ)
  | 0, pos => return ([], pos)
  | count + 1, pos => do
      let (key, pos) ← readPubkey data pos
      let (rest, pos) ← readPubkeys data count pos
      return (key :: rest, pos)

/-- The fields of a vault that the proxy keeps. -/
structure VaultState where
  owner : Pubkey
  agent : Pubkey
  maxSpendPerTx : UInt64
  maxSpendPerDay : UInt64
  spentToday : UInt64
  dayWindowStart : Int64
  agentExpiresAt : Int64
  allowedPrograms : List Pubkey
  isActive : Bool
  bump : UInt8
deriving DecidableEq

namespace VaultState

/-- The size of an account without allowed programs. -/
def minVaultDataSize : ℕ := 8 + 32 + 32 + 8 + 8 + 8 + 8 + 8 + 4 + 1 + 1 + 64

/-- Deserialize from raw account bytes, the discriminator included. -/
def fromAccountData (data : List UInt8) : Decoded VaultState := do
  refuseIf (data.length < minVaultDataSize)
    (s!"account data too short: {data.length} bytes, need at least " ++
      s!"{minVaultDataSize}")
  -- skip the Anchor discriminator
  let (owner, pos) ← readPubkey data 8
  let (agent, pos) ← readPubkey data pos
  let (maxSpendPerTx, pos) ← readU64 data pos
  let (maxSpendPerDay, pos) ← readU64 data pos
  let (spentToday, pos) ← readU64 data pos
  let (dayWindowStart, pos) ← readI64 data pos
  let (agentExpiresAt, pos) ← readI64 data pos
  let (vecLen, pos) ← readU32 data pos
  refuseIf (vecLen > 10)
    s!"allowed_programs length {vecLen} exceeds maximum 10"
  let needed ← addUsize (← addUsize (← addUsize
    (← addUsize pos (← mulUsize vecLen 32)) 1) 1) 64
  refuseIf (data.length < needed)
    (s!"account data too short for {vecLen} allowed_programs: " ++
      s!"{data.length} bytes, need {needed}")
  let (allowedPrograms, pos) ← readPubkeys data vecLen pos
  let isActive := (← byteAt data pos) ≠ 0
  let pos ← addUsize pos 1
  let bump ← byteAt data pos
  return {
    owner, agent, maxSpendPerTx, maxSpendPerDay, spentToday, dayWindowStart
    agentExpiresAt, allowedPrograms, isActive, bump }

end VaultState

theorem addUsize_sound {a b : ℕ} (h : a + b < 2 ^ 64) :
    Sound (fun sum => sum = a + b) (addUsize a b) := by
  rw [addUsize, if_pos h]
  rfl

theorem mulUsize_sound {a b : ℕ} (h : a * b < 2 ^ 64) :
    Sound (fun product => product = a * b) (mulUsize a b) := by
  rw [mulUsize, if_pos h]
  rfl

theorem byteAt_sound {data : List UInt8} {pos : ℕ} (h : pos < data.length) :
    Sound (fun _ => True) (byteAt data pos) := by
  rw [byteAt, List.getElem?_eq_getElem h]
  trivial

theorem sliceAt_sound {data : List UInt8} {start stop : ℕ}
    (hle : start ≤ stop) (hstop : stop ≤ data.length) :
    Sound (fun bytes => bytes.length = stop - start)
      (sliceAt data start stop) := by
  rw [sliceAt, if_pos ⟨hle, hstop⟩]
  change ((data.drop start).take (stop - start)).length = stop - start
  rw [List.length_take, List.length_drop]
  omega

theorem toArray_sound {width : ℕ} {bytes : List UInt8}
    (h : bytes.length = width) :
    Sound (fun _ => True) (toArray width bytes) := by
  rw [toArray, dif_pos h]
  trivial

theorem readArray_sound {what : String} {width pos : ℕ} {data : List UInt8}
    (h : pos + width < 2 ^ 64) :
    Sound (fun result => result.2 = pos + width)
      (readArray what width data pos) := by
  have hadd : Sound (fun sum => sum = pos + width) (addUsize pos width) :=
    addUsize_sound h
  apply hadd.bind
  rintro _ rfl
  apply Sound.refuseIf.bind
  intro _ hfits
  apply hadd.bind
  rintro _ rfl
  apply (sliceAt_sound (Nat.le_add_right _ _) (not_lt.mp hfits)).bind
  intro bytes hbytes
  apply (toArray_sound (hbytes.trans (Nat.add_sub_cancel_left _ _))).bind
  intro _ _
  apply hadd.bind
  rintro _ rfl
  exact Sound.pure rfl

theorem readPubkey_sound {data : List UInt8} {pos : ℕ}
    (h : pos + 32 < 2 ^ 64) :
    Sound (fun result => result.2 = pos + 32) (readPubkey data pos) := by
  apply (readArray_sound h).bind
  rintro ⟨_, _⟩ rfl
  exact Sound.pure rfl

theorem readU64_sound {data : List UInt8} {pos : ℕ} (h : pos + 8 < 2 ^ 64) :
    Sound (fun result => result.2 = pos + 8) (readU64 data pos) := by
  apply (readArray_sound h).bind
  rintro ⟨_, _⟩ rfl
  exact Sound.pure rfl

theorem readI64_sound {data : List UInt8} {pos : ℕ} (h : pos + 8 < 2 ^ 64) :
    Sound (fun result => result.2 = pos + 8) (readI64 data pos) := by
  apply (readArray_sound h).bind
  rintro ⟨_, _⟩ rfl
  exact Sound.pure rfl

theorem readU32_sound {data : List UInt8} {pos : ℕ} (h : pos + 4 < 2 ^ 64) :
    Sound (fun result => result.2 = pos + 4) (readU32 data pos) := by
  apply (readArray_sound h).bind
  rintro ⟨_, _⟩ rfl
  exact Sound.pure rfl

theorem readPubkeys_sound {data : List UInt8} {count pos : ℕ}
    (h : pos + count * 32 < 2 ^ 64) :
    Sound (fun result => result.2 = pos + count * 32)
      (readPubkeys data count pos) := by
  induction count generalizing pos with
  | zero => exact Sound.pure (by omega)
  | succ count ih =>
      have hone : pos + 32 < 2 ^ 64 := by omega
      apply (readPubkey_sound hone).bind
      rintro ⟨_, _⟩ rfl
      have hrest : pos + 32 + count * 32 < 2 ^ 64 := by omega
      apply (ih hrest).bind
      rintro ⟨_, _⟩ rfl
      refine Sound.pure ?_
      change pos + 32 + count * 32 = pos + (count + 1) * 32
      omega

namespace VaultState

/-- Whatever the bytes are, reading them does not panic. -/
theorem fromAccountData_sound (data : List UInt8) :
    Sound (fun _ => True) (fromAccountData data) := by
  apply Sound.refuseIf.bind
  intro _ _
  apply (readPubkey_sound (by omega)).bind
  rintro ⟨owner, _⟩ rfl
  apply (readPubkey_sound (by omega)).bind
  rintro ⟨agent, _⟩ rfl
  apply (readU64_sound (by omega)).bind
  rintro ⟨maxSpendPerTx, _⟩ rfl
  apply (readU64_sound (by omega)).bind
  rintro ⟨maxSpendPerDay, _⟩ rfl
  apply (readU64_sound (by omega)).bind
  rintro ⟨spentToday, _⟩ rfl
  apply (readI64_sound (by omega)).bind
  rintro ⟨dayWindowStart, _⟩ rfl
  apply (readI64_sound (by omega)).bind
  rintro ⟨agentExpiresAt, _⟩ rfl
  apply (readU32_sound (by omega)).bind
  rintro ⟨vecLen, _⟩ rfl
  apply Sound.refuseIf.bind
  intro _ hvecLen
  apply (mulUsize_sound (by omega)).bind
  rintro _ rfl
  apply (addUsize_sound (by omega)).bind
  rintro _ rfl
  apply (addUsize_sound (by omega)).bind
  rintro _ rfl
  apply (addUsize_sound (by omega)).bind
  rintro _ rfl
  apply (addUsize_sound (by omega)).bind
  rintro _ rfl
  apply Sound.refuseIf.bind
  intro _ hneeded
  apply (readPubkeys_sound (by omega)).bind
  rintro ⟨allowedPrograms, _⟩ rfl
  apply (byteAt_sound (by omega)).bind
  intro isActive _
  apply (addUsize_sound (by omega)).bind
  rintro _ rfl
  apply (byteAt_sound (by omega)).bind
  intro bump _
  trivial

end VaultState

theorem addUsize_eq {a b : ℕ} (h : a + b < 2 ^ 64) :
    addUsize a b = .ok (a + b) := if_pos h

theorem mulUsize_eq {a b : ℕ} (h : a * b < 2 ^ 64) :
    mulUsize a b = .ok (a * b) := if_pos h

theorem refuseIf_eq_ok {ε : Type} {condition : Prop} [Decidable condition]
    {error : ε} (h : ¬ condition) : refuseIf condition error = .ok () :=
  if_neg h

theorem ok_bind {ε α β : Type} (value : α) (f : α → Except ε β) :
    (Except.ok value >>= f) = f value := rfl

theorem byteAt_of_holds {data : List UInt8} {pos : ℕ} {byte : UInt8}
    (h : Holds data pos [byte]) : byteAt data pos = .ok byte := by
  obtain ⟨before, after, rfl, rfl⟩ := h
  simp [byteAt, okOr]

theorem readArray_of_holds {what : String} {width pos : ℕ}
    {data bytes : List UInt8} (h : Holds data pos bytes)
    (hwidth : bytes.length = width) (hpos : pos + width < 2 ^ 64) :
    readArray what width data pos = .ok (⟨bytes, hwidth⟩, pos + width) := by
  have hle : pos + width ≤ data.length := hwidth ▸ h.le_length
  have hslice : sliceAt data pos (pos + width) = .ok bytes := by
    rw [sliceAt, if_pos ⟨Nat.le_add_right _ _, hle⟩, Nat.add_sub_cancel_left,
      ← hwidth, h.slice]
  simp only [readArray, addUsize_eq hpos, ok_bind,
    refuseIf_eq_ok (not_lt.mpr hle), hslice, toArray, dif_pos hwidth]
  rfl

theorem readPubkey_of_holds {data : List UInt8} {pos : ℕ} {key : Pubkey}
    (h : Holds data pos (serialize key)) (hpos : pos + 32 < 2 ^ 64) :
    readPubkey data pos = .ok (key, pos + 32) := by
  rw [readPubkey, readArray_of_holds h key.length_eq hpos]
  rfl

theorem readU64_of_holds {data : List UInt8} {pos : ℕ} {n : UInt64}
    (h : Holds data pos (serialize n)) (hpos : pos + 8 < 2 ^ 64) :
    readU64 data pos = .ok (n, pos + 8) := by
  rw [readU64, readArray_of_holds h (Borsh.length_serialize_uint64 n) hpos,
    ok_bind]
  simp only [Borsh.ofNat_fromLeBytes_uint64]
  rfl

theorem readI64_of_holds {data : List UInt8} {pos : ℕ} {n : Int64}
    (h : Holds data pos (serialize n)) (hpos : pos + 8 < 2 ^ 64) :
    readI64 data pos = .ok (n, pos + 8) := by
  rw [readI64, readArray_of_holds h (Borsh.length_serialize_int64 n) hpos,
    ok_bind]
  simp only [Borsh.toInt64_fromLeBytes_int64]
  rfl

theorem readU32_of_holds {data : List UInt8} {pos : ℕ} {n : UInt32}
    (h : Holds data pos (serialize n)) (hpos : pos + 4 < 2 ^ 64) :
    readU32 data pos = .ok (n.toNat, pos + 4) := by
  rw [readU32, readArray_of_holds h (Borsh.length_serialize_uint32 n) hpos,
    ok_bind]
  simp only [Borsh.fromLeBytes_uint32]
  rfl

theorem readPubkeys_of_holds {data : List UInt8} {pos : ℕ}
    {keys : List Pubkey} (h : Holds data pos (keys.flatMap serialize))
    (hpos : pos + keys.length * 32 < 2 ^ 64) :
    readPubkeys data keys.length pos = .ok (keys, pos + keys.length * 32) := by
  induction keys generalizing pos with
  | nil => rfl
  | cons key rest ih =>
      rw [List.flatMap_cons] at h
      obtain ⟨hkey, hrest⟩ := h.split (length_serialize_pubkey key)
      rw [List.length_cons] at hpos
      rw [List.length_cons, readPubkeys, readPubkey_of_holds hkey (by omega),
        ok_bind]
      simp only [ih hrest (by omega), ok_bind]
      rw [show pos + (rest.length + 1) * 32 = pos + 32 + rest.length * 32 by
        omega]
      rfl

namespace VaultState

/-- What the proxy keeps of the state of a vault. -/
def ofVault (vault : X402Guard.VaultState) : VaultState where
  owner := vault.owner
  agent := vault.agent
  maxSpendPerTx := vault.maxSpendPerTx
  maxSpendPerDay := vault.maxSpendPerDay
  spentToday := vault.spentToday
  dayWindowStart := vault.dayWindowStart
  agentExpiresAt := vault.agentExpiresAt
  allowedPrograms := vault.allowedPrograms
  isActive := vault.isActive
  bump := vault.bump

/-- The fields of a vault that lies in the data at the offset 8 are read from
where they are. -/
theorem fromAccountData_of_holds {data : List UInt8}
    {vault : X402Guard.VaultState} (h : Holds data 8 (serialize vault))
    (hfew : vault.allowedPrograms.length ≤ maxAllowedPrograms) :
    fromAccountData data = .ok (ofVault vault) := by
  have hlength := h.le_length
  rw [X402Guard.VaultState.length_serialize] at hlength
  rw [maxAllowedPrograms] at hfew
  have hcount : (UInt32.ofNat vault.allowedPrograms.length).toNat =
      vault.allowedPrograms.length := by
    rw [UInt32.toNat_ofNat']
    omega
  rw [X402Guard.VaultState.serialize_eq] at h
  obtain ⟨howner, h⟩ := h.split (length_serialize_pubkey _)
  obtain ⟨hagent, h⟩ := h.split (length_serialize_pubkey _)
  obtain ⟨hperTx, h⟩ := h.split (Borsh.length_serialize_uint64 _)
  obtain ⟨hperDay, h⟩ := h.split (Borsh.length_serialize_uint64 _)
  obtain ⟨hspent, h⟩ := h.split (Borsh.length_serialize_uint64 _)
  obtain ⟨hstart, h⟩ := h.split (Borsh.length_serialize_int64 _)
  obtain ⟨hexpires, h⟩ := h.split (Borsh.length_serialize_int64 _)
  obtain ⟨hprograms, h⟩ :=
    h.split (Borsh.length_serialize_list length_serialize_pubkey _)
  obtain ⟨hvecLen, hprograms⟩ :=
    hprograms.split (Borsh.length_serialize_uint32 _)
  obtain ⟨hactive, h⟩ := h.split (Borsh.length_serialize_bool _)
  obtain ⟨hbump, _⟩ := h.split (Borsh.length_serialize_uint8 _)
  have hvecLen := readU32_of_holds hvecLen (by omega)
  have hprograms := readPubkeys_of_holds hprograms (by omega)
  have hpos : 8 + 32 + 32 + 8 + 8 + 8 + 8 + 8 +
      (4 + 32 * vault.allowedPrograms.length) =
      8 + 32 + 32 + 8 + 8 + 8 + 8 + 8 + 4 +
        vault.allowedPrograms.length * 32 := by
    omega
  rw [hcount] at hvecLen
  rw [hpos] at hactive hbump
  rw [fromAccountData, minVaultDataSize, refuseIf_eq_ok (by omega), ok_bind,
    readPubkey_of_holds howner (by omega), ok_bind]
  dsimp only
  rw [readPubkey_of_holds hagent (by omega), ok_bind]
  dsimp only
  rw [readU64_of_holds hperTx (by omega), ok_bind]
  dsimp only
  rw [readU64_of_holds hperDay (by omega), ok_bind]
  dsimp only
  rw [readU64_of_holds hspent (by omega), ok_bind]
  dsimp only
  rw [readI64_of_holds hstart (by omega), ok_bind]
  dsimp only
  rw [readI64_of_holds hexpires (by omega), ok_bind]
  dsimp only
  rw [hvecLen, ok_bind]
  dsimp only
  rw [refuseIf_eq_ok (by omega), ok_bind, mulUsize_eq (by omega), ok_bind,
    addUsize_eq (by omega), ok_bind, addUsize_eq (by omega), ok_bind,
    addUsize_eq (by omega), ok_bind, addUsize_eq (by omega), ok_bind,
    refuseIf_eq_ok (by omega), ok_bind, hprograms, ok_bind]
  dsimp only
  rw [byteAt_of_holds hactive, ok_bind, addUsize_eq (by omega), ok_bind,
    byteAt_of_holds hbump, ok_bind]
  cases hisActive : vault.isActive <;> simp [ofVault, hisActive] <;> rfl

/-- The proxy reads back what the program wrote, whatever surrounds it, and
reads nothing that is not there. -/
theorem fromAccountData_reads :
    (∀ (vault : X402Guard.VaultState) (discriminator padding : List UInt8),
      discriminator.length = X402Guard.VaultState.discriminatorLen →
      vault.allowedPrograms.length ≤ maxAllowedPrograms →
      fromAccountData (discriminator ++ serialize vault ++ padding) =
        .ok (ofVault vault)) ∧
    ∀ data, (∃ vault, fromAccountData data = .ok vault) ∨
      ∃ message, fromAccountData data = .error (.error message) := by
  constructor
  · intro vault discriminator padding hlength hfew
    exact fromAccountData_of_holds ⟨discriminator, padding, hlength, rfl⟩ hfew
  · intro data
    exact (fromAccountData_sound data).cases

end VaultState

end SolanaRpc

namespace VaultSample

/-- A vault with two allowed programs. -/
def listed : VaultState where
  owner := owner
  agent := agent
  maxSpendPerTx := perTx
  maxSpendPerDay := perDay
  spentToday := 0
  dayWindowStart := noon
  agentExpiresAt := 0
  allowedPrograms := [key 7, key 9]
  isActive := true
  bump := 255
  reserved := .replicate 64 0

end VaultSample

theorem SolanaRpc.VaultState.fromAccountData_reads_sample :
    VaultSample.listed.allowedPrograms.length = 2 ∧
    fromAccountData (List.replicate 8 0xBB ++ serialize VaultSample.listed ++
        List.replicate 256 0) =
      .ok (ofVault VaultSample.listed) :=
  ⟨rfl, fromAccountData_reads.1 VaultSample.listed _ _ rfl (by decide)⟩

end X402Guard
