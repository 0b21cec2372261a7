/-
The data of the proxy: JSON values, the errors of its handlers, and the models
its repositories and middleware pass around.  A `u64` is a `Nat` and an `i64` or
a `BIGINT` an `Int`, checked where the code checks or converts it; `U256` and
addresses are bit vectors of their own width.
-/
import Mathlib.Algebra.Ring.Int.Defs
import Mathlib.Algebra.Ring.Nat
import Mathlib.Data.List.Basic

namespace X402Guard

abbrev Uuid := BitVec 128
abbrev Address := BitVec 160
abbrev U256 := BitVec 256

/-- Microseconds since the Unix epoch, the resolution of a `TIMESTAMPTZ`. -/
abbrev Micros := Nat

def microsPerSecond : Nat := 1_000_000

/-- `u64::MAX`. -/
def u64Max : Nat := 2 ^ 64 - 1

/-- `i64::try_from` on an unsigned value. -/
def i64TryFrom (n : Nat) : Option Int :=
  if n < 2 ^ 63 then some n else none

/-- `u64::try_from` on a signed value. -/
def u64TryFrom (n : Int) : Option Nat :=
  if 0 ≤ n then some n.toNat else none

/-- `u32::try_from` on an unsigned value. -/
def u32TryFrom (n : Nat) : Option Nat :=
  if n < 2 ^ 32 then some n else none

/-- `u64::saturating_add`. -/
def u64SaturatingAdd (a b : Nat) : Nat := min (a + b) u64Max

@[simp] theorem i64TryFrom_eq_some_iff {n : Nat} {i : Int} :
    i64TryFrom n = some i ↔ n < 2 ^ 63 ∧ i = n := by
  unfold i64TryFrom
  split
  · simp only [Option.some.injEq]
    omega
  · simp only [reduceCtorEq, false_iff]
    omega

@[simp] theorem u64TryFrom_eq_some_iff {n : Int} {m : Nat} :
    u64TryFrom n = some m ↔ n = m := by
  unfold u64TryFrom
  split
  · simp only [Option.some.injEq]
    omega
  · simp only [reduceCtorEq, false_iff]
    omega

@[simp] theorem u32TryFrom_eq_some_iff {n m : Nat} :
    u32TryFrom n = some m ↔ n < 2 ^ 32 ∧ m = n := by
  unfold u32TryFrom
  split
  · simp only [Option.some.injEq]
    omega
  · simp only [reduceCtorEq, false_iff]
    omega

/-- A byte string of 32 bytes: a nonce, a hash, a Solana public key. -/
structure Bytes32 where
  bytes : List UInt8
  length_eq : bytes.length = 32
deriving DecidableEq

theorem Bytes32.ext {a b : Bytes32} (h : a.bytes = b.bytes) : a = b := by
  cases a
  cases b
  congr

/-- The all-zero byte string. -/
def Bytes32.zero : Bytes32 := ⟨List.replicate 32 0, by simp⟩

/-- The lower-case hex digit of a nibble. -/
def hexDigit (n : Nat) : Char :=
  if n < 10 then Char.ofNat (48 + n) else Char.ofNat (87 + n)

/-- `hex::encode`. -/
def hexEncode (bytes : List UInt8) : String :=
  String.ofList <| bytes.flatMap fun byte =>
    [hexDigit (byte.toNat / 16), hexDigit (byte.toNat % 16)]

/-- The `Display` form of a UUID: hyphenated lower-case hex. -/
def formatUuid (id : Uuid) : String :=
  let hex := (hexEncode ((List.range 16).map fun i =>
    UInt8.ofNat (id.toNat / 256 ^ (15 - i)))).toList
  String.ofList <| List.intercalate ['-'] [hex.take 8, (hex.drop 8).take 4,
    (hex.drop 12).take 4, (hex.drop 16).take 4, hex.drop 20]

/-- Decoding a literal is slow to evaluate; its characters are known. -/
theorem toList_of_eq_ofList {text : String} {chars : List Char}
    (h : text = String.ofList chars) : text.toList = chars := by
  rw [h, String.toList_ofList]

/-- The value of a hex digit of either case, read as an ASCII byte. -/
def hexValue (byte : UInt8) : Option Nat :=
  let code := byte.toNat
  if 48 ≤ code ∧ code ≤ 57 then some (code - 48)
  else if 65 ≤ code ∧ code ≤ 70 then some (code - 55)
  else if 97 ≤ code ∧ code ≤ 102 then some (code - 87)
  else none

/-- `hex::FromHexError`. -/
inductive FromHexError
  | invalidHexCharacter
  | oddLength
  | invalidStringLength
deriving DecidableEq, Repr

/-- `hex::decode` on the UTF-8 bytes of its text. -/
def hexDecode : List UInt8 → Except FromHexError (List UInt8)
  | [] => .ok []
  | [_] => .error .oddLength
  | high :: low :: rest =>
      if rest.length % 2 = 1 then .error .oddLength
      else match hexValue high, hexValue low with
        | some h, some l => (hexDecode rest).map (UInt8.ofNat (16 * h + l) :: ·)
        | _, _ => .error .invalidHexCharacter

def utf8Bytes (text : String) : List UInt8 :=
  text.toByteArray.data.toList

theorem utf8Bytes_eq_flatMap (text : String) :
    utf8Bytes text = text.toList.flatMap String.utf8EncodeChar := by
  rw [utf8Bytes, ← String.utf8Encode_toList, List.utf8Encode,
    List.data_toByteArray]

/-- An ASCII character is one byte. -/
theorem exists_utf8EncodeChar_ascii {c : Char} (h : c.toNat < 128) :
    ∃ byte, String.utf8EncodeChar c = [byte] ∧ Char.ofUInt8 byte = c := by
  have hbyte : (UInt8.ofNat c.val.toNat).toNat = c.val.toNat :=
    UInt8.toNat_ofNat_of_lt' (Nat.lt_trans h (by decide))
  exact ⟨UInt8.ofNat c.val.toNat, if_pos (Nat.le_of_lt_succ h),
    Char.ext (UInt32.toNat_inj.mp hbyte)⟩

/-- Past ASCII a character starts with a byte past ASCII. -/
theorem exists_utf8EncodeChar_eq {c : Char} (h : 128 ≤ c.toNat) :
    ∃ byte bytes, String.utf8EncodeChar c = byte :: bytes ∧
      128 ≤ byte.toNat := by
  have hval : 128 ≤ c.val.toNat := h
  rw [String.utf8EncodeChar, if_neg (by omega)]
  split
  · refine ⟨_, _, rfl, ?_⟩
    rw [UInt8.toNat_ofNat']
    omega
  · split
    · refine ⟨_, _, rfl, ?_⟩
      rw [UInt8.toNat_ofNat']
      omega
    · refine ⟨_, _, rfl, ?_⟩
      rw [UInt8.toNat_ofNat']
      omega

/-- `trim_start_matches("0x")`: every leading `0x` goes. -/
def trimStart0x : List Char → List Char
  | '0' :: 'x' :: rest => trimStart0x rest
  | text => text

/-- `str::parse::<u64>`: an optional plus sign, then decimal digits only. -/
def parseU64 (text : String) : Option Nat :=
  let digits := match text.toList with
    | '+' :: rest => rest
    | all => all
  if digits.isEmpty ∨ ¬ digits.all Char.isDigit then none
  else
    let value := digits.foldl (fun acc c => 10 * acc + (c.toNat - 48)) 0
    if value ≤ u64Max then some value else none

/-- `serde_json::Number`; a float is kept by its bits. -/
inductive Number
  | posInt (value : Nat)
  | negInt (magnitude : Nat)
  | float (bits : Nat)
deriving BEq, Repr

/-- `serde_json::Value`. -/
inductive Value
  | null
  | bool (value : Bool)
  | number (value : Number)
  | string (value : String)
  | array (items : List Value)
  | object (fields : List (String × Value))
deriving BEq, Repr

namespace Value

/-- `Value::get` with a string key: present only in an object.  Of a repeated
key the parser keeps the last value. -/
def get (value : Value) (key : String) : Option Value :=
  match value with
  | .object fields => fields.reverse.lookup key
  | _ => none

/-- Indexing with a string key, `Null` when absent. -/
def index (value : Value) (key : String) : Value :=
  (value.get key).getD .null

def asStr : Value → Option String
  | .string value => some value
  | _ => none

def asU64 : Value → Option Nat
  | .number (.posInt value) => some value
  | _ => none

/-- `serde_json::from_value::<Vec<String>>`. -/
def toStrings : Value → Option (List String)
  | .array items => items.mapM asStr
  | _ => none

def ofStrings (items : List String) : Value :=
  .array (items.map .string)

def ofNat (n : Nat) : Value := .number (.posInt n)

@[simp] theorem toStrings_ofStrings (items : List String) :
    (ofStrings items).toStrings = some items := by
  simp only [ofStrings, toStrings]
  induction items with
  | nil => rfl
  | cons item rest ih => simp [asStr, ih]

end Value

/-- The error type of every handler, with the text it carries. -/
inductive AppError
  | badRequest (message : String)
  | unauthorized (message : String)
  | forbidden (message : String)
  | notFound (message : String)
  | rateLimited
  | guardrailViolation (message : String)
  | internal (cause : String)
deriving DecidableEq, Repr

/-- The `Display` text of an error. -/
def AppError.toString : AppError → String
  | .badRequest message => s!"bad request: {message}"
  | .unauthorized message => s!"unauthorized: {message}"
  | .forbidden message => s!"forbidden: {message}"
  | .notFound message => s!"not found: {message}"
  | .rateLimited => "rate limited"
  | .guardrailViolation message => s!"guardrail violated: {message}"
  | .internal cause => s!"internal error: {cause}"

structure Agent where
  id : Uuid
  name : String
  ownerAddress : String
  isActive : Bool
deriving DecidableEq, Repr

inductive RuleType
  /-- Maximum spend per single transaction. -/
  | maxSpendPerTx (limit : Nat)
  /-- Maximum spend per 24h rolling window. -/
  | maxSpendPerDay (limit : Nat)
  | allowedContracts (addresses : List String)
  | maxLeverage (max : Nat)
  | maxSlippage (bps : Nat)
deriving DecidableEq, Repr

structure GuardrailRule where
  id : Uuid
  agentId : Uuid
  ruleType : RuleType
  isActive : Bool
deriving DecidableEq, Repr

structure SessionKey where
  id : Uuid
  agentId : Uuid
  publicKey : String
  maxSpend : Nat
  spent : Nat
  allowedContracts : List String
  expiresAt : Int
  isRevoked : Bool
deriving DecidableEq, Repr

inductive AuditEventType
  | proxyRequestReceived
  | proxyRequestForwarded
  | proxyRequestFailed
  | guardrailViolation
  | sessionKeyCreated
  | sessionKeyUsed
  | sessionKeyRevoked
  | allSessionKeysRevoked
  | agentCreated
  | agentDeactivated
  | solanaVaultQueried
  | solanaWithdrawSubmitted
  | solanaWithdrawConfirmed
  | solanaWithdrawFailed
deriving DecidableEq, Repr

structure AuditEvent where
  agentId : Option Uuid
  sessionKeyId : Option Uuid
  eventType : AuditEventType
  metadata : Value

/-- Result of a successful payment verification. -/
structure VerifiedPayment where
  «from» : Address
  «to» : Address
  value : U256
  nonce : Bytes32
  network : String
deriving DecidableEq

/-- A computation that succeeded did so in every part. -/
theorem except_bind_eq_ok {ε α β : Type} {x : Except ε α}
    {f : α → Except ε β} {b : β} :
    x >>= f = .ok b ↔ ∃ a, x = .ok a ∧ f a = .ok b := by
  cases x with
  | error e => simp [bind, Except.bind]
  | ok a => simp [bind, Except.bind]

theorem mapError_eq_ok_iff {ε ε' α : Type} {f : ε → ε'} {x : Except ε α}
    {a : α} : x.mapError f = .ok a ↔ x = .ok a := by
  cases x <;> simp [Except.mapError]

/-- `?` on an `Option` turned into an error. -/
def okOr {ε α : Type} (error : ε) : Option α → Except ε α
  | some value => .ok value
  | none => .error error

@[simp] theorem okOr_eq_ok_iff {ε α : Type} {error : ε}
    {value? : Option α} {value : α} :
    okOr error value? = .ok value ↔ value? = some value := by
  cases value? <;> simp [okOr]

/-- Fail with `error` when the condition holds. -/
def rejectIf {ε : Type} (condition : Prop) [Decidable condition] (error : ε) :
    Except ε Unit :=
  if condition then .error error else .ok ()

@[simp] theorem rejectIf_eq_ok_iff {ε : Type} {condition : Prop}
    [Decidable condition] {error : ε} {u : Unit} :
    rejectIf condition error = .ok u ↔ ¬ condition := by
  unfold rejectIf
  split <;> simp_all

/-! ### Numbers in decimal -/

theorem toList_toString (n : ℕ) : (toString n).toList = Nat.toDigits 10 n :=
  Nat.toList_repr

theorem not_mem_digits {c : Char} (hc : c.isDigit = false) (n : ℕ) :
    c ∉ Nat.toDigits 10 n := by
  intro h
  have hdigit := Nat.isDigit_of_mem_toDigits (by decide) (by decide) h
  rw [hc] at hdigit
  cases hdigit

end X402Guard
