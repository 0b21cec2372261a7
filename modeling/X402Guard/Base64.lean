/-
Base64: three bytes are written as four characters of six bits each, and what is
left at the end is padded to four.
-/
import Mathlib.Data.List.GetD
import Mathlib.Data.List.Nodup

namespace Base64

def alphabet : List Char :=
  ("ABCDEFGHIJKLMNOPQRSTUVWXYZabcdefghijklmnopqrstuvwxyz" ++
    "0123456789+/").toList

/-- The character of six bits. -/
def symbol (n : ℕ) : Char := alphabet.getD n 'A'

/-- The six bits of a character. -/
def digit (c : Char) : Option ℕ := alphabet.idxOf? c

def encodeChars : List UInt8 → List Char
  | a :: b :: c :: rest =>
      symbol (a.toNat / 4) :: symbol (a.toNat % 4 * 16 + b.toNat / 16) ::
        symbol (b.toNat % 16 * 4 + c.toNat / 64) :: symbol (c.toNat % 64) ::
          encodeChars rest
  | [a, b] =>
      [symbol (a.toNat / 4), symbol (a.toNat % 4 * 16 + b.toNat / 16),
        symbol (b.toNat % 16 * 4), '=']
  | [a] => [symbol (a.toNat / 4), symbol (a.toNat % 4 * 16), '=', '=']
  | [] => []

def encode (bytes : List UInt8) : String := String.ofList (encodeChars bytes)

/-- The bytes of four characters.  Bits that padding cuts off are zero. -/
def decodeGroup (p q r s : Char) : Option (List UInt8) := do
  let a ← digit p
  let b ← digit q
  let first := UInt8.ofNat (a * 4 + b / 16)
  if r = '=' ∧ s = '=' then
    if b % 16 = 0 then some [first] else none
  else do
    let c ← digit r
    let second := UInt8.ofNat (b % 16 * 16 + c / 4)
    if s = '=' then
      if c % 4 = 0 then some [first, second] else none
    else do
      let d ← digit s
      return [first, second, UInt8.ofNat (c % 4 * 64 + d)]

/-- Only the last four characters may be padded. -/
def decodeChars : List Char → Option (List UInt8)
  | [] => some []
  | [p, q, r, s] => decodeGroup p q r s
  | p :: q :: r :: s :: rest =>
      if s = '=' then none
      else do
        let bytes ← decodeGroup p q r s
        return bytes ++ (← decodeChars rest)
  | _ => none

def decode (text : String) : Option (List UInt8) := decodeChars text.toList

theorem alphabet_listed :
    alphabet.length = 64 ∧ alphabet.Nodup ∧ '=' ∉ alphabet := by
  decide

theorem symbol_eq_getElem {n : ℕ} (h : n < alphabet.length) :
    symbol n = alphabet[n] :=
  List.getD_eq_getElem _ _ h

theorem digit_symbol {n : ℕ} (h : n < 64) : digit (symbol n) = some n := by
  obtain ⟨hlength, hnodup, _⟩ := alphabet_listed
  have hlt : n < alphabet.length := by rwa [hlength]
  have hsymbol := symbol_eq_getElem hlt
  rw [digit, List.idxOf?_eq_some_iff]
  refine ⟨hlt, hsymbol.symm, fun m hm hsame => ?_⟩
  exact Nat.ne_of_lt hm (hnodup.getElem_inj_iff.mp (hsame.trans hsymbol))

theorem symbol_ne_pad {n : ℕ} (h : n < 64) : symbol n ≠ '=' := by
  obtain ⟨hlength, _, hpad⟩ := alphabet_listed
  have hlt : n < alphabet.length := by rwa [hlength]
  rw [symbol_eq_getElem hlt]
  exact fun hsame => hpad (hsame ▸ List.getElem_mem hlt)

section Groups

variable (a b c : UInt8)

theorem ofNat_eq {n : ℕ} {byte : UInt8} (h : n = byte.toNat) :
    UInt8.ofNat n = byte := by
  rw [h, UInt8.ofNat_toNat]

theorem decodeGroup_three : decodeGroup (symbol (a.toNat / 4))
    (symbol (a.toNat % 4 * 16 + b.toNat / 16))
    (symbol (b.toNat % 16 * 4 + c.toNat / 64)) (symbol (c.toNat % 64)) =
      some [a, b, c] := by
  have ha := a.toNat_lt
  have hb := b.toNat_lt
  have hc := c.toNat_lt
  have hpad := symbol_ne_pad (show c.toNat % 64 < 64 by omega)
  simp only [decodeGroup, digit_symbol (show a.toNat / 4 < 64 by omega),
    digit_symbol (show a.toNat % 4 * 16 + b.toNat / 16 < 64 by omega),
    digit_symbol (show b.toNat % 16 * 4 + c.toNat / 64 < 64 by omega),
    digit_symbol (show c.toNat % 64 < 64 by omega), Option.bind_eq_bind,
    Option.bind_some, hpad, and_false, ↓reduceIte]
  refine congrArg some (congrArg₂ _ (ofNat_eq ?_) (congrArg₂ _ (ofNat_eq ?_)
    (congrArg (· :: []) (ofNat_eq ?_))))
  · omega
  · omega
  · omega

theorem decodeGroup_two : decodeGroup (symbol (a.toNat / 4))
    (symbol (a.toNat % 4 * 16 + b.toNat / 16)) (symbol (b.toNat % 16 * 4))
    '=' = some [a, b] := by
  have ha := a.toNat_lt
  have hb := b.toNat_lt
  have hpad := symbol_ne_pad (show b.toNat % 16 * 4 < 64 by omega)
  have hzero : b.toNat % 16 * 4 % 4 = 0 := by omega
  simp only [decodeGroup, digit_symbol (show a.toNat / 4 < 64 by omega),
    digit_symbol (show a.toNat % 4 * 16 + b.toNat / 16 < 64 by omega),
    digit_symbol (show b.toNat % 16 * 4 < 64 by omega), Option.bind_eq_bind,
    Option.bind_some, hpad, false_and, hzero, ↓reduceIte]
  refine congrArg some (congrArg₂ _ (ofNat_eq ?_)
    (congrArg (· :: []) (ofNat_eq ?_)))
  · omega
  · omega

theorem decodeGroup_one : decodeGroup (symbol (a.toNat / 4))
    (symbol (a.toNat % 4 * 16)) '=' '=' = some [a] := by
  have ha := a.toNat_lt
  have hzero : a.toNat % 4 * 16 % 16 = 0 := by omega
  simp only [decodeGroup, digit_symbol (show a.toNat / 4 < 64 by omega),
    digit_symbol (show a.toNat % 4 * 16 < 64 by omega), Option.bind_eq_bind,
    Option.bind_some, and_self, hzero, ↓reduceIte]
  refine congrArg some (congrArg (· :: []) (ofNat_eq ?_))
  omega

end Groups

theorem decodeChars_encodeChars (bytes : List UInt8) :
    decodeChars (encodeChars bytes) = some bytes := by
  induction bytes using encodeChars.induct with
  | case1 a b c rest ih =>
      have hpad := symbol_ne_pad (show c.toNat % 64 < 64 by omega)
      have hgroup := decodeGroup_three a b c
      cases hrest : encodeChars rest with
      | nil =>
          rw [hrest] at ih
          cases ih
          rw [encodeChars, hrest]
          exact hgroup
      | cons p more =>
          rw [hrest] at ih
          rw [encodeChars, hrest]
          simp only [decodeChars, hpad, ↓reduceIte, Option.bind_eq_bind,
            Option.pure_def, Option.bind_some, hgroup, ih]
          rfl
  | case2 a b => exact decodeGroup_two a b
  | case3 a => exact decodeGroup_one a
  | case4 => rfl

theorem decode_encode (bytes : List UInt8) :
    decode (encode bytes) = some bytes := by
  rw [decode, encode, String.toList_ofList, decodeChars_encodeChars]

end Base64
