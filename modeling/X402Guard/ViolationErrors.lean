/-
The error that the client of the SDK makes of a 403.  It reads the rule and the
two amounts out of the message, each as the double nearest to the number that
the guardrails compared.
-/
import Mathlib.Data.List.Find
import X402Guard.DashboardActions
import X402Guard.Doubles
import X402Guard.TextPatterns

namespace X402Guard.Sdk

open Doubles RuleForms TextPatterns

/-- `number | string`. -/
inductive Figure
  | number (value : Double)
  | text (value : String)

structure GuardrailViolationError where
  message : String
  ruleType : String
  limit : Figure
  actual : Figure

namespace GuardrailViolationError

/-- `\s*`. -/
def spaces : Piece := .run 0 isJsSpace

/-- `\s+`. -/
def someSpaces : Piece := .run 1 isJsSpace

/-- `(\d+)`. -/
def digits : Piece := .group Char.isDigit

/-- `^guardrail violated:\s*`, in any letter case. -/
def violatedPrefix : List Piece :=
  ("guardrail violated:".toList.map fun c => .one (·.toLower = c)) ++ [spaces]

/-- `word\s+(\d+)`, before more. -/
def amountAfter (word : String) (pieces : List Piece) : List Piece :=
  literal word.toList ++ someSpaces :: digits :: pieces

/-- `\s*>\s*`, before more. -/
def above (pieces : List Piece) : List Piece :=
  spaces :: .one (· = '>') :: spaces :: pieces

def spendTx : List Piece :=
  amountAfter "payment" (above (amountAfter "limit" []))

def spendDay : List Piece :=
  amountAfter "daily total" (above (amountAfter "limit" []))

def leverage : List Piece :=
  digits :: above (amountAfter "max" [])

def slippage : List Piece :=
  digits :: spaces :: (literal "bps".toList ++
    above (amountAfter "max" (spaces :: literal "bps".toList)))

def contract : List Piece :=
  literal "target".toList ++ someSpaces :: .group (fun c => !isJsSpace c) ::
    someSpaces :: literal "not in whitelist".toList

/-- The text after the optional prefix. -/
def cleaned (errorStr : String) : List Char :=
  ((matchHere violatedPrefix errorStr.toList).map Prod.snd).getD
    errorStr.toList

/-- `parseInt(text, 10)` of digits.  The digits after the twentieth, which an
engine may take as zeros, count as in V8. -/
def figure (captured : List Char) : Figure :=
  .number (Double.ofNat (Nat.ofDigitChars 10 captured 0))

/-- The actual amount and the limit, by the first format that is found. -/
def amounts (cleaned : List Char) : Figure × Figure :=
  match [spendTx, spendDay, leverage, slippage].findSome? (search · cleaned)
  with
  | some [actual, limit] => (figure actual, figure limit)
  | _ =>
      match search contract cleaned with
      | some [target] => (.text (String.ofList target), .text "whitelist")
      | _ => (.text "unknown", .text "unknown")

def fromApiResponse (error : Option String) : GuardrailViolationError :=
  let errorStr := error.getD ""
  let cleaned := cleaned errorStr
  let (actual, limit) := amounts cleaned
  { message := errorStr
    ruleType := (ruleTypeVariants.find? (·.toList.isPrefixOf cleaned)).getD
      "Unknown"
    limit := limit
    actual := actual }

section Texts

variable {pieces : List Piece} {left : List Char}
variable {found : List (List Char) × List Char} {least : ℕ}

theorem isDigit_of_mem {c : Char} {n : ℕ} (h : c ∈ Nat.toDigits 10 n) :
    c.isDigit = true :=
  Nat.isDigit_of_mem_toDigits (by decide) (by decide) h

theorem isJsSpace_of_isDigit {c : Char} (h : c.isDigit = true) :
    isJsSpace c = false := by
  have hrange : 48 ≤ c.toNat ∧ c.toNat ≤ 57 := by
    simpa [Char.isDigit, UInt32.le_iff_toNat_le] using h
  simp only [isJsSpace, Bool.or_eq_false_iff, Bool.and_eq_false_iff,
    decide_eq_false_iff_not]
  omega

/-- The number is followed by no digit. -/
theorem matchHere_number (n : ℕ) (hleft : ∀ c ∈ left.head?, c.isDigit = false)
    (h : matchHere pieces left = some found) :
    matchHere (digits :: pieces) (Nat.toDigits 10 n ++ left) =
      some (Nat.toDigits 10 n :: found.1, found.2) :=
  matchHere_group Nat.toDigits_ne_nil (fun _ => isDigit_of_mem) hleft h

/-- A blank between two characters that are none. -/
theorem matchHere_blank (hleast : least ≤ 1)
    (hleft : ∀ c ∈ left.head?, isJsSpace c = false)
    (h : matchHere pieces left = some found) :
    matchHere (.run least isJsSpace :: pieces) (' ' :: left) = some found := by
  have hblank : ∀ c ∈ [' '], isJsSpace c = true :=
    List.forall_mem_singleton.mpr rfl
  exact matchHere_run hleast hblank hleft h

theorem not_space_of_number (n : ℕ) :
    ∀ c ∈ (Nat.toDigits 10 n ++ left).head?, isJsSpace c = false := by
  intro c hc
  rw [List.head?_append_of_ne_nil _ Nat.toDigits_ne_nil] at hc
  exact isJsSpace_of_isDigit (isDigit_of_mem (List.mem_of_mem_head? hc))

theorem matchHere_amountAfter (word : String) (n : ℕ)
    (hleft : ∀ c ∈ left.head?, c.isDigit = false)
    (h : matchHere pieces left = some found) :
    matchHere (amountAfter word pieces)
        (word.toList ++ ' ' :: (Nat.toDigits 10 n ++ left)) =
      some (Nat.toDigits 10 n :: found.1, found.2) := by
  rw [amountAfter, matchHere_literal]
  exact matchHere_blank (Nat.le_refl 1) (not_space_of_number n)
    (matchHere_number n hleft h)

theorem matchHere_above (hleft : ∀ c ∈ left.head?, isJsSpace c = false)
    (h : matchHere pieces left = some found) :
    matchHere (above pieces) (' ' :: '>' :: ' ' :: left) = some found := by
  refine matchHere_blank (Nat.zero_le 1) (fun _ heq => ?_) ?_
  · cases heq
    decide
  · exact matchHere_blank (Nat.zero_le 1) hleft h

/-- After blanks comes what is not the sign. -/
theorem matchHere_above_eq_none (blanks : List Char) {c : Char}
    (hblanks : ∀ b ∈ blanks, isJsSpace b = true) (hspace : isJsSpace c = false)
    (hc : c ≠ '>') : matchHere (above pieces) (blanks ++ c :: left) = none := by
  rw [above, spaces, matchHere, takeWhile_eq hblanks (by simpa using hspace),
    List.findSome?_eq_none_iff]
  intro n hn
  rw [List.drop_append_of_le_length (mem_runLengths.mp hn).2]
  cases hrest : blanks.drop n with
  | nil => rw [List.nil_append, matchHere, if_neg (by simpa using hc)]
  | cons b rest =>
      have hb : isJsSpace b = true :=
        hblanks b (List.mem_of_mem_drop (hrest ▸ List.mem_cons_self))
      rw [List.cons_append, matchHere, if_neg]
      rw [decide_eq_true_eq]
      rintro rfl
      cases hb

/-- A text with two numbers. -/
def measured (first second third : String) (actual limit : ℕ) : List Char :=
  first.toList ++ (Nat.toDigits 10 actual ++ (second.toList ++
    (Nat.toDigits 10 limit ++ third.toList)))

/-- An amount after a word is looked for outside the numbers. -/
theorem search_amountAfter_eq_none {word first second third : String}
    {actual limit : ℕ}
    (hword : word.toList.head?.map Char.isDigit = some false)
    (hfirst : rejectsAll (amountAfter word pieces) first.toList = true)
    (hsecond : rejectsAll (amountAfter word pieces) second.toList = true)
    (hthird : rejectsAll (amountAfter word pieces) third.toList = true) :
    search (amountAfter word pieces)
      (measured first second third actual limit) = none := by
  obtain ⟨c, hc, hdigit⟩ := Option.map_eq_some_iff.mp hword
  obtain ⟨rest, hrest⟩ := List.head?_eq_some_iff.mp hc
  have hone : amountAfter word pieces = .one (· = c) ::
      (literal rest ++ someSpaces :: digits :: pieces) := by
    rw [amountAfter, hrest]
    rfl
  have hnumber : ∀ n, rejectsAll (amountAfter word pieces)
      (Nat.toDigits 10 n) = true := by
    intro n
    rw [hone]
    refine rejectsAll_of_forall fun d hd => decide_eq_false ?_
    rintro rfl
    rw [isDigit_of_mem hd] at hdigit
    cases hdigit
  rw [measured, search_append hfirst, search_append (hnumber actual),
    search_append hsecond, search_append (hnumber limit),
    ← List.append_nil third.toList, search_append hthird, hone]
  rfl

/-- The text of a spending limit. -/
theorem search_spend {intro word : String} {actual limit : ℕ}
    (hintro : rejectsAll (amountAfter word (above (amountAfter "limit" [])))
      intro.toList = true) :
    search (amountAfter word (above (amountAfter "limit" [])))
        (measured (intro ++ word ++ " ") " > limit " "" actual limit) =
      some [Nat.toDigits 10 actual, Nat.toDigits 10 limit] := by
  have hend : matchHere [] ([] : List Char) = some ([], []) := rfl
  have hlimit := matchHere_amountAfter "limit" limit (by simp) hend
  have habove := matchHere_above (by simp [isJsSpace]) hlimit
  have hword := matchHere_amountAfter word actual (by simp) habove
  have hfound := (search_append hintro).trans (search_of_matchHere hword)
  simpa [measured] using hfound

end Texts

section Rules

variable {pieces : List Piece} {text : List Char}
variable {actual limit : ℕ}

/-- A number as the proxy writes it and the client reads it. -/
def written (n : ℕ) : Figure :=
  .number (Double.ofNat n)

theorem figure_toDigits (n : ℕ) :
    figure (Nat.toDigits 10 n) = written n := by
  rw [figure, written, Nat.ofDigitChars_ten_toDigits]

theorem amounts_eq
    (h : [spendTx, spendDay, leverage, slippage].findSome? (search · text) =
      some [Nat.toDigits 10 actual, Nat.toDigits 10 limit]) :
    amounts text = (written actual, written limit) := by
  rw [← figure_toDigits, ← figure_toDigits, amounts, h]

theorem search_leverage : search leverage
    (measured ("MaxLeverage" ++ " exceeded: ") ("" ++ " > max ") "" actual
      limit) =
      some [Nat.toDigits 10 actual, Nat.toDigits 10 limit] := by
  have hend : matchHere [] ([] : List Char) = some ([], []) := rfl
  have hmax := matchHere_amountAfter "max" limit (by simp) hend
  have habove := matchHere_above (by simp [isJsSpace]) hmax
  have hactual := matchHere_number actual (by simp) habove
  rw [measured, search_append (by decide)]
  have hfound := search_of_matchHere hactual
  simpa [leverage] using hfound

/-- The number is followed by its unit, so it is no amount of leverage. -/
theorem search_leverage_slippage : search leverage
    (measured ("MaxSlippage" ++ " exceeded: ") (" bps" ++ " > max ") " bps"
      actual limit) = none := by
  have hpast : ∀ n left, search leverage
      (Nat.toDigits 10 n ++ ' ' :: 'b' :: left) =
        search leverage (' ' :: 'b' :: left) := by
    intro n left
    refine search_group_append (fun _ => isDigit_of_mem) (by simp) ?_
    -- a shorter run stops at a digit, the whole one at the unit
    intro rest hrest
    cases rest with
    | nil =>
        exact matchHere_above_eq_none [' ']
          (List.forall_mem_singleton.mpr rfl) (by decide) (by decide)
    | cons d rest =>
        have hdigit := isDigit_of_mem (hrest.subset List.mem_cons_self)
        refine matchHere_above_eq_none [] (List.forall_mem_nil _)
          (isJsSpace_of_isDigit hdigit) ?_
        rintro rfl
        cases hdigit
  rw [measured, search_append (by decide)]
  refine (hpast actual _).trans ?_
  refine (search_append (by decide)).trans ?_
  exact (hpast limit _).trans (by decide)

theorem search_slippage : search slippage
    (measured ("MaxSlippage" ++ " exceeded: ") (" bps" ++ " > max ") " bps"
      actual limit) =
      some [Nat.toDigits 10 actual, Nat.toDigits 10 limit] := by
  have hend : matchHere [] ([] : List Char) = some ([], []) := rfl
  have hbps : matchHere (spaces :: literal "bps".toList)
      (' ' :: "bps".toList) = some ([], []) := by decide
  have hmax := matchHere_amountAfter "max" limit (by simp) hbps
  have habove := matchHere_above (by simp [isJsSpace]) hmax
  have hunit : matchHere (literal "bps".toList ++ _) ("bps".toList ++ _) = _ :=
    matchHere_literal.trans habove
  have hblank := matchHere_blank (Nat.zero_le 1) (by simp [isJsSpace]) hunit
  have hactual := matchHere_number actual (by simp) hblank
  rw [measured, search_append (by decide)]
  have hfound := search_of_matchHere hactual
  simpa [slippage, spaces] using hfound

/-- The texts of the rules that compare two amounts. -/
theorem amounts_spendTx :
    amounts (measured ("MaxSpendPerTx exceeded: " ++ "payment" ++ " ")
      " > limit " "" actual limit) = (written actual, written limit) := by
  refine amounts_eq ?_
  rw [List.findSome?_cons, spendTx, search_spend (by decide)]

theorem amounts_spendDay :
    amounts (measured ("MaxSpendPerDay exceeded: " ++ "daily total" ++ " ")
      " > limit " "" actual limit) = (written actual, written limit) := by
  refine amounts_eq ?_
  rw [List.findSome?_cons, spendTx, search_amountAfter_eq_none (by decide)
    (by decide) (by decide) (by decide), List.findSome?_cons, spendDay,
    search_spend (by decide)]

/-- No spending limit is read where neither of its texts stands. -/
theorem findSome?_unspent {first second third : String}
    {patterns : List (List Piece)}
    (hparts : [first, second, third].all (fun part =>
      rejectsAll spendTx part.toList && rejectsAll spendDay part.toList) =
        true) :
    (spendTx :: spendDay :: patterns).findSome?
        (search · (measured first second third actual limit)) =
      patterns.findSome?
        (search · (measured first second third actual limit)) := by
  simp only [List.all_cons, List.all_nil, Bool.and_true,
    Bool.and_eq_true] at hparts
  obtain ⟨⟨hfirst, hfirst'⟩, ⟨hsecond, hsecond'⟩, hthird, hthird'⟩ := hparts
  have htx : search spendTx (measured first second third actual limit) = none :=
    search_amountAfter_eq_none (by decide) hfirst hsecond hthird
  have hday : search spendDay (measured first second third actual limit) =
      none :=
    search_amountAfter_eq_none (by decide) hfirst' hsecond' hthird'
  rw [List.findSome?_cons, htx, List.findSome?_cons, hday]

theorem amounts_leverage :
    amounts (measured ("MaxLeverage" ++ " exceeded: ") ("" ++ " > max ") ""
      actual limit) = (written actual, written limit) := by
  refine amounts_eq ?_
  rw [findSome?_unspent (by decide), List.findSome?_cons, search_leverage]

theorem amounts_slippage :
    amounts (measured ("MaxSlippage" ++ " exceeded: ")
      (" bps" ++ " > max ") " bps" actual limit) =
        (written actual, written limit) := by
  refine amounts_eq ?_
  rw [findSome?_unspent (by decide), List.findSome?_cons,
    search_leverage_slippage, List.findSome?_cons, search_slippage]

/-- One word. -/
def IsWord (text : List Char) : Prop :=
  text ≠ [] ∧ ∀ c ∈ text, isJsSpace c = false

/-- After a word, no number stands after a blank. -/
theorem search_word_eq_none {target : List Char} (first : List Piece)
    (word : String) (h : ∀ c ∈ target, isJsSpace c = false) :
    search (first ++ amountAfter word pieces)
      (target ++ " not in whitelist".toList) = none := by
  by_contra hsearch
  obtain ⟨rest, hrest, hmatch⟩ := exists_suffix_of_search hsearch
  obtain ⟨rest', hrest', hmatch⟩ := exists_suffix_of_matchHere hmatch
  obtain ⟨rest'', hrest'', hmatch⟩ := exists_suffix_of_matchHere hmatch
  obtain ⟨b, c, more, hmore, hb, hc⟩ := exists_adjacent_of_matchHere hmatch
  have hlate := adjacent_of_append
    (((hmore.trans hrest'').trans hrest').trans hrest) h hb
  have hfinite : (" not in whitelist".toList.tails.all fun tail =>
      !(isJsSpace (tail.headD 'x') && (tail.tail.headD 'x').isDigit)) =
        true := by
    decide
  have hneither :=
    List.all_eq_true.mp hfinite _ ((List.mem_tails _ _).mpr hlate)
  rw [List.tail_cons, List.headD_cons, List.headD_cons, hb, hc] at hneither
  cases hneither

/-- A text with a word. -/
def quoted (first second third : String) (target : List Char) : List Char :=
  first.toList ++ (second.toList ++ ' ' :: (target ++ third.toList))

theorem search_unlisted_eq_none {target : List Char} (first : List Piece)
    (word : String) (h : ∀ c ∈ target, isJsSpace c = false)
    (hbefore : rejectsAll (first ++ amountAfter word pieces)
      ("AllowedContracts: ".toList ++ ("target".toList ++ [' '])) = true) :
    search (first ++ amountAfter word pieces)
      (quoted "AllowedContracts: " "target" " not in whitelist" target) =
        none := by
  have htext : ∀ first second third, quoted first second third target =
      (first.toList ++ (second.toList ++ [' '])) ++
        (target ++ third.toList) := by
    simp [quoted]
  rw [htext, search_append hbefore]
  exact search_word_eq_none first word h

theorem search_contract {target : List Char} (h : IsWord target) :
    search contract (quoted "AllowedContracts: " "target"
      " not in whitelist" target) = some [target] := by
  have hend : matchHere (someSpaces :: literal "not in whitelist".toList)
      " not in whitelist".toList = some ([], []) := by decide
  have hword : ∀ c ∈ target, (!isJsSpace c) = true := by simpa using h.2
  have hafter : ∀ c ∈ " not in whitelist".toList.head?,
      (!isJsSpace c) = false := by
    intro c hc
    obtain rfl : ' ' = c := Option.some.inj hc
    rfl
  have htarget := matchHere_group h.1 hword hafter hend
  have hhead : ∀ c ∈ (target ++ " not in whitelist".toList).head?,
      isJsSpace c = false := by
    intro c hc
    rw [List.head?_append_of_ne_nil _ h.1] at hc
    exact h.2 c (List.mem_of_mem_head? hc)
  have hblank := matchHere_blank (Nat.le_refl 1) hhead htarget
  rw [quoted, search_append (by decide)]
  exact search_of_matchHere (matchHere_literal.trans hblank)

theorem amounts_contract {target : List Char} (h : IsWord target) :
    amounts (quoted "AllowedContracts: " "target"
      " not in whitelist" target) =
      (.text (String.ofList target), .text "whitelist") := by
  -- every format has a number after a blank
  have hslippage : slippage = (digits :: spaces :: (literal "bps".toList ++
      [spaces, .one (· = '>'), spaces])) ++
        amountAfter "max" (spaces :: literal "bps".toList) := by
    simp [slippage, above]
  have hnone : [spendTx, spendDay, leverage, slippage].findSome?
      (search · (quoted "AllowedContracts: " "target"
        " not in whitelist" target)) = none := by
    rw [List.findSome?_eq_none_iff]
    intro pattern hpattern
    simp only [List.mem_cons, List.not_mem_nil, or_false] at hpattern
    rcases hpattern with rfl | rfl | rfl | rfl
    · exact search_unlisted_eq_none [] "payment" h.2 (by decide)
    · exact search_unlisted_eq_none [] "daily total" h.2 (by decide)
    · exact search_unlisted_eq_none [digits, spaces, .one (· = '>'), spaces]
        "max" h.2 (by decide)
    · rw [hslippage]
      exact search_unlisted_eq_none _ "max" h.2 (by decide)
  rw [amounts, hnone, search_contract h]

end Rules

section Refusals

variable {ext : Externals} {payment : VerifiedPayment}
variable {requirements : PaymentRequirements} {dailySpent : ℕ}
variable {error : AppError}

/-- A text that starts with the name of its rule. -/
theorem fromApiResponse_eq {message : String}
    {first left : List Char}
    (htext : message.toList = first ++ left)
    (hrejects : rejects violatedPrefix first = true)
    (hlong : ∀ name ∈ ruleTypeVariants, name.toList.length ≤ first.length) :
    fromApiResponse (some message) =
      ⟨message, (ruleTypeVariants.find? (·.toList.isPrefixOf first)).getD
        "Unknown", (amounts message.toList).2,
        (amounts message.toList).1⟩ := by
  have hcleaned : cleaned message = message.toList := by
    rw [cleaned, htext, matchHere_eq_none hrejects]
    rfl
  have hname : ruleTypeVariants.find? (·.toList.isPrefixOf message.toList) =
      ruleTypeVariants.find? (·.toList.isPrefixOf first) := by
    refine List.find?_congr fun name hname => ?_
    rw [htext, Bool.eq_iff_iff, List.isPrefixOf_iff_prefix,
      List.isPrefixOf_iff_prefix]
    constructor
    · intro h
      exact List.prefix_of_prefix_length_le h (List.prefix_append first left)
        (hlong name hname)
    · exact fun h => h.trans (List.prefix_append first left)
  simp only [fromApiResponse, Option.getD_some, hcleaned, hname]

/-- A bound in the caller's metadata. -/
def extraBound (requirements : PaymentRequirements) (field : String) :
    Option ℕ :=
  (requirements.extra.get field).bind fun value => value.asU64.bind u32TryFrom

/-- The two numbers that a rule compares: the actual one, and its limit. -/
def compared (payment : VerifiedPayment) (requirements : PaymentRequirements)
    (dailySpent : ℕ) : RuleType → Option (ℕ × ℕ)
  | .maxSpendPerTx limit => some (payment.value.toNat, limit)
  | .maxSpendPerDay limit =>
      some ((BitVec.ofNat 256 dailySpent + payment.value).toNat, limit)
  | .allowedContracts _ => none
  | .maxLeverage max => (extraBound requirements "leverage").map (·, max)
  | .maxSlippage bps => (extraBound requirements "slippageBps").map (·, bps)

/-- What there is to read when a rule refused: the actual figure, and the
limit. -/
def figures (payment : VerifiedPayment) (requirements : PaymentRequirements)
    (dailySpent : ℕ) (rule : RuleType) : Figure × Figure :=
  match compared payment requirements dailySpent rule, rule with
  | some (actual, limit), _ => (written actual, written limit)
  | none, .allowedContracts (_ :: _) =>
      (.text ((targetContract requirements).getD requirements.payTo),
        .text "whitelist")
  | none, _ => (.text "unknown", .text "unknown")

theorem rejectIf_eq_error_iff {ε : Type} {condition : Prop}
    [Decidable condition] {e e' : ε} :
    rejectIf condition e = .error e' ↔ condition ∧ e = e' := by
  unfold rejectIf
  split <;> simp_all

/-- The client reads the rule, and the figures unless they are of a target that
is not one word. -/
structure Shown (payment : VerifiedPayment)
    (requirements : PaymentRequirements) (dailySpent : ℕ) (rule : RuleType)
    (message : String) : Prop where
  ruleType : (fromApiResponse (some message)).ruleType = ruleTypeName rule
  figures : ((∃ addresses, rule = .allowedContracts addresses) → IsWord
      ((targetContract requirements).getD requirements.payTo).toList) →
    ((fromApiResponse (some message)).actual,
      (fromApiResponse (some message)).limit) =
        figures payment requirements dailySpent rule

/-- The figures are doubles nearest to the two numbers, which they are
themselves as long as they are doubles. -/
structure Exceeded (error : GuardrailViolationError) (actual limit : ℕ) :
    Prop where
  lt : limit < actual
  nearest : ∃ a l, error.actual = .number (.finite a) ∧
    error.limit = .number (.finite l) ∧ Nearest a actual ∧ Nearest l limit
  exact : actual ≤ 2 ^ 53 → error.actual = .number (.finite actual) ∧
    error.limit = .number (.finite limit)

/-- The client reads what the rule compared. -/
structure Read (payment : VerifiedPayment)
    (requirements : PaymentRequirements) (dailySpent : ℕ) (rule : RuleType)
    (message : String) : Prop
    extends Shown payment requirements dailySpent rule message where
  exceeded : ∀ {actual limit},
    compared payment requirements dailySpent rule = some (actual, limit) →
      rule.InRange → Exceeded (fromApiResponse (some message)) actual limit

theorem shown_of_text {rule : RuleType} {message : String}
    {first left : List Char} (htext : message.toList = first ++ left)
    (hrejects : rejects violatedPrefix first = true)
    (hlong : ∀ name ∈ ruleTypeVariants, name.toList.length ≤ first.length)
    (hname : (ruleTypeVariants.find? (·.toList.isPrefixOf first)).getD
      "Unknown" = ruleTypeName rule)
    (hfigures : ((∃ addresses, rule = .allowedContracts addresses) → IsWord
        ((targetContract requirements).getD requirements.payTo).toList) →
      amounts (first ++ left) =
        figures payment requirements dailySpent rule) :
    Shown payment requirements dailySpent rule message := by
  have hread := fromApiResponse_eq htext hrejects hlong
  refine ⟨?_, fun hword => ?_⟩
  · rw [hread]
    exact hname
  · rw [hread, htext]
    exact hfigures hword

theorem toList_spendTx {actual limit : ℕ} :
    s!"MaxSpendPerTx exceeded: payment {actual} > limit {limit}".toList =
      measured ("MaxSpendPerTx exceeded: " ++ "payment" ++ " ") " > limit " ""
        actual limit := by
  simp only [String.toList_append, toList_toString, measured]
  simp [toString]

theorem shown_maxSpendPerTx {limit : ℕ}
    (h : checkMaxSpendPerTx payment.value limit = .error error) :
    Shown payment requirements dailySpent (.maxSpendPerTx limit)
      error.response.2 := by
  obtain ⟨_, rfl⟩ := rejectIf_eq_error_iff.mp h
  refine shown_of_text toList_spendTx (by decide) (by decide) ?_
    fun _ => amounts_spendTx
  change _ = "MaxSpendPerTx"
  decide

theorem toList_spendDay {actual limit : ℕ} :
    s!"MaxSpendPerDay exceeded: daily total {actual} > limit {limit}".toList =
      measured ("MaxSpendPerDay exceeded: " ++ "daily total" ++ " ")
        " > limit " "" actual limit := by
  simp only [String.toList_append, toList_toString, measured]
  simp [toString]

theorem shown_maxSpendPerDay {limit : ℕ}
    (h : checkMaxSpendPerDay payment.value dailySpent limit = .error error) :
    Shown payment requirements dailySpent (.maxSpendPerDay limit)
      error.response.2 := by
  obtain ⟨_, rfl⟩ := rejectIf_eq_error_iff.mp h
  refine shown_of_text toList_spendDay (by decide) (by decide) ?_
    fun _ => amounts_spendDay
  change _ = "MaxSpendPerDay"
  decide

/-- A closed text in which no format is found. -/
theorem shown_of_unknown {rule : RuleType} {message : String}
    (hrejects : rejects violatedPrefix message.toList = true)
    (hlong : ∀ name ∈ ruleTypeVariants,
      name.toList.length ≤ message.toList.length)
    (hname : (ruleTypeVariants.find? (·.toList.isPrefixOf message.toList)).getD
      "Unknown" = ruleTypeName rule)
    (hnone : ∀ pattern ∈ [spendTx, spendDay, leverage, slippage, contract],
      search pattern message.toList = none)
    (hfigures : figures payment requirements dailySpent rule =
      (.text "unknown", .text "unknown")) :
    Shown payment requirements dailySpent rule message := by
  refine shown_of_text (List.append_nil _).symm hrejects hlong hname fun _ => ?_
  rw [List.append_nil, hfigures]
  simp only [List.mem_cons, List.not_mem_nil, or_false, forall_eq_or_imp,
    forall_eq] at hnone
  obtain ⟨htx, hday, hleverage, hslippage, hcontract⟩ := hnone
  simp only [amounts, List.findSome?_cons, List.findSome?_nil, htx, hday,
    hleverage, hslippage, hcontract]

theorem toList_bound (name unit : String) {actual limit : ℕ} :
    s!"{name} exceeded: {actual}{unit} > max {limit}{unit}".toList =
      measured (name ++ " exceeded: ") (unit ++ " > max ") unit actual
        limit := by
  simp only [String.toList_append, toList_toString, measured]
  simp [toString]

/-- A bound is refused because it is invalid, or because it is exceeded. -/
theorem checkExtraBound_eq_error {field name invalid unit : String} {max : ℕ}
    (h : checkExtraBound requirements field name invalid unit max =
      .error error) :
    (extraBound requirements field = none ∧
      error = .guardrailViolation invalid) ∨
    ∃ bound, extraBound requirements field = some bound ∧ max < bound ∧
      error = .guardrailViolation
        s!"{name} exceeded: {bound}{unit} > max {max}{unit}" := by
  rw [checkExtraBound] at h
  rw [extraBound]
  cases hfield : requirements.extra.get field with
  | none =>
      rw [hfield] at h
      cases h
  | some value =>
      simp only [hfield] at h
      rw [Option.bind_some]
      cases hbound : value.asU64.bind u32TryFrom with
      | none =>
          rw [hbound] at h
          cases h
          exact Or.inl ⟨rfl, rfl⟩
      | some bound =>
          rw [hbound] at h
          obtain ⟨hexceeds, rfl⟩ := rejectIf_eq_error_iff.mp h
          exact Or.inr ⟨bound, rfl, hexceeds, rfl⟩

theorem shown_maxLeverage {max : ℕ}
    (h : checkMaxLeverage requirements max = .error error) :
    Shown payment requirements dailySpent (.maxLeverage max)
      error.response.2 := by
  rcases checkExtraBound_eq_error h with
    ⟨hbound, rfl⟩ | ⟨bound, hbound, _, rfl⟩
  · have hfigures : figures payment requirements dailySpent
        (.maxLeverage max) = (.text "unknown", .text "unknown") := by
      simp [figures, compared, hbound]
    refine shown_of_unknown (by decide) (by decide) ?_ (by decide) hfigures
    change _ = "MaxLeverage"
    decide
  · have hfigures : figures payment requirements dailySpent
        (.maxLeverage max) = (written bound, written max) := by
      simp [figures, compared, hbound]
    refine shown_of_text (toList_bound "MaxLeverage" "") (by decide)
      (by decide) ?_ fun _ => amounts_leverage.trans hfigures.symm
    change _ = "MaxLeverage"
    decide

theorem shown_maxSlippage {max : ℕ}
    (h : checkMaxSlippage requirements max = .error error) :
    Shown payment requirements dailySpent (.maxSlippage max)
      error.response.2 := by
  rcases checkExtraBound_eq_error h with
    ⟨hbound, rfl⟩ | ⟨bound, hbound, _, rfl⟩
  · have hfigures : figures payment requirements dailySpent
        (.maxSlippage max) = (.text "unknown", .text "unknown") := by
      simp [figures, compared, hbound]
    refine shown_of_unknown (by decide) (by decide) ?_ (by decide) hfigures
    change _ = "MaxSlippage"
    decide
  · have hfigures : figures payment requirements dailySpent
        (.maxSlippage max) = (written bound, written max) := by
      simp [figures, compared, hbound]
    refine shown_of_text (toList_bound "MaxSlippage" " bps") (by decide)
      (by decide) ?_ fun _ => amounts_slippage.trans hfigures.symm
    change _ = "MaxSlippage"
    decide

theorem toList_contract (target : String) :
    s!"AllowedContracts: target {target} not in whitelist".toList =
      quoted "AllowedContracts: " "target" " not in whitelist"
        target.toList := by
  simp [quoted, toString]

theorem shown_allowedContracts {allowed : List String}
    (h : checkAllowedContracts ext requirements allowed = .error error) :
    Shown payment requirements dailySpent (.allowedContracts allowed)
      error.response.2 := by
  cases allowed with
  | nil =>
      cases h
      refine shown_of_unknown (by decide) (by decide) ?_ (by decide) rfl
      change _ = "AllowedContracts"
      decide
  | cons address rest =>
      have hlisted : rejectIf (¬ ListedIn ext (address :: rest)
          ((targetContract requirements).getD requirements.payTo)) _ =
            .error error := h
      obtain ⟨_, rfl⟩ := rejectIf_eq_error_iff.mp hlisted
      refine shown_of_text (toList_contract _) (by decide) (by decide) ?_
        fun hword => ?_
      · change _ = "AllowedContracts"
        decide
      · refine (amounts_contract (hword ⟨_, rfl⟩)).trans ?_
        rw [String.ofList_toList]
        rfl

theorem shown_of_evaluateSingle {rule : RuleType}
    (h : evaluateSingle ext rule payment requirements dailySpent =
      .error error) :
    Shown payment requirements dailySpent rule error.response.2 := by
  cases rule with
  | maxSpendPerTx limit => exact shown_maxSpendPerTx h
  | maxSpendPerDay limit => exact shown_maxSpendPerDay h
  | allowedContracts addresses => exact shown_allowedContracts h
  | maxLeverage max => exact shown_maxLeverage h
  | maxSlippage bps => exact shown_maxSlippage h

/-- A rule refuses when its limit is exceeded, as numbers of 256 bits. -/
theorem exceeded_of_compared {rule : RuleType} {actual limit : ℕ}
    (hrange : rule.InRange)
    (h : evaluateSingle ext rule payment requirements dailySpent =
      .error error)
    (hcompared : compared payment requirements dailySpent rule =
      some (actual, limit)) : limit < actual ∧ actual < 2 ^ 256 := by
  have hextra : ∀ {field name invalid unit max},
      checkExtraBound requirements field name invalid unit max = .error error →
      (extraBound requirements field).map (·, max) = some (actual, limit) →
      limit < actual ∧ actual < 2 ^ 256 := by
    intro field name invalid unit max h hcompared
    rcases checkExtraBound_eq_error h with
      ⟨hbound, _⟩ | ⟨bound, hbound, hexceeds, _⟩
    · rw [hbound] at hcompared
      cases hcompared
    · obtain ⟨value, _, hvalue⟩ := Option.bind_eq_some_iff.mp hbound
      obtain ⟨n, _, hn⟩ := Option.bind_eq_some_iff.mp hvalue
      rw [hbound] at hcompared
      cases hcompared
      unfold u32TryFrom at hn
      split at hn
      · cases hn
        omega
      · cases hn
  cases rule with
  | maxSpendPerTx max =>
      have hexceeds := (rejectIf_eq_error_iff.mp h).1
      cases hcompared
      rw [gt_iff_lt, BitVec.lt_def, toNat_ofNat_of_le hrange] at hexceeds
      exact ⟨hexceeds, payment.value.isLt⟩
  | maxSpendPerDay max =>
      have hexceeds := (rejectIf_eq_error_iff.mp h).1
      cases hcompared
      rw [gt_iff_lt, BitVec.lt_def, toNat_ofNat_of_le hrange] at hexceeds
      exact ⟨hexceeds, BitVec.isLt _⟩
  | allowedContracts addresses => cases hcompared
  | maxLeverage max => exact hextra h hcompared
  | maxSlippage bps => exact hextra h hcompared

/-- The guardrails are refused by the first active rule that fails. -/
theorem exists_refusing {rules : List GuardrailRule}
    (h : evaluate ext rules payment requirements dailySpent = .error error) :
    ∃ before rule after, rules = before ++ rule :: after ∧
      evaluate ext before payment requirements dailySpent = .ok () ∧
      rule.isActive = true ∧
      evaluateSingle ext rule.ruleType payment requirements dailySpent =
        .error error := by
  induction rules with
  | nil => cases h
  | cons head rest ih =>
      rw [evaluate] at h
      by_cases hactive : head.isActive = true
      · rw [if_pos hactive] at h
        cases hhead : evaluateSingle ext head.ruleType payment requirements
            dailySpent with
        | error refused =>
            rw [hhead] at h
            cases h
            exact ⟨[], head, rest, rfl, rfl, hactive, hhead⟩
        | ok passed =>
            rw [hhead] at h
            obtain ⟨before, rule, after, rfl, hbefore, hrule⟩ := ih h
            refine ⟨head :: before, rule, after, rfl, ?_, hrule⟩
            rw [evaluate, if_pos hactive, hhead]
            exact hbefore
      · rw [if_neg hactive] at h
        obtain ⟨before, rule, after, rfl, hbefore, hrule⟩ := ih h
        refine ⟨head :: before, rule, after, rfl, ?_, hrule⟩
        rw [evaluate, if_neg hactive]
        exact hbefore

/-- A rule fails with a violation. -/
theorem evaluateSingle_violation {rule : RuleType}
    (h : evaluateSingle ext rule payment requirements dailySpent =
      .error error) : ∃ message, error = .guardrailViolation message := by
  have hbound : ∀ {field name invalid unit max},
      checkExtraBound requirements field name invalid unit max = .error error →
      ∃ message, error = .guardrailViolation message := by
    intro field name invalid unit max h
    rcases checkExtraBound_eq_error h with
      ⟨_, rfl⟩ | ⟨_, _, _, rfl⟩
    · exact ⟨invalid, rfl⟩
    · exact ⟨_, rfl⟩
  cases rule with
  | maxSpendPerTx limit => exact ⟨_, (rejectIf_eq_error_iff.mp h).2.symm⟩
  | maxSpendPerDay limit => exact ⟨_, (rejectIf_eq_error_iff.mp h).2.symm⟩
  | allowedContracts addresses =>
      cases addresses with
      | nil =>
          cases h
          exact ⟨_, rfl⟩
      | cons address rest =>
          have hlisted : rejectIf _ (AppError.guardrailViolation _) =
            .error error := h
          exact ⟨_, (rejectIf_eq_error_iff.mp hlisted).2.symm⟩
  | maxLeverage max => exact hbound h
  | maxSlippage bps => exact hbound h

theorem written_eq {n : ℕ} (h : n < 2 ^ 256) :
    written n = .number (.finite (rounded n)) := by
  rw [written, Double.ofNat_eq_finite h.le (by decide)]

theorem exceeded_of_figures {read : GuardrailViolationError}
    {actual limit : ℕ}
    (hfigures : (read.actual, read.limit) = (written actual, written limit))
    (hlt : limit < actual) (hbound : actual < 2 ^ 256) :
    Exceeded read actual limit := by
  rw [written_eq hbound, written_eq (hlt.trans hbound)] at hfigures
  obtain ⟨hactual, hlimit⟩ := Prod.mk.inj hfigures
  have hactual' := nearest_rounded actual
  have hlimit' := nearest_rounded limit
  refine ⟨hlt, ⟨_, _, hactual, hlimit, hactual', hlimit'⟩, fun hle => ?_⟩
  rw [hactual, hlimit, hactual'.eq (isDouble_of_le hle),
    hlimit'.eq (isDouble_of_le (hlt.le.trans hle))]
  exact ⟨rfl, rfl⟩

theorem read_of_evaluateSingle {rule : RuleType}
    (h : evaluateSingle ext rule payment requirements dailySpent =
      .error error) :
    Read payment requirements dailySpent rule error.response.2 := by
  have hshown := shown_of_evaluateSingle h
  refine ⟨hshown, fun {actual limit} hcompared hrange => ?_⟩
  obtain ⟨hlt, hbound⟩ := exceeded_of_compared hrange h hcompared
  refine exceeded_of_figures ?_ hlt hbound
  refine (hshown.figures ?_).trans ?_
  · rintro ⟨addresses, rfl⟩
    cases hcompared
  · simp only [figures, hcompared]

end Refusals

/-- What the client makes of a refusal by the guardrails names the first active
rule that failed, and the figures that this rule compared, as the doubles
nearest to them; only the target of a whitelist has to be one word. -/
theorem fromApiResponse_evaluate (ext : Externals)
    {rules : List GuardrailRule} {payment : VerifiedPayment}
    {requirements : PaymentRequirements} {dailySpent : ℕ} {error : AppError}
    (h : evaluate ext rules payment requirements dailySpent = .error error) :
    ∃ message, error.response = (403, message) ∧
    ∃ before rule after, rules = before ++ rule :: after ∧
      evaluate ext before payment requirements dailySpent = .ok () ∧
      rule.isActive = true ∧
      Read payment requirements dailySpent rule.ruleType message := by
  obtain ⟨before, rule, after, heq, hbefore, hactive, hrule⟩ :=
    exists_refusing h
  obtain ⟨message, rfl⟩ := evaluateSingle_violation hrule
  exact ⟨message, rfl, before, rule, after, heq, hbefore, hactive,
    read_of_evaluateSingle hrule⟩

-- A payment of 60 USDC under two rules, the second of which is too low.

def sampleRules : List GuardrailRule :=
  [⟨0, Sample.agentId, .maxLeverage 5, true⟩,
    ⟨1, Sample.agentId, .maxSpendPerTx 50000000, true⟩]

def samplePayment : VerifiedPayment :=
  ⟨Sample.signer, Sample.service, 60000000, .zero, "base-sepolia"⟩

theorem fromApiResponse_evaluate_sample :
    ∃ error message, evaluate Sample.externals sampleRules samplePayment
        Sample.requirements 0 = .error error ∧
      error.response = (403, message) ∧
      ∃ before rule after, sampleRules = before ++ rule :: after ∧
        evaluate Sample.externals before samplePayment Sample.requirements 0 =
          .ok () ∧ rule.isActive = true ∧
        Read samplePayment Sample.requirements 0 rule.ruleType
          message := by
  have hrefused : evaluate Sample.externals sampleRules samplePayment
      Sample.requirements 0 = .error (.guardrailViolation
        "MaxSpendPerTx exceeded: payment 60000000 > limit 50000000") := rfl
  obtain ⟨message, hread⟩ :=
    fromApiResponse_evaluate Sample.externals hrefused
  exact ⟨_, message, hrefused, hread⟩

/-- The target of a whitelist is the caller's, and can pass for amounts. -/
example : (fromApiResponse (some
    "AllowedContracts: target payment 1 > limit 2 not in whitelist")).actual =
      .number (.finite 1) := by
  rfl

end GuardrailViolationError

end X402Guard.Sdk
