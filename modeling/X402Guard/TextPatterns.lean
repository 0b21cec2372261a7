/-
Patterns over texts, as regular expressions without alternatives: single
characters and runs of a class, some of which are captured.  A run takes as much
as it can and gives back what the later pieces need; of the matches in a text
the leftmost counts.
-/
import Mathlib.Data.List.Infix
import Mathlib.Data.List.TakeWhile

namespace TextPatterns

inductive Piece
  /-- A character of the class. -/
  | one (cls : Char → Bool)
  /-- At least so many characters of the class. -/
  | run (least : ℕ) (cls : Char → Bool)
  /-- At least one character of the class, captured. -/
  | group (cls : Char → Bool)

def literal (text : List Char) : List Piece :=
  text.map fun c => .one (· = c)

/-- The lengths that a run may have, longest first. -/
def runLengths (least most : ℕ) : List ℕ :=
  (List.range' least (most + 1 - least)).reverse

/-- What the pieces capture at the start of a text, and what they leave. -/
def matchHere : List Piece → List Char → Option (List (List Char) × List Char)
  | [], text => some ([], text)
  | .one _ :: _, [] => none
  | .one cls :: pieces, c :: text =>
      if cls c then matchHere pieces text else none
  | .run least cls :: pieces, text =>
      (runLengths least (text.takeWhile cls).length).findSome? fun n =>
        matchHere pieces (text.drop n)
  | .group cls :: pieces, text =>
      (runLengths 1 (text.takeWhile cls).length).findSome? fun n =>
        (matchHere pieces (text.drop n)).map fun (captured, left) =>
          (text.take n :: captured, left)

/-- What the leftmost match captures. -/
def search (pieces : List Piece) : List Char → Option (List (List Char))
  | [] => (matchHere pieces []).map Prod.fst
  | c :: text =>
      match matchHere pieces (c :: text) with
      | some (captured, _) => some captured
      | none => search pieces text

variable {pieces : List Piece} {cls : Char → Bool} {least : ℕ}
variable {text taken left : List Char} {found : List (List Char) × List Char}

theorem mem_runLengths {n most : ℕ} :
    n ∈ runLengths least most ↔ least ≤ n ∧ n ≤ most := by
  rw [runLengths, List.mem_reverse, List.mem_range'_1]
  omega

/-- The longest run is tried first. -/
theorem runLengths_eq_cons {most : ℕ} (h : least ≤ most) :
    ∃ shorter, runLengths least most = most :: shorter := by
  obtain ⟨n, rfl⟩ := Nat.exists_eq_add_of_le h
  refine ⟨(List.range' least n).reverse, ?_⟩
  rw [runLengths, show least + n + 1 - least = n + 1 by omega,
    List.range'_concat]
  simp

theorem matchHere_literal :
    matchHere (literal text ++ pieces) (text ++ left) =
      matchHere pieces left := by
  induction text with
  | nil => rfl
  | cons c text ih =>
      change (if decide (c = c) = true then
        matchHere (literal text ++ pieces) (text ++ left) else none) = _
      rw [if_pos (decide_eq_true rfl), ih]

/-- The characters of the class are what a run takes, if none comes after
them. -/
theorem takeWhile_eq (htaken : ∀ c ∈ taken, cls c = true)
    (hleft : ∀ c ∈ left.head?, cls c = false) :
    (taken ++ left).takeWhile cls = taken := by
  rw [List.takeWhile_append_of_pos htaken]
  cases left with
  | nil => simp
  | cons c left =>
      rw [List.takeWhile_cons_of_neg (by simp [hleft c rfl]), List.append_nil]

theorem matchHere_run (hlength : least ≤ taken.length)
    (htaken : ∀ c ∈ taken, cls c = true)
    (hleft : ∀ c ∈ left.head?, cls c = false)
    (h : matchHere pieces left = some found) :
    matchHere (.run least cls :: pieces) (taken ++ left) = some found := by
  obtain ⟨shorter, hlengths⟩ := runLengths_eq_cons hlength
  rw [matchHere, takeWhile_eq htaken hleft, hlengths, List.findSome?_cons,
    List.drop_left, h]

theorem matchHere_group (hne : taken ≠ [])
    (htaken : ∀ c ∈ taken, cls c = true)
    (hleft : ∀ c ∈ left.head?, cls c = false)
    (h : matchHere pieces left = some found) :
    matchHere (.group cls :: pieces) (taken ++ left) =
      some (taken :: found.1, found.2) := by
  obtain ⟨shorter, hlengths⟩ :=
    runLengths_eq_cons (Nat.succ_le_of_lt (List.length_pos_iff.mpr hne))
  rw [matchHere, takeWhile_eq htaken hleft, hlengths, List.findSome?_cons,
    List.drop_left, List.take_left, h]
  rfl

theorem search_of_matchHere (h : matchHere pieces text = some found) :
    search pieces text = some found.1 := by
  cases text with
  | nil =>
      rw [search, h]
      rfl
  | cons c text => rw [search, h]

/-- The pieces do not match where a text starts so, by the single characters
and the first of the runs. -/
def rejects : List Piece → List Char → Bool
  | .one cls :: pieces, c :: text => !cls c || rejects pieces text
  | .run (_ + 1) cls :: _, c :: _ => !cls c
  | .group cls :: _, c :: _ => !cls c
  | _, _ => false

/-- Nor do they wherever a text goes on so. -/
def rejectsAll (pieces : List Piece) : List Char → Bool
  | [] => true
  | c :: text => rejects pieces (c :: text) && rejectsAll pieces text

theorem matchHere_eq_none (h : rejects pieces taken = true) :
    matchHere pieces (taken ++ left) = none := by
  induction pieces generalizing taken with
  | nil => cases h
  | cons piece pieces ih =>
      cases taken with
      | nil => simp [rejects] at h
      | cons c taken =>
          cases piece with
          | one cls =>
              rw [rejects, Bool.or_eq_true, Bool.not_eq_true'] at h
              rw [List.cons_append, matchHere]
              rcases h with hc | h
              · rw [if_neg (by simp [hc])]
              · rw [ih h, ite_self]
          | run least cls =>
              cases least with
              | zero => cases h
              | succ least =>
                  rw [rejects, Bool.not_eq_true'] at h
                  rw [matchHere, List.cons_append,
                    List.takeWhile_cons_of_neg (by simp [h])]
                  simp [runLengths]
          | group cls =>
              rw [rejects, Bool.not_eq_true'] at h
              rw [matchHere, List.cons_append,
                List.takeWhile_cons_of_neg (by simp [h])]
              rfl

theorem search_cons (h : matchHere pieces text = none) :
    search pieces text = search pieces text.tail := by
  cases text with
  | nil => rfl
  | cons c text => rw [search, h, List.tail_cons]

theorem search_append (h : rejectsAll pieces taken = true) :
    search pieces (taken ++ left) = search pieces left := by
  induction taken with
  | nil => rfl
  | cons c taken ih =>
      rw [rejectsAll, Bool.and_eq_true] at h
      rw [search_cons (matchHere_eq_none h.1)]
      exact ih h.2

/-- A match starts with a character that the first piece is of. -/
theorem rejectsAll_of_forall (h : ∀ c ∈ taken, cls c = false) :
    rejectsAll (.one cls :: pieces) taken = true := by
  induction taken with
  | nil => rfl
  | cons c taken ih =>
      rw [List.forall_mem_cons] at h
      rw [rejectsAll, ih h.2, rejects, h.1]
      rfl

/-- A captured run does not match if the later pieces do not match after it,
however many of its characters it gives back. -/
theorem matchHere_group_eq_none (htaken : ∀ c ∈ taken, cls c = true)
    (hleft : ∀ c ∈ left.head?, cls c = false)
    (h : ∀ rest, rest <:+ taken → matchHere pieces (rest ++ left) = none) :
    matchHere (.group cls :: pieces) (taken ++ left) = none := by
  rw [matchHere, takeWhile_eq htaken hleft, List.findSome?_eq_none_iff]
  intro n hn
  rw [List.drop_append_of_le_length (mem_runLengths.mp hn).2,
    h _ (List.drop_suffix n taken)]
  rfl

/-- So such a run matches nowhere in its characters. -/
theorem search_group_append (htaken : ∀ c ∈ taken, cls c = true)
    (hleft : ∀ c ∈ left.head?, cls c = false)
    (h : ∀ rest, rest <:+ taken → matchHere pieces (rest ++ left) = none) :
    search (.group cls :: pieces) (taken ++ left) =
      search (.group cls :: pieces) left := by
  induction taken with
  | nil => rfl
  | cons c taken ih =>
      rw [search_cons (matchHere_group_eq_none htaken hleft h)]
      exact ih (fun d hd => htaken d (List.mem_cons_of_mem _ hd))
        fun rest hrest => h rest (hrest.trans (List.suffix_cons c taken))

/-- The later pieces match a suffix. -/
theorem exists_suffix_of_matchHere {first second : List Piece}
    (h : matchHere (first ++ second) text ≠ none) :
    ∃ rest, rest <:+ text ∧ matchHere second rest ≠ none := by
  induction first generalizing text with
  | nil => exact ⟨text, List.suffix_rfl, h⟩
  | cons piece first ih =>
      rw [List.cons_append] at h
      cases piece with
      | one cls =>
          cases text with
          | nil => exact absurd rfl h
          | cons c text =>
              rw [matchHere] at h
              split at h
              · obtain ⟨rest, hrest, hmatch⟩ := ih h
                exact ⟨rest, hrest.trans (List.suffix_cons c text), hmatch⟩
              · exact absurd rfl h
      | run least cls =>
          rw [matchHere, Ne, List.findSome?_eq_none_iff] at h
          simp only [not_forall] at h
          obtain ⟨n, _, hn⟩ := h
          obtain ⟨rest, hrest, hmatch⟩ := ih hn
          exact ⟨rest, hrest.trans (List.drop_suffix n text), hmatch⟩
      | group cls =>
          rw [matchHere, Ne, List.findSome?_eq_none_iff] at h
          simp only [not_forall] at h
          obtain ⟨n, _, hn⟩ := h
          rw [Option.map_eq_none_iff] at hn
          obtain ⟨rest, hrest, hmatch⟩ := ih hn
          exact ⟨rest, hrest.trans (List.drop_suffix n text), hmatch⟩

theorem exists_suffix_of_search (h : search pieces text ≠ none) :
    ∃ rest, rest <:+ text ∧ matchHere pieces rest ≠ none := by
  induction text with
  | nil =>
      rw [search, Ne, Option.map_eq_none_iff] at h
      exact ⟨[], List.suffix_rfl, h⟩
  | cons c text ih =>
      by_cases hmatch : matchHere pieces (c :: text) = none
      · rw [search_cons hmatch] at h
        obtain ⟨rest, hrest, hmatch⟩ := ih h
        exact ⟨rest, hrest.trans (List.suffix_cons c text), hmatch⟩
      · exact ⟨c :: text, List.suffix_rfl, hmatch⟩

/-- A run and a captured one, each of at least one character: somewhere a
character of the one class comes before one of the other. -/
theorem exists_adjacent_of_matchHere {cls' : Char → Bool}
    (h : matchHere (.run 1 cls :: .group cls' :: pieces) text ≠ none) :
    ∃ b c rest, b :: c :: rest <:+ text ∧ cls b = true ∧ cls' c = true := by
  rw [matchHere, Ne, List.findSome?_eq_none_iff] at h
  simp only [not_forall] at h
  obtain ⟨n, hn, hgroup⟩ := h
  rw [mem_runLengths] at hn
  obtain ⟨m, rfl⟩ := Nat.exists_eq_add_of_le' hn.1
  cases hrest : text.drop (m + 1) with
  | nil => exact absurd (by rw [hrest]; rfl) hgroup
  | cons c rest =>
      have hlt : m < (text.takeWhile cls).length := hn.2
      have hlt' : m < text.length :=
        Nat.lt_of_lt_of_le hlt (List.takeWhile_prefix cls).length_le
      refine ⟨text[m], c, rest, ?_, ?_, ?_⟩
      · rw [← hrest, ← List.drop_eq_getElem_cons hlt']
        exact List.drop_suffix m text
      · rw [← (List.takeWhile_prefix cls).getElem hlt]
        exact List.mem_takeWhile_imp (List.getElem_mem hlt)
      · by_contra hc
        rw [hrest, matchHere, List.takeWhile_cons_of_neg hc] at hgroup
        exact hgroup rfl

/-- Before what comes last, no character is of the first class. -/
theorem adjacent_of_append {b c : Char} {rest : List Char}
    (h : b :: c :: rest <:+ taken ++ left)
    (htaken : ∀ d ∈ taken, cls d = false) (hb : cls b = true) :
    b :: c :: rest <:+ left := by
  rcases List.suffix_or_suffix_of_suffix h (List.suffix_append taken left) with
    hin | ⟨early, heq⟩
  · exact hin
  · cases early with
    | nil => exact heq ▸ List.suffix_rfl
    | cons d early =>
        rw [← heq, List.suffix_append_self_iff] at h
        obtain ⟨rfl, _⟩ := List.cons.inj heq
        rw [htaken _ (h.subset List.mem_cons_self)] at hb
        cases hb

end TextPatterns
