/-
Addresses derived from seeds under a program.  An address is the hash of the
seeds, the program and a marker, and it lies off the curve, so that no key signs
for it; a bump is put behind the seeds to make that so.
-/
import Mathlib.Data.List.Basic

namespace ProgramAddress

variable {Address : Type} (hash : List UInt8 → Address)
variable (onCurve : Address → Bool)

def marker : List UInt8 := "ProgramDerivedAddress".toByteArray.data.toList

/-- At most sixteen seeds, each of at most 32 bytes. -/
def Fit (seeds : List (List UInt8)) : Prop :=
  seeds.length ≤ 16 ∧ ∀ seed ∈ seeds, seed.length ≤ 32

instance (seeds : List (List UInt8)) : Decidable (Fit seeds) :=
  inferInstanceAs (Decidable (_ ∧ _))

def createProgramAddress (seeds : List (List UInt8))
    (programId : List UInt8) : Option Address :=
  if Fit seeds then
    let address := hash (seeds.flatten ++ programId ++ marker)
    if onCurve address then none else some address
  else none

/-- The bumps in the order they are tried, from 255 down to 1. -/
def bumps : List UInt8 :=
  (List.range' 1 255).reverse.map UInt8.ofNat

/-- The first address that there is, with its bump. -/
def findProgramAddress (seeds : List (List UInt8))
    (programId : List UInt8) : Option (Address × UInt8) :=
  bumps.findSome? fun bump =>
    (createProgramAddress hash onCurve (seeds ++ [[bump]]) programId).map
      (·, bump)

section Found

variable {hash : List UInt8 → Address} {onCurve : Address → Bool}
variable {seeds : List (List UInt8)} {programId : List UInt8}

theorem fit_bump (hcount : seeds.length < 16)
    (hshort : ∀ seed ∈ seeds, seed.length ≤ 32) (bump : UInt8) :
    Fit (seeds ++ [[bump]]) := by
  refine ⟨?_, ?_⟩
  · rw [List.length_append, List.length_singleton]
    exact hcount
  · intro seed hseed
    rcases List.mem_append.mp hseed with hseed | hseed
    · exact hshort seed hseed
    · rw [List.mem_singleton.mp hseed, List.length_singleton]
      decide

/-- A search that goes on past the last bump finds what is found before. -/
theorem findSome?_of_find (hcount : seeds.length < 16)
    (hshort : ∀ seed ∈ seeds, seed.length ≤ 32) {found : Address × UInt8}
    (h : findProgramAddress hash onCurve seeds programId = some found)
    (more : List UInt8) :
    (bumps ++ more).findSome? (fun bump =>
      let address :=
        hash ((seeds ++ [[bump]]).flatten ++ programId ++ marker)
      if onCurve address then none else some (address, bump)) =
        some found := by
  have hsame : ∀ bump, (createProgramAddress hash onCurve (seeds ++ [[bump]])
      programId).map (·, bump) =
        let address :=
          hash ((seeds ++ [[bump]]).flatten ++ programId ++ marker)
        if onCurve address then none else some (address, bump) := by
    intro bump
    rw [createProgramAddress, if_pos (fit_bump hcount hshort bump)]
    dsimp only
    split <;> rfl
  rw [findProgramAddress, funext hsame] at h
  rw [List.findSome?_append, h]
  rfl

end Found

end ProgramAddress
