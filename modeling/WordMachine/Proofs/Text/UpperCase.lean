import Mathlib
import WordMachine.Text.UpperCase

/-! Upper case adds no marks: an ASCII character that is no letter stands in the upper-case form of
a text only where it stood in the text. -/
namespace WordMachine.Text

/-- The code points of upper-case forms in the tables: of characters outside ASCII, and of capital
letters. -/
private def Raised (code : Nat) : Prop :=
  code.isValidChar ∧ (128 ≤ code ∨ (0x41 ≤ code ∧ code ≤ 0x5A))

private instance (code : Nat) : Decidable (Raised code) :=
  inferInstanceAs (Decidable (_ ∧ _))

private theorem raised_of_run (code image : Nat) (run : CaseRun) (member : run ∈ caseRuns)
    (found : run.image? code = some image) : Raised image := by
  -- The images of a run lie between those of its ends.
  have ends : ∀ run ∈ caseRuns,
      (128 ≤ run.upper ∧ run.upper + (run.last - run.first) < 0xD800) ∨
      (0xDFFF < run.upper ∧ run.upper + (run.last - run.first) < 0x110000) ∨
      (0x41 ≤ run.upper ∧ run.upper + (run.last - run.first) ≤ 0x5A) := by
    decide +kernel
  simp only [CaseRun.image?, Option.ite_none_right_eq_some, Option.some.injEq] at found
  obtain ⟨⟨low, high, -⟩, rfl⟩ := found
  have within := ends run member
  simp only [Raised, Nat.isValidChar]
  omega

private theorem raised_of_expansion (code : Nat) (images : List Nat)
    (found : caseExpansions.lookup code = some images) : ∀ image ∈ images, Raised image := by
  have all : ∀ entry ∈ caseExpansions, ∀ image ∈ entry.2, Raised image := by decide +kernel
  obtain ⟨front, back, whole, -⟩ := List.lookup_eq_some_iff.mp found
  exact all (code, images) (by simp [whole])

/-- An ASCII character that is no letter is the upper-case form of itself alone. -/
private theorem eq_of_mem_upperCharacter (c mark : Char) (ascii : mark.toNat < 128)
    (noLetter : ¬(0x41 ≤ mark.toNat ∧ mark.toNat ≤ 0x5A)) (member : mark ∈ upperCharacter c) :
    c = mark := by
  have notOf (code : Nat) (raised : Raised code) : mark ≠ Char.ofNat code := by
    rintro rfl
    rw [Char.toNat_ofNat, if_pos raised.1] at ascii noLetter
    exact raised.2.elim (by omega) noLetter
  unfold upperCharacter at member
  split at member
  next low =>
    have all : ∀ n < 128, Char.ofNat n = (Char.ofNat n).toUpper ∨
        Raised (Char.ofNat n).toUpper.toNat := by
      decide +kernel
    obtain rfl := List.mem_singleton.mp member
    rcases all c.toNat low with same | ⟨-, letter⟩
    · rwa [Char.ofNat_toNat] at same
    · rw [Char.ofNat_toNat] at letter
      exact (letter.elim (by omega) noLetter).elim
  · split at member
    next codes found =>
      obtain ⟨code, listed, rfl⟩ := List.mem_map.mp member
      exact absurd rfl (notOf code (raised_of_expansion _ codes found code listed))
    · split at member
      next code found =>
        obtain ⟨run, listed, image⟩ := List.exists_of_findSome?_eq_some found
        exact absurd (List.mem_singleton.mp member)
          (notOf code (raised_of_run _ code run listed image))
      · exact (List.mem_singleton.mp member).symm

theorem mem_of_mem_upper (text : List Char) (mark : Char) (ascii : mark.toNat < 128)
    (noLetter : ¬(0x41 ≤ mark.toNat ∧ mark.toNat ≤ 0x5A)) (member : mark ∈ upper text) :
    mark ∈ text := by
  obtain ⟨c, inside, raised⟩ := List.mem_flatMap.mp member
  rwa [← eq_of_mem_upperCharacter c mark ascii noLetter raised]

theorem upper_ne_nil (text : List Char) (nonempty : text ≠ []) : upper text ≠ [] := by
  have expanded : ∀ entry ∈ caseExpansions, entry.2 ≠ [] := by decide +kernel
  have letters (c : Char) : upperCharacter c ≠ [] := by
    unfold upperCharacter
    split
    · exact List.cons_ne_nil _ _
    · split
      next codes found =>
        obtain ⟨front, back, whole, -⟩ := List.lookup_eq_some_iff.mp found
        have some := expanded (c.toNat, codes) (by simp [whole])
        simpa using some
      · split <;> exact List.cons_ne_nil _ _
  obtain ⟨c, rest, rfl⟩ := List.exists_cons_of_ne_nil nonempty
  exact List.append_ne_nil_of_left_ne_nil (letters c) _

end WordMachine.Text
