import Mathlib

namespace ExtConn.Custody

-- Who answers for each resource: a party that uses it, or a place where it waits
-- to be passed on. A resource is with one holder at most.
abbrev Book (Resource Holder : Type) := Resource → Option Holder

section
variable {Resource Holder : Type} {book : Book Resource Holder}

def Book.heldBy (book : Book Resource Holder) (h : Holder) : Set Resource := {r | book r = some h}

@[simp] theorem mem_heldBy {h : Holder} {r : Resource} : r ∈ book.heldBy h ↔ book r = some h := Iff.rfl

-- Everything in `rs` goes to `h`.
def Book.move (book : Book Resource Holder) (rs : Resource → Prop) [DecidablePred rs] (h : Option Holder) : Book Resource Holder :=
  fun r => if rs r then h else book r

variable {rs : Resource → Prop} [DecidablePred rs] {h k : Holder}

theorem move_inside {dest : Option Holder} (inside : rs r) : book.move rs dest r = dest := if_pos inside
theorem move_apart {dest : Option Holder} (apart : ¬ rs r) : book.move rs dest r = book r := if_neg apart

-- One resource.
theorem move_self [DecidableEq Resource] {r : Resource} (dest : Option Holder) : book.move (· = r) dest r = dest := if_pos rfl
theorem move_other [DecidableEq Resource] {q r : Resource} (other : q ≠ r) (dest : Option Holder) : book.move (· = r) dest q = book q :=
  if_neg other

theorem heldBy_receiver : (book.move rs (some h)).heldBy h = {r | rs r} ∪ book.heldBy h := by
  ext r
  by_cases inside : rs r
  · simp [move_inside inside,inside]
  · simp [move_apart inside,inside]

theorem heldBy_giver (other : dest ≠ some h) : (book.move rs dest).heldBy h = book.heldBy h \ {r | rs r} := by
  ext r
  by_cases inside : rs r
  · simp [move_inside inside,inside,other]
  · simp [move_apart inside,inside]

-- Those who neither give nor receive.
theorem heldBy_bystander (other : dest ≠ some h) (none : ∀ r, rs r → book r ≠ some h) : (book.move rs dest).heldBy h = book.heldBy h := by
  rw [heldBy_giver other]
  ext r
  constructor
  · exact fun member => member.1
  · exact fun member => ⟨member,fun inside => none r inside member⟩

end
end ExtConn.Custody
