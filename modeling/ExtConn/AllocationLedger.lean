import Mathlib

namespace ExtConn.AllocationLedger

-- What has been allocated and what has been freed, in order.
structure Ledger (α : Type) where
  allocated : List α
  freed : List α

section
variable {α : Type}

def Ledger.alloc (l : Ledger α) (a : α) : Ledger α := {l with allocated := l.allocated ++ [a]}
def Ledger.free (l : Ledger α) (a : α) : Ledger α := {l with freed := l.freed ++ [a]}

@[simp] theorem Ledger.alloc_freed (l : Ledger α) (a : α) : (l.alloc a).freed = l.freed := rfl
@[simp] theorem Ledger.free_allocated (l : Ledger α) (a : α) : (l.free a).allocated = l.allocated := rfl

theorem Ledger.mem_alloc {l : Ledger α} {a b : α} : b ∈ (l.alloc a).allocated ↔ b ∈ l.allocated ∨ b = a := by
  simp [Ledger.alloc]

variable [DecidableEq α] {live : List α} {l : Ledger α} {a : α}

-- Nothing is freed that was not allocated; of what was allocated, `live` has not
-- been freed and the rest exactly once.
structure Balanced (live : List α) (l : Ledger α) : Prop where
  counted : ∀ b ∈ l.allocated, l.freed.count b = if b ∈ live then 0 else 1
  held : ∀ b ∈ live, b ∈ l.allocated
  known : ∀ b ∈ l.freed, b ∈ l.allocated

theorem balanced_nil : Balanced ([] : List α) ⟨[],[]⟩ := ⟨nofun,nofun,nofun⟩

theorem Balanced.alloc (balanced : Balanced live l) (fresh : a ∉ l.allocated) : Balanced (a :: live) (l.alloc a) := by
  constructor
  · intro b member
    rw [Ledger.alloc_freed]
    by_cases same : b = a
    · rw [same,if_pos List.mem_cons_self]
      exact List.count_eq_zero_of_not_mem fun freed => fresh (balanced.known a freed)
    · have old := (Ledger.mem_alloc.mp member).resolve_right same
      rw [balanced.counted b old]
      simp [same]
  · intro b member
    rcases List.mem_cons.mp member with rfl | old
    · exact Ledger.mem_alloc.mpr (.inr rfl)
    · exact Ledger.mem_alloc.mpr (.inl (balanced.held b old))
  · exact fun b freed => Ledger.mem_alloc.mpr (.inl (balanced.known b freed))

theorem Balanced.free {rest : List α} (balanced : Balanced live l) (member : a ∈ live) (without : ∀ b, b ∈ rest ↔ b ∈ live ∧ b ≠ a) :
    Balanced rest (l.free a) := by
  constructor
  · intro b allocated
    have before := balanced.counted b allocated
    show (l.freed ++ [a]).count b = _
    rw [List.count_append,before]
    by_cases same : b = a
    · rw [same,if_pos member,if_neg fun kept => ((without a).mp kept).2 rfl]
      simp
    · have other : ¬ a = b := fun equal => same equal.symm
      simp [without,same,other]
  · exact fun b kept => balanced.held b ((without b).mp kept).1
  · intro b freed
    rcases List.mem_append.mp freed with old | new
    · exact balanced.known b old
    · rw [List.mem_singleton.mp new]
      exact balanced.held a member

end
end ExtConn.AllocationLedger
