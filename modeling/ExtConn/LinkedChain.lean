import Mathlib

namespace ExtConn.LinkedChain

-- Following `next` from `a` visits exactly `xs` and then `null`.
def Chain (null : Node) (next : Node → Node) : Node → List Node → Prop
  | a,[] => a = null
  | a,x :: rest => a = x ∧ x ≠ null ∧ Chain null next (next x) rest

variable {Node : Type} {null : Node} {next next' : Node → Node}

theorem Chain.frame (chain : Chain null next a xs) (same : ∀ x ∈ xs, next' x = next x) : Chain null next' a xs := by
  induction xs generalizing a with
  | nil => exact chain
  | cons x rest ih =>
      obtain ⟨here,proper,later⟩ := chain
      refine ⟨here,proper,?_⟩
      rw [same x (List.mem_cons_self ..)]
      exact ih later fun y member => same y (List.mem_cons_of_mem x member)

theorem Chain.proper (chain : Chain null next a xs) : null ∉ xs := by
  induction xs generalizing a with
  | nil => simp
  | cons x rest ih =>
      obtain ⟨_,proper,later⟩ := chain
      intro member
      rcases List.mem_cons.mp member with same | member
      · exact proper same.symm
      · exact ih later member

theorem Chain.unique (one : Chain null next a xs) (two : Chain null next a ys) : xs = ys := by
  induction xs generalizing a ys with
  | nil =>
      cases ys with
      | nil => rfl
      | cons y rest => exact absurd (two.1.symm.trans one) two.2.1
  | cons x rest ih =>
      cases ys with
      | nil => exact absurd (one.1.symm.trans two) one.2.1
      | cons y rest' =>
          obtain ⟨rfl,_,later⟩ := one
          obtain ⟨rfl,_,later'⟩ := two
          rw [ih later later']

theorem Chain.suffix (chain : Chain null next a (xs ++ y :: ys)) : Chain null next y (y :: ys) := by
  induction xs generalizing a with
  | nil => exact ⟨rfl,chain.2⟩
  | cons x rest ih => exact ih chain.2.2

-- A chain that ends in `null` cannot visit a node twice: both visits would be
-- followed by the same nodes.
theorem Chain.nodup (chain : Chain null next a xs) : xs.Nodup := by
  induction xs generalizing a with
  | nil => exact .nil
  | cons x rest ih =>
      obtain ⟨here,proper,later⟩ := chain
      refine List.nodup_cons.mpr ⟨fun member => ?_,ih later⟩
      obtain ⟨before,after,split⟩ := List.append_of_mem member
      have again := (split ▸ later).suffix
      have whole : Chain null next x (x :: rest) := ⟨rfl,proper,later⟩
      have both := again.unique whole
      have lengths := congrArg List.length both
      rw [split] at lengths
      simp only [List.length_cons,List.length_append] at lengths
      omega

theorem Chain.head (chain : Chain null next a xs) : a = xs.head?.getD null := by
  cases xs with
  | nil => exact chain
  | cons x rest => exact chain.1

theorem Chain.null_iff (chain : Chain null next a xs) : a = null ↔ xs = [] := by
  cases xs with
  | nil => exact ⟨fun _ => rfl,fun _ => chain⟩
  | cons x rest => exact ⟨fun ends => absurd (chain.1.symm.trans ends) chain.2.1,fun empty => by cases empty⟩

section
variable [DecidableEq Node]

theorem Chain.update (chain : Chain null next a xs) (apart : y ∉ xs) (value : Node) :
    Chain null (Function.update next y value) a xs := by
  refine chain.frame fun x member => ?_
  have different : x ≠ y := fun same => apart (same ▸ member)
  exact Function.update_of_ne different value next

-- Linking a new node behind the last one.
theorem Chain.snoc (chain : Chain null next a (xs ++ [last])) (fresh : y ∉ xs ++ [last]) (proper : y ≠ null) :
    Chain null (Function.update (Function.update next last y) y null) a (xs ++ [last,y]) := by
  induction xs generalizing a with
  | nil =>
      obtain ⟨here,nonnull,_⟩ := chain
      have different : last ≠ y := fun same => fresh (by simp [same])
      refine ⟨here,nonnull,?_⟩
      rw [Function.update_of_ne different,Function.update_self]
      exact ⟨rfl,proper,Function.update_self ..⟩
  | cons x rest ih =>
      obtain ⟨here,nonnull,later⟩ := chain
      have different : x ≠ y := fun same => fresh (by simp [same])
      refine ⟨here,nonnull,?_⟩
      by_cases same : x = last
      · -- the last node would occur twice
        subst same
        have twice := (show Chain null next x (x :: (rest ++ [x])) from ⟨rfl,nonnull,later⟩).nodup
        simp at twice
      · rw [Function.update_of_ne different,Function.update_of_ne same]
        exact ih later fun member => fresh (List.mem_cons_of_mem x member)

theorem Chain.cons (chain : Chain null next a xs) (fresh : y ∉ xs) (proper : y ≠ null) :
    Chain null (Function.update next y a) y (y :: xs) := by
  refine ⟨rfl,proper,?_⟩
  rw [Function.update_self]
  exact chain.update fresh a

theorem Chain.single (proper : y ≠ null) : Chain null (Function.update next y null) y [y] :=
  ⟨rfl,proper,Function.update_self ..⟩

end
end ExtConn.LinkedChain
