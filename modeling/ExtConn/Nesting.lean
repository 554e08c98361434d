import ExtConn.Effects

namespace ExtConn.Nesting
open Effects

variable {S T : Signature} {σ α β : Type}

-- Programs over some operations inside of those that have more.
abbrev Answers (S T : Signature) : S.Op ⊕ T.Op → Type
  | .inl o => S.Answer o
  | .inr o => T.Answer o

abbrev both (S T : Signature) : Signature := ⟨S.Op ⊕ T.Op,Answers S T⟩

def inner : Prog S α → Prog (both S T) α
  | .pure value => .pure value
  | .op o next => .op (.inl o) fun r => inner (next r)

def outer (o : T.Op) : Prog (both S T) (T.Answer o) := .op (.inr o) .pure

@[simp] theorem inner_pure (value : α) : (inner (.pure value) : Prog (both S T) α) = .pure value := rfl
@[simp] theorem inner_op (o : S.Op) (next : S.Answer o → Prog S α) :
    (inner (.op o next) : Prog (both S T) α) = .op (.inl o) fun r => inner (next r) := rfl
@[simp] theorem outer_bind (o : T.Op) (f : T.Answer o → Prog (both S T) β) : (outer o).bind f = .op (.inr o) f := rfl

-- What has been shown of a program holds of it inside, under the part of the
-- contract that is about its operations.
def Contract.within (C : Contract (both S T) σ) : Contract S σ :=
  ⟨fun o => C.act (.inl o),C.rely,C.guar,fun o => C.safe (.inl o)⟩

theorem wp_inner {C : Contract (both S T) σ} {p : Prog S α} {post : α → σ → Prop} {s : σ} :
    wp C (inner p) post s ↔ wp (Contract.within C) p post s := by
  induction p generalizing s with
  | pure value => rfl
  | op o next ih =>
      constructor
      · intro holds s₁ moved
        obtain ⟨safe,steps⟩ := holds s₁ moved
        exact ⟨safe,fun r s₂ acted => ⟨(steps r s₂ acted).1,ih r |>.mp (steps r s₂ acted).2⟩⟩
      · intro holds s₁ moved
        obtain ⟨safe,steps⟩ := holds s₁ moved
        exact ⟨safe,fun r s₂ acted => ⟨(steps r s₂ acted).1,ih r |>.mpr (steps r s₂ acted).2⟩⟩

-- A program without its outer operations, given what they answer.
def strip (answer : (o : T.Op) → T.Answer o) : Prog (both S T) α → Prog S α
  | .pure value => .pure value
  | .op (.inl o) next => .op o fun r => strip answer (next r)
  | .op (.inr o) next => strip answer (next (answer o))

theorem strip_inner (answer : (o : T.Op) → T.Answer o) (p : Prog S α) : strip answer (inner p) = p := by
  induction p with
  | pure value => rfl
  | op o next ih => exact congrArg (Prog.op o) (funext ih)

end ExtConn.Nesting
