import ExtConn.Effects

-- What two runs of one program show that start in different states.
namespace ExtConn.TwoRuns
open Effects

section
variable {S : Signature} {σ α ο ν : Type} {act : Meaning S σ} {p : Prog S α} {outcome : σ → ο} {view : σ → ν} {s₁ s₂ : σ}

-- The same outcomes of the surroundings, `outcome`, go with the same `view`.
def SeenAlike (act : Meaning S σ) (p : Prog S α) (outcome : σ → ο) (view : σ → ν) (s₁ s₂ : σ) : Prop :=
  ∀ trace₁ value₁ s₁' trace₂ value₂ s₂', Runs Eq act p s₁ trace₁ value₁ s₁' → Runs Eq act p s₂ trace₂ value₂ s₂' →
    outcome s₁' = outcome s₂' → view s₁' = view s₂'

def Attains (act : Meaning S σ) (p : Prog S α) (outcome : σ → ο) (s : σ) (o : ο) : Prop :=
  ∃ trace value s', Runs Eq act p s trace value s' ∧ outcome s' = o

-- Every run shows what `f` makes of its outcomes.
def Determined (act : Meaning S σ) (p : Prog S α) (outcome : σ → ο) (view : σ → ν) (s : σ) (f : ο → ν) : Prop :=
  ∀ trace value s', Runs Eq act p s trace value s' → view s' = f (outcome s')

theorem seenAlike_iff {f₁ f₂ : ο → ν} (first : Determined act p outcome view s₁ f₁) (second : Determined act p outcome view s₂ f₂) :
    SeenAlike act p outcome view s₁ s₂ ↔ ∀ o, Attains act p outcome s₁ o → Attains act p outcome s₂ o → f₁ o = f₂ o := by
  constructor
  · rintro alike o ⟨trace₁,value₁,s₁',run₁,rfl⟩ ⟨trace₂,value₂,s₂',run₂,same⟩
    have seen := alike _ _ _ _ _ _ run₁ run₂ same.symm
    rw [first _ _ _ run₁,second _ _ _ run₂,same] at seen
    exact seen
  · intro agree trace₁ value₁ s₁' trace₂ value₂ s₂' run₁ run₂ same
    rw [first _ _ _ run₁,second _ _ _ run₂,← same]
    exact agree _ ⟨_,_,_,run₁,rfl⟩ ⟨_,_,_,run₂,same.symm⟩

end
end ExtConn.TwoRuns
