import ExtConn.Interleaving

namespace ExtConn.Layers
open Effects Interleaving

variable {S : Signature} {Thread Label σ τ : Type}

-- What has been shown of a program over one state holds over any state that this
-- one is a part of.
theorem wp_project {C : Contract S σ} {D : Contract S τ} {p : Prog S α} {post : α → σ → Prop} (part : τ → σ)
    (around : ∀ a b, D.rely a b → C.rely (part a) (part b)) (acts : ∀ o a r b, D.act o a r b → C.act o (part a) r (part b))
    (safe : ∀ o a, C.safe o (part a) → D.safe o a) (guar : ∀ a b, C.guar (part a) (part b) → D.guar a b)
    (holds : wp C p post (part s)) : wp D p (fun a s => post a (part s)) s := by
  induction p generalizing s with
  | pure value => exact holds
  | op o next ih =>
      intro s₁ moved
      obtain ⟨allowed,steps⟩ := holds (part s₁) (around s s₁ moved)
      refine ⟨safe o s₁ allowed,fun r s₂ acted => ?_⟩
      obtain ⟨promise,rest⟩ := steps r (part s₂) (acts o s₁ r s₂ acted)
      exact ⟨guar s₁ s₂ promise,ih r rest⟩

-- The outline of a machine, for a machine with more state.
def project {m : Machine S Thread Label σ} (O : Outline m) (part : τ → σ) (m' : Machine S Thread Label τ) (code : m'.code = m.code)
    (acts : ∀ t o a r b, m'.act t o a r b → m.act t o (part a) r (part b)) (env : ∀ a b, m'.env a b → m.env (part a) (part b)) :
    Outline m' where
  rely t a b := O.rely t (part a) (part b)
  guar t a b := O.guar t (part a) (part b)
  safe t o a := O.safe t o (part a)
  entry t l a := O.entry t l (part a)
  transitive one two := O.transitive one two
  compatible other promise := O.compatible other promise
  surroundings moved := O.surroundings (env _ _ moved)
  stable held moved := O.stable held moved
  verified t l s held := by
    rw [code]
    exact wp_project part (fun _ _ moved => moved) (acts t) (fun _ _ allowed => allowed) (fun _ _ promise => promise)
      (O.verified t l (part s) held)

-- The runs of a machine with what one outline says of every step, for the use of
-- the next.
def along (m : Machine S Thread Label σ) (O : Outline m) : Machine S Thread Label σ :=
  {m with act := fun t o s r s' => m.act t o s r s' ∧ O.safe t o s ∧ O.guar t s s'}

theorem reached_along [DecidableEq Thread] {m : Machine S Thread Label σ} (O : Outline m) (reflexive : ∀ t s, O.rely t s s)
    {start c : Config S Thread Label σ} (held : O.Holds start) (path : Reached m start c) : Reached (along m O) start c := by
  induction path with
  | refl => exact .refl
  | step path step ih =>
      have valid := O.reached_holds reflexive held path
      cases step with
      | op t here acted =>
          have block := valid t
          rw [here] at block
          obtain ⟨allowed,steps⟩ := block _ (reflexive t _)
          exact .step ih (.op t here ⟨acted,allowed,(steps _ _ acted).1⟩)
      | jump t here => exact .step ih (.jump t here)
      | env moved => exact .step ih (.env moved)

end ExtConn.Layers
