import ExtConn.World

namespace ExtConn.Sequential
open Effects

-- One task by itself: nothing moves between its operations.
def alone (slave : Slave δ) (t : Task) : Contract signature (World × δ) where
  act := slave.act t
  rely := Eq
  guar _ _ := True
  safe _ _ := True

section
variable {slave : Slave δ} {t : Task} {s : World × δ} {post : α → World × δ → Prop}

theorem alone_op {o : Op} {next : o.Answer → Code α}
    (rest : ∀ ans r w d, World.exec t o ans s.1 = some (r,w) → slave.answers t s.1 o ans s.2 = some d →
      wp (alone slave t) (next r) post (w,d)) : wp (alone slave t) (Prog.op o next : Code α) post s := by
  intro s₁ same
  cases same
  refine ⟨trivial,fun r s' acted => ⟨trivial,?_⟩⟩
  obtain ⟨ans,ran,answered⟩ := act_iff.mp acted
  exact rest ans r s'.1 s'.2 ran answered

-- An operation that the world alone decides.
theorem alone_exec {o : Op} {next : o.Answer → Code α} {r : o.Answer} {w : World}
    (ignored : ∀ ans, slave.answers t s.1 o ans s.2 = some s.2) (exec : ∀ ans, World.exec t o ans s.1 = some (r,w))
    (rest : wp (alone slave t) (next r) post (w,s.2)) : wp (alone slave t) (Prog.op o next : Code α) post s := by
  apply alone_op
  intro ans r' w' d ran answered
  have same := (exec ans).symm.trans ran
  have kept := (ignored ans).symm.trans answered
  cases same
  cases kept
  exact rest

theorem alone_runs {p : Code α} {s' : World × δ} (holds : wp (alone slave t) p post s)
    (run : Runs Eq (slave.act t) p s trace value s') : post value s' :=
  wp_runs (C := alone slave t) (fun _ _ _ held same => same ▸ held) holds run

-- What holds after every run holds of the program.
theorem alone_wp {p : Code α} (every : ∀ trace value s', Runs Eq (slave.act t) p s trace value s' → post value s') :
    wp (alone slave t) p post s := by
  induction p generalizing s with
  | pure value => exact every [] value s (.done rfl)
  | op o next ih =>
      intro s₁ same
      cases same
      exact ⟨trivial,fun r s₂ acted => ⟨trivial,ih r fun trace value s' run => every (o :: trace) value s' (.op rfl acted run)⟩⟩

-- The step that a choice of the environment leads to.
theorem alone_step {o : Op} {next : o.Answer → Code α} {r : o.Answer} {w : World} {d : δ}
    (holds : wp (alone slave t) (Prog.op o next : Code α) post s) (ans : Ans) (ran : World.exec t o ans s.1 = some (r,w))
    (answered : slave.answers t s.1 o ans s.2 = some d) : wp (alone slave t) (next r) post (w,d) :=
  wp_step holds rfl (act_iff.mpr ⟨ans,ran,answered⟩)

end
end ExtConn.Sequential
