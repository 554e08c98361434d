import ExtConn.Interleaving

namespace ExtConn.CriticalSections
open Effects Interleaving

-- Operations that open and close a section, and those allowed inside of one.
structure Bracket (S : Signature) where
  opens : S.Op → Bool
  closes : S.Op → Bool
  inner : S.Op → Prop

variable {S : Signature} {α β : Type} {B : Bracket S}

-- On every path a program opens a section only outside of one, does only what is
-- allowed inside, and ends outside.
def Bracket.Fits (B : Bracket S) : Bool → Prog S α → Prop
  | inside,.pure _ => inside = false
  | inside,.op o next =>
    if B.opens o then inside = false ∧ ∀ r, B.Fits true (next r)
    else if B.closes o then ∀ r, B.Fits false (next r)
    else (inside = true → B.inner o) ∧ ∀ r, B.Fits inside (next r)

def Bracket.plain (B : Bracket S) (o : S.Op) : Prop := B.opens o = false ∧ B.closes o = false

theorem fits_pure (value : α) : B.Fits false (.pure value : Prog S α) := rfl

theorem fits_open {o : S.Op} {next : S.Answer o → Prog S α} (opens : B.opens o = true) (rest : ∀ r, B.Fits true (next r)) :
    B.Fits false (.op o next) := by
  rw [Bracket.Fits,if_pos opens]
  exact ⟨rfl,rest⟩

theorem fits_close {o : S.Op} {next : S.Answer o → Prog S α} (opens : B.opens o = false) (closes : B.closes o = true)
    (rest : ∀ r, B.Fits false (next r)) : B.Fits inside (.op o next) := by
  rw [Bracket.Fits,if_neg (by rw [opens]; exact Bool.false_ne_true),if_pos closes]
  exact rest

theorem fits_op {o : S.Op} {next : S.Answer o → Prog S α} (plain : B.plain o) (inner : inside = true → B.inner o)
    (rest : ∀ r, B.Fits inside (next r)) : B.Fits inside (.op o next) := by
  rw [Bracket.Fits,if_neg (by rw [plain.1]; exact Bool.false_ne_true),if_neg (by rw [plain.2]; exact Bool.false_ne_true)]
  exact ⟨inner,rest⟩

theorem fits_bind {p : Prog S α} {f : α → Prog S β} (first : B.Fits inside p) (rest : ∀ a, B.Fits false (f a)) :
    B.Fits inside (p.bind f) := by
  induction p generalizing inside with
  | pure value =>
      have outside : inside = false := first
      rw [outside]
      exact rest value
  | op o next ih =>
      simp only [Prog.op_bind,Bracket.Fits] at first ⊢
      split
      · rename_i opens
        rw [if_pos opens] at first
        exact ⟨first.1,fun r => ih r (first.2 r)⟩
      · rename_i opens
        rw [if_neg opens] at first
        split
        · rename_i closes
          rw [if_pos closes] at first
          exact fun r => ih r (first r)
        · rename_i closes
          rw [if_neg closes] at first
          exact ⟨first.1,fun r => ih r (first.2 r)⟩

-- A part of a section, or of what is outside of any.
theorem fits_during {p : Prog S α} {f : α → Prog S β} (all : p.All fun o => B.plain o ∧ (inside = true → B.inner o))
    (rest : ∀ a, B.Fits inside (f a)) : B.Fits inside (p.bind f) := by
  induction p with
  | pure value => exact rest value
  | op o next ih => exact fits_op all.1.1 all.1.2 fun r => ih r (all.2 r)

theorem fits_all {p : Prog S α} (all : p.All B.plain) : B.Fits false p := by
  induction p with
  | pure value => rfl
  | op o next ih => exact fits_op all.1 (fun inside => by cases inside) fun r => ih r (all.2 r)

theorem fits_ite {c : Prop} [Decidable c] {p q : Prog S α} (left : B.Fits inside p) (right : B.Fits inside q) :
    B.Fits inside (if c then p else q) := by
  split
  · exact left
  · exact right

-- A machine in which opening a section makes the thread the owner of a lock.
section Machine
variable {Thread Label σ : Type} {m : Machine S Thread Label σ} {owner : σ → Option Thread}

structure Locks (m : Machine S Thread Label σ) (B : Bracket S) (owner : σ → Option Thread) : Prop where
  code : ∀ l, B.Fits false (m.code l)
  opens : ∀ t o s r s', B.opens o = true → m.act t o s r s' → owner s' = some t
  closes : ∀ t o s r s', B.closes o = true → m.act t o s r s' → owner s' = none
  keeps : ∀ t o s r s', B.plain o → m.act t o s r s' → owner s' = owner s
  around : ∀ s s', m.env s s' → owner s' = owner s

-- Where a thread is, and that it does not own the lock outside of its sections.
def Placed (B : Bracket S) (owner : σ → Option Thread) (c : Config S Thread Label σ) (t : Thread) : Prop :=
  ∃ inside, B.Fits inside (c.running t) ∧ (inside = false → owner c.shared ≠ some t)

theorem fits_cases {o : S.Op} {next : S.Answer o → Prog S α} (fits : B.Fits inside (.op o next)) :
    (B.opens o = true ∧ inside = false ∧ ∀ r, B.Fits true (next r)) ∨
    (B.opens o = false ∧ B.closes o = true ∧ ∀ r, B.Fits false (next r)) ∨
    (B.plain o ∧ (inside = true → B.inner o) ∧ ∀ r, B.Fits inside (next r)) := by
  rw [Bracket.Fits] at fits
  split at fits
  · exact .inl ⟨‹_›,fits⟩
  · rename_i opens
    split at fits
    · exact .inr (.inl ⟨by simpa using opens,‹_›,fits⟩)
    · rename_i closes
      exact .inr (.inr ⟨⟨by simpa using opens,by simpa using closes⟩,fits⟩)

-- One operation of a thread, for the thread and for the others.
theorem Locks.own_step (locks : Locks m B owner) {next : S.Answer o → Prog S Label} (fits : B.Fits inside (.op o next))
    (outside : inside = false → owner s ≠ some t) (acted : m.act t o s r s') :
    ∃ inside', B.Fits inside' (next r) ∧ (inside' = false → owner s' ≠ some t) := by
  rcases fits_cases fits with ⟨opens,_,rest⟩ | ⟨_,closes,rest⟩ | ⟨plain,_,rest⟩
  · exact ⟨true,rest r,fun same => by cases same⟩
  · refine ⟨false,rest r,fun _ => ?_⟩
    rw [locks.closes t o s r s' closes acted]
    exact fun same => by cases same
  · refine ⟨inside,rest r,fun same => ?_⟩
    rw [locks.keeps t o s r s' plain acted]
    exact outside same

theorem Locks.other_step (locks : Locks m B owner) (other : u ≠ t) (acted : m.act t o s r s') (outside : owner s ≠ some u) :
    owner s' ≠ some u := by
  cases opens : B.opens o with
  | true =>
      rw [locks.opens t o s r s' opens acted]
      exact fun same => other (Option.some.inj same).symm
  | false =>
      cases closes : B.closes o with
      | true =>
          rw [locks.closes t o s r s' closes acted]
          exact fun same => by cases same
      | false =>
          rw [locks.keeps t o s r s' ⟨opens,closes⟩ acted]
          exact outside

-- The owner of the lock is inside of a section of its own.
theorem Placed.owned (placed : Placed B owner c t) (owned : owner c.shared = some t) :
    ∃ o next, c.running t = .op o next ∧ B.Fits true (c.running t) := by
  obtain ⟨inside,fits,outside⟩ := placed
  cases inside with
  | false => exact absurd owned (outside rfl)
  | true =>
      cases here : c.running t with
      | pure label =>
          rw [here] at fits
          cases fits
      | op o next =>
          rw [here] at fits
          exact ⟨o,next,rfl,fits⟩

variable [DecidableEq Thread]

theorem Locks.step_placed (locks : Locks m B owner) (placed : ∀ t, Placed B owner c t) (step : Step m c next) :
    ∀ t, Placed B owner next t := by
  intro u
  obtain ⟨inside,fits,outside⟩ := placed u
  cases step with
  | op t here acted =>
      by_cases same : u = t
      · subst u
        rw [here] at fits
        obtain ⟨inside',rest,outside'⟩ := locks.own_step fits outside acted
        exact ⟨inside',by rw [goto_self]; exact rest,outside'⟩
      · refine ⟨inside,?_,fun at_rest => locks.other_step same acted (outside at_rest)⟩
        rw [goto_other _ same]
        exact fits
  | jump t here =>
      by_cases same : u = t
      · subst u
        rw [here] at fits
        exact ⟨false,by rw [goto_self]; exact locks.code _,fun _ => outside fits⟩
      · refine ⟨inside,?_,outside⟩
        rw [goto_other _ same]
        exact fits
  | env moved =>
      refine ⟨inside,fits,?_⟩
      show inside = false → owner _ ≠ some u
      rw [locks.around _ _ moved]
      exact outside

theorem Locks.reached_placed (locks : Locks m B owner) (start : ∀ t, Placed B owner initial t) (path : Reached m initial c) :
    ∀ t, Placed B owner c t :=
  reached_invariant (fun c => ∀ t, Placed B owner c t) start (fun _ _ placed step => locks.step_placed placed step) path

theorem own_op {c next : Config S Thread Label σ} (own : Own m t c next) (here : c.running t = .op o k) :
    ∃ r s', m.act t o c.shared r s' ∧ next = c.goto t (k r) s' := by
  cases own with
  | op there acted =>
      rw [here] at there
      cases there
      exact ⟨_,_,acted,rfl⟩
  | jump there =>
      rw [here] at there
      cases there

-- Where nothing allowed inside can block, the owner gets to the end of its section
-- by itself. The induction is on the rest of its block.
theorem Locks.released (locks : Locks m B owner)
    (free : ∀ t o s, B.plain o ∧ B.inner o ∨ B.closes o = true → ∃ r s', m.act t o s r s') (p : Prog S Label)
    (fits : B.Fits true p) (c : Config S Thread Label σ) (here : c.running t = p) (owned : owner c.shared = some t) :
    Bound m t (fun c => owner c.shared = none) c := by
  induction p generalizing c with
  | pure label => cases fits
  | op o next ih =>
      rcases fits_cases fits with ⟨_,impossible,_⟩ | ⟨_,closes,_⟩ | ⟨plain,inner,rest⟩
      · cases impossible
      · obtain ⟨r,s',acted⟩ := free t o c.shared (.inr closes)
        refine .onward ⟨_,.op here acted⟩ fun c' own => .there ?_
        obtain ⟨r,s',acted,rfl⟩ := own_op own here
        exact locks.closes t o _ r s' closes acted
      · obtain ⟨r,s',acted⟩ := free t o c.shared (.inl ⟨plain,inner rfl⟩)
        refine .onward ⟨_,.op here acted⟩ fun c' own => ?_
        obtain ⟨r,s',acted,rfl⟩ := own_op own here
        exact ih r (rest r) _ (goto_self c) ((locks.keeps t o _ r s' plain acted).trans owned)

end Machine
end ExtConn.CriticalSections
