import ExtConn.Effects

namespace ExtConn.Interleaving
open Effects

-- Threads execute labelled blocks. A block is a finite program that returns the
-- label of the block to run next, so loops that never end are chains of blocks.
structure Machine (S : Signature) (Thread Label σ : Type) where
  code : Label → Prog S Label
  act : Thread → Meaning S σ
  env : σ → σ → Prop

structure Config (S : Signature) (Thread Label σ : Type) where
  shared : σ
  running : Thread → Prog S Label

variable {S : Signature} {Thread Label σ : Type} [DecidableEq Thread]

def Config.goto (c : Config S Thread Label σ) (t : Thread) (p : Prog S Label) (s : σ) : Config S Thread Label σ :=
  ⟨s,Function.update c.running t p⟩

@[simp] theorem goto_shared (c : Config S Thread Label σ) : (c.goto t p s).shared = s := rfl
@[simp] theorem goto_self (c : Config S Thread Label σ) : (c.goto t p s).running t = p := by simp [Config.goto]
theorem goto_other (c : Config S Thread Label σ) (different : u ≠ t) :
    (c.goto t p s).running u = c.running u := by simp [Config.goto,different]

-- The operation a thread is about to perform, inside a block.
def Config.pending (c : Config S Thread Label σ) (t : Thread) : Option S.Op :=
  match c.running t with
  | .pure _ => none
  | .op o _ => some o

omit [DecidableEq Thread] in
theorem pending_iff {c : Config S Thread Label σ} {t : Thread} {o : S.Op} :
    c.pending t = some o ↔ ∃ next, c.running t = .op o next := by
  unfold Config.pending
  cases c.running t with
  | pure label => simp
  | op o' next =>
      constructor
      · rintro ⟨⟩
        exact ⟨next,rfl⟩
      · rintro ⟨next',same⟩
        cases same
        rfl

-- The label at which a thread stands between two blocks.
def Config.resting (c : Config S Thread Label σ) (t : Thread) : Option Label :=
  match c.running t with
  | .pure label => some label
  | .op _ _ => none

omit [DecidableEq Thread] in
theorem resting_iff {c : Config S Thread Label σ} {t : Thread} : c.resting t = some label ↔ c.running t = .pure label := by
  unfold Config.resting
  cases c.running t with
  | pure label => simp
  | op o next => simp

-- One operation of one thread is one step; every interleaving of the threads
-- and of the surroundings is a path.
inductive Step (m : Machine S Thread Label σ) : Config S Thread Label σ → Config S Thread Label σ → Prop where
  | op (t : Thread) (here : c.running t = .op o next) (acted : m.act t o c.shared r s') :
      Step m c (c.goto t (next r) s')
  | jump (t : Thread) (here : c.running t = .pure label) : Step m c (c.goto t (m.code label) c.shared)
  | env (moved : m.env c.shared s') : Step m c {c with shared := s'}

inductive Reached (m : Machine S Thread Label σ) (start : Config S Thread Label σ) : Config S Thread Label σ → Prop where
  | refl : Reached m start start
  | step : Reached m start c → Step m c next → Reached m start next

theorem Reached.trans {m : Machine S Thread Label σ} (one : Reached m a b) (two : Reached m b c) : Reached m a c := by
  induction two with
  | refl => exact one
  | step _ step ih => exact .step ih step

-- The steps of one thread while everybody else stands still.
inductive Own (m : Machine S Thread Label σ) (t : Thread) : Config S Thread Label σ → Config S Thread Label σ → Prop where
  | op (here : c.running t = .op o next) (acted : m.act t o c.shared r s') : Own m t c (c.goto t (next r) s')
  | jump (here : c.running t = .pure label) : Own m t c (c.goto t (m.code label) c.shared)

inductive Alone (m : Machine S Thread Label σ) (t : Thread) : Config S Thread Label σ → Config S Thread Label σ → Prop where
  | refl : Alone m t c c
  | step : Own m t c middle → Alone m t middle last → Alone m t c last

-- Where a thread comes by its own steps, whatever is answered to them.
inductive Bound (m : Machine S Thread Label σ) (t : Thread) (goal : Config S Thread Label σ → Prop) :
    Config S Thread Label σ → Prop where
  | there (here : goal c) : Bound m t goal c
  | onward (can : ∃ next, Own m t c next) (each : ∀ next, Own m t c next → Bound m t goal next) : Bound m t goal c

theorem Bound.alone {m : Machine S Thread Label σ} (bound : Bound m t goal c) : ∃ last, Alone m t c last ∧ goal last := by
  induction bound with
  | there here => exact ⟨_,.refl,here⟩
  | onward can _ ih =>
      obtain ⟨next,own⟩ := can
      obtain ⟨last,alone,here⟩ := ih next own
      exact ⟨last,.step own alone,here⟩

-- Paths together with the operations performed on them.
inductive Path (m : Machine S Thread Label σ) (start : Config S Thread Label σ) :
    List (Thread × S.Op) → Config S Thread Label σ → Prop where
  | refl : Path m start [] start
  | op (path : Path m start trace c) (t : Thread) (here : c.running t = .op o next) (acted : m.act t o c.shared r s') :
      Path m start (trace ++ [(t,o)]) (c.goto t (next r) s')
  | jump (path : Path m start trace c) (t : Thread) (here : c.running t = .pure label) :
      Path m start trace (c.goto t (m.code label) c.shared)
  | env (path : Path m start trace c) (moved : m.env c.shared s') : Path m start trace {c with shared := s'}

theorem Path.reached {m : Machine S Thread Label σ} (path : Path m start trace c) : Reached m start c := by
  induction path with
  | refl => exact .refl
  | op _ t here acted ih => exact .step ih (.op t here acted)
  | jump _ t here ih => exact .step ih (.jump t here)
  | env _ moved ih => exact .step ih (.env moved)

theorem Reached.path {m : Machine S Thread Label σ} (reached : Reached m start c) : ∃ trace, Path m start trace c := by
  induction reached with
  | refl => exact ⟨[],.refl⟩
  | step _ step ih =>
      obtain ⟨trace,path⟩ := ih
      cases step with
      | op t here acted => exact ⟨_,.op path t here acted⟩
      | jump t here => exact ⟨_,.jump path t here⟩
      | env moved => exact ⟨_,.env path moved⟩

-- The runs of a machine all of whose steps meet a condition on the state before
-- the step and on what the surroundings answer.
def Machine.when (m : Machine S Thread Label σ) (ok : Thread → (o : S.Op) → σ → S.Answer o → Prop) :
    Machine S Thread Label σ :=
  {m with act := fun t o s r s' => m.act t o s r s' ∧ ok t o s r}

theorem reached_invariant {m : Machine S Thread Label σ} (keep : Config S Thread Label σ → Prop)
    (initially : keep start) (preserved : ∀ c next, keep c → Step m c next → keep next)
    (path : Reached m start c) : keep c := by
  induction path with
  | refl => exact initially
  | step _ step ih => exact preserved _ _ ih step

-- A proof outline assigns every thread its interference contract and every
-- label the assertion under which its block may be entered.
structure Outline (m : Machine S Thread Label σ) where
  rely : Thread → σ → σ → Prop
  guar : Thread → σ → σ → Prop
  safe : Thread → S.Op → σ → Prop
  entry : Thread → Label → σ → Prop
  transitive : ∀ {t a b c}, rely t a b → rely t b c → rely t a c
  compatible : ∀ {t u a b}, u ≠ t → guar t a b → rely u a b
  surroundings : ∀ {t a b}, m.env a b → rely t a b
  stable : ∀ {t l a b}, entry t l a → rely t a b → entry t l b
  verified : ∀ t l s, entry t l s → wp ⟨m.act t,rely t,guar t,safe t⟩ (m.code l) (entry t) s

namespace Outline
variable {m : Machine S Thread Label σ}

abbrev contract (O : Outline m) (t : Thread) : Contract S σ := ⟨m.act t,O.rely t,O.guar t,O.safe t⟩

-- Every thread is at a point from which the rest of its block is verified.
def Holds (O : Outline m) (c : Config S Thread Label σ) : Prop :=
  ∀ t, wp (O.contract t) (c.running t) (O.entry t) c.shared

omit [DecidableEq Thread] in
theorem holds_resting (O : Outline m) (rests : ∀ t, ∃ l, c.running t = .pure l ∧ O.entry t l c.shared) : O.Holds c := by
  intro t
  obtain ⟨l,here,entry⟩ := rests t
  rw [here]
  exact entry

omit [DecidableEq Thread] in
theorem reflexive (O : Outline m) (still : ∀ s, m.env s s) (t : Thread) (s : σ) : O.rely t s s := O.surroundings (still s)

omit [DecidableEq Thread] in
theorem interfered (O : Outline m) {p : Prog S Label} (holds : wp (O.contract t) p (O.entry t) s)
    (moved : O.rely t s s') : wp (O.contract t) p (O.entry t) s' :=
  wp_stable O.transitive (fun _ _ _ entry moved => O.stable entry moved) holds moved

theorem step_holds (O : Outline m) (reflexive : ∀ t s, O.rely t s s) (valid : O.Holds c) (step : Step m c next) :
    O.Holds next := by
  cases step with
  | op t here acted =>
      have block := valid t
      rw [here] at block
      obtain ⟨_,steps⟩ := block c.shared (reflexive t _)
      obtain ⟨promise,rest⟩ := steps _ _ acted
      intro u
      by_cases same : u = t
      · subst u; simpa using rest
      · rw [goto_other _ same]
        exact O.interfered (valid u) (O.compatible same promise)
  | jump t here =>
      have block := valid t
      rw [here] at block
      intro u
      by_cases same : u = t
      · subst u; simpa using O.verified _ _ _ block
      · rw [goto_other _ same]; exact valid u
  | env moved => exact fun u => O.interfered (valid u) (O.surroundings moved)

theorem reached_holds (O : Outline m) (reflexive : ∀ t s, O.rely t s s) (start : O.Holds initial)
    (path : Reached m initial c) : O.Holds c :=
  reached_invariant O.Holds start (fun _ _ valid step => O.step_holds reflexive valid step) path

-- What every guarantee keeps, every run keeps.
theorem reached_keeps (O : Outline m) (reflexive : ∀ t s, O.rely t s s) {keep : σ → Prop}
    (each : ∀ t a b, keep a → O.guar t a b → keep b) (around : ∀ a b, keep a → m.env a b → keep b)
    (start : O.Holds initial) (held : keep initial.shared) (path : Reached m initial c) : keep c.shared := by
  induction path with
  | refl => exact held
  | step path step ih =>
      have valid := O.reached_holds reflexive start path
      cases step with
      | op t here acted =>
          have block := valid t
          rw [here] at block
          obtain ⟨_,steps⟩ := block _ (reflexive t _)
          exact each t _ _ ih (steps _ _ acted).1
      | jump t here => exact ih
      | env moved => exact around _ _ ih moved

omit [DecidableEq Thread] in
theorem Holds.safe {O : Outline m} (valid : O.Holds c) (reflexive : ∀ t s, O.rely t s s)
    (here : c.pending t = some o) : O.safe t o c.shared := by
  obtain ⟨next,here⟩ := pending_iff.mp here
  have block := valid t
  rw [here] at block
  exact (block _ (reflexive t _)).1

omit [DecidableEq Thread] in
theorem Holds.entry {O : Outline m} (valid : O.Holds c) (here : c.running t = .pure l) : O.entry t l c.shared := by
  have block := valid t
  rwa [here] at block

end Outline

-- An executable reading of a machine: every choice names the thread to run and
-- how the surroundings resolve its next operation.
section Executable
variable {Choice : Type}

def advance (code : Label → Prog S Label) (exec : Thread → (o : S.Op) → Choice → σ → Option (S.Answer o × σ))
    (c : Config S Thread Label σ) (t : Thread) (choice : Choice) : Option (Config S Thread Label σ) :=
  match c.running t with
  | .pure label => some (c.goto t (code label) c.shared)
  | .op o next => (exec t o choice c.shared).map fun result => c.goto t (next result.1) result.2

def schedule (code : Label → Prog S Label) (exec : Thread → (o : S.Op) → Choice → σ → Option (S.Answer o × σ)) :
    List (Thread × Choice) → Config S Thread Label σ → Option (Config S Thread Label σ)
  | [],c => some c
  | (t,choice) :: rest,c => (advance code exec c t choice).bind (schedule code exec rest)

theorem advance_step {m : Machine S Thread Label σ} {exec : Thread → (o : S.Op) → Choice → σ → Option (S.Answer o × σ)}
    (sound : ∀ t o choice s r s', exec t o choice s = some (r,s') → m.act t o s r s')
    (ran : advance m.code exec c t choice = some next) : Step m c next := by
  unfold advance at ran
  split at ran
  · rename_i label here
    cases Option.some.inj ran
    exact .jump t here
  · rename_i o rest here
    cases acted : exec t o choice c.shared with
    | none => simp [acted] at ran
    | some result =>
        obtain ⟨r,s'⟩ := result
        simp only [acted,Option.map_some,Option.some.injEq] at ran
        subst ran
        exact .op t here (sound _ _ _ _ _ _ acted)

theorem schedule_reached {m : Machine S Thread Label σ} {exec : Thread → (o : S.Op) → Choice → σ → Option (S.Answer o × σ)}
    (sound : ∀ t o choice s r s', exec t o choice s = some (r,s') → m.act t o s r s')
    (ran : schedule m.code exec choices c = some next) : Reached m c next := by
  induction choices generalizing c with
  | nil => cases Option.some.inj ran; exact .refl
  | cons choice rest ih =>
      obtain ⟨t,choice⟩ := choice
      cases stepped : advance m.code exec c t choice with
      | none => simp [schedule,stepped] at ran
      | some middle =>
          simp only [schedule,stepped,Option.bind_some] at ran
          exact (Reached.step .refl (advance_step sound stepped)).trans (ih ran)

-- The form in which concrete runs are used: a test that a schedule ends well
-- exhibits a reachable configuration.
theorem schedule_exists {m : Machine S Thread Label σ} {exec : Thread → (o : S.Op) → Choice → σ → Option (S.Answer o × σ)}
    (sound : ∀ t o choice s r s', exec t o choice s = some (r,s') → m.act t o s r s') (test : Config S Thread Label σ → Bool)
    (passed : (schedule m.code exec choices c).any test = true) : ∃ next, Reached m c next ∧ test next = true := by
  cases ran : schedule m.code exec choices c with
  | none => simp [ran] at passed
  | some next => exact ⟨next,schedule_reached sound ran,by simpa [ran] using passed⟩

-- The executable reading of a machine whose steps all meet a condition.
def screened (exec : Thread → (o : S.Op) → Choice → σ → Option (S.Answer o × σ)) (check : Thread → S.Op → Choice → σ → Bool)
    (t : Thread) (o : S.Op) (choice : Choice) (s : σ) : Option (S.Answer o × σ) :=
  if check t o choice s then exec t o choice s else none

omit [DecidableEq Thread] in
theorem screened_sound {m : Machine S Thread Label σ} {exec : Thread → (o : S.Op) → Choice → σ → Option (S.Answer o × σ)}
    {check : Thread → S.Op → Choice → σ → Bool} {ok : Thread → (o : S.Op) → σ → S.Answer o → Prop}
    (sound : ∀ t o choice s r s', exec t o choice s = some (r,s') → m.act t o s r s')
    (meets : ∀ t o choice s r s', check t o choice s = true → exec t o choice s = some (r,s') → ok t o s r) (t : Thread) (o : S.Op)
    (choice : Choice) (s : σ) (r : S.Answer o) (s' : σ) (ran : screened exec check t o choice s = some (r,s')) :
    (m.when ok).act t o s r s' := by
  obtain ⟨passed,executed⟩ := Option.ite_none_right_eq_some.mp ran
  exact ⟨sound t o choice s r s' executed,meets t o choice s r s' passed executed⟩

end Executable
end ExtConn.Interleaving
