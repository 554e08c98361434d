import Mathlib

namespace ExtConn.Effects

-- A signature lists the atomic operations a program may issue and the type of
-- the answer each of them receives. Nothing here fixes a state or a device.
structure Signature where
  Op : Type
  Answer : Op → Type

variable {S : Signature} {σ α β γ : Type}

-- A program either returns or issues one operation and continues with its
-- answer. Every path through a program is finite.
inductive Prog (S : Signature) (α : Type) : Type where
  | pure (value : α)
  | op (o : S.Op) (next : S.Answer o → Prog S α)

namespace Prog

def bind : Prog S α → (α → Prog S β) → Prog S β
  | .pure value,f => f value
  | .op o next,f => .op o fun r => (next r).bind f

def issue (o : S.Op) : Prog S (S.Answer o) := .op o .pure

instance : Monad (Prog S) where
  pure := .pure
  bind := bind

@[simp] theorem pure_def (value : α) : (Pure.pure value : Prog S α) = .pure value := rfl
@[simp] theorem bind_def (p : Prog S α) (f : α → Prog S β) : (p >>= f) = p.bind f := rfl
@[simp] theorem pure_bind (value : α) (f : α → Prog S β) : (Prog.pure value).bind f = f value := rfl
@[simp] theorem op_bind (o : S.Op) (next : S.Answer o → Prog S α) (f : α → Prog S β) :
    (Prog.op o next).bind f = .op o fun r => (next r).bind f := rfl
@[simp] theorem issue_bind (o : S.Op) (f : S.Answer o → Prog S β) : (issue o).bind f = .op o f := rfl

theorem bind_assoc (p : Prog S α) (f : α → Prog S β) (g : β → Prog S γ) :
    (p.bind f).bind g = p.bind fun a => (f a).bind g := by
  induction p with
  | pure value => rfl
  | op o next ih => simp only [op_bind,ih]

theorem bind_pure (p : Prog S α) : p.bind .pure = p := by
  induction p with
  | pure value => rfl
  | op o next ih => simp only [op_bind,ih]

-- The footprint of a program: every operation on every path satisfies `P`.
def All (P : S.Op → Prop) : Prog S α → Prop
  | .pure _ => True
  | .op o next => P o ∧ ∀ r, (next r).All P

@[simp] theorem all_pure (P : S.Op → Prop) (value : α) : (Prog.pure value : Prog S α).All P ↔ True := Iff.rfl
@[simp] theorem all_op (P : S.Op → Prop) (o : S.Op) (next : S.Answer o → Prog S α) :
    (Prog.op o next).All P ↔ P o ∧ ∀ r, (next r).All P := Iff.rfl
@[simp] theorem all_issue (P : S.Op → Prop) (o : S.Op) : (issue o).All P ↔ P o := by simp [issue]

theorem All.bind {P : S.Op → Prop} {p : Prog S α} {f : α → Prog S β}
    (left : p.All P) (right : ∀ a, (f a).All P) : (p.bind f).All P := by
  induction p with
  | pure value => exact right value
  | op o next ih => exact ⟨left.1,fun r => ih r (left.2 r)⟩

theorem All.mono {P Q : S.Op → Prop} {p : Prog S α} (all : p.All P) (weaker : ∀ o, P o → Q o) : p.All Q := by
  induction p with
  | pure value => trivial
  | op o next ih => exact ⟨weaker o all.1,fun r => ih r (all.2 r)⟩

theorem All.ite {P : S.Op → Prop} {c : Prop} [Decidable c] {p q : Prog S α}
    (left : c → p.All P) (right : ¬ c → q.All P) : (if c then p else q).All P := by
  split
  · exact left ‹_›
  · exact right ‹_›

-- What every value satisfies that a program can return.
def Returns (Q : α → Prop) : Prog S α → Prop
  | .pure value => Q value
  | .op _ next => ∀ r, (next r).Returns Q

@[simp] theorem returns_pure (Q : α → Prop) (value : α) : (Prog.pure value : Prog S α).Returns Q ↔ Q value := Iff.rfl
@[simp] theorem returns_op (Q : α → Prop) (o : S.Op) (next : S.Answer o → Prog S α) :
    (Prog.op o next).Returns Q ↔ ∀ r, (next r).Returns Q := Iff.rfl

theorem Returns.mono {Q R : α → Prop} {p : Prog S α} (returns : p.Returns Q) (weaker : ∀ a, Q a → R a) : p.Returns R := by
  induction p with
  | pure value => exact weaker value returns
  | op o next ih => exact fun r => ih r (returns r)

theorem Returns.bind {Q : β → Prop} {p : Prog S α} {f : α → Prog S β} (rest : ∀ a, (f a).Returns Q) :
    (p.bind f).Returns Q := by
  induction p with
  | pure value => exact rest value
  | op o next ih => exact fun r => ih r

theorem All.bind_returns {P : S.Op → Prop} {Q : α → Prop} {p : Prog S α} {f : α → Prog S β}
    (left : p.All P) (returns : p.Returns Q) (right : ∀ a, Q a → (f a).All P) : (p.bind f).All P := by
  induction p with
  | pure value => exact right value returns
  | op o next ih => exact ⟨left.1,fun r => ih r (left.2 r) (returns r)⟩

theorem Returns.ite {Q : α → Prop} {c : Prop} [Decidable c] {p q : Prog S α} (left : p.Returns Q) (right : q.Returns Q) :
    (if c then p else q).Returns Q := by
  split
  · exact left
  · exact right

-- The same for the paths on which every answer is one that `ok` admits.
def ReturnsWhen (ok : (o : S.Op) → S.Answer o → Prop) (Q : α → Prop) : Prog S α → Prop
  | .pure value => Q value
  | .op o next => ∀ r, ok o r → (next r).ReturnsWhen ok Q

theorem ReturnsWhen.bind {ok : (o : S.Op) → S.Answer o → Prop} {Q : α → Prop} {R : β → Prop} {p : Prog S α}
    {f : α → Prog S β} (first : p.ReturnsWhen ok Q) (rest : ∀ a, Q a → (f a).ReturnsWhen ok R) :
    (p.bind f).ReturnsWhen ok R := by
  induction p with
  | pure value => exact rest value first
  | op o next ih => exact fun r admitted => ih r (first r admitted)

theorem ReturnsWhen.mono {ok ok' : (o : S.Op) → S.Answer o → Prop} {Q : α → Prop} {p : Prog S α}
    (returns : p.ReturnsWhen ok Q) (stronger : ∀ o r, ok' o r → ok o r) : p.ReturnsWhen ok' Q := by
  induction p with
  | pure value => exact returns
  | op o next ih => exact fun r admitted => ih r (returns r (stronger o r admitted))

theorem ReturnsWhen.ite {ok : (o : S.Op) → S.Answer o → Prop} {Q : α → Prop} {c : Prop} [Decidable c] {p q : Prog S α}
    (left : c → p.ReturnsWhen ok Q) (right : ¬ c → q.ReturnsWhen ok Q) : (if c then p else q).ReturnsWhen ok Q := by
  split
  · exact left ‹_›
  · exact right ‹_›

end Prog

-- What one operation may answer in a state and the state it leaves. An
-- operation with no answer in a state is blocked there.
abbrev Meaning (S : Signature) (σ : Type) := (o : S.Op) → σ → S.Answer o → σ → Prop

-- Complete runs with the list of operations issued. The surroundings may move
-- the state by `rely` before every operation and once more before the return.
inductive Runs (rely : σ → σ → Prop) (act : Meaning S σ) : Prog S α → σ → List S.Op → α → σ → Prop where
  | done : rely s s' → Runs rely act (.pure value) s [] value s'
  | op : rely s s₁ → act o s₁ r s₂ → Runs rely act (next r) s₂ trace value s' →
      Runs rely act (.op o next) s (o :: trace) value s'

-- Operation `o` is about to be performed in state `s'` of some run from `s`,
-- whether or not that run can be completed.
inductive Issues (rely : σ → σ → Prop) (act : Meaning S σ) : Prog S α → σ → S.Op → σ → Prop where
  | now : rely s s₁ → Issues rely act (.op o next) s o s₁
  | later : rely s s₁ → act o s₁ r s₂ → Issues rely act (next r) s₂ o' s' →
      Issues rely act (.op o next) s o' s'

section Running
variable {rely : σ → σ → Prop} {act : Meaning S σ}

theorem runs_pure {s s' : σ} : Runs rely act (.pure value : Prog S α) s trace result s' ↔
    trace = [] ∧ result = value ∧ rely s s' := by
  constructor
  · intro run; cases run with | done moved => exact ⟨rfl,rfl,moved⟩
  · rintro ⟨rfl,rfl,moved⟩; exact .done moved

theorem runs_op {o : S.Op} {next : S.Answer o → Prog S α} {s s' : σ} :
    Runs rely act (.op o next) s trace result s' ↔
      ∃ s₁ r s₂ rest, trace = o :: rest ∧ rely s s₁ ∧ act o s₁ r s₂ ∧ Runs rely act (next r) s₂ rest result s' := by
  constructor
  · intro run; cases run with | op moved acted rest => exact ⟨_,_,_,_,rfl,moved,acted,rest⟩
  · rintro ⟨s₁,r,s₂,rest,rfl,moved,acted,run⟩; exact .op moved acted run

theorem Runs.absorb {p : Prog S α} (transitive : ∀ {a b c}, rely a b → rely b c → rely a c)
    (moved : rely s m) (run : Runs rely act p m trace value s') : Runs rely act p s trace value s' := by
  cases run with
  | done further => exact .done (transitive moved further)
  | op further acted rest => exact .op (transitive moved further) acted rest

theorem Runs.bind {p : Prog S α} {f : α → Prog S β} (transitive : ∀ {a b c}, rely a b → rely b c → rely a c)
    (first : Runs rely act p s one a m) (second : Runs rely act (f a) m two result s') :
    Runs rely act (p.bind f) s (one ++ two) result s' := by
  induction first with
  | done moved => exact second.absorb transitive moved
  | op moved acted rest ih => exact .op moved acted (ih second)

theorem Runs.all {P : S.Op → Prop} {p : Prog S α} (footprint : p.All P) (run : Runs rely act p s trace value s') :
    ∀ o ∈ trace, P o := by
  induction run with
  | done => intro o member; cases member
  | op moved acted rest ih =>
      intro o member
      rcases List.mem_cons.mp member with rfl | member
      · exact footprint.1
      · exact ih (footprint.2 _) o member

theorem Runs.returns {Q : α → Prop} {p : Prog S α} (returns : p.Returns Q) (run : Runs rely act p s trace value s') : Q value := by
  induction run with
  | done => exact returns
  | op moved acted rest ih => exact ih (returns _)

-- Where no operation is blocked for good, every program has a run.
theorem runs_exist (reflexive : ∀ s, rely s s) (free : ∀ o s, ∃ s₁ r s₂, rely s s₁ ∧ act o s₁ r s₂) (p : Prog S α)
    (s : σ) : ∃ trace value s', Runs rely act p s trace value s' := by
  induction p generalizing s with
  | pure value => exact ⟨[],value,s,.done (reflexive s)⟩
  | op o next ih =>
      obtain ⟨s₁,r,s₂,moved,acted⟩ := free o s
      obtain ⟨trace,value,s',run⟩ := ih r s₂
      exact ⟨o :: trace,value,s',.op moved acted run⟩

-- A program none of whose operations can block has a run.
theorem Prog.All.runs {p : Prog S α} (reflexive : ∀ s, rely s s) (free : p.All fun o => ∀ s, ∃ r s', act o s r s')
    (s : σ) : ∃ trace value s', Runs rely act p s trace value s' := by
  induction p generalizing s with
  | pure value => exact ⟨[],value,s,.done (reflexive s)⟩
  | op o next ih =>
      obtain ⟨r,s₁,acted⟩ := free.1 s
      obtain ⟨trace,value,s',run⟩ := ih r (free.2 r) s₁
      exact ⟨o :: trace,value,s',.op (reflexive s) acted run⟩

-- What a run does is issued, and where nothing blocks what is issued is done by a run.
theorem Runs.issues {p : Prog S α} (run : Runs rely act p s trace value s') (member : o ∈ trace) :
    ∃ m, Issues rely act p s o m := by
  induction run with
  | done => cases member
  | op moved acted rest ih =>
      cases List.mem_cons.mp member with
      | inl here =>
          cases here
          exact ⟨_,.now moved⟩
      | inr later =>
          obtain ⟨m,issued⟩ := ih later
          exact ⟨m,.later moved acted issued⟩

theorem Issues.runs {p : Prog S α} (reflexive : ∀ s, rely s s) (free : p.All fun o => ∀ s, ∃ r s', act o s r s')
    (issued : Issues rely act p s o m) : ∃ trace value s', Runs rely act p s trace value s' ∧ o ∈ trace := by
  induction issued with
  | now moved =>
      obtain ⟨r,s₂,acted⟩ := free.1 _
      obtain ⟨trace,value,s',run⟩ := (free.2 r).runs reflexive s₂
      exact ⟨_,value,s',.op moved acted run,List.mem_cons_self⟩
  | later moved acted rest ih =>
      obtain ⟨trace,value,s',run,member⟩ := ih (free.2 _)
      exact ⟨_,value,s',.op moved acted run,List.mem_cons_of_mem _ member⟩

-- A run seen through a projection of the state.
theorem Runs.map {rely' : τ → τ → Prop} {act' : Meaning S τ} {p : Prog S α} (f : σ → τ)
    (relied : ∀ {a b}, rely a b → rely' (f a) (f b)) (acts : ∀ {o a r b}, act o a r b → act' o (f a) r (f b))
    (run : Runs rely act p s trace value s') : Runs rely' act' p (f s) trace value (f s') := by
  induction run with
  | done moved => exact .done (relied moved)
  | op moved acted rest ih => exact .op (relied moved) (acts acted) ih

theorem Runs.unbind {p : Prog S α} {f : α → Prog S β} (reflexive : ∀ a, rely a a)
    (run : Runs rely act (p.bind f) s trace result s') :
    ∃ one two a m, trace = one ++ two ∧ Runs rely act p s one a m ∧ Runs rely act (f a) m two result s' := by
  induction p generalizing s trace with
  | pure value => exact ⟨[],trace,value,s,rfl,.done (reflexive s),run⟩
  | op o next ih =>
      obtain ⟨s₁,r,s₂,rest,rfl,moved,acted,run⟩ := runs_op.mp run
      obtain ⟨one,two,a,m,rfl,first,second⟩ := ih r run
      exact ⟨o :: one,two,a,m,rfl,.op moved acted first,second⟩

end Running

-- An executable reading of runs that are left alone: one choice per operation.
def execute (exec : (o : S.Op) → Choice → σ → Option (S.Answer o × σ)) :
    Prog S α → List Choice → σ → Option (List S.Op × α × σ)
  | .pure value,_,s => some ([],value,s)
  | .op _ _,[],_ => none
  | .op o next,choice :: rest,s =>
    (exec o choice s).bind fun acted => (execute exec (next acted.1) rest acted.2).map fun result => (o :: result.1,result.2)

theorem execute_runs {rely : σ → σ → Prop} {act : Meaning S σ} {exec : (o : S.Op) → Choice → σ → Option (S.Answer o × σ)}
    (reflexive : ∀ s, rely s s) (sound : ∀ o choice s r s', exec o choice s = some (r,s') → act o s r s')
    {p : Prog S α} (ran : execute exec p choices s = some (trace,value,s')) : Runs rely act p s trace value s' := by
  induction p generalizing choices s trace with
  | pure result =>
      cases ran
      exact .done (reflexive _)
  | op o next ih =>
      cases choices with
      | nil => cases ran
      | cons choice rest =>
          obtain ⟨⟨r,s₁⟩,acted,rest_ran⟩ := Option.bind_eq_some_iff.mp ran
          obtain ⟨⟨done,result⟩,continued,same⟩ := Option.map_eq_some_iff.mp rest_ran
          cases same
          exact .op (reflexive _) (sound _ _ _ _ _ acted) (ih r continued)

theorem execute_exists {rely : σ → σ → Prop} {act : Meaning S σ} {exec : (o : S.Op) → Choice → σ → Option (S.Answer o × σ)}
    (reflexive : ∀ s, rely s s) (sound : ∀ o choice s r s', exec o choice s = some (r,s') → act o s r s')
    {p : Prog S α} (test : α → σ → Bool)
    (passed : (execute exec p choices s).any (fun result => test result.2.1 result.2.2) = true) :
    ∃ trace value s', Runs rely act p s trace value s' ∧ test value s' = true := by
  cases ran : execute exec p choices s with
  | none => simp [ran] at passed
  | some result =>
      obtain ⟨trace,value,s'⟩ := result
      exact ⟨trace,value,s',execute_runs reflexive sound ran,by simpa [ran] using passed⟩

-- The surroundings of one sequential program: what its operations mean, what
-- others may do between them, what it promises about its own moves, and the
-- assertion checked when an operation is issued.
structure Contract (S : Signature) (σ : Type) where
  act : Meaning S σ
  rely : σ → σ → Prop
  guar : σ → σ → Prop
  safe : S.Op → σ → Prop

-- Demonic weakest precondition under interference.
def wp (C : Contract S σ) : Prog S α → (α → σ → Prop) → σ → Prop
  | .pure value,post,s => post value s
  | .op o next,post,s => ∀ s₁, C.rely s s₁ → C.safe o s₁ ∧
      ∀ r s₂, C.act o s₁ r s₂ → C.guar s₁ s₂ ∧ wp C (next r) post s₂

section Rules
variable {C : Contract S σ}

@[simp] theorem wp_pure (value : α) (post : α → σ → Prop) (s : σ) :
    wp C (.pure value : Prog S α) post s ↔ post value s := Iff.rfl

theorem wp_op (o : S.Op) (next : S.Answer o → Prog S α) (post : α → σ → Prop) (s : σ) :
    wp C (.op o next) post s ↔ ∀ s₁, C.rely s s₁ → C.safe o s₁ ∧
      ∀ r s₂, C.act o s₁ r s₂ → C.guar s₁ s₂ ∧ wp C (next r) post s₂ := Iff.rfl

@[simp] theorem wp_bind (p : Prog S α) (f : α → Prog S β) (post : β → σ → Prop) (s : σ) :
    wp C (p.bind f) post s ↔ wp C p (fun a => wp C (f a) post) s := by
  induction p generalizing s with
  | pure value => rfl
  | op o next ih => simp only [Prog.op_bind,wp_op,ih]

theorem wp_mono {p : Prog S α} {post post' : α → σ → Prop} {s : σ} (holds : wp C p post s)
    (weaker : ∀ a s, post a s → post' a s) : wp C p post' s := by
  induction p generalizing s with
  | pure value => exact weaker _ _ holds
  | op o next ih =>
      intro s₁ moved
      obtain ⟨safe,steps⟩ := holds s₁ moved
      exact ⟨safe,fun r s₂ acted => ⟨(steps r s₂ acted).1,ih r (steps r s₂ acted).2⟩⟩

-- One operation of a run that is left alone.
theorem wp_safe {o : S.Op} {next : S.Answer o → Prog S α} {post : α → σ → Prop} {s : σ}
    (holds : wp C (.op o next) post s) (still : C.rely s s) : C.safe o s :=
  (holds s still).1

theorem wp_step {o : S.Op} {next : S.Answer o → Prog S α} {post : α → σ → Prop} {r : S.Answer o} {s s' : σ}
    (holds : wp C (.op o next) post s) (still : C.rely s s) (acted : C.act o s r s') : wp C (next r) post s' :=
  ((holds s still).2 r s' acted).2

theorem wp_ite {c : Prop} [Decidable c] {p q : Prog S α} {post : α → σ → Prop} {s : σ}
    (left : c → wp C p post s) (right : ¬ c → wp C q post s) : wp C (if c then p else q) post s := by
  split
  · exact left ‹_›
  · exact right ‹_›

theorem wp_then {c : Prop} [Decidable c] {p q : Prog S α} {post : α → σ → Prop} {s : σ}
    (holds : wp C (if c then p else q) post s) (taken : c) : wp C p post s := by
  rwa [if_pos taken] at holds

theorem wp_else {c : Prop} [Decidable c] {p q : Prog S α} {post : α → σ → Prop} {s : σ}
    (holds : wp C (if c then p else q) post s) (refused : ¬ c) : wp C q post s := by
  rwa [if_neg refused] at holds

-- The rule behind most proofs below: a program whose footprint consists of
-- operations that keep an assertion keeps that assertion as a whole.
theorem wp_all {P : S.Op → Prop} {I : σ → Prop} {p : Prog S α} {post : α → σ → Prop} {s : σ}
    (all : p.All P) (stable : ∀ s s', I s → C.rely s s' → I s')
    (each : ∀ o s, P o → I s → C.safe o s ∧ ∀ r s', C.act o s r s' → C.guar s s' ∧ I s')
    (start : I s) (finish : ∀ a s, I s → post a s) : wp C p post s := by
  induction p generalizing s with
  | pure value => exact finish _ _ start
  | op o next ih =>
      intro s₁ moved
      obtain ⟨safe,steps⟩ := each o s₁ all.1 (stable s s₁ start moved)
      exact ⟨safe,fun r s₂ acted => ⟨(steps r s₂ acted).1,ih r (all.2 r) (steps r s₂ acted).2⟩⟩

-- A thread none of whose operations depends on the state.
theorem wp_careless {P : S.Op → Prop} {p : Prog S α} (all : p.All P)
    (each : ∀ o s, P o → C.safe o s ∧ ∀ r s', C.act o s r s' → C.guar s s') (s : σ) : wp C p (fun _ _ => True) s := by
  refine wp_all (I := fun _ => True) all (fun _ _ _ _ => trivial) (fun o s here _ => ?_) trivial fun _ _ _ => trivial
  exact ⟨(each o s here).1,fun r s' acted => ⟨(each o s here).2 r s' acted,trivial⟩⟩

theorem wp_and {safe' : S.Op → σ → Prop} {p : Prog S α} {post post' : α → σ → Prop} {s : σ} (one : wp C p post s)
    (two : wp {C with safe := safe'} p post' s) : wp C p (fun a s => post a s ∧ post' a s) s := by
  induction p generalizing s with
  | pure value => exact ⟨one,two⟩
  | op o next ih =>
      intro s₁ moved
      obtain ⟨safe,steps⟩ := one s₁ moved
      exact ⟨safe,fun r s₂ acted => ⟨(steps r s₂ acted).1,ih r (steps r s₂ acted).2 ((two s₁ moved).2 r s₂ acted).2⟩⟩

theorem wp_returns {Q : α → Prop} {p : Prog S α} {post : α → σ → Prop} {s : σ} (returns : p.Returns Q)
    (holds : wp C p post s) : wp C p (fun a s => Q a ∧ post a s) s := by
  induction p generalizing s with
  | pure value => exact ⟨returns,holds⟩
  | op o next ih =>
      intro s₁ moved
      obtain ⟨safe,steps⟩ := holds s₁ moved
      exact ⟨safe,fun r s₂ acted => ⟨(steps r s₂ acted).1,ih r (returns r) (steps r s₂ acted).2⟩⟩

theorem wp_returnsWhen {ok : (o : S.Op) → S.Answer o → Prop} {Q : α → Prop} {p : Prog S α} {post : α → σ → Prop} {s : σ}
    (admitted : ∀ o s r s', C.act o s r s' → ok o r) (returns : p.ReturnsWhen ok Q) (holds : wp C p post s) :
    wp C p (fun a s => Q a ∧ post a s) s := by
  induction p generalizing s with
  | pure value => exact ⟨returns,holds⟩
  | op o next ih =>
      intro s₁ moved
      obtain ⟨safe,steps⟩ := holds s₁ moved
      refine ⟨safe,fun r s₂ acted => ⟨(steps r s₂ acted).1,?_⟩⟩
      exact ih r (returns r (admitted o s₁ r s₂ acted)) (steps r s₂ acted).2

-- Where no operation is blocked for good, some run gets to the end.
theorem wp_reaches {p : Prog S α} {post : α → σ → Prop} {s : σ}
    (free : ∀ o s, ∃ s₁ r s₂, C.rely s s₁ ∧ C.act o s₁ r s₂) (holds : wp C p post s) : ∃ a s', post a s' := by
  induction p generalizing s with
  | pure value => exact ⟨value,s,holds⟩
  | op o next ih =>
      obtain ⟨s₁,r,s₂,moved,acted⟩ := free o s
      exact ih r ((holds s₁ moved).2 r s₂ acted).2

-- Where what is asserted of an operation is that it can be done, there is a run.
theorem wp_progress {p : Prog S α} {post : α → σ → Prop} {s : σ} (reflexive : ∀ s, C.rely s s)
    (enabled : ∀ o s, C.safe o s → ∃ r s', C.act o s r s') (holds : wp C p post s) :
    ∃ trace value s', Runs C.rely C.act p s trace value s' ∧ post value s' := by
  induction p generalizing s with
  | pure value => exact ⟨[],value,s,.done (reflexive s),holds⟩
  | op o next ih =>
      obtain ⟨safe,steps⟩ := holds s (reflexive s)
      obtain ⟨r,s₁,acted⟩ := enabled o s safe
      obtain ⟨trace,value,s',run,reached⟩ := ih r (steps r s₁ acted).2
      exact ⟨o :: trace,value,s',.op (reflexive s) acted run,reached⟩

-- Interference can be absorbed in front of a program.
theorem wp_stable {p : Prog S α} {post : α → σ → Prop} {s s' : σ}
    (transitive : ∀ {a b c}, C.rely a b → C.rely b c → C.rely a c)
    (stable : ∀ a s s', post a s → C.rely s s' → post a s')
    (holds : wp C p post s) (moved : C.rely s s') : wp C p post s' := by
  cases p with
  | pure value => exact stable _ _ _ holds moved
  | op o next => exact fun s₁ further => holds s₁ (transitive moved further)

theorem wp_runs {p : Prog S α} {post : α → σ → Prop} {s s' : σ}
    (stable : ∀ a s s', post a s → C.rely s s' → post a s')
    (holds : wp C p post s) (run : Runs C.rely C.act p s trace a s') : post a s' := by
  induction run with
  | done moved => exact stable _ _ _ holds moved
  | op moved acted rest ih => exact ih ((holds _ moved).2 _ _ acted).2

-- What the operations of a footprint and the surroundings keep, a run keeps.
theorem Runs.keeps {rely : σ → σ → Prop} {act : Meaning S σ} {P : S.Op → Prop} {I : σ → Prop} {p : Prog S α}
    (all : p.All P) (stable : ∀ s s', I s → rely s s' → I s')
    (each : ∀ o s r s', P o → I s → act o s r s' → I s') (start : I s)
    (run : Runs rely act p s trace value s') : I s' := by
  induction run with
  | done moved => exact stable _ _ start moved
  | op moved acted rest ih => exact ih (all.2 _) (each _ _ _ _ all.1 (stable _ _ start moved) acted)

theorem wp_issues {p : Prog S α} {post : α → σ → Prop} {s s' : σ}
    (holds : wp C p post s) (issued : Issues C.rely C.act p s o s') : C.safe o s' := by
  induction issued with
  | now moved => exact (holds _ moved).1
  | later moved acted rest ih => exact ih ((holds _ moved).2 _ _ acted).2

-- With no promise and no postcondition the weakest precondition says exactly
-- that every operation ever issued is safe.
theorem wp_exact {p : Prog S α} {s : σ} (promise : ∀ s s', C.guar s s') :
    wp C p (fun _ _ => True) s ↔ ∀ o s', Issues C.rely C.act p s o s' → C.safe o s' := by
  refine ⟨fun holds o s' issued => wp_issues holds issued,?_⟩
  induction p generalizing s with
  | pure value => exact fun _ => trivial
  | op o next ih =>
      intro all s₁ moved
      exact ⟨all o s₁ (.now moved),fun r s₂ acted => ⟨promise _ _,
        ih r fun o' s' issued => all o' s' (.later moved acted issued)⟩⟩

end Rules

-- What has been shown of a program over an abstract state holds over every state
-- that simulates it.
theorem wp_simulates {A : Contract S φ} {C : Contract S σ} {R : φ → σ → Prop} {p : Prog S α} {post : α → φ → Prop}
    (around : ∀ f s s', R f s → C.rely s s' → ∃ f', A.rely f f' ∧ R f' s')
    (each : ∀ o f s, R f s → A.safe o f → C.safe o s ∧
      ∀ r s', C.act o s r s' → C.guar s s' ∧ ∃ f', A.act o f r f' ∧ R f' s')
    (related : R f s) (holds : wp A p post f) : wp C p (fun a s' => ∃ f', R f' s' ∧ post a f') s := by
  induction p generalizing f s with
  | pure value => exact ⟨f,related,holds⟩
  | op o next ih =>
      intro s₁ moved
      obtain ⟨f₁,relied,related₁⟩ := around f s s₁ related moved
      obtain ⟨allowed,steps⟩ := holds f₁ relied
      obtain ⟨safe,simulated⟩ := each o f₁ s₁ related₁ allowed
      refine ⟨safe,fun r s₂ acted => ?_⟩
      obtain ⟨promise,f₂,taken,related₂⟩ := simulated r s₂ acted
      exact ⟨promise,ih r related₂ (steps r f₂ taken).2⟩

-- What a program leads from one assertion to another, and what it keeps as a
-- whole, though perhaps not at every one of its operations.
section Keeping
variable {C : Contract S σ} {before after last keep : σ → Prop}

def Leads (C : Contract S σ) (before after : σ → Prop) (p : Prog S α) : Prop :=
  ∀ s, before s → wp C p (fun _ => after) s

def LeadsOp (C : Contract S σ) (before after : σ → Prop) (o : S.Op) : Prop :=
  ∀ s, before s → C.safe o s ∧ ∀ r s', C.act o s r s' → C.guar s s' ∧ after s'

abbrev Keeps (C : Contract S σ) (keep : σ → Prop) (p : Prog S α) : Prop := Leads C keep keep p

abbrev KeepsOp (C : Contract S σ) (keep : σ → Prop) (o : S.Op) : Prop := LeadsOp C keep keep o

theorem keeps_pure (value : α) : Keeps C keep (.pure value : Prog S α) := fun _ held => held

theorem leads_op {o : S.Op} {next : S.Answer o → Prog S α} (stable : ∀ s s', before s → C.rely s s' → before s')
    (each : LeadsOp C before after o) (rest : ∀ r, Leads C after last (next r)) : Leads C before last (.op o next) := by
  intro s held s₁ moved
  obtain ⟨safe,steps⟩ := each s₁ (stable s s₁ held moved)
  exact ⟨safe,fun r s₂ acted => ⟨(steps r s₂ acted).1,rest r s₂ (steps r s₂ acted).2⟩⟩

theorem Leads.bind {p : Prog S α} {f : α → Prog S β} (first : Leads C before after p)
    (rest : ∀ a, Leads C after last (f a)) : Leads C before last (p.bind f) := by
  intro s held
  rw [wp_bind]
  exact wp_mono (first s held) fun a s' held => rest a s' held

theorem Leads.ite {c : Prop} [Decidable c] {p q : Prog S α} (left : Leads C before after p) (right : Leads C before after q) :
    Leads C before after (if c then p else q) := by
  split
  · exact left
  · exact right

theorem Prog.All.keeps {p : Prog S α} (all : p.All (KeepsOp C keep)) (stable : ∀ s s', keep s → C.rely s s' → keep s') :
    Keeps C keep p := by
  induction p with
  | pure value => exact keeps_pure value
  | op o next ih => exact leads_op stable all.1 fun r => ih r (all.2 r)

theorem every_keeps (each : ∀ o, KeepsOp C keep o) (stable : ∀ s s', keep s → C.rely s s' → keep s') (p : Prog S α) : Keeps C keep p := by
  induction p with
  | pure value => exact keeps_pure value
  | op o next ih => exact leads_op stable (each o) ih

end Keeping

end ExtConn.Effects
