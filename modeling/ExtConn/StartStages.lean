import ExtConn.StartOrder

namespace ExtConn.StartStages
open Effects ByteMemory Interleaving Nesting Startup StartOrder

-- The start-up between two of its stages: `before` have succeeded, the objects
-- in `objs` are there, and `attached` is whether a Bluetooth host may be.
structure At (cfg : Build) (before : List Stage) (objs : Object → Bool) (attached : Prop) (s : World × Records) : Prop where
  inv : Inv cfg s
  results : s.2.books.results = passed before
  going : s.2.books.ended = none
  ready : ∀ obj, objs obj = true → s.2.books.usable obj
  host : s.2.books.hooks .hciDriver = true → attached

theorem at_stable (s s' : World × Records) (here : At cfg before objs attached s) (moved : rely cfg .appMain s s') :
    At cfg before objs attached s' := by
  obtain ⟨grown,keeps,same⟩ := moved
  have books := same rfl
  exact ⟨keeps here.inv,books ▸ here.results,books ▸ here.going,fun obj held => grown.usable obj (here.ready obj held),books ▸ here.host⟩

theorem At.fewer {s : World × Records} (here : At cfg before objs attached s) (less : ∀ obj, objs' obj = true → objs obj = true) :
    At cfg before objs' attached s :=
  {here with ready := fun obj held => here.ready obj (less obj held)}

-- One operation after another, where the answers matter.
theorem asking {C : Contract S σ} {A : σ → Prop} {o : S.Op} {next : S.Answer o → Prog S α} {post : α → σ → Prop}
    (stable : ∀ s s', A s → C.rely s s' → A s') (start : A s)
    (each : ∀ s, A s → C.safe o s ∧ ∀ r s', C.act o s r s' → C.guar s s' ∧ wp C (next r) post s') : wp C (.op o next) post s := by
  intro s₁ moved
  exact each s₁ (stable s s₁ start moved)

section Main
variable {u : Setup} {before : List Stage} {objs : Object → Bool} {attached : Prop}

-- Operations of the component that the start-up performs itself.
def owned (before : List Stage) (objs : Object → Bool) (o : Op) : Prop :=
  ∀ obj, uses .appMain o obj = true → objs obj = true ∨ (obj = .host ∧ before = [])

theorem owned_placed {o : Op} {s : World × Records} (here : At cfg before objs attached s) (own : owned before objs o) :
    placed .appMain o s.2.books := by
  refine ⟨fun no => absurd rfl no,fun obj used => ?_⟩
  rcases own obj used with known | ⟨rfl,rfl⟩
  · exact .inl (here.ready obj known)
  · exact .inr ⟨rfl,rfl,here.results⟩

theorem at_moves {o : Op} {r : o.Answer} {s s' : World × Records} (here : At u.build before objs attached s)
    (acted : (contract u .appMain).act (.inl o) s r s') (booted : ∀ n, s'.1.bootSem = .alive (n+1) → s'.2.stored) :
    guar u.build .appMain s s' ∧ At u.build before objs attached s' := by
  obtain ⟨promise,inv,books⟩ := base_keeps acted here.inv booted (fun no => by cases no)
  exact ⟨promise,inv,books ▸ here.results,books ▸ here.going,fun obj held => promise.1.usable obj (here.ready obj held),books ▸ here.host⟩

theorem owned_keeps {o : Op} (semaphore : movesBootSem o = false) (own : owned before objs o) :
    KeepsOp (inside u .appMain) (At u.build before objs attached) o :=
  fun _ here => ⟨owned_placed here own,fun _ _ acted => at_moves here acted (plain_booted acted here.inv semaphore)⟩

theorem base_at {p : Code α} (all : p.All fun o => movesBootSem o = false ∧ owned before objs o) {s : World × Records}
    (here : At u.build before objs attached s) :
    wp (contract u .appMain) (base p) (fun _ => At u.build before objs attached) s :=
  wp_inner.mpr ((all.mono fun _ known => owned_keeps known.1 known.2).keeps at_stable s here)

-- What the start-up notes: the books change, and what else they allow is there.
theorem noted {s : World × Records} (s' : World × Records) (objs' : Object → Bool) (attached' : Prop) (here : At cfg before objs attached s)
    (boot : s'.1.bootSem = s.1.bootSem) (flags : s'.2.params = s.2.params ∧ s'.2.sent = s.2.sent)
    (results : s'.2.books.results = s.2.books.results) (ended : s'.2.books.ended = none)
    (usable : ∀ obj, s.2.books.usable obj → s'.2.books.usable obj)
    (available : ∀ t, s.2.books.available t = true → s'.2.books.available t = true)
    (added : ∀ t, s'.2.books.available t = true → s.2.books.available t = true ∨
      ((∀ obj, needs t obj = true → objs obj = true) ∧ ∀ stage ∈ prior cfg t, stage ∈ before))
    (ready : ∀ obj, objs' obj = true → objs obj = true ∨ s'.2.books.usable obj)
    (host : s'.2.books.hooks .hciDriver = true → attached') :
    guar cfg .appMain s s' ∧ At cfg before objs' attached' s' := by
  have inv : Inv cfg s' := by
    refine ⟨⟨fun t let' obj need => ?_,fun t let' stage earlier => ?_,results ▸ here.inv.sound.order,fun ret no => by simp [ended] at no⟩,?_,?_,?_⟩
    · rcases added t let' with old | ⟨known,_⟩
      · exact usable obj (here.inv.sound.ready t old obj need)
      · exact usable obj (here.ready obj (known obj need))
    · rw [results]
      rcases added t let' with old | ⟨_,earliest⟩
      · exact here.inv.sound.prior t old stage earlier
      · rw [here.results]
        exact List.mem_map.mpr ⟨stage,earliest stage earlier,rfl⟩
    · intro n alive
      rw [Records.stored,flags.1]
      exact here.inv.booted n (boot ▸ alive)
    · intro wifi passed
      rw [Records.stored,flags.1]
      exact here.inv.stored wifi (results ▸ passed)
    · intro held obj which
      exact usable obj (here.inv.sent (flags.2 ▸ held) obj which)
  refine ⟨⟨⟨usable,available,by rw [flags.1]; exact fun _ => id,by rw [flags.2]; exact id⟩,fun _ => inv,fun no => absurd rfl no⟩,
    inv,results.trans here.results,ended,fun obj held => ?_,host⟩
  exact (ready obj held).elim (fun old => usable obj (here.ready obj old)) id

def also (objs : Object → Bool) (obj : Object) : Object → Bool := fun other => decide (other = obj) || objs other

theorem usable_iff {b : Books} {obj : Object} (other : obj ≠ .host) :
    b.usable obj ↔ b.tried obj = true ∧ (checked obj = true → b.made obj = true) := by
  cases obj <;> first | exact absurd rfl other | exact Iff.rfl

theorem usable_create {b : Books} {obj : Object} (made : Bool) (known : Object) (held : b.usable known) : (b.create obj made).usable known := by
  by_cases host : known = .host
  · subst host
    exact held
  · rw [usable_iff host] at held ⊢
    by_cases same : known = obj
    · subst same
      simp only [Books.create,Function.update_self,true_and]
      exact fun look => by rw [held.2 look,Bool.true_or]
    · simp only [Books.create,Function.update_of_ne same]
      exact held

theorem create_usable {b : Books} {obj : Object} {made : Bool} (other : obj ≠ .host) (known : checked obj = true → made = true) :
    (b.create obj made).usable obj := by
  rw [usable_iff other]
  simp only [Books.create,Function.update_self,true_and]
  exact fun look => by rw [known look,Bool.or_true]

theorem create_at {obj : Object} {next : Bool → Start α} {post : α → World × Records → Prop} {s : World × Records}
    (here : At u.build before objs attached s) (other : obj ≠ .host)
    (rest : ∀ made s', At u.build before (if checked obj = true → made = true then also objs obj else objs) attached s' →
      wp (contract u .appMain) (next made) post s') :
    wp (contract u .appMain) (.op (.inr (.create obj)) next : Start α) post s := by
  refine asking at_stable here fun s here => ⟨trivial,fun made s' acted => ?_⟩
  obtain ⟨w,d⟩ := s
  obtain ⟨⟨ans,ran⟩,_⟩ := acted
  cases ran
  have boot : ∀ made : Bool, (if made then place obj w else w).bootSem = w.bootSem := by
    intro made
    cases made
    · rfl
    · cases obj <;> rfl
  have moved := noted (if ans.flag then place obj w else w,{d with books := d.books.create obj ans.flag})
    (if checked obj = true → ans.flag = true then also objs obj else objs) attached here (boot _) ⟨rfl,rfl⟩ rfl here.going
    (fun known => usable_create _ known) (fun t => by cases t <;> exact id) (fun t let' => .inl (by cases t <;> exact let'))
    (fun known held => by
      split at held
      · rename_i enough
        rcases Bool.or_eq_true_iff.mp held with new | old
        · cases of_decide_eq_true new
          exact .inr (create_usable other enough)
        · exact .inl old
      · exact .inl held)
    here.host
  exact ⟨moved.1,rest _ _ moved.2⟩

theorem register_at {hook : Hook} {next : Unit → Start α} {post : α → World × Records → Prop} {s : World × Records}
    (here : At u.build before objs attached s)
    (calls : hook = .txCmd → (∀ obj, needs .wifiStack obj = true → objs obj = true) ∧ ∀ stage ∈ prior u.build .wifiStack, stage ∈ before)
    (rest : ∀ s', At u.build before objs (attached ∨ hook = .hciDriver) s' → wp (contract u .appMain) (next ()) post s') :
    wp (contract u .appMain) (.op (.inr (.register hook)) next : Start α) post s := by
  refine asking at_stable here fun s here => ⟨trivial,fun _ s' acted => ?_⟩
  obtain ⟨w,d⟩ := s
  obtain ⟨⟨ans,ran⟩,_⟩ := acted
  cases ran
  have registered : ∀ known, d.books.hooks known = true → Function.update d.books.hooks hook true known = true := by
    intro known held
    by_cases same : known = hook
    · rw [same,Function.update_self]
    · rw [Function.update_of_ne same,held]
  have moved := noted (w,{d with books := {d.books with hooks := Function.update d.books.hooks hook true}})
    objs (attached ∨ hook = .hciDriver) here rfl ⟨rfl,rfl⟩ rfl here.going
    (fun known => by cases known <;> exact id)
    (fun t held => by
      cases t with
      | wifiStack => exact registered _ held
      | btHost =>
          obtain ⟨hook,ended⟩ := Bool.and_eq_true_iff.mp held
          exact Bool.and_eq_true_iff.mpr ⟨registered _ hook,ended⟩
      | _ => exact held)
    (fun t let' => by
      cases t with
      | wifiStack =>
          by_cases same : hook = .txCmd
          · exact .inr (calls same)
          · exact .inl (by simpa only [Books.available,Function.update_of_ne (Ne.symm same)] using let')
      | btHost =>
          have ended := (Bool.and_eq_true_iff.mp let').2
          rw [here.going] at ended
          cases ended
      | _ => exact .inl let')
    (fun _ => .inl)
    (fun held => by
      by_cases same : hook = .hciDriver
      · exact .inr same
      · exact .inl (here.host (by simpa only [Function.update_of_ne (Ne.symm same)] using held)))
  exact ⟨moved.1,rest _ moved.2⟩

theorem taskCreate_at {task : Task} {stack prio core : UInt32} {next : Bool → Start α} {post : α → World × Records → Prop}
    {s : World × Records} (here : At u.build before objs attached s)
    (known : (∀ obj, needs task obj = true → objs obj = true) ∧ ∀ stage ∈ prior u.build task, stage ∈ before)
    (rest : ∀ made s', At u.build before objs attached s' → wp (contract u .appMain) (next made) post s') :
    wp (contract u .appMain) (.op (.inr (.taskCreate task stack prio core)) next : Start α) post s := by
  refine asking at_stable here fun s here => ⟨trivial,fun _ s' acted => ?_⟩
  obtain ⟨w,d⟩ := s
  obtain ⟨⟨ans,ran⟩,_⟩ := acted
  cases ran
  have created : ∀ t, d.books.tasks t = true → Function.update d.books.tasks task (d.books.tasks task || ans.flag) t = true := by
    intro t held
    by_cases same : t = task
    · subst same
      rw [Function.update_self,held,Bool.true_or]
    · rw [Function.update_of_ne same,held]
  have added : ∀ t, Function.update d.books.tasks task (d.books.tasks task || ans.flag) t = true → d.books.tasks t = true ∨ t = task := by
    intro t held
    by_cases same : t = task
    · exact .inr same
    · exact .inl (by rwa [Function.update_of_ne same] at held)
  have moved := noted (w,{d with books := {d.books with tasks := Function.update d.books.tasks task (d.books.tasks task || ans.flag)}})
    objs attached here rfl ⟨rfl,rfl⟩ rfl here.going (fun obj => by cases obj <;> exact id)
    (fun t held => by cases t <;> first | exact created _ held | exact held)
    (fun t let' => by
      cases t with
      | appMain | wifiStack | btHost => exact .inl let'
      | _ =>
          rcases added _ let' with old | rfl
          · exact .inl old
          · exact .inr known)
    (fun _ => .inl) here.host
  exact ⟨moved.1,rest _ _ moved.2⟩

-- The start-up has come to its result.
structure Over (cfg : Build) (ret : EspErr) (s : World × Records) : Prop where
  inv : Inv cfg s
  report : Report (plan cfg) ret s.2.books.results
  host : s.2.books.hooks .hciDriver = true → (∀ obj, needs .btHost obj = true → s.2.books.usable obj) ∧
    ∀ stage ∈ prior cfg .btHost, (stage,EspErr.ok) ∈ s.2.books.results

def Going (cfg : Build) (before : List Stage) (objs : Object → Bool) (attached : Prop) (ret : EspErr) (s : World × Records) : Prop :=
  (ret = .ok ∧ At cfg before objs attached s) ∨ (ret ≠ .ok ∧ Over cfg ret s)

theorem over_stable (s s' : World × Records) (ended : Over cfg ret s) (moved : rely cfg .appMain s s') : Over cfg ret s' := by
  obtain ⟨_,keeps,same⟩ := moved
  have books := same rfl
  exact ⟨keeps ended.inv,books ▸ ended.report,books ▸ ended.host⟩

theorem going_stable (s s' : World × Records) (going : Going cfg before objs attached ret s) (moved : rely cfg .appMain s s') :
    Going cfg before objs attached ret s' :=
  going.imp (fun ⟨ok,here⟩ => ⟨ok,at_stable s s' here moved⟩) fun ⟨failed,ended⟩ => ⟨failed,over_stable s s' ended moved⟩

theorem passed_append (before : List Stage) (stage : Stage) : passed (before ++ [stage]) = passed before ++ [(stage,.ok)] := by
  simp [passed]

theorem usable_append {b : Books} (entry : Stage × EspErr) (obj : Object) (held : b.usable obj) :
    ({b with results := b.results ++ [entry]} : Books).usable obj := by
  cases obj <;> first | exact List.mem_append_left _ held | exact held

-- The result of a stage is noted.
theorem appended {w : World} {d : Records} (entry : Stage × EspErr) (inv : Inv cfg (w,d)) (going : d.books.ended = none)
    (order : Followed (plan cfg) (d.books.results ++ [entry]))
    (stored : cfg.wifi = true → entry = (.bootup,.ok) → d.stored) :
    guar cfg .appMain (w,d) (w,{d with books := {d.books with results := d.books.results ++ [entry]}}) ∧
      Inv cfg (w,{d with books := {d.books with results := d.books.results ++ [entry]}}) := by
  have available : ∀ t, d.books.available t = ({d.books with results := d.books.results ++ [entry]} : Books).available t := by
    intro t
    cases t <;> rfl
  have kept : Inv cfg (w,{d with books := {d.books with results := d.books.results ++ [entry]}}) := by
    refine ⟨⟨fun t held obj need => ?_,fun t held stage earlier => ?_,order,fun ret no => by simp [going] at no⟩,inv.booted,?_,?_⟩
    · exact usable_append entry obj (inv.sound.ready t ((available t).trans held) obj need)
    · exact List.mem_append_left _ (inv.sound.prior t ((available t).trans held) stage earlier)
    · intro wifi member
      rcases List.mem_append.mp member with old | new
      · exact inv.stored wifi old
      · exact stored wifi (List.mem_singleton.mp new).symm
    · exact fun held obj which => usable_append entry obj (inv.sent held obj which)
  exact ⟨⟨⟨usable_append entry,fun t held => (available t).symm.trans held,fun _ => id,id⟩,fun _ => kept,fun no => absurd rfl no⟩,kept⟩

-- What a stage hands over with its result.
def Ran (cfg : Build) (stage : Stage) (before : List Stage) (objs : Object → Bool) (attached : Prop) (ret : EspErr)
    (s : World × Records) : Prop :=
  (ret = .ok ∧ At cfg before objs attached s ∧ (stage = .bootup → cfg.wifi = true → s.2.stored)) ∨
    (ret ≠ .ok ∧ At cfg before (fun _ => false) False s)

theorem ran_stable (s s' : World × Records) (ran : Ran cfg stage before objs attached ret s) (moved : rely cfg .appMain s s') :
    Ran cfg stage before objs attached ret s' := by
  rcases ran with ⟨ok,here,stored⟩ | ⟨failed,here⟩
  · exact .inl ⟨ok,at_stable s s' here moved,fun boot wifi => moved.1.stored (stored boot wifi)⟩
  · exact .inr ⟨failed,at_stable s s' here moved⟩

theorem returned_at {stage : Stage} {ret : EspErr} {next : Unit → Start α} {post : α → World × Records → Prop} {s : World × Records}
    {after : List Stage} (objs' : Object → Bool) (split : plan u.build = before ++ stage :: after)
    (ran : Ran u.build stage before objs attached ret s)
    (more : ∀ obj, objs' obj = true → objs obj = true ∨ (obj = .host ∧ stage = .boot))
    (rest : ∀ s', Going u.build (before ++ [stage]) objs' attached ret s' → wp (contract u .appMain) (next ()) post s') :
    wp (contract u .appMain) (.op (.inr (.returned stage ret)) next : Start α) post s := by
  refine asking ran_stable ran fun s ran => ⟨trivial,fun _ s' acted => ?_⟩
  obtain ⟨w,d⟩ := s
  obtain ⟨⟨ans,done⟩,_⟩ := acted
  cases done
  rcases ran with ⟨rfl,here,stored⟩ | ⟨failed,here⟩
  · have results : d.books.results ++ [(stage,EspErr.ok)] = passed (before ++ [stage]) := by
      rw [passed_append]
      exact congrArg (· ++ _) here.results
    have whole : plan u.build = (before ++ [stage]) ++ after := by rw [split,List.append_assoc]; rfl
    have moved := appended (stage,.ok) here.inv here.going (.inl ⟨_,after,whole,results⟩)
      fun wifi same => stored (congrArg Prod.fst same) wifi
    refine ⟨moved.1,rest _ (.inl ⟨rfl,moved.2,results,here.going,fun obj held => ?_,here.host⟩)⟩
    rcases more obj held with old | ⟨rfl,rfl⟩
    · exact usable_append _ obj (here.ready obj old)
    · exact List.mem_append_right _ (List.mem_singleton_self _)
  · have report : Report (plan u.build) ret (d.books.results ++ [(stage,ret)]) :=
      .inr ⟨failed,before,stage,after,split,congrArg (· ++ _) here.results⟩
    have moved := appended (stage,ret) here.inv here.going (.inr ⟨ret,report⟩)
      fun _ same => absurd (congrArg Prod.snd same) failed
    exact ⟨moved.1,rest _ (.inr ⟨failed,moved.2,report,fun held => (here.host held).elim⟩)⟩

-- The result of `esp_extconn_init`; there is none where the boot never returns.
def Finished (cfg : Build) (point : Point) (s : World × Records) : Prop :=
  Inv cfg s ∧ (point = .finished none ∨ ∃ ret, point = .finished (some ret) ∧ s.2.books.ended = some ret)

theorem finish_at {ret : EspErr} {s : World × Records} (ended : Over u.build ret s) :
    wp (contract u .appMain) (finish (some ret)) (Finished u.build) s := by
  refine asking over_stable ended fun s ended => ⟨trivial,fun _ s' acted => ?_⟩
  obtain ⟨w,d⟩ := s
  obtain ⟨⟨ans,done⟩,_⟩ := acted
  cases done
  have usable : ∀ obj, d.books.usable obj → ({d.books with ended := some ret} : Books).usable obj := fun obj => by cases obj <;> exact id
  have available : ∀ t, ({d.books with ended := some ret} : Books).available t = true → d.books.available t = true ∨
      (t = .btHost ∧ d.books.hooks .hciDriver = true) := by
    intro t held
    cases t with
    | btHost => exact .inr ⟨rfl,(Bool.and_eq_true_iff.mp held).1⟩
    | _ => exact .inl held
  have kept : Inv u.build (w,{d with books := {d.books with ended := some ret}}) := by
    refine ⟨⟨fun t held obj need => usable obj ?_,fun t held => ?_,ended.inv.sound.order,fun other same => ?_⟩,ended.inv.booted,
      ended.inv.stored,fun held obj which => usable obj (ended.inv.sent held obj which)⟩
    · rcases available t held with old | ⟨rfl,hook⟩
      · exact ended.inv.sound.ready t old obj need
      · exact (ended.host hook).1 obj need
    · rcases available t held with old | ⟨rfl,hook⟩
      · exact ended.inv.sound.prior t old
      · exact (ended.host hook).2
    · cases same
      exact ended.report
  refine ⟨⟨⟨usable,fun t held => ?_,fun _ => id,id⟩,fun _ => kept,fun no => absurd rfl no⟩,kept,.inr ⟨ret,rfl,rfl⟩⟩
  cases t with
  | btHost => exact Bool.and_eq_true_iff.mpr ⟨(Bool.and_eq_true_iff.mp held).1,rfl⟩
  | _ => exact held

theorem ran_of {stage : Stage} {ret : EspErr} {s : World × Records} (here : At cfg before objs False s) (other : stage ≠ .bootup) :
    Ran cfg stage before objs False ret s := by
  by_cases ok : ret = .ok
  · exact .inl ⟨ok,here,fun same => absurd same other⟩
  · exact .inr ⟨ok,here.fewer fun _ no => by cases no⟩

-- The stages, each over what those before it have left.
def noObject : Object → Bool := fun _ => false
def withCard : Object → Bool := also noObject .host
def withSip : Object → Bool := also withCard .sip
def withRecv : Object → Bool := also (also withSip .sdioMutex) .recvBuf
def withWifi : Object → Bool := also (also (also withRecv .wifiTx) .listLock) .listEvent
def withBt : Object → Bool := also (also (also withRecv .btTx) .txSem) .txQue

theorem main_recvBuf (o : Op) : ¬ uses .appMain o .recvBuf = true := by
  simp [uses]

theorem cardWork_owned {o : Op} (work : cardWork o = true) : movesBootSem o = false ∧ owned [] noObject o := by
  constructor
  · cases o <;> first | rfl | cases work
  · intro obj used
    refine .inr ⟨?_,rfl⟩
    cases obj with
    | host => rfl
    | recvBuf => exact absurd used (main_recvBuf o)
    | _ => cases o <;> first | (cases used; done) | cases work

theorem unblocked_owned {o : Op} (work : FirmwareDownload.unblocked o = true) : movesBootSem o = false ∧ owned before withSip o := by
  constructor
  · cases o <;> first | rfl | cases work
  · intro obj used
    refine .inl ?_
    cases obj with
    | host | sip => rfl
    | recvBuf => exact absurd used (main_recvBuf o)
    | _ => cases o <;> first | (cases used; done) | cases work

theorem pin_at {o : StartOp} (pin : ∀ ans s, begin o ans s = some (quietAnswer o,s)) :
    KeepsOp (contract u .appMain) (At u.build before objs attached) (.inr o) := by
  intro s here
  refine ⟨trivial,fun r s' acted => ?_⟩
  obtain ⟨⟨ans,ran⟩,_⟩ := acted
  have same : s = s' := congrArg Prod.snd (Option.some.inj ((pin ans s).symm.trans ran))
  subst same
  exact ⟨⟨.refl _,id,fun _ => rfl⟩,here⟩

theorem boot_at {s : World × Records} (here : At u.build [] noObject attached s) :
    wp (contract u .appMain) (Startup.espExtconnBoot u.pins u.sizeofSdmmcCard u.retries) (fun _ => At u.build [] noObject attached) s := by
  have config : ∀ mask, KeepsOp (contract u .appMain) (At u.build [] noObject attached) (.inr (.gpioConfig mask)) := fun _ => pin_at fun _ _ => rfl
  have level : ∀ pin value, KeepsOp (contract u .appMain) (At u.build [] noObject attached) (.inr (.gpioSetLevel pin value)) :=
    fun _ _ => pin_at fun _ _ => rfl
  have wait : ∀ wait, Keeps (contract u .appMain) (At u.build [] noObject attached) (base (issue (.taskDelay wait))) := fun wait s here =>
    base_at (p := issue (.taskDelay wait)) ⟨cardWork_owned rfl,fun _ => trivial⟩ here
  have pins : Keeps (contract u .appMain) (At u.build [] noObject attached) (pinsInit u.pins) := by
    unfold pinsInit
    simp only [Prog.bind_def,Prog.pure_def,ask_bind]
    refine Leads.ite (keeps_pure _) (leads_op at_stable (config _) fun _ => ?_)
    refine Leads.ite (leads_op at_stable (level _ _) fun _ => ?_) ?_
    · exact leads_op at_stable (level _ _) fun _ => keeps_pure _
    · exact leads_op at_stable (level _ _) fun _ => keeps_pure _
  have reset : Keeps (contract u .appMain) (At u.build [] noObject attached) (reset2DlMode u.pins) := by
    unfold reset2DlMode
    simp only [Prog.bind_def,ask_bind]
    exact leads_op at_stable (level _ _) fun _ => (wait 30).bind fun _ => leads_op at_stable (level _ _) fun _ => wait 30
  refine (pins.bind fun _ => reset.bind fun _ s here => ?_ : Keeps _ _ (Startup.espExtconnBoot _ _ _)) s here
  exact base_at ((bootCard_work _ _).mono fun _ => cardWork_owned) here

theorem sipInit_at (stage : Stage) (other : stage ≠ .bootup) {s : World × Records} (here : At u.build before withCard False s) :
    wp (contract u .appMain) Startup.espSipInit (Ran u.build stage before withSip False) s := by
  unfold Startup.espSipInit
  simp only [Prog.bind_def,Prog.pure_def,ask_bind]
  refine create_at here (by decide) fun made s' here => ?_
  cases made with
  | false => exact .inr ⟨by decide,here.fewer fun _ no => by cases no⟩
  | true =>
      refine wp_ite (fun no => absurd rfl no) fun _ => ?_
      have assign : (issue (.sipSet (.state .init))).All fun o => movesBootSem o = false ∧ owned before withSip o :=
        ⟨unblocked_owned rfl,fun _ => trivial⟩
      have there : At u.build before withSip False s' := here
      rw [wp_bind]
      refine wp_mono (base_at assign there) fun _ s' here => ?_
      exact .inl ⟨rfl,here,fun same => absurd same other⟩

theorem download_at {s : World × Records} (here : At u.build before withSip False s) :
    wp (contract u .appMain) (base (espFwDownload u.fw)) (Ran u.build .fwDownload before withSip False) s :=
  wp_mono (base_at ((FirmwareDownload.espFwDownload_ready _).mono fun _ => unblocked_owned) here) fun _ _ here => ran_of here (by decide)

theorem recvInit_at {s : World × Records} (here : At u.build before withSip False s)
    (earlier : ∀ stage ∈ prior u.build .transRecv, stage ∈ before) :
    wp (contract u .appMain) (espExtconnTransRecvInit u.config) (Ran u.build .recvInit before withRecv False) s := by
  unfold espExtconnTransRecvInit
  simp only [Prog.bind_def,Prog.pure_def,ask_bind]
  refine create_at here (by decide) fun mutex s' here => create_at here (by decide) fun made s' here => ?_
  cases made with
  | false => exact .inr ⟨by decide,here.fewer fun _ no => by cases no⟩
  | true =>
      have there : At u.build before withRecv False s' := by
        refine here.fewer fun obj held => ?_
        simpa [withRecv,checked] using held
      refine wp_ite (fun no => absurd rfl no) fun _ => ?_
      refine taskCreate_at there ⟨fun obj need => (by cases obj <;> first | rfl | cases need),earlier⟩ fun created s' there => ?_
      exact ran_of there (by decide)

theorem main_owned {o : Op} (may : mayIssue .appMain o) : owned before withRecv o := by
  intro obj used
  have need := may_needs may used
  cases obj <;> first | exact .inl rfl | cases need

theorem idle_owned {o : Op} (nothing : ∀ obj, uses .appMain o obj = false) : owned before objs o :=
  fun obj used => absurd ((nothing obj).symm.trans used) (by decide)

-- What was waited for has come with the parameters.
theorem take_boot {r : Bool} {wait : Option UInt32} {s s' : World × Records} (inv : Inv u.build s)
    (acted : (contract u .appMain).act (.inl (.semTake .bootSem wait)) s r s') :
    (r = true → s.2.stored) ∧ ∀ n, s'.1.bootSem = .alive (n+1) → s'.2.stored := by
  obtain ⟨⟨ans,ran⟩,same,_⟩ := base_acts acted
  obtain ⟨w,d⟩ := s
  obtain ⟨w',d'⟩ := s'
  have flags : d.stored → d'.stored := by
    intro held
    rw [show d' = _ from same]
    exact observe_stored held
  simp only [World.exec] at ran
  split at ran
  · split at ran
    · cases ran
    · cases ran
      exact ⟨fun no => (by cases no),fun n alive => flags (inv.booted n alive)⟩
  · rename_i n alive
    cases ran
    exact ⟨fun _ => inv.booted n alive,fun _ _ => flags (inv.booted n alive)⟩
  · cases ran
    exact ⟨fun no => (by cases no),fun n alive => flags (inv.booted n alive)⟩

theorem create_boot {s s' : World × Records} (acted : (contract u .appMain).act (.inl .createBootSem) s r s') (n : Nat) :
    s'.1.bootSem ≠ .alive (n+1) := by
  obtain ⟨⟨ans,ran⟩,_⟩ := base_acts acted
  obtain ⟨w',d'⟩ := s'
  cases ran
  cases ans.flag <;> simp

theorem delete_boot {s s' : World × Records} (acted : (contract u .appMain).act (.inl .deleteBootSem) s () s') (n : Nat) :
    s'.1.bootSem ≠ .alive (n+1) := by
  obtain ⟨⟨ans,ran⟩,_⟩ := base_acts acted
  obtain ⟨w',d'⟩ := s'
  simp only [World.exec] at ran
  split at ran
  · cases ran
    exact BootSem.noConfusion
  · rename_i gone
    cases ran
    exact gone _

theorem bootup_at {s : World × Records} (entryAddr : UInt32) (here : At u.build before withRecv False s) :
    wp (contract u .appMain) (base (espSipBootup u.build entryAddr)) (Ran u.build .bootup before withRecv False) s := by
  have send : (espSipSendCmd sipCmdBootup sizeofSipCmdBootup (le32 entryAddr ++ le32 1)).All
      fun o => movesBootSem o = false ∧ owned before withRecv o := by
    have quiet : ∀ o, o.quiet = true → movesBootSem o = false ∧ owned before withRecv o := fun o quiet =>
      ⟨(by cases o <;> first | rfl | cases quiet),main_owned (quiet_may _ o quiet)⟩
    exact sendCmd_all quiet (fun _ _ => ⟨rfl,main_owned (load_may _ _ _)⟩) (fun _ _ => ⟨rfl,main_owned (store_may _ _ _)⟩)
      (fun _ => ⟨rfl,main_owned (.inr trivial)⟩) ⟨rfl,main_owned (.inr trivial)⟩ ⟨rfl,main_owned (.inr trivial)⟩
      (fun _ sent => ⟨rfl,main_owned (.inr sent)⟩) (fun _ _ _ _ => ⟨rfl,main_owned (.inr rfl)⟩) (fun _ => ⟨rfl,main_owned (.inr trivial)⟩) _ _
  have delete : ∀ ret s, Ran u.build .bootup before withRecv False ret s →
      wp (inside u .appMain) (.op .deleteBootSem fun _ => .pure ret : Code EspErr) (Ran u.build .bootup before withRecv False) s := by
    intro ret s ran
    refine asking ran_stable ran fun s ran => ?_
    rcases ran with ⟨ok,here,stored⟩ | ⟨failed,here⟩
    · refine ⟨owned_placed here (idle_owned fun obj => by cases obj <;> rfl),fun r s' acted => ?_⟩
      have moved := at_moves here acted fun n alive => absurd alive (delete_boot acted n)
      exact ⟨moved.1,.inl ⟨ok,moved.2,fun same wifi => moved.1.1.stored (stored same wifi)⟩⟩
    · refine ⟨owned_placed here (idle_owned fun obj => by cases obj <;> rfl),fun r s' acted => ?_⟩
      have moved := at_moves here acted fun n alive => absurd alive (delete_boot acted n)
      exact ⟨moved.1,.inr ⟨failed,moved.2⟩⟩
  have late : ∀ s, At u.build before withRecv False s → Ran u.build .bootup before withRecv False .timeout s := fun s here =>
    .inr ⟨by decide,here.fewer fun _ no => by cases no⟩
  have wait : ∀ sent s, At u.build before withRecv False s →
      wp (inside u .appMain) (bootupWait u.build sent) (Ran u.build .bootup before withRecv False) s := by
    intro sent s here
    unfold bootupWait
    simp only [Prog.bind_def,Prog.pure_def,issue_bind]
    refine wp_ite (fun _ => ?_) fun _ => .inr ⟨by decide,here.fewer fun _ no => by cases no⟩
    refine asking at_stable here fun s here => ?_
    refine ⟨owned_placed here (main_owned (.inr rfl)),fun r s' acted => ?_⟩
    have moved := at_moves here acted (plain_booted acted here.inv rfl)
    refine ⟨moved.1,asking at_stable moved.2 fun s here => ?_⟩
    refine ⟨owned_placed here (idle_owned fun obj => by cases obj <;> rfl),fun r s' acted => ?_⟩
    have moved := at_moves here acted fun n alive => absurd alive (create_boot acted n)
    refine ⟨moved.1,wp_ite (fun _ => ?_) fun off => .inl ⟨rfl,moved.2,fun _ wifi => absurd wifi off⟩⟩
    refine asking at_stable moved.2 fun s here => ?_
    refine ⟨owned_placed here (idle_owned fun obj => by cases obj <;> rfl),fun taken s' acted => ?_⟩
    have took := take_boot here.inv acted
    have moved := at_moves here acted took.2
    refine ⟨moved.1,?_⟩
    cases taken with
    | true => exact .inl ⟨rfl,moved.2,fun _ _ => moved.1.1.stored (took.1 rfl)⟩
    | false => exact late _ moved.2
  refine wp_inner.mpr ?_
  unfold espSipBootup
  simp only [Prog.bind_def,Prog.pure_def,issue_bind,wp_bind]
  refine wp_mono ((send.mono fun _ known => owned_keeps known.1 known.2).keeps at_stable s here) fun sent s here => ?_
  rw [wp_bind]
  exact wp_mono (wait sent s here) delete

theorem wifiInit_at {s : World × Records} (here : At u.build before withRecv False s)
    (earlier : ∀ t, letIn t = .wifiInit → ∀ stage ∈ prior u.build t, stage ∈ before) :
    wp (contract u .appMain) (espExtconnTransWifiInit u.config) (Ran u.build .wifiInit before withRecv False) s := by
  have failed : ∀ {objs s}, At u.build before objs False s → Ran u.build .wifiInit before withRecv False .noMem s := fun here =>
    .inr ⟨by decide,here.fewer fun _ no => by cases no⟩
  unfold espExtconnTransWifiInit
  simp only [Prog.bind_def,Prog.pure_def,ask_bind]
  refine create_at here (by decide) fun made s here => ?_
  cases made with
  | false => exact failed here
  | true =>
      refine wp_ite (fun no => absurd rfl no) fun _ => create_at here (by decide) fun made s here => ?_
      cases made with
      | false => exact failed here
      | true =>
          refine wp_ite (fun no => absurd rfl no) fun _ => create_at here (by decide) fun made s here => ?_
          cases made with
          | false => exact failed here
          | true =>
              have there : At u.build before withWifi False s := here
              refine wp_ite (fun no => absurd rfl no) fun _ => ?_
              refine register_at there (fun _ => ⟨fun obj need => (by cases obj <;> first | rfl | cases need),earlier .wifiStack rfl⟩) fun s there => ?_
              refine register_at there (fun no => by cases no) fun s there => register_at there (fun no => by cases no) fun s there => ?_
              have there : At u.build before withWifi False s := {there with host := fun held => by simpa using there.host held}
              refine taskCreate_at there ⟨fun obj need => (by cases obj <;> first | rfl | cases need),earlier .wifiSend rfl⟩ fun created s there => ?_
              exact ran_of (there.fewer fun obj held => by simp [withWifi,also,held]) (by decide)

theorem btInit_at {s : World × Records} (here : At u.build before withRecv False s)
    (earlier : ∀ t, letIn t = .btInit → ∀ stage ∈ prior u.build t, stage ∈ before) :
    wp (contract u .appMain) (espExtconnTransBtInit u.config) (Ran u.build .btInit before withBt True) s := by
  unfold espExtconnTransBtInit btStartUp
  simp only [Prog.bind_def,Prog.pure_def,ask_bind,Prog.op_bind,Prog.pure_bind]
  refine create_at here (by decide) fun _ s here => register_at here (fun no => by cases no) fun s here => ?_
  refine create_at here (by decide) fun _ s here => create_at here (by decide) fun _ s here => ?_
  have there : At u.build before withBt True s := {here with host := fun _ => trivial,ready := fun obj held => here.ready obj (by simpa [withBt,checked] using held)}
  refine taskCreate_at there ⟨fun obj need => (by cases obj <;> first | rfl | cases need),earlier .btTx rfl⟩ fun created s there => ?_
  exact .inl ⟨rfl,there,fun no => by cases no⟩

theorem delay_going {ret : EspErr} {wait : Delay} :
    Keeps (contract u .appMain) (Going u.build before objs attached ret) (base (issue (.taskDelay wait))) := by
  refine fun s going => asking going_stable going fun s going => ?_
  have idle : ∀ obj, uses .appMain (.taskDelay wait) obj = false := fun obj => by cases obj <;> rfl
  refine ⟨⟨fun no => absurd rfl no,fun obj used => absurd ((idle obj).symm.trans used) (by decide)⟩,fun r s' acted => ?_⟩
  rcases going with ⟨ok,here⟩ | ⟨failed,ended⟩
  · have moved := at_moves here acted (plain_booted acted here.inv rfl)
    exact ⟨moved.1,.inl ⟨ok,moved.2⟩⟩
  · obtain ⟨promise,inv,books⟩ := base_keeps acted ended.inv (plain_booted acted ended.inv rfl) (fun no => by cases no)
    exact ⟨promise,.inr ⟨failed,inv,books ▸ ended.report,books ▸ ended.host⟩⟩

theorem staged_at {stage : Stage} {p : Start EspErr} {s : World × Records} {k : EspErr → Start α}
    {post : α → World × Records → Prop} {objs' : Object → Bool} {after : List Stage} {later : Prop}
    (split : plan u.build = before ++ stage :: after)
    (body : wp (contract u .appMain) p (Ran u.build stage before objs' later) s)
    (rest : ∀ ret s, Going u.build (before ++ [stage]) objs' later ret s → wp (contract u .appMain) (k ret) post s) :
    wp (contract u .appMain) ((staged stage p).bind k) post s := by
  unfold staged
  simp only [Prog.bind_def,Prog.bind_assoc,wp_bind]
  refine wp_mono body fun ret s ran => ?_
  simp only [ask_bind,Prog.pure_def,Prog.pure_bind]
  exact returned_at _ split ran (fun _ => .inl) (rest ret)

-- One stage after another, as long as they succeed.
theorem next_at {stage : Stage} {p : Start EspErr} {ret : EspErr} {s : World × Records} {k : EspErr → Start α}
    {post : α → World × Records → Prop} {objs' : Object → Bool} {after : List Stage} {later : Prop}
    (split : plan u.build = before ++ stage :: after) (going : Going u.build before objs attached ret s)
    (body : ∀ s, At u.build before objs attached s → wp (contract u .appMain) p (Ran u.build stage before objs' later) s)
    (rest : ∀ ret s, Going u.build (before ++ [stage]) objs' later ret s → wp (contract u .appMain) (k ret) post s) :
    wp (contract u .appMain) (if ret = .ok then (staged stage p).bind k else (Prog.pure ret).bind k) post s := by
  rcases going with ⟨rfl,here⟩ | ⟨failed,ended⟩
  · rw [if_pos rfl]
    exact staged_at split (body s here) rest
  · rw [if_neg failed]
    exact rest ret s (.inr ⟨failed,ended⟩)

theorem prior_recv (cfg : Build) : ∀ stage ∈ prior cfg .transRecv, stage ∈ [Stage.boot,.sipInit,.fwDownload] := by
  rcases cfg with ⟨_ | _,_ | _⟩ <;> decide

theorem prior_wifi {cfg : Build} {t : Task} (wifi : cfg.wifi = true) (late : letIn t = .wifiInit) :
    ∀ stage ∈ prior cfg t, stage ∈ core := by
  unfold prior
  rw [late]
  rcases cfg with ⟨_ | _,_ | _⟩ <;> first | (cases wifi; done) | decide

def front (cfg : Build) : List Stage := core ++ if cfg.wifi then [.wifiInit] else []

theorem prior_bt {cfg : Build} {t : Task} (late : letIn t = .btInit) : ∀ stage ∈ prior cfg t, stage ∈ front cfg := by
  unfold prior
  rw [late]
  rcases cfg with ⟨_ | _,_ | _⟩ <;> decide

theorem fwInit_at {s : World × Records} (here : At u.build [.boot] withCard False s) :
    wp (contract u .appMain) (espExtconnFwInit u.build u.fw u.config) (Going u.build core withRecv False) s := by
  unfold espExtconnFwInit
  simp only [Prog.bind_def,Prog.pure_def]
  refine staged_at rfl (sipInit_at .sipInit (by decide) here) fun ret s going => ?_
  refine next_at rfl going (fun s here => download_at here) fun ret s going => ?_
  refine next_at rfl going (fun s here => recvInit_at here (prior_recv u.build)) fun ret s going => ?_
  rcases going with ⟨rfl,here⟩ | ⟨failed,ended⟩
  · rw [if_pos rfl,wp_bind]
    have entry : (load32 (u.fw.add 4)).All fun o => movesBootSem o = false ∧ owned [.boot,.sipInit,.fwDownload,.recvInit] withRecv o :=
      ⟨⟨rfl,main_owned (load_may _ _ _)⟩,fun _ => trivial⟩
    refine wp_mono (base_at entry here) fun entryAddr s here => ?_
    rw [← Prog.bind_pure (staged _ _)]
    exact staged_at rfl (bootup_at entryAddr here) fun ret s going => going
  · rw [if_neg failed]
    exact .inr ⟨failed,ended⟩

-- `esp_extconn_init` behind its Wi-Fi part.
def btPart (u : Setup) (ret : EspErr) : Start (Option EspErr) :=
  if u.build.bt ∧ ret = .ok then (staged .btInit (espExtconnTransBtInit u.config)).bind fun ret => .pure (some ret)
  else (Prog.pure ret).bind fun ret => .pure (some ret)

theorem btPart_at {ret : EspErr} {s : World × Records} (going : Going u.build (front u.build) withRecv False ret s) :
    wp (contract u .appMain) (btPart u ret) (fun ret s => wp (contract u .appMain) (finish ret) (Finished u.build) s) s := by
  unfold btPart
  by_cases bt : u.build.bt = true
  · have split : plan u.build = front u.build ++ .btInit :: [] := by simp only [plan,front,bt,if_true]
    simp only [bt,true_and]
    refine next_at split going (fun s here => btInit_at here fun t late => prior_bt late) fun ret s going => finish_at ?_
    rcases going with ⟨rfl,here⟩ | ⟨failed,ended⟩
    · have whole : s.2.books.results = passed (plan u.build) := by rw [split]; exact here.results
      refine ⟨here.inv,.inl ⟨rfl,whole⟩,fun _ => ⟨fun obj need => here.ready obj (by cases obj <;> first | rfl | cases need),fun stage earlier => ?_⟩⟩
      rw [here.results]
      exact List.mem_map.mpr ⟨stage,List.mem_append_left _ (prior_bt rfl stage earlier),rfl⟩
    · exact ended
  · rw [if_neg fun both => bt both.1]
    refine finish_at ?_
    rcases going with ⟨rfl,here⟩ | ⟨failed,ended⟩
    · have whole : plan u.build = front u.build := by simp [plan,front,bt]
      exact ⟨here.inv,.inl ⟨rfl,whole ▸ here.results⟩,fun held => (here.host held).elim⟩
    · exact ended

def wifiPart (u : Setup) (ret : EspErr) : Start (Option EspErr) :=
  if u.build.wifi ∧ ret = .ok then (staged .wifiInit (espExtconnTransWifiInit u.config)).bind fun ret =>
    if u.build.bt then (base (issue (.taskDelay (.ticks 100)))).bind fun _ => btPart u ret else btPart u ret
  else (Prog.pure ret).bind fun ret => if u.build.bt then (base (issue (.taskDelay (.ticks 100)))).bind fun _ => btPart u ret else btPart u ret

theorem wifiPart_at {ret : EspErr} {s : World × Records} (going : Going u.build core withRecv False ret s) :
    wp (contract u .appMain) (wifiPart u ret) (fun ret s => wp (contract u .appMain) (finish ret) (Finished u.build) s) s := by
  have last : ∀ ret s, Going u.build (front u.build) withRecv False ret s → wp (contract u .appMain)
      (if u.build.bt then (base (issue (.taskDelay (.ticks 100)))).bind fun _ => btPart u ret else btPart u ret)
      (fun ret s => wp (contract u .appMain) (finish ret) (Finished u.build) s) s := by
    intro ret s going
    refine wp_ite (fun _ => ?_) fun _ => btPart_at going
    rw [wp_bind]
    exact wp_mono (delay_going s going) fun _ s going => btPart_at going
  unfold wifiPart
  by_cases wifi : u.build.wifi = true
  · have split : ∃ after, plan u.build = core ++ .wifiInit :: after := by simp only [plan,wifi,if_true]; exact ⟨_,List.append_assoc _ _ _⟩
    obtain ⟨after,split⟩ := split
    have all : front u.build = core ++ [.wifiInit] := by simp only [front,wifi,if_true]
    simp only [wifi,true_and]
    exact next_at split going (fun s here => wifiInit_at here fun t late => prior_wifi wifi late) fun ret s going => last ret s (all ▸ going)
  · have all : front u.build = core := by simp [front,wifi]
    rw [if_neg fun both => wifi both.1]
    exact last ret s (all ▸ going)

theorem init_at {s : World × Records} (here : At u.build [] noObject False s) :
    wp (contract u .appMain) (u.code .init) (Finished u.build) s := by
  have shape : u.code .init = ((Startup.espExtconnBoot u.pins u.sizeofSdmmcCard u.retries).bind fun
      | some ret => .op (.inr (.returned .boot ret)) fun _ =>
          if ret = .ok then (espExtconnFwInit u.build u.fw u.config).bind (wifiPart u) else (Prog.pure ret).bind (wifiPart u)
      | none => .pure none).bind finish := by
    refine congrArg (Prog.bind · finish) (congrArg (Prog.bind _) (funext fun ret => ?_))
    cases ret <;> rfl
  rw [shape,wp_bind,wp_bind]
  refine wp_mono (boot_at here) fun ret s here => ?_
  cases ret with
  | none => exact ⟨here.inv,.inl rfl⟩
  | some ret =>
      refine returned_at withCard rfl (ran_of here (by decide)) (fun obj held => ?_) fun s going => ?_
      · exact .inr ⟨by simpa [withCard,also,noObject] using held,rfl⟩
      · rcases going with ⟨rfl,here⟩ | ⟨failed,ended⟩
        · rw [if_pos rfl,wp_bind]
          exact wp_mono (fwInit_at here) fun ret s going => wifiPart_at going
        · rw [if_neg failed]
          exact wifiPart_at (.inr ⟨failed,ended⟩)

end Main

def entry (u : Setup) (t : Task) : Point → World × Records → Prop
  | .init,s => t = .appMain ∧ At u.build [] noObject False s
  | .waiting task,s => t = task ∧ t ≠ .appMain ∧ Inv u.build s
  | .running l,s => t ≠ .appMain ∧ labelsOf t l ∧ Live u.build t s
  | .finished ret,s => t = .appMain ∧ Finished u.build (.finished ret) s

theorem started_at {u : Setup} {t : Task} {s : World × Records} (other : t ≠ .appMain) (inv : Inv u.build s) :
    wp (contract u t) (u.code (.waiting t)) (entry u t) s := by
  refine asking (A := Inv u.build) (fun _ _ inv moved => moved.2.1 inv) inv fun s inv => ⟨trivial,fun _ s' acted => ?_⟩
  obtain ⟨w,d⟩ := s
  obtain ⟨⟨ans,done⟩,_⟩ := acted
  simp only [perform,begin] at done
  split at done
  · rename_i letIn
    cases done
    refine ⟨⟨.refl _,id,fun _ => rfl⟩,other,?_,inv,letIn⟩
    cases t <;> trivial
  · cases done

def outline (u : Setup) : Outline ((starts u).when acked) where
  rely := rely u.build
  guar := guar u.build
  safe := safe
  entry := entry u
  transitive := rely_trans
  compatible := guar_rely
  surroundings moved := moved ▸ rely_refl _ _ _
  stable {t l a b} here moved := by
    cases l with
    | init =>
        obtain ⟨rfl,here⟩ := here
        exact ⟨rfl,at_stable a b here moved⟩
    | waiting task => exact ⟨here.1,here.2.1,moved.2.1 here.2.2⟩
    | running l => exact ⟨here.1,here.2.1,live_stable a b here.2.2 moved⟩
    | finished ret =>
        obtain ⟨rfl,inv,done⟩ := here
        refine ⟨rfl,moved.2.1 inv,done.imp id fun ⟨ret,same,ended⟩ => ⟨ret,same,?_⟩⟩
        rw [moved.2.2 rfl]
        exact ended
  verified t l s here := by
    cases l with
    | init =>
        obtain ⟨rfl,here⟩ := here
        refine wp_mono (init_at here) fun point s done => ?_
        rcases done.2 with rfl | ⟨ret,rfl,_⟩
        · exact ⟨rfl,done⟩
        · exact ⟨rfl,done⟩
    | waiting task =>
        obtain ⟨rfl,other,inv⟩ := here
        exact started_at other inv
    | running l =>
        obtain ⟨other,known,live⟩ := here
        show wp (contract u t) ((base (block u.build l)).bind fun l => .pure (.running l)) (entry u t) s
        rw [wp_bind]
        refine wp_inner.mpr ?_
        exact wp_mono (wp_returns (block_returns u.build known) (running_keeps other known s live)) fun l s both => ⟨other,both⟩
    | finished ret => exact here

-- A reading of the machine by answers, and a start with both links in which the
-- slave boots at the first attempt.
def attempt (t : Task) (o : (both signature starting).Op) (ans : Ans) (s : World × Records) :
    Option ((both signature starting).Answer o × World × Records) :=
  (perform t o ans s).filter fun result => !acknowledges o result.1 || s.2.sent

theorem attempt_sound (u : Setup) (t : Task) (o : (both signature starting).Op) (ans : Ans) (s : World × Records)
    (r : (both signature starting).Answer o) (s' : World × Records) (ran : attempt t o ans s = some (r,s')) :
    ((starts u).when acked).act t o s r s' := by
  obtain ⟨performed,passed⟩ := Option.filter_eq_some_iff.mp ran
  refine ⟨⟨ans,performed⟩,fun acknowledged => ?_⟩
  simpa [acknowledged] using passed

def bothLinks : Setup := ⟨⟨true,true⟩,⟨-1,true,gpioNumNc⟩,128,1,⟨99,0⟩,espExtconnConfigDefault none none⟩

def poweredOn : World := {World.initial espSipInit with mem := fun blk i => if blk = 99 ∧ i = 0 then firmwareMagicHeader else 0}

def zeros : Ans := {data := [0,0,0,0]}

def bootupPacket : List UInt8 := [0,1,28,0,0,0,0,0,0,0,0,0,4,0,1,2,3,4,5,6,0,0,0,0,0,0,0,0]

def bootupEvent : List Ans :=
  List.replicate 5 zeros ++ {data := [0,0,0x80,0]} :: (List.replicate 4 zeros ++ {data := [28,0,0,0]} :: zeros ::
    {data := bootupPacket} :: List.replicate 17 zeros)

def startChoices : List (Task × Ans) :=
  List.replicate 122 (.appMain,zeros) ++ bootupEvent.map (Prod.mk .transRecv) ++ List.replicate 19 (.appMain,zeros) ++
    List.replicate 3 (.wifiSend,zeros) ++ List.replicate 3 (.btTx,zeros)

theorem start_run : ∃ c, Reached ((starts bothLinks).when acked) (initially poweredOn) c ∧
    decide (c.pending .btTx = some (.inl (.semTake .txSem none)) ∧ c.pending .wifiSend = some (.inl (.malloc wifiSendBufferLen)) ∧
      c.resting .appMain = some (.finished (some .ok))) = true := by
  have ran : (schedule bothLinks.code attempt startChoices (initially poweredOn)).any (fun c =>
      decide (c.pending .btTx = some (.inl (.semTake .txSem none)) ∧ c.pending .wifiSend = some (.inl (.malloc wifiSendBufferLen)) ∧
        c.resting .appMain = some (.finished (some .ok)))) = true := by decide +kernel
  exact schedule_exists (m := (starts bothLinks).when acked) (attempt_sound bothLinks) _ ran

section Reached
variable {u : Setup} {w : World} {c : Config (both signature starting) Task Point (World × Records)}

theorem start_holds (null : w.bootSem = .null) : (outline u).Holds (initially w) := by
  have inv : Inv u.build (w,nothing) := by
    refine ⟨⟨fun t held => ?_,fun t held => ?_,.inl ⟨[],_,rfl,rfl⟩,fun _ no => by cases no⟩,fun n alive => ?_,fun _ no => ?_,fun no => by cases no⟩
    · cases t <;> cases held
    · cases t <;> cases held
    · rw [null] at alive
      cases alive
    · cases no
  intro t
  by_cases main : t = .appMain
  · subst main
    exact ⟨rfl,inv,rfl,rfl,fun _ no => (by cases no),fun no => (by cases no)⟩
  · have here : (initially w).running t = .pure (.waiting t) := by simp only [initially,if_neg main]
    rw [here]
    exact ⟨rfl,main,inv⟩

theorem reached_inv (null : w.bootSem = .null) (reached : Reached ((starts u).when acked) (initially w) c) : Inv u.build c.shared := by
  have main : At u.build [] noObject False (w,nothing) := ((start_holds null : (outline u).Holds (initially w)) .appMain).2
  refine (outline u).reached_keeps (rely_refl _) (fun _ _ _ inv moved => moved.2.1 inv) (fun _ _ inv same => ?_) (start_holds null) main.inv reached
  rw [show _ = _ from same]
  exact inv

theorem reached_placed (null : w.bootSem = .null) (reached : Reached ((starts u).when acked) (initially w) c) {t : Task} {o : Op}
    (pending : c.pending t = some (.inl o)) : placed t o c.shared.2.books :=
  ((outline u).reached_holds (rely_refl _) (start_holds null) reached).safe (rely_refl _) pending

-- Whatever runs beside whatever else: nothing is used before the start-up has
-- created it, or tried to where it does not look.
theorem objects_before_use (null : w.bootSem = .null) (reached : Reached ((starts u).when acked) (initially w) c) {t : Task} {o : Op}
    (pending : c.pending t = some (.inl o)) {obj : Object} (used : uses t o obj = true) :
    c.shared.2.books.usable obj ∨ booting t obj c.shared.2.books.results :=
  (reached_placed null reached pending).2 obj used

theorem lock_created : ∃ c, Reached ((starts bothLinks).when acked) (initially poweredOn) c ∧
    (c.shared.2.books.usable .txSem ∨ booting .btTx .txSem c.shared.2.books.results) := by
  obtain ⟨c,reached,test⟩ := start_run
  exact ⟨c,reached,objects_before_use rfl reached (of_decide_eq_true test).1 rfl⟩

theorem bootup_prior {cfg : Build} {t : Task} (other : t ≠ .appMain) (late : t ≠ .transRecv) : Stage.bootup ∈ prior cfg t := by
  rcases cfg with ⟨_ | _,_ | _⟩ <;> cases t <;> first | exact absurd rfl other | exact absurd rfl late | decide

-- A task acts only once every stage before its own has succeeded. With Wi-Fi the
-- slave has then told the parameters of the link.
theorem tasks_after_stages (null : w.bootSem = .null) (reached : Reached ((starts u).when acked) (initially w) c) {t : Task} {o : Op}
    (pending : c.pending t = some (.inl o)) (other : t ≠ .appMain) :
    (∀ stage ∈ prior u.build t, (stage,EspErr.ok) ∈ c.shared.2.books.results) ∧
      (u.build.wifi = true → t ≠ .transRecv → c.shared.2.stored) := by
  have inv := reached_inv null reached
  have earlier := inv.sound.prior t ((reached_placed null reached pending).1 other)
  exact ⟨earlier,fun wifi late => inv.stored wifi (earlier .bootup (bootup_prior other late))⟩

theorem sender_after_stages : ∃ c, Reached ((starts bothLinks).when acked) (initially poweredOn) c ∧
    (∀ stage ∈ prior bothLinks.build .wifiSend, (stage,EspErr.ok) ∈ c.shared.2.books.results) ∧ c.shared.2.stored := by
  obtain ⟨c,reached,test⟩ := start_run
  have after := tasks_after_stages rfl reached (of_decide_eq_true test).2.1 (by decide)
  exact ⟨c,reached,after.1,after.2 rfl (by decide)⟩

-- The stages come in their order, nothing comes behind one that has failed, and
-- `esp_extconn_init` returns what the last one did.
theorem stages_in_order (null : w.bootSem = .null) (reached : Reached ((starts u).when acked) (initially w) c) :
    Followed (plan u.build) c.shared.2.books.results ∧
      ∀ ret, c.running .appMain = .pure (.finished (some ret)) → Report (plan u.build) ret c.shared.2.books.results := by
  have inv := reached_inv null reached
  refine ⟨inv.sound.order,fun ret here => ?_⟩
  obtain ⟨_,_,done⟩ := ((outline u).reached_holds (rely_refl _) (start_holds null) reached).entry here
  rcases done with no | ⟨ret',same,ended⟩
  · cases no
  · cases same
    exact inv.sound.report ret ended

theorem both_in_order : ∃ c, Reached ((starts bothLinks).when acked) (initially poweredOn) c ∧
    Followed (plan bothLinks.build) c.shared.2.books.results ∧ Report (plan bothLinks.build) .ok c.shared.2.books.results := by
  obtain ⟨c,reached,test⟩ := start_run
  have ordered := stages_in_order rfl reached
  exact ⟨c,reached,ordered.1,ordered.2 .ok (resting_iff.mp (of_decide_eq_true test).2.2)⟩

end Reached

end ExtConn.StartStages
