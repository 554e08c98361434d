import ExtConn.System

namespace ExtConn.BootSemaphore
open Effects ByteMemory Interleaving

-- Where the receive task is in an event: `parsing` until it has loaded the
-- header, `handling` from there to the give if the event is `SIP_EVT_BOOTUP`.
structure Watch where
  parsing : Bool
  handling : Bool
  deriving DecidableEq

def evtOf (w : World) (p : Ptr) (n : Nat) : UInt8 := (sipHdrOf (w.mem.read p n)).fc1

-- Nothing is known about the slave.
def watchSlave : Slave Watch where
  answers t w o _ d := match t,o with
    | .transRecv,.note (.parseEvents _) => some {d with parsing := true}
    | .transRecv,.load p n => if d.parsing = true then some ⟨false,decide (evtOf w p n = sipEvtBootup)⟩ else some d
    | .transRecv,.semGive .bootSem => some {d with handling := false}
    | _,_ => some d
  moves d d' := d' = d

abbrev State := World × Watch

def Alive (s : State) : Prop := ∃ n, s.1.bootSem = .alive n

def usesBootSem : Op → Bool
  | .semGive .bootSem | .deleteBootSem => true
  | _ => false

-- The boot semaphore exists wherever it is about to be given or deleted.
def Live (c : Config signature Task Label State) : Prop :=
  ∀ t o, c.pending t = some o → usesBootSem o = true → Alive c.shared

-- The command goes out and the semaphore is created, an event `SIP_EVT_BOOTUP` is begun only while the
-- semaphore exists, and it has been handled before the boot task goes on to
-- delete the semaphore.
def timely (t : Task) (o : Op) (s : State) (r : o.Answer) : Prop :=
  match t,o,r with
  | .appMain,.calloc _,r => r ≠ none
  | .appMain,.sdmmcIoWrite _ _ _ _ _,r => r = EspErr.ok
  | .appMain,.createBootSem,r => r = true
  | .appMain,.deleteBootSem,_ => s.2.handling = false
  | .transRecv,.load p n,_ => s.2.parsing = true → evtOf s.1 p n = sipEvtBootup → Alive s
  | _,_,_ => True

def liveSafe (o : Op) (s : State) : Prop := usesBootSem o = true → Alive s

-- What the boot task, the receive task and the others do to all this.
structure Booting (s s' : State) : Prop where
  watch : s'.2 = s.2
  alive : s.2.handling = true → Alive s → Alive s'

structure Aside (s s' : State) : Prop where
  watch : s'.2 = s.2
  bootSem : s'.1.bootSem = s.1.bootSem

theorem Aside.alive {s s' : State} (aside : Aside s s') (alive : Alive s) : Alive s' := by
  unfold Alive
  rw [aside.bootSem]
  exact alive

theorem Aside.booting {s s' : State} (aside : Aside s s') : Booting s s' := ⟨aside.watch,fun _ => aside.alive⟩

-- Operations that leave the semaphore and the watch alone, whoever issues them.
def unnoticed : Op → Bool
  | .note _ | .load _ _ | .createBootSem => false
  | o => !movesBootSem o

theorem unnoticed_act {t : Task} {o : Op} {r : o.Answer} {s s' : State} (calm : unnoticed o = true)
    (acted : watchSlave.act t o s r s') : Aside s s' := by
  obtain ⟨ans,ran,answered⟩ := act_iff.mp acted
  have frame := exec_frame ran
  have still : movesBootSem o = false := by
    cases o
    case note => cases calm
    case load => cases calm
    case createBootSem => cases calm
    all_goals simpa [unnoticed] using calm
  refine ⟨?_,frame.bootSem still⟩
  cases o
  case note => cases calm
  case load => cases calm
  case createBootSem => cases calm
  case semGive sem => cases sem <;> cases t <;> first | exact (Option.some.inj answered).symm | cases calm
  all_goals cases t <;> exact (Option.some.inj answered).symm

-- Outside the receive task notes and loads are not watched either.
theorem aside_act {t : Task} {o : Op} {r : o.Answer} {s s' : State} (other : t ≠ .transRecv)
    (calm : movesBootSem o = false) (acted : watchSlave.act t o s r s') : Aside s s' := by
  obtain ⟨ans,ran,answered⟩ := act_iff.mp acted
  refine ⟨?_,(exec_frame ran).bootSem calm⟩
  cases t
  case transRecv => exact absurd rfl other
  all_goals
    cases o
    case createBootSem => cases calm
    all_goals exact (Option.some.inj answered).symm

theorem calm_safe {o : Op} (calm : movesBootSem o = false) (s : State) : liveSafe o s := by
  intro uses
  cases o
  case semGive sem => cases sem <;> first | (cases uses; done) | cases calm
  all_goals first | (cases uses; done) | cases calm

-- The boot task.
def bootContract : Contract signature State where
  act o s r s' := watchSlave.act .appMain o s r s' ∧ timely .appMain o s r
  rely s s' := Alive s → Alive s'
  guar := Booting
  safe := liveSafe

theorem boot_calm {o : Op} (calm : movesBootSem o = false) {keep : State → Prop}
    (stable : ∀ s s', keep s → Aside s s' → keep s') : KeepsOp bootContract keep o := by
  intro s held
  refine ⟨calm_safe calm s,fun r s' acted => ?_⟩
  have aside := aside_act (by decide) calm acted.1
  exact ⟨aside.booting,stable s s' held aside⟩

theorem sendCmd_succeeds (entryAddr : UInt32) :
    Keeps bootContract (fun _ => True) (espSipSendCmd sipCmdBootup sizeofSipCmdBootup (le32 entryAddr ++ le32 1)) := by
  refine Prog.All.keeps ?_ fun _ _ _ _ => trivial
  have calm : ∀ o, movesBootSem o = false → KeepsOp bootContract (fun _ => True) o :=
    fun o calm => boot_calm calm fun _ _ _ _ => trivial
  have quiet : ∀ o : Op, o.quiet = true → movesBootSem o = false := by
    intro o quiet
    cases o <;> first | rfl | cases quiet
  exact sendCmd_all (fun o still => calm o (quiet o still)) (fun _ _ => calm _ rfl) (fun _ _ => calm _ rfl)
    (fun _ => calm _ rfl) (calm _ rfl) (calm _ rfl) (fun _ _ => calm _ rfl) (fun _ _ _ _ => calm _ rfl) (fun _ => calm _ rfl) _ _

theorem created : LeadsOp bootContract (fun _ => True) Alive .createBootSem := by
  intro s _
  refine ⟨nofun,fun r s' acted => ?_⟩
  obtain ⟨ans,ran,answered⟩ := act_iff.mp acted.1
  have success : r = true := acted.2
  simp only [World.exec,Option.some.injEq,Prod.mk.injEq] at ran
  have alive : Alive s' := ⟨0,by rw [← ran.2,ran.1,success]; rfl⟩
  exact ⟨⟨(Option.some.inj answered).symm,fun _ _ => alive⟩,alive⟩

theorem awaited : KeepsOp bootContract Alive (.semTake .bootSem wait) := by
  intro s alive
  refine ⟨nofun,fun r s' acted => ?_⟩
  obtain ⟨ans,ran,answered⟩ := act_iff.mp acted.1
  have still : Alive s' := by
    obtain ⟨n,count⟩ := alive
    simp only [World.exec,count] at ran
    cases n with
    | zero =>
        simp only at ran
        split at ran
        · cases ran
        · exact ⟨0,by rw [← show s.1 = s'.1 from congrArg Prod.snd (Option.some.inj ran)]; exact count⟩
    | succ n => exact ⟨n,by rw [← show _ = s'.1 from congrArg Prod.snd (Option.some.inj ran)]⟩
  exact ⟨⟨(Option.some.inj answered).symm,fun _ _ => still⟩,still⟩

theorem deleted : LeadsOp bootContract Alive (fun _ => True) .deleteBootSem := by
  intro s alive
  refine ⟨fun _ => alive,fun r s' acted => ⟨?_,trivial⟩⟩
  obtain ⟨ans,ran,answered⟩ := act_iff.mp acted.1
  refine ⟨(Option.some.inj answered).symm,fun handling => ?_⟩
  rw [show s.2.handling = false from acted.2] at handling
  cases handling

theorem bootupWait_leads (cfg : Build) : Leads bootContract (fun _ => True) Alive (bootupWait cfg .ok) := by
  unfold bootupWait
  rw [if_pos rfl]
  refine leads_op (fun _ _ _ _ => trivial) (boot_calm (o := .sipSet (.state .prepareBoot)) rfl fun _ _ _ _ => trivial) fun _ => ?_
  refine leads_op (fun _ _ _ _ => trivial) created fun _ => Leads.ite ?_ (keeps_pure _)
  exact leads_op (fun _ _ alive moved => moved alive) awaited fun _ => keeps_pure _

theorem timely_sends {o : Op} {r : o.Answer} {s : State} (admitted : timely .appMain o s r) : sends o r := by
  cases o <;> first | exact admitted | trivial

theorem espSipBootup_leads (cfg : Build) (entryAddr : UInt32) :
    Keeps bootContract (fun _ => True) (espSipBootup cfg entryAddr) := by
  intro s _
  unfold espSipBootup
  simp only [Prog.bind_def,issue_bind,Prog.pure_def]
  rw [wp_bind]
  have sent := wp_returnsWhen (C := bootContract) (fun o s r s' acted => timely_sends acted.2)
    (sendCmd_sends sipCmdBootup sizeofSipCmdBootup (le32 entryAddr ++ le32 1)) (sendCmd_succeeds entryAddr s trivial)
  refine wp_mono sent ?_
  rintro sent s₁ ⟨rfl,_⟩
  refine (bootupWait_leads cfg).bind (fun ret => ?_) s₁ trivial
  exact leads_op (fun _ _ alive moved => moved alive) deleted fun _ => keeps_pure _

-- The receive task. `h` is whether it is handling a `SIP_EVT_BOOTUP`.
def recvContract : Contract signature State where
  act o s r s' := watchSlave.act .transRecv o s r s' ∧ timely .transRecv o s r
  rely := Booting
  guar s s' := Alive s → Alive s'
  safe := liveSafe

structure Watching (h : Bool) (s : State) : Prop where
  parsing : s.2.parsing = false
  handling : s.2.handling = h
  alive : h = true → Alive s

theorem watching_stable (s s' : State) (held : Watching h s) (moved : recvContract.rely s s') : Watching h s' := by
  refine ⟨by rw [moved.watch]; exact held.parsing,by rw [moved.watch]; exact held.handling,fun handling => ?_⟩
  exact moved.alive (held.handling.trans handling) (held.alive handling)

theorem watched_keeps {o : Op} (calm : movesBootSem o = false) (noted : notes o = false) :
    KeepsOp recvContract (Watching h) o := by
  intro s held
  refine ⟨calm_safe calm s,fun r s' acted => ?_⟩
  have aside : Aside s s' := by
    cases o
    case note n => cases noted
    case createBootSem => cases calm
    case load p n =>
      obtain ⟨ans,ran,answered⟩ := act_iff.mp acted.1
      refine ⟨?_,(exec_frame ran).bootSem calm⟩
      simp only [watchSlave,held.parsing,Bool.false_eq_true,if_false] at answered
      exact (Option.some.inj answered).symm
    all_goals exact unnoticed_act (by simp [unnoticed,calm]) acted.1
  exact ⟨aside.alive,watching_stable s s' held aside.booting⟩

theorem watched_op {o : Op} {next : o.Answer → Code α} {after : State → Prop} (calm : movesBootSem o = false)
    (noted : notes o = false) (rest : ∀ r, Leads recvContract (Watching h) after (next r)) :
    Leads recvContract (Watching h) after (Prog.op o next : Code α) :=
  leads_op watching_stable (watched_keeps calm noted) rest

theorem noted_keeps {n : Note} (other : ∀ buf, n ≠ .parseEvents buf) : KeepsOp recvContract (Watching h) (.note n) := by
  intro s held
  refine ⟨nofun,fun r s' acted => ?_⟩
  have aside : Aside s s' := by
    obtain ⟨ans,ran,answered⟩ := act_iff.mp acted.1
    refine ⟨?_,(exec_frame ran).bootSem rfl⟩
    cases n
    case parseEvents buf => exact absurd rfl (other buf)
    all_goals exact (Option.some.inj answered).symm
  exact ⟨aside.alive,watching_stable s s' held aside.booting⟩

theorem given : LeadsOp recvContract (Watching true) (Watching false) (.semGive .bootSem) := by
  intro s held
  refine ⟨fun _ => held.alive rfl,fun r s' acted => ?_⟩
  obtain ⟨ans,ran,answered⟩ := act_iff.mp acted.1
  have watch : {s.2 with handling := false} = s'.2 := Option.some.inj answered
  refine ⟨fun alive => ?_,by rw [← watch]; exact held.parsing,by rw [← watch],nofun⟩
  obtain ⟨n,count⟩ := alive
  simp only [World.exec,count,Option.some.injEq,Prod.mk.injEq] at ran
  exact ⟨min 1 (n + 1),by rw [← ran.2]⟩

theorem targetOn_keeps (cfg : Build) : Keeps recvContract (Watching false) (parseTargetOn cfg) := by
  have quiet : ∀ o : Op, o.quiet = true → KeepsOp recvContract (Watching false) o := by
    intro o quiet
    cases o <;> first | exact watched_keeps rfl rfl | cases quiet
  have all : (parseTargetOn cfg).All (KeepsOp recvContract (Watching false)) :=
    parseTargetOn_all quiet (fun _ _ => watched_keeps rfl rfl) (fun _ _ => watched_keeps rfl rfl)
      (fun _ => watched_keeps rfl rfl) (watched_keeps rfl rfl) (watched_keeps rfl rfl) (fun n other => noted_keeps other)
      (fun _ _ _ _ => watched_keeps rfl rfl) (fun _ => watched_keeps rfl rfl) cfg
  exact all.keeps watching_stable

theorem bootup_leads (buf : Ptr) : Leads recvContract (Watching true) (Watching false) (parseBootup buf) := by
  have post : ∀ bevt, (espSipPostInit bevt).All (KeepsOp recvContract (Watching true)) := by
    refine fun bevt => postInit_all (fun o quiet => ?_) bevt
    cases o <;> first | exact watched_keeps rfl rfl | cases quiet
  have finish : Leads recvContract (Watching true) (Watching false)
      (Prog.op (.load (buf.add sizeofSipHdr) sizeofSipEvtBootup2) fun bevt => (espSipPostInit bevt).bind fun _ =>
        .op (.sipSet (.state .run)) fun _ => .op (.semGive .bootSem) fun _ => .pure .ok : Code EspErr) := by
    refine watched_op rfl rfl fun bevt => ((post bevt).keeps watching_stable).bind fun _ => watched_op rfl rfl fun _ => ?_
    exact leads_op watching_stable given fun _ => keeps_pure _
  unfold parseBootup
  simp only [Prog.bind_def,issue_bind,Prog.pure_def]
  refine watched_op rfl rfl fun sip => ?_
  split
  · exact watched_op rfl rfl fun _ => watched_op rfl rfl fun _ => finish
  · exact finish

-- The header tells which of the two it will be.
theorem header_loaded {s s' : State} {bytes : List UInt8} (parsing : s.2.parsing = true)
    (acted : recvContract.act (.load buf sizeofSipHdr) s bytes s') :
    (Alive s → Alive s') ∧ Watching (decide ((sipHdrOf bytes).fc1 = sipEvtBootup)) s' := by
  obtain ⟨acted,timely⟩ := acted
  obtain ⟨ans,ran,answered⟩ := act_iff.mp acted
  simp only [World.exec,Option.some.injEq,Prod.mk.injEq] at ran
  simp only [watchSlave,if_pos parsing,Option.some.injEq] at answered
  have event : evtOf s.1 buf sizeofSipHdr = (sipHdrOf bytes).fc1 := by rw [← ran.1]; rfl
  have alive : Alive s → Alive s' := by
    rintro ⟨n,count⟩
    exact ⟨n,by rw [← ran.2]; exact count⟩
  refine ⟨alive,by rw [← answered],by rw [← answered,event],fun bootup => ?_⟩
  exact alive (timely parsing (event.trans (of_decide_eq_true bootup)))

theorem events_keep (cfg : Build) (buf : Ptr) : Keeps recvContract (Watching false) (espSipParseEvents cfg buf) := by
  have switch : ∀ evtid, Leads recvContract (Watching (decide (evtid = sipEvtBootup))) (Watching false) (parseSwitch cfg buf evtid) := by
    intro evtid
    by_cases bootup : evtid = sipEvtBootup
    · have other : sipEvtBootup ≠ sipEvtTargetOn := by decide
      rw [decide_eq_true bootup,bootup,parseSwitch,if_neg other,if_pos rfl]
      exact bootup_leads buf
    · rw [decide_eq_false bootup,parseSwitch,if_neg bootup]
      refine Leads.ite (targetOn_keeps cfg) (Leads.ite ?_ (keeps_pure _))
      exact watched_op rfl rfl fun _ => watched_op rfl rfl fun _ => keeps_pure _
  intro s held s₁ moved
  have held₁ := watching_stable s s₁ held moved
  refine ⟨nofun,fun _ s₂ acted => ?_⟩
  obtain ⟨ans,ran,answered⟩ := act_iff.mp acted.1
  have world : s₁.1 = s₂.1 := congrArg Prod.snd (Option.some.inj ran)
  have watch : {s₁.2 with parsing := true} = s₂.2 := Option.some.inj answered
  refine ⟨fun alive => by unfold Alive; rw [← world]; exact alive,?_⟩
  intro s₃ moved₃
  have parsing : s₃.2.parsing = true := by rw [moved₃.watch,← watch]
  refine ⟨nofun,fun bytes s₄ acted => ?_⟩
  obtain ⟨alive,known⟩ := header_loaded parsing acted
  exact ⟨alive,switch _ s₄ known⟩

theorem may_calm {t : Task} (other : t ≠ .transRecv) (own : t ≠ .appMain) {o : Op} (may : mayIssue t o) :
    movesBootSem o = false := by
  rcases may with ordinary | issued
  · cases o <;> first | rfl | cases ordinary
  cases t
  case transRecv => exact absurd rfl other
  case appMain => exact absurd rfl own
  all_goals
    cases o
    case semTake sem wait => cases sem <;> first | rfl | cases issued
    case semGive sem => cases sem <;> first | rfl | cases issued
    all_goals first | rfl | cases issued

theorem receiving_calm {o : Op} (own : receiving o) : movesBootSem o = false := by
  rcases own.1 with ordinary | issued
  · cases o <;> first | rfl | cases ordinary
  cases o
  case semTake sem wait => cases sem <;> first | rfl | cases issued
  case semGive sem => cases sem <;> first | rfl | cases issued
  all_goals first | rfl | cases issued

theorem recv_keeps (cfg : Build) : ReceiveKeeps cfg recvContract (Watching false) (Watching false) where
  stable := watching_stable
  steady := watching_stable
  lock := watched_keeps rfl rfl
  unlock := watched_keeps rfl rfl
  within _ own := watched_keeps (receiving_calm own) own.2.2
  own _ own _ := watched_keeps (receiving_calm own) own.2.2
  events := events_keep cfg
  tohost := by
    refine Prog.All.keeps (handleIntr1Tohost_all ?_ ?_ ?_ ?_ ?_) watching_stable
    all_goals exact watched_keeps rfl rfl

-- The other tasks have nothing to do with the semaphore.
def asideContract (t : Task) : Contract signature State where
  act o s r s' := watchSlave.act t o s r s' ∧ timely t o s r
  rely _ _ := True
  guar := Aside
  safe := liveSafe

theorem aside_wp {t : Task} (other : t ≠ .transRecv) (own : t ≠ .appMain) {p : Code Label} (all : p.All (mayIssue t))
    (s : State) : wp (asideContract t) p (fun _ _ => True) s := by
  refine wp_careless all (fun o s may => ?_) s
  have calm := may_calm other own may
  exact ⟨calm_safe calm s,fun r s' acted => aside_act other calm acted.1⟩

def contractOf : Task → Contract signature State
  | .appMain => bootContract
  | .transRecv => recvContract
  | t => asideContract t

def restOf : Task → State → Prop
  | .transRecv => Watching false
  | _ => fun _ => True

def timelySystem (cfg : Build) : Machine signature Task Label State := (system cfg watchSlave).when timely

theorem block_wp (cfg : Build) (known : labelsOf t l) {s : State} (rest : restOf t s) :
    wp ⟨(timelySystem cfg).act t,(contractOf t).rely,(contractOf t).guar,(contractOf t).safe⟩ (block cfg l)
      (fun _ => restOf t) s := by
  cases t with
  | appMain =>
      cases l <;> first | exact False.elim known | skip
      case espSipBootup entryAddr => exact (espSipBootup_leads cfg entryAddr).bind (fun _ => keeps_pure _) s trivial
      case returned => trivial
  | transRecv =>
      cases l <;> first | exact False.elim known | skip
      case transRecvTask => exact (recv_keeps cfg).task s rest
      case returned => exact rest
  | wifiSend => exact aside_wp (by decide) (by decide) (wifiSend_all cfg known) s
  | btTx => exact aside_wp (by decide) (by decide) (btTx_all cfg known) s
  | btHost => exact aside_wp (by decide) (by decide) (btHost_all cfg known) s
  | wifiStack => exact aside_wp (by decide) (by decide) (wifiStack_all cfg known) s

def outline (cfg : Build) : Outline (timelySystem cfg) where
  rely t := (contractOf t).rely
  guar t := (contractOf t).guar
  safe t := (contractOf t).safe
  entry t l s := labelsOf t l ∧ restOf t s
  transitive := by
    intro t a b c one two
    cases t
    case appMain => exact fun alive => two (one alive)
    case transRecv =>
      refine ⟨two.watch.trans one.watch,fun handling alive => ?_⟩
      exact two.alive (by rw [one.watch]; exact handling) (one.alive handling alive)
    all_goals trivial
  compatible := by
    intro t u a b other moved
    cases u
    case appMain =>
      cases t
      case appMain => exact absurd rfl other
      case transRecv => exact moved
      all_goals exact Aside.alive moved
    case transRecv =>
      cases t
      case transRecv => exact absurd rfl other
      case appMain => exact moved
      all_goals exact Aside.booting moved
    all_goals trivial
  surroundings := by
    rintro t a b ⟨world,watch⟩
    have aside : Aside a b := ⟨watch,by rw [world]⟩
    cases t
    case appMain => exact aside.alive
    case transRecv => exact aside.booting
    all_goals trivial
  stable := by
    rintro t l a b ⟨known,rest⟩ moved
    refine ⟨known,?_⟩
    cases t
    case transRecv => exact watching_stable a b rest moved
    all_goals trivial
  verified := by
    rintro t l s ⟨known,rest⟩
    exact wp_returns (block_returns cfg known) (block_wp cfg known rest)

theorem safeOf (t : Task) : (contractOf t).safe = liveSafe := by
  cases t <;> rfl

-- The receive task is not in the middle of an event.
structure Fresh (c : Config signature Task Label State) : Prop where
  started : Started c
  parsing : c.shared.2.parsing = false
  handling : c.shared.2.handling = false

theorem started_holds (cfg : Build) {c : Config signature Task Label State} (fresh : Fresh c) : (outline cfg).Holds c := by
  refine (outline cfg).holds_resting fun t => ?_
  obtain ⟨l,here,known⟩ := fresh.started t
  refine ⟨l,here,known,?_⟩
  cases t
  case transRecv => exact ⟨fresh.parsing,fresh.handling,nofun⟩
  all_goals trivial

theorem boot_sem_live (cfg : Build) {start c : Config signature Task Label State} (fresh : Fresh start)
    (path : Reached (timelySystem cfg) start c) : Live c := by
  intro t o here
  have reflexive := (outline cfg).reflexive fun _ => ⟨rfl,rfl⟩
  have safe := ((outline cfg).reached_holds reflexive (started_holds cfg fresh) path).safe reflexive here
  rw [show (outline cfg).safe t = liveSafe from safeOf t] at safe
  exact safe

-- The boot task about to boot the slave, everything else at its head.
def booting : Config signature Task Label State where
  shared := (World.initial espSipInit,⟨false,false⟩)
  running
    | .transRecv => .pure .transRecvTask
    | .wifiSend => .pure .wifiSendTask
    | .btTx => .pure (.btTxTask 0)
    | .appMain => .pure (.espSipBootup 0)
    | .btHost => .pure .btHost
    | .wifiStack => .pure .wifiStack

theorem booting_fresh : Fresh booting where
  started t := by cases t <;> exact ⟨_,rfl,trivial⟩
  parsing := rfl
  handling := rfl

def present : BootSem → Bool
  | .alive _ => true
  | _ => false

def inTime (t : Task) (o : Op) (ans : Ans) (s : State) : Bool :=
  match t,o with
  | .appMain,.calloc _ => ans.flag
  | .appMain,.sdmmcIoWrite _ _ _ _ _ => ans.err = .ok
  | .appMain,.createBootSem => ans.flag
  | .appMain,.deleteBootSem => !s.2.handling
  | .transRecv,.load _ _ => !s.2.parsing || present s.1.bootSem
  | _,_ => true

theorem inTime_timely (t : Task) (o : Op) (ans : Ans) (s : State) (r : o.Answer) (s' : State) (passed : inTime t o ans s = true)
    (ran : watchSlave.exec t o ans s = some (r,s')) : timely t o s r := by
  have executed := (exec_iff.mp ran).1
  cases t
  case appMain =>
    cases o
    case calloc size => exact calloc_answer passed executed
    case sdmmcIoWrite =>
      have fine : ans.err = .ok := of_decide_eq_true passed
      exact (write_answer executed).symm.trans fine
    case createBootSem =>
      rw [← show ans.flag = r from congrArg Prod.fst (Option.some.inj executed)]
      exact passed
    case deleteBootSem =>
      have finished : (!s.2.handling) = true := passed
      exact show s.2.handling = false by simpa using finished
    all_goals trivial
  case transRecv =>
    cases o
    case load p n =>
      intro parsing _
      have there : (!s.2.parsing || present s.1.bootSem) = true := passed
      rw [parsing] at there
      unfold Alive
      cases here : s.1.bootSem with
      | alive n => exact ⟨n,rfl⟩
      | null | deleted =>
          rw [here] at there
          cases there
    all_goals trivial
  all_goals cases o <;> trivial

-- The receive task woken by `SIP_EVT_BOOTUP`, until it has given the semaphore.
def bootup : List (Task × Ans) :=
  ([[],[],[],[0,0,0x80,0],[0,0,0,0],[],[],[],[28,0,0,0],[],[0,1,28,0] ++ List.replicate 24 0] ++ List.replicate 17 [] :
    List (List UInt8)).map fun data => (.transRecv,{data := data})

-- The slave boots while the boot task waits.
theorem booting_live : ∃ c, Reached (timelySystem ⟨true,true⟩) booting c ∧
    c.pending .appMain = some .deleteBootSem ∧ c.shared.1.sip.state = .run ∧ Live c := by
  have passed : (schedule (block ⟨true,true⟩) (screened watchSlave.exec inTime)
      (List.replicate 25 (.appMain,{flag := true}) ++ bootup ++ [(.appMain,{flag := true})]) booting).any
      (fun c => c.pending .appMain = some .deleteBootSem && decide (c.shared.1.sip.state = .run)) = true := by decide +kernel
  obtain ⟨c,path,booted⟩ := schedule_exists (m := timelySystem ⟨true,true⟩)
    (screened_sound (fun _ _ ans _ _ _ ran => ⟨ans,ran⟩) inTime_timely) _ passed
  simp only [Bool.and_eq_true,decide_eq_true_eq] at booted
  exact ⟨c,path,booted.1,booted.2,boot_sem_live ⟨true,true⟩ booting_fresh path⟩

-- When the command cannot be sent the semaphore is deleted without having been
-- created.
theorem boot_sem_not_live : ¬ ∀ c, Reached (system ⟨true,true⟩ watchSlave) booting c → Live c := by
  intro all
  have passed : (schedule (block ⟨true,true⟩) watchSlave.exec (List.replicate 3 (.appMain,{flag := false})) booting).any
      (fun c => c.pending .appMain = some .deleteBootSem && decide (c.shared.1.bootSem = .null)) = true := by decide +kernel
  obtain ⟨c,path,stuck⟩ := schedule_exists (m := system ⟨true,true⟩ watchSlave)
    (fun _ _ ans _ _ _ ran => ⟨ans,ran⟩) _ passed
  simp only [Bool.and_eq_true,decide_eq_true_eq] at stuck
  obtain ⟨n,alive⟩ := all c path .appMain _ stuck.1 rfl
  rw [stuck.2] at alive
  cases alive

end ExtConn.BootSemaphore
