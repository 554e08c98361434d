import ExtConn.System
import ExtConn.TransmitChunks

namespace ExtConn.BusLock
open Effects ByteMemory Interleaving
open TransmitChunks (reliableBus read_succeeds write_succeeds)

-- What an operation needs of the owner of the mutex.
def obeys (t : Task) (o : Op) (owner : Option Task) : Prop :=
  match o with
  | .semGive .sdioMutex => owner = some t
  | o => transfers o = true → owner = some t

-- The discipline of the lock, read off the operations of a run alone: a task
-- locks when nobody has locked, unlocks what it has locked itself, and transfers
-- in between. The result is the owner at the end.
def follow (owner : Option Task) : Task × Op → Option (Option Task)
  | (t,.semTake .sdioMutex _) => if owner = none then some (some t) else none
  | (t,.semGive .sdioMutex) => if owner = some t then some none else none
  | (t,o) => if transfers o = true → owner = some t then some owner else none

structure Respected (trace : List (Task × Op)) (c : Config signature Task Label (World × δ)) : Prop where
  bracketed : trace.foldlM follow none = some c.shared.1.sdioMutex
  obeyed : ∀ t o, c.pending t = some o → obeys t o c.shared.1.sdioMutex
  exclusive : ∀ t u o o', c.pending t = some o → c.pending u = some o' → transfers o = true → transfers o' = true → t = u

-- The two transfers of `handle_intr1` after whose failure it unlocks and goes on.
def acknowledged : (o : Op) → o.Answer → Prop
  | .sdmmcIoWrite _ addr _ (.reg _) _,r => addr = espSdioSlc1IntClr → r = EspErr.ok
  | .sdmmcIoRead _ addr _ .reg _,r => addr = espSdioConfigW1 → Prod.fst r = EspErr.ok
  | _,_ => True

-- One task alone: whether it holds the mutex.
def permits : Op → Bool → Bool
  | .semTake .sdioMutex _,held => !held
  | .semGive .sdioMutex,held => held
  | o,held => held || !transfers o

def heldAfter : Op → Bool → Bool
  | .semTake .sdioMutex _,_ => true
  | .semGive .sdioMutex,_ => false
  | _,held => held

def lockContract : Contract signature Bool where
  act o held r held' := acknowledged o r ∧ held' = heldAfter o held
  rely held held' := held' = held
  guar _ _ := True
  safe o held := permits o held = true

def outside (held : Bool) : Prop := held = false
def inside (held : Bool) : Prop := held = true

theorem still {keep : Bool → Prop} : ∀ s s', keep s → lockContract.rely s s' → keep s' := by
  rintro s _ held rfl
  exact held

theorem held_other {o : Op} (mutex : movesMutex o = false) (held : Bool) :
    permits o held = (held || !transfers o) ∧ heldAfter o held = held := by
  cases o
  case semTake s wait => cases s <;> first | exact ⟨rfl,rfl⟩ | cases mutex
  case semGive s => cases s <;> first | exact ⟨rfl,rfl⟩ | cases mutex
  all_goals exact ⟨rfl,rfl⟩

theorem lock_takes : LeadsOp lockContract outside inside (.semTake .sdioMutex none) := by
  rintro _ rfl
  exact ⟨rfl,fun r s' acted => ⟨trivial,acted.2⟩⟩

theorem lock_gives : LeadsOp lockContract inside outside (.semGive .sdioMutex) := by
  rintro _ rfl
  exact ⟨rfl,fun r s' acted => ⟨trivial,acted.2⟩⟩

theorem lock_within {o : Op} (mutex : movesMutex o = false) : KeepsOp lockContract inside o := by
  rintro _ rfl
  obtain ⟨permitted,after⟩ := held_other mutex true
  exact ⟨permitted,fun r s' acted => ⟨trivial,acted.2.trans after⟩⟩

def calm (o : Op) : Prop := movesMutex o = false ∧ transfers o = false

theorem quiet_calm {o : Op} (quiet : o.quiet = true) : calm o := by
  cases o
  case semTake s wait => cases quiet
  case semGive s => cases quiet
  all_goals first
    | exact ⟨rfl,rfl⟩
    | cases quiet

theorem calm_keeps {o : Op} (calm : calm o) : KeepsOp lockContract outside o := by
  rintro _ rfl
  obtain ⟨permitted,after⟩ := held_other calm.1 false
  refine ⟨?_,fun r s' acted => ⟨trivial,acted.2.trans after⟩⟩
  show permits o false = true
  rw [permitted,calm.2]
  rfl

theorem calm_leads {p : Code α} {f : α → Code β} (all : p.All calm) (rest : ∀ a, Leads lockContract outside after (f a)) :
    Leads lockContract outside after (p.bind f) :=
  ((all.mono fun _ => calm_keeps).keeps still).bind rest

theorem calm_op {o : Op} {next : o.Answer → Code α} (calm : calm o) (rest : ∀ r, Keeps lockContract outside (next r)) :
    Keeps lockContract outside (Prog.op o next : Code α) :=
  leads_op still (calm_keeps calm) rest

-- A critical section.
theorem locked_keeps {p : Code α} {next : α → Code β} (all : p.All fun o => movesMutex o = false)
    (rest : ∀ a, Keeps lockContract outside (next a)) :
    Keeps lockContract outside
      (Prog.op (.semTake .sdioMutex none) fun _ => p.bind fun a => .op (.semGive .sdioMutex) fun _ => next a : Code β) :=
  leads_op still lock_takes fun _ => ((all.mono fun _ => lock_within).keeps still).bind fun a =>
    leads_op still lock_gives fun _ => rest a

theorem sendPacket_within (function : UInt32) (start : Ptr) (length : UInt32) :
    (espExtconnSdioSendPacket function start length).All fun o : Op => movesMutex o = false :=
  sendPacket_all (P := fun o => movesMutex o = false) (fun _ _ _ => rfl) (fun _ _ => rfl) rfl (fun _ _ => rfl) _

theorem sendCmd_keeps (cid cmdlen : UInt32) (cmd : List UInt8) : Keeps lockContract outside (espSipSendCmd cid cmdlen cmd) := by
  have finish : ∀ buffer len, Keeps lockContract outside (Prog.op (.store (buffer.add 8) (le32 0)) fun _ =>
      .op (.store (buffer.add sizeofSipHdr) cmd) fun _ => .op (.semTake .sdioMutex none) fun _ =>
        (espExtconnSdioSendPacket 1 buffer len).bind fun err =>
          .op (.semGive .sdioMutex) fun _ => .op (.free buffer) fun _ => .pure err : Code EspErr) := by
    intro buffer len
    refine calm_op ⟨rfl,rfl⟩ fun _ => calm_op ⟨rfl,rfl⟩ fun _ => locked_keeps (sendPacket_within _ _ _) fun err => ?_
    exact calm_op ⟨rfl,rfl⟩ fun _ => keeps_pure _
  unfold espSipSendCmd espSipSendCmdBuffer
  simp only [sipHdrSetType,sipHdrSetSync,sipHdrSetLen,sipHdrSetCmdid,sipHdrSetSeq,espSipIncreaseTxseq,espExtconnSdioLock,
    espExtconnSdioUnlock,Prog.bind_def,issue_bind,Prog.op_bind,Prog.pure_bind,Prog.pure_def]
  refine calm_op ⟨rfl,rfl⟩ fun _ => calm_op ⟨rfl,rfl⟩ fun buffer => ?_
  cases buffer with
  | none => exact keeps_pure _
  | some buffer =>
      refine calm_op ⟨rfl,rfl⟩ fun _ => calm_op ⟨rfl,rfl⟩ fun _ => calm_op ⟨rfl,rfl⟩ fun _ => calm_op ⟨rfl,rfl⟩ fun _ => ?_
      refine calm_op ⟨rfl,rfl⟩ fun _ => calm_op ⟨rfl,rfl⟩ fun _ => calm_op ⟨rfl,rfl⟩ fun _ => Leads.ite ?_ (Leads.ite ?_ ?_)
      · exact calm_op ⟨rfl,rfl⟩ fun _ => calm_op ⟨rfl,rfl⟩ fun _ => finish _ _
      · exact calm_op ⟨rfl,rfl⟩ fun _ => calm_op ⟨rfl,rfl⟩ fun _ => finish _ _
      · exact finish _ _

theorem targetOn_keeps (cfg : Build) : Keeps lockContract outside (parseTargetOn cfg) := by
  unfold parseTargetOn sipSendChipInit
  simp only [Prog.bind_def,issue_bind,Prog.op_bind,Prog.pure_def]
  refine calm_op ⟨rfl,rfl⟩ fun sip => Leads.ite ?_ (calm_op ⟨rfl,rfl⟩ fun _ => keeps_pure _)
  refine calm_op ⟨rfl,rfl⟩ fun _ => calm_op ⟨rfl,rfl⟩ fun after => (sendCmd_keeps _ _ _).bind fun ret => ?_
  exact Leads.ite (calm_op ⟨rfl,rfl⟩ fun _ => keeps_pure _) (keeps_pure _)

theorem bootup_keeps (buf : Ptr) : Keeps lockContract outside (parseBootup buf) :=
  ((parseBootup_all (fun _ => quiet_calm) ⟨rfl,rfl⟩ ⟨rfl,rfl⟩ ⟨rfl,rfl⟩).mono fun _ => calm_keeps).keeps still

-- With both transfers successful nothing is unlocked early.
theorem transfer_succeeds {o : Op} {next : o.Answer → Code α} (mutex : movesMutex o = false)
    (rest : ∀ r, acknowledged o r → Leads lockContract inside outside (next r)) :
    Leads lockContract inside outside (Prog.op o next : Code α) := by
  intro held inside held' same
  cases same
  obtain ⟨permitted,after⟩ := lock_within mutex held inside
  exact ⟨permitted,fun r held' acted => ⟨trivial,rest r acted.1 held' (after r held' acted).2⟩⟩

theorem tohost_keeps : Keeps lockContract outside handleIntr1Tohost := by
  rw [handleIntr1Tohost_eq]
  refine leads_op still lock_takes fun _ => transfer_succeeds rfl fun ret cleared => ?_
  have success : ret = .ok := cleared rfl
  rw [unlockIfFailed,if_neg (not_not_intro success)]
  refine transfer_succeeds rfl fun r answered => ?_
  have success : r.1 = .ok := answered rfl
  rw [unlockIfFailed,if_neg (not_not_intro success)]
  refine leads_op still lock_gives fun _ => Leads.bind (Leads.ite ?_ (keeps_pure _)) fun _ => keeps_pure _
  exact calm_op ⟨rfl,rfl⟩ fun _ => keeps_pure _

theorem recv_keeps (cfg : Build) : ReceiveKeeps cfg lockContract outside inside where
  stable := still
  steady := still
  lock := lock_takes
  unlock := lock_gives
  within _ own := lock_within own.2.1
  own _ own bus := calm_keeps ⟨own.2.1,bus⟩
  events := events_keep still (fun _ _ mutex bus => calm_keeps ⟨mutex,bus⟩) (targetOn_keeps cfg) bootup_keeps
  tohost := tohost_keeps

theorem wifiSend_keeps (cfg : Build) (known : labelsOf .wifiSend l) : Keeps lockContract outside (block cfg l) := by
  have quiet : ∀ o : Op, o.quiet = true → calm o := fun _ => quiet_calm
  have load : ∀ p n, calm (.load p n) := fun _ _ => ⟨rfl,rfl⟩
  have store : ∀ p bytes, calm (.store p bytes) := fun _ _ => ⟨rfl,rfl⟩
  cases l <;> first | exact False.elim known | skip
  case wifiSendTask =>
    refine calm_op ⟨rfl,rfl⟩ fun sendBuf => ?_
    cases sendBuf with
    | none => exact keeps_pure _
    | some sendBuf => exact calm_op ⟨rfl,rfl⟩ fun _ => keeps_pure _
  case wifiSendLoop sendBuf actualSize =>
    refine calm_op ⟨rfl,rfl⟩ fun _ => calm_op ⟨rfl,rfl⟩ fun eb => Leads.ite (keeps_pure _) ?_
    refine calm_leads (wifiBuildPacket_all (quiet _ rfl) (fun _ => quiet _ rfl) load store _ _) fun _ => ?_
    exact Leads.ite (keeps_pure _) (keeps_pure _)
  case wifiSendPoll l =>
    have size : espExtconnSdioGetBufferSize.All fun o : Op => movesMutex o = false :=
      getBufferSize_all (P := fun o => movesMutex o = false) rfl rfl fun _ => rfl
    have packet : Keeps lockContract outside (wifiSendPacket l) := by
      unfold wifiSendPacket espExtconnSdioLock espExtconnSdioUnlock
      simp only [Prog.bind_def,issue_bind,Prog.op_bind,Prog.pure_bind,Prog.pure_def]
      refine locked_keeps (sendPacket_within _ _ _) fun err => Leads.ite (keeps_pure _) (calm_op ⟨rfl,rfl⟩ fun back => ?_)
      refine Leads.ite ?_ (calm_op ⟨rfl,rfl⟩ fun _ => keeps_pure _)
      exact calm_op ⟨rfl,rfl⟩ fun _ => calm_op ⟨rfl,rfl⟩ fun _ => keeps_pure _
    show Keeps lockContract outside (wifiSendPoll l)
    unfold wifiSendPoll espExtconnSdioLock espExtconnSdioUnlock
    simp only [Prog.bind_def,issue_bind,Prog.op_bind,Prog.pure_bind,Prog.pure_def]
    refine locked_keeps size fun result => Leads.ite (calm_op ⟨rfl,rfl⟩ fun _ => keeps_pure _) ?_
    exact calm_leads (wifiSetSeq_all (quiet _ rfl) (fun _ => quiet _ rfl) load store _) fun _ => packet
  all_goals exact keeps_pure _

theorem btTx_keeps (cfg : Build) (known : labelsOf .btTx l) : Keeps lockContract outside (block cfg l) := by
  cases l <;> first | exact False.elim known | skip
  case btTxTask txSeq =>
    have packet : ∀ data len hdr, Keeps lockContract outside (btTxPacket txSeq data len hdr) := by
      intro data len hdr
      unfold btTxPacket memcpy espExtconnSdioLock espExtconnSdioUnlock
      simp only [Prog.bind_def,issue_bind,Prog.op_bind,Prog.pure_bind,Prog.pure_def]
      refine calm_op ⟨rfl,rfl⟩ fun _ => calm_op ⟨rfl,rfl⟩ fun _ => calm_op ⟨rfl,rfl⟩ fun _ => calm_op ⟨rfl,rfl⟩ fun _ => ?_
      refine calm_op ⟨rfl,rfl⟩ fun _ => locked_keeps (sendPacket_within _ _ _) fun err => ?_
      exact calm_op ⟨rfl,rfl⟩ fun _ => calm_op ⟨rfl,rfl⟩ fun _ => keeps_pure _
    show Keeps lockContract outside (btTxTask txSeq)
    rw [btTxTask_eq]
    refine calm_op ⟨rfl,rfl⟩ fun _ => calm_op ⟨rfl,rfl⟩ fun msg => ?_
    cases msg with
    | none => exact keeps_pure _
    | some buf =>
        cases given : buf.data with
        | none => simp only [given]; exact keeps_pure _
        | some data =>
            simp only [given]
            refine Leads.ite (keeps_pure _) (calm_op ⟨rfl,rfl⟩ fun hdr => ?_)
            cases hdr with
            | none => exact calm_op ⟨rfl,rfl⟩ fun _ => keeps_pure _
            | some hdr => exact packet _ _ _

theorem appMain_keeps (cfg : Build) (known : labelsOf .appMain l) : Keeps lockContract outside (block cfg l) := by
  cases l <;> first | exact False.elim known | skip
  case espSipBootup entryAddr =>
    have wait : ∀ sent, Keeps lockContract outside (bootupWait cfg sent) := by
      intro sent
      refine Leads.ite ?_ (keeps_pure _)
      refine calm_op ⟨rfl,rfl⟩ fun _ => calm_op ⟨rfl,rfl⟩ fun _ => Leads.ite ?_ (keeps_pure _)
      exact calm_op ⟨rfl,rfl⟩ fun _ => keeps_pure _
    refine Leads.bind ((sendCmd_keeps _ _ _).bind fun sent => (wait sent).bind fun ret => ?_) fun _ => keeps_pure _
    exact calm_op ⟨rfl,rfl⟩ fun _ => keeps_pure _
  all_goals exact keeps_pure _

theorem caller_calm {t : Task} (caller : t = .btHost ∨ t = .wifiStack) {o : Op} (may : mayIssue t o) : calm o := by
  rcases may with ordinary | issued
  · rcases Bool.or_eq_true_iff.mp ordinary with quiet | access
    · exact quiet_calm quiet
    · cases o <;> first | exact ⟨rfl,rfl⟩ | cases access
  · rcases caller with rfl | rfl
    all_goals cases o <;> first | exact ⟨rfl,rfl⟩ | cases issued

theorem block_keeps (cfg : Build) (known : labelsOf t l) : Keeps lockContract outside (block cfg l) := by
  cases t with
  | transRecv =>
      cases l <;> first | exact False.elim known | skip
      case transRecvTask => exact (recv_keeps cfg).task
      case returned => exact keeps_pure _
  | wifiSend => exact wifiSend_keeps cfg known
  | btTx => exact btTx_keeps cfg known
  | appMain => exact appMain_keeps cfg known
  | btHost => exact ((btHost_all cfg known).mono fun _ may => calm_keeps (caller_calm (.inl rfl) may)).keeps still
  | wifiStack => exact ((wifiStack_all cfg known).mono fun _ may => calm_keeps (caller_calm (.inr rfl) may)).keeps still

-- The running system, in the runs in which both transfers succeed.
section
variable (cfg : Build) (slave : Slave δ)

def ackedSystem : Machine signature Task Label (World × δ) := (system cfg slave).when fun _ o _ r => acknowledged o r

abbrev State (δ : Type) := World × δ

def contract (t : Task) : Contract signature (State δ) where
  act := (ackedSystem cfg slave).act t
  rely s s' := s'.1.sdioMutex = some t ↔ s.1.sdioMutex = some t
  guar s s' := ∀ u, u ≠ t → (s'.1.sdioMutex = some u ↔ s.1.sdioMutex = some u)
  safe o s := obeys t o s.1.sdioMutex

end

theorem mutex_taken {t : Task} {w w' : World} {r : Bool}
    (ran : World.exec t (.semTake .sdioMutex wait) ans w = some (r,w')) :
    w.sdioMutex = none ∧ w'.sdioMutex = some t := by
  simp only [World.exec] at ran
  split at ran
  · cases ran
    exact ⟨‹_›,rfl⟩
  · cases ran

theorem mutex_given {t : Task} {w w' : World} {r : Unit}
    (ran : World.exec t (.semGive .sdioMutex) ans w = some (r,w')) : w'.sdioMutex = none := by
  cases ran
  rfl

-- What one operation does to the owner, whoever issues it.
theorem owner_cases (o : Op) : (∃ wait, o = .semTake .sdioMutex wait) ∨ o = .semGive .sdioMutex ∨ movesMutex o = false := by
  cases o
  case semTake s wait => cases s <;> first | exact .inl ⟨wait,rfl⟩ | exact .inr (.inr rfl)
  case semGive s => cases s <;> first | exact .inr (.inl rfl) | exact .inr (.inr rfl)
  all_goals exact .inr (.inr rfl)

theorem obeys_other {t : Task} {o : Op} {owner : Option Task} (mutex : movesMutex o = false)
    (free : transfers o = true → owner = some t) : obeys t o owner := by
  cases o
  case semGive s => cases s <;> first | exact free | cases mutex
  all_goals exact free

theorem transfer_owned {t : Task} {o : Op} {owner : Option Task} (obeyed : obeys t o owner) (bus : transfers o = true) :
    owner = some t := by
  cases o
  case semGive sem => cases bus
  all_goals exact obeyed bus

theorem follow_other {t : Task} {o : Op} {owner : Option Task} (mutex : movesMutex o = false)
    (free : transfers o = true → owner = some t) : follow owner (t,o) = some owner := by
  cases o
  case sdmmcIoRead => exact if_pos free
  case sdmmcIoWrite => exact if_pos free
  case semTake s wait => cases s <;> first | rfl | cases mutex
  case semGive s => cases s <;> first | rfl | cases mutex
  all_goals rfl

def Mirrors (t : Task) (held : Bool) (s : State δ) : Prop := s.1.sdioMutex = some t ↔ held = true

section
variable {cfg : Build} {slave : Slave δ}

theorem operation_mirrored (t : Task) (o : Op) (held : Bool) (s : State δ) (mirrors : Mirrors t held s)
    (permitted : permits o held = true) : obeys t o s.1.sdioMutex ∧ ∀ r s', (contract cfg slave t).act o s r s' →
      (contract cfg slave t).guar s s' ∧ ∃ held', lockContract.act o held r held' ∧ Mirrors t held' s' := by
  rcases owner_cases o with ⟨wait,rfl⟩ | rfl | mutex
  · refine ⟨fun bus => (by cases bus),fun r s' acted => ?_⟩
    obtain ⟨ans,ran⟩ := act_exec acted.1
    obtain ⟨free,taken⟩ := mutex_taken ran
    refine ⟨fun u other => ?_,true,⟨acted.2,rfl⟩,by simp [Mirrors,taken]⟩
    rw [free,taken]
    exact ⟨fun same => absurd (Option.some.inj same).symm other,fun none => by cases none⟩
  · have owned : s.1.sdioMutex = some t := mirrors.mpr permitted
    refine ⟨owned,fun r s' acted => ?_⟩
    obtain ⟨ans,ran⟩ := act_exec acted.1
    have given := mutex_given ran
    refine ⟨fun u other => ?_,false,⟨acted.2,rfl⟩,by simp [Mirrors,given]⟩
    rw [owned,given]
    exact ⟨fun none => (by cases none),fun same => absurd (Option.some.inj same).symm other⟩
  · obtain ⟨permitted',after⟩ := held_other mutex held
    rw [permitted'] at permitted
    refine ⟨obeys_other mutex fun bus => ?_,fun r s' acted => ?_⟩
    · rw [bus] at permitted
      exact mirrors.mpr (by simpa using permitted)
    · obtain ⟨ans,ran⟩ := act_exec acted.1
      have same := (exec_frame ran).mutex mutex
      refine ⟨fun u _ => by rw [same],held,⟨acted.2,after.symm⟩,?_⟩
      unfold Mirrors
      rw [same]
      exact mirrors

theorem block_wp (known : labelsOf t l) {s : State δ} (free : s.1.sdioMutex ≠ some t) :
    wp (contract cfg slave t) (block cfg l) (fun _ s' => s'.1.sdioMutex ≠ some t) s := by
  have mirrors : Mirrors t false s := ⟨fun owned => absurd owned free,fun no => by cases no⟩
  have around : ∀ held s s', Mirrors t held s → (contract cfg slave t).rely s s' →
      ∃ held', lockContract.rely held held' ∧ Mirrors t held' s' :=
    fun held _ _ mirrors moved => ⟨held,rfl,moved.trans mirrors⟩
  refine wp_mono (wp_simulates around (operation_mirrored t) mirrors (block_keeps cfg known false rfl)) ?_
  rintro l s' ⟨held,mirrors,rfl⟩ owned
  cases mirrors.mp owned

variable (cfg slave)

def outline : Outline (ackedSystem cfg slave) where
  rely t := (contract cfg slave t).rely
  guar t := (contract cfg slave t).guar
  safe t := (contract cfg slave t).safe
  entry t l s := labelsOf t l ∧ s.1.sdioMutex ≠ some t
  transitive one two := two.trans one
  compatible other moved := moved _ other
  surroundings moved := by
    show _ = some _ ↔ _
    rw [moved.1]
  stable entry moved := ⟨entry.1,fun owned => entry.2 (moved.mp owned)⟩
  verified _ _ _ entry := wp_returns (block_returns cfg entry.1) (block_wp entry.1 entry.2)

theorem started_holds {c : Config signature Task Label (State δ)} (started : Started c)
    (free : c.shared.1.sdioMutex = none) : (outline cfg slave).Holds c := by
  refine (outline cfg slave).holds_resting fun t => ?_
  obtain ⟨l,here,known⟩ := started t
  refine ⟨l,here,known,?_⟩
  rw [free]
  exact fun none => by cases none

theorem reached_obeys {start c : Config signature Task Label (State δ)} (started : Started start)
    (free : start.shared.1.sdioMutex = none) (path : Reached (ackedSystem cfg slave) start c)
    (here : c.pending t = some o) : obeys t o c.shared.1.sdioMutex :=
  ((outline cfg slave).reached_holds (fun _ _ => Iff.rfl) (started_holds cfg slave started free) path).safe
    (fun _ _ => Iff.rfl) here

theorem obeys_follow {t : Task} {o : Op} {r : o.Answer} {s s' : State δ} (obeyed : obeys t o s.1.sdioMutex)
    (acted : slave.act t o s r s') : follow s.1.sdioMutex (t,o) = some s'.1.sdioMutex := by
  obtain ⟨ans,ran⟩ := act_exec acted
  rcases owner_cases o with ⟨wait,rfl⟩ | rfl | mutex
  · obtain ⟨free,taken⟩ := mutex_taken ran
    rw [taken,free]
    rfl
  · have owned : s.1.sdioMutex = some t := obeyed
    rw [mutex_given ran,owned]
    exact if_pos rfl
  · rw [(exec_frame ran).mutex mutex]
    exact follow_other mutex (transfer_owned obeyed)

theorem path_follows {start c : Config signature Task Label (State δ)} (started : Started start)
    (free : start.shared.1.sdioMutex = none) (path : Path (ackedSystem cfg slave) start trace c) :
    trace.foldlM follow none = some c.shared.1.sdioMutex := by
  induction path with
  | refl =>
      rw [free]
      rfl
  | op path t here acted ih =>
      have obeyed := reached_obeys cfg slave started free path.reached (pending_iff.mpr ⟨_,here⟩)
      rw [List.foldlM_append,ih]
      exact (bind_pure _).trans (obeys_follow slave obeyed acted.1)
  | jump path t here ih => exact ih
  | env path moved ih =>
      rw [ih,moved.1]

theorem lock_respected {start c : Config signature Task Label (State δ)} (started : Started start)
    (free : start.shared.1.sdioMutex = none) (path : Path (ackedSystem cfg slave) start trace c) : Respected trace c where
  bracketed := path_follows cfg slave started free path
  obeyed _ _ here := reached_obeys cfg slave started free path.reached here
  exclusive t u o o' here there bus bus' := by
    have one := transfer_owned (reached_obeys cfg slave started free path.reached here) bus
    have two := transfer_owned (reached_obeys cfg slave started free path.reached there) bus'
    exact Option.some.inj (one.symm.trans two)

end

-- The tasks as they stand once the link is up, with nothing to do.
def idle : Config signature Task Label (State Unit) where
  shared := (World.initial {espSipInit with state := .run},())
  running
    | .transRecv => .pure .transRecvTask
    | .wifiSend => .pure .wifiSendTask
    | .btTx => .pure (.btTxTask 0)
    | .appMain => .pure .returned
    | .btHost => .pure .btHost
    | .wifiStack => .pure .wifiStack

theorem idle_started : Started idle := by
  intro t
  cases t <;> exact ⟨_,rfl,trivial⟩

-- The receive task is woken for the slave's acknowledgement and goes on until it
-- has tried to clear the interrupt, which ends in `cleared`.
def wokenUp (cleared : EspErr) : List (Task × Ans) :=
  List.replicate 4 (.transRecv,{data := [0,0,0,0]}) ++ List.replicate 3 (.transRecv,{data := [1,0,0,0]}) ++
    [(.transRecv,{err := cleared})]

theorem reliable_acknowledged {t : Task} {o : Op} {r : o.Answer} {s s' : State Unit}
    (acted : reliableBus.act t o s r s') : acknowledged o r := by
  cases o
  case sdmmcIoRead function addr arg dst size =>
    cases dst with
    | mem p => trivial
    | reg => exact fun _ => read_succeeds acted
  case sdmmcIoWrite function addr arg src size =>
    cases src with
    | mem p => trivial
    | reg bytes => exact fun _ => write_succeeds acted
  all_goals trivial

-- On a reliable bus it takes the read as well and unlocks.
theorem idle_respected : ∃ trace c, Path (ackedSystem ⟨true,true⟩ reliableBus) idle trace c ∧
    c.pending .transRecv = some (.semGive .txSem) ∧ Respected trace c := by
  have passed : (schedule (block ⟨true,true⟩) reliableBus.exec (wokenUp .ok ++
      [(.transRecv,{data := [1,0,0,0]}),(.transRecv,{err := .ok})]) idle).any
      (fun c => c.pending .transRecv = some (.semGive .txSem)) = true := by decide +kernel
  obtain ⟨c,reached,here⟩ := schedule_exists (m := ackedSystem ⟨true,true⟩ reliableBus)
    (fun _ _ ans _ _ _ ran => ⟨⟨ans,ran⟩,reliable_acknowledged ⟨ans,ran⟩⟩) _ passed
  obtain ⟨trace,path⟩ := reached.path
  exact ⟨trace,c,path,of_decide_eq_true here,lock_respected ⟨true,true⟩ reliableBus idle_started rfl path⟩

theorem lock_not_respected : ¬ ∀ trace c, Path (system ⟨true,true⟩ openSlave) idle trace c → Respected trace c := by
  intro all
  have passed : (schedule (block ⟨true,true⟩) openSlave.exec (wokenUp .fail ++ [(.transRecv,{err := .ok})] ++
      List.replicate 5 (.btHost,{data := [1]}) ++ List.replicate 11 (.btTx,{err := .ok})) idle).any
      (fun c => (c.pending .transRecv).any transfers && (c.pending .btTx).any transfers) = true := by decide +kernel
  obtain ⟨c,reached,both⟩ := schedule_exists (m := system ⟨true,true⟩ openSlave)
    (fun _ _ ans _ _ _ ran => ⟨ans,ran⟩) _ passed
  obtain ⟨trace,path⟩ := reached.path
  obtain ⟨recv,send⟩ := Bool.and_eq_true_iff.mp both
  obtain ⟨o,here,bus⟩ := (Option.any_eq_true _ _).mp recv
  obtain ⟨o',there,bus'⟩ := (Option.any_eq_true _ _).mp send
  cases (all trace c path).exclusive _ _ o o' here there bus bus'

end ExtConn.BusLock
