import ExtConn.System
import ExtConn.WifiPacket

namespace ExtConn.WifiIteration
open Effects ByteMemory ExtConn.Sequential WifiPacket

-- `wifi_send_task` from the buffer it has taken out of the list to the end of
-- the iteration, with at most `n` polls for credits.
def handleBuffer (sendBuf : Ptr) (actualSize : UInt32) (eb : EbPtr) : Code Label := do
  let sendLen ← wifiBuildPacket sendBuf eb
  if sendLen > actualSize then return .aborted
  return .wifiSendPoll ⟨sendBuf,actualSize,eb,sendLen⟩

def polls : Nat → Label → Code Label
  | n+1,.wifiSendPoll l => (wifiSendPoll l).bind (polls n)
  | _,label => .pure label

def iteration (n : Nat) (sendBuf : Ptr) (actualSize : UInt32) (eb : EbPtr) : Code Label :=
  (handleBuffer sendBuf actualSize eb).bind (polls n)

theorem wifiSendLoop_handles (sendBuf : Ptr) (actualSize : UInt32) : wifiSendLoop sendBuf actualSize =
    .op .listWaitItem fun _ => .op .listRemove fun eb =>
      if eb = nullEb then .pure (.wifiSendLoop sendBuf actualSize) else handleBuffer sendBuf actualSize eb := rfl

-- The two parts of a poll, and a send up to and behind its announcement.
def pollCredits : Code (EspErr × Option UInt32) :=
  .op (.semTake .sdioMutex none) fun _ => espExtconnSdioGetBufferSize.bind fun size => .op (.semGive .sdioMutex) fun _ => .pure size

def afterCredits (l : WifiLocals) (size : EspErr × Option UInt32) : Code Label :=
  if size.2.getD 0 * 512 < l.sendLen then .op (.taskDelay 2) fun _ => .pure (.wifiSendPoll l)
  else (wifiSetSeq l.sendBuf).bind fun _ => wifiSendPacket l

def wifiSendRest (l : WifiLocals) : Code Label :=
  (sendPacketRest extConnWifiSdioFunc l.sendBuf l.sendLen).bind fun err => .op (.semGive .sdioMutex) fun _ =>
    if err ≠ .ok then .pure .returned else .op (.isTxCallback l.eb) fun back =>
      if back = true then .op (.net80211EnTxdq l.eb) fun _ => .op .espSipTxdPost fun _ => .pure (.wifiSendLoop l.sendBuf l.actualSize)
      else .op (.espSipRecycle l.eb) fun _ => .pure (.wifiSendLoop l.sendBuf l.actualSize)

theorem wifiSendPoll_eq (l : WifiLocals) : wifiSendPoll l = pollCredits.bind (afterCredits l) := by
  unfold wifiSendPoll pollCredits afterCredits espExtconnSdioLock espExtconnSdioUnlock
  simp only [Prog.bind_def,issue_bind,Prog.op_bind,Prog.pure_bind,Prog.pure_def,Prog.bind_assoc]

theorem wifiSendPacket_eq (l : WifiLocals) : wifiSendPacket l = .op (.semTake .sdioMutex none) fun _ =>
    .op (.note (.sendPacket extConnWifiSdioFunc l.sendBuf l.sendLen)) fun _ => wifiSendRest l := by
  unfold wifiSendPacket wifiSendRest espExtconnSdioLock espExtconnSdioUnlock
  rw [sendPacket_eq]
  simp only [Prog.bind_def,issue_bind,Prog.op_bind,Prog.pure_bind,Prog.pure_def]

theorem pollCredits_all {P : Op → Prop} (lock : P (.semTake .sdioMutex none)) (unlock : P (.semGive .sdioMutex))
    (read : P (.sdmmcIoRead 1 espSdioTokenRdata {increment := true} .reg 4)) (host : P .hostGet)
    (note : ∀ n, P (.note (.bufferSize n))) : pollCredits.All P :=
  ⟨lock,fun _ => Prog.All.bind (getBufferSize_all read host note) fun _ => ⟨unlock,fun _ => trivial⟩⟩

theorem wifiSendRest_all {P : Op → Prop} {l : WifiLocals}
    (write : ∀ arg p size, P (.sdmmcIoWrite extConnWifiSdioFunc (chunkAddr extConnWifiSdioFunc l.sendLen) arg (.mem p) size))
    (sent : P (.note (.packetSent extConnWifiSdioFunc l.sendLen))) (host : P .hostGet) (count : ∀ n, P (.hostSet (.totalTx n)))
    (unlock : P (.semGive .sdioMutex)) (callback : P (.isTxCallback l.eb)) (queue : P (.net80211EnTxdq l.eb)) (post : P .espSipTxdPost)
    (recycle : P (.espSipRecycle l.eb)) : (wifiSendRest l).All P := by
  refine Prog.All.bind (sendPacketRest_all write sent host (fun _ => count) _) fun err => ⟨unlock,fun _ => ?_⟩
  refine Prog.All.ite (fun _ => trivial) fun _ => ⟨callback,fun back => Prog.All.ite (fun _ => ?_) fun _ => ⟨recycle,fun _ => trivial⟩⟩
  exact ⟨queue,fun _ => ⟨post,fun _ => trivial⟩⟩

theorem wifiSendRest_returns {Q : Label → Prop} {l : WifiLocals} (lost : Q .returned) (done : Q (.wifiSendLoop l.sendBuf l.actualSize)) :
    (wifiSendRest l).Returns Q :=
  Prog.Returns.bind fun _ _ => Prog.Returns.ite lost fun _ => Prog.Returns.ite (fun _ _ => done) fun _ => done

theorem wifiSendPoll_yields {Q : Label → Prop} {l : WifiLocals} (again : Q (.wifiSendPoll l)) (lost : Q .returned)
    (done : Q (.wifiSendLoop l.sendBuf l.actualSize)) : (wifiSendPoll l).Returns Q := by
  rw [wifiSendPoll_eq]
  refine Prog.Returns.bind fun size => Prog.Returns.ite (fun _ => again) (Prog.Returns.bind fun _ => ?_)
  rw [wifiSendPacket_eq]
  exact fun _ _ => wifiSendRest_returns lost done

-- The packet once its sequence number stands in it.
def numbered (bytes : List UInt8) (seq : UInt32) : List UInt8 := bytes.take 8 ++ le32 seq ++ bytes.drop 12

theorem numbered_length {bytes : List UInt8} (whole : 12 ≤ bytes.length) (seq : UInt32) : (numbered bytes seq).length = bytes.length := by
  simp only [numbered,List.length_append,List.length_take,List.length_drop,le32_length]
  omega

theorem packet_whole (m : Mem) (b : EsfBuf) : 12 ≤ (packetBytes m b).length := by
  rw [packetBytes_length]
  exact Nat.le_max_right _ _

-- The test of the command id admits every one.
theorem always_numbered (cid : UInt32) : cid ≠ sipCmdWriteMemory ∨ cid ≠ sipCmdBootup ∨ cid ≠ sipCmdWriteReg ∨ cid ≠ sipCmdLoopback := by
  by_cases same : cid = sipCmdWriteMemory
  · right
    left
    rw [same]
    decide
  · exact .inl same

-- What polling and sending do not touch.
def idle : Op → Bool
  | .sdmmcIoRead _ _ _ .reg _ | .sdmmcIoWrite .. | .semTake .sdioMutex _ | .semGive .sdioMutex | .hostGet | .hostSet _
  | .taskDelay _ | .isTxCallback _ | .net80211EnTxdq _ | .espSipTxdPost | .espSipRecycle _ => true
  | .note (.bufferSize _) | .note (.packetSent ..) => true
  | _ => false

structure Same (w w' : World) : Prop where
  mem : w'.mem = w.mem
  sip : w'.sip = w.sip

theorem Same.refl (w : World) : Same w w := ⟨rfl,rfl⟩
theorem Same.trans {one two three : World} (first : Same one two) (second : Same two three) : Same one three :=
  ⟨second.mem.trans first.mem,second.sip.trans first.sip⟩

theorem idle_exec {t : Task} {o : Op} {ans : Ans} {r : o.Answer} {w w' : World} (still : idle o = true)
    (ran : World.exec t o ans w = some (r,w')) : Same w w' := by
  have sip : w'.sip = w.sip := by
    apply sip_kept _ ran
    cases o <;> first | rfl | cases still
  refine ⟨?_,sip⟩
  cases o
  case sdmmcIoRead function addr arg dst size =>
    cases dst with
    | mem p => cases still
    | reg =>
        obtain ⟨_,rfl,_⟩ := read_exec ran
        rfl
  case semTake s wait =>
    cases s
    case sdioMutex =>
      simp only [World.exec] at ran
      split at ran
      · cases ran
        rfl
      · cases ran
    all_goals cases still
  case semGive s =>
    cases s
    case sdioMutex =>
      cases ran
      rfl
    all_goals cases still
  case sdmmcIoWrite | hostGet | hostSet | taskDelay | isTxCallback | net80211EnTxdq | espSipTxdPost | espSipRecycle | note =>
    cases ran
    rfl
  all_goals cases still

section
variable {slave : Slave δ} {t : Task} {w : World} {d : δ}

-- A program of such operations, under a slave that `watch`es none of them.
theorem idle_wp {P : Op → Prop} {p : Code α} {post : α → World × δ → Prop} (all : p.All P)
    (still : ∀ o, P o → idle o = true ∧ ∀ w ans d, slave.answers t w o ans d = some d)
    (rest : ∀ a w', Same w w' → post a (w',d)) : wp (alone slave t) p post (w,d) := by
  apply wp_all (I := fun s => Same w s.1 ∧ s.2 = d) all
  · exact fun _ _ held same => same ▸ held
  · intro o s here held
    refine ⟨trivial,fun r s' acted => ⟨trivial,?_⟩⟩
    obtain ⟨ans,ran,answered⟩ := act_iff.mp acted
    obtain ⟨same,kept⟩ := held
    have unchanged := Option.some.inj (((still o here).2 s.1 ans s.2).symm.trans answered)
    exact ⟨same.trans (idle_exec (still o here).1 ran),unchanged.symm.trans kept⟩
  · exact ⟨Same.refl w,rfl⟩
  · intro a s held
    obtain ⟨w',d'⟩ := s
    obtain ⟨same,kept⟩ := held
    cases kept
    exact rest a w' same

-- Reads of the token register and notes of the buffer size are not recorded.
def PollsIgnored (slave : Slave δ) (t : Task) : Prop :=
  (∀ w f addr arg n ans d, slave.answers t w (.sdmmcIoRead f addr arg .reg n) ans d = some d) ∧
  ∀ w n ans d, slave.answers t w (.note (.bufferSize n)) ans d = some d

theorem wifiSetSeq_wp {m : Mem} {sendBuf : Ptr} {bytes : List UInt8} {post : Unit → World × δ → Prop} (ignores : Ignores slave t)
    (whole : 12 ≤ bytes.length) (built : w.mem = m.write sendBuf bytes)
    (rest : ∀ w', w'.mem = m.write sendBuf (numbered bytes w.sip.txseq) → w'.sip = {w.sip with txseq := w.sip.txseq + 1} → post () (w',d)) :
    wp (alone slave t) (wifiSetSeq sendBuf) post (w,d) := by
  unfold wifiSetSeq espSipIncreaseTxseq sipHdrSetSeq
  simp only [Prog.bind_def,issue_bind,Prog.op_bind,Prog.pure_bind,Prog.pure_def]
  apply load_op ignores
  rw [if_pos (always_numbered _)]
  apply alone_exec (fun _ => ignores _ _ _ _ rfl) (fun _ => rfl)
  apply alone_exec (fun _ => ignores _ _ _ _ rfl) (fun _ => rfl)
  apply store_op ignores
  apply rest
  · show w.mem.write (sendBuf.add 8) (le32 w.sip.txseq) = _
    rw [built,write_at m sendBuf bytes _ (by omega),le32_length]
    rfl
  · rfl

-- One poll: either the credits do not suffice, or the packet is numbered and sent.
theorem wifiSendPoll_wp {m : Mem} {bytes : List UInt8} {l : WifiLocals} {post : Label → World × δ → Prop} (ignores : Ignores slave t)
    (unwatched : PollsIgnored slave t) (whole : 12 ≤ bytes.length) (built : w.mem = m.write l.sendBuf bytes)
    (again : ∀ w', Same w w' → post (.wifiSendPoll l) (w',d))
    (send : ∀ w', w'.mem = m.write l.sendBuf (numbered bytes w.sip.txseq) → w'.sip = {w.sip with txseq := w.sip.txseq + 1} →
      wp (alone slave t) (wifiSendPacket l) post (w',d)) : wp (alone slave t) (wifiSendPoll l) post (w,d) := by
  have quiet : ∀ o, aside o = true → ∀ w ans d, slave.answers t w o ans d = some d := fun o here w ans d => ignores w o ans d here
  let still : Op → Prop := fun o => idle o = true ∧ ∀ w ans d, slave.answers t w o ans d = some d
  have credits : pollCredits.All still :=
    pollCredits_all ⟨rfl,quiet _ rfl⟩ ⟨rfl,quiet _ rfl⟩ ⟨rfl,fun w ans d => unwatched.1 w _ _ _ _ ans d⟩ ⟨rfl,quiet _ rfl⟩
      fun n => ⟨rfl,fun w ans d => unwatched.2 w n ans d⟩
  rw [wifiSendPoll_eq,wp_bind]
  apply idle_wp credits (fun _ here => here)
  intro size w' same
  apply wp_ite
  · intro _
    apply alone_exec (fun _ => quiet _ rfl _ _ _) (fun _ => rfl)
    exact again w' same
  · intro _
    rw [wp_bind]
    apply wifiSetSeq_wp ignores whole (same.mem.trans built)
    intro w'' mem sip
    rw [same.sip] at mem sip
    exact send w'' mem sip

-- A label that is no credit poll ends the iteration.
def ends : Label → Bool
  | .wifiSendPoll _ => false
  | _ => true

theorem polls_ended {label : Label} (ended : ends label = true) (n : Nat) : polls n label = .pure label := by
  cases n with
  | zero => rfl
  | succ n => cases label <;> first | rfl | cases ended

-- The footprint of the polls is that of one poll.
theorem polls_all {P : Op → Prop} {l : WifiLocals} (poll : (wifiSendPoll l).All P) (n : Nat) : (polls n (.wifiSendPoll l)).All P := by
  induction n with
  | zero => exact trivial
  | succ n ih =>
      have shapes : (wifiSendPoll l).Returns fun next => next = .wifiSendPoll l ∨ ends next = true :=
        wifiSendPoll_yields (.inl rfl) (.inr rfl) (.inr rfl)
      apply Prog.All.bind_returns poll shapes
      intro next shape
      cases shape with
      | inl again =>
          rw [again]
          exact ih
      | inr ended =>
          rw [polls_ended ended]
          exact trivial

-- However often the credits are polled, the packet is numbered and sent once.
theorem polls_wp {m : Mem} {bytes : List UInt8} {l : WifiLocals} {post : Label → World × δ → Prop} (ignores : Ignores slave t)
    (unwatched : PollsIgnored slave t) (n : Nat) (whole : 12 ≤ bytes.length) (built : w.mem = m.write l.sendBuf bytes)
    (waiting : ∀ w', Same w w' → post (.wifiSendPoll l) (w',d))
    (send : ∀ w', w'.mem = m.write l.sendBuf (numbered bytes w.sip.txseq) → w'.sip = {w.sip with txseq := w.sip.txseq + 1} →
      wp (alone slave t) (wifiSendPacket l) post (w',d)) : wp (alone slave t) (polls n (.wifiSendPoll l)) post (w,d) := by
  induction n generalizing w with
  | zero => exact waiting w (Same.refl w)
  | succ n ih =>
      rw [polls,wp_bind]
      apply wifiSendPoll_wp ignores unwatched whole built
      · intro w' same
        apply ih (same.mem.trans built)
        · exact fun w'' more => waiting w'' (same.trans more)
        · rw [same.sip]
          exact send
      · intro w' mem sip
        have ended : (wifiSendPacket l).Returns (ends · = true) := by
          rw [wifiSendPacket_eq]
          exact fun _ _ => wifiSendRest_returns rfl rfl
        apply wp_mono (wp_returns ended (send w' mem sip))
        intro label s both
        rw [polls_ended both.1]
        exact both.2

-- One iteration: the packet of the buffer is built, numbered and handed over.
theorem iteration_wp {sendBuf : Ptr} {actualSize : UInt32} {eb : EbPtr} {post : Label → World × δ → Prop} {d' : δ} (ignores : Ignores slave t)
    (unwatched : PollsIgnored slave t)
    (fetched : ∀ ans, slave.answers t (placed w sendBuf (List.replicate sizeofSipHdr 0)) (.esfGet eb) ans d = some d')
    (apart : Apart sendBuf (w.esf eb)) (n : Nat)
    (aborted : sendLen (w.esf eb) w.sip.txBlksz > actualSize → ∀ w', post .aborted (w',d'))
    (waiting : ∀ l w', post (.wifiSendPoll l) (w',d'))
    (send : ¬ sendLen (w.esf eb) w.sip.txBlksz > actualSize → ∀ w',
      w'.mem = w.mem.write sendBuf (numbered (packetBytes w.mem (w.esf eb)) w.sip.txseq) →
      w'.sip = {w.sip with txseq := w.sip.txseq + 1} →
      wp (alone slave t) (wifiSendPacket ⟨sendBuf,actualSize,eb,sendLen (w.esf eb) w.sip.txBlksz⟩) post (w',d')) :
    wp (alone slave t) (iteration n sendBuf actualSize eb) post (w,d) := by
  unfold iteration handleBuffer
  simp only [Prog.bind_def,Prog.pure_def]
  rw [wp_bind,wp_bind]
  apply wifiBuildPacket_wp ignores fetched apart
  apply wp_ite
  · intro above
    show wp _ (polls n .aborted) post _
    rw [polls_ended rfl]
    exact aborted above _
  · intro fits
    show wp _ (polls n (.wifiSendPoll _)) post _
    apply polls_wp ignores unwatched n (packet_whole w.mem (w.esf eb)) rfl
    · exact fun w' _ => waiting _ w'
    · exact send fits

end

end ExtConn.WifiIteration
