import ExtConn.WifiIteration

namespace ExtConn.SequenceNumbers
open Effects ByteMemory WifiPacket WifiIteration

-- A buffer as the task finds it, with the packet it stands for before it is numbered.
structure Queued where
  buf : EsfBuf
  bytes : List UInt8

-- A packet handed over for it: its header, and the counter at that time.
structure Sent where
  queued : Queued
  header : List UInt8
  txseq : UInt32

structure Journal where
  queued : Queued
  sent : List Sent

def journal (sendBuf : Ptr) : Slave Journal where
  answers _ w o _ d := match o with
    | .esfGet eb => some {d with queued := ⟨w.esf eb,packetBytes w.mem (w.esf eb)⟩}
    | .note (.sendPacket ..) => some {d with sent := d.sent ++ [⟨d.queued,w.mem.read sendBuf sizeofSipHdr,w.sip.txseq⟩]}
    | _ => some d
  moves d d' := d' = d

abbrev State := World × Journal

def seqOf (bytes : List UInt8) : UInt32 := (sipHdrOf bytes).seq

-- The commands that the ROM of the slave answers to.
def romCommands : List UInt32 := [sipCmdWriteMemory,sipCmdBootup,sipCmdWriteReg,sipCmdLoopback]

def Queued.IsRomCommand (q : Queued) : Prop := IsCommand q.buf ∧ (sipHdrOf q.bytes).u ∈ romCommands
instance (q : Queued) : Decidable q.IsRomCommand := inferInstanceAs (Decidable (_ ∧ _))

-- Which numbers the packets should carry from the counter `s` on.
def Numbered : UInt32 → List Sent → Prop
  | _,[] => True
  | s,p :: rest =>
    if p.queued.IsRomCommand then seqOf p.header = seqOf p.queued.bytes ∧ p.txseq = s ∧ Numbered s rest
    else seqOf p.header = s ∧ p.txseq = s + 1 ∧ Numbered (s + 1) rest

-- `n` blocks of a task, one after another.
def blocks (cfg : Build) : Nat → Label → Code Label
  | 0,label => .pure label
  | n+1,label => (block cfg label).bind (blocks cfg n)

-- The other tasks may do anything but number packets and write to the send buffer.
def undisturbed (sendBuf : Ptr) (s s' : State) : Prop :=
  s'.1.sip.txseq = s.1.sip.txseq ∧ s'.1.mem sendBuf.blk = s.1.mem sendBuf.blk ∧ s'.2 = s.2

def numbering (sendBuf : Ptr) : Contract signature State where
  act := (journal sendBuf).act .wifiSend
  rely := undisturbed sendBuf
  guar _ _ := True
  safe _ _ := True

-- Every packet so far has drawn its number from the counter.
def Counted (s₀ : UInt32) (sent : List Sent) : Prop :=
  ∀ i p, sent[i]? = some p → seqOf p.header = s₀ + UInt32.ofNat i ∧ p.txseq = s₀ + UInt32.ofNat i + 1

-- The counter stands `ahead` of the packets handed over.
structure Level (s₀ : UInt32) (ahead : Nat) (s : State) : Prop where
  counted : Counted s₀ s.2.sent
  txseq : s.1.sip.txseq = s₀ + UInt32.ofNat (s.2.sent.length + ahead)

theorem level_stable {sendBuf : Ptr} (s s' : State) (level : Level s₀ ahead s) (moved : undisturbed sendBuf s s') : Level s₀ ahead s' := by
  obtain ⟨txseq,_,record⟩ := moved
  constructor
  · rw [record]
    exact level.counted
  · rw [txseq,record]
    exact level.txseq

-- Operations that neither draw a number nor hand a packet over.
def plainOp : Op → Bool
  | .sipSet _ | .note (.sendPacket ..) => false
  | _ => true

theorem plain_recorded {sendBuf : Ptr} {w : World} {o : Op} {ans : Ans} {d d' : Journal} (plain : plainOp o = true)
    (answered : (journal sendBuf).answers t w o ans d = some d') : d'.sent = d.sent := by
  unfold journal at answered
  cases o
  case note n =>
    cases n
    case sendPacket => cases plain
    all_goals
      cases answered
      rfl
  all_goals
    cases answered
    rfl

theorem level_keeps {sendBuf : Ptr} {o : Op} (plain : plainOp o = true) : KeepsOp (numbering sendBuf) (Level s₀ ahead) o := by
  intro s level
  refine ⟨trivial,fun r s' acted => ⟨trivial,?_⟩⟩
  obtain ⟨ans,ran,answered⟩ := act_iff.mp acted
  have sent := plain_recorded plain answered
  have sip : s'.1.sip = s.1.sip := by
    apply sip_kept _ ran
    cases o <;> first | rfl | cases plain
  constructor
  · rw [sent]
    exact level.counted
  · rw [sip,sent]
    exact level.txseq

theorem plain_keeps {sendBuf : Ptr} {p : Code α} (plain : p.All (plainOp · = true)) : Keeps (numbering sendBuf) (Level s₀ ahead) p :=
  (plain.mono fun _ here => level_keeps here).keeps level_stable

section
variable {sendBuf : Ptr} {s₀ : UInt32} {s : State}

theorem numbering_op {o : Op} {next : o.Answer → Code α} {post : α → State → Prop}
    (rest : ∀ s₁, undisturbed sendBuf s s₁ → ∀ ans r w d, World.exec .wifiSend o ans s₁.1 = some (r,w) →
      (journal sendBuf).answers .wifiSend s₁.1 o ans s₁.2 = some d → wp (numbering sendBuf) (next r) post (w,d)) :
    wp (numbering sendBuf) (Prog.op o next : Code α) post s := by
  intro s₁ moved
  refine ⟨trivial,fun r s' acted => ⟨trivial,?_⟩⟩
  obtain ⟨ans,ran,answered⟩ := act_iff.mp acted
  exact rest s₁ moved ans r s'.1 s'.2 ran answered

-- The number drawn last stands in the header.
structure Stamped (s₀ : UInt32) (sendBuf : Ptr) (s : State) : Prop extends Level s₀ 1 s where
  seq : s.1.mem.read (sendBuf.add 8) 4 = le32 (s₀ + UInt32.ofNat s.2.sent.length)

theorem stamped_stable (s s' : State) (stamped : Stamped s₀ sendBuf s) (moved : undisturbed sendBuf s s') : Stamped s₀ sendBuf s' := by
  have block : s'.1.mem (sendBuf.add 8).blk = s.1.mem (sendBuf.add 8).blk := moved.2.1
  have same : s'.1.mem.read (sendBuf.add 8) 4 = s.1.mem.read (sendBuf.add 8) 4 := read_congr fun _ _ => congrFun block _
  refine ⟨level_stable s s' stamped.toLevel moved,?_⟩
  rw [same,moved.2.2]
  exact stamped.seq

theorem wifiSetSeq_stamps {post : Unit → State → Prop} (level : Level s₀ 0 s) (rest : ∀ s', Stamped s₀ sendBuf s' → post () s') :
    wp (numbering sendBuf) (wifiSetSeq sendBuf) post s := by
  unfold wifiSetSeq espSipIncreaseTxseq sipHdrSetSeq
  simp only [Prog.bind_def,issue_bind,Prog.op_bind,Prog.pure_bind,Prog.pure_def]
  apply numbering_op
  intro s₁ moved _ r w d ran answered
  cases ran
  cases answered
  have level₁ := level_stable s s₁ level moved
  rw [if_pos (always_numbered _)]
  apply numbering_op
  intro s₂ moved _ sip w d ran answered
  cases ran
  cases answered
  have level₂ := level_stable _ s₂ level₁ moved
  have drawn : s₂.1.sip.txseq = s₀ + UInt32.ofNat s₂.2.sent.length := level₂.txseq
  apply numbering_op
  intro s₃ moved _ _ w d ran answered
  cases ran
  cases answered
  have level₃ : Level s₀ 1 (({s₃.1 with sip := {s₃.1.sip with txseq := s₂.1.sip.txseq + 1}},s₃.2) : State) := by
    constructor
    · rw [moved.2.2]
      exact level₂.counted
    · show s₂.1.sip.txseq + 1 = s₀ + UInt32.ofNat (s₃.2.sent.length + 1)
      rw [drawn,moved.2.2,UInt32.ofNat_add,UInt32.add_assoc]
      rfl
  have count : s₃.2.sent = s₂.2.sent := by rw [moved.2.2]
  apply numbering_op
  intro s₄ moved _ _ w d ran answered
  cases ran
  cases answered
  have level₄ := level_stable _ s₄ level₃ moved
  apply rest
  refine ⟨⟨level₄.counted,level₄.txseq⟩,?_⟩
  show (s₄.1.mem.write (sendBuf.add 8) (le32 s₂.1.sip.txseq)).read (sendBuf.add 8) 4 = le32 (s₀ + UInt32.ofNat s₄.2.sent.length)
  have same : s₄.2.sent = s₂.2.sent := by rw [moved.2.2,← count]
  rw [read_back _ _ _ (le32_length _),drawn,same]

-- What is handed over carries the number that has been stamped.
theorem handed_over {w : World} {d d' : Journal} {ans : Ans} (stamped : Stamped s₀ sendBuf (w,d))
    (answered : (journal sendBuf).answers .wifiSend w (.note (.sendPacket f p n)) ans d = some d') : Level s₀ 0 (w,d') := by
  cases answered
  let last : Sent := ⟨d.queued,w.mem.read sendBuf sizeofSipHdr,w.sip.txseq⟩
  have txseq : w.sip.txseq = s₀ + UInt32.ofNat d.sent.length + 1 := by
    rw [stamped.txseq,UInt32.ofNat_add,UInt32.add_assoc]
    rfl
  constructor
  · intro i p found
    replace found : (d.sent ++ [last])[i]? = some p := found
    rw [List.getElem?_append] at found
    split at found
    · exact stamped.counted i p found
    · rename_i beyond
      rw [List.getElem?_singleton] at found
      split at found
      · obtain rfl : i = d.sent.length := by omega
        cases found
        refine ⟨?_,txseq⟩
        show UInt32.ofNat (field (w.mem.read sendBuf 12) 8 4) = _
        rw [field_read w.mem sendBuf (by decide),stamped.seq,ofNat_le32]
      · cases found
  · show w.sip.txseq = s₀ + UInt32.ofNat ((d.sent ++ [last]).length + 0)
    rw [txseq,List.length_append,Nat.add_zero,UInt32.ofNat_add,UInt32.add_assoc]
    rfl

-- The labels of a task that works with this buffer.
def Works (sendBuf : Ptr) : Label → Prop
  | .wifiSendLoop p _ => p = sendBuf
  | .wifiSendPoll l => l.sendBuf = sendBuf
  | .returned | .aborted => True
  | _ => False

theorem wifiSendPacket_level (l : WifiLocals) (stamped : Stamped s₀ sendBuf s) :
    wp (numbering sendBuf) (wifiSendPacket l) (fun _ => Level s₀ 0) s := by
  rw [wifiSendPacket_eq]
  apply numbering_op
  intro s₁ moved ans _ w d ran answered
  obtain ⟨w₁,d₁⟩ := s₁
  have stamped₁ := stamped_stable s _ stamped moved
  have same := idle_exec rfl ran
  cases answered
  have stamped₂ : Stamped s₀ sendBuf (w,d₁) := by
    refine ⟨⟨stamped₁.counted,?_⟩,?_⟩
    · rw [same.sip]
      exact stamped₁.txseq
    · rw [same.mem]
      exact stamped₁.seq
  apply numbering_op
  intro s₂ moved _ _ w' d' ran answered
  obtain ⟨w₂,d₂⟩ := s₂
  cases ran
  have level := handed_over (stamped_stable _ _ stamped₂ moved) answered
  have rest : (wifiSendRest l).All (plainOp · = true) :=
    wifiSendRest_all (P := (plainOp · = true)) (fun _ _ _ => rfl) rfl rfl (fun _ => rfl) rfl rfl rfl rfl rfl
  exact plain_keeps rest _ level

theorem wifiSendPoll_level (l : WifiLocals) (mine : l.sendBuf = sendBuf) (level : Level s₀ 0 s) :
    wp (numbering sendBuf) (wifiSendPoll l) (fun _ => Level s₀ 0) s := by
  have credits : pollCredits.All (plainOp · = true) := pollCredits_all (P := (plainOp · = true)) rfl rfl rfl rfl fun _ => rfl
  rw [wifiSendPoll_eq,wp_bind]
  apply wp_mono (plain_keeps credits _ level)
  intro size s₁ level₁
  apply wp_ite
  · intro _
    have delay : (Prog.op (.taskDelay 2) fun _ => .pure (Label.wifiSendPoll l) : Code Label).All (plainOp · = true) := ⟨rfl,fun _ => trivial⟩
    exact plain_keeps delay _ level₁
  · intro _
    rw [wp_bind,mine]
    apply wifiSetSeq_stamps level₁
    exact fun s₂ stamped => wifiSendPacket_level l stamped

theorem wifiSendLoop_level (actualSize : UInt32) (level : Level s₀ 0 s) :
    wp (numbering sendBuf) (wifiSendLoop sendBuf actualSize) (fun _ => Level s₀ 0) s := by
  have build : ∀ eb, (wifiBuildPacket sendBuf eb).All (plainOp · = true) := fun eb =>
    wifiBuildPacket_all (P := (plainOp · = true)) rfl (fun _ => rfl) (fun _ _ => rfl) (fun _ _ => rfl) sendBuf eb
  have loop : (wifiSendLoop sendBuf actualSize).All (plainOp · = true) := by
    rw [wifiSendLoop_handles]
    refine ⟨rfl,fun _ => ⟨rfl,fun eb => Prog.All.ite (fun _ => trivial) fun _ => ?_⟩⟩
    exact Prog.All.bind (build eb) fun _ => Prog.All.ite (fun _ => trivial) fun _ => trivial
  exact plain_keeps loop _ level

theorem wifiSendLoop_works (actualSize : UInt32) : (wifiSendLoop sendBuf actualSize).Returns (Works sendBuf) :=
  fun _ _ => Prog.Returns.ite rfl (Prog.Returns.bind fun _ => Prog.Returns.ite trivial rfl)

-- One block of the task, and from it every run.
theorem block_level (cfg : Build) {label : Label} (works : Works sendBuf label) (level : Level s₀ 0 s) :
    wp (numbering sendBuf) (block cfg label) (fun next s => Works sendBuf next ∧ Level s₀ 0 s) s := by
  cases label with
  | wifiSendLoop p actualSize =>
      cases works
      exact wp_returns (wifiSendLoop_works actualSize) (wifiSendLoop_level actualSize level)
  | wifiSendPoll l => exact wp_returns (wifiSendPoll_yields works trivial works) (wifiSendPoll_level l works level)
  | returned | aborted => exact ⟨trivial,level⟩
  | _ => cases works

theorem blocks_level (cfg : Build) (n : Nat) {label : Label} (works : Works sendBuf label) (level : Level s₀ 0 s) :
    wp (numbering sendBuf) (blocks cfg n label) (fun _ => Level s₀ 0) s := by
  induction n generalizing label s with
  | zero => exact level
  | succ n ih =>
      rw [blocks,wp_bind]
      apply wp_mono (block_level cfg works level)
      intro next s' both
      exact ih both.1 both.2

end

-- Without a command for the ROM, numbers from the counter are what is asked for.
theorem counted_numbered {s₀ : UInt32} {sent : List Sent} (counted : Counted s₀ sent) (ordinary : ∀ p ∈ sent, ¬ p.queued.IsRomCommand) :
    Numbered s₀ sent := by
  induction sent generalizing s₀ with
  | nil => trivial
  | cons p rest ih =>
      obtain ⟨seq,txseq⟩ := counted 0 p rfl
      have first : s₀ + UInt32.ofNat 0 = s₀ := UInt32.add_zero s₀
      rw [first] at seq txseq
      rw [Numbered,if_neg (ordinary p List.mem_cons_self)]
      refine ⟨seq,txseq,ih (fun i q found => ?_) fun q member => ordinary q (List.mem_cons_of_mem p member)⟩
      have next : s₀ + UInt32.ofNat (i + 1) = s₀ + 1 + UInt32.ofNat i := by
        rw [UInt32.ofNat_add,UInt32.add_comm (UInt32.ofNat i),← UInt32.add_assoc]
        rfl
      have both := counted (i + 1) q found
      rw [next] at both
      exact both

-- Every run of the task, from any counter, over whatever has been queued.
theorem packets_numbered (cfg : Build) (n : Nat) (sendBuf : Ptr) (actualSize : UInt32) (q : Queued) {w : World} {s' : State}
    (run : Runs (undisturbed sendBuf) ((journal sendBuf).act .wifiSend) (blocks cfg n (.wifiSendLoop sendBuf actualSize)) (w,⟨q,[]⟩) trace label s')
    (ordinary : ∀ p ∈ s'.2.sent, ¬ p.queued.IsRomCommand) : Numbered w.sip.txseq s'.2.sent := by
  have start : Level w.sip.txseq 0 ((w,⟨q,[]⟩) : State) := ⟨fun _ _ found => absurd found (by simp),(UInt32.add_zero _).symm⟩
  have loop : Works sendBuf (.wifiSendLoop sendBuf actualSize) := rfl
  have level := wp_runs (C := numbering sendBuf) (fun _ => level_stable) (blocks_level cfg n loop start) run
  exact counted_numbered level.counted ordinary

instance Numbered.decide : ∀ (s : UInt32) (sent : List Sent), Decidable (Numbered s sent)
  | _,[] => .isTrue trivial
  | s,p :: rest =>
    have := Numbered.decide s rest
    have := Numbered.decide (s + 1) rest
    inferInstanceAs (Decidable (if p.queued.IsRomCommand then seqOf p.header = seqOf p.queued.bytes ∧ p.txseq = s ∧ Numbered s rest
      else seqOf p.header = s ∧ p.txseq = s + 1 ∧ Numbered (s + 1) rest))

-- Buffers in the list, with the counter at seven and three free buffers told.
def headerOnly : EsfBuf := .holding esfBufTxSip ⟨3,0⟩ 12 0

def waiting (last : EbPtr) (cid : UInt8) : World :=
  {World.initial {espSipInit with txseq := 7,txBlksz := 512} with
    mem := Mem.write (fun _ _ => 0) ⟨3,0⟩ [0,0,12,0,cid]
    esf := fun eb => if eb = 2 then (EsfBuf.holding 0 ⟨4,0⟩ 4 4).described 1 0 0 0 else headerOnly
    wifiTx := ⟨1,last,fun eb => if eb = last then nullEb else eb + 1,true⟩}

abbrev sendBuffer : Ptr := ⟨2,0⟩

theorem packets_run (last : EbPtr) (cid : UInt8) (n : Nat) (test : List Sent → Bool) (passed : (execute ((journal sendBuffer).exec .wifiSend)
      (blocks ⟨true,false⟩ n (.wifiSendLoop sendBuffer wifiSendBufferLen)) (List.replicate (22 * n) {data := [0,0,3,0]})
        (waiting last cid,⟨⟨headerOnly,[]⟩,[]⟩)).any (fun result => test result.2.2.2.sent) = true) :
    ∃ trace label s', Runs (undisturbed sendBuffer) ((journal sendBuffer).act .wifiSend)
      (blocks ⟨true,false⟩ n (.wifiSendLoop sendBuffer wifiSendBufferLen)) (waiting last cid,⟨⟨headerOnly,[]⟩,[]⟩) trace label s' ∧
      test s'.2.sent = true :=
  slave_executes (journal sendBuffer) .wifiSend (fun _ => ⟨rfl,rfl,rfl⟩) _ _ _ (fun _ s => test s.2.sent) passed

-- Two `SIP_CMD_CONFIG` and between them a data packet, in which the word of the
-- command holds `SIP_CMD_WRITE_MEMORY`.
theorem config_numbered : ∃ trace label s', Runs (undisturbed sendBuffer) ((journal sendBuffer).act .wifiSend)
    (blocks ⟨true,false⟩ 6 (.wifiSendLoop sendBuffer wifiSendBufferLen)) (waiting 3 10,⟨⟨headerOnly,[]⟩,[]⟩) trace label s' ∧
    s'.2.sent.map (fun p => ((sipHdrOf p.header).u,seqOf p.header)) = [(sipCmdConfig,7),(sipCmdWriteMemory,8),(sipCmdConfig,9)] ∧
    Numbered 7 s'.2.sent := by
  obtain ⟨trace,label,s',run,passed⟩ := packets_run 3 10 6 (fun sent =>
    decide (sent.map (fun p => ((sipHdrOf p.header).u,seqOf p.header)) = [(sipCmdConfig,7),(sipCmdWriteMemory,8),(sipCmdConfig,9)] ∧
      ∀ p ∈ sent, ¬ p.queued.IsRomCommand)) (by decide +kernel)
  obtain ⟨three,ordinary⟩ := of_decide_eq_true passed
  exact ⟨trace,label,s',run,three,packets_numbered _ _ _ _ _ run ordinary⟩

-- A `SIP_CMD_WRITE_MEMORY` is numbered too.
theorem write_memory_misnumbered : ¬ ∀ (cfg : Build) (n : Nat) (sendBuf : Ptr) (actualSize : UInt32) (q : Queued) (w : World) (s' : State)
    (trace : List Op) (label : Label), Runs (undisturbed sendBuf) ((journal sendBuf).act .wifiSend)
      (blocks cfg n (.wifiSendLoop sendBuf actualSize)) (w,⟨q,[]⟩) trace label s' → Numbered w.sip.txseq s'.2.sent := by
  intro every
  obtain ⟨trace,label,s',run,passed⟩ := packets_run 1 1 2 (fun sent => decide ¬ Numbered 7 sent) (by decide +kernel)
  have wrong : ¬ Numbered 7 s'.2.sent := of_decide_eq_true passed
  exact wrong (every _ _ _ _ _ _ _ _ _ run)

end ExtConn.SequenceNumbers
