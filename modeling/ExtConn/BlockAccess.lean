import ExtConn.Footprint

namespace ExtConn
open Effects ByteMemory

-- The block that an operation reads, writes or frees; what is called with a
-- packet reads the packet.
def Op.block : Op → Option Nat
  | .load p _ | .store p _ | .free p | .allocatedSize p => some p.blk
  | .sdmmcIoRead _ _ _ (.mem p) _ | .sdmmcIoWrite _ _ _ (.mem p) _ => some p.blk
  | .sipRxProcess buf _ | .notifyHostRecv buf _ => some buf.blk
  | _ => none

-- Operations by which a block changes hands, and those that have none to work on.
def Op.handles : Op → Bool
  | .malloc _ | .calloc _ | .free _ | .queueSend _ _ | .queueReceive | .wifiStackCall | .esfBufAlloc _ _ | .derefNull _
  | .net80211EnTxdq _ | .espSipRecycle _ | .sipSet (.rawbuf _) => true
  | o => movesList o

def Op.null : Op → Bool
  | .derefNull _ => true
  | _ => false

def Op.reads : Op → Bool
  | .load _ _ => true
  | _ => false

-- What a task may do with the blocks it owns and those lent to it for reading.
def within (own lent : Set Nat) (o : Op) : Prop :=
  o.handles = false ∧ ∀ b, o.block = some b → b ∈ own ∨ (o.reads = true ∧ b ∈ lent)

section
variable {own lent : Set Nat}

theorem within_plain {o : Op} (plain : o.handles = false) (none : o.block = none) : within own lent o :=
  ⟨plain,fun b some => by rw [none] at some; cases some⟩

theorem within_block {o : Op} (plain : o.handles = false) (block : o.block = some b) (owned : b ∈ own) : within own lent o := by
  refine ⟨plain,fun b' some => .inl ?_⟩
  rw [block] at some
  cases some
  exact owned

theorem within_load {p : Ptr} (owned : p.blk ∈ own) (n k : Nat) : within own lent (.load (p.add n) k) := within_block rfl rfl owned

theorem within_store {p : Ptr} (owned : p.blk ∈ own) (n : Nat) (bytes : List UInt8) : within own lent (.store (p.add n) bytes) :=
  within_block rfl rfl owned

theorem within_lent {p : Ptr} (known : p.blk ∈ lent) (n : Nat) : within own lent (.load p n) := by
  refine ⟨rfl,fun b some => .inr ⟨rfl,?_⟩⟩
  cases some
  exact known

-- Transfers stay in the block that they start in.
theorem getPacketChunks_within {start : Ptr} (owned : start.blk ∈ own) (function : UInt32) (fuel : Nat) (len : UInt32) :
    (getPacketChunks function fuel start len).All (within own lent) := by
  induction fuel generalizing start len with
  | zero => trivial
  | succ fuel ih =>
      unfold getPacketChunks
      simp only [Prog.bind_def,Prog.pure_def,Prog.pure_bind]
      refine Prog.All.ite (fun _ => Prog.All.bind ?_ fun err => ?_) fun single => ?_
      · unfold extconnSdioReadBlocks
        exact Prog.All.ite (fun _ => trivial) fun _ => ⟨within_block rfl rfl owned,fun _ => trivial⟩
      · exact Prog.All.ite (fun _ => trivial) fun _ => Prog.All.ite (fun _ => @ih (start.add _) owned _) fun _ => trivial
      · rw [no_blocks] at single
        rw [if_neg (by rw [no_blocks]; exact single),roundFour_def]
        refine Prog.All.bind (readRounded_all (by omega) (within_block rfl rfl owned)) fun result => ?_
        exact Prog.All.ite (fun _ => trivial) fun _ => Prog.All.ite (fun _ => @ih (start.add _) owned _) fun _ => trivial

theorem sendPacketChunks_within {start : Ptr} (owned : start.blk ∈ own) (function addr : UInt32) (fuel : Nat) (len : UInt32) :
    (sendPacketChunks function addr fuel start len).All (within own lent) := by
  induction fuel generalizing start len with
  | zero => trivial
  | succ fuel ih =>
      unfold sendPacketChunks
      simp only [Prog.bind_def,Prog.pure_def]
      refine Prog.All.ite (fun _ => Prog.All.bind ?_ fun err => ?_) fun single => ?_
      · unfold extconnSdioWriteBlocks
        exact Prog.All.ite (fun _ => trivial) fun _ => ⟨within_block rfl rfl owned,fun _ => trivial⟩
      · exact Prog.All.ite (fun _ => trivial) fun _ => Prog.All.ite (fun _ => @ih (start.add _) owned _) fun _ => trivial
      · rw [no_blocks] at single
        rw [if_neg (by rw [no_blocks]; exact single),roundFour_def]
        refine Prog.All.bind (writeRounded_all (by omega) (within_block rfl rfl owned)) fun err => ?_
        exact Prog.All.ite (fun _ => trivial) fun _ => Prog.All.ite (fun _ => @ih (start.add _) owned _) fun _ => trivial

theorem getPacketWait_within (function waitMs : UInt32) (fuel : Nat) (waitTime : UInt32) :
    (getPacketWait function waitMs fuel waitTime).All (within own lent) :=
  getPacketWait_all (fun _ _ => within_plain rfl rfl) (within_plain rfl rfl) (within_plain rfl rfl) _ _ _ _

theorem getPacket_within {outBuf : Ptr} (owned : outBuf.blk ∈ own) (function size waitMs : UInt32) :
    (espExtconnSdioGetPacket function outBuf size waitMs).All (within own lent) := by
  unfold espExtconnSdioGetPacket
  refine Prog.All.ite (fun _ => trivial) fun _ => Prog.All.bind (getPacketWait_within _ _ _ _) fun result => ?_
  refine Prog.All.ite (fun _ => trivial) fun _ => Prog.All.bind (getPacketChunks_within owned _ _ _) fun err => ?_
  refine Prog.All.ite (fun _ => trivial) fun _ => Prog.All.ite (fun _ => ?_) fun _ => trivial
  exact ⟨within_plain rfl rfl,fun _ => ⟨within_plain rfl rfl,fun _ => trivial⟩⟩

theorem sendPacket_within {start : Ptr} (owned : start.blk ∈ own) (function length : UInt32) :
    (espExtconnSdioSendPacket function start length).All (within own lent) := by
  rw [sendPacket_eq]
  refine ⟨within_plain rfl rfl,fun _ => Prog.All.bind (sendPacketChunks_within owned _ _ _ _) fun err => ?_⟩
  exact afterChunks_all (within_plain rfl rfl) (within_plain rfl rfl) (fun _ _ => within_plain rfl rfl) err

theorem memcpy_within (dst : Ptr) {src : Ptr} (written : dst.blk ∈ own) (read : src.blk ∈ own ∨ src.blk ∈ lent) (n : Nat) :
    (memcpy dst src n).All (within own lent) := by
  refine ⟨?_,fun _ => ⟨within_block rfl rfl written,fun _ => trivial⟩⟩
  rcases read with owned | known
  · exact within_block rfl rfl owned
  · exact within_lent known n

theorem setType_within {shdr : Ptr} (owned : shdr.blk ∈ own) (type : UInt8) : (sipHdrSetType shdr type).All (within own lent) :=
  ⟨within_load owned 0 _,fun _ => ⟨within_store owned 0 _,fun _ => trivial⟩⟩

theorem setSync_within {shdr : Ptr} (owned : shdr.blk ∈ own) : (sipHdrSetSync shdr).All (within own lent) :=
  ⟨within_load owned 1 _,fun _ => ⟨within_store owned 1 _,fun _ => trivial⟩⟩

-- The packet of a buffer is read from where the buffer keeps it.
def payload (b : EsfBuf) : Ptr := if b.type = esfBufTxSip ∨ b.type = esfBufTxSipTest then b.bufBegin else b.dsBuf

theorem fillPacket_within {sendBuf : Ptr} {b : EsfBuf} (written : sendBuf.blk ∈ own) (read : (payload b).blk ∈ own) :
    (wifiFillPacket sendBuf b).All (within own lent) := by
  have type : ∀ x, (sipHdrSetType sendBuf x).All (within own lent) := setType_within written
  have sync : (sipHdrSetSync sendBuf).All (within own lent) := setSync_within written
  unfold wifiFillPacket sipHdrSetLen espSipGetTxBlks
  simp only [Prog.bind_def,issue_bind,Prog.op_bind,Prog.pure_bind,Prog.pure_def]
  refine ⟨within_plain rfl rfl,fun _ => Prog.All.ite (fun sip => ?_) fun data => ?_⟩
  · rw [payload,if_pos sip] at read
    refine Prog.All.bind (memcpy_within sendBuf written (.inl read) _) fun _ => Prog.All.bind (type _) fun _ => ?_
    exact Prog.All.bind sync fun _ => trivial
  · rw [payload,if_neg data] at read
    refine Prog.All.bind (type _) fun _ => Prog.All.bind sync fun _ => ?_
    refine ⟨within_store written 2 _,fun _ => ⟨within_store written 4 _,fun _ => ⟨within_store written 5 _,fun _ => ?_⟩⟩⟩
    refine ⟨within_load written 6 _,fun _ => ⟨within_store written 6 _,fun _ => ⟨within_load written 6 _,fun _ => ?_⟩⟩⟩
    refine ⟨within_store written 6 _,fun _ => ⟨within_store written 7 _,fun _ => ?_⟩⟩
    exact Prog.All.bind (memcpy_within (sendBuf.add sizeofSipHdr) written (.inl read) _) fun _ => trivial

theorem setSeq_within {sendBuf : Ptr} (owned : sendBuf.blk ∈ own) : (wifiSetSeq sendBuf).All (within own lent) := by
  unfold wifiSetSeq espSipIncreaseTxseq sipHdrSetSeq
  simp only [Prog.bind_def,issue_bind,Prog.op_bind,Prog.pure_bind,Prog.pure_def]
  refine ⟨within_load owned 4 _,fun _ => Prog.All.ite (fun _ => ?_) fun _ => trivial⟩
  exact ⟨within_plain rfl rfl,fun _ => ⟨within_plain rfl rfl,fun _ => ⟨within_store owned 8 _,fun _ => trivial⟩⟩⟩

end
end ExtConn
