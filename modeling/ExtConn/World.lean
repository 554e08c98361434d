import ExtConn.ByteMemory
import ExtConn.Interleaving
import ExtConn.WifiTxList

namespace ExtConn
open Effects ByteMemory

-- The tasks of the running component: the receive task, the two transmit
-- tasks, the task that boots the slave, and the two callers of the transmit
-- entry points (Bluetooth host and Wi-Fi stack).
inductive Task where
  | transRecv | wifiSend | btTx | appMain | btHost | wifiStack
  deriving DecidableEq, Repr

inductive SipState where
  | init | prepareBoot | boot | sendInit | waitBootup | run | suspend | stop
  deriving DecidableEq, Repr

structure EspSip where
  rxseq : UInt32
  txseq : UInt32
  state : SipState
  rawbuf : Option Ptr
  txBlksz : UInt16
  rxBlksz : UInt16
  creditToReserve : UInt32
  noiseFloor : UInt32
  wifiAddr : List UInt8
  deriving DecidableEq

inductive SipAssign where
  | rxseq (value : UInt32)
  | txseq (value : UInt32)
  | state (value : SipState)
  | rawbuf (value : Option Ptr)
  | txBlksz (value : UInt16)
  | rxBlksz (value : UInt16)
  | creditToReserve (value : UInt32)
  | noiseFloor (value : UInt32)
  | wifiAddr (value : List UInt8)
  deriving DecidableEq

def SipAssign.apply : SipAssign → EspSip → EspSip
  | .rxseq value,s => {s with rxseq := value}
  | .txseq value,s => {s with txseq := value}
  | .state value,s => {s with state := value}
  | .rawbuf value,s => {s with rawbuf := value}
  | .txBlksz value,s => {s with txBlksz := value}
  | .rxBlksz value,s => {s with rxBlksz := value}
  | .creditToReserve value,s => {s with creditToReserve := value}
  | .noiseFloor value,s => {s with noiseFloor := value}
  | .wifiAddr value,s => {s with wifiAddr := value}

structure SdioHost where
  totalTx : UInt32
  totalRx : UInt32
  deriving DecidableEq

inductive HostAssign where
  | totalTx (value : UInt32)
  | totalRx (value : UInt32)
  deriving DecidableEq

def HostAssign.apply : HostAssign → SdioHost → SdioHost
  | .totalTx value,h => {h with totalTx := value}
  | .totalRx value,h => {h with totalRx := value}

-- The fields of `esf_buf_t`, its first descriptor and its transmit descriptor
-- that the transmit path reads.
structure EsfBuf where
  type : UInt8
  bufBegin : Ptr
  dataLen : UInt16
  dsBuf : Ptr
  dsLength : Fin 4096
  flags : UInt32
  tid : Fin 16
  ac : Fin 16
  cryptoType : Fin 16
  kid : UInt8
  compCbMap : UInt32
  deriving DecidableEq

structure TxMsg where
  data : Option Ptr
  len : UInt32
  deriving DecidableEq

inductive Sem where
  | sdioMutex | txSem | bootSem
  deriving DecidableEq, Repr

-- `boot_sem` over its life.
inductive BootSem where
  | null
  | alive (count : Nat)
  | deleted
  deriving DecidableEq, Repr

-- The flags that the callers of `sdmmc_io_rw_extended` put into its argument.
structure Cmd53Arg where
  blockMode : Bool := false
  increment : Bool := false
  deriving DecidableEq, Repr

-- Where a transfer puts or takes its bytes: memory, or a local variable.
inductive Dst where
  | mem (p : Ptr)
  | reg
  deriving DecidableEq

inductive Src where
  | mem (p : Ptr)
  | reg (bytes : List UInt8)
  deriving DecidableEq

def Dst.add : Dst → Nat → Dst
  | .mem p,n => .mem (p.add n)
  | .reg,_ => .reg

def Src.add : Src → Nat → Src
  | .mem p,n => .mem (p.add n)
  | .reg bytes,n => .reg (bytes.drop n)

-- `vTaskDelay` of `pdMS_TO_TICKS(n)` or of a number of ticks; a bare numeral is
-- the former.
inductive Delay where
  | ms (n : Nat)
  | ticks (n : Nat)
  deriving DecidableEq

instance : OfNat Delay n := ⟨.ms n⟩

-- Points of the source that runs are read back by; they do nothing.
inductive Note where
  | sipCmd (cid : UInt32)
  | sendPacket (function : UInt32) (start : Ptr) (length : UInt32)
  | packetSent (function length : UInt32)
  | bufferSize (size : UInt32)
  | parseEvents (buf : Ptr)
  | bootWrongState
  deriving DecidableEq

inductive StackCall where
  | cmd (cid cmdlen : UInt32) (cmd : Option Ptr)
  | data (eb : EbPtr)
  deriving DecidableEq

-- `sdmmc_io_rw_extended` is split by direction. The list operations are atomic
-- under `list_lock`. Memory, the fields of `sip` and `host`, and the external
-- functions are operations of their own, so that other tasks can run between.
-- `derefNull` is an access of `n` bytes at a NULL pointer.
inductive Op where
  | sdmmcIoRead (function addr : UInt32) (arg : Cmd53Arg) (dst : Dst) (size : UInt32)
  | sdmmcIoWrite (function addr : UInt32) (arg : Cmd53Arg) (src : Src) (size : UInt32)
  | sdmmcIoWaitInt (wait : Option UInt32)
  | sdmmcIoReadByte (function addr : UInt32)
  | sdmmcIoWriteByte (function addr : UInt32) (value : UInt8)
  | sdmmcSendCmdGoIdleState
  | sdmmcCardInit
  | sdPwrCtrlNewOnChipLdo
  | sdmmcHostInit
  | sdmmcHostInitSlot
  | semTake (s : Sem) (wait : Option UInt32)
  | semGive (s : Sem)
  | createBootSem
  | deleteBootSem
  | queueReceive
  | queueSend (msg : TxMsg) (wait : UInt32)
  | listWaitItem
  | listRemove
  | listInsert (eb : EbPtr)
  | listHeadInsert (eb : EbPtr)
  | listClear
  | taskDelay (wait : Delay)
  | malloc (size : UInt32)
  | calloc (size : UInt32)
  | free (p : Ptr)
  | allocatedSize (p : Ptr)
  | load (p : Ptr) (n : Nat)
  | store (p : Ptr) (bytes : List UInt8)
  | derefNull (n : Nat)
  | sipGet
  | sipSet (a : SipAssign)
  | hostGet
  | hostSet (a : HostAssign)
  | esfGet (eb : EbPtr)
  | esfBufAlloc (type : UInt8) (len : UInt16)
  | isTxCallback (eb : EbPtr)
  | net80211EnTxdq (eb : EbPtr)
  | espSipTxdPost
  | espSipRecycle (eb : EbPtr)
  | sipRxProcess (buf : Ptr) (len : UInt32)
  | coexSchmStatusSet (wifiSt bleSt btSt : UInt16)
  | hostRecvRegistered
  | notifyHostRecv (buf : Ptr) (len : UInt32)
  | unspecified (n : Nat)
  | btHostCall
  | wifiStackCall
  | note (n : Note)
  deriving DecidableEq

abbrev Op.Answer : Op → Type
  | .sdmmcIoRead .. => EspErr × List UInt8
  | .sdmmcIoReadByte .. | .sdmmcIoWriteByte .. => EspErr × UInt8
  | .sdmmcIoWrite .. | .sdmmcIoWaitInt _ | .sdmmcSendCmdGoIdleState | .sdmmcCardInit | .sdPwrCtrlNewOnChipLdo
  | .sdmmcHostInit | .sdmmcHostInitSlot => EspErr
  | .semTake .. | .createBootSem | .queueSend .. | .isTxCallback _ | .hostRecvRegistered => Bool
  | .queueReceive => Option TxMsg
  | .listRemove | .esfBufAlloc .. => EbPtr
  | .listInsert _ | .listHeadInsert _ => EspErr
  | .listClear => List EbPtr
  | .malloc _ | .calloc _ => Option Ptr
  | .allocatedSize _ => UInt32
  | .load .. | .derefNull _ | .unspecified _ | .btHostCall => List UInt8
  | .sipGet => EspSip
  | .hostGet => SdioHost
  | .esfGet _ => EsfBuf
  | .wifiStackCall => StackCall
  | _ => Unit

abbrev signature : Signature := ⟨Op,Op.Answer⟩
abbrev Code (α : Type) := Prog signature α

structure World where
  sip : EspSip
  host : SdioHost
  mem : Mem
  blocks : Nat → Option Nat
  fresh : Nat
  sdioMutex : Option Task
  bootSem : BootSem
  txSem : Nat
  txQue : List TxMsg
  wifiTx : WifiTx
  esf : EbPtr → EsfBuf
  hostRecv : Bool

-- What the outside resolves: the result of a transfer and the bytes the slave
-- puts on the bus, whether an allocation or a timed wait succeeds, and the
-- arguments of calls from above. Defaults are those of an undisturbed run.
structure Ans where
  err : EspErr := .ok
  data : List UInt8 := []
  flag : Bool := true
  word : UInt32 := 0
  num : Nat := 0
  call : StackCall := .data nullEb
  deriving DecidableEq

def Dst.put : Dst → List UInt8 → Mem → Mem
  | .mem p,bytes,m => m.write p bytes
  | .reg,_,m => m

def Src.get : Src → Nat → Mem → List UInt8
  | .mem p,n,m => m.read p n
  | .reg bytes,n,_ => bytes.take n

-- The drop condition of `list_clear`.
def World.dropOnClear (w : World) (eb : EbPtr) : Bool :=
  let b := w.esf eb
  let cmdid := UInt32.ofNat (leNat (w.mem.read (b.bufBegin.add 4) 4))
  b.type = esfBufTxPb || (b.type = esfBufTxSip && cmdid = sipCmdConfig) ||
    ((b.type = esfBufMgmtSbuf || b.type = esfBufMgmtLbuf) && b.compCbMap = 1 <<< ppTxcbScanProbereqId)

def World.alloc (w : World) (size : UInt32) : Ptr × World :=
  (⟨w.fresh,0⟩,{w with fresh := w.fresh + 1,blocks := Function.update w.blocks w.fresh (some size.toNat)})

-- One operation. A failed read may have delivered a prefix of its bytes. Taking
-- a semaphore without a token is blocked; `boot_sem` is taken with a timeout,
-- which can only expire while the count is zero. Giving the mutex or a
-- semaphore out of turn is not refused here: the invariants speak about it.
-- Nor is an access at NULL, which the processor does not survive: the run goes
-- on with unknown bytes and the memory as it was.
def World.exec (t : Task) : (o : Op) → Ans → World → Option (o.Answer × World)
  | .sdmmcIoRead _ _ _ dst size,ans,w =>
    if (if ans.err = .ok then ans.data.length = size.toNat else ans.data.length ≤ size.toNat) then
      some ((ans.err,ans.data),{w with mem := dst.put ans.data w.mem})
    else none
  | .sdmmcIoWrite _ _ _ _ _,ans,w => some (ans.err,w)
  | .sdmmcIoWaitInt _,ans,w => some (ans.err,w)
  | .sdmmcIoReadByte _ _,ans,w => some ((ans.err,ans.word.toUInt8),w)
  | .sdmmcIoWriteByte _ _ _,ans,w => some ((ans.err,ans.word.toUInt8),w)
  | .sdmmcSendCmdGoIdleState,ans,w => some (ans.err,w)
  | .sdmmcCardInit,ans,w => some (ans.err,w)
  | .sdPwrCtrlNewOnChipLdo,ans,w => some (ans.err,w)
  | .sdmmcHostInit,ans,w => some (ans.err,w)
  | .sdmmcHostInitSlot,ans,w => some (ans.err,w)
  | .semTake .sdioMutex _,_,w => if w.sdioMutex = none then some (true,{w with sdioMutex := some t}) else none
  | .semTake .txSem _,_,w => if 0 < w.txSem then some (true,{w with txSem := w.txSem - 1}) else none
  | .semTake .bootSem _,ans,w =>
    match w.bootSem with
    | .alive 0 => if ans.flag then none else some (false,w)
    | .alive (n+1) => some (true,{w with bootSem := .alive n})
    | _ => some (false,w)
  | .semGive .sdioMutex,_,w => some ((),{w with sdioMutex := none})
  | .semGive .txSem,_,w => some ((),{w with txSem := min 1 (w.txSem + 1)})
  | .semGive .bootSem,_,w =>
    match w.bootSem with
    | .alive n => some ((),{w with bootSem := .alive (min 1 (n + 1))})
    | _ => some ((),w)
  | .createBootSem,ans,w => some (ans.flag,{w with bootSem := if ans.flag then .alive 0 else .null})
  | .deleteBootSem,_,w =>
    match w.bootSem with
    | .alive _ => some ((),{w with bootSem := .deleted})
    | _ => some ((),w)
  | .queueReceive,_,w =>
    match w.txQue with
    | [] => none
    | msg :: rest => some (some msg,{w with txQue := rest})
  | .queueSend msg _,_,w => if w.txQue.length < 25 then some (true,{w with txQue := w.txQue ++ [msg]}) else some (false,w)
  | .listWaitItem,_,w => if w.wifiTx.listEvent then some ((),w) else none
  | .listRemove,_,w => some ((listRemove w.wifiTx).1,{w with wifiTx := (listRemove w.wifiTx).2})
  | .listInsert eb,_,w => some ((listInsert eb w.wifiTx).1,{w with wifiTx := (listInsert eb w.wifiTx).2})
  | .listHeadInsert eb,_,w => some ((listHeadInsert eb w.wifiTx).1,{w with wifiTx := (listHeadInsert eb w.wifiTx).2})
  | .listClear,ans,w => (listClear w.dropOnClear ans.num w.wifiTx).map fun (recycled,q) => (recycled,{w with wifiTx := q})
  | .taskDelay _,_,w => some ((),w)
  | .malloc size,ans,w => if ans.flag then some (some (w.alloc size).1,(w.alloc size).2) else some (none,w)
  | .calloc size,ans,w =>
    if ans.flag then
      let (p,w) := w.alloc size
      some (some p,{w with mem := w.mem.write p (List.replicate size.toNat 0)})
    else some (none,w)
  | .free p,_,w => some ((),{w with blocks := Function.update w.blocks p.blk none})
  | .allocatedSize p,ans,w => if ∀ n, w.blocks p.blk = some n → n ≤ ans.word.toNat then some (ans.word,w) else none
  | .load p n,_,w => some (w.mem.read p n,w)
  | .store p bytes,_,w => some ((),{w with mem := w.mem.write p bytes})
  | .derefNull n,ans,w => if ans.data.length = n then some (ans.data,w) else none
  | .sipGet,_,w => some (w.sip,w)
  | .sipSet a,_,w => some ((),{w with sip := a.apply w.sip})
  | .hostGet,_,w => some (w.host,w)
  | .hostSet a,_,w => some ((),{w with host := a.apply w.host})
  | .esfGet eb,_,w => some (w.esf eb,w)
  | .esfBufAlloc type len,ans,w =>
    if ans.num = nullEb then some (nullEb,w) else
      let (p,w) := w.alloc len.toUInt32
      some (ans.num,{w with esf := Function.update w.esf ans.num {w.esf ans.num with type := type,bufBegin := p,dataLen := len}})
  | .isTxCallback _,ans,w => some (ans.flag,w)
  | .net80211EnTxdq _,_,w => some ((),w)
  | .espSipTxdPost,_,w => some ((),w)
  | .espSipRecycle _,_,w => some ((),w)
  | .sipRxProcess _ _,_,w => some ((),w)
  | .coexSchmStatusSet _ _ _,_,w => some ((),w)
  | .hostRecvRegistered,_,w => some (w.hostRecv,w)
  | .notifyHostRecv _ _,_,w => some ((),w)
  | .unspecified n,ans,w => if ans.data.length = n then some (ans.data,w) else none
  | .btHostCall,ans,w => if ans.data.length < 2 ^ 16 then some (ans.data,w) else none
  | .wifiStackCall,ans,w => some (ans.call,w)
  | .note _,_,w => some ((),w)

-- A slave with its own state: which outcomes of an operation it admits and how
-- it is moved by them, and what it does by itself in between.
structure Slave (δ : Type) where
  answers : Task → World → Op → Ans → δ → Option δ
  moves : δ → δ → Prop

def Slave.exec (slave : Slave δ) (t : Task) (o : Op) (ans : Ans) (s : World × δ) : Option (o.Answer × World × δ) :=
  match World.exec t o ans s.1,slave.answers t s.1 o ans s.2 with
  | some (r,w),some d => some (r,w,d)
  | _,_ => none

def Slave.act (slave : Slave δ) (t : Task) : Meaning signature (World × δ) :=
  fun o s r s' => ∃ ans, slave.exec t o ans s = some (r,s')

-- A slave about which nothing is known.
def openSlave : Slave Unit where
  answers _ _ _ _ d := some d
  moves _ _ := True

theorem read_exec {t : Task} {w w' : World} {ans : Ans} {dst : Dst} {r : EspErr × List UInt8}
    (ran : World.exec t (.sdmmcIoRead function addr arg dst size) ans w = some (r,w')) :
    r = (ans.err,ans.data) ∧ w' = {w with mem := dst.put ans.data w.mem} ∧
      (ans.err = .ok → ans.data.length = size.toNat) := by
  by_cases fits : (if ans.err = .ok then ans.data.length = size.toNat else ans.data.length ≤ size.toNat)
  · rw [World.exec,if_pos fits] at ran
    cases ran
    refine ⟨rfl,rfl,fun success => ?_⟩
    simpa [success] using fits
  · rw [World.exec,if_neg fits] at ran
    cases ran

-- What the choices of the surroundings come to as answers.
theorem write_answer {t : Task} {w w' : World} {ans : Ans} {r : EspErr}
    (ran : World.exec t (.sdmmcIoWrite function addr arg src size) ans w = some (r,w')) : ans.err = r :=
  congrArg Prod.fst (Option.some.inj ran)

theorem malloc_answer {t : Task} {w w' : World} {ans : Ans} {r : Option Ptr} (granted : ans.flag = true)
    (ran : World.exec t (.malloc size) ans w = some (r,w')) : r ≠ none := by
  simp only [World.exec,if_pos granted] at ran
  cases ran
  exact Option.some_ne_none _

theorem calloc_answer {t : Task} {w w' : World} {ans : Ans} {r : Option Ptr} (granted : ans.flag = true)
    (ran : World.exec t (.calloc size) ans w = some (r,w')) : r ≠ none := by
  simp only [World.exec,if_pos granted] at ran
  cases ran
  exact Option.some_ne_none _

theorem exec_iff {slave : Slave δ} {t : Task} {o : Op} {r : o.Answer} {s s' : World × δ} :
    slave.exec t o ans s = some (r,s') ↔
      World.exec t o ans s.1 = some (r,s'.1) ∧ slave.answers t s.1 o ans s.2 = some s'.2 := by
  unfold Slave.exec
  constructor
  · intro ran
    split at ran
    · rename_i r' w d executed answered
      cases ran
      exact ⟨executed,answered⟩
    · cases ran
  · rintro ⟨executed,answered⟩
    simp [executed,answered]

theorem act_iff {slave : Slave δ} {o : Op} {r : o.Answer} {s s' : World × δ} : slave.act t o s r s' ↔
    ∃ ans, World.exec t o ans s.1 = some (r,s'.1) ∧ slave.answers t s.1 o ans s.2 = some s'.2 :=
  exists_congr fun _ => exec_iff

theorem slave_executes (slave : Slave δ) (t : Task) {rely : World × δ → World × δ → Prop} (reflexive : ∀ s, rely s s)
    (p : Code α) (choices : List Ans) (s : World × δ) (test : α → World × δ → Bool)
    (passed : (execute (slave.exec t) p choices s).any (fun result => test result.2.1 result.2.2) = true) :
    ∃ trace value s', Runs rely (slave.act t) p s trace value s' ∧ test value s' = true :=
  execute_exists reflexive (fun _ ans _ _ _ ran => ⟨ans,ran⟩) test passed

theorem act_exec {slave : Slave δ} {o : Op} {r : o.Answer} {s s' : World × δ} (acted : slave.act t o s r s') :
    ∃ ans, World.exec t o ans s.1 = some (r,s'.1) :=
  (act_iff.mp acted).imp fun _ both => both.1

theorem act_answers {slave : Slave δ} {o : Op} {r : o.Answer} {s s' : World × δ} (acted : slave.act t o s r s') :
    ∃ ans, slave.answers t s.1 o ans s.2 = some s'.2 :=
  (act_iff.mp acted).imp fun _ both => both.2

end ExtConn
