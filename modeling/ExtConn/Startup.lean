import ExtConn.Nesting
import ExtConn.ExtBoot
import ExtConn.System

namespace ExtConn.Startup
open Effects ByteMemory Interleaving Nesting

-- esp_extconn.h
structure EspExtconnConfig where
  recvTaskStack : UInt32
  recvTaskPrio : UInt32
  recvTaskCore : UInt32
  wifiTaskStack : UInt32
  wifiTaskPrio : UInt32
  wifiTaskCore : UInt32
  btTaskStack : UInt32
  btTaskPrio : UInt32
  btTaskCore : UInt32

-- `ESP_EXTCONN_CONFIG_DEFAULT`. Only the stack and the priority of the receive
-- task follow their options: the other macros ask for `COFNIG_...`.
def espExtconnConfigDefault (recvTaskStack recvTaskPrio : Option UInt32) : EspExtconnConfig where
  recvTaskStack := recvTaskStack.getD 3072
  recvTaskPrio := recvTaskPrio.getD 23
  recvTaskCore := 1
  wifiTaskStack := 3072
  wifiTaskPrio := 21
  wifiTaskCore := 1
  btTaskStack := 3072
  btTaskPrio := 23
  btTaskCore := 1

-- `CONFIG_ESP_EXT_CONN_SLAVE_...`
structure Pins where
  enablePin : Int
  enableLvl : Bool
  bootPin : Int
  deriving DecidableEq

def gpioNumNc : Int := -1

-- What the static pointers of the component lead to.
inductive Object where
  | host | sip | sdioMutex | recvBuf | wifiTx | listLock | listEvent | btTx | txSem | txQue
  deriving DecidableEq

-- What is registered with the software above.
inductive Hook where
  | txCmd | txData | getCoexStatus | hciDriver
  deriving DecidableEq

inductive Stage where
  | boot | sipInit | fwDownload | recvInit | bootup | wifiInit | btInit
  deriving DecidableEq

-- `started` is where the scheduler lets a task begin or the software above make
-- its first call. The results of the stages are noted for the runs to be read by.
inductive StartOp where
  | gpioConfig (pinBitMask : UInt64)
  | gpioSetLevel (pin : Int) (level : Bool)
  | create (obj : Object)
  | register (hook : Hook)
  | taskCreate (task : Task) (stack prio core : UInt32)
  | started (task : Task)
  | returned (stage : Stage) (ret : EspErr)
  | initialised (ret : EspErr)
  deriving DecidableEq

abbrev StartOp.Answer : StartOp → Type
  | .create _ | .taskCreate .. => Bool
  | _ => Unit

abbrev starting : Signature := ⟨StartOp,StartOp.Answer⟩
abbrev Start (α : Type) := Prog (both signature starting) α

def base (p : Code α) : Start α := inner p

def ask (o : StartOp) : Start o.Answer := outer (T := starting) o

@[simp] theorem ask_bind (o : StartOp) (f : o.Answer → Start β) :
    @Prog.bind (both signature starting) (no_index o.Answer) β (ask o) f = .op (.inr o) f := rfl

def staged (stage : Stage) (p : Start EspErr) : Start EspErr := do
  let ret ← p
  ask (.returned stage ret)
  return ret

-- ext_boot.c

def bit64 (n : Int) : UInt64 := 1 <<< UInt64.ofNat n.toNat

def pinsInit (pins : Pins) : Start Unit :=
  if pins.enablePin < 0 then return () else do
    let mask := if pins.bootPin ≠ gpioNumNc then bit64 pins.enablePin ||| bit64 pins.bootPin else bit64 pins.enablePin
    ask (.gpioConfig mask)
    if pins.bootPin ≠ gpioNumNc then ask (.gpioSetLevel pins.bootPin false)
    ask (.gpioSetLevel pins.enablePin (!pins.enableLvl))

def reset2DlMode (pins : Pins) : Start Unit := do
  ask (.gpioSetLevel pins.enablePin (!pins.enableLvl))
  base (issue (.taskDelay 30))
  ask (.gpioSetLevel pins.enablePin pins.enableLvl)
  base (issue (.taskDelay 30))

-- The rest of `esp_extconn_boot`.
def bootCard (sizeofSdmmcCard : UInt32) (retries : Nat) : Code (Option EspErr) := do
  let some card ← sdmmcInit sizeofSdmmcCard | return none
  if card ≠ none then espExtconnSdioInit false retries else return some .fail

def espExtconnBoot (pins : Pins) (sizeofSdmmcCard : UInt32) (retries : Nat) : Start (Option EspErr) := do
  pinsInit pins
  reset2DlMode pins
  base (bootCard sizeofSdmmcCard retries)

def quietAnswer : (o : StartOp) → o.Answer
  | .create _ => true
  | .taskCreate .. => true
  | .gpioConfig _ => ()
  | .gpioSetLevel .. => ()
  | .register _ => ()
  | .started _ => ()
  | .returned .. => ()
  | .initialised _ => ()

-- Apart from the pins this is the boot of the adapter.
theorem boot_strip (pins : Pins) (size : UInt32) (retries : Nat) :
    strip (T := starting) quietAnswer (espExtconnBoot pins size retries) = ExtConn.espExtconnBoot size false retries := by
  have quiet : ∀ {f : Unit → Start (Option EspErr)}, strip (T := starting) quietAnswer ((pinsInit pins).bind f) =
      strip (T := starting) quietAnswer (f ()) := by
    intro f
    unfold pinsInit
    split
    · rfl
    · simp only [Prog.bind_def,ask_bind]
      split <;> rfl
  unfold espExtconnBoot reset2DlMode
  simp only [Prog.bind_def]
  rw [quiet]
  show (Prog.op (.taskDelay 30) fun _ => Prog.op (.taskDelay 30) fun _ => strip (T := starting) quietAnswer (base (bootCard size retries)) : Code (Option EspErr)) = _
  unfold base
  simp only [strip_inner]
  rfl

-- esp_sip.c
def espSipInit : Start EspErr := do
  let made ← ask (.create .sip)
  if ¬ made then return .noMem
  base (issue (.sipSet (.state .init)))
  return .ok

def espExtconnGetMac (made : Object → Bool) (w : World) : Option (List UInt8) := if made .sip then some w.sip.wifiAddr else none

-- trans_recv.c
def espExtconnTransRecvInit (config : EspExtconnConfig) : Start EspErr := do
  let _ ← ask (.create .sdioMutex)
  let made ← ask (.create .recvBuf)
  if ¬ made then return .noMem
  let created ← ask (.taskCreate .transRecv config.recvTaskStack config.recvTaskPrio config.recvTaskCore)
  return if created then .ok else .fail

-- trans_wifi.c
def getCoexStatusCb (cfg : Build) : UInt8 := extConnFunctionsEnable cfg

def espExtconnTransWifiInit (config : EspExtconnConfig) : Start EspErr := do
  let made ← ask (.create .wifiTx)
  if ¬ made then return .noMem
  let made ← ask (.create .listLock)
  if ¬ made then return .noMem
  let made ← ask (.create .listEvent)
  if ¬ made then return .noMem
  ask (.register .txCmd)
  ask (.register .txData)
  ask (.register .getCoexStatus)
  let created ← ask (.taskCreate .wifiSend config.wifiTaskStack config.wifiTaskPrio config.wifiTaskCore)
  return if created then .ok else .noMem

-- trans_bt.c: nothing that is created here is looked at.
def btStartUp (config : EspExtconnConfig) : Start Unit := do
  let _ ← ask (.create .txSem)
  let _ ← ask (.create .txQue)
  let _ ← ask (.taskCreate .btTx config.btTaskStack config.btTaskPrio config.btTaskCore)

def espExtconnTransBtInit (config : EspExtconnConfig) : Start EspErr := do
  let _ ← ask (.create .btTx)
  ask (.register .hciDriver)
  btStartUp config
  return .ok

-- ext_boot.c
def espExtconnFwInit (cfg : Build) (fw : Ptr) (config : EspExtconnConfig) : Start EspErr := do
  let ret ← staged .sipInit espSipInit
  let ret ← if ret = .ok then staged .fwDownload (base (espFwDownload fw)) else pure ret
  let ret ← if ret = .ok then staged .recvInit (espExtconnTransRecvInit config) else pure ret
  if ret = .ok then do
    let entryAddr ← base (load32 (fw.add 4))
    staged .bootup (base (espSipBootup cfg entryAddr))
  else return ret

-- extconn.c; `none` is a boot that has aborted or still waits.
def espExtconnInit (cfg : Build) (pins : Pins) (sizeofSdmmcCard : UInt32) (retries : Nat) (fw : Ptr) (config : EspExtconnConfig) :
    Start (Option EspErr) := do
  let some ret ← espExtconnBoot pins sizeofSdmmcCard retries | return none
  ask (.returned .boot ret)
  let ret ← if ret = .ok then espExtconnFwInit cfg fw config else pure ret
  let ret ← if cfg.wifi ∧ ret = .ok then staged .wifiInit (espExtconnTransWifiInit config) else pure ret
  if cfg.bt then base (issue (.taskDelay (.ticks 100)))
  let ret ← if cfg.bt ∧ ret = .ok then staged .btInit (espExtconnTransBtInit config) else pure ret
  return some ret

-- What the boot of the card issues.
def cardWork : Op → Bool
  | .sdPwrCtrlNewOnChipLdo | .sdmmcHostInit | .sdmmcHostInitSlot | .sdmmcCardInit | .sdmmcSendCmdGoIdleState => true
  | .sdmmcIoReadByte _ _ | .sdmmcIoWriteByte _ _ _ | .sdmmcIoRead _ _ _ _ _ | .sdmmcIoWrite _ _ _ _ _ => true
  | .malloc _ | .calloc _ | .free _ | .load _ _ | .store _ _ | .taskDelay _ => true
  | _ => false

theorem readBytes_work (function addr : UInt32) (dst : Dst) (size : UInt32) :
    (extconnSdioReadBytes function addr dst size).All (cardWork · = true) := by
  have loop : ∀ arg fuel addr dst size got, (readBytesLoop function arg fuel addr dst size got).All (cardWork · = true) := by
    intro arg fuel
    induction fuel with
    | zero => exact fun _ _ _ _ => trivial
    | succ fuel ih =>
        exact fun _ _ _ _ => Prog.All.ite (fun _ => ⟨rfl,fun r => Prog.All.ite (fun _ => trivial) fun _ => ih _ _ _ _⟩) fun _ => trivial
  exact loop _ _ _ _ _ _

theorem writeBytes_work (function addr : UInt32) (src : Src) (size : UInt32) :
    (extconnSdioWriteBytes function addr src size).All (cardWork · = true) := by
  have loop : ∀ arg fuel addr src size, (writeBytesLoop function arg fuel addr src size).All (cardWork · = true) := by
    intro arg fuel
    induction fuel with
    | zero => exact fun _ _ _ => trivial
    | succ fuel ih =>
        exact fun _ _ _ => Prog.All.ite (fun _ => ⟨rfl,fun r => Prog.All.ite (fun _ => trivial) fun _ => ih _ _ _⟩) fun _ => trivial
  exact loop _ _ _ _ _

theorem cardInit_work (attempts : Nat) : (sdmmcCardInitLoop attempts).All (cardWork · = true) := by
  induction attempts with
  | zero => trivial
  | succ attempts ih => exact ⟨rfl,fun ret => Prog.All.ite (fun _ => trivial) fun _ => ⟨rfl,fun _ => ih⟩⟩

theorem goIdle_work (retries : Nat) : (goIdleLoop retries).All (cardWork · = true) := by
  induction retries with
  | zero => trivial
  | succ retries ih => exact ⟨rfl,fun err => Prog.All.ite (fun _ => ⟨rfl,fun _ => ih⟩) fun _ => trivial⟩

theorem setBlockSize_work (offset : UInt32) : (setBlockSize offset).All (cardWork · = true) :=
  ⟨rfl,fun _ => ⟨rfl,fun _ => ⟨rfl,fun _ => ⟨rfl,fun _ => ⟨rfl,fun _ => ⟨rfl,fun _ => trivial⟩⟩⟩⟩⟩⟩

theorem configure_work : sdioStartConfigure.All (cardWork · = true) := by
  refine ⟨rfl,fun _ => Prog.All.ite (fun _ => trivial) fun _ => ⟨rfl,fun _ => Prog.All.ite (fun _ => trivial) fun _ => ?_⟩⟩
  refine ⟨rfl,fun _ => Prog.All.ite (fun _ => trivial) fun _ => ⟨rfl,fun _ => Prog.All.ite (fun _ => trivial) fun _ => ?_⟩⟩
  exact Prog.All.bind (setBlockSize_work _) fun _ => Prog.All.bind (setBlockSize_work _) fun _ => trivial

theorem waitWindow_work (tbuf : Ptr) (retry : Nat) : (readRegWindowLoop tbuf retry).All (cardWork · = true) := by
  induction retry with
  | zero => trivial
  | succ retry ih =>
      have read : ((extconnSdioReadBytes 1 espSdioStateW0 (.mem tbuf) 4).bind fun r =>
          if retry > 0 ∧ r.1 ≠ .ok then readRegWindowLoop tbuf retry else .pure r.1 : Code EspErr).All (cardWork · = true) :=
        Prog.All.bind (readBytes_work _ _ _ _) fun _ => Prog.All.ite (fun _ => ih) fun _ => trivial
      unfold readRegWindowLoop
      simp only [Prog.bind_def,Prog.pure_def,issue_bind]
      exact Prog.All.ite (fun _ => ⟨rfl,fun _ => read⟩) fun _ => read

theorem readWindow_work (regAddr : UInt32) (value : Ptr) : (espExtconnSdioReadRegWindow regAddr value).All (cardWork · = true) := by
  unfold espExtconnSdioReadRegWindow memcpy
  simp only [Prog.bind_def,Prog.pure_def,issue_bind,Prog.op_bind]
  refine Prog.All.ite (fun _ => trivial) fun _ => ⟨rfl,fun tbuf => ?_⟩
  cases tbuf with
  | none => trivial
  | some tbuf =>
      have finish : ∀ ret : EspErr, (if ret = .ok then .op (.load tbuf 4) fun bytes => .op (.store value bytes) fun _ =>
          .op (.free tbuf) fun _ => .pure ret else .op (.free tbuf) fun _ => .pure ret : Code EspErr).All (cardWork · = true) := fun ret =>
        Prog.All.ite (fun _ => ⟨rfl,fun _ => ⟨rfl,fun _ => ⟨rfl,fun _ => trivial⟩⟩⟩) fun _ => ⟨rfl,fun _ => trivial⟩
      refine ⟨rfl,fun _ => ⟨rfl,fun _ => Prog.All.bind (writeBytes_work _ _ _ _) fun ret => ?_⟩⟩
      exact Prog.All.ite (fun _ => Prog.All.bind (waitWindow_work _ _) finish) fun _ => finish ret

theorem writeWindow_work (regAddr : UInt32) (value : Ptr) : (espExtconnSdioWriteRegWindow regAddr value).All (cardWork · = true) := by
  unfold espExtconnSdioWriteRegWindow memcpy
  simp only [Prog.bind_def,Prog.pure_def,issue_bind,Prog.op_bind]
  refine Prog.All.ite (fun _ => trivial) fun _ => ⟨rfl,fun tbuf => ?_⟩
  cases tbuf with
  | none => trivial
  | some tbuf =>
      refine ⟨rfl,fun _ => ⟨rfl,fun _ => ⟨rfl,fun _ => ⟨rfl,fun _ => ?_⟩⟩⟩⟩
      exact Prog.All.bind (writeBytes_work _ _ _ _) fun ret => ⟨rfl,fun _ => trivial⟩

theorem setWindowBits_work (regAddr : UInt32) (tbuf : Ptr) (bits : UInt32) : (setWindowBits regAddr tbuf bits).All (cardWork · = true) := by
  unfold setWindowBits orInto load32
  simp only [Prog.bind_def,Prog.pure_def,issue_bind,Prog.op_bind,Prog.pure_bind]
  refine ⟨rfl,fun _ => ⟨rfl,fun _ => Prog.All.bind (writeWindow_work _ _) fun err => Prog.All.ite (fun _ => trivial) fun _ => ?_⟩⟩
  exact Prog.All.bind (readWindow_work _ _) fun err => Prog.All.ite (fun _ => trivial) fun _ => trivial

theorem initSlaveLink_work : espExtconnSdioInitSlaveLink.All (cardWork · = true) := by
  have enable : ∀ tbuf, (enableTargetInterrupt tbuf).All (cardWork · = true) := by
    intro tbuf
    unfold enableTargetInterrupt orInto load32
    simp only [Prog.bind_def,Prog.pure_def,issue_bind,Prog.op_bind,Prog.pure_bind]
    refine ⟨rfl,fun val => ?_⟩
    cases val with
    | none => trivial
    | some val =>
        refine Prog.All.bind (readBytes_work _ _ _ _) fun _ => ⟨rfl,fun _ => ⟨rfl,fun _ => ?_⟩⟩
        exact Prog.All.bind (writeBytes_work _ _ _ _) fun _ => ⟨rfl,fun _ => ⟨rfl,fun _ => trivial⟩⟩
  unfold espExtconnSdioInitSlaveLink
  simp only [Prog.bind_def,Prog.pure_def,issue_bind]
  refine ⟨rfl,fun tbuf => ?_⟩
  cases tbuf with
  | none => trivial
  | some tbuf =>
      refine Prog.All.bind (readWindow_work _ _) fun _ => Prog.All.ite (fun _ => trivial) fun _ => ?_
      refine Prog.All.bind (setWindowBits_work _ _ _) fun _ => Prog.All.ite (fun _ => trivial) fun _ => ?_
      refine Prog.All.bind (readWindow_work _ _) fun _ => Prog.All.ite (fun _ => trivial) fun _ => ?_
      exact Prog.All.bind (setWindowBits_work _ _ _) fun _ => Prog.All.ite (fun _ => trivial) fun _ => enable tbuf

theorem sdmmcInit_work (size : UInt32) : (sdmmcInit size).All (cardWork · = true) := by
  unfold sdmmcInit
  simp only [Prog.bind_def,Prog.pure_def,issue_bind]
  refine ⟨rfl,fun _ => Prog.All.ite (fun _ => trivial) fun _ => ⟨rfl,fun _ => Prog.All.ite (fun _ => trivial) fun _ => ?_⟩⟩
  refine ⟨rfl,fun _ => Prog.All.ite (fun _ => trivial) fun _ => ⟨rfl,fun card => ?_⟩⟩
  cases card with
  | none => trivial
  | some card => exact Prog.All.bind (cardInit_work 10) fun _ => trivial

theorem sdioInit_work (retries : Nat) : (espExtconnSdioInit false retries).All (cardWork · = true) := by
  have start : (espExtconnSdioStart retries).All (cardWork · = true) := by
    unfold espExtconnSdioStart
    simp only [Prog.bind_def,Prog.pure_def]
    refine Prog.All.bind (goIdle_work retries) fun err => ?_
    cases err with
    | none => trivial
    | some err => exact Prog.All.ite (fun _ => trivial) fun _ => Prog.All.bind configure_work fun _ => trivial
  unfold espExtconnSdioInit
  simp only [Prog.bind_def,Prog.pure_def,issue_bind]
  refine Prog.All.ite (fun _ => trivial) fun _ => ⟨rfl,fun host => ?_⟩
  cases host with
  | none => trivial
  | some host =>
      refine Prog.All.bind start fun ret => ?_
      cases ret with
      | none => trivial
      | some ret => exact Prog.All.ite (fun _ => trivial) fun _ => Prog.All.bind initSlaveLink_work fun _ => trivial

theorem bootCard_work (size : UInt32) (retries : Nat) : (bootCard size retries).All (cardWork · = true) := by
  unfold bootCard
  simp only [Prog.bind_def,Prog.pure_def]
  refine Prog.All.bind (sdmmcInit_work size) fun card => ?_
  cases card with
  | none => trivial
  | some card => exact Prog.All.ite (fun _ => sdioInit_work retries) fun _ => trivial

end ExtConn.Startup
