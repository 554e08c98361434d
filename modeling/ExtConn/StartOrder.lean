import ExtConn.Startup
import ExtConn.BlockAccess
import ExtConn.FirmwareDownload

namespace ExtConn.StartOrder
open Effects ByteMemory Interleaving Nesting Startup

-- What the start-up has done so far: the objects it has tried to create and
-- those it has created, what is registered and started, and how the stages went.
structure Books where
  tried : Object → Bool
  made : Object → Bool
  hooks : Hook → Bool
  tasks : Task → Bool
  results : List (Stage × EspErr)
  ended : Option EspErr

-- The fields of `sip` that a BOOTUP event fills in.
inductive Parameter where
  | txBlksz | rxBlksz | creditToReserve | noiseFloor | wifiAddr
  deriving DecidableEq

-- Beside that, which parameters of the link have been stored and whether
-- `bt_tx_task` has put anything on the bus.
structure Records where
  books : Books
  params : Parameter → Bool
  sent : Bool

def Records.stored (d : Records) : Prop := ∀ param, d.params param = true

def nothing : Records := ⟨⟨fun _ => false,fun _ => false,fun _ => false,fun _ => false,[],none⟩,fun _ => false,false⟩

-- The Wi-Fi stack may call as soon as it is told whom; the application starts a
-- Bluetooth host behind `esp_extconn_init`.
def Books.available (b : Books) : Task → Bool
  | .appMain => false
  | .wifiStack => b.hooks .txCmd
  | .btHost => b.hooks .hciDriver && b.ended.isSome
  | t => b.tasks t

-- What the code looks at before it goes on.
def checked : Object → Bool
  | .sdioMutex | .btTx | .txSem | .txQue => false
  | _ => true

def Books.usable (b : Books) : Object → Prop
  | .host => (Stage.boot,EspErr.ok) ∈ b.results
  | obj => b.tried obj = true ∧ (checked obj = true → b.made obj = true)

def stores : Op → Option Parameter
  | .sipSet (.txBlksz _) => some .txBlksz
  | .sipSet (.rxBlksz _) => some .rxBlksz
  | .sipSet (.creditToReserve _) => some .creditToReserve
  | .sipSet (.noiseFloor _) => some .noiseFloor
  | .sipSet (.wifiAddr _) => some .wifiAddr
  | _ => none

def transmits : Op → Bool
  | .sdmmcIoWrite _ _ _ _ _ => true
  | _ => false

def observe (t : Task) (o : Op) (d : Records) : Records :=
  {d with
    params := fun param => d.params param || decide (stores o = some param)
    sent := d.sent || (decide (t = .btTx) && transmits o)}

theorem observe_params {t : Task} {o : Op} {d : Records} {param : Parameter} (held : d.params param = true) :
    (observe t o d).params param = true := by
  simp only [observe,held,Bool.true_or]

theorem observe_stored {t : Task} {o : Op} {d : Records} (held : d.stored) : (observe t o d).stored :=
  fun param => observe_params (held param)

def link : Slave Records where
  answers t _ o _ d := some (observe t o d)
  moves d d' := d' = d

def place : Object → World → World
  | .sip,w => {w with sip := espSipInit}
  | .sdioMutex,w => {w with sdioMutex := none}
  | .recvBuf,w => {w with blocks := Function.update w.blocks recvBuf.blk (some recvBufLen.toNat)}
  | .wifiTx,w => {w with wifiTx := {w.wifiTx with txHead := nullEb,txTail := nullEb}}
  | .listEvent,w => {w with wifiTx := {w.wifiTx with listEvent := false}}
  | .txSem,w => {w with txSem := 1}
  | .txQue,w => {w with txQue := []}
  | _,w => w

def Books.create (b : Books) (obj : Object) (success : Bool) : Books :=
  {b with tried := Function.update b.tried obj true,made := Function.update b.made obj (b.made obj || success)}

def begin : (o : StartOp) → Ans → World × Records → Option (o.Answer × World × Records)
  | .gpioConfig _,_,s => some ((),s)
  | .gpioSetLevel _ _,_,s => some ((),s)
  | .create obj,ans,(w,d) =>
    some (ans.flag,if ans.flag then place obj w else w,{d with books := d.books.create obj ans.flag})
  | .register hook,_,(w,d) => some ((),w,{d with books := {d.books with hooks := Function.update d.books.hooks hook true}})
  | .taskCreate task _ _ _,ans,(w,d) =>
    some (ans.flag,w,{d with books := {d.books with tasks := Function.update d.books.tasks task (d.books.tasks task || ans.flag)}})
  | .started task,_,(w,d) => if d.books.available task then some ((),w,d) else none
  | .returned stage ret,_,(w,d) => some ((),w,{d with books := {d.books with results := d.books.results ++ [(stage,ret)]}})
  | .initialised ret,_,(w,d) => some ((),w,{d with books := {d.books with ended := some ret}})

-- Every task waits for its start, and the application calls `esp_extconn_init`.
inductive Point where
  | init
  | waiting (task : Task)
  | running (l : Label)
  | finished (ret : Option EspErr)
  deriving DecidableEq

structure Setup where
  build : Build
  pins : Pins
  sizeofSdmmcCard : UInt32
  retries : Nat
  fw : Ptr
  config : EspExtconnConfig

def finish : Option EspErr → Start Point
  | none => .pure (.finished none)
  | some ret => .op (.inr (.initialised ret)) fun _ => .pure (.finished (some ret))

def Setup.code (u : Setup) : Point → Start Point
  | .init => (Startup.espExtconnInit u.build u.pins u.sizeofSdmmcCard u.retries u.fw u.config).bind finish
  | .waiting task => .op (.inr (.started task)) fun _ => .pure (.running (firstLabel task))
  | .running l => (base (block u.build l)).bind fun l => .pure (.running l)
  | .finished ret => .pure (.finished ret)

def perform (t : Task) : (o : (both signature starting).Op) → Ans → World × Records →
    Option ((both signature starting).Answer o × World × Records)
  | .inl o,ans,s => link.exec t o ans s
  | .inr o,ans,s => begin o ans s

def starts (u : Setup) : Machine (both signature starting) Task Point (World × Records) where
  code := u.code
  act t o s r s' := ∃ ans, perform t o ans s = some (r,s')
  env s s' := s' = s

-- A slave acknowledges only what `bt_tx_task` has sent.
def acknowledges : (o : (both signature starting).Op) → (both signature starting).Answer o → Bool
  | .inl (.sdmmcIoRead _ addr _ .reg _),r => decide (addr = espSdioConfigW1 ∧ overlay 0 r.2 &&& 1 ≠ 0)
  | _,_ => false

def acked (_ : Task) (o : (both signature starting).Op) (s : World × Records) (r : (both signature starting).Answer o) : Prop :=
  acknowledges o r = true → s.2.sent = true

def initially (w : World) : Config (both signature starting) Task Point (World × Records) :=
  ⟨(w,nothing),fun t => .pure (if t = .appMain then .init else .waiting t)⟩

-- What has to be there before an operation of a task.
def onCard : Op → Bool
  | .sdmmcIoRead _ _ _ _ _ | .sdmmcIoWrite _ _ _ _ _ | .sdmmcIoWaitInt _ | .sdmmcIoReadByte _ _ | .sdmmcIoWriteByte _ _ _
  | .sdmmcSendCmdGoIdleState | .hostGet | .hostSet _ => true
  | _ => false

def onSip : Op → Bool
  | .sipGet | .sipSet _ => true
  | _ => false

def onEvent : Op → Bool
  | .listWaitItem | .listRemove | .listInsert _ | .listHeadInsert _ => true
  | _ => false

def uses (t : Task) (o : Op) : Object → Bool
  | .host => onCard o
  | .sip => onSip o
  | .sdioMutex => movesMutex o
  | .recvBuf => decide (t = .transRecv ∧ o.block = some recvBuf.blk)
  | .wifiTx => onEvent o || movesList o
  | .listLock => movesList o
  | .listEvent => onEvent o
  | .btTx => movesTxSem o || movesTxQue o
  | .txSem => movesTxSem o
  | .txQue => movesTxQue o

-- The boot of the card is where the host comes to be.
def booting (t : Task) (obj : Object) (results : List (Stage × EspErr)) : Prop := t = .appMain ∧ obj = .host ∧ results = []

def placed (t : Task) (o : Op) (b : Books) : Prop :=
  (t ≠ .appMain → b.available t = true) ∧ ∀ obj, uses t o obj = true → b.usable obj ∨ booting t obj b.results

-- The stages in the order of the source.
def core : List Stage := [.boot,.sipInit,.fwDownload,.recvInit,.bootup]

def plan (cfg : Build) : List Stage :=
  core ++ (if cfg.wifi then [.wifiInit] else []) ++ (if cfg.bt then [.btInit] else [])

def passed (stages : List Stage) : List (Stage × EspErr) := stages.map fun stage => (stage,.ok)

def Report (stages : List Stage) (ret : EspErr) (results : List (Stage × EspErr)) : Prop :=
  (ret = .ok ∧ results = passed stages) ∨
    (ret ≠ .ok ∧ ∃ before stage after, stages = before ++ stage :: after ∧ results = passed before ++ [(stage,ret)])

def Followed (stages : List Stage) (results : List (Stage × EspErr)) : Prop :=
  (∃ before after, stages = before ++ after ∧ results = passed before) ∨ ∃ ret, Report stages ret results

-- The stage in which a task or a caller is let in.
def letIn : Task → Stage
  | .transRecv => .recvInit
  | .wifiSend | .wifiStack => .wifiInit
  | .btTx | .btHost => .btInit
  | .appMain => .boot

def prior (cfg : Build) (t : Task) : List Stage := (plan cfg).takeWhile fun stage => decide (stage ≠ letIn t)

-- What is there for a task when it is let in.
def needs (t : Task) : Object → Bool
  | .host | .sip | .sdioMutex | .recvBuf => true
  | .wifiTx | .listLock | .listEvent => decide (t = .wifiSend ∨ t = .wifiStack)
  | .btTx | .txSem | .txQue => decide (t = .btTx ∨ t = .btHost)

structure Sound (cfg : Build) (b : Books) : Prop where
  ready : ∀ t, b.available t = true → ∀ obj, needs t obj = true → b.usable obj
  prior : ∀ t, b.available t = true → ∀ stage ∈ prior cfg t, (stage,EspErr.ok) ∈ b.results
  order : Followed (plan cfg) b.results
  report : ∀ ret, b.ended = some ret → Report (plan cfg) ret b.results

structure Inv (cfg : Build) (s : World × Records) : Prop where
  sound : Sound cfg s.2.books
  booted : ∀ n, s.1.bootSem = .alive (n+1) → s.2.stored
  stored : cfg.wifi = true → (Stage.bootup,EspErr.ok) ∈ s.2.books.results → s.2.stored
  sent : s.2.sent = true → ∀ obj, obj = .btTx ∨ obj = .txSem → s.2.books.usable obj

structure Grows (d d' : Records) : Prop where
  usable : ∀ obj, d.books.usable obj → d'.books.usable obj
  available : ∀ t, d.books.available t = true → d'.books.available t = true
  params : ∀ param, d.params param = true → d'.params param = true
  sent : d.sent = true → d'.sent = true

theorem Grows.refl (d : Records) : Grows d d := ⟨fun _ => id,fun _ => id,fun _ => id,id⟩

theorem Grows.stored (grown : Grows d d') (held : d.stored) : d'.stored := fun param => grown.params param (held param)

theorem Grows.trans (one : Grows a b) (two : Grows b c) : Grows a c :=
  ⟨fun obj held => two.usable obj (one.usable obj held),fun t held => two.available t (one.available t held),
    fun param held => two.params param (one.params param held),fun held => two.sent (one.sent held)⟩

-- Only the start-up writes the books.
def rely (cfg : Build) (t : Task) (s s' : World × Records) : Prop :=
  Grows s.2 s'.2 ∧ (Inv cfg s → Inv cfg s') ∧ (t = .appMain → s'.2.books = s.2.books)

def guar (cfg : Build) (t : Task) (s s' : World × Records) : Prop :=
  Grows s.2 s'.2 ∧ (Inv cfg s → Inv cfg s') ∧ (t ≠ .appMain → s'.2.books = s.2.books)

def safe (t : Task) : (both signature starting).Op → World × Records → Prop
  | .inl o,s => placed t o s.2.books
  | .inr _,_ => True

abbrev contract (u : Setup) (t : Task) : Contract (both signature starting) (World × Records) :=
  ⟨((starts u).when acked).act t,rely u.build t,guar u.build t,safe t⟩

theorem rely_refl (cfg : Build) (t : Task) (s : World × Records) : rely cfg t s s := ⟨.refl _,id,fun _ => rfl⟩

theorem rely_trans (one : rely cfg t a b) (two : rely cfg t b c) : rely cfg t a c :=
  ⟨one.1.trans two.1,fun inv => two.2.1 (one.2.1 inv),fun main => (two.2.2 main).trans (one.2.2 main)⟩

theorem guar_rely (other : t' ≠ t) (moved : guar cfg t a b) : rely cfg t' a b :=
  ⟨moved.1,moved.2.1,fun main => moved.2.2 fun same => other (main.trans same.symm)⟩

theorem base_acts {u : Setup} {t : Task} {o : Op} {r : o.Answer} {s s' : World × Records}
    (acted : (contract u t).act (.inl o) s r s') :
    (∃ ans, World.exec t o ans s.1 = some (r,s'.1)) ∧ s'.2 = observe t o s.2 ∧
      (acknowledges (.inl o) r = true → s.2.sent = true) := by
  obtain ⟨⟨ans,ran⟩,honest⟩ := acted
  obtain ⟨executed,answered⟩ := exec_iff.mp ran
  exact ⟨⟨ans,executed⟩,(Option.some.inj answered).symm,honest⟩

-- What an operation of the component does to all that.
theorem base_keeps {u : Setup} {t : Task} {o : Op} {r : o.Answer} {s s' : World × Records}
    (acted : (contract u t).act (.inl o) s r s') (inv : Inv u.build s)
    (booted : ∀ n, s'.1.bootSem = .alive (n+1) → s'.2.stored)
    (sent : t = .btTx → ∀ obj, obj = .btTx ∨ obj = .txSem → s.2.books.usable obj) :
    guar u.build t s s' ∧ Inv u.build s' ∧ s'.2.books = s.2.books := by
  obtain ⟨_,same,_⟩ := base_acts acted
  have books : s'.2.books = s.2.books := by rw [same]; rfl
  have params : ∀ param, s.2.params param = true → s'.2.params param = true := by
    intro param held
    rw [same]
    exact observe_params held
  have kept : Inv u.build s' := by
    refine ⟨books ▸ inv.sound,booted,fun wifi passed param => params param (inv.stored wifi (books ▸ passed) param),fun held obj which => ?_⟩
    rw [books]
    rw [same] at held
    simp only [observe,Bool.or_eq_true,Bool.and_eq_true,decide_eq_true_eq] at held
    rcases held with held | ⟨task,_⟩
    · exact inv.sent held obj which
    · exact sent task obj which
  have sent : s.2.sent = true → s'.2.sent = true := by
    intro held
    rw [same]
    simp only [observe,held,Bool.true_or]
  exact ⟨⟨⟨fun _ => books ▸ id,fun _ => books ▸ id,params,sent⟩,fun _ => kept,fun _ => books⟩,kept,books⟩

theorem plain_booted {u : Setup} {t : Task} {o : Op} {r : o.Answer} {s s' : World × Records}
    (acted : (contract u t).act (.inl o) s r s') (inv : Inv u.build s) (other : movesBootSem o = false) (n : Nat)
    (alive : s'.1.bootSem = .alive (n+1)) : s'.2.stored := by
  obtain ⟨⟨ans,ran⟩,same,_⟩ := base_acts acted
  rw [(exec_frame ran).bootSem other] at alive
  rw [same]
  exact observe_stored (inv.booted n alive)

-- The tasks that have been let in.
def Live (cfg : Build) (t : Task) (s : World × Records) : Prop := Inv cfg s ∧ s.2.books.available t = true

theorem live_stable (s s' : World × Records) (live : Live cfg t s) (moved : rely cfg t s s') : Live cfg t s' :=
  ⟨moved.2.1 live.1,moved.1.available t live.2⟩

theorem may_semaphore {t : Task} {o : Op} (may : mayIssue t o) (other : t ≠ .appMain) : movesBootSem o = false := by
  cases o
  case semTake sem wait =>
    cases sem <;> first | rfl | (cases t <;> first | exact absurd rfl other | (rcases may with no | no <;> cases no))
  case semGive sem =>
    cases sem <;> first | rfl | (cases t <;> first | exact absurd rfl other | (rcases may with no | no <;> cases no))
  all_goals first | rfl | (cases t <;> first | exact absurd rfl other | (rcases may with no | no <;> cases no))

theorem may_list {t : Task} {o : Op} (may : mayIssue t o) (moves : (onEvent o || movesList o) = true) :
    t = .wifiSend ∨ t = .wifiStack := by
  cases o <;> first | (cases moves; done) | (cases t <;> first | exact .inl rfl | exact .inr rfl | (rcases may with no | no <;> cases no))

theorem may_bt {t : Task} {o : Op} (may : mayIssue t o) (moves : (movesTxSem o || movesTxQue o) = true) :
    t = .btTx ∨ t = .btHost := by
  cases o
  case semTake sem wait =>
    cases sem <;> first | (cases moves; done) | (cases t <;> first | exact .inl rfl | exact .inr rfl | (rcases may with no | no <;> cases no))
  case semGive sem =>
    cases sem <;> first | (cases moves; done) | (cases t <;> first | exact .inl rfl | exact .inr rfl | (rcases may with no | no <;> cases no))
  all_goals first | (cases moves; done) | (cases t <;> first | exact .inl rfl | exact .inr rfl | (rcases may with no | no <;> cases no))

theorem may_needs {t : Task} {o : Op} {obj : Object} (may : mayIssue t o) (used : uses t o obj = true) : needs t obj = true := by
  have list : onEvent o = true ∨ movesList o = true → decide (t = .wifiSend ∨ t = .wifiStack) = true :=
    fun moves => decide_eq_true (may_list may (by simpa only [Bool.or_eq_true] using moves))
  have bt : movesTxSem o = true ∨ movesTxQue o = true → decide (t = .btTx ∨ t = .btHost) = true :=
    fun moves => decide_eq_true (may_bt may (by simpa only [Bool.or_eq_true] using moves))
  cases obj with
  | host | sip | sdioMutex | recvBuf => rfl
  | wifiTx => exact list (by simpa only [uses,Bool.or_eq_true] using used)
  | listLock => exact list (.inr used)
  | listEvent => exact list (.inl used)
  | btTx => exact bt (by simpa only [uses,Bool.or_eq_true] using used)
  | txSem => exact bt (.inl used)
  | txQue => exact bt (.inr used)

theorem live_usable {s : World × Records} (live : Live cfg t s) (obj : Object) (need : needs t obj = true) : s.2.books.usable obj :=
  live.1.sound.ready t live.2 obj need

theorem live_sent {s : World × Records} (live : Live cfg t s) (task : t = .btTx) (obj : Object) (which : obj = .btTx ∨ obj = .txSem) :
    s.2.books.usable obj := by
  subst task
  rcases which with rfl | rfl
  · exact live_usable live _ rfl
  · exact live_usable live _ rfl

abbrev inside (u : Setup) (t : Task) : Contract signature (World × Records) := Contract.within (contract u t)

theorem live_moves {u : Setup} {t : Task} {o : Op} {r : o.Answer} {s s' : World × Records} (live : Live u.build t s)
    (acted : (contract u t).act (.inl o) s r s') (booted : ∀ n, s'.1.bootSem = .alive (n+1) → s'.2.stored) :
    guar u.build t s s' ∧ Live u.build t s' := by
  obtain ⟨promise,inv,books⟩ := base_keeps acted live.1 booted (live_sent live)
  exact ⟨promise,inv,books ▸ live.2⟩

theorem live_keeps {u : Setup} {t : Task} {o : Op} (semaphore : movesBootSem o = false)
    (known : ∀ obj, uses t o obj = true → needs t obj = true) : KeepsOp (inside u t) (Live u.build t) o :=
  fun _ live => ⟨⟨fun _ => live.2,fun obj used => .inl (live_usable live obj (known obj used))⟩,
    fun _ _ acted => live_moves live acted (plain_booted acted live.1 semaphore)⟩

theorem may_keeps {u : Setup} {t : Task} (other : t ≠ .appMain) (o : Op) (may : mayIssue t o) :
    KeepsOp (inside u t) (Live u.build t) o :=
  live_keeps (may_semaphore may other) fun _ used => may_needs may used

section Receive
variable {u : Setup}

def Told (cfg : Build) (s : World × Records) : Prop := Live cfg .transRecv s ∧ s.2.stored

theorem told_stable (s s' : World × Records) (told : Told cfg s) (moved : rely cfg .transRecv s s') : Told cfg s' :=
  ⟨live_stable s s' told.1 moved,moved.1.stored told.2⟩

-- In the course of a BOOTUP event: these parameters are stored.
def Telling (cfg : Build) (params : List Parameter) (s : World × Records) : Prop :=
  Live cfg .transRecv s ∧ ∀ param ∈ params, s.2.params param = true

theorem telling_stable (s s' : World × Records) (telling : Telling cfg params s) (moved : rely cfg .transRecv s s') :
    Telling cfg params s' :=
  ⟨live_stable s s' telling.1 moved,fun param member => moved.1.params param (telling.2 param member)⟩

theorem store_telling {o : Op} {param : Parameter} (quiet : o.quiet = true) (stored : stores o = some param) :
    LeadsOp (inside u .transRecv) (Telling u.build params) (Telling u.build (param :: params)) o := by
  intro s telling
  have each : KeepsOp (inside u .transRecv) (Live u.build .transRecv) o := may_keeps (by decide) o (quiet_may _ o quiet)
  obtain ⟨safe,steps⟩ := each s telling.1
  refine ⟨safe,fun r s' acted => ⟨(steps r s' acted).1,(steps r s' acted).2,fun other member => ?_⟩⟩
  obtain ⟨_,same,_⟩ := base_acts acted
  rw [same]
  rcases List.mem_cons.mp member with rfl | before
  · simp only [observe,stored,decide_true,Bool.or_true]
  · exact observe_params (telling.2 other before)

-- `esp_sip_post_init` stores every one of them.
theorem postInit_told (bevt : List UInt8) :
    Leads (inside u .transRecv) (Live u.build .transRecv) (Told u.build) (espSipPostInit bevt) := by
  have stores : Leads (inside u .transRecv) (Telling u.build [])
      (Telling u.build [.wifiAddr,.noiseFloor,.creditToReserve,.rxBlksz,.txBlksz]) (espSipPostInit bevt) := by
    refine leads_op telling_stable (store_telling rfl rfl) fun _ => leads_op telling_stable (store_telling rfl rfl) fun _ => ?_
    refine leads_op telling_stable (store_telling rfl rfl) fun _ => leads_op telling_stable (store_telling rfl rfl) fun _ => ?_
    exact leads_op telling_stable (store_telling rfl rfl) fun _ => keeps_pure _
  intro s live
  refine wp_mono (stores s ⟨live,fun param no => by cases no⟩) fun _ s told => ⟨told.1,fun param => told.2 param ?_⟩
  cases param <;> decide

theorem state_told (value : SipState) : KeepsOp (inside u .transRecv) (Told u.build) (.sipSet (.state value)) := by
  intro s told
  have each : KeepsOp (inside u .transRecv) (Live u.build .transRecv) (.sipSet (.state value)) :=
    live_keeps rfl fun obj used => by cases obj <;> first | rfl | cases used
  have each := each s told.1
  refine ⟨each.1,fun r s' acted => ⟨(each.2 r s' acted).1,(each.2 r s' acted).2,?_⟩⟩
  exact (each.2 r s' acted).1.1.stored told.2

theorem give_live : LeadsOp (inside u .transRecv) (Told u.build) (Live u.build .transRecv) (.semGive .bootSem) := by
  intro s told
  refine ⟨⟨fun _ => told.1.2,fun obj used => .inl (live_usable told.1 obj (by cases obj <;> first | rfl | cases used))⟩,fun r s' acted => ?_⟩
  refine live_moves told.1 acted fun _ _ => ?_
  obtain ⟨_,same,_⟩ := base_acts acted
  rw [same]
  exact observe_stored told.2

-- The parameters are stored before `boot_sem` is given.
theorem bootup_keeps (buf : Ptr) : Keeps (inside u .transRecv) (Live u.build .transRecv) (parseBootup buf) := by
  have quiet : ∀ o, o.quiet = true → KeepsOp (inside u .transRecv) (Live u.build .transRecv) o := fun o quiet =>
    may_keeps (by decide) o (quiet_may _ o quiet)
  have finish : Keeps (inside u .transRecv) (Live u.build .transRecv) (Prog.op (.load (buf.add sizeofSipHdr) sizeofSipEvtBootup2) fun bevt =>
      (espSipPostInit bevt).bind fun _ => .op (.sipSet (.state .run)) fun _ => .op (.semGive .bootSem) fun _ => .pure .ok : Code EspErr) := by
    refine leads_op live_stable (may_keeps (by decide) _ (load_may _ _ _)) fun bevt => ?_
    refine (postInit_told bevt).bind fun _ => leads_op told_stable (state_told _) fun _ => ?_
    exact leads_op told_stable give_live fun _ => keeps_pure _
  unfold parseBootup
  simp only [Prog.bind_def,issue_bind,Prog.pure_def]
  refine leads_op live_stable (quiet _ rfl) fun sip => ?_
  split
  · exact leads_op live_stable (quiet _ rfl) fun _ => leads_op live_stable (quiet _ rfl) fun _ => finish
  · exact finish

-- What the slave acknowledges has been sent, so there is something to release.
def Heard (cfg : Build) (s : World × Records) : Prop := Live cfg .transRecv s ∧ s.2.sent = true

theorem heard_stable (s s' : World × Records) (heard : Heard cfg s) (moved : rely cfg .transRecv s s') : Heard cfg s' :=
  ⟨live_stable s s' heard.1 moved,moved.1.sent heard.2⟩

theorem heard_keeps {o : Op} (semaphore : movesBootSem o = false)
    (known : ∀ obj, uses .transRecv o obj = true → needs .transRecv obj = true ∨ obj = .btTx ∨ obj = .txSem) :
    KeepsOp (inside u .transRecv) (Heard u.build) o := by
  intro s heard
  refine ⟨⟨fun _ => heard.1.2,fun obj used => .inl ?_⟩,fun r s' acted => ?_⟩
  · exact (known obj used).elim (live_usable heard.1 obj) (heard.1.1.sent heard.2 obj)
  · have moved := live_moves heard.1 acted (plain_booted acted heard.1.1 semaphore)
    exact ⟨moved.1,moved.2,moved.1.1.sent heard.2⟩

theorem tohost_keeps : Keeps (inside u .transRecv) (Live u.build .transRecv) handleIntr1Tohost := by
  have own : ∀ o, mayIssue .transRecv o → KeepsOp (inside u .transRecv) (Live u.build .transRecv) o := may_keeps (by decide)
  have clear : KeepsOp (inside u .transRecv) (Live u.build .transRecv)
      (.sdmmcIoWrite 1 espSdioSlc1IntClr {increment := true} (.reg (le32 slchostSlc1TohostBit0IntClr)) 4) :=
    own _ (.inr ⟨rfl,.inr rfl,rfl,rfl⟩)
  have unlock : KeepsOp (inside u .transRecv) (Live u.build .transRecv) (.semGive .sdioMutex) := own _ (.inr trivial)
  have unlockHeard : KeepsOp (inside u .transRecv) (Heard u.build) (.semGive .sdioMutex) :=
    heard_keeps rfl fun obj used => by cases obj <;> first | exact .inl rfl | cases used
  have give : KeepsOp (inside u .transRecv) (Heard u.build) (.semGive .txSem) :=
    heard_keeps rfl fun obj used => by cases obj <;> first | exact .inr (.inl rfl) | exact .inr (.inr rfl) | cases used
  have failed : ∀ ret, Keeps (inside u .transRecv) (Live u.build .transRecv) (unlockIfFailed ret) := fun ret =>
    Leads.ite (leads_op live_stable unlock fun _ => keeps_pure _) (keeps_pure _)
  have failedHeard : ∀ ret, Keeps (inside u .transRecv) (Heard u.build) (unlockIfFailed ret) := fun ret =>
    Leads.ite (leads_op heard_stable unlockHeard fun _ => keeps_pure _) (keeps_pure _)
  rw [handleIntr1Tohost_eq]
  refine leads_op live_stable (own _ (.inr trivial)) fun _ => leads_op live_stable clear fun ret => (failed ret).bind fun _ => ?_
  intro s live s₁ moved
  have live₁ := live_stable s s₁ live moved
  refine ⟨⟨fun _ => live₁.2,fun obj used => .inl (live_usable live₁ obj (by cases obj <;> first | rfl | cases used))⟩,fun r s₂ acted => ?_⟩
  have after := live_moves live₁ acted (plain_booted acted live₁.1 rfl)
  refine ⟨after.1,?_⟩
  by_cases ack : overlay 0 r.2 &&& 1 ≠ 0
  · have sent : s₁.2.sent = true := (base_acts acted).2.2 (decide_eq_true ⟨rfl,ack⟩)
    have rest : Leads (inside u .transRecv) (Heard u.build) (Live u.build .transRecv) ((unlockIfFailed r.1).bind fun _ =>
        .op (.semGive .sdioMutex) fun _ => (sendUnlockIfAcked (overlay 0 r.2)).bind fun _ => .pure r.1 : Code EspErr) := by
      refine (failedHeard _).bind fun _ => leads_op heard_stable unlockHeard fun _ => ?_
      have release : Keeps (inside u .transRecv) (Heard u.build) (sendUnlockIfAcked (overlay 0 r.2)) :=
        Leads.ite (leads_op heard_stable give fun _ => keeps_pure _) (keeps_pure _)
      exact release.bind fun _ s heard => heard.1
    exact rest s₂ ⟨after.2,after.1.1.sent sent⟩
  · have rest : Keeps (inside u .transRecv) (Live u.build .transRecv) ((unlockIfFailed r.1).bind fun _ =>
        .op (.semGive .sdioMutex) fun _ => (sendUnlockIfAcked (overlay 0 r.2)).bind fun _ => .pure r.1 : Code EspErr) := by
      refine (failed _).bind fun _ => leads_op live_stable unlock fun _ => ?_
      rw [sendUnlockIfAcked,if_neg ack]
      exact keeps_pure _
    exact rest s₂ after.2

theorem receive_keeps : ReceiveKeeps u.build (inside u .transRecv) (Live u.build .transRecv) (Live u.build .transRecv) where
  stable := live_stable
  steady := live_stable
  lock := may_keeps (by decide) _ (.inr trivial)
  unlock := may_keeps (by decide) _ (.inr trivial)
  within o may := may_keeps (by decide) o may.1
  own o may _ := may_keeps (by decide) o may.1
  events := by
    have quiet : ∀ o, o.quiet = true → KeepsOp (inside u .transRecv) (Live u.build .transRecv) o := fun o quiet =>
      may_keeps (by decide) o (quiet_may _ o quiet)
    have bus : ∀ o, movesBootSem o = false → (∀ obj, uses .transRecv o obj = true → needs .transRecv obj = true) →
      KeepsOp (inside u .transRecv) (Live u.build .transRecv) o := fun o => live_keeps
    refine events_keep live_stable (fun o may _ _ => may_keeps (by decide) o may) ?_ bootup_keeps
    refine (parseTargetOn_all quiet (fun _ _ => may_keeps (by decide) _ (load_may _ _ _))
      (fun _ _ => may_keeps (by decide) _ (store_may _ _ _)) (fun _ => bus _ rfl ?_) (may_keeps (by decide) _ (.inr trivial))
      (may_keeps (by decide) _ (.inr trivial)) (fun _ _ => bus _ rfl ?_) (fun _ _ _ _ => bus _ rfl ?_) (fun _ => bus _ rfl ?_) _).keeps live_stable
    all_goals intro obj used; cases obj <;> first | rfl | cases used
  tohost := tohost_keeps

end Receive

-- A task that has been let in runs its blocks.
theorem running_keeps {u : Setup} {t : Task} (other : t ≠ .appMain) (known : labelsOf t l) :
    Keeps (inside u t) (Live u.build t) (block u.build l) := by
  cases t with
  | transRecv =>
      cases l <;> first | exact False.elim known | skip
      case transRecvTask => exact receive_keeps.task
      case returned => exact keeps_pure _
  | wifiSend => exact ((wifiSend_all u.build known).mono (may_keeps other)).keeps live_stable
  | btTx => exact ((btTx_all u.build known).mono (may_keeps other)).keeps live_stable
  | btHost => exact ((btHost_all u.build known).mono (may_keeps other)).keeps live_stable
  | wifiStack => exact ((wifiStack_all u.build known).mono (may_keeps other)).keeps live_stable
  | appMain => exact absurd rfl other

end ExtConn.StartOrder
