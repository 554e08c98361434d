import ExtConn.RxStream
import ExtConn.System

namespace ExtConn.ReceiveNotice
open Effects Interleaving ByteMemory RxStream

-- The slave with its interrupt words. `announced` counts the bytes of the stream
-- for whose append the bit has been set.
structure Notifier where
  rx : RxSlave
  announced : Nat
  intr0 : UInt32
  intr1 : UInt32

def Notifier.raised (d : Notifier) : Prop := d.intr0 &&& slchostSlc0RxNewPacketIntRaw ≠ 0

-- A single word of the register page; everything above is the packet window.
def isRegister (addr : UInt32) (arg : Cmd53Arg) (size : UInt32) : Prop :=
  addr.toNat < 1024 ∧ arg.blockMode = false ∧ size = 4

instance : Decidable (isRegister addr arg size) := inferInstanceAs (Decidable (_ ∧ _ ∧ _))

def Notifier.shows (d : Notifier) (addr : UInt32) (value : Nat) : Prop :=
  (addr = espSdioIntRaw → value = d.intr0.toNat) ∧ (addr = espSdioIntRaw1 → value = d.intr1.toNat)

instance (d : Notifier) : Decidable (d.shows addr value) := inferInstanceAs (Decidable (_ ∧ _))

def Notifier.onRead (d : Notifier) (addr : UInt32) (arg : Cmd53Arg) (size : UInt32) (ans : Ans) : Option Notifier :=
  if isRegister addr arg size ∧ addr ≠ espSdioPktLen then if d.shows addr (leNat ans.data) then some d else none
  else (d.rx.onRead addr arg size ans).map fun rx => {d with rx := rx}

-- Writing ones to an interrupt clear register takes these bits away.
def Notifier.onWrite (d : Notifier) (addr mask : UInt32) : Notifier :=
  if addr = espSdioSlc0IntClr then {d with intr0 := d.intr0 &&& ~~~mask}
  else if addr = espSdioSlc1IntClr then {d with intr1 := d.intr1 &&& ~~~mask}
  else d

-- Bytes are appended first and announced in a later step; the bits of both words
-- may be set at any time.
inductive Notifier.Moves : Notifier → Notifier → Prop where
  | append (more : List UInt8) (room : (d.rx.append more).backlog ≤ recvBufLen.toNat) :
      Moves d {d with rx := d.rx.append more}
  | announce (n : Nat) (later : d.announced ≤ n) (appended : n ≤ d.rx.stream.length) :
      Moves d {d with announced := n,intr0 := d.intr0 ||| slchostSlc0RxNewPacketIntRaw}
  | interrupt (one two : UInt32) : Moves d {d with intr0 := d.intr0 ||| one,intr1 := d.intr1 ||| two}

-- No transfer fails.
def notifier : Slave Notifier where
  answers _ w o ans d := match o with
    | .sdmmcIoRead function addr arg _ size =>
      if ans.err ≠ .ok then none else if function = extConnWifiSdioFunc then d.onRead addr arg size ans else some d
    | .sdmmcIoWrite function addr arg src size =>
      if ans.err ≠ .ok then none
      else if function = extConnWifiSdioFunc ∧ isRegister addr arg size then
        some (d.onWrite addr (UInt32.ofNat (leNat (src.get 4 w.mem))))
      else some d
    | _ => some d
  moves := Notifier.Moves

abbrev State := World × Notifier
abbrev Config := Interleaving.Config signature Unit Label State

-- The receive task, the slave, and around them anything that leaves `total_rx`
-- alone.
def receiver (cfg : Build) : Machine signature Unit Label State where
  code := block cfg
  act _ := notifier.act .transRecv
  env s s' := s'.1.host.totalRx = s.1.host.totalRx ∧ (s'.2 = s.2 ∨ Notifier.Moves s.2 s'.2)

def waiting (c : Config) : Prop := c.running () = .pure .transRecvTask ∨ ∃ wait, c.pending () = some (.sdmmcIoWaitInt wait)

-- Announced bytes are never left unread without the bit.
def Noticed (c : Config) : Prop :=
  waiting c → c.shared.2.rx.read < c.shared.2.announced → c.shared.2.raised

-- `done` bytes have been read that `total_rx` does not count yet.
structure Counts (done : Nat) (s : State) : Prop where
  within : s.2.rx.read ≤ s.2.rx.stream.length
  room : s.2.rx.backlog ≤ recvBufLen.toNat
  counted : (s.1.host.totalRx.toNat + done) % 2 ^ 32 = s.2.rx.read % 2 ^ 32
  known : s.2.announced ≤ s.2.rx.stream.length

-- Once the next `n` bytes are read, only what has been announced with the bit
-- still set is left.
structure Due (done n : Nat) (s : State) : Prop extends Counts done s where
  enough : n ≤ s.2.rx.backlog
  told : s.2.rx.read + n < s.2.announced → s.2.raised

structure Beside (s s' : State) : Prop where
  total : s'.1.host.totalRx = s.1.host.totalRx
  read : s'.2.rx.read = s.2.rx.read
  grown : s.2.rx.stream.length ≤ s'.2.rx.stream.length
  room : s.2.rx.backlog ≤ recvBufLen.toNat → s'.2.rx.backlog ≤ recvBufLen.toNat
  known : s.2.announced ≤ s.2.rx.stream.length → s'.2.announced ≤ s'.2.rx.stream.length
  told : s'.2.announced = s.2.announced ∨ s'.2.raised
  kept : s.2.raised → s'.2.raised

theorem Beside.refl (s : State) : Beside s s := ⟨rfl,rfl,Nat.le_refl _,id,id,.inl rfl,id⟩

theorem Beside.trans {a b c : State} (one : Beside a b) (two : Beside b c) : Beside a c := by
  refine ⟨two.total.trans one.total,two.read.trans one.read,Nat.le_trans one.grown two.grown,fun before => two.room (one.room before),
    fun before => two.known (one.known before),?_,fun before => two.kept (one.kept before)⟩
  cases two.told with
  | inr raised => exact .inr raised
  | inl same =>
      cases one.told with
      | inl before => exact .inl (same.trans before)
      | inr raised => exact .inr (two.kept raised)

theorem counts_stable {done : Nat} (s s' : State) (counts : Counts done s) (moved : Beside s s') : Counts done s' := by
  have within := counts.within
  have grown := moved.grown
  have read := moved.read
  have counted := counts.counted
  refine ⟨by omega,moved.room counts.room,?_,moved.known counts.known⟩
  rw [moved.total,read]
  exact counted

theorem due_stable {done n : Nat} (s s' : State) (due : Due done n s) (moved : Beside s s') : Due done n s' := by
  have enough := due.enough
  have grown := moved.grown
  have read := moved.read
  refine ⟨counts_stable s s' due.toCounts moved,?_,fun left => ?_⟩
  · simp only [RxSlave.backlog] at enough ⊢
    omega
  · cases moved.told with
    | inr raised => exact raised
    | inl same =>
        rw [read,same] at left
        exact moved.kept (due.told left)

theorem still_beside {s s' : State} (total : s'.1.host.totalRx = s.1.host.totalRx) (still : s'.2 = s.2) : Beside s s' := by
  obtain ⟨w,d⟩ := s
  obtain ⟨w',d'⟩ := s'
  cases still
  exact ⟨total,rfl,Nat.le_refl _,id,id,.inl rfl,id⟩

theorem moves_beside {s s' : State} (total : s'.1.host.totalRx = s.1.host.totalRx) (moved : Notifier.Moves s.2 s'.2) :
    Beside s s' := by
  obtain ⟨w,d⟩ := s
  obtain ⟨w',d'⟩ := s'
  cases moved with
  | append more room =>
      refine ⟨total,rfl,?_,fun _ => room,fun known => ?_,.inl rfl,id⟩
      · simp [RxSlave.append]
      · simp only [RxSlave.append,List.length_append]
        exact Nat.le_trans known (Nat.le_add_right _ _)
  | announce n later appended =>
      have set : ∀ a : UInt32, (a ||| slchostSlc0RxNewPacketIntRaw) &&& slchostSlc0RxNewPacketIntRaw ≠ 0 := by
        intro a
        rw [UInt32.or_comm]
        exact Words.or_keeps (by decide)
      exact ⟨total,rfl,Nat.le_refl _,id,fun _ => appended,.inr (set _),fun _ => set _⟩
  | interrupt one two => exact ⟨total,rfl,Nat.le_refl _,id,id,.inl rfl,Words.or_keeps⟩

-- Operations that concern neither the stream, its count, nor the first word of
-- interrupts.
def unnoticed : Op → Prop
  | .hostSet (.totalRx _) => False
  | .sdmmcIoRead function addr arg _ size => function = extConnWifiSdioFunc → isRegister addr arg size
  | .sdmmcIoWrite function addr _ _ _ => function = extConnWifiSdioFunc → addr ≠ espSdioSlc0IntClr
  | .sdmmcIoWaitInt _ => False
  | _ => True

theorem total_kept {t : Task} {o : Op} {r : o.Answer} {w w' : World} (calm : unnoticed o)
    (ran : World.exec t o ans w = some (r,w')) : w'.host.totalRx = w.host.totalRx := by
  cases o
  case hostSet a =>
    cases a with
    | totalTx value =>
        cases ran
        rfl
    | totalRx value => exact calm.elim
  all_goals exact congrArg SdioHost.totalRx ((exec_kept ran).host rfl)

theorem register_quiet {d d' : Notifier} (register : isRegister addr arg size) (read : d.onRead addr arg size ans = some d') :
    d' = d := by
  unfold Notifier.onRead at read
  by_cases other : addr ≠ espSdioPktLen
  · rw [if_pos ⟨register,other⟩] at read
    split at read
    · exact (Option.some.inj read).symm
    · cases read
  · have length : isLengthRegister addr arg size := ⟨Decidable.not_not.mp other,register.2⟩
    rw [if_neg (fun both => other both.2),RxSlave.onRead,if_pos length] at read
    split at read
    · cases read
    · split at read
      · exact (Option.some.inj read).symm
      · cases read

theorem unnoticed_act {t : Task} {o : Op} {r : o.Answer} {s s' : State} (calm : unnoticed o)
    (acted : notifier.act t o s r s') : Beside s s' := by
  obtain ⟨ans,ran,answered⟩ := act_iff.mp acted
  have total := total_kept calm ran
  obtain ⟨w,d⟩ := s
  obtain ⟨w',d'⟩ := s'
  have same : d' = d → Beside (w,d) (w',d') := still_beside total
  cases o
  case sdmmcIoRead function addr arg dst size =>
    simp only [notifier] at answered
    split at answered
    · cases answered
    · split at answered
      · exact same (register_quiet (calm ‹_›) answered)
      · exact same (Option.some.inj answered).symm
  case sdmmcIoWrite function addr arg src size =>
    simp only [notifier] at answered
    split at answered
    · cases answered
    · split at answered
      · rename_i register
        have other := calm register.1
        rw [Notifier.onWrite,if_neg other] at answered
        split at answered
        · cases answered
          exact ⟨total,rfl,Nat.le_refl _,id,id,.inl rfl,id⟩
        · exact same (Option.some.inj answered).symm
      · exact same (Option.some.inj answered).symm
  case sdmmcIoWaitInt => exact calm.elim
  all_goals exact same (Option.some.inj answered).symm

def contract : Contract signature State where
  act := notifier.act .transRecv
  rely := Beside
  guar _ _ := True
  safe o s := match o with
    | .sdmmcIoWaitInt _ => Due 0 0 s
    | _ => True

section
variable {I : State → Prop}

theorem unnoticed_keeps (stable : ∀ s s', I s → Beside s s' → I s') {o : Op} (calm : unnoticed o) : KeepsOp contract I o := by
  intro s held
  refine ⟨?_,fun r s' acted => ⟨trivial,stable s s' held (unnoticed_act calm acted)⟩⟩
  cases o
  case sdmmcIoWaitInt => exact calm.elim
  all_goals trivial

theorem unnoticed_op (stable : ∀ s s', I s → Beside s s' → I s') {o : Op} {next : o.Answer → Code α} {last : State → Prop}
    (calm : unnoticed o) (rest : ∀ r, Leads contract I last (next r)) : Leads contract I last (Prog.op o next : Code α) :=
  leads_op stable (unnoticed_keeps stable calm) rest

theorem all_keeps (stable : ∀ s s', I s → Beside s s' → I s') {p : Code α} (all : p.All unnoticed) : Keeps contract I p :=
  (all.mono fun _ calm => unnoticed_keeps stable calm).keeps stable

end

-- The length register and the packet window belong to the stream.
theorem stream_act {t : Task} {s s' : State} {r : EspErr × List UInt8} {addr size : UInt32} {arg : Cmd53Arg} {dst : Dst}
    (stream : ¬ (isRegister addr arg size ∧ addr ≠ espSdioPktLen))
    (acted : notifier.act t (.sdmmcIoRead extConnWifiSdioFunc addr arg dst size) s r s') :
    rxSlave.act t (.sdmmcIoRead extConnWifiSdioFunc addr arg dst size) (s.1,s.2.rx) r (s'.1,s'.2.rx) ∧
      s'.2 = {s.2 with rx := s'.2.rx} := by
  obtain ⟨ans,ran,answered⟩ := act_iff.mp acted
  simp only [notifier,if_true,Notifier.onRead,if_neg stream] at answered
  split at answered
  · cases answered
  · obtain ⟨rx,read,same⟩ := Option.map_eq_some_iff.mp answered
    have moved : rxSlave.answers t s.1 (.sdmmcIoRead extConnWifiSdioFunc addr arg dst size) ans s.2.rx = some s'.2.rx := by
      rw [← same]
      exact read
    exact ⟨act_iff.mpr ⟨ans,ran,moved⟩,by rw [← same]⟩

theorem length_read {s s' : State} {r : EspErr × List UInt8} (counts : Counts 0 s)
    (acted : notifier.act .transRecv (.sdmmcIoRead 1 espSdioPktLen {increment := true} .reg 4) s r s') :
    r.1 = .ok ∧ Due 0 s.2.rx.backlog s' ∧ s'.2.rx.backlog = s.2.rx.backlog ∧
      (((overlay 0 r.2 &&& rxByteMask) + rxByteMax - s'.1.host.totalRx) % rxByteMax).toNat = s.2.rx.backlog := by
  obtain ⟨inner,rest⟩ := stream_act (fun both => both.2 rfl) acted
  obtain ⟨same,success,shown⟩ := register_read inner
  obtain ⟨w,d⟩ := s
  obtain ⟨w',d'⟩ := s'
  have world : w' = w := congrArg Prod.fst same
  have slave : d' = d := by
    have stream : d'.rx = d.rx := congrArg Prod.snd same
    rw [show d' = {d with rx := d'.rx} from rest,stream]
  subst w' d'
  have within : d.rx.read ≤ d.rx.stream.length := counts.within
  have known : d.announced ≤ d.rx.stream.length := counts.known
  have counted : (w.host.totalRx.toNat + 0) % 2 ^ 32 = d.rx.read % 2 ^ 32 := counts.counted
  have room : d.rx.stream.length - d.rx.read ≤ 32768 := counts.room
  have total := w.host.totalRx.toNat_lt
  refine ⟨success,⟨counts,Nat.le_refl _,fun left => ?_⟩,rfl,?_⟩
  · have beyond : d.rx.read + (d.rx.stream.length - d.rx.read) < d.announced := left
    omega
  · have small : d.rx.stream.length - d.rx.read < 2 ^ 20 := by omega
    have total : w.host.totalRx.toNat = d.rx.read % 2 ^ 32 := by omega
    exact size_of_counters within small total shown

theorem not_register {k size : UInt32} {arg : Cmd53Arg} (packet : arg.blockMode = true ∨ k.toNat < 512) :
    ¬ isRegister (chunkAddr extConnWifiSdioFunc k) arg size := by
  intro register
  obtain ⟨low,bytes,_⟩ := register
  cases packet with
  | inl block => exact absurd (block.symm.trans bytes) nofun
  | inr small =>
      have window : espSlaveCmd53EndAddr.toNat = 129024 := rfl
      rw [chunkAddr,if_pos rfl,UInt32.toNat_sub,window] at low
      omega

theorem chunk_due {s s' : State} {r : EspErr × List UInt8} {k size : UInt32} {arg : Cmd53Arg} {p : Ptr} {done n m : Nat}
    (due : Due done (n + m) s)
    (acted : notifier.act .transRecv (.sdmmcIoRead 1 (chunkAddr extConnWifiSdioFunc k) arg (.mem p) size) s r s')
    (packet : arg.blockMode = true ∨ k.toNat < 512) (exact : min size.toNat k.toNat = n) :
    r.1 = .ok ∧ Due (done + n) m s' := by
  obtain ⟨inner,rest⟩ := stream_act (fun both => not_register packet both.1) acted
  have enough := due.enough
  obtain ⟨success,stream,world,_,_⟩ := chunk_read inner packet exact (Nat.le_trans (Nat.le_add_right n m) enough)
  obtain ⟨w,d⟩ := s
  obtain ⟨w',d'⟩ := s'
  simp only at stream world rest
  rw [stream] at rest
  subst rest
  have enough : n + m ≤ d.rx.stream.length - d.rx.read := enough
  have room : d.rx.stream.length - d.rx.read ≤ recvBufLen.toNat := due.room
  have counted : (w.host.totalRx.toNat + done) % 2 ^ 32 = d.rx.read % 2 ^ 32 := due.counted
  have within : d.rx.read ≤ d.rx.stream.length := due.within
  refine ⟨success,⟨?_,?_,?_,due.known⟩,?_,fun left => due.told ?_⟩
  · show d.rx.read + n ≤ d.rx.stream.length
    omega
  · show d.rx.stream.length - (d.rx.read + n) ≤ recvBufLen.toNat
    omega
  · rw [world]
    show (w.host.totalRx.toNat + (done + n)) % 2 ^ 32 = (d.rx.read + n) % 2 ^ 32
    omega
  · show m ≤ d.rx.stream.length - (d.rx.read + n)
    omega
  · have beyond : d.rx.read + n + m < d.announced := left
    show d.rx.read + (n + m) < d.announced
    omega

-- Reading the size from the register leaves exactly that much to be read.
theorem size_wp {s : State} (counts : Counts 0 s) : wp contract (espExtconnSdioGetRxDataSize extConnWifiSdioFunc)
    (fun result s' => ∃ len, result = (.ok,some len) ∧ Due 0 len.toNat s') s := by
  rw [getRxDataSize_wifi]
  intro s₁ moved
  refine ⟨trivial,fun r s₂ acted => ⟨trivial,?_⟩⟩
  obtain ⟨success,due,_,size⟩ := length_read (counts_stable s s₁ counts moved) acted
  refine wp_ite (fun failed => absurd success failed) fun _ s₃ moved => ?_
  refine ⟨trivial,fun host s₄ asked => ⟨trivial,?_⟩⟩
  have same : host = s₃.1.host ∧ s₄ = s₃ := by
    obtain ⟨ans,ran,answered⟩ := act_iff.mp asked
    simp only [World.exec,Option.some.injEq,Prod.mk.injEq] at ran
    exact ⟨ran.1.symm,Prod.ext ran.2.symm (Option.some.inj answered).symm⟩
  obtain ⟨rfl,rfl⟩ := same
  refine ⟨_,rfl,?_⟩
  rw [moved.total,size]
  exact due_stable s₂ s₄ due moved

-- Polling ends with a size that is due, or with nothing due.
def Polled (result : EspErr × UInt32) (s : State) : Prop :=
  (result.1 = .ok → 0 < result.2.toNat ∧ Due 0 result.2.toNat s) ∧ (result.1 ≠ .ok → Due 0 0 s)

theorem wait_iteration {s : State} {waitMs waitTime : UInt32} (counts : Counts 0 s)
    (rest : ∀ s₁ waitTime, Due 0 0 s₁ → wp contract (getPacketWait extConnWifiSdioFunc waitMs fuel waitTime) Polled s₁) :
    wp contract (getPacketWait extConnWifiSdioFunc waitMs (fuel + 1) waitTime) Polled s := by
  rw [getPacketWait]
  simp only [Prog.bind_def,wp_bind]
  apply wp_mono (size_wp counts)
  intro result s₁ sized
  obtain ⟨len,rfl,due⟩ := sized
  by_cases positive : len > 0
  · have nonzero : 0 < len.toNat := by simpa [UInt32.lt_iff_toNat_lt] using positive
    simp only [Option.getD_some,positive,and_self,if_true,Prog.pure_def,wp_pure]
    exact ⟨fun _ => ⟨nonzero,due⟩,fun failed => absurd rfl failed⟩
  · have zero : len.toNat = 0 := by simpa [UInt32.lt_iff_toNat_lt] using positive
    rw [zero] at due
    simp only [Option.getD_some,positive,and_false,if_false,ne_eq,not_true_eq_false,Prog.pure_def,issue_bind]
    apply wp_ite
    · intro _
      exact ⟨(fun wrong => by cases wrong),fun _ => due⟩
    · intro _ s₂ moved
      refine ⟨trivial,fun r s₃ slept => ⟨trivial,?_⟩⟩
      have calm : Beside s₂ s₃ := unnoticed_act (o := .taskDelay 1) trivial slept
      exact rest s₃ _ (due_stable s₁ s₃ due (moved.trans calm))

theorem wait_wp {s : State} (counts : Counts 0 s) (waitMs : UInt32) (fuel : Nat) (waitTime : UInt32) :
    wp contract (getPacketWait extConnWifiSdioFunc waitMs (fuel + 1) waitTime) Polled s := by
  apply wait_iteration counts
  induction fuel with
  | zero => exact fun s₁ _ due => ⟨nofun,fun _ => due⟩
  | succ fuel ih => exact fun s₁ _ due => wait_iteration due.toCounts ih

-- The bytes due are read in one or two chunks.
theorem chunks_wp {s : State} {len : UInt32} (due : Due 0 len.toNat s) (p : Ptr) (nonzero : 0 < len.toNat) :
    wp contract (getPacketChunks extConnWifiSdioFunc (len.toNat + 1) p len)
      (fun err s' => err = .ok ∧ Due len.toNat 0 s') s := by
  have tail : ∀ {done : Nat} {rem : UInt32} {s : State} (p : Ptr), rem.toNat < 512 → Due done rem.toNat s →
      wp contract (readTail extConnWifiSdioFunc p rem) (fun err s' => err = .ok ∧ Due (done + rem.toNat) 0 s') s := by
    intro done rem s p small due s₁ moved
    refine ⟨trivial,fun r s₂ acted => ⟨trivial,?_⟩⟩
    have rounded := roundFour_toNat small
    exact chunk_due (due_stable s s₁ due moved) acted (.inr small) (by omega)
  by_cases small : len.toNat < 512
  · rw [getPacketChunks_tail _ _ _ nonzero small]
    have last := tail p small due
    rw [Nat.zero_add] at last
    exact last
  have blocks := blocksOf_toNat len
  have rest := tailOf_toNat len
  have split : (blocksOf len).toNat + (tailOf len).toNat = len.toNat := by omega
  obtain ⟨fuel,bound⟩ : ∃ fuel, len.toNat + 1 = fuel + 2 := ⟨len.toNat - 1,by omega⟩
  rw [bound,getPacketChunks_blocks _ _ _ (by omega)]
  intro s₁ moved
  refine ⟨trivial,fun r s₂ acted => ⟨trivial,?_⟩⟩
  have left : Due 0 ((blocksOf len).toNat + (tailOf len).toNat) s₁ := by
    rw [split]
    exact due_stable s s₁ due moved
  obtain ⟨success,first⟩ := chunk_due left acted (.inl rfl) (Nat.min_eq_left (by omega))
  apply wp_ite (fun failed => absurd success failed)
  intro _
  apply wp_ite
  · intro done
    have zero : (tailOf len).toNat = 0 := by rw [done]; rfl
    have whole : 0 + (blocksOf len).toNat = len.toNat := by omega
    rw [zero,whole] at first
    exact ⟨rfl,first⟩
  · intro _
    have last := tail (p.add (blocksOf len).toNat) (by omega) first
    rw [Nat.zero_add,split] at last
    exact last

-- A call from `handle_intr0` leaves nothing due: the buffer takes the backlog.
theorem getPacket_leads (waitMs : UInt32) : Leads contract (Counts 0) (Due 0 0)
    (espExtconnSdioGetPacket extConnWifiSdioFunc recvBuf recvBufLen waitMs) := by
  intro s counts
  have positive : recvBufLen > 0 := by decide
  have wifi : extConnWifiSdioFunc ≠ extConnBtSdioFunc := by decide
  unfold espExtconnSdioGetPacket
  simp only [positive,not_true_eq_false,if_false,Prog.bind_def,wp_bind,Prog.pure_def,issue_bind]
  apply wp_mono (wait_wp counts waitMs _ 0)
  intro result s₁ polled
  obtain ⟨err,len⟩ := result
  apply wp_ite
  · exact fun failed => polled.2 failed
  · intro success
    obtain ⟨nonzero,due⟩ := polled.1 (Decidable.not_not.mp success)
    have cut : (if len > recvBufLen then recvBufLen else len) = len := by
      apply UInt32.toNat_inj.mp
      have enough : len.toNat ≤ s₁.2.rx.backlog := due.enough
      have room := due.room
      rw [cut_toNat]
      omega
    rw [cut,wp_bind]
    apply wp_mono (chunks_wp due recvBuf nonzero)
    intro err s₂ fetched
    obtain ⟨rfl,counted⟩ := fetched
    simp only [wifi,ne_eq,not_true_eq_false,not_false_eq_true,if_true,if_false]
    intro s₃ moved₃
    refine ⟨trivial,fun host s₄ asked => ⟨trivial,?_⟩⟩
    have read : host = s₃.1.host ∧ s₄ = s₃ := by
      obtain ⟨ans,ran,answered⟩ := act_iff.mp asked
      simp only [World.exec,Option.some.injEq,Prod.mk.injEq] at ran
      exact ⟨ran.1.symm,Prod.ext ran.2.symm (Option.some.inj answered).symm⟩
    obtain ⟨rfl,rfl⟩ := read
    intro s₅ moved₅
    refine ⟨trivial,fun _ s₆ written => ⟨trivial,?_⟩⟩
    obtain ⟨ans,ran,answered⟩ := act_iff.mp written
    have stored : ({s₅.1 with host := (HostAssign.totalRx (s₄.1.host.totalRx + len)).apply s₅.1.host},s₅.2) = s₆ :=
      Prod.ext (congrArg Prod.snd (Option.some.inj ran)) (Option.some.inj answered)
    have before := due_stable s₄ s₅ (due_stable s₂ s₄ counted moved₃) moved₅
    have count := before.counted
    rw [moved₅.total] at count
    rw [← stored]
    refine ⟨⟨before.within,before.room,?_,before.known⟩,before.enough,before.told⟩
    show ((s₄.1.host.totalRx + len).toNat + 0) % 2 ^ 32 = s₅.2.rx.read % 2 ^ 32
    have count : (s₄.1.host.totalRx.toNat + len.toNat) % 2 ^ 32 = s₅.2.rx.read % 2 ^ 32 := count
    rw [UInt32.toNat_add]
    omega

theorem quiet_unnoticed (o : Op) (quiet : o.quiet = true) : unnoticed o := by
  cases o
  case hostSet => cases quiet
  case sdmmcIoRead => cases quiet
  case sdmmcIoWrite => cases quiet
  case sdmmcIoWaitInt => cases quiet
  all_goals trivial

theorem status_unnoticed (addr : UInt32) (polled : statusRegister addr) :
    unnoticed (.sdmmcIoRead 1 addr {increment := true} .reg 4) := by
  intro _
  refine ⟨?_,rfl,rfl⟩
  rcases polled with rfl | rfl | rfl | rfl <;> decide

-- Commands go to the upper end of the window.
theorem command_unnoticed (len : UInt16) (arg : Cmd53Arg) (p : Ptr) (size : UInt32) :
    unnoticed (.sdmmcIoWrite 1 (chunkAddr 1 len.toUInt32) arg (.mem p) size) := by
  intro _ same
  have bound := len.toNat_lt
  have window : espSlaveCmd53EndAddr.toNat = 129024 := rfl
  have register : espSdioSlc0IntClr.toNat = 212 := rfl
  have low := congrArg UInt32.toNat same
  rw [chunkAddr,if_pos (by decide),UInt32.toNat_sub,window,register,UInt16.toNat_toUInt32] at low
  omega

theorem events_all (cfg : Build) (buf : Ptr) : (espSipParseEvents cfg buf).All unnoticed :=
  parseEvents_all quiet_unnoticed (fun _ _ => trivial) (fun _ _ => trivial) (fun _ => trivial) trivial trivial trivial
    (fun _ => trivial) command_unnoticed (fun _ => trivial) cfg buf

theorem intr0_leads (cfg : Build) (waitMs : UInt32) : Leads contract (Counts 0) (Due 0 0) (handleIntr0 cfg waitMs) := by
  have parse : ∀ rlen, (handleIntr0Parse cfg rlen).All unnoticed :=
    handleIntr0Parse_all (fun _ => trivial) trivial (fun _ => trivial) (events_all cfg) (fun _ _ => trivial)
  unfold handleIntr0 espExtconnSdioLock espExtconnSdioUnlock
  simp only [Prog.bind_def,issue_bind,Prog.op_bind,Prog.pure_bind,Prog.pure_def]
  apply unnoticed_op counts_stable (o := .semTake .sdioMutex none) trivial
  intro _
  apply (getPacket_leads waitMs).bind
  intro result
  apply unnoticed_op due_stable (o := .semGive .sdioMutex) trivial
  exact fun _ => all_keeps due_stable (parse _)

theorem intr1_all (intr waitMs : UInt32) : (handleIntr1 intr waitMs).All unnoticed := by
  have packet := handleIntr1Packet_all trivial trivial status_unnoticed
    (fun _ _ _ _ same => absurd same (by decide)) quiet_unnoticed intr waitMs
  apply Prog.All.bind packet
  intro ret
  apply Prog.All.ite
  · exact fun _ => handleIntr1Tohost_all trivial trivial (fun _ => by decide) (fun _ => ⟨by decide,rfl,rfl⟩) trivial
  · exact fun _ => trivial

-- After the clearing: the bit may be gone only if it was seen.
structure Seen (intr0 : UInt32) (s : State) : Prop where
  counts : Counts 0 s
  due : intr0 &&& slchostSlc0RxNewPacketIntRaw = 0 → Due 0 0 s

theorem seen_stable (intr0 : UInt32) (s s' : State) (seen : Seen intr0 s) (moved : Beside s s') : Seen intr0 s' :=
  ⟨counts_stable s s' seen.counts moved,fun unseen => due_stable s s' (seen.due unseen) moved⟩

theorem clearIntr0_eq {intr0 : UInt32} (some : intr0 ≠ 0) : espExtconnSdioClearIntr intr0 0 =
    .op (.sdmmcIoWrite 1 espSdioSlc0IntClr {increment := true} (.reg (le32 intr0)) 4) fun r => .pure r := by
  unfold espExtconnSdioClearIntr
  rw [if_neg (fun none => some none.1),if_pos some,writeRegister]
  simp only [Prog.bind_def,Prog.op_bind,Prog.pure_bind,Prog.pure_def]
  congr 1
  funext r
  by_cases success : r = .ok
  · rw [if_neg (not_not_intro success),success]
    rfl
  · rw [if_pos success]

theorem cleared {intr0 : UInt32} {s s' : State} {r : EspErr} (due : Due 0 0 s)
    (acted : notifier.act .transRecv (.sdmmcIoWrite 1 espSdioSlc0IntClr {increment := true} (.reg (le32 intr0)) 4) s r s') :
    Seen intr0 s' := by
  obtain ⟨ans,ran,answered⟩ := act_iff.mp acted
  have register : isRegister espSdioSlc0IntClr {increment := true} 4 := ⟨by decide,rfl,rfl⟩
  have mask : UInt32.ofNat (leNat ((Src.reg (le32 intr0)).get 4 s.1.mem)) = intr0 := by
    apply UInt32.toNat_inj.mp
    have four : (le32 intr0).length = 4 := leBytes_length ..
    rw [Src.get,List.take_of_length_le (Nat.le_of_eq four),le32,leNat_leBytes]
    simp
  obtain ⟨w,d⟩ := s
  obtain ⟨w',d'⟩ := s'
  have world : w = w' := congrArg Prod.snd (Option.some.inj ran)
  subst world
  simp only [notifier] at answered
  split at answered
  · cases answered
  · rw [if_pos ⟨rfl,register⟩,mask,Notifier.onWrite,if_pos rfl] at answered
    cases answered
    refine ⟨⟨due.within,due.room,due.counted,due.known⟩,fun unseen => ⟨⟨due.within,due.room,due.counted,due.known⟩,due.enough,?_⟩⟩
    intro left
    have set : d.intr0 &&& slchostSlc0RxNewPacketIntRaw ≠ 0 := due.told left
    show d.intr0 &&& ~~~intr0 &&& slchostSlc0RxNewPacketIntRaw ≠ 0
    rw [Words.clear_apart unseen]
    exact set

theorem clear_leads (intr0 : UInt32) : Leads contract (Due 0 0) (Seen intr0) (espExtconnSdioClearIntr intr0 0) := by
  by_cases none : intr0 = 0
  · subst none
    exact fun s due => ⟨due.toCounts,fun _ => due⟩
  · rw [clearIntr0_eq none]
    intro s due s₁ moved
    exact ⟨trivial,fun r s₂ acted => ⟨trivial,cleared (due_stable s s₁ due moved) acted⟩⟩

theorem intr0If_leads (cfg : Build) (intr0 : UInt32) : Leads contract (Seen intr0) (Due 0 0) (handleIntr0If cfg intr0) := by
  intro s seen
  apply wp_ite
  · intro _
    exact ((intr0_leads cfg recvWaitMs).bind fun _ => keeps_pure _) s seen.counts
  · intro unseen
    exact seen.due (Decidable.not_not.mp unseen)

theorem wait_keeps (wait : Option UInt32) : KeepsOp contract (Due 0 0) (.sdmmcIoWaitInt wait) := by
  intro s due
  refine ⟨due,fun r s' acted => ⟨trivial,?_⟩⟩
  obtain ⟨ans,ran,answered⟩ := act_iff.mp acted
  have same : s = s' := Prod.ext (congrArg Prod.snd (Option.some.inj ran)) (Option.some.inj answered)
  exact same ▸ due

theorem intr1If_all (cfg : Build) (intr1 : UInt32) : (handleIntr1If cfg intr1).All unnoticed := by
  apply Prog.All.ite
  · exact fun _ => Prog.All.bind (intr1_all _ _) fun _ => trivial
  · exact fun _ => trivial

-- One iteration: what is due at its start is due at its end.
theorem task_keeps (cfg : Build) : Keeps contract (Due 0 0) (transRecvTask cfg) := by
  have intr : (espExtconnSdioGetIntr (some 0) (some 0)).All unnoticed := getIntr_all status_unnoticed _ _
  have lock : unnoticed (.semTake .sdioMutex none) := trivial
  have unlock : unnoticed (.semGive .sdioMutex) := trivial
  unfold transRecvTask espExtconnSdioWaitInt espExtconnSdioLock espExtconnSdioUnlock
  simp only [Prog.bind_def,issue_bind,Prog.op_bind,Prog.pure_bind,Prog.pure_def]
  apply leads_op due_stable (wait_keeps none)
  intro ret
  apply Leads.ite (keeps_pure _)
  apply unnoticed_op due_stable lock
  intro _
  apply (all_keeps due_stable intr).bind
  intro result
  apply Leads.ite (unnoticed_op due_stable unlock fun _ => keeps_pure _)
  apply Leads.ite (unnoticed_op due_stable unlock fun _ => keeps_pure _)
  apply (clear_leads _).bind
  intro _
  apply unnoticed_op (seen_stable _) unlock
  intro _
  apply (intr0If_leads cfg _).bind
  intro _
  exact (all_keeps due_stable (intr1If_all cfg _)).bind fun _ => keeps_pure _

def outline (cfg : Build) : Outline (receiver cfg) where
  rely _ := Beside
  guar _ _ _ := True
  safe _ := contract.safe
  entry _ l s := labelsOf .transRecv l ∧ Due 0 0 s
  transitive := Beside.trans
  compatible other _ := absurd rfl other
  surroundings := by
    intro _ a b moved
    cases moved.2 with
    | inl still => exact still_beside moved.1 still
    | inr moves => exact moves_beside moved.1 moves
  stable here moved := ⟨here.1,due_stable _ _ here.2 moved⟩
  verified := by
    intro _ l s here
    have returns := block_returns cfg here.1
    apply wp_returns returns
    cases l <;> first | exact False.elim here.1 | skip
    case transRecvTask => exact task_keeps cfg s here.2
    case returned => exact here.2

-- The task at the head of its loop with a consistent count and nothing unread
-- that has been announced without the bit.
structure Launched (c : Config) : Prop where
  head : c.running () = .pure .transRecvTask
  due : Due 0 0 c.shared

theorem notice_kept (cfg : Build) {start c : Config} (launched : Launched start) (path : Reached (receiver cfg) start c) :
    Noticed c := by
  have initially : (outline cfg).Holds start := by
    intro _
    rw [launched.head]
    exact ⟨trivial,launched.due⟩
  have valid := (outline cfg).reached_holds (fun _ => Beside.refl) initially path
  intro here left
  have due : Due 0 0 c.shared := by
    cases here with
    | inl head => exact (valid.entry head).2
    | inr pending =>
        obtain ⟨wait,pending⟩ := pending
        exact valid.safe (fun _ => Beside.refl) pending
  exact due.told left

-- A packet of twelve bytes has come in and been announced.
def arrived : Config where
  shared := (World.initial {espSipInit with state := .run},⟨⟨List.replicate 12 0,0⟩,12,slchostSlc0RxNewPacketIntRaw,0⟩)
  running _ := .pure .transRecvTask

theorem arrived_launched : Launched arrived := by
  refine ⟨rfl,⟨⟨Nat.zero_le _,?_,rfl,Nat.le_refl _⟩,Nat.zero_le _,fun _ => ?_⟩⟩
  · decide
  · show slchostSlc0RxNewPacketIntRaw &&& slchostSlc0RxNewPacketIntRaw ≠ 0
    decide

-- One iteration reads it, operation by operation.
def oneIteration : List (Unit × Ans) :=
  [{},{},{},{data := [0,0,0x80,0]},{data := [0,0,0,0]},{},{},{},{data := [12,0,0,0]},{},{data := List.replicate 12 0},{},{},{},
    {},{}].map fun ans => ((),ans)

theorem slave_step (cfg : Build) {c : Config} {d : Notifier} (moved : Notifier.Moves c.shared.2 d) :
    Step (receiver cfg) c {c with shared := (c.shared.1,d)} :=
  .env ⟨rfl,.inr moved⟩

-- Another packet comes in while the task is on its way to wait again.
theorem arrived_noticed : ∃ c, Reached (receiver ⟨true,true⟩) arrived c ∧ waiting c ∧ c.shared.2.rx.read = 12 ∧
    c.shared.2.announced = 24 ∧ Noticed c := by
  have passed : (schedule (block ⟨true,true⟩) (fun _ => notifier.exec .transRecv) oneIteration arrived).any
      (fun c => c.pending () = some (.sdmmcIoWaitInt none) && decide (c.shared.2.rx = ⟨List.replicate 12 0,12⟩) &&
        decide (c.shared.2.announced = 12)) = true := by decide +kernel
  obtain ⟨c,path,ended⟩ := schedule_exists (m := receiver ⟨true,true⟩) (fun _ _ ans _ _ _ ran => ⟨ans,ran⟩) _ passed
  simp only [Bool.and_eq_true,decide_eq_true_eq] at ended
  obtain ⟨⟨pending,stream⟩,announced⟩ := ended
  have room : (c.shared.2.rx.append (List.replicate 12 0)).backlog ≤ recvBufLen.toNat := by
    rw [stream]
    decide
  have appended := Reached.step path (slave_step ⟨true,true⟩ (.append (List.replicate 12 0) room))
  have later : c.shared.2.announced ≤ 24 := by
    rw [announced]
    decide
  have twice : 24 ≤ (c.shared.2.rx.append (List.replicate 12 0)).stream.length := by
    rw [stream]
    decide
  have more := Reached.step appended (slave_step ⟨true,true⟩ (.announce 24 later twice))
  refine ⟨_,more,.inr ⟨none,pending⟩,?_,rfl,notice_kept ⟨true,true⟩ arrived_launched more⟩
  show c.shared.2.rx.read = 12
  rw [stream]

end ExtConn.ReceiveNotice
