import ExtConn.Transfers

namespace ExtConn.RxStream
open Effects ByteMemory

-- The slave's function-1 output: every byte appended so far, and how many of
-- them the bus has carried. A read at `END_ADDR - k` covers `k` bytes of it.
structure RxSlave where
  stream : List UInt8
  read : Nat
  deriving DecidableEq

namespace RxSlave

def unread (d : RxSlave) : List UInt8 := d.stream.drop d.read
def backlog (d : RxSlave) : Nat := d.stream.length - d.read
def append (d : RxSlave) (more : List UInt8) : RxSlave := {d with stream := d.stream ++ more}
def consume (d : RxSlave) (n : Nat) : RxSlave := {d with read := d.read + n}

end RxSlave

def windowOf (addr : UInt32) : Nat := (espSlaveCmd53EndAddr - addr).toNat

def isLengthRegister (addr : UInt32) (arg : Cmd53Arg) (size : UInt32) : Prop :=
  addr = espSdioPktLen ∧ arg.blockMode = false ∧ size = 4

instance : Decidable (isLengthRegister addr arg size) := inferInstanceAs (Decidable (_ ∧ _ ∧ _))

def RxSlave.onRead (d : RxSlave) (addr : UInt32) (arg : Cmd53Arg) (size : UInt32) (ans : Ans) : Option RxSlave :=
  if ans.err ≠ .ok then none
  else if isLengthRegister addr arg size then
    if leNat ans.data % 2 ^ 20 = d.stream.length % 2 ^ 20 then some d else none
  else
    let carried := min (min size.toNat (windowOf addr)) d.backlog
    if ans.data.take carried = d.unread.take carried then some (d.consume carried) else none

-- The slave appends when it likes, unless it is idle, within its buffers.
def RxSlave.appends (idle : Prop) (d d' : RxSlave) : Prop :=
  ∃ more, d' = d.append more ∧ (d.backlog < 2 ^ 20 → d'.backlog < 2 ^ 20) ∧ (idle → more = [])

def rxSlave : Slave RxSlave where
  answers _ _ o ans d := match o with
    | .sdmmcIoRead function addr arg _ size => if function = extConnWifiSdioFunc then d.onRead addr arg size ans else some d
    | _ => some d
  moves := RxSlave.appends False

abbrev State := World × RxSlave

-- What may happen around the operations of a call: besides the slave, the rest
-- of the host may move, but not `total_rx` and the block of the buffer.
structure Around (idle : Prop) (blk : Nat) (s s' : State) : Prop where
  total : s'.1.host.totalRx = s.1.host.totalRx
  buffer : s'.1.mem blk = s.1.mem blk
  slave : s.2.appends idle s'.2

structure Buffered (d : RxSlave) : Prop where
  within : d.read ≤ d.stream.length
  bounded : d.backlog < 2 ^ 20

structure Counted (s : State) : Prop extends Buffered s.2 where
  counted : s.1.host.totalRx.toNat = s.2.read % 2 ^ 32

theorem unread_length (d : RxSlave) : d.unread.length = d.backlog := by simp [RxSlave.unread,RxSlave.backlog]

theorem append_unread {d : RxSlave} (within : d.read ≤ d.stream.length) (more : List UInt8) :
    (d.append more).unread = d.unread ++ more := List.drop_append_of_le_length within

theorem append_unread_take {d : RxSlave} (within : d.read ≤ d.stream.length) (enough : n ≤ d.backlog)
    (more : List UInt8) : (d.append more).unread.take n = d.unread.take n := by
  rw [append_unread within,List.take_append_of_le_length (by rw [unread_length]; exact enough)]

theorem consume_unread (d : RxSlave) (n : Nat) : (d.consume n).unread = d.unread.drop n := by
  simp [RxSlave.consume,RxSlave.unread,List.drop_drop]

theorem consume_backlog (d : RxSlave) (n : Nat) : (d.consume n).backlog = d.backlog - n := by
  simp only [RxSlave.consume,RxSlave.backlog]
  omega

theorem append_append (d : RxSlave) (one two : List UInt8) : (d.append one).append two = d.append (one ++ two) := by
  simp [RxSlave.append]

theorem append_backlog (d : RxSlave) (within : d.read ≤ d.stream.length) (more : List UInt8) :
    (d.append more).backlog = d.backlog + more.length := by
  simp only [RxSlave.append,RxSlave.backlog,List.length_append]
  omega

theorem appends_refl (idle : Prop) (d : RxSlave) : d.appends idle d := ⟨[],by simp [RxSlave.append],id,fun _ => rfl⟩

theorem appends_trans {a b c : RxSlave} (one : a.appends idle b) (two : b.appends idle c) : a.appends idle c := by
  obtain ⟨more,slave,bounded,quiet⟩ := one
  obtain ⟨more',slave',bounded',quiet'⟩ := two
  refine ⟨more ++ more',?_,fun before => bounded' (bounded before),fun still => ?_⟩
  · rw [slave',slave,append_append]
  · rw [quiet still,quiet' still,List.append_nil]

theorem around_refl (s : State) : Around idle blk s s := ⟨rfl,rfl,appends_refl idle s.2⟩

theorem around_trans {a b c : State} (one : Around idle blk a b) (two : Around idle blk b c) : Around idle blk a c :=
  ⟨two.total.trans one.total,two.buffer.trans one.buffer,appends_trans one.slave two.slave⟩

theorem Buffered.appends {d d' : RxSlave} (valid : Buffered d) (moved : d.appends idle d') : Buffered d' := by
  obtain ⟨more,slave,bounded,_⟩ := moved
  refine ⟨?_,bounded valid.bounded⟩
  have within := valid.within
  rw [slave]
  simp only [RxSlave.append,List.length_append]
  omega

theorem Counted.around {s s' : State} (valid : Counted s) (moved : Around idle blk s s') : Counted s' := by
  refine ⟨valid.toBuffered.appends moved.slave,?_⟩
  obtain ⟨more,slave,_⟩ := moved.slave
  rw [moved.total,slave]
  exact valid.counted

theorem appends_backlog {d d' : RxSlave} (valid : Buffered d) (moved : d.appends idle d') : d.backlog ≤ d'.backlog := by
  obtain ⟨more,slave,_⟩ := moved
  rw [slave,append_backlog _ valid.within]
  omega

theorem read_same {m m' : Mem} {p : Ptr} (same : m' p.blk = m p.blk) : m'.read p n = m.read p n :=
  read_congr fun i _ => by rw [same]

-- The subtraction of the two counters: 20 bits of the register, 32 of the host.
theorem size_of_counters {register total : UInt32} {appended read : Nat} (within : read ≤ appended)
    (bounded : appended - read < 2 ^ 20) (counted : total.toNat = read % 2 ^ 32)
    (shown : register.toNat % 2 ^ 20 = appended % 2 ^ 20) :
    (((register &&& rxByteMask) + rxByteMax - total) % rxByteMax).toNat = appended - read := by
  have mask : (register &&& rxByteMask).toNat = register.toNat % 2 ^ 20 := by
    rw [UInt32.toNat_and]
    exact Nat.and_two_pow_sub_one_eq_mod register.toNat 20
  have top : rxByteMax.toNat = 2 ^ 20 := rfl
  rw [UInt32.toNat_mod,UInt32.toNat_sub,UInt32.toNat_add,mask,top,counted,shown]
  omega

theorem window_chunk (k : UInt32) : windowOf (chunkAddr extConnWifiSdioFunc k) = k.toNat := by
  have back : espSlaveCmd53EndAddr - (espSlaveCmd53EndAddr - k) = k := by
    apply UInt32.toNat_inj.mp
    have bound := k.toNat_lt
    have stop : espSlaveCmd53EndAddr.toNat = 129024 := rfl
    rw [UInt32.toNat_sub,UInt32.toNat_sub,stop]
    omega
  rw [windowOf,chunkAddr,if_pos rfl,back]

abbrev rxContract (idle : Prop) (blk : Nat) (t : Task) : Contract signature State where
  act := rxSlave.act t
  rely := Around idle blk
  guar _ _ := True
  safe _ _ := True

-- Reading the register tells the backlog and changes nothing.
theorem register_read {t : Task} {s s' : State} {r : EspErr × List UInt8}
    (acted : rxSlave.act t (.sdmmcIoRead 1 espSdioPktLen {increment := true} .reg 4) s r s') :
    s' = s ∧ r.1 = .ok ∧ (overlay 0 r.2).toNat % 2 ^ 20 = s.2.stream.length % 2 ^ 20 := by
  obtain ⟨ans,executed,answered⟩ := act_iff.mp acted
  obtain ⟨result,world,full⟩ := read_exec executed
  have register : isLengthRegister espSdioPktLen {increment := true} 4 := ⟨rfl,rfl,rfl⟩
  have wifi : (1 : UInt32) = extConnWifiSdioFunc := rfl
  simp only [rxSlave,if_pos wifi,RxSlave.onRead,if_pos register] at answered
  split at answered
  · cases answered
  · rename_i success
    simp only [ne_eq,Decidable.not_not] at success
    split at answered
    · rename_i shown
      refine ⟨Prod.ext ?_ (Option.some.inj answered).symm,by rw [result]; exact success,?_⟩
      · rw [world]; rfl
      · rw [result,overlay_word 0 (full success)]; exact shown
    · cases answered

-- Reading a chunk that the backlog covers moves exactly its bytes.
theorem chunk_read {t : Task} {s s' : State} {r : EspErr × List UInt8} {k size : UInt32} {p : Ptr} {n : Nat}
    (acted : rxSlave.act t (.sdmmcIoRead 1 (chunkAddr extConnWifiSdioFunc k) arg (.mem p) size) s r s')
    (packet : arg.blockMode = true ∨ k.toNat < 512) (exact : min size.toNat k.toNat = n) (enough : n ≤ s.2.backlog) :
    r.1 = .ok ∧ s'.2 = s.2.consume n ∧ s'.1 = {s.1 with mem := s.1.mem.write p r.2} ∧
      r.2.length = size.toNat ∧ r.2.take n = s.2.unread.take n := by
  obtain ⟨ans,executed,answered⟩ := act_iff.mp acted
  obtain ⟨result,world,full⟩ := read_exec executed
  have notRegister : ¬ isLengthRegister (chunkAddr extConnWifiSdioFunc k) arg size := by
    rintro ⟨here,byte,_⟩
    rcases packet with block | small
    · rw [block] at byte; cases byte
    · have window := window_chunk k
      rw [here] at window
      have register : windowOf espSdioPktLen = 128928 := rfl
      omega
  have wifi : (1 : UInt32) = extConnWifiSdioFunc := rfl
  simp only [rxSlave,if_pos wifi,RxSlave.onRead,if_neg notRegister,window_chunk,exact,Nat.min_eq_left enough] at answered
  split at answered
  · cases answered
  · rename_i success
    simp only [ne_eq,Decidable.not_not] at success
    split at answered
    · rename_i bytes
      subst result
      exact ⟨success,(Option.some.inj answered).symm,world,full success,bytes⟩
    · cases answered

theorem host_read {t : Task} {s s' : State} {r : SdioHost} (acted : rxSlave.act t .hostGet s r s') :
    r = s.1.host ∧ s' = s := by
  obtain ⟨ans,executed,answered⟩ := act_iff.mp acted
  simp only [World.exec,Option.some.injEq,Prod.mk.injEq] at executed
  exact ⟨executed.1.symm,Prod.ext executed.2.symm (Option.some.inj answered).symm⟩

theorem host_written {t : Task} {s s' : State} {r : Unit} (acted : rxSlave.act t (.hostSet a) s r s') :
    s' = ({s.1 with host := a.apply s.1.host},s.2) := by
  obtain ⟨ans,executed,answered⟩ := act_iff.mp acted
  simp only [World.exec,Option.some.injEq,Prod.mk.injEq] at executed
  exact Prod.ext executed.2.symm (Option.some.inj answered).symm

theorem delayed {t : Task} {s s' : State} {r : Unit} (acted : rxSlave.act t (.taskDelay ms) s r s') : s' = s := by
  obtain ⟨ans,executed,answered⟩ := act_iff.mp acted
  simp only [World.exec,Option.some.injEq,Prod.mk.injEq] at executed
  exact Prod.ext executed.2.symm (Option.some.inj answered).symm

-- `m` is the moment at which the register was read.
def Sized (idle : Prop) (blk : Nat) (s : State) (result : EspErr × Option UInt32) (s' : State) : Prop :=
  ∃ len m, result = (.ok,some len) ∧ Around idle blk s m ∧ Around idle blk m s' ∧ len.toNat = m.2.backlog

theorem getRxDataSize_wp {t : Task} {s : State} (valid : Counted s) :
    wp (rxContract idle blk t) (espExtconnSdioGetRxDataSize extConnWifiSdioFunc) (Sized idle blk s) s := by
  rw [getRxDataSize_wifi,wp_op]
  intro m moved
  refine ⟨trivial,fun r m' acted => ⟨trivial,?_⟩⟩
  obtain ⟨rfl,success,shown⟩ := register_read acted
  rw [if_neg (by simp [success]),wp_op]
  intro s' later
  refine ⟨trivial,fun host s'' asked => ⟨trivial,?_⟩⟩
  obtain ⟨rfl,rfl⟩ := host_read asked
  refine ⟨_,m',rfl,moved,later,?_⟩
  have known := valid.around moved
  rw [later.total]
  exact size_of_counters known.within known.bounded known.counted shown

-- The polling loop ends with the backlog at one of its polls, or times out; it
-- does not time out when bytes were waiting from the start.
structure Polled (idle : Prop) (blk : Nat) (s : State) (result : EspErr × UInt32) (s' : State) : Prop where
  moved : Around idle blk s s'
  found : result.1 = .ok → 0 < result.2.toNat ∧
    ∃ m, Around idle blk s m ∧ Around idle blk m s' ∧ result.2.toNat = m.2.backlog

structure Waited (idle : Prop) (blk : Nat) (s : State) (result : EspErr × UInt32) (s' : State) : Prop
    extends Polled idle blk s result s' where
  timeout : result.1 ≠ .ok → s.2.backlog = 0

theorem Polled.earlier {s s₁ s' : State} (moved : Around idle blk s s₁) (polled : Polled idle blk s₁ result s') :
    Polled idle blk s result s' := by
  refine ⟨around_trans moved polled.moved,fun success => ?_⟩
  obtain ⟨positive,m,before,after,size⟩ := polled.found success
  exact ⟨positive,m,around_trans moved before,after,size⟩

theorem wait_iteration {t : Task} {s : State} {waitMs waitTime : UInt32} (valid : Counted s)
    (rest : ∀ s₁ waitTime, Counted s₁ → wp (rxContract idle blk t)
      (getPacketWait extConnWifiSdioFunc waitMs fuel waitTime) (Polled idle blk s₁) s₁) :
    wp (rxContract idle blk t) (getPacketWait extConnWifiSdioFunc waitMs (fuel + 1) waitTime) (Waited idle blk s) s := by
  rw [getPacketWait]
  simp only [Prog.bind_def,wp_bind]
  refine wp_mono (getRxDataSize_wp valid) ?_
  rintro result s₁ ⟨len,m,rfl,before,after,size⟩
  have moved := around_trans before after
  by_cases positive : len > 0
  · have nonzero : 0 < len.toNat := by simpa [UInt32.lt_iff_toNat_lt] using positive
    simp only [Option.getD_some,positive,and_self,if_true,Prog.pure_def,wp_pure]
    exact ⟨⟨moved,fun _ => ⟨nonzero,m,before,after,size⟩⟩,fun failed => absurd rfl failed⟩
  · have empty : s.2.backlog = 0 := by
      have zero : len.toNat = 0 := by simpa [UInt32.lt_iff_toNat_lt] using positive
      have grown := appends_backlog valid.toBuffered before.slave
      omega
    simp only [Option.getD_some,positive,and_false,if_false,ne_eq,not_true_eq_false,Prog.pure_def,issue_bind]
    refine wp_ite (fun _ => ⟨⟨moved,fun success => ?_⟩,fun _ => empty⟩) fun _ => ?_
    · cases success
    rw [wp_op]
    intro s₂ later
    refine ⟨trivial,fun r s₃ slept => ⟨trivial,?_⟩⟩
    obtain rfl := delayed slept
    have whole := around_trans moved later
    refine wp_mono (rest s₃ _ (valid.around whole)) fun result s' polled => ?_
    exact ⟨polled.earlier whole,fun _ => empty⟩

theorem getPacketWait_wp {t : Task} {s : State} (valid : Counted s) (waitMs : UInt32) (fuel : Nat) (waitTime : UInt32) :
    wp (rxContract idle blk t) (getPacketWait extConnWifiSdioFunc waitMs (fuel + 1) waitTime) (Waited idle blk s) s := by
  refine wait_iteration valid ?_
  induction fuel with
  | zero =>
      intro s₁ waitTime valid
      exact ⟨around_refl s₁,fun success => absurd success (by decide)⟩
  | succ fuel ih =>
      intro s₁ waitTime valid
      exact wp_mono (wait_iteration valid ih) fun _ _ waited => waited.toPolled

-- What the chunk loop does with the next `n` bytes: they arrive in order at `p`,
-- what stands before `p` in its block stays, and so does `total_rx`.
structure Fetched (idle : Prop) (p : Ptr) (n : Nat) (s s' : State) : Prop where
  bytes : s'.1.mem.read p n = s.2.unread.take n
  slave : ∃ more, s'.2 = (s.2.append more).consume n ∧ (idle → more = [])
  bounded : s'.2.backlog < 2 ^ 20
  before : ∀ q k, q.blk = p.blk → q.off + k ≤ p.off → s'.1.mem.read q k = s.1.mem.read q k
  total : s'.1.host.totalRx = s.1.host.totalRx

theorem chunk_fetched {t : Task} {s s₁ s' : State} {r : EspErr × List UInt8} {k size : UInt32} {n : Nat}
    (valid : Buffered s.2) (moved : Around idle p.blk s s₁)
    (acted : rxSlave.act t (.sdmmcIoRead 1 (chunkAddr extConnWifiSdioFunc k) arg (.mem p) size) s₁ r s')
    (packet : arg.blockMode = true ∨ k.toNat < 512) (exact : min size.toNat k.toNat = n) (enough : n ≤ s.2.backlog) :
    r.1 = .ok ∧ Fetched idle p n s s' := by
  have grown := appends_backlog valid moved.slave
  obtain ⟨success,slave,world,full,bytes⟩ := chunk_read acted packet exact (by omega)
  have short : n ≤ r.2.length := by rw [full,← exact]; omega
  have bounded := (valid.appends moved.slave).bounded
  obtain ⟨more,appended,_,quiet⟩ := moved.slave
  refine ⟨success,?_,⟨more,by rw [slave,appended],quiet⟩,?_,?_,?_⟩
  · rw [world,← read_take _ _ short,read_write,bytes,appended]
    exact append_unread_take valid.within enough more
  · rw [slave,consume_backlog]
    omega
  · intro q j same apart
    rw [world,read_write_other _ _ _ _ (.inr (.inl apart))]
    exact read_same (same ▸ moved.buffer)
  · rw [world]
    exact moved.total

theorem Fetched.append {s s₁ s' : State} (valid : Buffered s.2) (one : Fetched idle p n s s₁)
    (two : Fetched idle (p.add k) j s₁ s') (same : k = n) (enough : n + j ≤ s.2.backlog) : Fetched idle p (n + j) s s' := by
  subst k
  obtain ⟨more,slave,quiet⟩ := one.slave
  obtain ⟨more',slave',quiet'⟩ := two.slave
  refine ⟨?_,⟨more ++ more',?_,fun still => ?_⟩,two.bounded,?_,two.total.trans one.total⟩
  · have first : s'.1.mem.read p n = s.2.unread.take n := by
      rw [two.before p n rfl (by simp),one.bytes]
    have second : s₁.2.unread.take j = (s.2.unread.drop n).take j := by
      rw [slave,consume_unread,append_unread valid.within]
      rw [List.drop_append_of_le_length (by rw [unread_length]; omega)]
      exact List.take_append_of_le_length (by rw [List.length_drop,unread_length]; omega)
    rw [read_append,first,two.bytes,second,← List.take_add]
  · rw [slave',slave]
    simp [RxSlave.append,RxSlave.consume,Nat.add_assoc]
  · rw [quiet still,quiet' still,List.append_nil]
  · intro q i same apart
    rw [two.before q i same (by simp only [Ptr.add_off]; omega)]
    exact one.before q i same apart

theorem Fetched.buffered {s s' : State} (valid : Buffered s.2) (fetched : Fetched idle p n s s') (enough : n ≤ s.2.backlog) :
    Buffered s'.2 := by
  obtain ⟨more,slave,_⟩ := fetched.slave
  refine ⟨?_,fetched.bounded⟩
  have within := valid.within
  rw [slave]
  simp only [RxSlave.backlog] at enough
  simp only [RxSlave.append,RxSlave.consume,List.length_append]
  omega

theorem Fetched.backlog {s s' : State} (valid : Buffered s.2) (fetched : Fetched idle p n s s') :
    s.2.backlog - n ≤ s'.2.backlog := by
  obtain ⟨more,slave,_⟩ := fetched.slave
  rw [slave,consume_backlog,append_backlog _ valid.within]
  omega

theorem tail_wp {t : Task} {s : State} {len : UInt32} (valid : Buffered s.2) (p : Ptr)
    (small : len.toNat < 512) (enough : len.toNat ≤ s.2.backlog) : wp (rxContract idle p.blk t)
      (readTail extConnWifiSdioFunc p len) (fun err s' => err = .ok ∧ Fetched idle p len.toNat s s') s := by
  have rounded := roundFour_toNat small
  rw [readTail,wp_op]
  intro s₁ moved
  refine ⟨trivial,fun r s' acted => ⟨trivial,?_⟩⟩
  exact chunk_fetched valid moved acted (.inr small) (by omega) enough

theorem chunks_wp {t : Task} {s : State} {len : UInt32} (valid : Buffered s.2) (p : Ptr) (nonzero : 0 < len.toNat)
    (enough : len.toNat ≤ s.2.backlog) : wp (rxContract idle p.blk t)
      (getPacketChunks extConnWifiSdioFunc (len.toNat + 1) p len)
      (fun err s' => err = .ok ∧ Fetched idle p len.toNat s s') s := by
  by_cases small : len.toNat < 512
  · rw [getPacketChunks_tail _ _ _ nonzero small]
    exact tail_wp valid p small enough
  have blocks := blocksOf_toNat len
  have rest := tailOf_toNat len
  obtain ⟨fuel,bound⟩ : ∃ fuel, len.toNat + 1 = fuel + 2 := ⟨len.toNat - 1,by omega⟩
  rw [bound,getPacketChunks_blocks _ _ _ (by omega),wp_op]
  intro s₁ moved
  refine ⟨trivial,fun r s₂ acted => ⟨trivial,?_⟩⟩
  obtain ⟨success,first⟩ := chunk_fetched valid moved acted (.inl rfl) (Nat.min_eq_left (by omega)) (by omega)
  rw [if_neg (by simp [success])]
  by_cases done : tailOf len = 0
  · have whole : (blocksOf len).toNat = len.toNat := by
      rw [done] at rest
      have zero : (0 : UInt32).toNat = 0 := rfl
      omega
    rw [if_pos done,wp_pure]
    exact ⟨rfl,whole ▸ first⟩
  · rw [if_neg done]
    have left := first.backlog valid
    have tail := @tail_wp idle t s₂ (tailOf len) (first.buffered valid (by omega)) (p.add (blocksOf len).toNat)
      (by omega) (by omega)
    refine wp_mono tail ?_
    rintro err s' ⟨rfl,second⟩
    have split : (blocksOf len).toNat + (tailOf len).toNat = len.toNat := by omega
    exact ⟨rfl,split ▸ first.append valid second rfl (by omega)⟩

-- One call of `get_packet` on function 1.
structure Called (idle : Prop) (outBuf : Ptr) (size : UInt32) (s : State) (result : EspErr × Option UInt32) (s' : State) :
    Prop where
  counted : Counted s'
  appended : ∃ more, s'.2.stream = s.2.stream ++ more ∧ (idle → more = [])
  delivered : ∀ n, result.1 = .ok → result.2 = some n → 0 < n.toNat ∧ s'.2.read = s.2.read + n.toNat ∧
    s'.1.mem.read outBuf n.toNat = (s'.2.stream.drop s.2.read).take n.toNat ∧
    ∃ m, Around idle outBuf.blk s m ∧ n.toNat = min size.toNat m.2.backlog
  missed : result.1 ≠ .ok → result.2 = none ∧ s'.2.read = s.2.read ∧ s.2.backlog = 0
  answered : result.1 = .ok → result.2 ≠ none

theorem Fetched.stream {s s' : State} (valid : Buffered s.2) (fetched : Fetched idle p n s s') (enough : n ≤ s.2.backlog) :
    s'.2.read = s.2.read + n ∧ s'.1.mem.read p n = (s'.2.stream.drop s.2.read).take n ∧
      ∃ more, s'.2.stream = s.2.stream ++ more ∧ (idle → more = []) := by
  obtain ⟨more,slave,quiet⟩ := fetched.slave
  refine ⟨by rw [slave]; rfl,?_,more,by rw [slave]; rfl,quiet⟩
  rw [fetched.bytes,slave]
  exact (append_unread_take valid.within enough more).symm

theorem appends_stream {d d' : RxSlave} (moved : d.appends idle d') :
    d'.read = d.read ∧ ∃ more, d'.stream = d.stream ++ more ∧ (idle → more = []) := by
  obtain ⟨more,slave,_,quiet⟩ := moved
  exact ⟨by rw [slave]; rfl,more,by rw [slave]; rfl,quiet⟩

theorem count_up {total n : UInt32} {read : Nat} (counted : total.toNat = read % 2 ^ 32) :
    (total + n).toNat = (read + n.toNat) % 2 ^ 32 := by
  rw [UInt32.toNat_add,counted]
  omega

theorem cut_toNat (len size : UInt32) : (if len > size then size else len).toNat = min size.toNat len.toNat := by
  by_cases above : len > size
  · have less : size.toNat < len.toNat := UInt32.lt_iff_toNat_lt.mp above
    rw [if_pos above]
    omega
  · have less : ¬ size.toNat < len.toNat := fun less => above (UInt32.lt_iff_toNat_lt.mpr less)
    rw [if_neg above]
    omega

-- `count` reads `total_rx` in `s₃` and writes it in `s₄`.
theorem called_fetched {s s₁ s₂ s₃ s₄ : State} {n size : UInt32} (valid : Counted s) (moved : Around idle outBuf.blk s s₁)
    (fetched : Fetched idle outBuf n.toNat s₁ s₂) (enough : n.toNat ≤ s₁.2.backlog) (read : Around idle outBuf.blk s₂ s₃)
    (written : Around idle outBuf.blk s₃ s₄) (positive : 0 < n.toNat)
    (polled : ∃ m, Around idle outBuf.blk s m ∧ n.toNat = min size.toNat m.2.backlog) :
    Called idle outBuf size s (.ok,some n)
      ({s₄.1 with host := (HostAssign.totalRx (s₃.1.host.totalRx + n)).apply s₄.1.host},s₄.2) := by
  have known := valid.around moved
  have later := around_trans read written
  have buffered := (fetched.buffered known.toBuffered enough).appends later.slave
  obtain ⟨read₂,bytes,more₂,stream₂,quiet₂⟩ := fetched.stream known.toBuffered enough
  obtain ⟨read₁,more₁,stream₁,quiet₁⟩ := appends_stream moved.slave
  obtain ⟨read₄,more₄,stream₄,quiet₄⟩ := appends_stream later.slave
  refine ⟨⟨buffered,?_⟩,⟨more₁ ++ more₂ ++ more₄,?_,fun still => ?_⟩,?_,fun failed => absurd rfl failed,by simp⟩
  · rw [read₄,read₂,read.total,fetched.total]
    exact count_up known.counted
  · rw [stream₄,stream₂,stream₁]
    simp only [List.append_assoc]
  · rw [quiet₁ still,quiet₂ still,quiet₄ still]
    rfl
  · rintro k - ⟨⟩
    refine ⟨positive,by rw [read₄,read₂,read₁],?_,polled⟩
    have short : n.toNat ≤ (s₂.2.stream.drop s₁.2.read).length := by
      rw [List.length_drop,stream₂,List.length_append]
      simp only [RxSlave.backlog] at enough
      omega
    have within : s₁.2.read ≤ s₂.2.stream.length := by
      rw [stream₂,List.length_append]
      exact Nat.le_trans known.within (Nat.le_add_right _ _)
    have same : s₄.1.mem.read outBuf n.toNat = s₂.1.mem.read outBuf n.toNat := read_same later.buffer
    rw [same,bytes,stream₄,← read₁,List.drop_append_of_le_length within,List.take_append_of_le_length short]

theorem getPacket_wp {t : Task} {s : State} (valid : Counted s) (outBuf : Ptr) (size waitMs : UInt32) (positive : size > 0) :
    wp (rxContract idle outBuf.blk t) (espExtconnSdioGetPacket extConnWifiSdioFunc outBuf size waitMs)
      (Called idle outBuf size s) s := by
  have some_size : 0 < size.toNat := by simpa [UInt32.lt_iff_toNat_lt] using positive
  have wifi : extConnWifiSdioFunc ≠ extConnBtSdioFunc := by decide
  unfold espExtconnSdioGetPacket
  simp only [positive,not_true_eq_false,if_false,Prog.bind_def,wp_bind,Prog.pure_def,issue_bind]
  refine wp_mono (getPacketWait_wp valid waitMs _ 0) ?_
  rintro ⟨err,len⟩ s₁ waited
  have known := valid.around waited.moved
  simp only
  refine wp_ite (fun failed => ?_) fun polled => ?_
  · obtain ⟨read,more,stream,quiet⟩ := appends_stream waited.moved.slave
    rw [wp_pure]
    refine ⟨known,⟨more,stream,quiet⟩,fun _ done => absurd done failed,fun _ => ?_,fun done => absurd done failed⟩
    exact ⟨rfl,read,waited.timeout failed⟩
  obtain ⟨nonzero,m,before,after,found⟩ := waited.found (Decidable.not_not.mp polled)
  have grown := appends_backlog (valid.around before).toBuffered after.slave
  have cut := cut_toNat len size
  generalize (if len > size then size else len) = n at cut ⊢
  simp only at nonzero found
  have enough : n.toNat ≤ s₁.2.backlog := by omega
  rw [wp_bind]
  refine wp_mono (chunks_wp known.toBuffered outBuf (by omega) enough) ?_
  rintro err s₂ ⟨rfl,fetched⟩
  simp only [wifi,ne_eq,not_true_eq_false,not_false_eq_true,if_true,if_false]
  rw [wp_op]
  intro s₃ moved₃
  refine ⟨trivial,fun host s₃' asked => ⟨trivial,?_⟩⟩
  obtain ⟨rfl,rfl⟩ := host_read asked
  rw [wp_op]
  intro s₄ moved₄
  refine ⟨trivial,fun r s' written => ⟨trivial,?_⟩⟩
  obtain rfl := host_written written
  exact called_fetched valid waited.moved fetched enough moved₃ moved₄ (by omega) ⟨m,before,by omega⟩

end ExtConn.RxStream
