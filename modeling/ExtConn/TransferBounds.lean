import ExtConn.Footprint
import ExtConn.RegisterWindow
import ExtConn.TruncatedRead

namespace ExtConn.TransferBounds
open Effects ByteMemory TruncatedRead

abbrev State := World × Unit

-- `n` bytes at `p` lie in a buffer of the caller, or in a block that the call
-- has allocated itself and not freed.
def Allowed (given : List (Ptr × Nat)) (own : Nat) (w : World) (p : Ptr) (n : Nat) : Prop :=
  (∃ g ∈ given, p.blk = g.1.blk ∧ g.1.off ≤ p.off ∧ p.off + n ≤ g.1.off + g.2) ∨
  (own ≤ p.blk ∧ ∃ k, w.blocks p.blk = some k ∧ p.off + n ≤ k)

-- A transfer from or to a local variable stays within its four bytes.
def Inside (given : List (Ptr × Nat)) (own : Nat) (w : World) : Op → Prop
  | .sdmmcIoRead _ _ _ (.mem p) n => Allowed given own w p n.toNat
  | .sdmmcIoRead _ _ _ .reg n => n.toNat ≤ 4
  | .sdmmcIoWrite _ _ _ (.mem p) n => Allowed given own w p n.toNat
  | .sdmmcIoWrite _ _ _ (.reg bytes) n => n.toNat ≤ bytes.length
  | .load p n => Allowed given own w p n
  | .store p bytes => Allowed given own w p bytes.length
  | _ => True

-- A slave that reports a backlog of `len` bytes whenever it is read without
-- failure; everything else is left open.
def telling (function : UInt32) (len : Nat) : Slave Unit where
  answers _ w o ans d := match o with
    | .sdmmcIoRead f addr _ dst _ =>
      if dst = .reg ∧ f = 1 ∧ addr = lengthRegister function ∧ ans.err = .ok ∧
        backlogTold function w.host.totalRx ans.data ≠ len then none else some d
    | _ => some d
  moves _ _ := True

-- What the length register of a function can tell.
def backlogRange (function : UInt32) : Nat := if function = extConnBtSdioFunc then 2 ^ 24 else 2 ^ 20

-- The operations of the adapter and their arguments.
inductive Call where
  | init (initialised : Bool) (retries : Nat)
  | start (retries : Nat)
  | readRegWindow (regAddr : UInt32) (value : Ptr)
  | writeRegWindow (regAddr : UInt32) (value : Ptr)
  | getBufferSize
  | getRxDataSize (function : UInt32)
  | getPacket (function : UInt32) (outBuf : Ptr) (size waitMs : UInt32)
  | sendPacket (function : UInt32) (buf : Ptr) (length : UInt32)
  | clearIntr (intr0 intr1 : UInt32)
  | getIntr (intrRaw intrSt : Option UInt32)
  | waitInt (wait : Option UInt32)
  | readBytes (function addr : UInt32) (dst : Ptr) (size : UInt32)
  | writeBytes (function addr : UInt32) (src : Ptr) (size : UInt32)

namespace Call

-- The loop of the start asks at least once.
def code : Call → Code Unit
  | init initialised retries => (espExtconnSdioInit initialised (retries + 1)).bind fun _ => .pure ()
  | start retries => (espExtconnSdioStart retries).bind fun _ => .pure ()
  | readRegWindow regAddr value => (espExtconnSdioReadRegWindow regAddr value).bind fun _ => .pure ()
  | writeRegWindow regAddr value => (espExtconnSdioWriteRegWindow regAddr value).bind fun _ => .pure ()
  | getBufferSize => espExtconnSdioGetBufferSize.bind fun _ => .pure ()
  | getRxDataSize function => (espExtconnSdioGetRxDataSize function).bind fun _ => .pure ()
  | getPacket function outBuf size waitMs => (espExtconnSdioGetPacket function outBuf size waitMs).bind fun _ => .pure ()
  | sendPacket function buf length => (espExtconnSdioSendPacket function buf length).bind fun _ => .pure ()
  | clearIntr intr0 intr1 => (espExtconnSdioClearIntr intr0 intr1).bind fun _ => .pure ()
  | getIntr intrRaw intrSt => (espExtconnSdioGetIntr intrRaw intrSt).bind fun _ => .pure ()
  | waitInt wait => (espExtconnSdioWaitInt wait).bind fun _ => .pure ()
  | readBytes function addr dst size => (espExtconnSdioReadBytes function addr (.mem dst) size).bind fun _ => .pure ()
  | writeBytes function addr src size => (espExtconnSdioWriteBytes function addr (.mem src) size).bind fun _ => .pure ()

-- The buffers handed over by the caller.
def buffers : Call → List (Ptr × Nat)
  | readRegWindow _ value => [(value,4)]
  | writeRegWindow _ value => [(value,4)]
  | getPacket _ outBuf size _ => [(outBuf,size.toNat)]
  | sendPacket _ buf length => [(buf,length.toNat)]
  | readBytes _ _ dst size => [(dst,size.toNat)]
  | writeBytes _ _ src size => [(src,size.toNat)]
  | _ => []

def function : Call → UInt32
  | getRxDataSize function => function
  | getPacket function _ _ _ => function
  | _ => extConnWifiSdioFunc

-- What keeps a call within its buffers, while the slave reports `len` bytes.
def Fits (len : Nat) : Call → Prop
  | getPacket _ _ size _ => (min size.toNat len + 3) / 4 * 4 ≤ size.toNat
  | sendPacket _ _ length => length.toNat % 4 = 0
  | writeRegWindow regAddr _ => ¬ regAddr >>> 2 ≤ 0x7f
  | init initialised _ => initialised = true
  | _ => True

-- Every access that any run of the call issues, whatever fails on the way.
def StaysInside (c : Call) (len : Nat) (t : Task) (w : World) : Prop :=
  ∀ o s, Issues Eq ((telling c.function len).act t) c.code (w,()) o s → Inside c.buffers w.fresh s.1 o

end Call

def guarded (function : UInt32) (len : Nat) (t : Task) (given : List (Ptr × Nat)) (own : Nat) : Contract signature State where
  act := (telling function len).act t
  rely := Eq
  guar _ _ := True
  safe o s := Inside given own s.1 o

section
variable {function : UInt32} {len : Nat} {t : Task} {given : List (Ptr × Nat)} {own : Nat} {s : State}

theorem guarded_op {o : Op} {next : o.Answer → Code α} {post : α → State → Prop} (safe : Inside given own s.1 o)
    (rest : ∀ ans r w d, World.exec t o ans s.1 = some (r,w) → (telling function len).answers t s.1 o ans s.2 = some d →
      wp (guarded function len t given own) (next r) post (w,d)) :
    wp (guarded function len t given own) (Prog.op o next : Code α) post s := by
  intro s₁ same
  cases same
  refine ⟨safe,fun r s' acted => ⟨trivial,?_⟩⟩
  obtain ⟨ans,ran,answered⟩ := act_iff.mp acted
  exact rest ans r s'.1 s'.2 ran answered

theorem guarded_step {o : Op} {next : o.Answer → Code α} {post : α → State → Prop} {r : o.Answer} {w : World} {d : Unit}
    (holds : wp (guarded function len t given own) (Prog.op o next : Code α) post s) (ans : Ans)
    (ran : World.exec t o ans s.1 = some (r,w)) (answered : (telling function len).answers t s.1 o ans s.2 = some d) :
    wp (guarded function len t given own) (next r) post (w,d) :=
  wp_step holds (Eq.refl s) (act_iff.mpr ⟨ans,ran,answered⟩)

-- A program whose accesses stay inside in every state.
theorem always_inside {p : Code α} (all : p.All fun o => ∀ w, Inside given own w o) :
    wp (guarded function len t given own) p (fun _ _ => True) s := by
  apply wp_all (I := fun _ => True) all
  · exact fun _ _ held _ => held
  · exact fun _ s inside _ => ⟨inside s.1,fun _ _ _ => ⟨trivial,trivial⟩⟩
  · trivial
  · exact fun _ _ _ => trivial

end

theorem given_allowed {p q : Ptr} {size n own : Nat} (w : World) (same : q.blk = p.blk) (low : p.off ≤ q.off)
    (high : q.off + n ≤ p.off + size) : Allowed [(p,size)] own w q n :=
  .inl ⟨(p,size),List.mem_singleton.mpr rfl,same,low,high⟩

theorem own_allowed {given : List (Ptr × Nat)} {p : Ptr} {n own k : Nat} {w : World} (owned : own ≤ p.blk)
    (block : w.blocks p.blk = some k) (fits : p.off + n ≤ k) : Allowed given own w p n := .inr ⟨owned,k,block,fits⟩

-- The block of the caller's buffer was there before the call.
theorem allowed_given {p q : Ptr} {size n own : Nat} {w : World} (placed : p.blk < own) (same : q.blk = p.blk)
    (allowed : Allowed [(p,size)] own w q n) : q.off + n ≤ p.off + size := by
  cases allowed with
  | inl inside =>
      obtain ⟨g,member,-,-,high⟩ := inside
      cases List.mem_singleton.mp member
      exact high
  | inr owned => exact absurd (same ▸ owned.1) (Nat.not_le.mpr placed)

-- The calls that touch nothing but the caller's buffer and locals.
section
variable {given : List (Ptr × Nat)} {own : Nat}

theorem register_inside (addr : UInt32) (w : World) : Inside given own w (.sdmmcIoRead 1 addr {increment := true} .reg 4) := by
  show (4 : UInt32).toNat ≤ 4
  decide

theorem checked_all {P : Op → Prop} {err : EspErr} {value : α} {p : Code α} (rest : p.All P) :
    (if err ≠ .ok then .pure value else p : Code α).All P := Prog.All.ite (fun _ => trivial) fun _ => rest

theorem start_inside (retries : Nat) : (espExtconnSdioStart retries).All fun o => ∀ w, Inside given own w o := by
  have idle : (goIdleLoop retries).All fun o => ∀ w, Inside given own w o := by
    induction retries with
    | zero => trivial
    | succ retries ih => exact ⟨fun _ => trivial,fun _ => Prog.All.ite (fun _ => ⟨fun _ => trivial,fun _ => ih⟩) fun _ => trivial⟩
  have sizes : ∀ offset, (setBlockSize offset).All fun o => ∀ w, Inside given own w o := by
    intro offset
    exact ⟨fun _ => trivial,fun _ => ⟨fun _ => trivial,fun _ => ⟨fun _ => trivial,fun _ => ⟨fun _ => trivial,fun _ =>
      ⟨fun _ => trivial,fun _ => ⟨fun _ => trivial,fun _ => trivial⟩⟩⟩⟩⟩⟩
  have configure : sdioStartConfigure.All fun o => ∀ w, Inside given own w o := by
    unfold sdioStartConfigure
    simp only [Prog.bind_def,issue_bind,Prog.pure_def]
    have last : ((setBlockSize 0x100).bind fun _ => (setBlockSize 0x200).bind fun _ => (.pure .ok : Code EspErr)).All
        fun o => ∀ w, Inside given own w o := (sizes _).bind fun _ => (sizes _).bind fun _ => trivial
    exact ⟨fun _ => trivial,fun _ => checked_all ⟨fun _ => trivial,fun _ => checked_all ⟨fun _ => trivial,fun _ => checked_all
      ⟨fun _ => trivial,fun _ => checked_all last⟩⟩⟩⟩
  apply idle.bind
  intro result
  cases result with
  | none => trivial
  | some err => exact Prog.All.ite (fun _ => trivial) fun _ => configure.bind fun _ => trivial

theorem getIntr_inside (intrRaw intrSt : Option UInt32) :
    (espExtconnSdioGetIntr intrRaw intrSt).All fun o => ∀ w, Inside given own w o := by
  unfold espExtconnSdioGetIntr
  simp only [readRegister,Prog.bind_def,Prog.op_bind,Prog.pure_bind,Prog.pure_def]
  apply Prog.All.ite
  · exact fun _ => trivial
  intro _
  cases intrRaw with
  | none =>
      apply checked_all
      cases intrSt with
      | none => exact checked_all trivial
      | some st => exact ⟨register_inside espSdioIntRaw1,fun r => checked_all trivial⟩
  | some raw =>
      constructor
      · exact register_inside espSdioIntRaw
      · intro r
        apply checked_all
        cases intrSt with
        | none => exact checked_all trivial
        | some st => exact ⟨register_inside espSdioIntRaw1,fun r => checked_all trivial⟩

-- The part of a size that one transfer takes.
theorem transfer_le (size : UInt32) : (if size &&& ~~~3 > 0 then size &&& ~~~3 else size) ≤ size := by
  split
  · rw [UInt32.le_iff_toNat_le,Words.align_four]
    exact Nat.div_mul_le_self _ _
  · exact UInt32.le_refl size

theorem readBytesLoop_inside {p : Ptr} {n : Nat} (function : UInt32) (arg : Cmd53Arg) (fuel : Nat) {addr size : UInt32} {q : Ptr}
    {got : List UInt8} (same : q.blk = p.blk) (low : p.off ≤ q.off) (high : q.off + size.toNat ≤ p.off + n) :
    (readBytesLoop function arg fuel addr (.mem q) size got).All fun o => ∀ w, Inside [(p,n)] own w o := by
  induction fuel generalizing addr size q got with
  | zero => trivial
  | succ fuel ih =>
      unfold readBytesLoop
      apply Prog.All.ite
      · intro _
        have part := transfer_le size
        simp only [Prog.bind_def,issue_bind,Prog.pure_def]
        generalize (if size &&& ~~~3 > 0 then size &&& ~~~3 else size) = will at part ⊢
        have below := UInt32.le_iff_toNat_le.mp part
        have rest : (size - will).toNat = size.toNat - will.toNat := UInt32.toNat_sub_of_le _ _ part
        constructor
        · exact fun w => given_allowed w same low (by omega)
        · intro r
          apply checked_all
          apply ih (q := q.add will.toNat) same
          · exact Nat.le_trans low (Nat.le_add_right _ _)
          · rw [rest,Ptr.add_off]
            omega
      · exact fun _ => trivial

theorem writeBytesLoop_inside {p : Ptr} {n : Nat} (function : UInt32) (arg : Cmd53Arg) (fuel : Nat) {addr size : UInt32} {q : Ptr}
    (same : q.blk = p.blk) (low : p.off ≤ q.off) (high : q.off + size.toNat ≤ p.off + n) :
    (writeBytesLoop function arg fuel addr (.mem q) size).All fun o => ∀ w, Inside [(p,n)] own w o := by
  induction fuel generalizing addr size q with
  | zero => trivial
  | succ fuel ih =>
      unfold writeBytesLoop
      apply Prog.All.ite
      · intro _
        have part := transfer_le size
        simp only [Prog.bind_def,issue_bind,Prog.pure_def]
        generalize (if size &&& ~~~3 > 0 then size &&& ~~~3 else size) = will at part ⊢
        have below := UInt32.le_iff_toNat_le.mp part
        have rest : (size - will).toNat = size.toNat - will.toNat := UInt32.toNat_sub_of_le _ _ part
        constructor
        · exact fun w => given_allowed w same low (by omega)
        · intro r
          apply checked_all
          apply ih (q := q.add will.toNat) same
          · exact Nat.le_trans low (Nat.le_add_right _ _)
          · rw [rest,Ptr.add_off]
            omega
      · exact fun _ => trivial

end

-- The two loops over a packet, whose last transfer is rounded up.
section
variable {function : UInt32} {len : Nat} {t : Task} {given : List (Ptr × Nat)} {own : Nat} {s : State}

theorem getChunks_inside {n : UInt32} {p : Ptr} {size : Nat} (f : UInt32) (nonzero : 0 < n.toNat)
    (fits : (n.toNat + 3) / 4 * 4 ≤ size) :
    (getPacketChunks f (n.toNat + 1) p n).All fun o => ∀ w, Inside [(p,size)] own w o := by
  have blocks := blocksOf_toNat n
  have tail := tailOf_toNat n
  by_cases small : n.toNat < 512
  · have rounded := roundFour_toNat small
    rw [getPacketChunks_tail f _ _ nonzero small]
    exact ⟨fun w => given_allowed w rfl (Nat.le_refl _) (by omega),fun _ => trivial⟩
  · obtain ⟨fuel,enough⟩ : ∃ fuel, n.toNat + 1 = fuel + 2 := ⟨n.toNat - 1,by omega⟩
    have rounded : (roundFour (tailOf n)).toNat = (n.toNat % 512 + 3) / 4 * 4 := by
      rw [roundFour_toNat (by omega),tail]
    rw [enough,getPacketChunks_blocks f _ _ (by omega)]
    refine ⟨fun w => given_allowed w rfl (Nat.le_refl _) (by omega),fun r => checked_all ?_⟩
    apply Prog.All.ite
    · exact fun _ => trivial
    intro _
    exact ⟨fun w => given_allowed w rfl (Nat.le_add_right _ _) (by rw [Ptr.add_off]; omega),fun _ => trivial⟩

theorem sendChunks_inside {n : UInt32} {p : Ptr} {size : Nat} (f addr : UInt32) (fits : (n.toNat + 3) / 4 * 4 ≤ size) :
    (sendPacketChunks f addr (n.toNat + 1) p n).All fun o => ∀ w, Inside [(p,size)] own w o := by
  have blocks := blocksOf_toNat n
  have tail := tailOf_toNat n
  by_cases nonzero : 0 < n.toNat
  · by_cases small : n.toNat < 512
    · have rounded := roundFour_toNat small
      rw [sendPacketChunks_tail f addr _ _ nonzero small]
      exact ⟨fun w => given_allowed w rfl (Nat.le_refl _) (by omega),fun _ => trivial⟩
    · obtain ⟨fuel,enough⟩ : ∃ fuel, n.toNat + 1 = fuel + 2 := ⟨n.toNat - 1,by omega⟩
      have rounded : (roundFour (tailOf n)).toNat = (n.toNat % 512 + 3) / 4 * 4 := by
        rw [roundFour_toNat (by omega),tail]
      rw [enough,sendPacketChunks_blocks f addr _ _ (by omega)]
      refine ⟨fun w => given_allowed w rfl (Nat.le_refl _) (by omega),fun r => checked_all ?_⟩
      apply Prog.All.ite
      · exact fun _ => trivial
      intro _
      exact ⟨fun w => given_allowed w rfl (Nat.le_add_right _ _) (by rw [Ptr.add_off]; omega),fun _ => trivial⟩
  · have zero : n = 0 := Decidable.not_not.mp fun some => nonzero ((toNat_ne_zero n).mp some)
    rw [zero]
    trivial

theorem packet_answered {f addr n : UInt32} {arg : Cmd53Arg} {p : Ptr} (w : World) (ans : Ans) (d : Unit) :
    (telling function len).answers t w (.sdmmcIoRead f addr arg (.mem p) n) ans d = some d := by
  simp only [telling,reduceCtorEq,false_and,if_false]

theorem read_step {f addr n : UInt32} {arg : Cmd53Arg} {p : Ptr} {next : EspErr × List UInt8 → Code α} {post : α → State → Prop}
    (holds : wp (guarded function len t given own) (.op (.sdmmcIoRead f addr arg (.mem p) n) next) post s) :
    ∃ data s', wp (guarded function len t given own) (next (.ok,data)) post s' := by
  have full : (List.replicate n.toNat (0 : UInt8)).length = n.toNat := List.length_replicate
  have ran : World.exec t (.sdmmcIoRead f addr arg (.mem p) n) {data := List.replicate n.toNat 0} s.1 =
      some ((.ok,List.replicate n.toNat 0),{s.1 with mem := s.1.mem.write p (List.replicate n.toNat 0)}) := if_pos full
  exact ⟨_,_,guarded_step holds _ ran (packet_answered _ _ _)⟩

theorem getChunks_needs {n : UInt32} {p : Ptr} {size : Nat} {f : UInt32} {post : EspErr → State → Prop} (nonzero : 0 < n.toNat)
    (placed : p.blk < own)
    (holds : wp (guarded function len t [(p,size)] own) (getPacketChunks f (n.toNat + 1) p n) post s) :
    (n.toNat + 3) / 4 * 4 ≤ size := by
  have blocks := blocksOf_toNat n
  have tail := tailOf_toNat n
  by_cases small : n.toNat < 512
  · have rounded := roundFour_toNat small
    rw [getPacketChunks_tail f _ _ nonzero small] at holds
    have last := allowed_given placed rfl (wp_safe holds rfl)
    omega
  · obtain ⟨fuel,enough⟩ : ∃ fuel, n.toNat + 1 = fuel + 2 := ⟨n.toNat - 1,by omega⟩
    rw [enough,getPacketChunks_blocks f _ _ (by omega)] at holds
    have first := allowed_given placed rfl (wp_safe holds rfl)
    by_cases done : tailOf n = 0
    · have whole : (tailOf n).toNat = 0 := by rw [done]; rfl
      omega
    · obtain ⟨data,s',second⟩ := read_step holds
      rw [if_neg (not_not_intro rfl),if_neg done] at second
      have last := allowed_given placed (Ptr.add_blk p _) (wp_safe second rfl)
      rw [roundFour_toNat (by omega),Ptr.add_off] at last
      omega

theorem sendChunks_needs {n : UInt32} {p : Ptr} {size : Nat} {f addr : UInt32} {post : EspErr → State → Prop} (placed : p.blk < own)
    (holds : wp (guarded function len t [(p,size)] own) (sendPacketChunks f addr (n.toNat + 1) p n) post s) :
    (n.toNat + 3) / 4 * 4 ≤ size := by
  have blocks := blocksOf_toNat n
  have tail := tailOf_toNat n
  by_cases nonzero : 0 < n.toNat
  · by_cases small : n.toNat < 512
    · have rounded := roundFour_toNat small
      rw [sendPacketChunks_tail f addr _ _ nonzero small] at holds
      have last := allowed_given placed rfl (wp_safe holds rfl)
      omega
    · obtain ⟨fuel,enough⟩ : ∃ fuel, n.toNat + 1 = fuel + 2 := ⟨n.toNat - 1,by omega⟩
      rw [enough,sendPacketChunks_blocks f addr _ _ (by omega)] at holds
      have first := allowed_given placed rfl (wp_safe holds rfl)
      by_cases done : tailOf n = 0
      · have whole : (tailOf n).toNat = 0 := by rw [done]; rfl
        omega
      · have second := guarded_step holds {} rfl rfl
        rw [if_neg (not_not_intro rfl),if_neg done] at second
        have last := allowed_given placed (Ptr.add_blk p _) (wp_safe second rfl)
        rw [roundFour_toNat (by omega),Ptr.add_off] at last
        omega
  · omega

-- The length register, read.
theorem getRxDataSize_eq (other : function ≠ extConnBtSdioFunc) :
    espExtconnSdioGetRxDataSize function = espExtconnSdioGetRxDataSize extConnWifiSdioFunc := by
  have wifi : ¬ extConnWifiSdioFunc = extConnBtSdioFunc := by decide
  unfold espExtconnSdioGetRxDataSize
  simp only [if_neg other,if_neg wifi]

theorem backlogTold_eq (other : function ≠ extConnBtSdioFunc) (total : UInt32) (word : List UInt8) :
    backlogTold function total word = backlogTold extConnWifiSdioFunc total word := by
  have wifi : ¬ extConnWifiSdioFunc = extConnBtSdioFunc := by decide
  unfold backlogTold
  rw [if_neg other,if_neg wifi]

theorem lengthRegister_eq (other : function ≠ extConnBtSdioFunc) : lengthRegister function = espSdioPktLen := if_neg other

theorem told_answer {ans : Ans} {w : World} {d d' : Unit}
    (answered : (telling function len).answers t w (.sdmmcIoRead 1 (lengthRegister function) {increment := true} .reg 4) ans d = some d') :
    ans.err = .ok → backlogTold function w.host.totalRx ans.data = len := by
  intro success
  by_contra different
  simp [telling,success,different] at answered

theorem getRxDataSize_inside {post : EspErr × Option UInt32 → State → Prop}
    (rest : ∀ r s', (r.1 = .ok → ∃ told, r.2 = some told ∧ told.toNat = len) → post r s') :
    wp (guarded function len t given own) (espExtconnSdioGetRxDataSize function) post s := by
  by_cases bt : function = extConnBtSdioFunc
  · subst bt
    rw [getRxDataSize_bt]
    apply guarded_op (register_inside _ _)
    intro ans r w d ran answered
    obtain ⟨rfl,rfl,full⟩ := read_exec ran
    by_cases success : ans.err = .ok
    · rw [if_neg (not_not_intro success)]
      have told := told_answer answered success
      exact rest _ _ fun _ => ⟨_,rfl,(toldBt_toNat (full success) _).trans told⟩
    · rw [if_pos success]
      exact rest _ _ fun same => absurd same success
  · rw [getRxDataSize_eq bt,getRxDataSize_wifi]
    apply guarded_op (register_inside _ _)
    intro ans r w d ran answered
    obtain ⟨rfl,rfl,full⟩ := read_exec ran
    by_cases success : ans.err = .ok
    · rw [if_neg (not_not_intro success)]
      have told := told_answer (lengthRegister_eq bt ▸ answered) success
      rw [backlogTold_eq bt] at told
      apply guarded_op
      · trivial
      intro ans' r' w' d' ran' _
      cases ran'
      exact rest _ _ fun _ => ⟨_,rfl,(told_wifi (full success) _).trans told⟩
    · rw [if_pos success]
      exact rest _ _ fun same => absurd same success

-- Every backlog in range is told by some word.
theorem told_by (function total : UInt32) {len : Nat} (told : len < backlogRange function) :
    ∃ word : List UInt8, word.length = 4 ∧ backlogTold function total word = len := by
  by_cases bt : function = extConnBtSdioFunc
  · rw [backlogRange,if_pos bt] at told
    refine ⟨[0,UInt8.ofNat (len / 65536),UInt8.ofNat (len / 256),UInt8.ofNat len],rfl,?_⟩
    rw [backlogTold,if_pos bt]
    simp only [List.getD_cons_succ,List.getD_cons_zero,UInt8.toNat_ofNat']
    omega
  · rw [backlogRange,if_neg bt] at told
    refine ⟨leBytes 4 ((total.toNat + len) % 2 ^ 20),leBytes_length 4 _,?_⟩
    rw [backlogTold,if_neg bt,leNat_leBytes]
    omega

theorem register_step {word : List UInt8} {next : EspErr × List UInt8 → Code α} {post : α → State → Prop}
    (full : word.length = 4) (told : backlogTold function s.1.host.totalRx word = len)
    (holds : wp (guarded function len t given own) (.op (.sdmmcIoRead 1 (lengthRegister function) {increment := true} .reg 4) next) post s) :
    wp (guarded function len t given own) (next (.ok,word)) post s := by
  have ran : World.exec t (.sdmmcIoRead 1 (lengthRegister function) {increment := true} .reg 4) {data := word} s.1 =
      some ((.ok,word),s.1) := if_pos full
  have answered : (telling function len).answers t s.1 (.sdmmcIoRead 1 (lengthRegister function) {increment := true} .reg 4)
      {data := word} s.2 = some s.2 := by simp [telling,told]
  exact guarded_step holds _ ran answered

theorem getRxDataSize_tells {post : EspErr × Option UInt32 → State → Prop} (told : len < backlogRange function)
    (holds : wp (guarded function len t given own) (espExtconnSdioGetRxDataSize function) post s) :
    ∃ n, n.toNat = len ∧ post (.ok,some n) s := by
  obtain ⟨word,full,tells⟩ := told_by function s.1.host.totalRx told
  by_cases bt : function = extConnBtSdioFunc
  · subst bt
    rw [getRxDataSize_bt] at holds
    have read := register_step full tells holds
    rw [if_neg (not_not_intro rfl)] at read
    exact ⟨_,(toldBt_toNat full _).trans tells,read⟩
  · rw [getRxDataSize_eq bt,getRxDataSize_wifi,← lengthRegister_eq bt] at holds
    have read := register_step full tells holds
    rw [if_neg (not_not_intro rfl)] at read
    have fetched := guarded_step read {} rfl rfl
    rw [backlogTold_eq bt] at tells
    exact ⟨_,(told_wifi full _).trans tells,fetched⟩

theorem getPacketWait_inside {waitMs waitTime : UInt32} {fuel : Nat} {post : EspErr × UInt32 → State → Prop}
    (rest : ∀ r s', (r.1 = .ok → r.2.toNat = len ∧ 0 < len) → post r s') :
    wp (guarded function len t given own) (getPacketWait function waitMs fuel waitTime) post s := by
  induction fuel generalizing waitTime s with
  | zero => exact rest _ _ fun wrong => by cases wrong
  | succ fuel ih =>
      rw [getPacketWait]
      simp only [Prog.bind_def,wp_bind]
      apply getRxDataSize_inside
      intro r s' told
      obtain ⟨err,size⟩ := r
      apply wp_ite
      · intro found
        obtain ⟨n,some,same⟩ := told found.1
        cases some
        have positive : 0 < n.toNat := by simpa [UInt32.lt_iff_toNat_lt] using found.2
        exact rest _ _ fun _ => ⟨same,same ▸ positive⟩
      · intro _
        apply wp_ite
        · intro wrong
          exact rest _ _ fun success => absurd success wrong
        · intro _
          apply wp_ite
          · intro _
            exact rest _ _ fun wrong => by cases wrong
          · intro _
            apply guarded_op
            · trivial
            intro ans r w d ran _
            cases ran
            exact ih

theorem getPacket_iff {outBuf : Ptr} {size waitMs : UInt32} (told : len < backlogRange function) (placed : outBuf.blk < own) :
    wp (guarded function len t [(outBuf,size.toNat)] own) (espExtconnSdioGetPacket function outBuf size waitMs) (fun _ _ => True) s ↔
      (min size.toNat len + 3) / 4 * 4 ≤ size.toNat := by
  unfold espExtconnSdioGetPacket
  by_cases positive : size > 0
  · rw [if_neg (not_not_intro positive)]
    have nonzero : 0 < size.toNat := by simpa [UInt32.lt_iff_toNat_lt] using positive
    simp only [Prog.bind_def,wp_bind,Prog.pure_def,issue_bind]
    constructor
    · intro holds
      by_cases some : 0 < len
      · rw [getPacketWait] at holds
        simp only [Prog.bind_def,wp_bind] at holds
        obtain ⟨n,same,read⟩ := getRxDataSize_tells told holds
        have found : n > 0 := by rw [gt_iff_lt,UInt32.lt_iff_toNat_lt,same]; exact some
        simp only [Option.getD_some,found,and_self,if_true,Prog.pure_def,wp_pure,ne_eq,not_true_eq_false,if_false,wp_bind] at read
        have cut := RxStream.cut_toNat n size
        generalize (if n > size then size else n) = k at cut read
        have fits := getChunks_needs (by omega) placed read
        rw [cut,same] at fits
        exact fits
      · omega
    · intro fits
      apply getPacketWait_inside
      intro r s' found
      obtain ⟨err,n⟩ := r
      apply wp_ite
      · exact fun _ => trivial
      intro success
      obtain ⟨same,some⟩ := found (not_not.mp success)
      have cut := RxStream.cut_toNat n size
      generalize (if n > size then size else n) = k at cut ⊢
      have whole : (k.toNat + 3) / 4 * 4 ≤ size.toNat := by
        rw [cut,show n.toNat = len from same]
        exact fits
      have nonempty : 0 < k.toNat := by
        rw [cut,show n.toNat = len from same]
        omega
      rw [wp_bind]
      apply wp_mono (always_inside (getChunks_inside function nonempty whole))
      intro err s' _
      apply always_inside
      apply checked_all
      apply Prog.All.ite
      · exact fun _ => ⟨fun _ => trivial,fun _ => ⟨fun _ => trivial,fun _ => trivial⟩⟩
      · exact fun _ => trivial
  · rw [if_pos positive]
    have zero : size.toNat = 0 := by simpa [UInt32.lt_iff_toNat_lt] using positive
    constructor
    · intro _
      omega
    · exact fun _ => trivial

theorem sendPacket_iff {buf : Ptr} {length : UInt32} (f : UInt32) (placed : buf.blk < own) :
    wp (guarded function len t [(buf,length.toNat)] own) (espExtconnSdioSendPacket f buf length) (fun _ _ => True) s ↔
      length.toNat % 4 = 0 := by
  unfold espExtconnSdioSendPacket
  simp only [Prog.bind_def,Prog.pure_def,issue_bind]
  constructor
  · intro holds
    have chunks := guarded_step holds {} rfl rfl
    rw [wp_bind] at chunks
    have fits := sendChunks_needs placed chunks
    omega
  · intro aligned
    apply guarded_op
    · trivial
    intro ans r w d ran _
    cases ran
    rw [wp_bind]
    apply wp_mono (always_inside (sendChunks_inside f _ (by omega)))
    intro err s' _
    apply always_inside
    apply checked_all
    have note : ∀ n, (Prog.op (.note n) fun _ => .pure EspErr.ok : Code EspErr).All fun o => ∀ w, Inside [(buf,length.toNat)] own w o :=
      fun n => ⟨fun _ => trivial,fun _ => trivial⟩
    apply Prog.All.ite
    · intro _
      refine ⟨fun _ => trivial,fun _ => ⟨fun _ => trivial,fun _ => ⟨fun _ => trivial,fun _ => ?_⟩⟩⟩
      apply Prog.All.ite
      · exact fun _ => ⟨fun _ => trivial,fun _ => note _⟩
      · exact fun _ => note _
    · exact fun _ => note _

-- A register of the window: the block that is allocated holds four bytes.
theorem readRegWindow_inside {regAddr : UInt32} {value : Ptr} (owned : own ≤ s.1.fresh) :
    wp (guarded function len t [(value,4)] own) (espExtconnSdioReadRegWindow regAddr value) (fun _ _ => True) s := by
  by_cases inside : regAddr >>> 2 ≤ 0x7f
  · rw [readRegWindow_eq value inside]
    apply guarded_op
    · trivial
    intro ans p w d ran _
    simp only [World.exec] at ran
    split at ran
    · cases ran
      have block : ∀ (w : World) (off n : Nat), w.blocks = (s.1.alloc 4).2.blocks → off + n ≤ 4 →
          Allowed [(value,4)] own w ⟨s.1.fresh,off⟩ n :=
        fun w off n same fits => own_allowed owned (same ▸ Function.update_self _ _ _) fits
      apply guarded_op
      · exact block _ 0 1 rfl (by decide)
      intro ans₁ r₁ w₁ d₁ ran₁ _
      cases ran₁
      apply guarded_op
      · exact block _ 1 1 rfl (by decide)
      intro ans₂ r₂ w₂ d₂ ran₂ _
      cases ran₂
      apply guarded_op
      · exact block _ 0 4 rfl (by decide)
      intro ans₃ r₃ w₃ d₃ ran₃ _
      cases ran₃
      apply wp_ite
      · intro _
        apply guarded_op
        · exact block _ 0 4 rfl (by decide)
        intro ans₄ r₄ w₄ d₄ ran₄ _
        obtain ⟨rfl,rfl,-⟩ := read_exec ran₄
        apply wp_ite
        · intro _
          apply guarded_op
          · exact block _ 0 4 rfl (by decide)
          intro ans₅ r₅ w₅ d₅ ran₅ _
          cases ran₅
          apply guarded_op
          · exact given_allowed _ rfl (Nat.le_refl _) (Nat.add_le_add_left (Nat.le_of_eq (read_length _ _ _)) _)
          intro ans₆ r₆ w₆ d₆ _ _
          exact always_inside ⟨fun _ => trivial,fun _ => trivial⟩
        · intro _
          exact always_inside ⟨fun _ => trivial,fun _ => trivial⟩
      · intro _
        exact always_inside ⟨fun _ => trivial,fun _ => trivial⟩
    · cases ran
      trivial
  · unfold espExtconnSdioReadRegWindow
    rw [if_pos inside]
    trivial

-- The fifth byte is the first outside.
theorem writeRegWindow_beyond {regAddr : UInt32} {value : Ptr} {post : EspErr → State → Prop} (apart : ∀ g ∈ given, g.1.blk ≠ s.1.fresh)
    (inside : regAddr >>> 2 ≤ 0x7f) : ¬ wp (guarded function len t given own) (espExtconnSdioWriteRegWindow regAddr value) post s := by
  intro holds
  rw [writeRegWindow_eq value inside] at holds
  have allocated := guarded_step holds {} rfl rfl
  have loaded := guarded_step allocated {} rfl rfl
  have stored := guarded_step loaded {} rfl rfl
  cases wp_safe stored rfl with
  | inl outer =>
      obtain ⟨g,member,same,-⟩ := outer
      exact apart g member same.symm
  | inr outer =>
      obtain ⟨-,k,block,fits⟩ := outer
      have table : Function.update s.1.blocks s.1.fresh (some (4 : UInt32).toNat) s.1.fresh = some 4 := Function.update_self _ _ _
      have four : k = 4 := Option.some.inj (block.symm.trans table)
      have fifth : 4 + 1 ≤ k := fits
      omega

theorem writeRegWindow_iff {regAddr : UInt32} {value : Ptr} (owned : own = s.1.fresh) (placed : value.blk < own) :
    wp (guarded function len t [(value,4)] own) (espExtconnSdioWriteRegWindow regAddr value) (fun _ _ => True) s ↔
      ¬ regAddr >>> 2 ≤ 0x7f := by
  constructor
  · intro holds inside
    refine writeRegWindow_beyond (fun g member same => ?_) inside holds
    cases List.mem_singleton.mp member
    have here : value.blk = s.1.fresh := same
    omega
  · intro outside
    unfold espExtconnSdioWriteRegWindow
    rw [if_pos outside]
    trivial

-- What is behind a read or a start without failure.
theorem readRegWindow_needs {regAddr : UInt32} {value : Ptr} {post : EspErr → State → Prop} (inside : regAddr >>> 2 ≤ 0x7f)
    (holds : wp (guarded function len t given own) (espExtconnSdioReadRegWindow regAddr value) post s) : ∃ s', post .ok s' := by
  rw [readRegWindow_eq value inside] at holds
  have allocated := guarded_step holds {} rfl rfl
  have index := guarded_step allocated {} rfl rfl
  have command := guarded_step index {} rfl rfl
  have selected := guarded_step command {} rfl rfl
  rw [if_pos rfl] at selected
  obtain ⟨data,s₁,fetched⟩ := read_step selected
  rw [if_pos rfl] at fetched
  have loaded := guarded_step fetched {} rfl rfl
  have stored := guarded_step loaded {} rfl rfl
  exact ⟨_,guarded_step stored {} rfl rfl⟩

theorem start_needs {retries : Nat} {post : Option EspErr → State → Prop}
    (holds : wp (guarded function len t given own) (espExtconnSdioStart (retries + 1)) post s) : post (some .ok) s := by
  have ran : (execute ((telling function len).exec t) (espExtconnSdioStart (retries + 1)) (List.replicate 17 {}) s).map Prod.snd =
      some (some .ok,s) := rfl
  obtain ⟨⟨trace,ret,s'⟩,ran,same⟩ := Option.map_eq_some_iff.mp ran
  cases same
  have run : Runs Eq ((telling function len).act t) (espExtconnSdioStart (retries + 1)) s trace (some .ok) s :=
    execute_runs (fun _ => rfl) (fun _ ans _ _ _ acted => ⟨ans,acted⟩) ran
  exact wp_runs (fun _ _ _ held still => Eq.subst still held) holds run

-- The link is set up through the register window.
theorem init_iff {initialised : Bool} {retries : Nat} :
    wp (guarded function len t [] own) (espExtconnSdioInit initialised (retries + 1)) (fun _ _ => True) s ↔ initialised = true := by
  unfold espExtconnSdioInit
  cases initialised with
  | true => exact iff_of_true trivial rfl
  | false =>
      refine iff_of_false (fun holds => ?_) Bool.noConfusion
      simp only [Prog.bind_def,issue_bind,Prog.pure_def,Bool.false_eq_true,if_false] at holds
      have hosted := guarded_step holds {} rfl rfl
      rw [wp_bind] at hosted
      have started := start_needs hosted
      simp only [ne_eq,not_true_eq_false,if_false,espExtconnSdioInitSlaveLink,Prog.bind_def,Prog.op_bind,issue_bind] at started
      have linked := guarded_step started {} rfl rfl
      simp only [wp_bind] at linked
      obtain ⟨s₁,fetched⟩ := readRegWindow_needs (by decide) linked
      simp only [setWindowBits,orInto,load32,Prog.bind_def,Prog.op_bind,issue_bind,ne_eq,not_true_eq_false,if_false] at fetched
      have loaded := guarded_step fetched {} rfl rfl
      have changed := guarded_step loaded {} rfl rfl
      simp only [Prog.pure_bind,wp_bind] at changed
      have inside : espSlcConf1Reg >>> 2 ≤ 0x7f := by decide
      exact writeRegWindow_beyond (fun _ none => absurd none List.not_mem_nil) inside changed

end

theorem code_inside {function : UInt32} {len : Nat} {t : Task} {given : List (Ptr × Nat)} {own : Nat} {s : State} {p : Code α}
    (all : p.All fun o => ∀ w, Inside given own w o) :
    wp (guarded function len t given own) (p.bind fun _ => .pure ()) (fun _ _ => True) s := by
  apply always_inside
  apply all.bind
  exact fun _ => trivial

theorem staysInside_iff (c : Call) (len : Nat) (t : Task) (w : World) (told : len < backlogRange c.function)
    (placed : ∀ g ∈ c.buffers, g.1.blk < w.fresh) : c.StaysInside len t w ↔ c.Fits len := by
  have exactly := wp_exact (C := guarded c.function len t c.buffers w.fresh) (p := c.code) (s := (w,())) fun _ _ => trivial
  cases c with
  | init initialised retries =>
      rw [Call.code,wp_bind] at exactly
      exact exactly.symm.trans init_iff
  | start retries => exact iff_true_intro (exactly.mp (code_inside (start_inside retries)))
  | readRegWindow regAddr value =>
      apply iff_true_intro
      apply exactly.mp
      rw [Call.code,wp_bind]
      exact readRegWindow_inside (Nat.le_refl _)
  | writeRegWindow regAddr value =>
      have block : value.blk < w.fresh := placed _ (List.mem_singleton.mpr rfl)
      rw [Call.code,wp_bind] at exactly
      exact exactly.symm.trans (writeRegWindow_iff rfl block)
  | getBufferSize =>
      have all := getBufferSize_all (P := fun o => ∀ w', Inside [] w.fresh w' o) (register_inside _) (fun _ => trivial) fun _ _ => trivial
      exact iff_true_intro (exactly.mp (code_inside all))
  | getRxDataSize function =>
      have all := getRxDataSize_all (P := fun o => ∀ w', Inside [] w.fresh w' o) (fun addr _ => register_inside addr) (fun _ => trivial) function
      exact iff_true_intro (exactly.mp (code_inside all))
  | getPacket function outBuf size waitMs =>
      have block : outBuf.blk < w.fresh := placed _ (List.mem_singleton.mpr rfl)
      rw [Call.code,wp_bind] at exactly
      exact exactly.symm.trans (getPacket_iff told block)
  | sendPacket function buf length =>
      have block : buf.blk < w.fresh := placed _ (List.mem_singleton.mpr rfl)
      rw [Call.code,wp_bind] at exactly
      exact exactly.symm.trans (sendPacket_iff function block)
  | clearIntr intr0 intr1 =>
      have all := clearIntr_all (P := fun o => ∀ w', Inside [] w.fresh w' o) (fun _ intr _ _ => Nat.le_of_eq (le32_length intr).symm) intr0 intr1
      exact iff_true_intro (exactly.mp (code_inside all))
  | getIntr intrRaw intrSt => exact iff_true_intro (exactly.mp (code_inside (getIntr_inside intrRaw intrSt)))
  | waitInt wait =>
      have all : (espExtconnSdioWaitInt wait).All fun o => ∀ w', Inside [] w.fresh w' o := ⟨fun _ => trivial,fun _ => trivial⟩
      exact iff_true_intro (exactly.mp (code_inside all))
  | readBytes function addr dst size =>
      have all : (extconnSdioReadBytes function addr (.mem dst) size).All fun o => ∀ w', Inside [(dst,size.toNat)] w.fresh w' o :=
        readBytesLoop_inside function {increment := incrementFor function} size.toNat rfl (Nat.le_refl _) (Nat.le_refl (dst.off + size.toNat))
      exact iff_true_intro (exactly.mp (code_inside all))
  | writeBytes function addr src size =>
      have all : (extconnSdioWriteBytes function addr (.mem src) size).All fun o => ∀ w', Inside [(src,size.toNat)] w.fresh w' o :=
        writeBytesLoop_inside function {increment := incrementFor function} size.toNat rfl (Nat.le_refl _) (Nat.le_refl (src.off + size.toNat))
      exact iff_true_intro (exactly.mp (code_inside all))

theorem bt_packet_inside : Call.StaysInside (.getPacket extConnBtSdioFunc ⟨0,0⟩ 1034 1000) 1032 .transRecv (World.initial espSipInit) := by
  have fits : (min 1034 1032 + 3) / 4 * 4 ≤ 1034 := by decide
  exact (staysInside_iff (.getPacket extConnBtSdioFunc ⟨0,0⟩ 1034 1000) 1032 .transRecv (World.initial espSipInit) (by decide)
    fun g member => by cases List.mem_singleton.mp member; decide).mpr fits

-- A Bluetooth message of one byte: of the nine bytes allocated twelve are read.
theorem not_staysInside : ¬ ∀ (c : Call) (len : Nat) (t : Task) (w : World), len < backlogRange c.function →
    (∀ g ∈ c.buffers, g.1.blk < w.fresh) → c.StaysInside len t w := by
  intro every
  have nine := every (.sendPacket extConnBtSdioFunc ⟨0,0⟩ 9) 0 .btTx (World.initial espSipInit) (by decide)
    fun g member => by cases List.mem_singleton.mp member; decide
  have holds := (wp_exact (C := guarded extConnWifiSdioFunc 0 .btTx [(⟨0,0⟩,9)] 1) fun _ _ => trivial).mpr nine
  rw [Call.code,wp_bind] at holds
  exact absurd ((sendPacket_iff extConnBtSdioFunc (Nat.zero_lt_one)).mp holds) (by decide)

end ExtConn.TransferBounds
