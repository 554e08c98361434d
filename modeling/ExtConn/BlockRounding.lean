import ExtConn.System
import ExtConn.WifiPacket

namespace ExtConn.BlockRounding
open Effects ByteMemory ExtConn.Sequential WifiPacket

-- The mask arithmetic of `roundup`, where the sum does not wrap.
theorem roundup_toNat {n y : UInt32} (nonzero : 0 < y.toNat) (fits : n.toNat + y.toNat ≤ 2 ^ 32) :
    (roundup n y).toNat = n.toNat + (y.toNat - 1) - ((n.toNat + (y.toNat - 1)) &&& (y.toNat - 1)) := by
  have one : (1 : UInt32).toNat = 1 := rfl
  have mask : (y - 1).toNat = y.toNat - 1 := UInt32.toNat_sub_of_le _ _ (UInt32.le_iff_toNat_le.mpr nonzero)
  have sum : (n + (y - 1)).toNat = n.toNat + (y.toNat - 1) := by
    rw [UInt32.toNat_add,mask]
    exact Nat.mod_eq_of_lt (by omega)
  rw [roundup,Words.clear_toNat,UInt32.toNat_and,sum,mask]

theorem roundup_le {n y : UInt32} (nonzero : 0 < y.toNat) (fits : n.toNat + y.toNat ≤ 2 ^ 32) : n.toNat ≤ (roundup n y).toNat := by
  have masked : (n.toNat + (y.toNat - 1)) &&& (y.toNat - 1) ≤ y.toNat - 1 := Nat.and_le_right
  rw [roundup_toNat nonzero fits]
  omega

theorem roundup_dvd {n y : UInt32} (power : y.toNat.isPowerOfTwo) (fits : n.toNat + y.toNat ≤ 2 ^ 32) : y.toNat ∣ (roundup n y).toNat := by
  have nonzero := Nat.pos_of_isPowerOfTwo power
  rw [roundup_toNat nonzero fits]
  obtain ⟨k,same⟩ := power
  rw [same,Nat.and_two_pow_sub_one_eq_mod]
  exact Nat.dvd_sub_mod _

-- A packet of one byte shows whether the block size is a power of two.
theorem roundup_one {y : UInt32} (nonzero : 0 < y.toNat) (dvd : y.toNat ∣ (roundup 1 y).toNat) : y.toNat.isPowerOfTwo := by
  have bound := y.toNat_lt
  have one : (1 : UInt32).toNat = 1 := rfl
  have fits : (1 : UInt32).toNat + y.toNat ≤ 2 ^ 32 := by omega
  have least := roundup_le nonzero fits
  have value := roundup_toNat nonzero fits
  have sum : 1 + (y.toNat - 1) = y.toNat := by omega
  rw [one,sum] at value
  apply Nat.ne_zero_and_sub_one_eq_zero_iff_isPowerOfTwo.mp
  constructor
  · omega
  · have whole := Nat.le_of_dvd (by omega) dvd
    have masked : y.toNat &&& (y.toNat - 1) ≤ y.toNat := Nat.and_le_left
    omega

theorem roundup_zero (n : UInt32) : roundup n 0 = 0 := by
  have mask : ~~~(0 - 1 : UInt32) = 0 := by decide
  rw [roundup,mask,UInt32.and_zero]

structure RightLength (n : Nat) (blk : UInt16) (len : UInt32) : Prop where
  atLeast : n ≤ len.toNat
  multiple : blk.toNat ∣ len.toNat

-- Whatever packet the task builds while this block size is set.
def RoundsRight (blk : UInt16) : Prop :=
  ∀ (w : World) (sendBuf : Ptr) (eb : EbPtr) (trace : List Op) (len : UInt32) (s' : World × Unit), w.sip.txBlksz = blk →
    1 ≤ packetLength (w.esf eb) → Apart sendBuf (w.esf eb) →
    Runs Eq (openSlave.act .wifiSend) (wifiBuildPacket sendBuf eb) (w,()) trace len s' → RightLength (packetLength (w.esf eb)) blk len

theorem open_ignores (t : Task) : Ignores openSlave t := fun _ _ _ _ _ => rfl

theorem built_len {w : World} {sendBuf : Ptr} {eb : EbPtr} {s' : World × Unit} (apart : Apart sendBuf (w.esf eb))
    (run : Runs Eq (openSlave.act .wifiSend) (wifiBuildPacket sendBuf eb) (w,()) trace len s') : len = sendLen (w.esf eb) w.sip.txBlksz := by
  have holds : wp (alone openSlave .wifiSend) (wifiBuildPacket sendBuf eb) (fun len _ => len = sendLen (w.esf eb) w.sip.txBlksz) (w,()) :=
    wifiBuildPacket_wp (open_ignores _) (fun _ => rfl) apart rfl
  exact alone_runs holds run

theorem packetLength_lt (b : EsfBuf) : packetLength b < 2 ^ 16 := by
  have command := b.dataLen.toNat_lt
  have data := b.dsLength.isLt
  unfold packetLength sizeofSipHdr
  split
  · exact command
  · omega

theorem sendLen_right {b : EsfBuf} {blk : UInt16} (power : blk.toNat.isPowerOfTwo) : RightLength (packetLength b) blk (sendLen b blk) := by
  have bound := packetLength_lt b
  have block := blk.toNat_lt
  have length : (UInt32.ofNat (packetLength b)).toNat = packetLength b := UInt32.toNat_ofNat_of_lt' (Nat.lt_trans bound (by decide))
  have size : blk.toUInt32.toNat = blk.toNat := UInt16.toNat_toUInt32 blk
  have fits : (UInt32.ofNat (packetLength b)).toNat + blk.toUInt32.toNat ≤ 2 ^ 32 := by omega
  have nonzero : 0 < blk.toUInt32.toNat := by
    rw [size]
    exact Nat.pos_of_isPowerOfTwo power
  constructor
  · have least := roundup_le nonzero fits
    rw [length] at least
    exact least
  · have whole := roundup_dvd (size ▸ power) fits
    rw [size] at whole
    exact whole

theorem sendLen_one {b : EsfBuf} {blk : UInt16} (single : packetLength b = 1) (right : RightLength (packetLength b) blk (sendLen b blk)) :
    blk.toNat.isPowerOfTwo := by
  have size : blk.toUInt32.toNat = blk.toNat := UInt16.toNat_toUInt32 blk
  obtain ⟨atLeast,multiple⟩ := right
  rw [sendLen,single] at multiple
  rw [sendLen,single] at atLeast
  by_cases zero : blk = 0
  · have none : (roundup (UInt32.ofNat 1) blk.toUInt32).toNat = 0 := by
      rw [zero]
      exact congrArg UInt32.toNat (roundup_zero _)
    omega
  · have nonzero : 0 < blk.toUInt32.toNat := by
      rw [size]
      exact Nat.pos_of_ne_zero fun none => zero (UInt16.toNat_inj.mp none)
    rw [← size] at multiple ⊢
    exact roundup_one nonzero multiple

-- A command buffer of one byte, in a world where it can be built.
def oneByte : EsfBuf := .holding esfBufTxSip ⟨1,0⟩ 1 0

def single (blk : UInt16) : World :=
  {World.initial espSipInit with sip := {espSipInit with txBlksz := blk},esf := fun _ => oneByte}

theorem build_runs (sendBuf : Ptr) (eb : EbPtr) (w : World) :
    ∃ trace len s', Runs Eq (openSlave.act .wifiSend) (wifiBuildPacket sendBuf eb) (w,()) trace len s' := by
  apply Prog.All.runs (fun _ => rfl)
  apply wifiBuildPacket_all
  · exact fun s => ⟨_,(s.1,()),{},rfl⟩
  · exact fun _ s => ⟨_,(s.1,()),{},rfl⟩
  · exact fun _ _ s => ⟨_,(s.1,()),{},rfl⟩
  · exact fun _ _ s => ⟨(),(_,()),{},rfl⟩

theorem roundsRight_iff (blk : UInt16) : RoundsRight blk ↔ blk.toNat.isPowerOfTwo := by
  constructor
  · intro right
    have other : (sourceOf oneByte).blk ≠ 0 := by decide
    have apart : Apart ⟨0,0⟩ ((single blk).esf 0) := other
    obtain ⟨trace,len,s',run⟩ := build_runs ⟨0,0⟩ 0 (single blk)
    have some : 1 ≤ packetLength oneByte := by decide
    have correct := right (single blk) ⟨0,0⟩ 0 trace len s' rfl some apart run
    rw [built_len apart run] at correct
    exact sendLen_one rfl correct
  · intro power w sendBuf eb trace len s' set _ apart run
    rw [built_len apart run,set]
    exact sendLen_right power

-- The block size that a BOOTUP event leaves behind.
theorem postInit_stores {t : Task} {bevt : List UInt8} {s s' : World × Unit} (run : Runs Eq (openSlave.act t) (espSipPostInit bevt) s trace value s') :
    s'.1.sip.txBlksz = UInt16.ofNat (field bevt 0 2) := by
  have holds : wp (alone openSlave t) (espSipPostInit bevt) (fun _ s => s.1.sip.txBlksz = UInt16.ofNat (field bevt 0 2)) s := ?_
  · exact alone_runs holds run
  unfold espSipPostInit
  simp only [Prog.bind_def,issue_bind]
  apply alone_exec (fun _ => rfl) (fun _ => rfl)
  apply alone_exec (fun _ => rfl) (fun _ => rfl)
  apply alone_exec (fun _ => rfl) (fun _ => rfl)
  apply alone_exec (fun _ => rfl) (fun _ => rfl)
  apply alone_exec (fun _ => rfl) (fun _ => rfl)
  rfl

theorem announced_iff {t : Task} {bevt : List UInt8} {s s' : World × Unit} (run : Runs Eq (openSlave.act t) (espSipPostInit bevt) s trace value s') :
    RoundsRight s'.1.sip.txBlksz ↔ (field bevt 0 2).isPowerOfTwo := by
  have whole : (UInt16.ofNat (field bevt 0 2)).toNat = field bevt 0 2 :=
    UInt16.toNat_ofNat_of_lt' (Nat.lt_of_lt_of_le (field_lt bevt 0 2) (by decide))
  rw [postInit_stores run,roundsRight_iff,whole]

-- An event that announces blocks of 512 bytes, and one of 3 bytes.
def announcing (low high : UInt8) : List UInt8 := low :: high :: List.replicate 14 0

theorem post_init_runs (bevt : List UInt8) (w : World) :
    ∃ trace value s', Runs Eq (openSlave.act .transRecv) (espSipPostInit bevt) (w,()) trace value s' := by
  apply Prog.All.runs (fun _ => rfl)
  have set : ∀ (a : SipAssign) (s : World × Unit), ∃ r s', openSlave.act .transRecv (.sipSet a) s r s' := fun a s => ⟨(),(_,()),{},rfl⟩
  exact ⟨set _,fun _ => ⟨set _,fun _ => ⟨set _,fun _ => ⟨set _,fun _ => ⟨set _,fun _ => trivial⟩⟩⟩⟩⟩

theorem blocks_of_512 : ∃ trace value s', Runs Eq (openSlave.act .transRecv) (espSipPostInit (announcing 0 2)) (World.initial espSipInit,())
    trace value s' ∧ s'.1.sip.txBlksz = 512 ∧ RoundsRight s'.1.sip.txBlksz := by
  obtain ⟨trace,value,s',run⟩ := post_init_runs (announcing 0 2) (World.initial espSipInit)
  exact ⟨trace,value,s',run,(postInit_stores run).trans (by decide),(announced_iff run).mpr ⟨9,by decide⟩⟩

theorem not_announced : ¬ ∀ (t : Task) (bevt : List UInt8) (s s' : World × Unit) (trace : List Op) (value : Unit),
    Runs Eq (openSlave.act t) (espSipPostInit bevt) s trace value s' → RoundsRight s'.1.sip.txBlksz := by
  intro every
  obtain ⟨trace,value,s',run⟩ := post_init_runs (announcing 3 0) (World.initial espSipInit)
  have right := every _ _ _ _ _ _ run
  rw [postInit_stores run] at right
  have power := (roundsRight_iff _).mp right
  exact absurd power (by decide)

end ExtConn.BlockRounding
