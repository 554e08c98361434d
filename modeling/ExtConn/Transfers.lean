import ExtConn.SdioAdapter
import ExtConn.Words

namespace ExtConn
open Effects ByteMemory

theorem align_four_self {size : UInt32} (aligned : size.toNat % 4 = 0) : size &&& ~~~3 = size := by
  apply UInt32.toNat_inj.mp
  rw [Words.align_four]
  omega

theorem readBytesLoop_zero (function : UInt32) (arg : Cmd53Arg) (fuel : Nat) (addr : UInt32) (dst : Dst) (got : List UInt8) :
    readBytesLoop function arg fuel addr dst 0 got = .pure (.ok,got) := by
  cases fuel <;> rfl

theorem writeBytesLoop_zero (function : UInt32) (arg : Cmd53Arg) (fuel : Nat) (addr : UInt32) (src : Src) :
    writeBytesLoop function arg fuel addr src 0 = .pure .ok := by
  cases fuel <;> rfl

-- A size that is a multiple of four goes out in a single transfer.
theorem readBytes_aligned {size : UInt32} (function addr : UInt32) (dst : Dst) (nonzero : 0 < size.toNat)
    (aligned : size.toNat % 4 = 0) : extconnSdioReadBytes function addr dst size =
      .op (.sdmmcIoRead function addr {increment := incrementFor function} dst size) fun r => .pure (r.1,r.2) := by
  have positive : size > 0 := by simpa [UInt32.lt_iff_toNat_lt] using nonzero
  obtain ⟨fuel,enough⟩ : ∃ fuel, size.toNat = fuel + 1 := ⟨size.toNat - 1,by omega⟩
  unfold extconnSdioReadBytes
  rw [enough]
  simp only [readBytesLoop,positive,if_true]
  generalize transfer : (if size &&& ~~~3 > 0 then size &&& ~~~3 else size) = willTransfer
  obtain rfl : willTransfer = size := by rw [← transfer,align_four_self aligned,if_pos positive]
  simp only [Prog.bind_def,issue_bind,List.nil_append,Prog.pure_def,UInt32.sub_self,readBytesLoop_zero]
  congr 1
  funext r
  split
  · rfl
  · rename_i success
    simp only [ne_eq,Decidable.not_not] at success
    rw [success]

theorem writeBytes_aligned {size : UInt32} (function addr : UInt32) (src : Src) (nonzero : 0 < size.toNat)
    (aligned : size.toNat % 4 = 0) : extconnSdioWriteBytes function addr src size =
      .op (.sdmmcIoWrite function addr {increment := incrementFor function} src size) fun r => .pure r := by
  have positive : size > 0 := by simpa [UInt32.lt_iff_toNat_lt] using nonzero
  obtain ⟨fuel,enough⟩ : ∃ fuel, size.toNat = fuel + 1 := ⟨size.toNat - 1,by omega⟩
  unfold extconnSdioWriteBytes
  rw [enough]
  simp only [writeBytesLoop,positive,if_true]
  generalize transfer : (if size &&& ~~~3 > 0 then size &&& ~~~3 else size) = willTransfer
  obtain rfl : willTransfer = size := by rw [← transfer,align_four_self aligned,if_pos positive]
  simp only [Prog.bind_def,issue_bind,Prog.pure_def,UInt32.sub_self,writeBytesLoop_zero]
  congr 1
  funext r
  split
  · rfl
  · rename_i success
    simp only [ne_eq,Decidable.not_not] at success
    rw [success]

-- The two parts a length is split into, and the rounded size of the second.
def blocksOf (len : UInt32) : UInt32 := len / 512 * 512
def tailOf (len : UInt32) : UInt32 := len - blocksOf len
def roundFour (len : UInt32) : UInt32 := (len + 3) &&& ~~~3

theorem blocksOf_toNat (len : UInt32) : (blocksOf len).toNat = len.toNat / 512 * 512 := by
  have bound := len.toNat_lt
  have block : (512 : UInt32).toNat = 512 := rfl
  rw [blocksOf,UInt32.toNat_mul,UInt32.toNat_div,block,Nat.mod_eq_of_lt (by omega)]

theorem tailOf_toNat (len : UInt32) : (tailOf len).toNat = len.toNat % 512 := by
  have below : blocksOf len ≤ len := by rw [UInt32.le_iff_toNat_le,blocksOf_toNat]; omega
  rw [tailOf,UInt32.toNat_sub_of_le _ _ below,blocksOf_toNat]
  omega

theorem blocksOf_def (len : UInt32) : len / 512 * 512 = blocksOf len := rfl
theorem tailOf_def (len : UInt32) : len - blocksOf len = tailOf len := rfl
theorem roundFour_def (len : UInt32) : (len + 3) &&& ~~~3 = roundFour len := rfl

theorem roundFour_toNat {len : UInt32} (small : len.toNat < 512) : (roundFour len).toNat = (len.toNat + 3) / 4 * 4 :=
  Words.round_four _ (by omega)

theorem no_blocks (len : UInt32) : len / 512 ≠ 0 ↔ 512 ≤ len.toNat := by
  have block : (512 : UInt32).toNat = 512 := rfl
  have zero : (0 : UInt32).toNat = 0 := rfl
  rw [ne_eq,← UInt32.toNat_inj,UInt32.toNat_div,block,zero]
  omega

theorem toNat_ne_zero (x : UInt32) : x ≠ 0 ↔ 0 < x.toNat := by
  have zero : (0 : UInt32).toNat = 0 := rfl
  rw [ne_eq,← UInt32.toNat_inj,zero]
  omega

-- The reads of `get_packet`: whole blocks first, then the rounded rest.
def readTail (function : UInt32) (p : Ptr) (len : UInt32) : Code EspErr :=
  .op (.sdmmcIoRead function (chunkAddr function len) {increment := incrementFor function} (.mem p) (roundFour len))
    fun r => .pure r.1

theorem getPacketChunks_tail {len : UInt32} (function : UInt32) (fuel : Nat) (p : Ptr) (nonzero : 0 < len.toNat)
    (small : len.toNat < 512) : getPacketChunks function (fuel + 1) p len = readTail function p len := by
  have single : ¬ len / 512 ≠ 0 := by rw [no_blocks]; omega
  have rounded := roundFour_toNat small
  simp only [getPacketChunks,if_neg single]
  rw [roundFour_def,readBytes_aligned _ _ _ (by omega) (by omega)]
  simp only [Prog.bind_def,Prog.op_bind,Prog.pure_bind,Prog.pure_def,UInt32.sub_self,readTail]
  congr 1
  funext r
  split
  · rfl
  · rename_i success
    simp only [ne_eq,Decidable.not_not] at success
    simp [success]

theorem getPacketChunks_blocks {len : UInt32} (function : UInt32) (fuel : Nat) (p : Ptr) (large : 512 ≤ len.toNat) :
    getPacketChunks function (fuel + 2) p len =
      .op (.sdmmcIoRead function (chunkAddr function len) {blockMode := true,increment := incrementFor function}
        (.mem p) (blocksOf len)) fun r =>
      if r.1 ≠ .ok then .pure r.1 else if tailOf len = 0 then .pure .ok
      else readTail function (p.add (blocksOf len).toNat) (tailOf len) := by
  have several : len / 512 ≠ 0 := (no_blocks len).mpr large
  have aligned : ¬ blocksOf len % 4 ≠ 0 := by
    have four : (4 : UInt32).toNat = 4 := rfl
    have zero : (0 : UInt32).toNat = 0 := rfl
    rw [ne_eq,← UInt32.toNat_inj,UInt32.toNat_mod,blocksOf_toNat,four,zero]
    omega
  have rest := tailOf_toNat len
  rw [getPacketChunks]
  simp only [if_pos several,blocksOf_def,tailOf_def]
  simp only [extconnSdioReadBlocks,if_neg aligned,Prog.bind_def,issue_bind,Prog.op_bind,Prog.pure_bind,Prog.pure_def]
  congr 1
  funext r
  split
  · rfl
  · by_cases done : tailOf len = 0
    · simp [done]
    · simp only [done,ne_eq,not_false_eq_true,if_true,if_false]
      exact getPacketChunks_tail function fuel _ ((toNat_ne_zero _).mp done) (by omega)

-- The writes of `send_packet`, all of them at one address.
def writeTail (function addr : UInt32) (p : Ptr) (len : UInt32) : Code EspErr :=
  .op (.sdmmcIoWrite function addr {increment := incrementFor function} (.mem p) (roundFour len)) fun r => .pure r

theorem sendPacketChunks_zero (function addr : UInt32) (fuel : Nat) (p : Ptr) :
    sendPacketChunks function addr (fuel + 1) p 0 = .pure .ok := rfl

theorem sendPacketChunks_tail {len : UInt32} (function addr : UInt32) (fuel : Nat) (p : Ptr) (nonzero : 0 < len.toNat)
    (small : len.toNat < 512) : sendPacketChunks function addr (fuel + 1) p len = writeTail function addr p len := by
  have single : ¬ len / 512 ≠ 0 := by rw [no_blocks]; omega
  have rounded := roundFour_toNat small
  simp only [sendPacketChunks,if_neg single]
  rw [roundFour_def,writeBytes_aligned _ _ _ (by omega) (by omega)]
  simp only [Prog.bind_def,Prog.op_bind,Prog.pure_bind,Prog.pure_def,UInt32.sub_self,writeTail]
  congr 1
  funext r
  split
  · rfl
  · rename_i success
    simp only [ne_eq,Decidable.not_not] at success
    simp [success]

theorem sendPacketChunks_blocks {len : UInt32} (function addr : UInt32) (fuel : Nat) (p : Ptr) (large : 512 ≤ len.toNat) :
    sendPacketChunks function addr (fuel + 2) p len =
      .op (.sdmmcIoWrite function addr {blockMode := true,increment := incrementFor function} (.mem p) (blocksOf len))
        fun r => if r ≠ .ok then .pure r else if tailOf len = 0 then .pure .ok
          else writeTail function addr (p.add (blocksOf len).toNat) (tailOf len) := by
  have several : len / 512 ≠ 0 := (no_blocks len).mpr large
  have aligned : ¬ blocksOf len % 4 ≠ 0 := by
    have four : (4 : UInt32).toNat = 4 := rfl
    have zero : (0 : UInt32).toNat = 0 := rfl
    rw [ne_eq,← UInt32.toNat_inj,UInt32.toNat_mod,blocksOf_toNat,four,zero]
    omega
  have rest := tailOf_toNat len
  rw [sendPacketChunks]
  simp only [if_pos several,blocksOf_def,tailOf_def]
  simp only [extconnSdioWriteBlocks,if_neg aligned,Prog.bind_def,issue_bind,Prog.pure_def]
  congr 1
  funext r
  split
  · rfl
  · by_cases done : tailOf len = 0
    · simp [done]
    · simp only [done,ne_eq,not_false_eq_true,if_true,if_false]
      exact sendPacketChunks_tail function addr fuel _ ((toNat_ne_zero _).mp done) (by omega)

-- A register is read or written in one transfer of four bytes.
theorem readRegister (addr : UInt32) : extconnSdioReadBytes 1 addr .reg 4 =
    .op (.sdmmcIoRead 1 addr {increment := true} .reg 4) fun r => .pure (r.1,r.2) :=
  readBytes_aligned 1 addr .reg (by decide) (by decide)

theorem writeRegister (addr : UInt32) (bytes : List UInt8) : extconnSdioWriteBytes 1 addr (.reg bytes) 4 =
    .op (.sdmmcIoWrite 1 addr {increment := true} (.reg bytes) 4) fun r => .pure r :=
  writeBytes_aligned 1 addr (.reg bytes) (by decide) (by decide)

theorem clearTohost_eq : espExtconnSdioClearIntr 0 slchostSlc1TohostBit0IntClr =
    .op (.sdmmcIoWrite 1 espSdioSlc1IntClr {increment := true} (.reg (le32 slchostSlc1TohostBit0IntClr)) 4) fun r => .pure r := by
  have one : slchostSlc1TohostBit0IntClr ≠ 0 := by decide
  unfold espExtconnSdioClearIntr
  rw [if_neg (fun none => one none.2),if_neg (not_not_intro rfl),if_pos one,writeRegister]
  simp only [Prog.bind_def,Prog.op_bind,Prog.pure_bind,Prog.pure_def]
  congr 1
  funext r
  by_cases success : r = .ok
  · rw [if_neg (not_not_intro success),success]
  · rw [if_pos success]

theorem getBufferSize_eq : espExtconnSdioGetBufferSize =
    .op (.sdmmcIoRead 1 espSdioTokenRdata {increment := true} .reg 4) fun r =>
      if r.1 ≠ .ok then .pure (r.1,none) else
      .op .hostGet fun host =>
        let len := (((overlay 0 r.2 >>> espSdioSendOffset) &&& txBufferMask) + txBufferMax - host.totalTx) % txBufferMax
        .op (.note (.bufferSize len)) fun _ => .pure (r.1,some len) := by
  unfold espExtconnSdioGetBufferSize
  rw [readRegister]
  simp only [Prog.bind_def,Prog.op_bind,Prog.pure_bind,issue_bind,Prog.pure_def]

theorem getRxDataSize_wifi : espExtconnSdioGetRxDataSize extConnWifiSdioFunc =
    .op (.sdmmcIoRead 1 espSdioPktLen {increment := true} .reg 4) fun r =>
      if r.1 ≠ .ok then .pure (r.1,none) else
      .op .hostGet fun host =>
        .pure (.ok,some (((overlay 0 r.2 &&& rxByteMask) + rxByteMax - host.totalRx) % rxByteMax)) := by
  have other : ¬ extConnWifiSdioFunc = extConnBtSdioFunc := by decide
  unfold espExtconnSdioGetRxDataSize
  simp only [if_neg other,readRegister,Prog.bind_def,Prog.op_bind,Prog.pure_bind,issue_bind,Prog.pure_def]

theorem overlay_word {bytes : List UInt8} (old : UInt32) (full : bytes.length = 4) :
    (overlay old bytes).toNat = leNat bytes := by
  have bound := leNat_bound bytes
  rw [full] at bound
  rw [overlay,List.take_of_length_le (by omega),List.drop_of_length_le (by simp [full]),List.append_nil]
  exact UInt32.toNat_ofNat_of_lt' (by simpa [UInt32.size] using bound)

end ExtConn
