import ExtConn.SdioLink
import ExtConn.Transfers

namespace ExtConn
open Effects ByteMemory

-- The operations of a register access, once the checks and the loop are gone.
theorem readRegWindowLoop_eq (p : Ptr) : readRegWindowLoop p maxRetry =
    .op (.sdmmcIoRead 1 espSdioStateW0 {increment := true} (.mem p) 4) fun r => .pure r.1 := by
  have single : maxRetry = 0 + 1 := rfl
  rw [single,readRegWindowLoop]
  simp only [single,Nat.zero_add,Nat.lt_irrefl,if_false,false_and,gt_iff_lt]
  rw [readBytes_aligned 1 espSdioStateW0 (.mem p) (by decide) (by decide)]
  simp only [Prog.bind_def,Prog.op_bind,Prog.pure_bind,Prog.pure_def]
  rfl

def indexOf (regAddr : UInt32) : UInt8 := ((regAddr >>> 2) &&& 0x7f).toUInt8

theorem readRegWindow_eq {regAddr : UInt32} (value : Ptr) (inside : regAddr >>> 2 ≤ 0x7f) :
    espExtconnSdioReadRegWindow regAddr value = .op (.malloc 4) fun p => match p with
      | none => .pure .noMem
      | some p => .op (.store p [indexOf regAddr]) fun _ => .op (.store (p.add 1) [0x80]) fun _ =>
        .op (.sdmmcIoWrite 1 espSdioWinCmd {increment := true} (.mem p) 4) fun ret =>
          if ret = .ok then .op (.sdmmcIoRead 1 espSdioStateW0 {increment := true} (.mem p) 4) fun r =>
            if r.1 = .ok then .op (.load p 4) fun bytes => .op (.store value bytes) fun _ => .op (.free p) fun _ => .pure r.1
            else .op (.free p) fun _ => .pure r.1
          else .op (.free p) fun _ => .pure ret := by
  have winCmd : ∀ p, extconnSdioWriteBytes 1 espSdioWinCmd (.mem p) 4 =
      .op (.sdmmcIoWrite 1 espSdioWinCmd {increment := true} (.mem p) 4) fun r => .pure r :=
    fun p => writeBytes_aligned 1 espSdioWinCmd (.mem p) (by decide) (by decide)
  unfold espExtconnSdioReadRegWindow
  simp only [if_neg (not_not_intro inside),Prog.bind_def,issue_bind,Prog.pure_def]
  congr 1
  funext p
  cases p with
  | none => rfl
  | some p =>
      simp only [winCmd,readRegWindowLoop_eq,Prog.op_bind,Prog.pure_bind,memcpy,Prog.bind_def,issue_bind]
      congr 1
      funext _
      congr 1
      funext _
      congr 1
      funext ret
      by_cases success : ret = .ok
      · simp only [if_pos success]
      · simp only [if_neg success]

theorem writeRegWindow_eq {regAddr : UInt32} (value : Ptr) (inside : regAddr >>> 2 ≤ 0x7f) :
    espExtconnSdioWriteRegWindow regAddr value = .op (.malloc 4) fun p => match p with
      | none => .pure .noMem
      | some p => .op (.load value 4) fun bytes => .op (.store p bytes) fun _ =>
        .op (.store (p.add 4) [indexOf regAddr]) fun _ => .op (.store (p.add 5) [0xc0]) fun _ =>
          .op (.sdmmcIoWrite 1 espSdioConfigW5 {increment := true} (.mem p) 8) fun ret => .op (.free p) fun _ => .pure ret := by
  have configW5 : ∀ p, extconnSdioWriteBytes 1 espSdioConfigW5 (.mem p) 8 =
      .op (.sdmmcIoWrite 1 espSdioConfigW5 {increment := true} (.mem p) 8) fun r => .pure r :=
    fun p => writeBytes_aligned 1 espSdioConfigW5 (.mem p) (by decide) (by decide)
  unfold espExtconnSdioWriteRegWindow
  simp only [if_neg (not_not_intro inside),Prog.bind_def,issue_bind,Prog.pure_def]
  congr 1
  funext p
  cases p with
  | none => rfl
  | some p =>
      simp only [configW5,Prog.op_bind,Prog.pure_bind,memcpy,Prog.bind_def,issue_bind]
      rfl

theorem enableTargetInterrupt_eq (tbuf : Ptr) : enableTargetInterrupt tbuf = .op (.malloc 4) fun val => match val with
    | none => .pure .noMem
    | some val => .op (.sdmmcIoRead 1 espSdioFunc1IntEna {increment := true} (.mem val) 4) fun _ =>
      .op (.load val 4) fun bytes => .op (.store val (le32 (UInt32.ofNat (leNat bytes) ||| slchostFn1GpioSdioIntEna))) fun _ =>
      .op (.sdmmcIoWrite 1 espSdioFunc1IntEna {increment := true} (.mem val) 4) fun _ =>
        .op (.free tbuf) fun _ => .op (.free val) fun _ => .pure .ok := by
  unfold enableTargetInterrupt orInto load32
  simp only [Prog.bind_def,issue_bind,Prog.pure_def]
  congr 1
  funext val
  cases val with
  | none => rfl
  | some val =>
      dsimp only
      rw [readBytes_aligned 1 espSdioFunc1IntEna (.mem val) (by decide) (by decide),
        writeBytes_aligned 1 espSdioFunc1IntEna (.mem val) (by decide) (by decide)]
      rfl

end ExtConn
