import ExtConn.Footprint

namespace ExtConn.ReceiveBuffer
open Effects ByteMemory

-- What `handle_intr0` relies on while it walks through `recv_buf`, whoever else
-- runs in between.
structure Undisturbed (w w' : World) : Prop where
  buffer : w'.mem recvBuf.blk = w.mem recvBuf.blk
  rxseq : w'.sip.rxseq = w.sip.rxseq
  total : w'.host.totalRx = w.host.totalRx
  fresh : w.fresh ≤ w'.fresh

theorem Undisturbed.refl (w : World) : Undisturbed w w := ⟨rfl,rfl,rfl,Nat.le_refl _⟩

theorem Undisturbed.trans {a b c : World} (one : Undisturbed a b) (two : Undisturbed b c) : Undisturbed a c :=
  ⟨two.buffer.trans one.buffer,two.rxseq.trans one.rxseq,two.total.trans one.total,Nat.le_trans one.fresh two.fresh⟩

theorem Undisturbed.read {w w' : World} (same : Undisturbed w w') (o n : Nat) :
    w'.mem.read (recvBuf.add o) n = w.mem.read (recvBuf.add o) n := by
  apply read_congr
  intro i _
  rw [show (recvBuf.add o).blk = recvBuf.blk from rfl,same.buffer]

def harmless : Op → Prop
  | .load p _ | .store p _ => p.blk ≠ recvBuf.blk
  | .semTake .sdioMutex _ | .semGive _ | .sdmmcIoWrite _ _ _ _ _ | .hostSet (.totalTx _) | .sipSet (.state _) => True
  | .note n => ∀ buf, n ≠ .parseEvents buf
  | o => o.quiet = true

theorem quiet_harmless {o : Op} (quiet : o.quiet = true) : harmless o := by
  cases o
  case sipSet a => cases a <;> first | (cases quiet; done) | exact quiet
  all_goals first
    | (cases quiet; done)
    | exact quiet

theorem quiet_undisturbed {t : Task} {o : Op} {r : o.Answer} {w w' : World} (quiet : o.quiet = true)
    (heap : recvBuf.blk < w.fresh) (ran : World.exec t o ans w = some (r,w')) : Undisturbed w w' := by
  have step := quiet_exec quiet ran
  exact ⟨step.mem _ (Nat.ne_of_lt heap),step.rxseq,by rw [step.host],step.fresh⟩

theorem harmless_exec {t : Task} {o : Op} {r : o.Answer} {w w' : World} (calm : harmless o)
    (heap : recvBuf.blk < w.fresh) (ran : World.exec t o ans w = some (r,w')) : Undisturbed w w' := by
  cases o
  case store p bytes =>
    simp only [World.exec,Option.some.injEq,Prod.mk.injEq] at ran
    rw [← ran.2]
    exact ⟨write_other (Ne.symm calm),rfl,rfl,Nat.le_refl _⟩
  case semTake s wait =>
    cases s
    case sdioMutex =>
      simp only [World.exec] at ran
      split at ran
      · cases ran; exact ⟨rfl,rfl,rfl,Nat.le_refl _⟩
      · cases ran
    all_goals cases calm
  case semGive s =>
    cases s
    case bootSem =>
      simp only [World.exec] at ran
      split at ran
      · cases ran; exact ⟨rfl,rfl,rfl,Nat.le_refl _⟩
      · cases ran; exact ⟨rfl,rfl,rfl,Nat.le_refl _⟩
    all_goals
      simp only [World.exec,Option.some.injEq,Prod.mk.injEq] at ran
      rw [← ran.2]
      exact ⟨rfl,rfl,rfl,Nat.le_refl _⟩
  case hostSet a =>
    simp only [World.exec,Option.some.injEq,Prod.mk.injEq] at ran
    rw [← ran.2]
    cases a with
    | totalTx value => exact ⟨rfl,rfl,rfl,Nat.le_refl _⟩
    | totalRx value => cases calm
  case sipSet a =>
    cases a
    case state value =>
      simp only [World.exec,Option.some.injEq,Prod.mk.injEq] at ran
      rw [← ran.2]
      exact ⟨rfl,rfl,rfl,Nat.le_refl _⟩
    all_goals exact quiet_undisturbed calm heap ran
  case load p n | sdmmcIoWrite function addr arg src size | note n =>
    all_goals
      simp only [World.exec,Option.some.injEq,Prod.mk.injEq] at ran
      rw [← ran.2]
      exact .refl w
  all_goals first
    | (cases calm; done)
    | exact quiet_undisturbed calm heap ran

-- An assertion that harmless operations and the surroundings keep. `world` is
-- the part of the state that the operations work on.
structure Kept (C : Contract signature σ) (world : σ → World) (keep : σ → Prop) : Prop where
  stable : ∀ s s', keep s → C.rely s s' → keep s'
  each : ∀ o s, harmless o → keep s → C.safe o s ∧ ∀ r s', C.act o s r s' → C.guar s s' ∧ keep s'
  exec : ∀ {o r s s'}, C.act o s r s' → ∃ t ans, World.exec t o ans (world s) = some (r,world s')
  heap : ∀ s, keep s → recvBuf.blk < (world s).fresh

section
variable {C : Contract signature σ} {world : σ → World} {keep : σ → Prop}

theorem Kept.op {post : α → σ → Prop} {o : Op} {next : o.Answer → Code α} (K : Kept C world keep) (calm : harmless o)
    (start : keep s) (rest : ∀ s₁ r s', keep s₁ → C.act o s₁ r s' → keep s' → wp C (next r) post s') :
    wp C (Prog.op o next : Code α) post s := by
  intro s₁ moved
  have held := K.stable _ _ start moved
  obtain ⟨safe,steps⟩ := K.each o s₁ calm held
  exact ⟨safe,fun r s' acted => ⟨(steps r s' acted).1,rest s₁ r s' held acted (steps r s' acted).2⟩⟩

theorem Kept.all {p : Code α} (K : Kept C world keep) (all : p.All harmless) (start : keep s) :
    wp C p (fun _ => keep) s :=
  wp_all all K.stable K.each start fun _ _ held => held

theorem fresh_block {t : Task} {size : UInt32} {w w' : World} {p : Ptr} (heap : recvBuf.blk < w.fresh)
    (ran : World.exec t (.calloc size) ans w = some (some p,w')) : p.blk ≠ recvBuf.blk := by
  simp only [World.exec] at ran
  split at ran
  · simp only [World.alloc,Option.some.injEq,Prod.mk.injEq] at ran
    rw [← ran.1]
    exact Nat.ne_of_gt heap
  · cases ran

-- `SIP_CMD_INIT` is built in a fresh block, so nothing it stores is seen here.
theorem sendChipInit_keeps (K : Kept C world keep) (cfg : Build) (start : keep s) :
    wp C (sipSendChipInit cfg) (fun _ => keep) s := by
  unfold sipSendChipInit espSipSendCmd
  simp only [Prog.bind_def,issue_bind,Prog.pure_def]
  refine K.op rfl start fun _ stack s₁ _ _ held => ?_
  refine K.op (fun buf same => by cases same) held fun _ _ s₂ _ _ held => ?_
  refine K.op rfl held fun s₃ buffer s₄ before acted held => ?_
  cases buffer with
  | none => exact held
  | some buffer =>
      obtain ⟨t,ans,ran⟩ := K.exec acted
      have elsewhere : buffer.blk ≠ recvBuf.blk := fresh_block (K.heap s₃ before) ran
      refine K.all (sendCmdBuffer_all (fun o quiet => quiet_harmless quiet) (fun _ _ => elsewhere) (fun _ _ => elsewhere)
        (fun same => absurd same (by decide)) trivial trivial (fun n sending => sending_not_parse sending)
        (fun _ _ _ _ => trivial) (fun _ => trivial) _ _) held

theorem parseTargetOn_keeps (K : Kept C world keep) (cfg : Build) (start : keep s) :
    wp C (parseTargetOn cfg) (fun _ => keep) s := by
  unfold parseTargetOn
  simp only [Prog.bind_def,issue_bind,Prog.pure_def]
  refine K.op rfl start fun _ sip s₁ _ _ held => ?_
  refine wp_ite (fun _ => ?_) fun _ => ?_
  · refine K.op trivial held fun _ _ s₂ _ _ held => ?_
    rw [wp_bind]
    refine wp_mono (sendChipInit_keeps K cfg held) fun ret s₃ held => ?_
    exact wp_ite (fun _ => K.op trivial held fun _ _ _ _ _ held => held) fun _ => held
  · exact K.op (fun buf same => by cases same) held fun _ _ _ _ _ held => held

-- The load of an event body is the one operation that needs an argument.
structure Loads (C : Contract signature σ) (keep : σ → Prop) (p : Ptr) (n : Nat) : Prop where
  safe : ∀ s, keep s → C.safe (.load p n) s
  keeps : ∀ s r s', keep s → C.act (.load p n) s r s' → C.guar s s' ∧ keep s'

theorem parseBootup_keeps (K : Kept C world keep) (body : Loads C keep (buf.add sizeofSipHdr) sizeofSipEvtBootup2)
    (start : keep s) : wp C (parseBootup buf) (fun _ => keep) s := by
  have all : (parseBootup buf).All fun o : Op => harmless o ∨ o = .load (buf.add sizeofSipHdr) sizeofSipEvtBootup2 :=
    parseBootup_all (fun o quiet => .inl (quiet_harmless quiet)) (.inr rfl) (.inl trivial) (.inl trivial)
  refine wp_all all K.stable (fun o s allowed held => ?_) start fun _ _ held => held
  rcases allowed with calm | rfl
  · exact K.each o s calm held
  · exact ⟨body.safe s held,fun r s' acted => body.keeps s r s' held acted⟩

theorem parseCoexState_keeps (K : Kept C world keep) (body : Loads C keep (buf.add sizeofSipHdr) sizeofSipEvtCoexState)
    (start : keep s) : wp C (parseCoexState buf) (fun _ => keep) s := by
  have all : (parseCoexState buf).All fun o : Op => harmless o ∨ o = .load (buf.add sizeofSipHdr) sizeofSipEvtCoexState :=
    parseCoexState_all (fun o quiet => .inl (quiet_harmless quiet)) (.inr rfl)
  refine wp_all all K.stable (fun o s allowed held => ?_) start fun _ _ held => held
  rcases allowed with calm | rfl
  · exact K.each o s calm held
  · exact ⟨body.safe s held,fun r s' acted => body.keeps s r s' held acted⟩

theorem parseSwitch_keeps (K : Kept C world keep)
    (body : 0 < evtBody cfg evtid → Loads C keep (buf.add sizeofSipHdr) (evtBody cfg evtid)) (start : keep s) :
    wp C (parseSwitch cfg buf evtid) (fun _ => keep) s := by
  unfold parseSwitch
  refine wp_ite (fun _ => parseTargetOn_keeps K cfg start) fun _ => ?_
  refine wp_ite (fun bootup => ?_) fun notBootup => ?_
  · rw [evtBody,if_pos bootup] at body
    exact parseBootup_keeps K (body (by decide)) start
  · refine wp_ite (fun coex => ?_) fun _ => start
    rw [evtBody,if_neg notBootup,if_pos coex] at body
    exact parseCoexState_keeps K (body (by decide)) start

end

-- The packet header at offset `o`, and whether the loop goes on to dispatch it.
def hdrAt (m : Mem) (o : Nat) : SipHdr := sipHdrOf (m.read (recvBuf.add o) sizeofSipHdr)

def accepted (hdr : SipHdr) (rxseq : UInt32) : Prop := ¬ (hdr.len ≤ 0 ∨ hdr.len &&& 3 ≠ 0) ∧ hdr.seq = rxseq

instance : Decidable (accepted hdr rxseq) := inferInstanceAs (Decidable (_ ∧ _))

-- What one packet is handed to.
inductive Dispatch where
  | parseEvents (buf : Ptr)
  | sipRxProcess (buf : Ptr) (len : UInt32)
  deriving DecidableEq

def takesData (cfg : Build) (hdr : SipHdr) : Prop := cfg.wifi = true ∧ (hdr.isData ∨ hdr.isAmpdu)

instance : Decidable (takesData cfg hdr) := inferInstanceAs (Decidable (_ ∧ _))

def dispatchOf (cfg : Build) (buf : Ptr) (hdr : SipHdr) : Option Dispatch :=
  if hdr.isCtrl then some (.parseEvents buf)
  else if takesData cfg hdr then some (.sipRxProcess buf hdr.len.toUInt32) else none

def dispatch (cfg : Build) (buf : Ptr) (hdr : SipHdr) : Code Unit := do
  match dispatchOf cfg buf hdr with
  | some (.parseEvents buf) =>
    let _ ← espSipParseEvents cfg buf
  | some (.sipRxProcess buf len) => issue (.sipRxProcess buf len)
  | none => pure ()

theorem data_not_ctrl {hdr : SipHdr} (data : takesData cfg hdr) : ¬ hdr.isCtrl := by
  intro ctrl
  have zero : sipHdrGetType hdr.fc0 = sipCtrl := ctrl
  rcases data.2 with one | two
  · exact absurd (zero.symm.trans one) (by decide)
  · exact absurd (zero.symm.trans two) (by decide)

-- The loop body in these terms.
theorem handleIntr0Loop_eq (cfg : Build) (fuel : Nat) (buf : Ptr) (nonzero : rlen ≠ 0) :
    handleIntr0Loop cfg (fuel + 1) buf rlen =
      .op (.load buf sizeofSipHdr) fun bytes =>
        if (sipHdrOf bytes).len ≤ 0 ∨ (sipHdrOf bytes).len &&& 3 ≠ 0 then .pure .fail else
        .op .sipGet fun sip => .op (.sipSet (.rxseq (sip.rxseq + 1))) fun _ =>
          if (sipHdrOf bytes).seq ≠ sip.rxseq then .pure .fail else
          (dispatch cfg buf (sipHdrOf bytes)).bind fun _ =>
            if (sipHdrOf bytes).len.toUInt32 < rlen then
              handleIntr0Loop cfg fuel (buf.add (sipHdrOf bytes).len.toNat) (rlen - (sipHdrOf bytes).len.toUInt32)
            else .pure .ok := by
  rw [handleIntr0Loop,if_neg nonzero]
  simp only [loadSipHdr,espSipIncreaseRxseq,Prog.bind_def,issue_bind,Prog.op_bind,Prog.pure_bind,Prog.pure_def]
  congr 1
  funext bytes
  split
  · rfl
  congr 1
  funext sip
  congr 1
  funext _
  split
  · rfl
  unfold dispatch dispatchOf takesData
  by_cases ctrl : (sipHdrOf bytes).isCtrl
  · simp only [if_pos ctrl,Prog.bind_def,Prog.bind_assoc,Prog.pure_def,Prog.pure_bind]
  · by_cases wifi : cfg.wifi = true
    · by_cases data : (sipHdrOf bytes).isData
      · simp [ctrl,wifi,data]
      · by_cases ampdu : (sipHdrOf bytes).isAmpdu
        · simp [ctrl,wifi,data,ampdu]
        · simp [ctrl,wifi,data,ampdu]
    · simp [ctrl,wifi]

-- The world after `esp_sip_increase_rxseq`.
def bumped (w : World) : World := {w with sip := {w.sip with rxseq := w.sip.rxseq + 1}}

theorem bump_exec {t : Task} {seq : UInt32} {w w₁ w₂ : World} (same : Undisturbed w w₁) (known : seq = w.sip.rxseq)
    (ran : World.exec t (.sipSet (.rxseq (seq + 1))) ans w₁ = some (r,w₂)) : Undisturbed (bumped w) w₂ := by
  simp only [World.exec,Option.some.injEq,Prod.mk.injEq] at ran
  rw [← ran.2,known]
  exact ⟨same.buffer,rfl,same.total,same.fresh⟩

theorem bumped_hdrAt (w : World) (o : Nat) : hdrAt (bumped w).mem o = hdrAt w.mem o := rfl

theorem len_lt (len : UInt16) (r : UInt32) : len.toUInt32 < r ↔ len.toNat < r.toNat := by
  rw [UInt32.lt_iff_toNat_lt,UInt16.toNat_toUInt32]

theorem len_sub {len : UInt16} {r : UInt32} (below : len.toNat < r.toNat) :
    (r - len.toUInt32).toNat = r.toNat - len.toNat := by
  rw [UInt32.toNat_sub_of_le,UInt16.toNat_toUInt32]
  rw [UInt32.le_iff_toNat_le,UInt16.toNat_toUInt32]
  exact Nat.le_of_lt below

end ExtConn.ReceiveBuffer
