import ExtConn.Footprint
import ExtConn.Sequential

namespace ExtConn.FailedCommands
open Effects ByteMemory ExtConn.Sequential

-- What went wrong in a call: an allocation that was refused, a bus write that failed.
structure Faults where
  refused : Bool
  failed : Bool

def faults : Slave Faults where
  answers _ _ o ans d := match o with
    | .calloc _ => some {d with refused := d.refused || !ans.flag}
    | .sdmmcIoWrite .. => some {d with failed := d.failed || decide (ans.err ≠ .ok)}
    | _ => some d
  moves _ _ := True

abbrev State := World × Faults

def unfailing : Faults := ⟨false,false⟩

def Faultless (d : Faults) : Prop := d.refused = false ∧ d.failed = false

def SameCounters (w w' : World) : Prop := w'.sip.txseq = w.sip.txseq ∧ w'.sip.rxseq = w.sip.rxseq

-- The two halves of the property, for one call.
def CommandRestores (w : World) (ret : EspErr) (s' : State) : Prop := ret ≠ .ok → SameCounters w s'.1

def EventRestores (w : World) (ret : EspErr) (s' : State) : Prop :=
  ret ≠ .ok → s'.1.sip.state = w.sip.state ∧ SameCounters w s'.1

-- What a command makes of the link's counters.
def counted (cid : UInt32) (sip : EspSip) : EspSip :=
  if cid = sipCmdBootup then {sip with rxseq := 0,txseq := 0}
  else if cid = sipCmdInit then {sip with txseq := sip.txseq + 1}
  else sip

def CountersKept (cid : UInt32) (sip : EspSip) : Prop :=
  if cid = sipCmdBootup then sip.txseq = 0 ∧ sip.rxseq = 0 else cid ≠ sipCmdInit

theorem counted_kept (cid : UInt32) (sip : EspSip) :
    (counted cid sip).txseq = sip.txseq ∧ (counted cid sip).rxseq = sip.rxseq ↔ CountersKept cid sip := by
  unfold counted CountersKept
  by_cases bootup : cid = sipCmdBootup
  · rw [if_pos bootup,if_pos bootup]
    exact ⟨fun same => ⟨same.1.symm,same.2.symm⟩,fun zero => ⟨zero.1.symm,zero.2.symm⟩⟩
  · rw [if_neg bootup,if_neg bootup]
    by_cases init : cid = sipCmdInit
    · rw [if_pos init]
      refine ⟨fun same => ?_,fun other => absurd init other⟩
      have one : (1 : UInt32).toNat = 1 := rfl
      have next := UInt32.toNat_inj.mpr same.1
      rw [UInt32.toNat_add,one] at next
      have bound := sip.txseq.toNat_lt
      omega
    · rw [if_neg init]
      exact ⟨fun _ => init,fun _ => ⟨rfl,rfl⟩⟩

section
variable {t : Task} {sip : EspSip} {s : State}

-- The link object as it is, and nothing has failed.
def Still (sip : EspSip) (s : State) : Prop := s.1.sip = sip ∧ s.2 = unfailing

def calm : Op → Bool
  | .calloc _ | .sdmmcIoWrite .. | .sipSet _ => false
  | _ => true

-- Operations that touch neither the link object nor the record of faults.
def Untouched (s s' : State) : Prop := s'.1.sip = s.1.sip ∧ s'.2 = s.2

theorem calm_act {o : Op} {r : o.Answer} {s' : State} (here : calm o = true) (acted : faults.act t o s r s') : Untouched s s' := by
  obtain ⟨w,d⟩ := s
  obtain ⟨w',d'⟩ := s'
  obtain ⟨ans,ran,answered⟩ := act_iff.mp acted
  have other : setsSip o = false := by
    cases o
    case sipSet => cases here
    all_goals rfl
  have same : d' = d := by
    cases o
    case calloc | sdmmcIoWrite => cases here
    all_goals
      cases answered
      rfl
  exact ⟨sip_kept other ran,same⟩

theorem calm_op {o : Op} {next : o.Answer → Code α} {post : α → State → Prop} (here : calm o = true)
    (rest : ∀ r s', Untouched s s' → wp (alone faults t) (next r) post s') : wp (alone faults t) (Prog.op o next : Code α) post s := by
  intro s₁ same
  cases same
  exact ⟨trivial,fun r s' acted => ⟨trivial,rest r s' (calm_act here acted)⟩⟩

theorem Still.on {s' : State} (still : Still sip s) (untouched : Untouched s s') : Still sip s' :=
  ⟨untouched.1.trans still.1,untouched.2.trans still.2⟩

theorem still_op {o : Op} {next : o.Answer → Code α} {post : α → State → Prop} (still : Still sip s) (here : calm o = true)
    (rest : ∀ r s', Still sip s' → wp (alone faults t) (next r) post s') : wp (alone faults t) (Prog.op o next : Code α) post s :=
  calm_op here fun r s' untouched => rest r s' (still.on untouched)

theorem set_op {a : SipAssign} {next : Unit → Code α} {post : α → State → Prop} (still : Still sip s)
    (rest : ∀ s', Still (a.apply sip) s' → wp (alone faults t) (next ()) post s') :
    wp (alone faults t) (Prog.op (.sipSet a) next : Code α) post s := by
  apply alone_exec (fun _ => rfl) (fun _ => rfl)
  exact rest _ ⟨congrArg a.apply still.1,still.2⟩

-- The bus writes of a packet; a failed one ends it.
structure Transmitted (sip : EspSip) (err : EspErr) (s' : State) : Prop where
  sip : s'.1.sip = sip
  granted : s'.2.refused = false
  fault : err = .ok ↔ s'.2.failed = false

theorem transmitted_still (still : Still sip s) : Transmitted sip .ok s :=
  ⟨still.1,by rw [still.2]; rfl,by rw [still.2]; exact ⟨fun _ => rfl,fun _ => rfl⟩⟩

theorem write_op {next : EspErr → Code EspErr} {post : EspErr → State → Prop} (still : Still sip s)
    (failed : ∀ err s', err ≠ .ok → Transmitted sip err s' → wp (alone faults t) (next err) post s')
    (written : ∀ s', Still sip s' → wp (alone faults t) (next .ok) post s') :
    wp (alone faults t) (Prog.op (.sdmmcIoWrite function addr arg src size) next : Code EspErr) post s := by
  obtain ⟨w,d⟩ := s
  apply alone_op
  intro ans r w' d' ran answered
  cases ran
  cases answered
  rw [show d = unfailing from still.2]
  by_cases success : ans.err = .ok
  · rw [success]
    exact written _ ⟨still.1,rfl⟩
  · apply failed ans.err _ success
    exact ⟨still.1,rfl,by simp [unfailing,success]⟩

theorem chunks_transmitted {n : UInt32} (still : Still sip s) :
    wp (alone faults t) (sendPacketChunks function addr (n.toNat + 1) p n) (Transmitted sip) s := by
  have tail (m : UInt32) (q : Ptr) (s : State) (still : Still sip s) : wp (alone faults t) (writeTail function addr q m) (Transmitted sip) s :=
    write_op still (fun _ _ _ transmitted => transmitted) fun _ still => transmitted_still still
  by_cases small : n.toNat < 512
  · by_cases nonzero : 0 < n.toNat
    · rw [sendPacketChunks_tail _ _ _ _ nonzero small]
      exact tail n p s still
    · have zero : n = 0 := by simpa using mt (toNat_ne_zero n).mp nonzero
      subst zero
      exact transmitted_still still
  · obtain ⟨fuel,bound⟩ : ∃ fuel, n.toNat + 1 = fuel + 2 := ⟨n.toNat - 1,by omega⟩
    rw [bound,sendPacketChunks_blocks _ _ _ _ (by omega)]
    apply write_op still
    · intro err s' wrong transmitted
      rw [if_pos wrong]
      exact transmitted
    · intro s' still
      rw [if_neg (not_not_intro rfl)]
      apply wp_ite
      · exact fun _ => transmitted_still still
      · exact fun _ => tail _ _ s' still

theorem Transmitted.on {s' : State} {err : EspErr} (transmitted : Transmitted sip err s) (untouched : Untouched s s') :
    Transmitted sip err s' :=
  ⟨untouched.1.trans transmitted.sip,by rw [untouched.2]; exact transmitted.granted,by rw [untouched.2]; exact transmitted.fault⟩

theorem still_returns {p : Code EspErr} (here : p.All (calm · = true)) (returns : p.Returns fun err => err = .ok) (still : Still sip s) :
    wp (alone faults t) p (Transmitted sip) s := by
  induction p generalizing s with
  | pure err =>
      rw [Prog.returns_pure] at returns
      rw [returns]
      exact transmitted_still still
  | op o next ih => exact still_op still here.1 fun r s' still => ih r (here.2 r) (returns r) still

theorem after_transmitted {length : UInt32} {err : EspErr} (transmitted : Transmitted sip err s) :
    wp (alone faults t) (afterChunks 1 length err) (Transmitted sip) s := by
  unfold afterChunks
  apply wp_ite
  · exact fun _ => transmitted
  · intro success
    have fine := not_not.mp success
    have still : Still sip s := by
      have none := transmitted.fault.mp fine
      have granted := transmitted.granted
      obtain ⟨w,⟨refused,failed⟩⟩ := s
      cases none
      cases granted
      exact ⟨transmitted.sip,rfl⟩
    rw [fine] at *
    apply still_returns _ _ still
    · refine Prog.All.ite (fun _ => ⟨rfl,fun _ => ⟨rfl,fun _ => ⟨rfl,fun host => ?_⟩⟩⟩) fun _ => ⟨rfl,fun _ => trivial⟩
      exact Prog.All.ite (fun _ => ⟨rfl,fun _ => ⟨rfl,fun _ => trivial⟩⟩) fun _ => ⟨rfl,fun _ => trivial⟩
    · exact Prog.Returns.ite (fun _ _ host => Prog.Returns.ite (fun _ _ => rfl) fun _ => rfl) fun _ => rfl

theorem packet_transmitted {buffer : Ptr} {length : UInt32} (still : Still sip s) :
    wp (alone faults t) (espExtconnSdioSendPacket 1 buffer length) (Transmitted sip) s := by
  rw [sendPacket_eq]
  apply still_op still rfl
  intro _ s' still
  unfold sendPacketRest
  rw [wp_bind]
  exact wp_mono (chunks_transmitted still) fun err s'' transmitted => after_transmitted transmitted

theorem filled_transmitted {buffer : Ptr} {cmd : List UInt8} {length : UInt32} (still : Still sip s) :
    wp (alone faults t) (sendFilled buffer cmd length) (Transmitted sip) s := by
  unfold sendFilled
  apply still_op still rfl
  intro _ s₁ still
  apply still_op still rfl
  intro _ s₂ still
  apply still_op still rfl
  intro _ s₃ still
  rw [wp_bind]
  apply wp_mono (packet_transmitted still)
  intro err s₄ transmitted
  apply calm_op rfl
  intro _ s₅ untouched
  have unlocked := transmitted.on untouched
  apply calm_op rfl
  intro _ s₆ untouched
  exact unlocked.on untouched

theorem buffer_transmitted {cid : UInt32} {len : UInt16} {cmd : List UInt8} {buffer : Ptr} (still : Still sip s) :
    wp (alone faults t) (espSipSendCmdBuffer cid len cmd buffer) (Transmitted (counted cid sip)) s := by
  rw [sendCmdBuffer_eq]
  apply still_op still rfl
  intro _ s₁ still
  apply still_op still rfl
  intro _ s₂ still
  apply still_op still rfl
  intro _ s₃ still
  apply still_op still rfl
  intro _ s₄ still
  apply still_op still rfl
  intro _ s₅ still
  apply still_op still rfl
  intro _ s₆ still
  apply still_op still rfl
  intro _ s₇ still
  unfold counted
  by_cases bootup : cid = sipCmdBootup
  · rw [if_pos bootup,if_pos bootup]
    apply set_op still
    intro s₈ still
    apply set_op still
    intro s₉ still
    exact filled_transmitted still
  · rw [if_neg bootup,if_neg bootup]
    by_cases init : cid = sipCmdInit
    · rw [if_pos init,if_pos init]
      apply alone_exec (fun _ => rfl) (fun _ => rfl)
      rw [still.1]
      apply set_op still
      intro s₉ still
      exact filled_transmitted still
    · rw [if_neg init,if_neg init]
      exact filled_transmitted still

-- The end of a command: refused before anything has changed, or counted.
def Ended (cid : UInt32) (sip : EspSip) (err : EspErr) (s' : State) : Prop :=
  (s'.2.refused = true ∧ err ≠ .ok ∧ s'.1.sip = sip) ∨ Transmitted (counted cid sip) err s'

theorem command_ended {cid cmdlen : UInt32} {cmd : List UInt8} (still : Still sip s) :
    wp (alone faults t) (espSipSendCmd cid cmdlen cmd) (Ended cid sip) s := by
  unfold espSipSendCmd
  simp only [Prog.bind_def,issue_bind]
  apply still_op still rfl
  intro _ s₁ still
  obtain ⟨w,d⟩ := s₁
  apply alone_op
  intro ans buffer w' d' ran answered
  cases answered
  rw [show d = unfailing from still.2]
  by_cases granted : ans.flag = true
  · simp only [World.exec,if_pos granted] at ran
    cases ran
    rw [granted]
    exact wp_mono (buffer_transmitted ⟨still.1,rfl⟩) fun err s' transmitted => .inr transmitted
  · simp only [World.exec,if_neg granted] at ran
    cases ran
    exact .inl ⟨by simp [granted],(fun wrong => by cases wrong),still.1⟩

theorem Ended.error {cid : UInt32} {err : EspErr} {s' : State} (ended : Ended cid sip err s') : err = .ok ↔ Faultless s'.2 := by
  rcases ended with ⟨refused,wrong,_⟩ | transmitted
  · exact ⟨fun success => absurd success wrong,fun none => absurd (none.1.symm.trans refused) nofun⟩
  · exact transmitted.fault.trans ⟨fun none => ⟨transmitted.granted,none⟩,fun none => none.2⟩

theorem Ended.restores {w : World} {cid : UInt32} {err : EspErr} {s' : State} (ended : Ended cid w.sip err s') :
    CommandRestores w err s' ↔ CountersKept cid w.sip ∨ s'.2.refused = true ∨ Faultless s'.2 := by
  have faultless := ended.error
  rcases ended with ⟨refused,_,same⟩ | transmitted
  · refine ⟨fun _ => .inr (.inl refused),fun _ _ => ?_⟩
    rw [SameCounters,same]
    exact ⟨rfl,rfl⟩
  · have counters : SameCounters w s'.1 ↔ CountersKept cid w.sip := by
      rw [SameCounters,transmitted.sip]
      exact counted_kept cid w.sip
    constructor
    · intro restores
      by_cases success : err = .ok
      · exact .inr (.inr (faultless.mp success))
      · exact .inl (counters.mp (restores success))
    · intro condition wrong
      rcases condition with kept | refused | none
      · exact counters.mpr kept
      · exact absurd (transmitted.granted.symm.trans refused) nofun
      · exact absurd (faultless.mpr none) wrong

-- The states in which the slave may come up.
def Booting (sip : EspSip) : Prop := sip.state = .prepareBoot ∨ sip.state = .boot

instance (sip : EspSip) : Decidable (Booting sip) := inferInstanceAs (Decidable (_ ∨ _))

-- How `SIP_EVT_TARGET_ON` is handled: the state stays at `SIP_SEND_INIT` when the command fails.
structure Handled (sip : EspSip) (err : EspErr) (s' : State) : Prop where
  waiting : Booting sip → (err = .ok ↔ Faultless s'.2) ∧ (err ≠ .ok → s'.1.sip.state = .sendInit)
  ignored : ¬ Booting sip → err = .ok

theorem chip_init_ended {cfg : Build} (still : Still sip s) : wp (alone faults t) (sipSendChipInit cfg) (Ended sipCmdInit sip) s := by
  unfold sipSendChipInit
  simp only [Prog.bind_def,issue_bind]
  apply still_op still rfl
  intro after s' still
  exact command_ended still

theorem Ended.state {err : EspErr} {s' : State} (ended : Ended sipCmdInit sip err s') : s'.1.sip.state = sip.state := by
  rcases ended with ⟨_,_,same⟩ | transmitted
  · rw [same]
  · rw [transmitted.sip]
    rfl

theorem targetOn_handled {cfg : Build} (still : Still sip s) : wp (alone faults t) (parseTargetOn cfg) (Handled sip) s := by
  unfold parseTargetOn
  simp only [Prog.bind_def,issue_bind,Prog.pure_def]
  apply alone_exec (fun _ => rfl) (fun _ => rfl)
  rw [still.1]
  apply wp_ite
  · intro booting
    apply set_op still
    intro s₁ still
    rw [wp_bind]
    apply wp_mono (chip_init_ended still)
    intro err s₂ ended
    have fault := ended.error
    apply wp_ite
    · intro success
      apply alone_exec (fun _ => rfl) (fun _ => rfl)
      exact ⟨fun _ => ⟨fault,fun wrong => absurd success wrong⟩,fun other => absurd booting other⟩
    · intro wrong
      exact ⟨fun _ => ⟨fault,fun _ => ended.state⟩,fun other => absurd booting other⟩
  · intro booting
    apply still_op still rfl
    intro _ s₁ still
    exact ⟨fun other => absurd other booting,fun _ => rfl⟩

theorem event_handled {cfg : Build} {buf : Ptr} {w : World} (event : (sipHdrOf (w.mem.read buf sizeofSipHdr)).fc1 = sipEvtTargetOn) :
    wp (alone faults t) (espSipParseEvents cfg buf) (Handled w.sip) (w,unfailing) := by
  unfold espSipParseEvents loadSipHdr
  simp only [Prog.bind_def,issue_bind,Prog.op_bind,Prog.pure_bind,Prog.pure_def]
  apply alone_exec (fun _ => rfl) (fun _ => rfl)
  apply alone_exec (fun _ => rfl) (fun _ => rfl)
  rw [parseSwitch,if_pos event]
  exact targetOn_handled ⟨rfl,rfl⟩

theorem Handled.restores {w : World} {err : EspErr} {s' : State} (handled : Handled w.sip err s') :
    EventRestores w err s' ↔ ¬ Booting w.sip ∨ Faultless s'.2 := by
  by_cases booting : Booting w.sip
  · obtain ⟨fault,left⟩ := handled.waiting booting
    constructor
    · intro restores
      right
      apply fault.mp
      by_contra wrong
      have same := (left wrong).symm.trans (restores wrong).1
      rcases booting with prepared | boot
      · rw [prepared] at same
        cases same
      · rw [boot] at same
        cases same
    · intro condition wrong
      rcases condition with other | none
      · exact absurd booting other
      · exact absurd (fault.mpr none) wrong
  · exact ⟨fun _ => .inl booting,fun _ wrong => absurd (handled.ignored booting) wrong⟩

end

theorem restores_iff {t : Task} {w : World} {trace : List Op} {ret : EspErr} {s' : State} :
    (∀ (cid cmdlen : UInt32) (cmd : List UInt8),
      Runs Eq (faults.act t) (espSipSendCmd cid cmdlen cmd) (w,unfailing) trace ret s' →
      (CommandRestores w ret s' ↔ CountersKept cid w.sip ∨ s'.2.refused = true ∨ Faultless s'.2)) ∧
    ∀ (cfg : Build) (buf : Ptr), (sipHdrOf (w.mem.read buf sizeofSipHdr)).fc1 = sipEvtTargetOn →
      Runs Eq (faults.act t) (espSipParseEvents cfg buf) (w,unfailing) trace ret s' →
      (EventRestores w ret s' ↔ ¬ Booting w.sip ∨ Faultless s'.2) :=
  ⟨fun _ _ _ run => (alone_runs (command_ended ⟨rfl,rfl⟩) run).restores,
    fun _ _ event run => (alone_runs (event_handled event) run).restores⟩

-- After BOOTUP; the header that memory holds, all zero, is that of TARGET_ON.
def prepared : World := World.initial {espSipInit with state := .prepareBoot,txseq := 7}

def answers (write : EspErr) : List Ans := List.replicate 32 {flag := true,err := write,data := List.replicate 15 0}

theorem target_on_fails : ∃ trace ret s', Runs Eq (faults.act .transRecv) (espSipParseEvents ⟨true,false⟩ ⟨9,0⟩) (prepared,unfailing) trace ret s' ∧
    ret ≠ .ok ∧ s'.1.sip.state = .sendInit ∧ s'.1.sip.txseq = 8 := by
  obtain ⟨trace,ret,s',run,passed⟩ := slave_executes faults .transRecv (fun s => (rfl : s = s))
    (espSipParseEvents ⟨true,false⟩ ⟨9,0⟩) (answers .timeout) (prepared,unfailing)
    (fun ret s => decide (ret ≠ .ok ∧ s.1.sip.state = .sendInit ∧ s.1.sip.txseq = 8)) (by decide +kernel)
  exact ⟨trace,ret,s',run,of_decide_eq_true passed⟩

theorem config_restores : (∃ trace ret s', Runs Eq (faults.act .appMain) (espSipSendCmd sipCmdConfig 4 [1,2,3,4]) (prepared,unfailing) trace ret s' ∧
      ret ≠ .ok ∧ CommandRestores prepared ret s') ∧
    ∃ trace ret s', Runs Eq (faults.act .transRecv) (espSipParseEvents ⟨true,false⟩ ⟨9,0⟩) (prepared,unfailing) trace ret s' ∧
      EventRestores prepared ret s' := by
  obtain ⟨trace,ret,s',failing,wrong⟩ := slave_executes faults .appMain (fun s => (rfl : s = s))
    (espSipSendCmd sipCmdConfig 4 [1,2,3,4]) (answers .timeout) (prepared,unfailing) (fun ret _ => decide (ret ≠ .ok)) (by decide +kernel)
  obtain ⟨trace',ret',s'',succeeding,fine⟩ := slave_executes faults .transRecv (fun s => (rfl : s = s))
    (espSipParseEvents ⟨true,false⟩ ⟨9,0⟩) (answers .ok) (prepared,unfailing)
    (fun _ s => decide (s.2.refused = false ∧ s.2.failed = false)) (by decide +kernel)
  have kept : CountersKept sipCmdConfig prepared.sip := by
    rw [CountersKept,if_neg (by decide)]
    decide
  have none : s''.2.refused = false ∧ s''.2.failed = false := of_decide_eq_true fine
  exact ⟨⟨trace,ret,s',failing,of_decide_eq_true wrong,(restores_iff.1 _ _ _ failing).mpr (.inl kept)⟩,
    trace',ret',s'',succeeding,(restores_iff.2 _ _ rfl succeeding).mpr (.inr none)⟩

theorem target_on_not_restored : ¬ ∀ (t : Task) (w : World) (trace : List Op) (ret : EspErr) (s' : State),
    (∀ (cid cmdlen : UInt32) (cmd : List UInt8),
      Runs Eq (faults.act t) (espSipSendCmd cid cmdlen cmd) (w,unfailing) trace ret s' → CommandRestores w ret s') ∧
    ∀ (cfg : Build) (buf : Ptr), (sipHdrOf (w.mem.read buf sizeofSipHdr)).fc1 = sipEvtTargetOn →
      Runs Eq (faults.act t) (espSipParseEvents cfg buf) (w,unfailing) trace ret s' → EventRestores w ret s' := by
  intro every
  obtain ⟨trace,ret,s',run,wrong,left,_⟩ := target_on_fails
  have restored := ((every _ _ _ _ _).2 _ _ rfl run wrong).1
  rw [left] at restored
  cases restored

end ExtConn.FailedCommands
