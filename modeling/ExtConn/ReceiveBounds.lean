import ExtConn.ReceiveBuffer

namespace ExtConn.ReceiveBounds
open Effects ByteMemory ReceiveBuffer

abbrev OpenState := World × Unit

-- An access to `recv_buf` stays within the bytes received, and the body of an
-- event within its own packet, whose header stands right before it.
def Inside (rlen : Nat) (o : Op) (m : Mem) : Prop :=
  match o with
  | .load p n => p.blk = recvBuf.blk → p.off + n ≤ rlen ∧
      (n ≠ sizeofSipHdr → sizeofSipHdr + n ≤ (hdrAt m (p.off - sizeofSipHdr)).len.toNat)
  | .sipRxProcess buf len => buf.off + len.toNat ≤ rlen
  | _ => True

def disturbed (s s' : OpenState) : Prop := Undisturbed s.1 s'.1

-- The parsing of `rlen` received bytes, from any content of `recv_buf` and any
-- state of the host, never leaves them.
def ParsedInside (cfg : Build) (rlen : UInt32) (w : World) : Prop :=
  ∀ o s, Issues disturbed (openSlave.act .transRecv) (handleIntr0Parse cfg rlen) (w,()) o s → Inside rlen.toNat o s.1.mem

-- The chain of length fields from offset `o` on, with `r` bytes left: every
-- packet reached has a whole header; a packet that is not accepted ends the
-- walk; an event is long enough for its body; the last packet, if it carries
-- data, ends where the received bytes end, and if it is an event, its body does
-- not go past them.
inductive Fits (cfg : Build) (m : Mem) : UInt32 → Nat → Nat → Prop where
  | rejected : sizeofSipHdr ≤ r → ¬ accepted (hdrAt m o) seq → Fits cfg m seq o r
  | last : sizeofSipHdr ≤ r → accepted (hdrAt m o) seq → r ≤ (hdrAt m o).len.toNat →
      (takesData cfg (hdrAt m o) → (hdrAt m o).len.toNat = r) →
      ((hdrAt m o).isCtrl → 0 < evtBody cfg (hdrAt m o).fc1 → sizeofSipHdr + evtBody cfg (hdrAt m o).fc1 ≤ r) →
      Fits cfg m seq o r
  | more : sizeofSipHdr ≤ r → accepted (hdrAt m o) seq → (hdrAt m o).len.toNat < r →
      ((hdrAt m o).isCtrl → 0 < evtBody cfg (hdrAt m o).fc1 →
        sizeofSipHdr + evtBody cfg (hdrAt m o).fc1 ≤ (hdrAt m o).len.toNat) →
      Fits cfg m (seq + 1) (o + (hdrAt m o).len.toNat) (r - (hdrAt m o).len.toNat) → Fits cfg m seq o r

def withSafe (safe : Op → OpenState → Prop) : Contract signature OpenState where
  act := openSlave.act .transRecv
  rely := disturbed
  guar _ _ := True
  safe := safe

theorem open_act {o : Op} {r : o.Answer} {s s' : OpenState} :
    openSlave.act t o s r s' ↔ ∃ ans, World.exec t o ans s.1 = some (r,s'.1) := by
  rw [act_iff]
  exact ⟨fun ⟨ans,ran,_⟩ => ⟨ans,ran⟩,fun ⟨ans,ran⟩ => ⟨ans,ran,rfl⟩⟩

-- Other tasks can always bring about a state in which an operation goes through.
def freed (w : World) : World :=
  {w with sdioMutex := none,txSem := 1,bootSem := .null,txQue := [⟨none,0⟩],wifiTx := ⟨nullEb,nullEb,fun _ => nullEb,true⟩,
          blocks := fun _ => none}

theorem freed_undisturbed (w : World) : Undisturbed w (freed w) := ⟨rfl,rfl,rfl,Nat.le_refl _⟩

theorem freed_exec (o : Op) (w : World) : ∃ ans r w', World.exec .transRecv o ans (freed w) = some (r,w') := by
  cases o
  case sdmmcIoRead function addr arg dst size =>
    exact ⟨{data := List.replicate size.toNat 0},_,_,by simp [World.exec]; exact ⟨rfl,rfl⟩⟩
  case unspecified n | derefNull n => exact ⟨{data := List.replicate n 0},_,_,by simp [World.exec]; exact ⟨rfl,rfl⟩⟩
  case semTake sem wait => cases sem <;> exact ⟨{},_,_,rfl⟩
  case semGive sem => cases sem <;> exact ⟨{},_,_,rfl⟩
  case allocatedSize p => exact ⟨{},_,_,by simp [World.exec,freed]; exact ⟨rfl,rfl⟩⟩
  all_goals exact ⟨{num := 1},_,_,rfl⟩

theorem never_stuck (o : Op) (s : OpenState) : ∃ s₁ r s₂, disturbed s s₁ ∧ openSlave.act .transRecv o s₁ r s₂ := by
  obtain ⟨ans,r,w,ran⟩ := freed_exec o s.1
  exact ⟨(freed s.1,()),r,(w,()),freed_undisturbed s.1,open_act.mpr ⟨ans,ran⟩⟩

theorem withSafe_kept {safe : Op → OpenState → Prop} (calm : ∀ o s, harmless o → safe o s) (w : World)
    (heap : recvBuf.blk < w.fresh) : Kept (withSafe safe) Prod.fst fun s => Undisturbed w s.1 where
  stable _ _ held moved := held.trans moved
  each o s harm held := by
    refine ⟨calm o s harm,fun r s' acted => ⟨trivial,?_⟩⟩
    obtain ⟨ans,ran⟩ := open_act.mp acted
    exact held.trans (harmless_exec harm (Nat.lt_of_lt_of_le heap held.fresh) ran)
  exec acted := by
    obtain ⟨ans,ran⟩ := open_act.mp acted
    exact ⟨_,ans,ran⟩
  heap _ held := Nat.lt_of_lt_of_le heap held.fresh

theorem load_exec {t : Task} {r : List UInt8} {w w' : World} (ran : World.exec t (.load p n) ans w = some (r,w')) :
    r = w.mem.read p n ∧ w' = w := by
  simp only [World.exec,Option.some.injEq,Prod.mk.injEq] at ran
  exact ⟨ran.1.symm,ran.2.symm⟩

theorem load_acts {s s' : OpenState} {r : List UInt8} (acted : openSlave.act .transRecv (.load p n) s r s') :
    r = s.1.mem.read p n ∧ s' = s := by
  obtain ⟨ans,ran⟩ := open_act.mp acted
  obtain ⟨bytes,world⟩ := load_exec ran
  exact ⟨bytes,Prod.ext world rfl⟩

-- What one packet is dispatched to: the assertions asked of its accesses, and
-- that the walk finds its buffer and its counter again.
theorem dispatch_keeps {safe : Op → OpenState → Prop} (calm : ∀ o s, harmless o → safe o s) {w : World}
    (heap : recvBuf.blk < w.fresh) {o : Nat} {s : OpenState} (start : Undisturbed w s.1)
    (note : ∀ s, safe (.note (.parseEvents (recvBuf.add o))) s)
    (header : ∀ s, Undisturbed w s.1 → safe (.load (recvBuf.add o) sizeofSipHdr) s)
    (body : (hdrAt w.mem o).isCtrl → 0 < evtBody cfg (hdrAt w.mem o).fc1 → ∀ s, Undisturbed w s.1 →
      safe (.load ((recvBuf.add o).add sizeofSipHdr) (evtBody cfg (hdrAt w.mem o).fc1)) s)
    (data : takesData cfg (hdrAt w.mem o) → ∀ s, safe (.sipRxProcess (recvBuf.add o) (hdrAt w.mem o).len.toUInt32) s) :
    wp (withSafe safe) (dispatch cfg (recvBuf.add o) (hdrAt w.mem o)) (fun _ s' => Undisturbed w s'.1) s := by
  have K := withSafe_kept calm w heap
  unfold dispatch dispatchOf
  by_cases ctrl : (hdrAt w.mem o).isCtrl
  · simp only [if_pos ctrl,espSipParseEvents,loadSipHdr,Prog.bind_def,issue_bind,Prog.op_bind,Prog.pure_bind,Prog.pure_def]
    rw [wp_op]
    intro s₁ moved₁
    refine ⟨note s₁,fun _ s₂ noted => ⟨trivial,?_⟩⟩
    have same₂ : Undisturbed w s₂.1 := by
      obtain ⟨ans,ran⟩ := open_act.mp noted
      simp only [World.exec,Option.some.injEq,Prod.mk.injEq] at ran
      rw [← ran.2]
      exact start.trans moved₁
    rw [wp_op]
    intro s₃ moved₂
    have same₃ := same₂.trans moved₂
    refine ⟨header s₃ same₃,fun bytes s₄ loaded => ⟨trivial,?_⟩⟩
    obtain ⟨rfl,rfl⟩ := load_acts loaded
    rw [same₃.read,wp_bind]
    refine wp_mono (parseSwitch_keeps K (fun positive => ⟨fun s held => body ctrl positive s held,?_⟩) same₃)
      fun _ _ held => held
    intro s r s' held acted
    obtain ⟨_,rfl⟩ := load_acts acted
    exact ⟨trivial,held⟩
  · simp only [if_neg ctrl]
    by_cases takes : takesData cfg (hdrAt w.mem o)
    · simp only [if_pos takes]
      intro s₁ moved
      refine ⟨data takes s₁,fun _ s₂ acted => ⟨trivial,?_⟩⟩
      obtain ⟨ans,ran⟩ := open_act.mp acted
      simp only [World.exec,Option.some.injEq,Prod.mk.injEq] at ran
      rw [wp_pure,← ran.2]
      exact start.trans moved
    · simp only [if_neg takes]
      exact start

def safeIn (rlen : Nat) (o : Op) (s : OpenState) : Prop := Inside rlen o s.1.mem

theorem harmless_inside {o : Op} (calm : harmless o) (rlen : Nat) (s : OpenState) : safeIn rlen o s := by
  cases o
  case load p n => exact fun here => absurd here calm
  case sipRxProcess buf len => cases calm
  all_goals trivial

theorem header_inside (fits : o + sizeofSipHdr ≤ rlen) (s : OpenState) : safeIn rlen (.load (recvBuf.add o) sizeofSipHdr) s := by
  intro _
  refine ⟨?_,fun different => absurd rfl different⟩
  simpa [recvBuf] using fits

theorem body_inside {s : OpenState} {w : World} (same : Undisturbed w s.1) (n : Nat)
    (short : sizeofSipHdr + n ≤ (hdrAt w.mem o).len.toNat) (fits : o + (sizeofSipHdr + n) ≤ rlen) :
    safeIn rlen (.load ((recvBuf.add o).add sizeofSipHdr) n) s := by
  intro _
  have off : ((recvBuf.add o).add sizeofSipHdr).off = o + sizeofSipHdr := by simp [recvBuf]
  rw [off,Nat.add_sub_cancel]
  refine ⟨by omega,fun _ => ?_⟩
  rw [hdrAt,same.read]
  exact short

theorem Fits.whole (fits : Fits cfg m seq o r) : sizeofSipHdr ≤ r := by cases fits <;> assumption

theorem Fits.step (fits : Fits cfg m seq o r) (taken : accepted (hdrAt m o) seq) :
    (takesData cfg (hdrAt m o) → (hdrAt m o).len.toNat ≤ r) ∧
    ((hdrAt m o).isCtrl → 0 < evtBody cfg (hdrAt m o).fc1 →
      sizeofSipHdr + evtBody cfg (hdrAt m o).fc1 ≤ (hdrAt m o).len.toNat ∧ sizeofSipHdr + evtBody cfg (hdrAt m o).fc1 ≤ r) ∧
    ((hdrAt m o).len.toNat < r → Fits cfg m (seq + 1) (o + (hdrAt m o).len.toNat) (r - (hdrAt m o).len.toNat)) := by
  cases fits with
  | rejected whole refused => exact absurd taken refused
  | last whole taken overruns data event =>
      refine ⟨fun takes => Nat.le_of_eq (data takes),fun ctrl positive => ?_,fun below => absurd overruns (by omega)⟩
      have fits := event ctrl positive
      exact ⟨Nat.le_trans fits overruns,fits⟩
  | more whole taken below event rest =>
      refine ⟨fun _ => Nat.le_of_lt below,fun ctrl positive => ?_,fun _ => rest⟩
      have fits := event ctrl positive
      exact ⟨fits,Nat.le_trans fits (Nat.le_of_lt below)⟩

theorem len_positive {hdr : SipHdr} (taken : accepted hdr rxseq) : 0 < hdr.len.toNat := by
  have zero : (0 : UInt16).toNat = 0 := rfl
  have positive : ¬ hdr.len ≤ 0 := fun low => taken.1 (.inl low)
  rw [UInt16.le_iff_toNat_le,zero] at positive
  omega

theorem header_whole {rlen : UInt32} : rlen ≥ sipCtrlHdrLen ↔ sizeofSipHdr ≤ rlen.toNat := by
  rw [ge_iff_le,UInt32.le_iff_toNat_le]
  rfl

theorem loop_inside {w : World} {s : OpenState} {r : UInt32} (fits : Fits cfg w.mem w.sip.rxseq o r.toNat)
    (total : o + r.toNat = rlen) (enough : r.toNat ≤ fuel) (heap : recvBuf.blk < w.fresh) (same : Undisturbed w s.1) :
    wp (withSafe (safeIn rlen)) (handleIntr0Loop cfg fuel (recvBuf.add o) r) (fun _ _ => True) s := by
  induction fuel generalizing w s o r with
  | zero =>
      exact absurd (Nat.le_trans fits.whole enough) (by decide)
  | succ fuel ih =>
      have whole : 12 ≤ r.toNat := fits.whole
      have nonzero : r ≠ 0 := (toNat_ne_zero r).mpr (by omega)
      rw [handleIntr0Loop_eq cfg fuel _ nonzero,wp_op]
      intro s₁ moved₁
      refine ⟨header_inside (by simp only [sizeofSipHdr]; omega) s₁,fun bytes s₁' loaded => ⟨trivial,?_⟩⟩
      obtain ⟨rfl,rfl⟩ := load_acts loaded
      have same₁ := same.trans moved₁
      rw [same₁.read,← hdrAt]
      refine wp_ite (fun _ => trivial) fun wellSized => ?_
      rw [wp_op]
      intro s₂ moved₂
      refine ⟨trivial,fun sip s₃ got => ⟨trivial,?_⟩⟩
      obtain ⟨ans,ran⟩ := open_act.mp got
      simp only [World.exec,Option.some.injEq,Prod.mk.injEq] at ran
      have same₂ := same₁.trans moved₂
      have counter : sip.rxseq = w.sip.rxseq := by rw [← ran.1,same₂.rxseq]
      rw [wp_op]
      intro s₄ moved₄
      refine ⟨trivial,fun _ s₅ set => ⟨trivial,?_⟩⟩
      obtain ⟨ans,stored⟩ := open_act.mp set
      have same₃ : Undisturbed w s₃.1 := by rw [← ran.2]; exact same₂
      have same₅ := bump_exec (same₃.trans moved₄) counter stored
      refine wp_ite (fun _ => trivial) fun inOrder => ?_
      have taken : accepted (hdrAt w.mem o) w.sip.rxseq := ⟨wellSized,by rw [← counter]; exact Decidable.not_not.mp inOrder⟩
      obtain ⟨data,event,rest⟩ := fits.step taken
      have heap' : recvBuf.blk < (bumped w).fresh := heap
      rw [wp_bind]
      refine wp_mono (dispatch_keeps (fun o s calm => harmless_inside calm rlen s) heap' same₅ (fun _ => trivial) ?_ ?_ ?_) ?_
      · exact fun s _ => header_inside (by simp only [sizeofSipHdr]; omega) s
      · intro ctrl positive s held
        obtain ⟨short,inside⟩ := event ctrl positive
        exact body_inside held _ short (Nat.le_trans (Nat.add_le_add_left inside o) (Nat.le_of_eq total))
      · intro takes s
        have inside := data takes
        simp only [safeIn,Inside,bumped_hdrAt,UInt16.toNat_toUInt32,recvBuf,Ptr.add_off]
        omega
      · intro _ s₆ held
        refine wp_ite (fun shorter => ?_) fun _ => trivial
        have below := (len_lt _ _).mp shorter
        have left := len_sub below
        have progress := len_positive taken
        rw [Ptr.add_add]
        refine ih ?_ (by omega) (by omega) heap' held
        rw [left]
        exact rest below

theorem still (s : OpenState) : disturbed s s := Undisturbed.refl s.1

-- One operation of a walk that nobody interferes with.
theorem alone {safe : Op → OpenState → Prop} {o : Op} {next : o.Answer → Code α} {post : α → OpenState → Prop} {s : OpenState}
    {r : o.Answer} {w : World} (holds : wp (withSafe safe) (.op o next) post s) (ans : Ans)
    (ran : World.exec .transRecv o ans s.1 = some (r,w)) : wp (withSafe safe) (next r) post (w,()) :=
  wp_step holds (still s) (open_act.mpr ⟨ans,ran⟩)

theorem evtBody_ne (cfg : Build) (evtid : UInt8) : evtBody cfg evtid ≠ sizeofSipHdr := by
  unfold evtBody
  split
  · decide
  split <;> decide

theorem event_needs_body {s : OpenState} {evtid : UInt8} {post : EspErr → OpenState → Prop}
    (holds : wp (withSafe (safeIn rlen)) (parseSwitch cfg buf evtid) post s) (positive : 0 < evtBody cfg evtid) :
    safeIn rlen (.load (buf.add sizeofSipHdr) (evtBody cfg evtid)) s := by
  unfold evtBody at positive ⊢
  by_cases bootup : evtid = sipEvtBootup
  · subst evtid
    rw [if_pos rfl]
    rw [parseSwitch,if_neg (by decide),if_pos rfl,parseBootup] at holds
    simp only [Prog.bind_def,issue_bind,Prog.pure_def] at holds
    have fetched := alone holds {} rfl
    cases raw : s.1.sip.rawbuf with
    | none =>
        simp only [raw] at fetched
        exact wp_safe fetched (still _)
    | some p =>
        simp only [raw] at fetched
        have freed := alone fetched {} rfl
        have cleared := alone freed {} rfl
        exact wp_safe cleared (still _)
  · rw [if_neg bootup] at positive ⊢
    by_cases coex : cfg.wifi = true ∧ evtid = sipEvtCoexState
    · rw [if_pos coex]
      obtain ⟨wifi,rfl⟩ := coex
      rw [parseSwitch,if_neg (by decide),if_neg (by decide),if_pos ⟨wifi,rfl⟩,parseCoexState] at holds
      exact wp_safe holds (still s)
    · rw [if_neg coex] at positive
      cases positive

theorem dispatch_needs {s : OpenState} {post : Unit → OpenState → Prop}
    (holds : wp (withSafe (safeIn rlen)) (dispatch cfg (recvBuf.add o) (hdrAt s.1.mem o)) post s) :
    (takesData cfg (hdrAt s.1.mem o) → o + (hdrAt s.1.mem o).len.toNat ≤ rlen) ∧
    ((hdrAt s.1.mem o).isCtrl → 0 < evtBody cfg (hdrAt s.1.mem o).fc1 →
      sizeofSipHdr + evtBody cfg (hdrAt s.1.mem o).fc1 ≤ (hdrAt s.1.mem o).len.toNat ∧
      o + (sizeofSipHdr + evtBody cfg (hdrAt s.1.mem o).fc1) ≤ rlen) := by
  unfold dispatch dispatchOf at holds
  constructor
  · intro data
    simp only [if_neg (data_not_ctrl data),if_pos data] at holds
    have inside : safeIn rlen (.sipRxProcess (recvBuf.add o) (hdrAt s.1.mem o).len.toUInt32) s := wp_safe holds (still s)
    simpa [safeIn,Inside,recvBuf,UInt16.toNat_toUInt32] using inside
  · intro ctrl positive
    simp only [if_pos ctrl,espSipParseEvents,loadSipHdr,Prog.bind_def,issue_bind,Prog.op_bind,Prog.pure_bind,
      Prog.pure_def] at holds
    have noted := alone holds {} rfl
    have loaded := alone noted {} rfl
    rw [wp_bind] at loaded
    have body : safeIn rlen (.load ((recvBuf.add o).add sizeofSipHdr) (evtBody cfg (hdrAt s.1.mem o).fc1)) s :=
      event_needs_body loaded positive
    obtain ⟨inside,short⟩ := body rfl
    have off : ((recvBuf.add o).add sizeofSipHdr).off = o + sizeofSipHdr := by simp [recvBuf]
    rw [off] at inside
    rw [off,Nat.add_sub_cancel] at short
    exact ⟨short (evtBody_ne cfg _),by omega⟩

theorem loop_needs {w : World} {s : OpenState} {r : UInt32} (total : o + r.toNat = rlen) (positive : 0 < r.toNat)
    (enough : r.toNat ≤ fuel) (heap : recvBuf.blk < w.fresh) (same : Undisturbed w s.1)
    (holds : wp (withSafe (safeIn rlen)) (handleIntr0Loop cfg fuel (recvBuf.add o) r) (fun _ _ => True) s) :
    Fits cfg w.mem w.sip.rxseq o r.toNat := by
  induction fuel generalizing w s o r with
  | zero => exact absurd (Nat.lt_of_lt_of_le positive enough) (by decide)
  | succ fuel ih =>
      have header : hdrAt s.1.mem o = hdrAt w.mem o := by rw [hdrAt,same.read,← hdrAt]
      rw [handleIntr0Loop_eq cfg fuel _ ((toNat_ne_zero r).mpr positive)] at holds
      have inside : safeIn rlen (.load (recvBuf.add o) sizeofSipHdr) s := wp_safe holds (still s)
      have whole : sizeofSipHdr ≤ r.toNat := by
        have := (inside rfl).1
        simp only [recvBuf,Ptr.add_off] at this
        omega
      by_cases taken : accepted (hdrAt w.mem o) w.sip.rxseq
      case neg => exact .rejected whole taken
      have loaded := alone holds {} rfl
      rw [← hdrAt,header,if_neg taken.1] at loaded
      have got := alone loaded {} rfl
      have set := alone got {} rfl
      rw [if_neg (by rw [same.rxseq]; exact Decidable.not_not.mpr taken.2),wp_bind] at set
      change wp _ _ _ (bumped s.1,()) at set
      have same' : Undisturbed (bumped w) (bumped s.1) := ⟨same.buffer,congrArg (· + 1) same.rxseq,same.total,same.fresh⟩
      have again : hdrAt (bumped s.1).mem o = hdrAt w.mem o := header
      rw [← again] at set
      obtain ⟨data,event⟩ := dispatch_needs (s := (bumped s.1,())) set
      rw [again] at set
      change (takesData cfg (hdrAt (bumped s.1).mem o) → _) at data
      change ((hdrAt (bumped s.1).mem o).isCtrl → _) at event
      rw [again] at data event
      have kept : wp (withSafe fun _ _ => True) (dispatch cfg (recvBuf.add o) (hdrAt (bumped w).mem o))
          (fun _ s' => Undisturbed (bumped w) s'.1) (bumped s.1,()) :=
        dispatch_keeps (w := bumped w) (fun _ _ _ => trivial) heap same' (fun _ => trivial) (fun _ _ => trivial)
          (fun _ _ _ _ => trivial) (fun _ _ => trivial)
      obtain ⟨_,s',next,held⟩ := wp_reaches never_stuck (wp_and set kept)
      by_cases below : (hdrAt w.mem o).len.toNat < r.toNat
      · rw [if_pos ((len_lt _ _).mpr below),Ptr.add_add] at next
        have left := len_sub below
        have positive := len_positive taken
        have rest := ih (w := bumped w) (by omega) (by omega) (by omega) heap held next
        rw [left] at rest
        exact .more whole taken below (fun ctrl body => (event ctrl body).1) rest
      · refine .last whole taken (Nat.le_of_not_lt below) (fun takes => ?_) fun ctrl body => ?_
        · have := data takes
          omega
        · have := (event ctrl body).2
          omega

theorem parsed_inside (cfg : Build) {rlen : UInt32} {w : World} (heap : recvBuf.blk < w.fresh)
    (fits : rlen.toNat < sizeofSipHdr ∨ Fits cfg w.mem w.sip.rxseq 0 rlen.toNat) : ParsedInside cfg rlen w := by
  apply (wp_exact (C := withSafe (safeIn rlen.toNat)) fun _ _ => trivial).mp
  unfold handleIntr0Parse
  refine wp_ite (fun _ => trivial) fun whole => ?_
  rcases fits with short | fits
  · exact absurd (header_whole.mp (Decidable.not_not.mp whole)) (Nat.not_le.mpr short)
  · exact loop_inside fits (Nat.zero_add _) (Nat.le_refl _) heap (Undisturbed.refl w)

theorem inside_fits (cfg : Build) {rlen : UInt32} {w : World} (heap : recvBuf.blk < w.fresh)
    (inside : ParsedInside cfg rlen w) : rlen.toNat < sizeofSipHdr ∨ Fits cfg w.mem w.sip.rxseq 0 rlen.toNat := by
  have holds := (wp_exact (C := withSafe (safeIn rlen.toNat)) fun _ _ => trivial).mpr inside
  by_cases whole : rlen ≥ sipCtrlHdrLen
  · right
    unfold handleIntr0Parse at holds
    rw [if_neg (not_not_intro whole)] at holds
    have positive : sizeofSipHdr ≤ rlen.toNat := header_whole.mp whole
    exact loop_needs (Nat.zero_add _) (Nat.lt_of_lt_of_le (by decide) positive) (Nat.le_refl _) heap (Undisturbed.refl w) holds
  · left
    exact Nat.lt_of_not_le fun enough => whole (header_whole.mpr enough)

theorem parsed_inside_iff (cfg : Build) (rlen : UInt32) (w : World) (heap : recvBuf.blk < w.fresh) :
    ParsedInside cfg rlen w ↔ rlen.toNat < sizeofSipHdr ∨ Fits cfg w.mem w.sip.rxseq 0 rlen.toNat :=
  ⟨inside_fits cfg heap,parsed_inside cfg heap⟩

-- Twelve bytes received: one data packet of the given length field.
def oneHeader (len : UInt8) : World :=
  {World.initial espSipInit with mem := (World.initial espSipInit).mem.write recvBuf [1,0,len,0,0,0,0,0,0,0,0,0]}

theorem one_header_inside : recvBuf.blk < (oneHeader 12).fresh ∧ ParsedInside ⟨true,true⟩ 12 (oneHeader 12) := by
  refine ⟨by decide,(parsed_inside_iff ⟨true,true⟩ 12 (oneHeader 12) (by decide)).mpr (.inr ?_)⟩
  exact .last (by decide) (by decide) (by decide) (fun _ => by decide) fun ctrl => absurd ctrl (by decide)

theorem length_field_overruns : ¬ ParsedInside ⟨true,true⟩ 12 (oneHeader 16) := by
  intro inside
  rcases inside_fits ⟨true,true⟩ (by decide) inside with short | fits
  · exact absurd short (by decide)
  · have ends := (fits.step (by decide)).1 (by decide)
    exact absurd ends (by decide)

end ExtConn.ReceiveBounds
