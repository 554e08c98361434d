import ExtConn.ExtBoot
import ExtConn.RegisterWindow
import ExtConn.Sequential
import ExtConn.Transport

namespace ExtConn.ConfiguredLink
open Effects ByteMemory ExtConn.Sequential

-- The registers that are read, changed and written back.
inductive Register where
  | busWidth
  | window (index : UInt8)
  | func1IntEna
  deriving DecidableEq

-- The card as the boot sequence finds and leaves it: its registers, and what
-- became of the calls. A call that fails has no effect on the registers.
structure Card where
  initialised : Bool
  cccr : UInt32 → UInt8
  written : UInt32 → Bool
  window : UInt8 → UInt32
  selected : UInt8
  func1IntEna : UInt32
  enaLost : Bool
  unread : Register → Bool
  derived : Bool

namespace Card

def noteRead (d : Card) (r : Register) (err : EspErr) : Card := {d with unread := Function.update d.unread r (decide (err ≠ .ok))}
def noteWrite (d : Card) (r : Register) : Card := {d with derived := d.derived || d.unread r}

def cardInit (d : Card) (err : EspErr) : Card := if err = .ok then {d with initialised := true} else d

def readByte (d : Card) (addr : UInt32) (err : EspErr) : Card := if addr = sdIoCccrBusWidth then d.noteRead .busWidth err else d

def putByte (d : Card) (addr : UInt32) (value : UInt8) (err : EspErr) : Card :=
  if err = .ok then {d with cccr := Function.update d.cccr addr value,written := Function.update d.written addr true} else d

def writeByte (d : Card) (addr : UInt32) (value : UInt8) (err : EspErr) : Card :=
  if addr = sdIoCccrBusWidth then (d.noteWrite .busWidth).putByte addr value err else d.putByte addr value err

-- The commands of the register window: byte 1 of the first, byte 5 of the second.
def select (d : Card) (bytes : List UInt8) (err : EspErr) : Card :=
  if err = .ok then {d with selected := bytes.getD 0 0} else d.noteRead (.window (bytes.getD 0 0)) err

def setWindow (d : Card) (bytes : List UInt8) (err : EspErr) : Card :=
  let d := d.noteWrite (.window (bytes.getD 4 0))
  if err = .ok ∧ bytes.getD 5 0 = 0xc0 then
    {d with window := Function.update d.window (bytes.getD 4 0) (UInt32.ofNat (leNat (bytes.take 4)))} else d

def setIntEna (d : Card) (bytes : List UInt8) (err : EspErr) : Card :=
  let d := d.noteWrite .func1IntEna
  if err = .ok then {d with func1IntEna := UInt32.ofNat (leNat bytes)} else {d with enaLost := true}

end Card

def card : Slave Card where
  answers _ w o ans d := match o with
    | .sdmmcCardInit => some (d.cardInit ans.err)
    | .sdmmcIoReadByte function addr =>
      if function ≠ 0 then some d
      else if ans.err = .ok ∧ ans.word.toUInt8 ≠ d.cccr addr then none else some (d.readByte addr ans.err)
    | .sdmmcIoWriteByte function addr value => if function ≠ 0 then some d else some (d.writeByte addr value ans.err)
    | .sdmmcIoRead function addr _ _ _ =>
      if function ≠ 1 then some d
      else if addr = espSdioStateW0 then
        if ans.err = .ok ∧ ans.data ≠ le32 (d.window d.selected) then none else some (d.noteRead (.window d.selected) ans.err)
      else if addr = espSdioFunc1IntEna then
        if ans.err = .ok ∧ ans.data ≠ le32 d.func1IntEna then none else some (d.noteRead .func1IntEna ans.err)
      else some d
    | .sdmmcIoWrite function addr _ src size =>
      if function ≠ 1 then some d
      else if addr = espSdioWinCmd then some (d.select (src.get size.toNat w.mem) ans.err)
      else if addr = espSdioConfigW5 then some (d.setWindow (src.get size.toNat w.mem) ans.err)
      else if addr = espSdioFunc1IntEna then some (d.setIntEna (src.get size.toNat w.mem) ans.err)
      else some d
    | _ => some d
  moves d d' := d' = d

abbrev State := World × Card

-- What is due in the block-size registers of functions 1 and 2.
def blockSizes : List (UInt32 × UInt8) := [(0x110,0x00),(0x111,0x02),(0x210,0x00),(0x211,0x02)]

-- Every configuration step has taken effect.
structure Configured (before after : Card) : Prop where
  initialised : after.initialised = true
  functions : after.written sdIoCccrFnEnable = true ∧ after.cccr sdIoCccrFnEnable = 0x06
  interrupts : after.written sdIoCccrIntEnable = true ∧ after.cccr sdIoCccrIntEnable = 0x07
  busWidth : after.written sdIoCccrBusWidth = true ∧ after.cccr sdIoCccrBusWidth = before.cccr sdIoCccrBusWidth ||| cccrBusWidthEcsi
  blocks : ∀ r ∈ blockSizes, after.written r.1 = true ∧ after.cccr r.1 = r.2
  conf1 : after.window 0x18 = before.window 0x18 ||| (slcSlc0RxStitchEn ||| slcSlc0TxStitchEn)
  lenConf : after.window 0x39 = before.window 0x39 ||| slcSlc0TxPacketLoadEn
  func1IntEna : after.func1IntEna = before.func1IntEna ||| slchostFn1GpioSdioIntEna

-- What a boot promises by its result. Nothing is ever written back that comes
-- from a failed read.
structure Promised (before : Card) (ret : Option EspErr) (after : Card) : Prop where
  configured : ret = some .ok → Configured before after
  underived : after.derived = false

-- The calls whose results are ignored have succeeded: one of the card
-- initialisations, the four block-size writes, and the read and the write of
-- the interrupt enable, of which the write may fail if the bit was set already.
structure IgnoredSucceeded (before after : Card) : Prop where
  cardInit : after.initialised = true
  blocks : ∀ r ∈ blockSizes, after.written r.1 = true
  enaRead : after.unread .func1IntEna = false
  enaWritten : after.enaLost = false ∨ before.func1IntEna ||| slchostFn1GpioSdioIntEna = before.func1IntEna

-- Power has just come up: the card is not initialised and nothing has been called.
structure PoweredUp (d : Card) : Prop where
  uninitialised : d.initialised = false
  written : ∀ a, d.written a = false
  unread : ∀ r, d.unread r = false
  derived : d.derived = false
  enaLost : d.enaLost = false

section
variable {t : Task} {w : World} {d : Card}

-- The operations one by one.
theorem readByte_op {addr : UInt32} {next : EspErr × UInt8 → Code α} {post : α → State → Prop}
    (rest : ∀ err value, (err = .ok → value = d.cccr addr) → wp (alone card t) (next (err,value)) post (w,d.readByte addr err)) :
    wp (alone card t) (.op (.sdmmcIoReadByte 0 addr) next) post (w,d) := by
  apply alone_op
  intro ans r w' d' ran answered
  cases ran
  simp only [card,ne_eq,not_true_eq_false,if_false] at answered
  split at answered
  · cases answered
  · rename_i shown
    cases answered
    apply rest
    intro success
    by_contra different
    exact shown ⟨success,different⟩

theorem writeByte_op {addr : UInt32} {value : UInt8} {next : EspErr × UInt8 → Code α} {post : α → State → Prop}
    (rest : ∀ err back, wp (alone card t) (next (err,back)) post (w,d.writeByte addr value err)) :
    wp (alone card t) (.op (.sdmmcIoWriteByte 0 addr value) next) post (w,d) := by
  apply alone_op
  intro ans r w' d' ran answered
  cases ran
  cases answered
  exact rest _ _

theorem readState_op {p : Ptr} {next : EspErr × List UInt8 → Code α} {post : α → State → Prop}
    (rest : ∀ err data, (err = .ok → data = le32 (d.window d.selected)) → wp (alone card t) (next (err,data)) post
      ({w with mem := w.mem.write p data},d.noteRead (.window d.selected) err)) :
    wp (alone card t) (.op (.sdmmcIoRead 1 espSdioStateW0 {increment := true} (.mem p) 4) next) post (w,d) := by
  apply alone_op
  intro ans r w' d' ran answered
  obtain ⟨rfl,rfl,_⟩ := read_exec ran
  simp only [card,ne_eq,not_true_eq_false,if_false,if_true] at answered
  split at answered
  · cases answered
  · rename_i shown
    cases answered
    apply rest
    intro success
    by_contra different
    exact shown ⟨success,different⟩

theorem readEna_op {p : Ptr} {next : EspErr × List UInt8 → Code α} {post : α → State → Prop}
    (rest : ∀ err data, (err = .ok → data = le32 d.func1IntEna) → wp (alone card t) (next (err,data)) post
      ({w with mem := w.mem.write p data},d.noteRead .func1IntEna err)) :
    wp (alone card t) (.op (.sdmmcIoRead 1 espSdioFunc1IntEna {increment := true} (.mem p) 4) next) post (w,d) := by
  apply alone_op
  intro ans r w' d' ran answered
  obtain ⟨rfl,rfl,_⟩ := read_exec ran
  have other : espSdioFunc1IntEna ≠ espSdioStateW0 := by decide
  simp only [card,ne_eq,not_true_eq_false,if_false,if_neg other,if_true] at answered
  split at answered
  · cases answered
  · rename_i shown
    cases answered
    apply rest
    intro success
    by_contra different
    exact shown ⟨success,different⟩

theorem select_op {p : Ptr} {next : EspErr → Code α} {post : α → State → Prop}
    (rest : ∀ err, wp (alone card t) (next err) post (w,d.select (w.mem.read p 4) err)) :
    wp (alone card t) (.op (.sdmmcIoWrite 1 espSdioWinCmd {increment := true} (.mem p) 4) next) post (w,d) := by
  apply alone_op
  intro ans r w' d' ran answered
  cases ran
  cases answered
  exact rest _

theorem setWindow_op {p : Ptr} {next : EspErr → Code α} {post : α → State → Prop}
    (rest : ∀ err, wp (alone card t) (next err) post (w,d.setWindow (w.mem.read p 8) err)) :
    wp (alone card t) (.op (.sdmmcIoWrite 1 espSdioConfigW5 {increment := true} (.mem p) 8) next) post (w,d) := by
  apply alone_op
  intro ans r w' d' ran answered
  cases ran
  cases answered
  exact rest _

theorem setIntEna_op {p : Ptr} {next : EspErr → Code α} {post : α → State → Prop}
    (rest : ∀ err, wp (alone card t) (next err) post (w,d.setIntEna (w.mem.read p 4) err)) :
    wp (alone card t) (.op (.sdmmcIoWrite 1 espSdioFunc1IntEna {increment := true} (.mem p) 4) next) post (w,d) := by
  apply alone_op
  intro ans r w' d' ran answered
  cases ran
  cases answered
  exact rest _

theorem malloc_op {size : UInt32} {next : Option Ptr → Code α} {post : α → State → Prop}
    (refused : wp (alone card t) (next none) post (w,d))
    (granted : wp (alone card t) (next (some ⟨w.fresh,0⟩)) post ((w.alloc size).2,d)) :
    wp (alone card t) (.op (.malloc size) next) post (w,d) := by
  apply alone_op
  intro ans r w' d' ran answered
  cases answered
  simp only [World.exec] at ran
  split at ran
  · cases ran
    exact granted
  · cases ran
    exact refused

end

-- What the block-size calls do to the card: the right bytes go to the four
-- registers, as far as the writes succeed, and nothing else changes.
structure BlocksSet (d d' : Card) : Prop where
  rest : d' = {d with cccr := d'.cccr,written := d'.written}
  others : ∀ a, a ∉ blockSizes.map Prod.fst → d'.cccr a = d.cccr a ∧ d'.written a = d.written a
  right : (∀ r ∈ blockSizes, d.written r.1 = true → d.cccr r.1 = r.2) → ∀ r ∈ blockSizes, d'.written r.1 = true → d'.cccr r.1 = r.2

theorem blocksSet_refl (d : Card) : BlocksSet d d := ⟨rfl,fun _ _ => ⟨rfl,rfl⟩,id⟩

theorem blocksSet_trans {a b c : Card} (one : BlocksSet a b) (two : BlocksSet b c) : BlocksSet a c := by
  refine ⟨?_,fun r outside => ?_,fun right => two.right (one.right right)⟩
  · rw [two.rest,one.rest]
  · have first := one.others r outside
    have second := two.others r outside
    exact ⟨second.1.trans first.1,second.2.trans first.2⟩

def blockCall : Op → Prop
  | .sdmmcIoReadByte function addr => function = 0 ∧ addr ≠ sdIoCccrBusWidth
  | .sdmmcIoWriteByte function addr value => function = 0 ∧ (addr,value) ∈ blockSizes
  | _ => False

theorem size_unique {a : UInt32} {v v' : UInt8} (one : (a,v) ∈ blockSizes) (two : (a,v') ∈ blockSizes) : v = v' := by
  have distinct : (blockSizes.all fun r => blockSizes.all fun r' => decide (r.1 = r'.1 → r.2 = r'.2)) = true := by decide
  exact of_decide_eq_true (List.all_eq_true.mp (List.all_eq_true.mp distinct _ one) _ two) rfl

theorem putByte_blocks {a : UInt32} {v : UInt8} (d : Card) (err : EspErr) (due : (a,v) ∈ blockSizes) :
    BlocksSet d (d.putByte a v err) := by
  unfold Card.putByte
  split
  · refine ⟨rfl,fun b outside => ?_,fun right r member => ?_⟩
    · have other : b ≠ a := fun same => outside (same ▸ List.mem_map_of_mem due)
      exact ⟨Function.update_of_ne other _ _,Function.update_of_ne other _ _⟩
    · by_cases here : r.1 = a
      · intro _
        have same : r.2 = v := size_unique (show (a,r.2) ∈ blockSizes from here ▸ member) due
        simp [here,same]
      · simp only [Function.update_of_ne here]
        exact right r member
  · exact blocksSet_refl d

theorem block_acts {t : Task} {o : Op} {r : o.Answer} {s s' : State} (call : blockCall o) (acted : card.act t o s r s') :
    s'.1 = s.1 ∧ BlocksSet s.2 s'.2 := by
  obtain ⟨w,d⟩ := s
  obtain ⟨w',d'⟩ := s'
  obtain ⟨ans,ran,answered⟩ := act_iff.mp acted
  cases o
  case sdmmcIoReadByte function addr =>
    obtain ⟨rfl,other⟩ := call
    cases ran
    simp only [card,ne_eq,not_true_eq_false,if_false,Card.readByte,if_neg other] at answered
    split at answered
    · cases answered
    · cases answered
      exact ⟨rfl,blocksSet_refl d⟩
  case sdmmcIoWriteByte function addr value =>
    obtain ⟨rfl,due⟩ := call
    cases ran
    have outside : sdIoCccrBusWidth ∉ blockSizes.map Prod.fst := by decide
    have other : addr ≠ sdIoCccrBusWidth := fun here => outside (here ▸ List.mem_map_of_mem due)
    simp only [card,ne_eq,not_true_eq_false,if_false,Card.writeByte,if_neg other] at answered
    cases answered
    exact ⟨rfl,putByte_blocks d ans.err due⟩
  all_goals cases call

theorem setBlockSize_calls {offset : UInt32} (function : offset = 0x100 ∨ offset = 0x200) : (setBlockSize offset).All blockCall := by
  cases function with
  | inl one =>
      subst one
      exact ⟨⟨rfl,by decide⟩,fun _ => ⟨⟨rfl,by decide⟩,fun _ => ⟨⟨rfl,by decide⟩,fun _ => ⟨⟨rfl,by decide⟩,fun _ =>
        ⟨⟨rfl,by decide⟩,fun _ => ⟨⟨rfl,by decide⟩,fun _ => trivial⟩⟩⟩⟩⟩⟩
  | inr two =>
      subst two
      exact ⟨⟨rfl,by decide⟩,fun _ => ⟨⟨rfl,by decide⟩,fun _ => ⟨⟨rfl,by decide⟩,fun _ => ⟨⟨rfl,by decide⟩,fun _ =>
        ⟨⟨rfl,by decide⟩,fun _ => ⟨⟨rfl,by decide⟩,fun _ => trivial⟩⟩⟩⟩⟩⟩

theorem setBlockSize_wp {t : Task} {offset : UInt32} {w : World} {d : Card} {post : Unit → State → Prop}
    (function : offset = 0x100 ∨ offset = 0x200) (rest : ∀ d', BlocksSet d d' → post () (w,d')) :
    wp (alone card t) (setBlockSize offset) post (w,d) := by
  apply wp_all (I := fun s => s.1 = w ∧ BlocksSet d s.2) (setBlockSize_calls function)
  · intro s s' held same
    exact same ▸ held
  · intro o s call held
    refine ⟨trivial,fun r s' acted => ⟨trivial,?_⟩⟩
    obtain ⟨world,set⟩ := block_acts call acted
    exact ⟨world.trans held.1,blocksSet_trans held.2 set⟩
  · exact ⟨rfl,blocksSet_refl d⟩
  · intro _ s held
    obtain ⟨w',d'⟩ := s
    obtain ⟨rfl,set⟩ := held
    exact rest d' set

-- The card behind `esp_extconn_sdio_start`.
structure Started (d d' : Card) : Prop where
  functions : d'.written sdIoCccrFnEnable = true ∧ d'.cccr sdIoCccrFnEnable = 0x06
  interrupts : d'.written sdIoCccrIntEnable = true ∧ d'.cccr sdIoCccrIntEnable = 0x07
  busWidth : d'.written sdIoCccrBusWidth = true ∧ d'.cccr sdIoCccrBusWidth = d.cccr sdIoCccrBusWidth ||| cccrBusWidthEcsi
  blocks : ∀ r ∈ blockSizes, d'.written r.1 = true → d'.cccr r.1 = r.2
  rest : d' = {d with cccr := d'.cccr,written := d'.written,unread := Function.update d.unread .busWidth false}

-- The three control registers once they have been written.
def controlled (d : Card) : Card :=
  let width := d.cccr sdIoCccrBusWidth ||| cccrBusWidthEcsi
  {d with
    cccr := Function.update (Function.update (Function.update d.cccr sdIoCccrFnEnable 0x06) sdIoCccrIntEnable 0x07) sdIoCccrBusWidth width
    written := Function.update (Function.update (Function.update d.written sdIoCccrFnEnable true) sdIoCccrIntEnable true) sdIoCccrBusWidth true
    unread := Function.update d.unread .busWidth false}

theorem controlled_eq (d : Card) :
    ((((d.writeByte sdIoCccrFnEnable 0x06 .ok).writeByte sdIoCccrIntEnable 0x07 .ok).readByte sdIoCccrBusWidth .ok).writeByte
      sdIoCccrBusWidth (d.cccr sdIoCccrBusWidth ||| cccrBusWidthEcsi) .ok) = controlled d := by
  have one : sdIoCccrFnEnable ≠ sdIoCccrBusWidth := by decide
  have two : sdIoCccrIntEnable ≠ sdIoCccrBusWidth := by decide
  simp [Card.writeByte,Card.readByte,Card.putByte,Card.noteRead,Card.noteWrite,controlled,one,two]

theorem controlled_started {d d₁ d' : Card} (unwritten : ∀ r ∈ blockSizes, d.written r.1 = false)
    (one : BlocksSet (controlled d) d₁) (two : BlocksSet d₁ d') : Started d d' := by
  have both := blocksSet_trans one two
  have functions := both.others sdIoCccrFnEnable (by decide)
  have interrupts := both.others sdIoCccrIntEnable (by decide)
  have busWidth := both.others sdIoCccrBusWidth (by decide)
  have start : ∀ r ∈ blockSizes, (controlled d).written r.1 = false := by
    intro r member
    have apart : (blockSizes.all fun r => decide (r.1 ≠ sdIoCccrFnEnable ∧ r.1 ≠ sdIoCccrIntEnable ∧ r.1 ≠ sdIoCccrBusWidth)) = true := by decide
    obtain ⟨first,second,third⟩ := of_decide_eq_true (List.all_eq_true.mp apart r member)
    simp only [controlled,Function.update_of_ne first,Function.update_of_ne second,Function.update_of_ne third]
    exact unwritten r member
  constructor
  · exact ⟨functions.2.trans rfl,functions.1.trans rfl⟩
  · exact ⟨interrupts.2.trans rfl,interrupts.1.trans rfl⟩
  · exact ⟨busWidth.2.trans rfl,busWidth.1.trans rfl⟩
  · intro r member
    apply both.right
    intro r member set
    rw [start r member] at set
    cases set
    exact member
  · rw [both.rest]
    rfl

-- A result that is checked: the caller returns at once, or goes on.
theorem checked_wp {t : Task} {s : State} {err : EspErr} {value : α} {p : Code α} {post : α → State → Prop}
    (failed : err ≠ .ok → post value s) (rest : err = .ok → wp (alone card t) p post s) :
    wp (alone card t) (if err ≠ .ok then .pure value else p) post s := by
  by_cases success : err = .ok
  · rw [if_neg (not_not_intro success)]
    exact rest success
  · rw [if_pos success]
    exact failed success

@[simp] theorem putByte_derived (d : Card) (addr : UInt32) (value : UInt8) (err : EspErr) : (d.putByte addr value err).derived = d.derived := by
  unfold Card.putByte
  split
  · rfl
  · rfl

theorem writeByte_derived (d : Card) {addr : UInt32} (value : UInt8) (err : EspErr) (other : addr ≠ sdIoCccrBusWidth) :
    (d.writeByte addr value err).derived = d.derived := by
  rw [Card.writeByte,if_neg other,putByte_derived]

theorem widthBack_derived (d : Card) (value : UInt8) (err : EspErr) :
    ((d.readByte sdIoCccrBusWidth .ok).writeByte sdIoCccrBusWidth value err).derived = d.derived := by
  rw [Card.writeByte,if_pos rfl,putByte_derived]
  simp [Card.readByte,Card.noteRead,Card.noteWrite]

theorem configure_wp {t : Task} {w : World} {d : Card} {post : EspErr → State → Prop} (unwritten : ∀ r ∈ blockSizes, d.written r.1 = false)
    (failed : ∀ err s, err ≠ .ok → s.2.derived = d.derived → post err s) (rest : ∀ d', Started d d' → post .ok (w,d')) :
    wp (alone card t) sdioStartConfigure post (w,d) := by
  unfold sdioStartConfigure
  simp only [Prog.bind_def,issue_bind,Prog.pure_def]
  have other₁ : sdIoCccrFnEnable ≠ sdIoCccrBusWidth := by decide
  have other₂ : sdIoCccrIntEnable ≠ sdIoCccrBusWidth := by decide
  apply writeByte_op
  intro err₁ _
  have kept₁ := writeByte_derived d 0x06 err₁ other₁
  apply checked_wp (fun wrong => failed err₁ _ wrong kept₁)
  intro ok₁
  apply writeByte_op
  intro err₂ _
  have kept₂ := (writeByte_derived _ 0x07 err₂ other₂).trans kept₁
  apply checked_wp (fun wrong => failed err₂ _ wrong kept₂)
  intro ok₂
  apply readByte_op
  intro err₃ value shown
  apply checked_wp (fun wrong => failed err₃ _ wrong kept₂)
  intro ok₃
  apply writeByte_op
  intro err₄ _
  apply checked_wp
  · intro wrong
    apply failed err₄ _ wrong
    rw [ok₃]
    exact (widthBack_derived _ _ err₄).trans kept₂
  intro (ok₄ : err₄ = .ok)
  have width := shown ok₃
  rw [ok₁,ok₂,ok₃,ok₄,width]
  rw [wp_bind]
  have sizes : ∀ d', d' = controlled d → wp (alone card t) (setBlockSize 0x100)
      (fun _ => wp (alone card t) ((setBlockSize 0x200).bind fun _ => .pure .ok) post) (w,d') := by
    intro d' same
    apply setBlockSize_wp (.inl rfl)
    intro d₁ one
    rw [wp_bind]
    apply setBlockSize_wp (.inr rfl)
    intro d₂ two
    exact rest d₂ (controlled_started unwritten (same ▸ one) two)
  apply sizes
  rw [ok₁,ok₂]
  exact controlled_eq d

theorem goIdleLoop_wp {t : Task} {s : State} {post : Option EspErr → State → Prop} (retries : Nat) (rest : ∀ result, post result s) :
    wp (alone card t) (goIdleLoop retries) post s := by
  induction retries with
  | zero => exact rest none
  | succ retries ih =>
      obtain ⟨w,d⟩ := s
      unfold goIdleLoop
      simp only [Prog.bind_def,issue_bind,Prog.pure_def]
      apply alone_op
      intro ans err w' d' ran answered
      cases ran
      cases answered
      apply wp_ite
      · intro _
        apply alone_exec (fun _ => rfl) (fun _ => rfl)
        exact ih
      · intro _
        exact rest _

theorem start_wp {t : Task} {w : World} {d : Card} {retries : Nat} {post : Option EspErr → State → Prop}
    (unwritten : ∀ r ∈ blockSizes, d.written r.1 = false)
    (failed : ∀ result s, result ≠ some .ok → s.2.derived = d.derived → post result s)
    (rest : ∀ d', Started d d' → post (some .ok) (w,d')) : wp (alone card t) (espExtconnSdioStart retries) post (w,d) := by
  unfold espExtconnSdioStart
  simp only [Prog.bind_def,Prog.pure_def,wp_bind]
  apply goIdleLoop_wp
  intro result
  cases result with
  | none => exact failed none _ (fun same => by cases same) rfl
  | some err =>
      apply checked_wp
      · intro wrong
        exact failed _ _ (fun same => wrong (Option.some.inj same)) rfl
      · intro _
        rw [wp_bind]
        apply configure_wp unwritten
        · intro err s wrong kept
          exact failed _ _ (fun same => wrong (Option.some.inj same)) kept
        · exact rest

-- The messages the host builds in its buffer.
theorem selection_bytes (m : Mem) (p : Ptr) (index : UInt8) :
    (((m.write p [index]).write (p.add 1) [0x80]).read p 4).getD 0 0 = index := by
  have before : ¬ p.off + 1 ≤ p.off := by omega
  rw [List.getD_eq_getElem?_getD,read_get _ _ (by decide)]
  simp [Mem.write,before]

structure Setting (index : UInt8) (bytes message : List UInt8) : Prop where
  index : message.getD 4 0 = index
  command : message.getD 5 0 = 0xc0
  word : message.take 4 = bytes

theorem setting_message (m : Mem) (p : Ptr) (index : UInt8) {bytes : List UInt8} (four : bytes.length = 4) :
    Setting index bytes ((((m.write p bytes).write (p.add 4) [index]).write (p.add 5) [0xc0]).read p 8) := by
  have between : ¬ p.off + 5 ≤ p.off + 4 := by omega
  constructor
  · rw [List.getD_eq_getElem?_getD,read_get _ _ (by decide)]
    simp [Mem.write,between]
  · rw [List.getD_eq_getElem?_getD,read_get _ _ (by decide)]
    simp [Mem.write]
  · rw [read_take _ _ (by decide),read_write_other,read_write_other]
    · exact read_back m p _ four
    · exact .inr (.inl (Nat.le_refl _))
    · exact .inr (.inl (Nat.le_succ _))

structure WindowRead (value : Ptr) (index : UInt8) (s s' : State) : Prop where
  card : s'.2 = {s.2 with selected := index,unread := Function.update s.2.unread (.window index) false}
  word : s'.1.mem.read value 4 = le32 (s.2.window index)
  fresh : s.1.fresh ≤ s'.1.fresh

structure WindowWritten (value : Ptr) (index : UInt8) (word : UInt32) (s s' : State) : Prop where
  card : s'.2 = {s.2 with window := Function.update s.2.window index word,derived := s.2.derived || s.2.unread (.window index)}
  same : s'.1.mem.read value 4 = s.1.mem.read value 4
  fresh : s.1.fresh ≤ s'.1.fresh

theorem selected_by (d : Card) (m : Mem) (p : Ptr) (index : UInt8) :
    d.select (((m.write p [index]).write (p.add 1) [0x80]).read p 4) .ok = {d with selected := index} := by
  rw [Card.select,if_pos rfl,selection_bytes]

theorem set_by (d : Card) (m : Mem) (p : Ptr) (index : UInt8) (word : UInt32) :
    d.setWindow ((((m.write p (le32 word)).write (p.add 4) [index]).write (p.add 5) [0xc0]).read p 8) .ok =
      {d with window := Function.update d.window index word,derived := d.derived || d.unread (.window index)} := by
  have message := setting_message m p index (le32_length word)
  simp only [Card.setWindow,message.index,message.command,message.word,ofNat_le32,and_self,if_true,Card.noteWrite]

theorem select_derived (d : Card) (bytes : List UInt8) (err : EspErr) : (d.select bytes err).derived = d.derived := by
  unfold Card.select
  split
  · rfl
  · rfl

theorem readRegWindow_wp {t : Task} {s : State} {regAddr : UInt32} {value : Ptr} {post : EspErr → State → Prop}
    (inside : regAddr >>> 2 ≤ 0x7f) (failed : ∀ err s', err ≠ .ok → s'.2.derived = s.2.derived → post err s')
    (rest : ∀ s', WindowRead value (indexOf regAddr) s s' → post .ok s') :
    wp (alone card t) (espExtconnSdioReadRegWindow regAddr value) post s := by
  obtain ⟨w,d⟩ := s
  rw [readRegWindow_eq value inside]
  apply malloc_op
  · exact failed _ _ (by decide) rfl
  · apply alone_exec (fun _ => rfl) (fun _ => rfl)
    apply alone_exec (fun _ => rfl) (fun _ => rfl)
    apply select_op
    intro ret
    apply wp_ite
    · intro success
      rw [success,selected_by]
      apply readState_op
      intro err data shown
      apply wp_ite
      · intro read
        obtain rfl : err = .ok := read
        obtain rfl := shown rfl
        apply alone_exec (fun _ => rfl) (fun _ => rfl)
        apply alone_exec (fun _ => rfl) (fun _ => rfl)
        apply alone_exec (fun _ => rfl) (fun _ => rfl)
        apply rest
        constructor
        · rfl
        · rw [read_back _ _ _ (read_length _ _ _)]
          exact read_back _ _ _ (le32_length _)
        · exact Nat.le_succ _
      · intro wrong
        apply alone_exec (fun _ => rfl) (fun _ => rfl)
        exact failed _ _ wrong rfl
    · intro wrong
      apply alone_exec (fun _ => rfl) (fun _ => rfl)
      exact failed _ _ wrong (select_derived _ _ _)

theorem writeRegWindow_wp {t : Task} {s : State} {regAddr word : UInt32} {value : Ptr} {post : EspErr → State → Prop}
    (inside : regAddr >>> 2 ≤ 0x7f) (holds : s.1.mem.read value 4 = le32 word) (below : value.blk < s.1.fresh)
    (read : s.2.unread (.window (indexOf regAddr)) = false) (failed : ∀ err s', err ≠ .ok → s'.2.derived = s.2.derived → post err s')
    (rest : ∀ s', WindowWritten value (indexOf regAddr) word s s' → post .ok s') :
    wp (alone card t) (espExtconnSdioWriteRegWindow regAddr value) post s := by
  obtain ⟨w,d⟩ := s
  rw [writeRegWindow_eq value inside]
  apply malloc_op
  · exact failed _ _ (by decide) rfl
  · apply alone_exec (fun _ => rfl) (fun _ => rfl)
    apply alone_exec (fun _ => rfl) (fun _ => rfl)
    apply alone_exec (fun _ => rfl) (fun _ => rfl)
    apply alone_exec (fun _ => rfl) (fun _ => rfl)
    apply setWindow_op
    intro ret
    apply alone_exec (fun _ => rfl) (fun _ => rfl)
    have bytes : (w.alloc 4).2.mem.read value 4 = le32 word := holds
    have underived : (d.derived || d.unread (.window (indexOf regAddr))) = d.derived := by
      rw [show d.unread _ = false from read,Bool.or_false]
    rw [bytes]
    by_cases success : ret = .ok
    · rw [success,set_by]
      apply rest
      have apart : ∀ n, value.blk ≠ (Ptr.add ⟨w.fresh,0⟩ n).blk := fun _ => Nat.ne_of_lt below
      constructor
      · rfl
      · exact (read_write_other _ _ _ _ (.inl (apart 5))).trans
          ((read_write_other _ _ _ _ (.inl (apart 4))).trans (read_write_other _ _ _ _ (.inl (apart 0))))
      · exact Nat.le_succ _
    · apply failed _ _ success
      rw [Card.setWindow,(setting_message _ _ _ (le32_length word)).index,if_neg (fun both => success both.1)]
      exact underived

theorem orInto_wp {t : Task} {w : World} {d : Card} {p : Ptr} {word bits : UInt32} {post : Unit → State → Prop}
    (holds : w.mem.read p 4 = le32 word)
    (rest : ∀ w', w'.mem.read p 4 = le32 (word ||| bits) → w'.fresh = w.fresh → post () (w',d)) :
    wp (alone card t) (orInto p bits) post (w,d) := by
  unfold orInto load32
  simp only [Prog.bind_def,issue_bind,Prog.op_bind,Prog.pure_def,Prog.pure_bind]
  apply alone_exec (fun _ => rfl) (fun _ => rfl)
  apply alone_exec (fun _ => rfl) (fun _ => rfl)
  apply rest
  · rw [holds,ofNat_le32]
    exact read_back _ _ _ (le32_length _)
  · rfl

-- A register of the window with bits added to what was read of it.
structure BitsSet (value : Ptr) (index : UInt8) (bits : UInt32) (s s' : State) : Prop where
  card : s'.2 = {s.2 with
    window := Function.update s.2.window index (s.2.window index ||| bits)
    selected := index
    unread := Function.update s.2.unread (.window index) false}
  fresh : s.1.fresh ≤ s'.1.fresh

theorem setWindowBits_wp {t : Task} {s : State} {regAddr bits : UInt32} {value : Ptr} {post : EspErr → State → Prop}
    (inside : regAddr >>> 2 ≤ 0x7f) (holds : s.1.mem.read value 4 = le32 (s.2.window (indexOf regAddr)))
    (below : value.blk < s.1.fresh) (read : s.2.unread (.window (indexOf regAddr)) = false)
    (failed : ∀ err s', err ≠ .ok → s'.2.derived = s.2.derived → post err s')
    (rest : ∀ s', BitsSet value (indexOf regAddr) bits s s' → post .ok s') :
    wp (alone card t) (setWindowBits regAddr value bits) post s := by
  obtain ⟨w,d⟩ := s
  unfold setWindowBits
  simp only [Prog.bind_def,Prog.pure_def,wp_bind]
  apply orInto_wp holds
  intro w₁ word₁ fresh₁
  have below₁ : value.blk < w₁.fresh := fresh₁ ▸ below
  rw [wp_bind]
  have read₁ : d.unread (.window (indexOf regAddr)) = false := read
  apply writeRegWindow_wp inside word₁ below₁ read₁
  · intro err s wrong kept
    exact checked_wp (fun _ => failed _ _ (by decide) kept) (fun success => absurd success wrong)
  · intro s₂ written
    have kept₂ : s₂.2.derived = d.derived := by
      rw [written.card]
      simp only [show d.unread _ = false from read,Bool.or_false]
    apply checked_wp (fun wrong => absurd rfl wrong)
    intro _
    rw [wp_bind]
    apply readRegWindow_wp inside
    · intro err s wrong kept
      exact checked_wp (fun _ => failed _ _ (by decide) (kept.trans kept₂)) (fun success => absurd success wrong)
    · intro s₃ back
      apply checked_wp (fun wrong => absurd rfl wrong)
      intro _
      apply rest
      constructor
      · have underived : (d.derived || d.unread (.window (indexOf regAddr))) = d.derived := by
          rw [show d.unread _ = false from read,Bool.or_false]
        rw [back.card,written.card]
        simp only [underived]
      · have first : w.fresh ≤ s₂.1.fresh := fresh₁ ▸ written.fresh
        exact Nat.le_trans first back.fresh

-- The interrupt enable of function 1, behind a read and a write whose results
-- are ignored.
structure EnaSet (d d' : Card) : Prop where
  rest : d' = {d with func1IntEna := d'.func1IntEna,enaLost := d'.enaLost,unread := d'.unread,derived := d'.derived}
  derived : d'.derived = (d.derived || d'.unread .func1IntEna)
  taken : d'.unread .func1IntEna = false → d'.enaLost = false → d'.func1IntEna = d.func1IntEna ||| slchostFn1GpioSdioIntEna
  lost : d'.enaLost = true → d'.func1IntEna = d.func1IntEna

theorem enaSet_ok {d : Card} {err err' : EspErr} {bytes : List UInt8} (clear : d.enaLost = false)
    (shown : err = .ok → bytes = le32 (d.func1IntEna ||| slchostFn1GpioSdioIntEna)) :
    EnaSet d ((d.noteRead .func1IntEna err).setIntEna bytes err') := by
  by_cases taken : err' = .ok
  · constructor
    · simp only [Card.setIntEna,Card.noteWrite,Card.noteRead,if_pos taken]
    · simp only [Card.setIntEna,Card.noteWrite,Card.noteRead,if_pos taken]
    · intro read _
      simp only [Card.setIntEna,Card.noteWrite,Card.noteRead,if_pos taken,Function.update_self,decide_eq_false_iff_not,
        ne_eq,not_not] at read ⊢
      rw [shown read,ofNat_le32]
    · intro lost
      simp only [Card.setIntEna,Card.noteWrite,Card.noteRead,if_pos taken,clear,Bool.false_eq_true] at lost
  · constructor
    · simp only [Card.setIntEna,Card.noteWrite,Card.noteRead,if_neg taken]
    · simp only [Card.setIntEna,Card.noteWrite,Card.noteRead,if_neg taken]
    · intro _ kept
      simp only [Card.setIntEna,Card.noteWrite,Card.noteRead,if_neg taken,Bool.true_eq_false] at kept
    · intro _
      simp only [Card.setIntEna,Card.noteWrite,Card.noteRead,if_neg taken]

theorem enableTargetInterrupt_wp {t : Task} {s : State} {tbuf : Ptr} {post : EspErr → State → Prop} (clear : s.2.enaLost = false)
    (failed : ∀ err s', err ≠ .ok → s'.2.derived = s.2.derived → post err s') (rest : ∀ s', EnaSet s.2 s'.2 → post .ok s') :
    wp (alone card t) (enableTargetInterrupt tbuf) post s := by
  obtain ⟨w,d⟩ := s
  rw [enableTargetInterrupt_eq]
  apply malloc_op
  · exact failed _ _ (by decide) rfl
  · apply readEna_op
    intro err data shown
    apply alone_exec (fun _ => rfl) (fun _ => rfl)
    apply alone_exec (fun _ => rfl) (fun _ => rfl)
    apply setIntEna_op
    intro err'
    apply alone_exec (fun _ => rfl) (fun _ => rfl)
    apply alone_exec (fun _ => rfl) (fun _ => rfl)
    apply rest
    apply enaSet_ok clear
    intro success
    rw [shown success]
    dsimp only
    rw [read_back _ _ _ (le32_length _),read_back _ _ _ (le32_length _),ofNat_le32]

-- The card behind `esp_extconn_sdio_init_slave_link`.
structure Linked (d d' : Card) : Prop where
  window : d'.window = Function.update (Function.update d.window 0x18 (d.window 0x18 ||| (slcSlc0RxStitchEn ||| slcSlc0TxStitchEn)))
    0x39 (d.window 0x39 ||| slcSlc0TxPacketLoadEn)
  cards : d'.initialised = d.initialised ∧ d'.cccr = d.cccr ∧ d'.written = d.written
  derived : d'.derived = (d.derived || d'.unread .func1IntEna)
  taken : d'.unread .func1IntEna = false → d'.enaLost = false → d'.func1IntEna = d.func1IntEna ||| slchostFn1GpioSdioIntEna
  lost : d'.enaLost = true → d'.func1IntEna = d.func1IntEna

-- A register of the window read, changed and read back, at the head of a program.
theorem register_wp {t : Task} {s : State} {regAddr bits : UInt32} {value : Ptr} {f : EspErr → EspErr} {p : Code EspErr}
    {post : EspErr → State → Prop} (inside : regAddr >>> 2 ≤ 0x7f) (below : value.blk < s.1.fresh)
    (refused : ∀ err, err ≠ .ok → f err ≠ .ok) (failed : ∀ err s', err ≠ .ok → s'.2.derived = s.2.derived → post err s')
    (rest : ∀ s', BitsSet value (indexOf regAddr) bits s s' → wp (alone card t) p post s') :
    wp (alone card t) ((espExtconnSdioReadRegWindow regAddr value).bind fun err => if err ≠ .ok then .pure (f err) else
      (setWindowBits regAddr value bits).bind fun err => if err ≠ .ok then .pure err else p) post s := by
  rw [wp_bind]
  apply readRegWindow_wp inside
  · intro err s wrong kept
    exact checked_wp (fun _ => failed _ _ (refused err wrong) kept) (fun success => absurd success wrong)
  · intro s₁ first
    have kept₁ : s₁.2.derived = s.2.derived := by rw [first.card]
    apply checked_wp (fun wrong => absurd rfl wrong)
    intro _
    rw [wp_bind]
    have held : s₁.1.mem.read value 4 = le32 (s₁.2.window (indexOf regAddr)) := by
      rw [first.card]
      exact first.word
    have read : s₁.2.unread (.window (indexOf regAddr)) = false := by
      rw [first.card]
      exact Function.update_self (Register.window (indexOf regAddr)) false s.2.unread
    apply setWindowBits_wp inside held (Nat.lt_of_lt_of_le below first.fresh) read
    · intro err s wrong kept
      exact checked_wp (fun wrong => failed _ _ wrong (kept.trans kept₁)) (fun success => absurd success wrong)
    · intro s₂ set
      apply checked_wp (fun wrong => absurd rfl wrong)
      intro _
      apply rest
      constructor
      · rw [set.card,first.card]
        simp only [Function.update_idem]
      · exact Nat.le_trans first.fresh set.fresh

theorem linked_by {s s₁ s₂ s₃ : State} {value : Ptr}
    (conf1 : BitsSet value 0x18 (slcSlc0RxStitchEn ||| slcSlc0TxStitchEn) s s₁)
    (lenConf : BitsSet value 0x39 slcSlc0TxPacketLoadEn s₁ s₂) (ena : EnaSet s₂.2 s₃.2) : Linked s.2 s₃.2 := by
  have apart : (0x39 : UInt8) ≠ 0x18 := by decide
  have before : s₂.2.func1IntEna = s.2.func1IntEna := by rw [lenConf.card,conf1.card]
  constructor
  · rw [ena.rest,lenConf.card,conf1.card]
    simp only [Function.update_of_ne apart]
  · rw [ena.rest,lenConf.card,conf1.card]
    exact ⟨rfl,rfl,rfl⟩
  · rw [ena.derived,lenConf.card,conf1.card]
  · intro read kept
    rw [ena.taken read kept,before]
  · intro lost
    rw [ena.lost lost,before]

theorem initSlaveLink_wp {t : Task} {s : State} {post : EspErr → State → Prop} (clear : s.2.enaLost = false)
    (failed : ∀ err s', err ≠ .ok → s'.2.derived = s.2.derived → post err s') (rest : ∀ s', Linked s.2 s'.2 → post .ok s') :
    wp (alone card t) espExtconnSdioInitSlaveLink post s := by
  obtain ⟨w,d⟩ := s
  have one : indexOf espSlcConf1Reg = 0x18 := by decide
  have two : indexOf espSlc0LenConfReg = 0x39 := by decide
  unfold espExtconnSdioInitSlaveLink
  simp only [Prog.bind_def,issue_bind,Prog.pure_def]
  apply malloc_op
  · exact failed _ _ (by decide) rfl
  · have below : w.fresh < (w.alloc 4).2.fresh := Nat.lt_succ_self _
    have failed₀ : ∀ err s', err ≠ .ok → s'.2.derived = d.derived → post err s' := failed
    apply register_wp (f := id) (by decide) below (fun _ => id) failed₀
    intro s₁ conf1
    have kept₁ : s₁.2.derived = d.derived := by rw [conf1.card]
    have failed₁ : ∀ err s', err ≠ .ok → s'.2.derived = s₁.2.derived → post err s' := fun err s' wrong kept =>
      failed₀ err s' wrong (kept.trans kept₁)
    apply register_wp (f := fun _ => .fail) (by decide) (Nat.lt_of_lt_of_le below conf1.fresh) (fun _ _ => by decide) failed₁
    intro s₂ lenConf
    have kept₂ : s₂.2.derived = s₁.2.derived := by rw [lenConf.card]
    have kept : s₂.2.enaLost = false := by
      rw [lenConf.card,conf1.card]
      exact clear
    apply enableTargetInterrupt_wp kept (fun err s' wrong same => failed₁ err s' wrong (same.trans kept₂))
    intro s₃ ena
    apply rest
    rw [one] at conf1
    rw [two] at lenConf
    have linked := linked_by conf1 lenConf ena
    exact linked

theorem sdmmcCardInitLoop_wp {t : Task} {w : World} {d : Card} {post : Unit → State → Prop} (attempts : Nat) (none : post () (w,d))
    (one : post () (w,{d with initialised := true})) : wp (alone card t) (sdmmcCardInitLoop attempts) post (w,d) := by
  induction attempts with
  | zero => exact none
  | succ attempts ih =>
      unfold sdmmcCardInitLoop
      simp only [Prog.bind_def,issue_bind,Prog.pure_def]
      apply alone_op
      intro ans err w' d' ran answered
      cases ran
      cases answered
      apply wp_ite
      · intro success
        rw [Card.cardInit,if_pos success]
        exact one
      · intro wrong
        apply alone_exec (fun _ => rfl) (fun _ => rfl)
        rw [Card.cardInit,if_neg wrong]
        exact ih

-- The result of a driver call on which nothing else depends.
theorem result_op {t : Task} {o : Op} {next : o.Answer → Code α} {w : World} {d : Card} {post : α → State → Prop}
    (ignored : ∀ ans, card.answers t w o ans d = some d) (still : ∀ ans r w', World.exec t o ans w = some (r,w') → w' = w)
    (rest : ∀ r, wp (alone card t) (next r) post (w,d)) : wp (alone card t) (.op o next) post (w,d) := by
  apply alone_op
  intro ans r w' d' ran answered
  obtain rfl := still _ _ _ ran
  cases (ignored ans).symm.trans answered
  exact rest r

theorem sdmmcInit_wp {t : Task} {w : World} {d : Card} {size : UInt32} {post : Option (Option Ptr) → State → Prop}
    (stopped : ∀ result s, result = none ∨ result = some none → s.2.derived = d.derived → post result s)
    (rest : ∀ p w' d', d' = d ∨ d' = {d with initialised := true} → post (some (some p)) (w',d')) :
    wp (alone card t) (sdmmcInit size) post (w,d) := by
  unfold sdmmcInit
  simp only [Prog.bind_def,issue_bind,Prog.pure_def]
  apply result_op (fun _ => rfl) (fun _ _ _ ran => by cases ran; rfl)
  intro ldo
  apply checked_wp (fun _ => stopped _ _ (.inr rfl) rfl)
  intro _
  apply result_op (fun _ => rfl) (fun _ _ _ ran => by cases ran; rfl)
  intro init
  apply checked_wp (fun _ => stopped _ _ (.inl rfl) rfl)
  intro _
  apply result_op (fun _ => rfl) (fun _ _ _ ran => by cases ran; rfl)
  intro slot
  apply checked_wp (fun _ => stopped _ _ (.inl rfl) rfl)
  intro _
  apply alone_op
  intro ans p w' d' _ answered
  cases answered
  cases p with
  | none => exact stopped _ _ (.inr rfl) rfl
  | some p =>
      dsimp only
      rw [wp_bind]
      apply sdmmcCardInitLoop_wp
      · exact rest p w' d (.inl rfl)
      · exact rest p w' _ (.inr rfl)

-- The card behind a boot that reports success.
def Booted (d d' : Card) : Prop :=
  ∃ d₀ d₁, (d₀ = d ∨ d₀ = {d with initialised := true}) ∧ Started d₀ d₁ ∧ Linked d₁ d'

-- How a boot can end.
structure BootEnd (d : Card) (ret : Option EspErr) (d' : Card) : Prop where
  booted : ret = some .ok → Booted d d'
  failed : ret ≠ some .ok → d'.derived = d.derived

theorem bootEnd_failed {d d' : Card} {ret : Option EspErr} (failed : ret ≠ some .ok) (kept : d'.derived = d.derived) :
    BootEnd d ret d' := ⟨fun success => absurd success failed,fun _ => kept⟩

theorem sdioInit_wp {t : Task} {w : World} {d d₀ : Card} {initialised : Bool} {retries : Nat} (powered : PoweredUp d)
    (init : d₀ = d ∨ d₀ = {d with initialised := true}) :
    wp (alone card t) (espExtconnSdioInit initialised retries) (fun ret s => BootEnd d ret s.2) (w,d₀) := by
  have unwritten : ∀ r ∈ blockSizes, d₀.written r.1 = false := by
    intro r _
    cases init with
    | inl same => exact same ▸ powered.written r.1
    | inr same => exact same ▸ powered.written r.1
  have clear : d₀.enaLost = false := by
    cases init with
    | inl same => exact same ▸ powered.enaLost
    | inr same => exact same ▸ powered.enaLost
  have kept : d₀.derived = d.derived := by
    cases init with
    | inl same => rw [same]
    | inr same => rw [same]
  unfold espExtconnSdioInit
  simp only [Prog.bind_def,issue_bind,Prog.pure_def]
  apply wp_ite
  · intro _
    exact bootEnd_failed nofun kept
  · intro _
    apply alone_op
    intro ans p w' d' _ answered
    cases answered
    cases p with
    | none => exact bootEnd_failed nofun kept
    | some p =>
        dsimp only
        rw [wp_bind]
        apply start_wp unwritten
        · intro result s wrong same
          cases result with
          | none => exact bootEnd_failed wrong (same.trans kept)
          | some err =>
              apply checked_wp (fun _ => bootEnd_failed wrong (same.trans kept))
              intro success
              exact absurd (congrArg some success) wrong
        · intro d₁ started
          apply checked_wp (fun wrong => absurd rfl wrong)
          intro _
          rw [wp_bind]
          have kept₁ : d₁.derived = d.derived := by
            rw [started.rest]
            exact kept
          apply initSlaveLink_wp
          · rw [started.rest]
            exact clear
          · intro err s wrong same
            exact bootEnd_failed (fun success => wrong (Option.some.inj success)) (same.trans kept₁)
          · intro s' linked
            exact ⟨fun _ => ⟨d₀,d₁,init,started,linked⟩,fun wrong => absurd rfl wrong⟩

theorem boot_wp {t : Task} {w : World} {d : Card} {size : UInt32} {initialised : Bool} {retries : Nat} (powered : PoweredUp d) :
    wp (alone card t) (espExtconnBoot size initialised retries) (fun ret s => BootEnd d ret s.2) (w,d) := by
  unfold espExtconnBoot
  simp only [Prog.bind_def,issue_bind,Prog.pure_def]
  apply alone_exec (fun _ => rfl) (fun _ => rfl)
  apply alone_exec (fun _ => rfl) (fun _ => rfl)
  rw [wp_bind]
  apply sdmmcInit_wp
  · intro result s stopped kept
    cases stopped with
    | inl aborted =>
        rw [aborted]
        exact bootEnd_failed nofun kept
    | inr refused =>
        rw [refused]
        exact wp_ite (fun card => absurd rfl card) (fun _ => bootEnd_failed nofun kept)
  · intro p w' d₀ init
    apply wp_ite
    · intro _
      exact sdioInit_wp powered init
    · intro missing
      exact absurd nofun missing

theorem booted_iff {d d' : Card} (powered : PoweredUp d) (booted : Booted d d') : Promised d (some .ok) d' ↔ IgnoredSucceeded d d' := by
  obtain ⟨d₀,d₁,init,started,linked⟩ := booted
  obtain ⟨cards,cccr,written⟩ := linked.cards
  have same : d₀.cccr = d.cccr ∧ d₀.window = d.window ∧ d₀.func1IntEna = d.func1IntEna ∧ d₀.derived = d.derived := by
    cases init with
    | inl same => rw [same]; exact ⟨rfl,rfl,rfl,rfl⟩
    | inr same => rw [same]; exact ⟨rfl,rfl,rfl,rfl⟩
  have before : d₁.window = d.window ∧ d₁.func1IntEna = d.func1IntEna ∧ d₁.derived = false := by
    rw [started.rest]
    exact ⟨same.2.1,same.2.2.1,same.2.2.2.trans powered.derived⟩
  constructor
  · intro promised
    have configured := promised.configured rfl
    constructor
    · exact configured.initialised
    · intro r member
      exact (configured.blocks r member).1
    · have underived := linked.derived.symm.trans promised.underived
      rw [before.2.2,Bool.false_or] at underived
      exact underived
    · cases lost : d'.enaLost with
      | false => exact .inl rfl
      | true => exact .inr (configured.func1IntEna.symm.trans ((linked.lost lost).trans before.2.1))
  · intro succeeded
    constructor
    · intro _
      constructor
      · exact succeeded.cardInit
      · rw [written,cccr]
        exact started.functions
      · rw [written,cccr]
        exact started.interrupts
      · rw [written,cccr,← same.1]
        exact started.busWidth
      · intro r member
        have set := succeeded.blocks r member
        rw [written] at set
        rw [written,cccr]
        exact ⟨set,started.blocks r member set⟩
      · have apart : (0x18 : UInt8) ≠ 0x39 := by decide
        rw [linked.window,Function.update_of_ne apart,Function.update_self,before.1]
      · rw [linked.window,Function.update_self,before.1]
      · cases lost : d'.enaLost with
        | false => rw [linked.taken succeeded.enaRead lost,before.2.1]
        | true =>
            cases succeeded.enaWritten with
            | inl kept => exact absurd (lost.symm.trans kept) Bool.noConfusion
            | inr already => rw [linked.lost lost,before.2.1,already]
    · rw [linked.derived,before.2.2,succeeded.enaRead,Bool.false_or]

-- Every run of the boot, whatever the bus answers.
theorem promised_iff {t : Task} {w : World} {d : Card} {size : UInt32} {initialised : Bool} {retries : Nat} {ret : Option EspErr}
    {s' : State} (powered : PoweredUp d)
    (run : Runs Eq (card.act t) (espExtconnBoot size initialised retries) (w,d) trace ret s') :
    Promised d ret s'.2 ↔ (ret = some .ok → IgnoredSucceeded d s'.2) := by
  have ends := alone_runs (boot_wp powered) run
  by_cases success : ret = some .ok
  · rw [success,booted_iff powered (ends.booted success)]
    exact ⟨fun succeeded _ => succeeded,fun succeeded => succeeded rfl⟩
  · constructor
    · intro _ same
      exact absurd same success
    · intro _
      exact ⟨fun same => absurd same success,(ends.failed success).trans powered.derived⟩

def atReset : Card where
  initialised := false
  cccr _ := 0
  written _ := false
  window _ := 0
  selected := 0
  func1IntEna := 0
  enaLost := false
  unread _ := false
  derived := false

theorem atReset_poweredUp : PoweredUp atReset := ⟨rfl,fun _ => rfl,fun _ => rfl,rfl,rfl⟩

def fine : Ans := {}
def showing (word : UInt32) : Ans := {data := le32 word}

-- One register of the window, whose reads show `before` and `after`.
def windowAnswers (before after : UInt32) : List Ans :=
  List.replicate 4 fine ++ [showing before] ++ List.replicate 16 fine ++ [showing after] ++ List.replicate 3 fine

-- Power-up, the card initialisations, CMD0 and the control registers, the block
-- sizes, the two window registers and the interrupt enable.
def bootAnswers (cardInit blocks : List Ans) (ena : Ans) : List Ans :=
  List.replicate 6 fine ++ cardInit ++ List.replicate 6 fine ++ blocks ++ [fine] ++
    windowAnswers 0 (slcSlc0RxStitchEn ||| slcSlc0TxStitchEn) ++ windowAnswers 0 slcSlc0TxPacketLoadEn ++
    [fine,ena] ++ List.replicate 5 fine

-- No card initialisation succeeds, no block size is written and the interrupt
-- enable cannot be read; the boot reports success.
theorem unnoticed_run : ∃ trace ret s', Runs Eq (card.act .appMain) (espExtconnBoot 128 false 1) (World.initial espSipInit,atReset) trace ret s' ∧
    (decide (ret = some .ok) && !s'.2.initialised && !s'.2.written 0x211 && s'.2.derived) = true :=
  slave_executes card .appMain (fun s => (rfl : s = s)) (espExtconnBoot 128 false 1)
    (bootAnswers (List.replicate 20 {err := .timeout}) (List.replicate 12 {err := .timeout}) {showing 0 with err := .timeout})
    (World.initial espSipInit,atReset) (fun ret s => decide (ret = some .ok) && !s.2.initialised && !s.2.written 0x211 && s.2.derived)
    (by decide +kernel)

theorem unconfigured : ¬ ∀ (t : Task) (w : World) (d : Card) (size : UInt32) (initialised : Bool) (retries : Nat) (trace : List Op)
    (ret : Option EspErr) (s' : State), PoweredUp d →
    Runs Eq (card.act t) (espExtconnBoot size initialised retries) (w,d) trace ret s' → Promised d ret s'.2 := by
  intro every
  obtain ⟨trace,ret,s',run,seen⟩ := unnoticed_run
  simp only [Bool.and_eq_true,decide_eq_true_eq] at seen
  have promised := every _ _ _ _ _ _ _ _ _ atReset_poweredUp run
  exact absurd (seen.2.symm.trans promised.underived) Bool.noConfusion

theorem whole_run : ∃ trace ret s', Runs Eq (card.act .appMain) (espExtconnBoot 128 false 1) (World.initial espSipInit,atReset) trace ret s' ∧
    (decide (ret = some .ok) && s'.2.initialised && !s'.2.unread .func1IntEna && !s'.2.enaLost &&
      blockSizes.all fun r => s'.2.written r.1) = true :=
  slave_executes card .appMain (fun s => (rfl : s = s)) (espExtconnBoot 128 false 1)
    (bootAnswers [fine] (List.replicate 5 fine ++ [{word := 2}] ++ List.replicate 5 fine ++ [{word := 2}]) (showing 0))
    (World.initial espSipInit,atReset) (fun ret s => decide (ret = some .ok) && s.2.initialised && !s.2.unread .func1IntEna && !s.2.enaLost &&
      blockSizes.all fun r => s.2.written r.1) (by decide +kernel)

theorem link_configured : ∃ s', Configured atReset s'.2 ∧ ∃ trace,
    Runs Eq (card.act .appMain) (espExtconnBoot 128 false 1) (World.initial espSipInit,atReset) trace (some .ok) s' := by
  obtain ⟨trace,ret,s',run,seen⟩ := whole_run
  simp only [Bool.and_eq_true,decide_eq_true_eq,Bool.not_eq_true',List.all_eq_true] at seen
  obtain ⟨⟨⟨⟨rfl,init⟩,read⟩,taken⟩,blocks⟩ := seen
  have succeeded : IgnoredSucceeded atReset s'.2 := ⟨init,blocks,read,.inl taken⟩
  exact ⟨s',((promised_iff atReset_poweredUp run).mpr fun _ => succeeded).configured rfl,trace,run⟩

end ExtConn.ConfiguredLink
