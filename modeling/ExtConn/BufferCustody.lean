import ExtConn.HeapBooks

namespace ExtConn.HeapBooks
open Effects ByteMemory Custody TxDeque

section
variable {t : Task} {share : Share} {s s' : State}

-- A buffer goes into the list with its packet.
structure Inserted (eb : EbPtr) (s s' : State) : Prop where
  book : s'.2.book = s.2.book.move (· = (payload (s.1.esf eb)).blk) (some (.buffer eb))
  out : s'.2.out = s.2.out
  empty : s'.2.empty = s.2.empty
  refused : s'.2.refused = s.2.refused
  work : s'.2.work = s.2.work
  world : s'.1 = {s.1 with wifiTx := s'.1.wifiTx}
  list : ∀ xs, Represents s.1.wifiTx xs → eb ∉ xs → ∃ ys, Represents s'.1.wifiTx ys ∧ ∀ x, x ∈ ys ↔ x = eb ∨ x ∈ xs

theorem Listed.apart (listed : Listed s xs) (here : InHand t s eb) : eb ∉ xs := by
  intro member
  have kept := listed.kept eb member
  rw [here.2] at kept
  cases kept

theorem Inserted.inv (inserted : Inserted eb s s') (here : InHand t s eb) (inv : Inv s) : Inv s' := by
  have world := inserted.world
  have esf : s'.1.esf = s.1.esf := by rw [world]
  have queues : queued s'.1 = queued s.1 := by rw [world]; rfl
  have moved : OneMove (payload (s.1.esf eb)).blk (some (.buffer eb)) s s' := by
    refine ⟨inserted.book,fun b _ => by rw [world],?_,by rw [world],?_,fun b _ => by rw [queues],?_⟩
    · rw [world]
      exact ⟨fun _ => Option.some_ne_none _,fun _ => inv.alive here.2⟩
    · rw [world]
      exact inv.below here.2
    · rw [queues]
      exact ⟨fun waits => absurd waits (queued_apart inv here.2),fun same => by cases same⟩
  refine moved.inv inv (by rw [queues]; exact inv.distinct) ?_
  obtain ⟨xs,listed⟩ := inv.listed
  obtain ⟨ys,represents,members⟩ := inserted.list xs listed.represents (listed.apart here)
  refine ⟨ys,represents,fun x member => ?_,fun x member => ?_,fun b x known => ?_⟩
  · rw [inserted.out]
    rcases (members x).mp member with rfl | before
    · exact here.1
    · exact listed.out x before
  · rw [esf,inserted.book]
    rcases (members x).mp member with rfl | before
    · exact move_self _
    · have kept := listed.kept x before
      rw [move_other]
      · exact kept
      · intro same
        rw [same,here.2] at kept
        cases kept
  · rw [esf]
    rw [inserted.book] at known
    by_cases same : b = (payload (s.1.esf eb)).blk
    · rw [same,move_self] at known
      cases known
      exact ⟨(members eb).mpr (.inl rfl),same.symm⟩
    · rw [move_other same] at known
      obtain ⟨before,its⟩ := listed.only b x known
      exact ⟨(members x).mpr (.inr before),its⟩

theorem Inserted.passes (inserted : Inserted eb s s') (here : InHand t s eb) :
    Passes t (payload (s.1.esf eb)).blk (some (.buffer eb)) s s' := by
  have world := inserted.world
  refine ⟨here.2,fun u same => (by cases same),inserted.inv here,inserted.book,by rw [world],by rw [world],inserted.empty,
    inserted.refused,inserted.work,fun x out _ => ⟨?_,by rw [world]⟩⟩
  rw [inserted.out]
  exact out

theorem insert_inserted {r : EspErr} (proper : eb ≠ nullEb) (acted : books.act t (.listInsert eb) s r s') : Inserted eb s s' := by
  obtain ⟨w',d'⟩ := s'
  obtain ⟨ans,ran,answered⟩ := act_iff.mp acted
  have book : some (if eb = nullEb then s.2 else s.2.move (payload (s.1.esf eb)).blk (some (.buffer eb))) = some d' := answered
  rw [if_neg proper] at book
  cases book
  cases ran
  refine ⟨rfl,rfl,rfl,rfl,rfl,rfl,fun xs represents fresh => ⟨_,(insert_represents represents proper fresh).2,fun x => ?_⟩⟩
  rw [List.mem_append,List.mem_singleton,or_comm]

theorem headInsert_inserted {r : EspErr} (proper : eb ≠ nullEb) (acted : books.act t (.listHeadInsert eb) s r s') : Inserted eb s s' := by
  obtain ⟨w',d'⟩ := s'
  obtain ⟨ans,ran,answered⟩ := act_iff.mp acted
  have book : some (if eb = nullEb then s.2 else s.2.move (payload (s.1.esf eb)).blk (some (.buffer eb))) = some d' := answered
  rw [if_neg proper] at book
  cases book
  cases ran
  exact ⟨rfl,rfl,rfl,rfl,rfl,rfl,fun xs represents fresh => ⟨_,(headInsert_represents represents proper fresh).2,fun x => List.mem_cons⟩⟩

theorem inserts_inserted {o : Op} {r : o.Answer} (puts : inserts o = some eb) (acted : books.act t o s r s') : Inserted eb s s' := by
  obtain ⟨proper,rfl | rfl⟩ := inserts_cases puts
  · exact insert_inserted proper acted
  · exact headInsert_inserted proper acted

-- The two insertions, for a buffer that the task has in its hand.
theorem inserted_wp {o : Op} {next : o.Answer → Code α} {post : α → State → Prop} (puts : inserts o = some eb) (has : Has t share s)
    (held : (eb,b) ∈ share.hand)
    (rest : ∀ r s, Has t {share with own := share.own \ {(payload b).blk},hand := []} s → wp (contract t) (next r) post s) :
    wp (contract t) (Prog.op o next : Code α) post s := by
  intro s₁ moved
  have has₁ := has_stable s s₁ has moved
  obtain ⟨here,same⟩ := has₁.hand _ held
  refine ⟨⟨fun blk some => ?_,fun x its => ?_,fun null => ?_⟩,fun r s₂ acted => ?_⟩
  · rw [inserts_block puts] at some
    cases some
  · rw [puts] at its
    cases its
    exact here
  · rw [inserts_proper puts] at null
    cases null
  · have passes := (inserts_inserted puts acted).passes here
    have later := passes.has has₁
    rw [same] at later
    exact ⟨passes.leaves,rest r s₂ later⟩

-- The first buffer of the list, if there is one, goes to the task.
theorem remove_steps {r : EbPtr} (inv : Inv s) (acted : books.act t .listRemove s r s') :
    (r = nullEb ∧ Leaves t s s' ∧ ∀ share, Has t share s → Has t share s') ∨
      (r ≠ nullEb ∧ s'.1.esf = s.1.esf ∧ s'.2.out r = true ∧ Accepts t (payload (s.1.esf r)).blk s s' ∧
        (t = .wifiSend → s'.2.work = s.2.work.take 1 ++ [(payload (s.1.esf r)).blk])) := by
  obtain ⟨w',d'⟩ := s'
  obtain ⟨ans,ran,answered⟩ := act_iff.mp acted
  have book : some (if (listRemove s.1.wifiTx).1 = nullEb then s.2 else
      s.2.remove t (payload (s.1.esf (listRemove s.1.wifiTx).1)).blk) = some d' := answered
  cases ran
  obtain ⟨xs,listed⟩ := inv.listed
  obtain ⟨first,remaining,_⟩ := remove_represents listed.represents
  by_cases empty : (listRemove s.1.wifiTx).1 = nullEb
  · rw [if_pos empty] at book
    cases book
    refine .inl ⟨empty,?_⟩
    have tail : xs.tail = xs := by
      cases xs with
      | nil => rfl
      | cons x rest =>
          rw [empty] at first
          exact absurd (List.mem_cons.mpr (.inl first)) listed.represents.chain.proper
    rw [tail] at remaining
    have kept : Inv s → Inv ({s.1 with wifiTx := (listRemove s.1.wifiTx).2},s.2) := fun inv =>
      ⟨inv.live,inv.fresh,inv.messages,inv.distinct,⟨xs,remaining,listed.out,listed.kept,listed.only⟩⟩
    refine ⟨?_,fun share has => ⟨kept has.inv,has.own,has.lent,has.rawbuf,?_,has.hand⟩⟩
    · exact leaves_of kept (fun _ _ => rfl) (fun _ _ _ _ => rfl) (fun _ => rfl) (fun _ => rfl) (fun _ => rfl) (fun _ => rfl)
        (fun _ _ known => known) fun _ _ _ here => ⟨here.1,rfl⟩
    · rw [← has.noted]
      cases t <;> rfl
  · rw [if_neg empty] at book
    cases book
    cases xs with
    | nil => exact absurd first empty
    | cons x rest =>
        have same : (listRemove s.1.wifiTx).1 = x := first
        rw [same] at empty ⊢
        have out := listed.out x List.mem_cons_self
        have waited := listed.kept x List.mem_cons_self
        have gone := (List.nodup_cons.mp listed.represents.chain.nodup).1
        refine .inr ⟨empty,rfl,out,⟨⟨_,waited,fun u same => (by cases same),fun same => (by cases same)⟩,fun inv => ?_,rfl,rfl,rfl,
          fun _ => rfl,rfl,fun other => if_neg other,fun eb out => ⟨out,rfl⟩⟩,fun mine => if_pos mine⟩
        have moved : OneMove (payload (s.1.esf x)).blk (some (.task t)) s
            ({s.1 with wifiTx := (listRemove s.1.wifiTx).2},s.2.remove t (payload (s.1.esf x)).blk) := by
          refine ⟨rfl,fun _ _ => rfl,?_,Nat.le_refl _,inv.below waited,fun _ _ => Iff.rfl,?_⟩
          · exact ⟨fun _ => Option.some_ne_none _,fun _ => inv.alive waited⟩
          · refine ⟨fun waits => ?_,fun same => by cases same⟩
            rw [(inv.messages _).mp waits] at waited
            cases waited
        refine moved.inv inv inv.distinct ⟨rest,remaining,fun eb member => listed.out eb (List.mem_cons_of_mem x member),?_,?_⟩
        · intro eb member
          have kept := listed.kept eb (List.mem_cons_of_mem x member)
          show s.2.book.move (· = (payload (s.1.esf x)).blk) _ _ = _
          rw [move_other]
          · exact kept
          · intro same
            rw [same,waited] at kept
            cases kept
            exact gone member
        · intro b eb known
          change s.2.book.move (· = (payload (s.1.esf x)).blk) _ _ = _ at known
          by_cases here : b = (payload (s.1.esf x)).blk
          · rw [here,move_self] at known
            cases known
          · rw [move_other here] at known
            obtain ⟨member,its⟩ := listed.only b eb known
            refine ⟨(List.mem_cons.mp member).resolve_left ?_,its⟩
            rintro rfl
            exact here its.symm

-- `wifi_send_task` notes which packet it has taken.
def Share.taking (share : Share) (eb : EbPtr) (b : EsfBuf) : Share :=
  {share.holding eb b with noted := share.noted.take 1 ++ [(payload b).blk]}

theorem remove_wp {next : EbPtr → Code α} {post : α → State → Prop} (has : Has .wifiSend share s) (unlent : share.lent = ∅)
    (empty : ∀ s, Has .wifiSend share s → wp (contract .wifiSend) (next nullEb) post s)
    (taken : ∀ eb b s, eb ≠ nullEb → (payload b).blk ∉ share.own → Has .wifiSend (share.taking eb b) s →
      wp (contract .wifiSend) (next eb) post s) :
    wp (contract .wifiSend) (Prog.op .listRemove next : Code α) post s := by
  intro s₁ moved
  have has₁ := has_stable s s₁ has moved
  refine ⟨allowed_plain rfl rfl rfl,fun r s₂ acted => ?_⟩
  rcases remove_steps has₁.inv acted with ⟨rfl,leaves,kept⟩ | ⟨proper,esf,out,accepts,work⟩
  · exact ⟨leaves,empty s₂ (kept share has₁)⟩
  · refine ⟨accepts.leaves,taken r (s₁.1.esf r) s₂ proper (fun member => ?_) ?_⟩
    · obtain ⟨h,waited,nobody,_⟩ := accepts.waited
      rw [has₁.owns member] at waited
      exact nobody _ (Option.some.inj waited).symm
    · have later := accepts.has has₁ (by rw [unlent]; exact Set.notMem_empty _) [(r,s₁.1.esf r)] fun x member => ?_
      · have before : s₁.2.work = share.noted := has₁.noted
        have noted : notedOf .wifiSend s₂ = share.noted.take 1 ++ [(payload (s₁.1.esf r)).blk] := by
          rw [← before]
          exact work rfl
        rw [noted] at later
        exact later
      · rw [List.mem_singleton.mp member]
        refine ⟨⟨out,?_⟩,by rw [esf]⟩
        rw [esf,accepts.book,move_self]

-- Buffers go back to the software above with their packets.
theorem recycle_inside {d : Books} {w : World} (inside : ∃ eb ∈ ebs, (payload (w.esf eb)).blk = b) :
    (d.recycle w ebs).book b = some .outside := if_pos inside

theorem recycle_apart {d : Books} {w : World} (apart : ¬ ∃ eb ∈ ebs, (payload (w.esf eb)).blk = b) :
    (d.recycle w ebs).book b = d.book b := if_neg apart

structure Recycled (t : Task) (ebs : List EbPtr) (s s' : State) : Prop where
  owned : ∀ eb ∈ ebs, s.2.out eb = true ∧
    (s.2.book (payload (s.1.esf eb)).blk = some (.buffer eb) ∨ s.2.book (payload (s.1.esf eb)).blk = some (.task t))
  books : s'.2 = s.2.recycle s.1 ebs
  world : s'.1 = {s.1 with wifiTx := s'.1.wifiTx}
  list : ∀ xs, Listed s xs → Represents s'.1.wifiTx (xs.filter fun eb => !decide (eb ∈ ebs))

theorem Recycled.kept (recycled : Recycled t ebs s s') (known : s.2.book b = some h) (waits : ∀ eb, h ≠ .buffer eb) (other : h ≠ .task t) :
    s'.2.book b = some h := by
  rw [recycled.books,recycle_apart]
  · exact known
  · rintro ⟨eb,member,same⟩
    rcases (recycled.owned eb member).2 with buffer | mine
    · rw [same,known] at buffer
      exact waits eb (Option.some.inj buffer)
    · rw [same,known] at mine
      exact other (Option.some.inj mine)

theorem Recycled.stays (recycled : Recycled t ebs s s') (out : s.2.out eb = true) (away : eb ∉ ebs) : s'.2.out eb = true := by
  rw [recycled.books]
  show (s.2.out eb && !decide (eb ∈ ebs)) = true
  rw [out,decide_eq_false away]
  rfl

theorem Recycled.inv (recycled : Recycled t ebs s s') (inv : Inv s) : Inv s' := by
  have world := recycled.world
  have esf : s'.1.esf = s.1.esf := by rw [world]
  have queues : queued s'.1 = queued s.1 := by rw [world]; rfl
  have booked : ∀ b, (∃ eb ∈ ebs, (payload (s.1.esf eb)).blk = b) → s'.2.book b = some .outside := by
    intro b inside
    rw [recycled.books]
    exact recycle_inside inside
  have apart : ∀ b, (¬ ∃ eb ∈ ebs, (payload (s.1.esf eb)).blk = b) → s'.2.book b = s.2.book b := by
    intro b away
    rw [recycled.books]
    exact recycle_apart away
  have known : ∀ b, (∃ eb ∈ ebs, (payload (s.1.esf eb)).blk = b) → ∃ h, s.2.book b = some h ∧ h ≠ .message := by
    rintro b ⟨eb,member,rfl⟩
    rcases (recycled.owned eb member).2 with buffer | mine
    · exact ⟨_,buffer,fun same => by cases same⟩
    · exact ⟨_,mine,fun same => by cases same⟩
  refine ⟨fun b => ?_,fun b above => ?_,fun b => ?_,by rw [queues]; exact inv.distinct,?_⟩
  · rw [world]
    show s.1.blocks b ≠ none ↔ _
    by_cases inside : ∃ eb ∈ ebs, (payload (s.1.esf eb)).blk = b
    · obtain ⟨h,known,_⟩ := known b inside
      rw [booked b inside]
      exact ⟨fun _ => Option.some_ne_none _,fun _ => inv.alive known⟩
    · rw [apart b inside]
      exact inv.live b
  · rw [world] at above
    have unknown := inv.fresh b above
    rw [apart]
    · exact unknown
    · intro inside
      obtain ⟨h,known,_⟩ := known b inside
      rw [unknown] at known
      cases known
  · rw [queues]
    by_cases inside : ∃ eb ∈ ebs, (payload (s.1.esf eb)).blk = b
    · obtain ⟨h,known,other⟩ := known b inside
      rw [booked b inside,inv.messages,known]
      exact ⟨fun same => absurd (Option.some.inj same) other,fun same => by cases same⟩
    · rw [apart b inside]
      exact inv.messages b
  · obtain ⟨xs,listed⟩ := inv.listed
    refine ⟨_,recycled.list xs listed,fun eb member => ?_,fun eb member => ?_,fun b eb holder => ?_⟩
    · obtain ⟨before,away⟩ := List.mem_filter.mp member
      exact recycled.stays (listed.out eb before) (by simpa using away)
    · obtain ⟨before,away⟩ := List.mem_filter.mp member
      have kept := listed.kept eb before
      rw [esf,apart]
      · exact kept
      · rintro ⟨x,inside,same⟩
        rcases (recycled.owned x inside).2 with buffer | mine
        · rw [same,kept] at buffer
          cases buffer
          simp [inside] at away
        · rw [same,kept] at mine
          cases mine
    · rw [esf]
      by_cases inside : ∃ eb ∈ ebs, (payload (s.1.esf eb)).blk = b
      · rw [booked b inside] at holder
        cases holder
      · rw [apart b inside] at holder
        obtain ⟨before,its⟩ := listed.only b eb holder
        refine ⟨List.mem_filter.mpr ⟨before,?_⟩,its⟩
        have away : eb ∉ ebs := fun member => inside ⟨eb,member,its⟩
        simp [away]

theorem Recycled.away (recycled : Recycled t ebs s s') (other : u ≠ t) (here : InHand u s eb) : eb ∉ ebs := by
  intro member
  rcases (recycled.owned eb member).2 with buffer | mine
  · rw [here.2] at buffer
    cases buffer
  · rw [here.2] at mine
    cases mine
    exact other rfl

theorem Recycled.leaves (recycled : Recycled t ebs s s') : Leaves t s s' := by
  have world := recycled.world
  refine leaves_of recycled.inv (fun u other => ?_) (fun _ _ _ _ => by rw [world]) (fun _ => by rw [world])
    (fun _ => by rw [recycled.books]; rfl) (fun _ => by rw [recycled.books]; rfl) (fun _ => by rw [recycled.books]; rfl) (fun _ b known => ?_) (fun u other eb here => ?_)
  · ext b
    constructor
    · intro owned
      rw [recycled.books] at owned
      by_cases inside : ∃ eb ∈ ebs, (payload (s.1.esf eb)).blk = b
      · cases (recycle_inside inside).symm.trans owned
      · exact (recycle_apart inside).symm.trans owned
    · intro owned
      exact recycled.kept owned (fun eb same => by cases same) fun same => other (Holder.task.inj same)
  · exact recycled.kept known (fun eb same => by cases same) fun same => by cases same
  · refine ⟨recycled.stays here.1 (recycled.away other here),by rw [world]⟩

theorem Recycled.noted (recycled : Recycled t ebs s s') : notedOf t s' = notedOf t s := by
  unfold notedOf
  rw [recycled.books]
  rfl

-- What was dropped from the list was not the task's.
theorem Recycled.has_kept (recycled : Recycled t ebs s s') (listed : ∀ eb ∈ ebs, s.2.book (payload (s.1.esf eb)).blk = some (.buffer eb))
    (has : Has t share s) : Has t share s' := by
  have world := recycled.world
  have same : ∀ b, s'.2.book b = some (.task t) ↔ s.2.book b = some (.task t) := by
    intro b
    rw [recycled.books]
    by_cases inside : ∃ eb ∈ ebs, (payload (s.1.esf eb)).blk = b
    · rw [recycle_inside inside]
      obtain ⟨eb,member,rfl⟩ := inside
      rw [listed eb member]
      exact ⟨fun same => (by cases same),fun same => by cases same⟩
    · rw [recycle_apart inside]
  refine ⟨recycled.inv has.inv,?_,fun b member => ?_,?_,recycled.noted.trans has.noted,fun x member => ?_⟩
  · rw [← has.own]
    exact Set.ext same
  · obtain ⟨stack,known⟩ := has.lent b member
    exact ⟨stack,recycled.kept known (fun eb same => by cases same) fun same => by cases same⟩
  · rw [← has.rawbuf,rawbufOf,rawbufOf,world]
  · obtain ⟨here,its⟩ := has.hand x member
    have esf : s'.1.esf = s.1.esf := by rw [world]
    have away : x.1 ∉ ebs := by
      intro inside
      have buffer := listed x.1 inside
      rw [here.2] at buffer
      cases buffer
    rw [InHand,esf]
    exact ⟨⟨recycled.stays here.1 away,(same _).mpr here.2⟩,its⟩

theorem Recycled.has_given (recycled : Recycled t [eb] s s') (has : Has t share s) :
    Has t {share with own := share.own \ {(payload (s.1.esf eb)).blk},hand := []} s' := by
  have world := recycled.world
  refine ⟨recycled.inv has.inv,?_,fun b member => ?_,?_,recycled.noted.trans has.noted,fun x member => absurd member List.not_mem_nil⟩
  · ext b
    rw [mem_heldBy,recycled.books,← has.own]
    by_cases inside : ∃ x ∈ [eb], (payload (s.1.esf x)).blk = b
    · rw [recycle_inside inside]
      obtain ⟨x,member,rfl⟩ := inside
      rw [List.mem_singleton.mp member]
      exact ⟨fun same => (by cases same),fun member => absurd rfl member.2⟩
    · rw [recycle_apart inside]
      exact ⟨fun owned => ⟨owned,fun same => inside ⟨eb,List.mem_cons_self,same.symm⟩⟩,fun member => member.1⟩
  · obtain ⟨stack,known⟩ := has.lent b member
    exact ⟨stack,recycled.kept known (fun eb same => by cases same) fun same => by cases same⟩
  · rw [← has.rawbuf,rawbufOf,rawbufOf,world]

theorem clear_recycled {r : List EbPtr} (inv : Inv s) (acted : books.act t .listClear s r s') :
    Recycled t r s s' ∧ ∀ eb ∈ r, s.2.book (payload (s.1.esf eb)).blk = some (.buffer eb) := by
  obtain ⟨w',d'⟩ := s'
  obtain ⟨ans,ran,answered⟩ := act_iff.mp acted
  have world : ((listClear s.1.dropOnClear ans.num s.1.wifiTx).map fun cleared => (cleared.1,{s.1 with wifiTx := cleared.2})) = some (r,w') := ran
  have book : ((listClear s.1.dropOnClear ans.num s.1.wifiTx).map fun cleared => s.2.recycle s.1 cleared.1) = some d' := answered
  obtain ⟨⟨recycled,q⟩,cleared,made⟩ := Option.map_eq_some_iff.mp world
  rw [cleared] at book
  cases made
  cases book
  have all : ∀ xs, Listed s xs → recycled = xs.filter s.1.dropOnClear ∧ Represents q (xs.filter fun eb => !s.1.dropOnClear eb) := by
    intro xs listed
    obtain ⟨reply,represents,_⟩ := code_refines listed.represents (c := .clear s.1.dropOnClear) trivial (.clear cleared)
    cases reply
    exact ⟨rfl,represents⟩
  obtain ⟨xs,listed⟩ := inv.listed
  have waiting : ∀ eb ∈ recycled, eb ∈ xs := by
    intro eb member
    rw [(all xs listed).1] at member
    exact (List.mem_filter.mp member).1
  have kept : ∀ eb ∈ recycled, s.2.book (payload (s.1.esf eb)).blk = some (.buffer eb) := fun eb member => listed.kept eb (waiting eb member)
  refine ⟨⟨fun eb member => ⟨listed.out eb (waiting eb member),.inl (kept eb member)⟩,rfl,rfl,fun ys other => ?_⟩,kept⟩
  obtain ⟨same,represents⟩ := all ys other
  have filters : (ys.filter fun eb => !decide (eb ∈ recycled)) = ys.filter fun eb => !s.1.dropOnClear eb := by
    refine List.filter_congr fun eb member => ?_
    rw [same]
    simp [List.mem_filter,member]
  rw [filters]
  exact represents

theorem clear_wp {next : List EbPtr → Code α} {post : α → State → Prop} (has : Has t share s)
    (rest : ∀ r s, Has t share s → wp (contract t) (next r) post s) :
    wp (contract t) (Prog.op .listClear next : Code α) post s := by
  intro s₁ moved
  have has₁ := has_stable s s₁ has moved
  refine ⟨allowed_plain rfl rfl rfl,fun r s₂ acted => ?_⟩
  obtain ⟨recycled,listed⟩ := clear_recycled has₁.inv acted
  exact ⟨recycled.leaves,rest r s₂ (recycled.has_kept listed has₁)⟩

-- `wifi_send_task` hands a buffer back in either of two ways.
theorem dispose_recycled {o : Op} {r : o.Answer} (disposes : o = .net80211EnTxdq eb ∨ o = .espSipRecycle eb)
    (here : InHand t s eb) (acted : books.act t o s r s') : Recycled t [eb] s s' := by
  have same : s'.1 = s.1 ∧ s'.2 = s.2.recycle s.1 [eb] := by
    obtain ⟨ans,ran,answered⟩ := act_iff.mp acted
    rcases disposes with rfl | rfl
    · exact ⟨(Prod.mk.inj (Option.some.inj ran)).2.symm,(Option.some.inj answered).symm⟩
    · exact ⟨(Prod.mk.inj (Option.some.inj ran)).2.symm,(Option.some.inj answered).symm⟩
  refine ⟨fun x member => ?_,same.2,by rw [same.1],fun xs listed => ?_⟩
  · rw [List.mem_singleton.mp member]
    exact ⟨here.1,.inr here.2⟩
  · have all : (xs.filter fun x => !decide (x ∈ [eb])) = xs := by
      refine List.filter_eq_self.mpr fun x member => ?_
      have other : x ≠ eb := fun same => listed.apart here (same ▸ member)
      simp [other]
    rw [all,same.1]
    exact listed.represents

theorem dispose_wp {o : Op} {next : o.Answer → Code α} {post : α → State → Prop} (disposes : o = .net80211EnTxdq eb ∨ o = .espSipRecycle eb)
    (has : Has t share s) (held : (eb,b) ∈ share.hand)
    (rest : ∀ r s, Has t {share with own := share.own \ {(payload b).blk},hand := []} s → wp (contract t) (next r) post s) :
    wp (contract t) (Prog.op o next : Code α) post s := by
  intro s₁ moved
  have has₁ := has_stable s s₁ has moved
  obtain ⟨here,same⟩ := has₁.hand _ held
  refine ⟨?_,fun r s₂ acted => ?_⟩
  · rcases disposes with rfl | rfl
    · exact allowed_plain rfl rfl rfl
    · exact allowed_plain rfl rfl rfl
  · have recycled := dispose_recycled disposes here acted
    have later := recycled.has_given has₁
    rw [same] at later
    exact ⟨recycled.leaves,rest r s₂ later⟩

-- What the software above calls with: the arguments of a command are lent, a
-- buffer is handed over.
theorem lend_cases {w : World} {d d' : Books} (answered : lend w call d = some d') :
    (d' = d ∧ ((∃ cid len, call = .cmd cid len none) ∨ call = .data nullEb)) ∨
    (d' = d ∧ ∃ cid len p, call = .cmd cid len (some p) ∧ d.book p.blk = some .outside) ∨
    (∃ eb, call = .data eb ∧ eb ≠ nullEb ∧ d.out eb = false ∧ d.book (payload (w.esf eb)).blk = some .outside ∧
      d' = {d.move (payload (w.esf eb)).blk (some (.task .wifiStack)) with out := Function.update d.out eb true}) := by
  cases call with
  | cmd cid len cmd =>
      cases cmd with
      | none =>
          cases answered
          exact .inl ⟨rfl,.inl ⟨cid,len,rfl⟩⟩
      | some p =>
          simp only [lend] at answered
          split at answered
          · cases answered
            exact .inr (.inl ⟨rfl,cid,len,p,rfl,‹_›⟩)
          · cases answered
  | data eb =>
      simp only [lend] at answered
      split at answered
      · rename_i null
        cases answered
        exact .inl ⟨rfl,.inr (by rw [null])⟩
      · rename_i proper
        split at answered
        · rename_i ready
          cases answered
          exact .inr (.inr ⟨eb,rfl,proper,ready.1,ready.2,rfl⟩)
        · cases answered

def Books.hand (d : Books) (blk : Nat) (t : Task) (eb : EbPtr) : Books :=
  {d.move blk (some (.task t)) with out := Function.update d.out eb true}

theorem hand_accepts (inv : Inv s) (fresh : s.2.out eb = false) (outside : s.2.book (payload (s.1.esf eb)).blk = some .outside) :
    Accepts .wifiStack (payload (s.1.esf eb)).blk s (s.1,s.2.hand (payload (s.1.esf eb)).blk .wifiStack eb) := by
  have buffers : ∀ x, s.2.out x = true → Function.update s.2.out eb true x = true ∧ s.1.esf x = s.1.esf x := by
    intro x out
    by_cases same : x = eb
    · rw [same,fresh] at out
      cases out
    · rw [Function.update_of_ne same]
      exact ⟨out,rfl⟩
  have moved : OneMove (payload (s.1.esf eb)).blk (some (.task .wifiStack)) s
      (s.1,s.2.hand (payload (s.1.esf eb)).blk .wifiStack eb) := by
    refine ⟨rfl,fun _ _ => rfl,?_,Nat.le_refl _,inv.below outside,fun _ _ => Iff.rfl,fun waits => ?_,fun same => by cases same⟩
    · exact ⟨fun _ => Option.some_ne_none _,fun _ => inv.alive outside⟩
    · rw [(inv.messages _).mp waits] at outside
      cases outside
  refine ⟨⟨_,outside,fun u same => (by cases same),fun _ => rfl⟩,fun inv => ?_,rfl,rfl,rfl,fun _ => rfl,rfl,fun _ => rfl,buffers⟩
  refine moved.inv inv inv.distinct (moved.listed inv (fun x known => ?_) (fun _ same => by cases same) rfl buffers)
  rw [outside] at known
  cases known

theorem stackCall_wp {next : StackCall → Code α} {post : α → State → Prop} (has : Has .wifiStack {own := ∅} s)
    (bare : ∀ cid len s, Has .wifiStack {own := ∅} s → wp (contract .wifiStack) (next (.cmd cid len none)) post s)
    (null : ∀ s, Has .wifiStack {own := ∅} s → wp (contract .wifiStack) (next (.data nullEb)) post s)
    (cmd : ∀ cid len p s, Has .wifiStack {own := ∅,lent := {p.blk}} s → wp (contract .wifiStack) (next (.cmd cid len (some p))) post s)
    (data : ∀ eb b s, eb ≠ nullEb → Has .wifiStack {own := {(payload b).blk},hand := [(eb,b)]} s →
      wp (contract .wifiStack) (next (.data eb)) post s) :
    wp (contract .wifiStack) (Prog.op .wifiStackCall next : Code α) post s := by
  intro s₁ moved
  have has₁ := has_stable s s₁ has moved
  refine ⟨allowed_plain rfl rfl rfl,fun r s₂ acted => ?_⟩
  obtain ⟨w₂,d₂⟩ := s₂
  obtain ⟨ans,ran,answered⟩ := act_iff.mp acted
  cases ran
  rcases lend_cases answered with ⟨rfl,⟨cid,len,given⟩ | given⟩ | ⟨rfl,cid,len,p,given,outside⟩ | ⟨eb,given,proper,fresh,outside,rfl⟩
  · rw [given]
    exact ⟨.refl _ _,bare cid len s₁ has₁⟩
  · rw [given]
    exact ⟨.refl _ _,null s₁ has₁⟩
  · rw [given]
    refine ⟨.refl _ _,cmd cid len p s₁ {has₁ with lent := fun b member => ?_}⟩
    rw [Set.mem_singleton_iff.mp member]
    exact ⟨rfl,outside⟩
  · rw [given]
    have accepts := hand_accepts has₁.inv fresh outside
    refine ⟨accepts.leaves,data eb (s₁.1.esf eb) _ proper ?_⟩
    have later := accepts.has has₁ (Set.notMem_empty _) [(eb,s₁.1.esf eb)] fun x member => ?_
    · refine {later with own := later.own.trans ?_}
      exact insert_empty_eq _
    · rw [List.mem_singleton.mp member]
      refine ⟨⟨Function.update_self ..,?_⟩,rfl⟩
      exact move_self _

-- A buffer with room for a command.
theorem esfBufAlloc_cases {r : EbPtr} (acted : books.act t (.esfBufAlloc type len) s r s') :
    (r = nullEb ∧ s' = s) ∨ (r ≠ nullEb ∧ Taken t s s' ∧ s'.2.out r = true ∧ (s'.1.esf r).type = type ∧
      (s'.1.esf r).bufBegin = ⟨s.1.fresh,0⟩) := by
  obtain ⟨w',d'⟩ := s'
  obtain ⟨ans,ran,answered⟩ := act_iff.mp acted
  have book : (if ans.num = nullEb then some s.2 else if s.2.out ans.num then none
    else some (s.2.hand s.1.fresh t ans.num)) = some d' := answered
  by_cases null : ans.num = nullEb
  · rw [if_pos null] at book
    simp only [World.exec,if_pos null] at ran
    cases ran
    cases book
    exact .inl ⟨rfl,rfl⟩
  · rw [if_neg null] at book
    simp only [World.exec,if_neg null] at ran
    by_cases out : s.2.out ans.num = true
    · rw [if_pos out] at book
      cases book
    · rw [if_neg out] at book
      cases ran
      cases book
      refine .inr ⟨null,⟨⟨⟨_,rfl⟩,rfl,rfl,rfl,rfl,fun _ _ => rfl⟩,rfl,fun eb known => ?_,rfl,rfl,fun _ => rfl⟩,Function.update_self ..,?_,?_⟩
      · have other : eb ≠ ans.num := fun same => out (same ▸ known)
        exact ⟨(Function.update_of_ne other ..).trans known,Function.update_of_ne other ..⟩
      · show (Function.update s.1.esf ans.num _ ans.num).type = type
        rw [Function.update_self]
      · show (Function.update s.1.esf ans.num _ ans.num).bufBegin = _
        rw [Function.update_self]
        rfl

theorem esfBufAlloc_wp {next : EbPtr → Code α} {post : α → State → Prop} (has : Has t share s) (other : t ≠ .wifiSend)
    (packet : type = esfBufTxSip ∨ type = esfBufTxSipTest)
    (null : ∀ s, Has t share s → wp (contract t) (next nullEb) post s)
    (given : ∀ eb b s, eb ≠ nullEb → payload b = b.bufBegin → (payload b).blk ∉ share.own → Has t (share.holding eb b) s →
      wp (contract t) (next eb) post s) :
    wp (contract t) (Prog.op (.esfBufAlloc type len) next : Code α) post s := by
  intro s₁ moved
  have has₁ := has_stable s s₁ has moved
  refine ⟨allowed_plain rfl rfl rfl,fun r s₂ acted => ?_⟩
  rcases esfBufAlloc_cases acted with ⟨rfl,rfl⟩ | ⟨proper,taken,out,kind,begin⟩
  · exact ⟨.refl _ _,null s₂ has₁⟩
  · have from_begin : payload (s₂.1.esf r) = (s₂.1.esf r).bufBegin := by
      rw [payload,if_pos]
      rw [kind]
      exact packet
    have block : (payload (s₂.1.esf r)).blk = s₁.1.fresh := by rw [from_begin,begin]
    have later := taken.has has₁
    rw [taken.noted other,has₁.noted] at later
    refine ⟨taken.leaves has₁.inv,given r (s₂.1.esf r) s₂ proper from_begin (fun member => ?_) ?_⟩
    · rw [block] at member
      exact (taken.keeps has₁.inv (has₁.owns member)).1 rfl
    · rw [← block] at later
      refine {later with hand := fun x member => ?_}
      rw [List.mem_singleton.mp member]
      refine ⟨⟨out,?_⟩,rfl⟩
      rw [block,taken.book,move_self]

theorem esfGet_wp {next : EsfBuf → Code α} {post : α → State → Prop} (has : Has t share s) (held : (eb,b) ∈ share.hand)
    (rest : ∀ s, Has t share s → wp (contract t) (next b) post s) : wp (contract t) (Prog.op (.esfGet eb) next : Code α) post s := by
  intro s₁ moved
  have has₁ := has_stable s s₁ has moved
  have inside : within share.own share.lent (.esfGet eb) := within_plain rfl rfl
  obtain ⟨safe,steps⟩ := within_keeps inside s₁ has₁
  refine ⟨safe,fun r s₂ acted => ?_⟩
  obtain ⟨leaves,later⟩ := steps r s₂ acted
  obtain ⟨ans,ran,_⟩ := act_iff.mp acted
  have same : r = s₁.1.esf eb := (Prod.mk.inj (Option.some.inj ran)).1.symm
  have its : s₁.1.esf eb = b := (has₁.hand _ held).2
  rw [same,its]
  exact ⟨leaves,rest s₂ later⟩

end
end ExtConn.HeapBooks
