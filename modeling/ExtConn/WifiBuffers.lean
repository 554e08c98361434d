import ExtConn.System
import ExtConn.TxDeque

namespace ExtConn.WifiBuffers
open Effects Interleaving LinkedChain TxDeque

variable {ι : Type} [DecidableEq ι]

-- Where the buffers are: `out` are those that the Wi-Fi stack has handed over and
-- not got back, `given` the one that a caller of the entry points has yet to
-- insert, `held` those that `wifi_send_task` has removed and not disposed of.
structure Ledger (ι : Type) where
  out : EbPtr → Bool
  given : Option ι → EbPtr
  accepted : List EbPtr
  held : List EbPtr
  disposed : List EbPtr

def Ledger.give (d : Ledger ι) (t : Option ι) (eb : EbPtr) : Ledger ι :=
  {d with out := Function.update d.out eb true,given := Function.update d.given t eb}

-- The stack does not hand in, nor the allocator return, a buffer that is out.
def Ledger.hand (d : Ledger ι) (t : Option ι) (eb : EbPtr) : Option (Ledger ι) :=
  if eb = nullEb then some d else if d.out eb = true then none else some (d.give t eb)

def Ledger.accept (d : Ledger ι) (t : Option ι) (eb : EbPtr) : Ledger ι :=
  {d with given := Function.update d.given t nullEb,accepted := eb :: d.accepted}

def Ledger.remove (d : Ledger ι) (eb : EbPtr) : Ledger ι := {d with held := eb :: d.held}

def Ledger.recycle (d : Ledger ι) (ebs : List EbPtr) : Ledger ι :=
  {d with out := fun eb => d.out eb && !decide (eb ∈ ebs),disposed := ebs ++ d.disposed}

def Ledger.dispose (d : Ledger ι) (eb : EbPtr) : Ledger ι :=
  {d with out := Function.update d.out eb false,held := d.held.erase eb,disposed := eb :: d.disposed}

def handedIn : StackCall → EbPtr
  | .cmd _ _ _ => nullEb
  | .data eb => eb

def ledgerSlave (t : Option ι) : Slave (Ledger ι) where
  answers _ w o ans d := match o with
    | .wifiStackCall => d.hand t (handedIn ans.call)
    | .esfBufAlloc _ _ => d.hand t ans.num
    | .listInsert eb | .listHeadInsert eb => some (if eb = nullEb then d else d.accept t eb)
    | .listRemove => some (if (listRemove w.wifiTx).1 = nullEb then d else d.remove (listRemove w.wifiTx).1)
    | .listClear => (listClear w.dropOnClear ans.num w.wifiTx).map fun cleared => d.recycle cleared.1
    | .net80211EnTxdq eb | .espSipRecycle eb => some (d.dispose eb)
    | _ => some d
  moves d d' := d' = d

theorem ledgerSlave_insert (t : Option ι) (task : Task) (w : World) (eb : EbPtr) (ans : Ans) (d : Ledger ι) :
    (ledgerSlave t).answers task w (.listInsert eb) ans d = some (if eb = nullEb then d else d.accept t eb) := rfl

theorem ledgerSlave_headInsert (t : Option ι) (task : Task) (w : World) (eb : EbPtr) (ans : Ans) (d : Ledger ι) :
    (ledgerSlave t).answers task w (.listHeadInsert eb) ans d = some (if eb = nullEb then d else d.accept t eb) := rfl

theorem ledgerSlave_remove (t : Option ι) (task : Task) (w : World) (ans : Ans) (d : Ledger ι) :
    (ledgerSlave t).answers task w .listRemove ans d =
      some (if (listRemove w.wifiTx).1 = nullEb then d else d.remove (listRemove w.wifiTx).1) := rfl

abbrev State (ι : Type) := World × Ledger ι
abbrev Config (ι : Type) := Interleaving.Config signature (Option ι) Label (State ι)

def transmitting (cfg : Build) : Machine signature (Option ι) Label (State ι) := transmitPath cfg ledgerSlave

-- An iteration of `wifi_send_task` is over at the head of the next one and when
-- the task has returned.
def iterationOver : Label → Bool
  | .wifiSendTask | .wifiSendLoop _ _ | .returned => true
  | _ => false

-- Every buffer accepted is in exactly one place, and what `wifi_send_task` has
-- removed has been disposed of when its iteration ends.
structure Placed (c : Config ι) : Prop where
  places : ∃ xs, Represents c.shared.1.wifiTx xs ∧ (xs ++ c.shared.2.held).Nodup ∧
    c.shared.2.accepted.Perm (xs ++ c.shared.2.held ++ c.shared.2.disposed)
  ended : ∀ l, c.running none = .pure l → iterationOver l = true → c.shared.2.held = []

-- `esp_extconn_sdio_send_packet` does not fail in `wifi_send_task`.
def sending (t : Option ι) (o : Op) (_ : State ι) (r : o.Answer) : Prop :=
  match t,o,r with
  | none,.sdmmcIoWrite _ _ _ _ _,r => r = EspErr.ok
  | _,_,_ => True

structure Booked (s : State ι) (xs : List EbPtr) : Prop where
  represents : Represents s.1.wifiTx xs
  nodup : (xs ++ s.2.held).Nodup
  proper : nullEb ∉ s.2.held
  conserved : s.2.accepted.Perm (xs ++ s.2.held ++ s.2.disposed)
  out : ∀ eb ∈ xs ++ s.2.held, s.2.out eb = true
  given : ∀ t, s.2.given t ≠ nullEb → s.2.out (s.2.given t) = true ∧ s.2.given t ∉ xs ++ s.2.held
  sole : ∀ t u, s.2.given t = s.2.given u → s.2.given t ≠ nullEb → t = u

def Inv (s : State ι) : Prop := ∃ xs, Booked s xs

omit [DecidableEq ι] in
theorem booked_same {s s' : State ι} (booked : Booked s xs) (list : s'.1.wifiTx = s.1.wifiTx) (ledger : s'.2 = s.2) :
    Booked s' xs := by
  obtain ⟨represents,nodup,proper,conserved,out,given,sole⟩ := booked
  exact ⟨by rw [list]; exact represents,by rw [ledger]; exact nodup,by rw [ledger]; exact proper,by rw [ledger]; exact conserved,
    by rw [ledger]; exact out,by rw [ledger]; exact given,by rw [ledger]; exact sole⟩

-- One lemma for each way in which a buffer changes hands.
theorem booked_give {s s' : State ι} (booked : Booked s xs) (list : s'.1.wifiTx = s.1.wifiTx) (fresh : s.2.out eb = false)
    (ledger : s'.2 = s.2.give t eb) : Booked s' xs := by
  obtain ⟨represents,nodup,proper,conserved,out,given,sole⟩ := booked
  have other : ∀ x, s.2.out x = true → x ≠ eb := by
    rintro x known rfl
    rw [fresh] at known
    cases known
  have foreign : ∀ u, s.2.given u = eb → eb = nullEb := by
    intro u here
    by_contra nonnull
    exact other _ (given u (here ▸ nonnull)).1 here
  refine ⟨by rw [list]; exact represents,by rw [ledger]; exact nodup,by rw [ledger]; exact proper,by rw [ledger]; exact conserved,?_,?_,?_⟩
  · rw [ledger]
    intro x member
    have known := out x member
    simp only [Ledger.give]
    rw [Function.update_of_ne (other x known)]
    exact known
  · rw [ledger]
    intro u nonnull
    simp only [Ledger.give] at nonnull ⊢
    by_cases same : u = t
    · subst u
      rw [Function.update_self,Function.update_self]
      exact ⟨rfl,fun member => other eb (out eb member) rfl⟩
    · rw [Function.update_of_ne same] at nonnull ⊢
      obtain ⟨known,apart⟩ := given u nonnull
      exact ⟨by rw [Function.update_of_ne (other _ known)]; exact known,apart⟩
  · rw [ledger]
    intro u v same nonnull
    simp only [Ledger.give] at same nonnull
    by_cases isU : u = t
    · by_cases isV : v = t
      · rw [isU,isV]
      · subst u
        rw [Function.update_self] at same nonnull
        rw [Function.update_of_ne isV] at same
        exact absurd (foreign v same.symm) nonnull
    · rw [Function.update_of_ne isU] at same nonnull
      by_cases isV : v = t
      · subst v
        rw [Function.update_self] at same
        exact absurd (same.trans (foreign u same)) nonnull
      · rw [Function.update_of_ne isV] at same
        exact sole u v same nonnull

theorem booked_accept {s s' : State ι} (booked : Booked s xs) (owned : s.2.given t = eb) (nonnull : eb ≠ nullEb)
    (list : Represents s'.1.wifiTx xs') (longer : xs'.Perm (eb :: xs)) (ledger : s'.2 = s.2.accept t eb) : Booked s' xs' := by
  obtain ⟨represents,nodup,proper,conserved,out,given,sole⟩ := booked
  obtain ⟨known,apart⟩ := given t (owned ▸ nonnull)
  rw [owned] at known apart
  have moved : (xs' ++ s.2.held).Perm (eb :: (xs ++ s.2.held)) := longer.append_right _
  refine ⟨list,?_,by rw [ledger]; exact proper,?_,?_,?_,?_⟩
  · rw [ledger]
    exact moved.nodup_iff.mpr (List.nodup_cons.mpr ⟨apart,nodup⟩)
  · rw [ledger]
    exact ((conserved.cons eb).trans (moved.symm.append_right s.2.disposed))
  · rw [ledger]
    intro x member
    rcases List.mem_cons.mp (moved.mem_iff.mp member) with rfl | before
    · exact known
    · exact out x before
  · rw [ledger]
    intro u some
    simp only [Ledger.accept] at some ⊢
    by_cases same : u = t
    · rw [same,Function.update_self] at some
      exact absurd rfl some
    · rw [Function.update_of_ne same] at some ⊢
      obtain ⟨knownU,apartU⟩ := given u some
      refine ⟨knownU,fun member => ?_⟩
      rcases List.mem_cons.mp (moved.mem_iff.mp member) with here | before
      · exact same (sole u t (here.trans owned.symm) some)
      · exact apartU before
  · rw [ledger]
    intro u v same some
    simp only [Ledger.accept] at same some
    by_cases isU : u = t
    · rw [isU,Function.update_self] at some
      exact absurd rfl some
    · rw [Function.update_of_ne isU] at same some
      by_cases isV : v = t
      · rw [isV,Function.update_self] at same
        exact absurd same some
      · rw [Function.update_of_ne isV] at same
        exact sole u v same some

omit [DecidableEq ι] in
theorem booked_remove {s s' : State ι} (booked : Booked s (x :: rest)) (nonnull : x ≠ nullEb)
    (list : Represents s'.1.wifiTx rest) (ledger : s'.2 = s.2.remove x) : Booked s' rest := by
  obtain ⟨represents,nodup,proper,conserved,out,given,sole⟩ := booked
  have moved : (rest ++ x :: s.2.held).Perm ((x :: rest) ++ s.2.held) := List.perm_middle
  refine ⟨list,?_,?_,?_,?_,?_,?_⟩
  · rw [ledger]
    exact moved.nodup_iff.mpr nodup
  · rw [ledger]
    intro member
    rcases List.mem_cons.mp member with here | before
    · exact nonnull here.symm
    · exact proper before
  · rw [ledger]
    exact conserved.trans (moved.symm.append_right s.2.disposed)
  · rw [ledger]
    exact fun eb member => out eb (moved.mem_iff.mp member)
  · rw [ledger]
    exact fun u some => ⟨(given u some).1,fun member => (given u some).2 (moved.mem_iff.mp member)⟩
  · rw [ledger]
    exact sole

omit [DecidableEq ι] in
theorem booked_clear {s s' : State ι} (drop : EbPtr → Bool) (booked : Booked s xs)
    (list : Represents s'.1.wifiTx (xs.filter fun eb => !drop eb)) (ledger : s'.2 = s.2.recycle (xs.filter drop)) :
    Booked s' (xs.filter fun eb => !drop eb) := by
  obtain ⟨represents,nodup,proper,conserved,out,given,sole⟩ := booked
  have inside : ∀ x ∈ (xs.filter fun eb => !drop eb) ++ s.2.held, x ∈ xs ++ s.2.held := by
    intro x member
    rcases List.mem_append.mp member with kept | held
    · exact List.mem_append_left _ (List.mem_filter.mp kept).1
    · exact List.mem_append_right _ held
  have spared : ∀ x ∈ (xs.filter fun eb => !drop eb) ++ s.2.held, x ∉ xs.filter drop := by
    intro x member dropped
    obtain ⟨listed,drops⟩ := List.mem_filter.mp dropped
    rcases List.mem_append.mp member with kept | held
    · have keeps := (List.mem_filter.mp kept).2
      rw [drops] at keeps
      cases keeps
    · exact (List.nodup_append.mp nodup).2.2 x listed x held rfl
  refine ⟨list,?_,by rw [ledger]; exact proper,?_,?_,?_,by rw [ledger]; exact sole⟩
  · rw [ledger]
    exact nodup.sublist (List.filter_sublist.append_right s.2.held)
  · rw [ledger]
    have parts : (xs.filter drop ++ xs.filter fun eb => !drop eb).Perm xs := List.filter_append_perm drop xs
    refine conserved.trans ?_
    simp only [Ledger.recycle,List.append_assoc]
    calc xs ++ (s.2.held ++ s.2.disposed)
      _ |>.Perm ((xs.filter drop ++ xs.filter fun eb => !drop eb) ++ (s.2.held ++ s.2.disposed)) := parts.symm.append_right _
      _ = xs.filter drop ++ (((xs.filter fun eb => !drop eb) ++ s.2.held) ++ s.2.disposed) := by simp
      _ |>.Perm (((xs.filter fun eb => !drop eb) ++ s.2.held) ++ (xs.filter drop ++ s.2.disposed)) := List.perm_append_comm_assoc ..
      _ = _ := List.append_assoc ..
  · rw [ledger]
    intro x member
    simp only [Ledger.recycle,out x (inside x member),spared x member,decide_false,Bool.not_false,Bool.and_self]
  · rw [ledger]
    intro u some
    obtain ⟨known,apart⟩ := given u some
    refine ⟨?_,fun member => apart (inside _ member)⟩
    have foreign : s.2.given u ∉ xs.filter drop := fun member => apart (List.mem_append_left _ (List.mem_filter.mp member).1)
    simp only [Ledger.recycle,known,foreign,decide_false,Bool.not_false,Bool.and_self]

omit [DecidableEq ι] in
theorem booked_dispose {s s' : State ι} (booked : Booked s xs) (holds : eb ∈ s.2.held) (list : s'.1.wifiTx = s.1.wifiTx)
    (ledger : s'.2 = s.2.dispose eb) : Booked s' xs := by
  obtain ⟨represents,nodup,proper,conserved,out,given,sole⟩ := booked
  have whole : s.2.held.Perm (eb :: s.2.held.erase eb) := List.perm_cons_erase holds
  have moved : (xs ++ s.2.held).Perm (eb :: (xs ++ s.2.held.erase eb)) :=
    (whole.append_left xs).trans List.perm_middle
  obtain ⟨gone,rest⟩ := List.nodup_cons.mp (moved.nodup_iff.mp nodup)
  have inside : ∀ x ∈ xs ++ s.2.held.erase eb, x ∈ xs ++ s.2.held := fun x member =>
    moved.mem_iff.mpr (List.mem_cons_of_mem eb member)
  refine ⟨by rw [list]; exact represents,?_,?_,?_,?_,?_,by rw [ledger]; exact sole⟩
  · rw [ledger]
    exact rest
  · rw [ledger]
    exact fun member => proper (List.mem_of_mem_erase member)
  · rw [ledger]
    refine conserved.trans ((moved.append_right s.2.disposed).trans ?_)
    exact List.perm_middle.symm
  · rw [ledger]
    intro x member
    have other : x ≠ eb := fun same => gone (same ▸ member)
    simp only [Ledger.dispose,Function.update_of_ne other]
    exact out x (inside x member)
  · rw [ledger]
    intro u some
    obtain ⟨known,apart⟩ := given u some
    have other : s.2.given u ≠ eb := fun same => apart (same ▸ List.mem_append_right _ holds)
    refine ⟨?_,fun member => apart (inside _ member)⟩
    simp only [Ledger.dispose,Function.update_of_ne other]
    exact known

-- What a thread does to the others, and what it has to reckon with.
structure Moves (t : Option ι) (s s' : State ι) : Prop where
  kept : Inv s → Inv s'
  given : ∀ u, u ≠ t → s'.2.given u = s.2.given u
  held : t ≠ none → s'.2.held = s.2.held

structure Beside (t : Option ι) (s s' : State ι) : Prop where
  kept : Inv s → Inv s'
  given : s'.2.given t = s.2.given t
  held : t = none → s'.2.held = s.2.held

omit [DecidableEq ι] in
theorem Moves.beside {t u : Option ι} {s s' : State ι} (moves : Moves t s s') (other : t ≠ u) : Beside u s s' :=
  ⟨moves.kept,moves.given u other.symm,fun none => moves.held fun same => other (same.trans none.symm)⟩

-- A thread with buffer `eb` to insert, or, for `wifi_send_task`, with `hs` in its
-- hands.
structure At (t : Option ι) (eb : EbPtr) (hs : List EbPtr) (s : State ι) : Prop where
  inv : Inv s
  given : s.2.given t = eb
  held : t = none → s.2.held = hs

omit [DecidableEq ι] in
theorem at_stable {t : Option ι} (s s' : State ι) (here : At t eb hs s) (moved : Beside t s s') : At t eb hs s' :=
  ⟨moved.kept here.inv,moved.given.trans here.given,fun none => (moved.held none).trans (here.held none)⟩

def contract (cfg : Build) (t : Option ι) : Contract signature (State ι) where
  act := ((transmitting cfg).when sending).act t
  rely := Beside t
  guar := Moves t
  safe _ _ := True

-- Operations by which no buffer changes hands.
def calm : Op → Bool
  | .wifiStackCall | .esfBufAlloc _ _ | .net80211EnTxdq _ | .espSipRecycle _ => false
  | o => !movesList o

theorem calm_act {t : Option ι} {o : Op} {r : o.Answer} {s s' : State ι} (still : calm o = true)
    (acted : (ledgerSlave t).act (roleOf t) o s r s') : s'.1.wifiTx = s.1.wifiTx ∧ s'.2 = s.2 := by
  obtain ⟨ans,ran,answered⟩ := act_iff.mp acted
  cases o
  case wifiStackCall => cases still
  case esfBufAlloc => cases still
  case net80211EnTxdq => cases still
  case espSipRecycle => cases still
  case listInsert => cases still
  case listHeadInsert => cases still
  case listRemove => cases still
  case listClear => cases still
  all_goals exact ⟨list_kept rfl ran,(Option.some.inj answered).symm⟩

theorem calm_keeps (cfg : Build) {t : Option ι} {o : Op} (still : calm o = true) : KeepsOp (contract cfg t) (At t eb hs) o := by
  intro s here
  refine ⟨trivial,fun r s' acted => ?_⟩
  obtain ⟨list,ledger⟩ := calm_act still acted.1
  have moves : Moves t s s' := by
    refine ⟨fun ⟨xs,booked⟩ => ⟨xs,booked_same booked list ledger⟩,?_,?_⟩
    · rw [ledger]; exact fun _ _ => rfl
    · rw [ledger]; exact fun _ => rfl
  exact ⟨moves,moves.kept here.inv,by rw [ledger]; exact here.given,by rw [ledger]; exact here.held⟩

theorem calm_op {cfg : Build} {t : Option ι} {o : Op} {next : o.Answer → Code α} {after : State ι → Prop}
    (still : calm o = true) (rest : ∀ r, Leads (contract cfg t) (At t eb hs) after (next r)) :
    Leads (contract cfg t) (At t eb hs) after (Prog.op o next : Code α) :=
  leads_op at_stable (calm_keeps _ still) rest

-- A call hands a buffer to the caller's thread, as does an allocation.
theorem hand_act {i : ι} {s s' : State ι} {eb : EbPtr} (here : At (some i) nullEb hs s) (list : s'.1.wifiTx = s.1.wifiTx)
    (ledger : s.2.hand (some i) eb = some s'.2) : Moves (some i) s s' ∧ At (some i) eb hs s' := by
  unfold Ledger.hand at ledger
  split at ledger
  · rename_i null
    have same : s'.2 = s.2 := (Option.some.inj ledger).symm
    have moves : Moves (some i) s s' := by
      refine ⟨fun ⟨xs,booked⟩ => ⟨xs,booked_same booked list same⟩,?_,?_⟩
      · rw [same]; exact fun _ _ => rfl
      · rw [same]; exact fun _ => rfl
    exact ⟨moves,moves.kept here.inv,by rw [same,null]; exact here.given,nofun⟩
  · split at ledger
    · cases ledger
    · rename_i fresh
      have given : s'.2 = s.2.give (some i) eb := (Option.some.inj ledger).symm
      have moves : Moves (some i) s s' := by
        refine ⟨fun ⟨xs,booked⟩ => ⟨xs,booked_give booked list (by simpa using fresh) given⟩,?_,?_⟩
        · rw [given]; exact fun u other => Function.update_of_ne other ..
        · rw [given]; exact fun _ => rfl
      exact ⟨moves,moves.kept here.inv,by rw [given]; exact Function.update_self ..,nofun⟩

theorem alloc_act {i : ι} {type : UInt8} {len : UInt16} {s s' : State ι} {eb : EbPtr} (here : At (some i) nullEb hs s)
    (acted : (ledgerSlave (some i)).act .wifiStack (.esfBufAlloc type len) s eb s') :
    Moves (some i) s s' ∧ At (some i) eb hs s' := by
  obtain ⟨ans,ran,answered⟩ := act_iff.mp acted
  have returned : ans.num = eb := by
    simp only [World.exec] at ran
    split at ran
    · rename_i null
      exact null.trans (congrArg Prod.fst (Option.some.inj ran))
    · exact congrArg Prod.fst (Option.some.inj ran)
  exact hand_act here (list_kept rfl ran) (returned ▸ answered)

theorem call_act {i : ι} {s s' : State ι} {call : StackCall} (here : At (some i) nullEb hs s)
    (acted : (ledgerSlave (some i)).act .wifiStack .wifiStackCall s call s') :
    Moves (some i) s s' ∧ At (some i) (handedIn call) hs s' := by
  obtain ⟨ans,ran,answered⟩ := act_iff.mp acted
  have returned : ans.call = call := congrArg Prod.fst (Option.some.inj ran)
  exact hand_act here (list_kept rfl ran) (returned ▸ answered)

-- Inserting the buffer that was handed in, at either end.
theorem accept_act {i : ι} {s s' : State ι} {eb : EbPtr} (here : At (some i) eb hs s) (nonnull : eb ≠ nullEb)
    (list : ∀ xs, Represents s.1.wifiTx xs → eb ∉ xs → ∃ xs', Represents s'.1.wifiTx xs' ∧ xs'.Perm (eb :: xs))
    (ledger : s'.2 = s.2.accept (some i) eb) : Moves (some i) s s' ∧ At (some i) nullEb hs s' := by
  have moves : Moves (some i) s s' := by
    refine ⟨fun ⟨xs,booked⟩ => ?_,?_,?_⟩
    · have apart : eb ∉ xs := by
        have given := (booked.given (some i) (by rw [here.given]; exact nonnull)).2
        rw [here.given] at given
        exact fun member => given (List.mem_append_left _ member)
      obtain ⟨xs',after,longer⟩ := list xs booked.represents apart
      exact ⟨xs',booked_accept booked here.given nonnull after longer ledger⟩
    · rw [ledger]; exact fun u other => Function.update_of_ne other ..
    · rw [ledger]; exact fun _ => rfl
  exact ⟨moves,moves.kept here.inv,by rw [ledger]; exact Function.update_self ..,nofun⟩

theorem insert_leads {cfg : Build} {i : ι} {eb : EbPtr} (nonnull : eb ≠ nullEb) :
    LeadsOp (contract cfg (some i)) (At (some i) eb hs) (At (some i) nullEb hs) (.listInsert eb) := by
  intro s here
  refine ⟨trivial,fun r s' acted => ?_⟩
  obtain ⟨ans,ran,answered⟩ := act_iff.mp acted.1
  simp only [World.exec,Option.some.injEq,Prod.mk.injEq] at ran
  refine accept_act here nonnull (fun xs valid apart => ?_) ?_
  · exact ⟨_,by rw [← ran.2]; exact (insert_represents valid nonnull apart).2,List.perm_append_singleton eb xs⟩
  · rw [ledgerSlave_insert,if_neg nonnull] at answered
    exact (Option.some.inj answered).symm

theorem headInsert_leads {cfg : Build} {i : ι} {eb : EbPtr} (nonnull : eb ≠ nullEb) :
    LeadsOp (contract cfg (some i)) (At (some i) eb hs) (At (some i) nullEb hs) (.listHeadInsert eb) := by
  intro s here
  refine ⟨trivial,fun r s' acted => ?_⟩
  obtain ⟨ans,ran,answered⟩ := act_iff.mp acted.1
  simp only [World.exec,Option.some.injEq,Prod.mk.injEq] at ran
  refine accept_act here nonnull (fun xs valid apart => ?_) ?_
  · exact ⟨_,by rw [← ran.2]; exact (headInsert_represents valid nonnull apart).2,.refl _⟩
  · rw [ledgerSlave_headInsert,if_neg nonnull] at answered
    exact (Option.some.inj answered).symm

theorem clear_keeps {cfg : Build} {i : ι} {eb : EbPtr} :
    KeepsOp (contract cfg (some i)) (At (some i) eb hs) .listClear := by
  intro s here
  refine ⟨trivial,fun r s' acted => ?_⟩
  obtain ⟨ans,ran,answered⟩ := act_iff.mp acted.1
  obtain ⟨⟨recycled,q⟩,cleared,same⟩ := Option.map_eq_some_iff.mp ran
  obtain ⟨⟨recycled',q'⟩,cleared',ledger⟩ := Option.map_eq_some_iff.mp answered
  rw [cleared] at cleared'
  cases cleared'
  have list : s'.1.wifiTx = q := by rw [← (Prod.mk.inj same).2]
  have moves : Moves (some i) s s' := by
    refine ⟨fun ⟨xs,booked⟩ => ⟨xs.filter fun x => !s.1.dropOnClear x,?_⟩,?_,?_⟩
    · obtain ⟨reply,after,_⟩ := code_refines (c := .clear s.1.dropOnClear) booked.represents trivial (.clear cleared)
      obtain rfl : recycled = xs.filter s.1.dropOnClear := Reply.recycled.inj reply
      exact booked_clear s.1.dropOnClear booked (by rw [list]; exact after) ledger.symm
    · rw [← ledger]; exact fun _ _ => rfl
    · rw [← ledger]; exact fun _ => rfl
  exact ⟨moves,moves.kept here.inv,by rw [← ledger]; exact here.given,nofun⟩

-- The transmit task: what it removes it holds until it disposes of it.
theorem remove_act {s s' : State ι} {eb : EbPtr} (here : At none g [] s)
    (acted : (ledgerSlave (none : Option ι)).act .wifiSend .listRemove s eb s') :
    Moves none s s' ∧ At none g (if eb = nullEb then [] else [eb]) s' := by
  obtain ⟨ans,ran,answered⟩ := act_iff.mp acted
  simp only [World.exec,Option.some.injEq,Prod.mk.injEq] at ran
  obtain ⟨removed,list⟩ := ran
  simp only [ledgerSlave_remove,removed,Option.some.injEq] at answered
  have held := here.held rfl
  have kept : Inv s → Inv s' := by
    rintro ⟨xs,booked⟩
    obtain ⟨first,after,_⟩ := remove_represents booked.represents
    have after' : Represents s'.1.wifiTx xs.tail := by rw [← list]; exact after
    by_cases null : eb = nullEb
    · rw [if_pos null] at answered
      cases xs with
      | nil => exact ⟨[],after',by rw [← answered]; exact booked.nodup,by rw [← answered]; exact booked.proper,
          by rw [← answered]; exact booked.conserved,by rw [← answered]; exact booked.out,by rw [← answered]; exact booked.given,
          by rw [← answered]; exact booked.sole⟩
      | cons x rest => exact absurd (first.symm.trans (removed.trans null)) booked.represents.chain.2.1
    · rw [if_neg null] at answered
      cases xs with
      | nil => exact absurd (removed.symm.trans first) null
      | cons x rest =>
          obtain rfl : eb = x := removed.symm.trans first
          exact ⟨rest,booked_remove booked null after' answered.symm⟩
  have moves : Moves none s s' := by
    refine ⟨kept,fun u _ => ?_,fun some => absurd rfl some⟩
    rw [← answered]
    split <;> rfl
  refine ⟨moves,kept here.inv,?_,fun _ => ?_⟩
  · rw [← answered,← here.given]
    split <;> rfl
  · rw [← answered]
    split
    · exact held
    · exact congrArg (eb :: ·) held

theorem dispose_leads {cfg : Build} {eb : EbPtr} {o : Op} (disposes : o = .net80211EnTxdq eb ∨ o = .espSipRecycle eb) :
    LeadsOp (contract cfg (none : Option ι)) (At none g [eb]) (At none g []) o := by
  intro s here
  refine ⟨trivial,fun r s' acted => ?_⟩
  obtain ⟨ans,ran,answered⟩ := act_iff.mp acted.1
  have facts : s'.1.wifiTx = s.1.wifiTx ∧ s'.2 = s.2.dispose eb := by
    rcases disposes with rfl | rfl
    all_goals exact ⟨list_kept rfl ran,(Option.some.inj answered).symm⟩
  obtain ⟨list,ledger⟩ := facts
  have held := here.held rfl
  have moves : Moves none s s' := by
    refine ⟨fun ⟨xs,booked⟩ => ⟨xs,booked_dispose booked (by rw [held]; exact List.mem_singleton.mpr rfl) list ledger⟩,?_,?_⟩
    · rw [ledger]; exact fun _ _ => rfl
    · exact fun some => absurd rfl some
  refine ⟨moves,moves.kept here.inv,by rw [ledger]; exact here.given,fun _ => ?_⟩
  rw [ledger,Ledger.dispose,held]
  exact List.erase_cons_head ..

theorem all_keeps {cfg : Build} {t : Option ι} {p : Code α} (all : p.All fun o => calm o = true) :
    Keeps (contract cfg t) (At t eb hs) p :=
  (all.mono fun _ still => calm_keeps _ still).keeps at_stable

-- The callers of the entry points.
theorem clearStale_keeps (cfg : Build) (cid : UInt32) (cmd : Option ByteMemory.Ptr) (i : ι) :
    Keeps (contract cfg (some i)) (At (some i) eb hs) (wifiClearStale cid cmd) := by
  have set : (loadSet cmd).All fun o => calm o = true := by
    cases cmd with
    | none => exact ⟨rfl,fun _ => trivial⟩
    | some p => exact ⟨rfl,fun _ => trivial⟩
  unfold wifiClearStale
  refine Leads.ite ((all_keeps set).bind fun bytes => Leads.ite ?_ (keeps_pure _)) (keeps_pure _)
  exact leads_op at_stable clear_keeps fun _ => keeps_pure _

theorem sendCmd_keeps (cfg : Build) (cid cmdlen : UInt32) (cmd : Option ByteMemory.Ptr) (i : ι) :
    Keeps (contract cfg (some i)) (At (some i) nullEb hs) (wifiSendCmd cid cmdlen cmd) := by
  have copy : ∀ shdr, (wifiCopyCmd shdr cmdlen cmd).All fun o => calm o = true := by
    intro shdr
    cases cmd with
    | none => trivial
    | some p => exact ⟨rfl,fun _ => ⟨rfl,fun _ => trivial⟩⟩
  have inserted : ∀ eb, eb ≠ nullEb → Leads (contract cfg (some i)) (At (some i) eb hs) (At (some i) nullEb hs)
      (if cid = sipCmdTest then .op (.listHeadInsert eb) .pure else .op (.listInsert eb) .pure : Code EspErr) := by
    intro eb nonnull
    refine Leads.ite (leads_op at_stable (headInsert_leads nonnull) fun _ => keeps_pure _) ?_
    exact leads_op at_stable (insert_leads nonnull) fun _ => keeps_pure _
  unfold wifiSendCmd sipHdrSetType sipHdrSetLen sipHdrSetCmdid
  simp only [Prog.bind_def,issue_bind,Prog.op_bind,Prog.pure_def]
  intro s here s₁ moved
  refine ⟨trivial,fun eb s₂ acted => ?_⟩
  obtain ⟨moves,held⟩ := alloc_act (at_stable s s₁ here moved) acted.1
  refine ⟨moves,wp_ite (fun null => null ▸ held) fun nonnull => ?_⟩
  refine (?_ : Leads (contract cfg (some i)) (At (some i) eb hs) (At (some i) nullEb hs) _) s₂ held
  refine calm_op rfl fun b => calm_op rfl fun _ => calm_op rfl fun _ => calm_op rfl fun _ => calm_op rfl fun _ => ?_
  refine calm_op rfl fun _ => (all_keeps (copy _)).bind fun _ => (clearStale_keeps cfg cid cmd i).bind fun _ => ?_
  exact inserted eb nonnull

theorem sendData_leads (cfg : Build) (eb : EbPtr) (i : ι) :
    Leads (contract cfg (some i)) (At (some i) eb hs) (At (some i) nullEb hs) (wifiSendData eb) := by
  unfold wifiSendData
  intro s here
  refine wp_ite (fun null => null ▸ here) fun nonnull => ?_
  exact leads_op at_stable (insert_leads nonnull) (fun _ => keeps_pure _) s here

theorem wifiStack_keeps (cfg : Build) (i : ι) :
    Leads (contract cfg (some i)) (At (some i) nullEb hs) (At (some i) nullEb hs) wifiStack := by
  intro s here s₁ moved
  refine ⟨trivial,fun call s₂ acted => ?_⟩
  obtain ⟨moves,held⟩ := call_act (at_stable s s₁ here moved) acted.1
  refine ⟨moves,?_⟩
  cases call with
  | cmd cid cmdlen cmd => exact (((sendCmd_keeps cfg cid cmdlen cmd i).bind fun _ => keeps_pure _).bind fun _ => keeps_pure _) s₂ held
  | data eb => exact (((sendData_leads cfg eb i).bind fun _ => keeps_pure _).bind fun _ => keeps_pure _) s₂ held

-- The transmit task, label by label.
def entryOf : Option ι → Label → State ι → Prop
  | some i,.wifiStack => At (some i) nullEb []
  | none,.wifiSendTask | none,.wifiSendLoop _ _ | none,.returned => At none nullEb []
  | none,.wifiSendPoll l => At none nullEb [l.eb]
  | none,.aborted => fun s => ∃ hs, At none nullEb hs s
  | _,_ => fun _ => False

theorem sendTask_entered (cfg : Build) {s : State ι} (here : At none nullEb [] s) :
    wp (contract cfg none) wifiSendTask (entryOf none) s := by
  intro s₁ moved
  have here₁ := at_stable s s₁ here moved
  refine ⟨trivial,fun sendBuf s₂ acted => ?_⟩
  obtain ⟨moves,here₂⟩ := (calm_keeps cfg rfl s₁ here₁).2 sendBuf s₂ acted
  refine ⟨moves,?_⟩
  cases sendBuf with
  | none => exact here₂
  | some sendBuf =>
      intro s₃ moved₃
      exact ⟨trivial,fun _ s₄ acted => (calm_keeps cfg rfl s₃ (at_stable s₂ s₃ here₂ moved₃)).2 _ s₄ acted⟩

theorem sendLoop_entered (cfg : Build) (sendBuf : ByteMemory.Ptr) (actualSize : UInt32) {s : State ι} (here : At none nullEb [] s) :
    wp (contract cfg none) (wifiSendLoop sendBuf actualSize) (entryOf none) s := by
  have build : ∀ eb, (wifiBuildPacket sendBuf eb).All fun o => calm o = true :=
    fun eb => wifiBuildPacket_all (P := fun o => calm o = true) rfl (fun _ => rfl) (fun _ _ => rfl) (fun _ _ => rfl) _ _
  unfold wifiSendLoop
  simp only [Prog.bind_def,issue_bind,Prog.pure_def]
  intro s₁ moved
  have here₁ := at_stable s s₁ here moved
  refine ⟨trivial,fun _ s₂ acted => ?_⟩
  obtain ⟨moves,here₂⟩ := (calm_keeps cfg rfl s₁ here₁).2 _ s₂ acted
  refine ⟨moves,fun s₃ moved => ⟨trivial,fun eb s₄ acted => ?_⟩⟩
  obtain ⟨moves,held⟩ := remove_act (at_stable s₂ s₃ here₂ moved) acted.1
  refine ⟨moves,wp_ite (fun null => ?_) fun nonnull => ?_⟩
  · rw [if_pos null] at held
    exact held
  · rw [if_neg nonnull] at held
    rw [wp_bind]
    refine wp_mono (all_keeps (build eb) s₄ held) fun sendLen s held => ?_
    exact wp_ite (fun _ => ⟨[eb],held⟩) fun _ => held

-- After the packet has gone out the buffer is passed on in one of two ways.
def passOn (l : WifiLocals) : Code Label :=
  .op (.isTxCallback l.eb) fun back =>
    if back = true then
      .op (.net80211EnTxdq l.eb) fun _ => .op .espSipTxdPost fun _ => .pure (.wifiSendLoop l.sendBuf l.actualSize)
    else .op (.espSipRecycle l.eb) fun _ => .pure (.wifiSendLoop l.sendBuf l.actualSize)

theorem sendPacket_entered (cfg : Build) (l : WifiLocals) {s : State ι} (held : At none nullEb [l.eb] s) :
    wp (contract cfg none) (wifiSendPacket l) (entryOf none) s := by
  have send : (espExtconnSdioSendPacket extConnWifiSdioFunc l.sendBuf l.sendLen).All fun o => calm o = true :=
    sendPacket_all (P := fun o => calm o = true) (fun _ _ _ => rfl) (fun _ _ => rfl) rfl (fun _ _ => rfl) _
  have sent : ∀ o s r s', (contract cfg (none : Option ι)).act o s r s' → writes o r := by
    intro o s r s' acted
    cases o <;> exact acted.2
  have kept : ∀ {o : Op}, calm o = true → KeepsOp (contract cfg (none : Option ι)) (At none nullEb [l.eb]) o :=
    fun still => calm_keeps _ still
  have after : ∀ {o : Op}, calm o = true → KeepsOp (contract cfg (none : Option ι)) (At none nullEb []) o :=
    fun still => calm_keeps _ still
  have passedOn : Leads (contract cfg (none : Option ι)) (At none nullEb [l.eb]) (At none nullEb []) (passOn l) := by
    refine leads_op at_stable (kept rfl) fun back => Leads.ite ?_ ?_
    · exact leads_op at_stable (dispose_leads (.inl rfl)) fun _ => leads_op at_stable (after rfl) fun _ => keeps_pure _
    · exact leads_op at_stable (dispose_leads (.inr rfl)) fun _ => keeps_pure _
  have again : (passOn l).Returns (fun next => next = .wifiSendLoop l.sendBuf l.actualSize) :=
    fun _ => Prog.Returns.ite (fun _ _ => rfl) fun _ => rfl
  unfold wifiSendPacket espExtconnSdioLock espExtconnSdioUnlock
  simp only [Prog.bind_def,issue_bind,Prog.op_bind,Prog.pure_bind,Prog.pure_def]
  intro s₁ moved
  refine ⟨trivial,fun _ s₂ acted => ?_⟩
  obtain ⟨moves,held₂⟩ := (kept rfl s₁ (at_stable s s₁ held moved)).2 _ s₂ acted
  refine ⟨moves,?_⟩
  rw [wp_bind]
  refine wp_mono (wp_returnsWhen sent (sendPacket_writes _ _ _) (all_keeps send s₂ held₂)) ?_
  rintro err s₃ ⟨ok,held₃⟩ s₄ moved
  refine ⟨trivial,fun _ s₅ acted => ?_⟩
  obtain ⟨moves,held₅⟩ := (kept rfl s₄ (at_stable s₃ s₄ held₃ moved)).2 _ s₅ acted
  refine ⟨moves,wp_ite (fun failed => absurd ok failed) fun _ => ?_⟩
  refine wp_mono (wp_returns again (passedOn s₅ held₅)) ?_
  rintro next s₆ ⟨rfl,here⟩
  exact here

theorem sendPoll_entered (cfg : Build) (l : WifiLocals) {s : State ι} (held : At none nullEb [l.eb] s) :
    wp (contract cfg none) (wifiSendPoll l) (entryOf none) s := by
  have poll : espExtconnSdioGetBufferSize.All fun o => calm o = true :=
    getBufferSize_all (P := fun o => calm o = true) rfl rfl fun _ => rfl
  have number : (wifiSetSeq l.sendBuf).All fun o => calm o = true :=
    wifiSetSeq_all (P := fun o => calm o = true) rfl (fun _ => rfl) (fun _ _ => rfl) (fun _ _ => rfl) _
  have kept : ∀ {o : Op}, calm o = true → KeepsOp (contract cfg (none : Option ι)) (At none nullEb [l.eb]) o :=
    fun still => calm_keeps _ still
  unfold wifiSendPoll espExtconnSdioLock espExtconnSdioUnlock
  simp only [Prog.bind_def,issue_bind,Prog.op_bind,Prog.pure_bind,Prog.pure_def]
  intro s₁ moved
  refine ⟨trivial,fun _ s₂ acted => ?_⟩
  obtain ⟨moves,held₂⟩ := (kept rfl s₁ (at_stable s s₁ held moved)).2 _ s₂ acted
  refine ⟨moves,?_⟩
  rw [wp_bind]
  refine wp_mono (all_keeps poll s₂ held₂) fun size s₃ held₃ s₄ moved => ?_
  refine ⟨trivial,fun _ s₅ acted => ?_⟩
  obtain ⟨moves,held₅⟩ := (kept rfl s₄ (at_stable s₃ s₄ held₃ moved)).2 _ s₅ acted
  refine ⟨moves,wp_ite (fun _ s₆ moved => ?_) fun _ => ?_⟩
  · exact ⟨trivial,fun _ s₇ acted => (kept rfl s₆ (at_stable s₅ s₆ held₅ moved)).2 _ s₇ acted⟩
  · rw [wp_bind]
    exact wp_mono (all_keeps number s₅ held₅) fun _ s held => sendPacket_entered cfg l held

theorem block_entered (cfg : Build) {t : Option ι} {l : Label} {s : State ι} (here : entryOf t l s) :
    wp (contract cfg t) (block cfg l) (entryOf t) s := by
  cases t with
  | none =>
      cases l <;> first | exact False.elim here | skip
      case wifiSendTask => exact sendTask_entered cfg here
      case wifiSendLoop sendBuf actualSize => exact sendLoop_entered cfg sendBuf actualSize here
      case wifiSendPoll l => exact sendPoll_entered cfg l here
      case returned => exact here
      case aborted => exact here
  | some i =>
      cases l <;> first | exact False.elim here | skip
      case wifiStack =>
        have served : (block cfg .wifiStack).Returns (· = .wifiStack) := by
          intro call
          simp only [Prog.pure_bind]
          exact Prog.Returns.bind fun _ => rfl
        refine wp_mono (wp_returns served (wifiStack_keeps cfg i s here)) ?_
        rintro l s' ⟨rfl,after⟩
        exact after

omit [DecidableEq ι] in
theorem beside_trans {t : Option ι} {a b c : State ι} (one : Beside t a b) (two : Beside t b c) : Beside t a c :=
  ⟨fun inv => two.kept (one.kept inv),two.given.trans one.given,fun none => (two.held none).trans (one.held none)⟩

omit [DecidableEq ι] in
theorem beside_refl (t : Option ι) (s : State ι) : Beside t s s := ⟨id,rfl,fun _ => rfl⟩

omit [DecidableEq ι] in
theorem env_beside {t : Option ι} {s s' : State ι} (list : s'.1.wifiTx = s.1.wifiTx) (ledger : s'.2 = s.2) : Beside t s s' :=
  ⟨fun ⟨xs,booked⟩ => ⟨xs,booked_same booked list ledger⟩,by rw [ledger],fun _ => by rw [ledger]⟩

omit [DecidableEq ι] in
theorem entry_stable {t : Option ι} {l : Label} {a b : State ι} (here : entryOf t l a) (moved : Beside t a b) : entryOf t l b := by
  cases t <;> cases l <;> first | exact False.elim here | exact at_stable a b here moved | skip
  obtain ⟨hs,held⟩ := here
  exact ⟨hs,at_stable a b held moved⟩

def outline (cfg : Build) : Outline ((transmitting cfg : Machine signature (Option ι) Label (State ι)).when sending) where
  rely := Beside
  guar := Moves
  safe _ _ _ := True
  entry := entryOf
  transitive := beside_trans
  compatible other moved := moved.beside other.symm
  surroundings moved := env_beside moved.1 moved.2
  stable := entry_stable
  verified _ _ _ here := block_entered cfg here

-- Every thread at its head, the list empty and no buffer on its way.
structure Fresh (c : Config ι) : Prop where
  send : c.running none = .pure .wifiSendTask
  stack : ∀ i, c.running (some i) = .pure .wifiStack
  empty : Represents c.shared.1.wifiTx []
  given : ∀ t, c.shared.2.given t = nullEb
  accepted : c.shared.2.accepted = []
  held : c.shared.2.held = []
  disposed : c.shared.2.disposed = []

omit [DecidableEq ι] in
theorem fresh_inv {c : Config ι} (fresh : Fresh c) : Inv c.shared := by
  refine ⟨[],fresh.empty,?_,?_,?_,?_,?_,?_⟩
  · rw [fresh.held]
    exact .nil
  · rw [fresh.held]
    exact List.not_mem_nil
  · rw [fresh.accepted,fresh.held,fresh.disposed]
    exact .nil
  · rw [fresh.held]
    exact fun _ member => absurd member List.not_mem_nil
  · exact fun t some => absurd (fresh.given t) some
  · exact fun t _ _ some => absurd (fresh.given t) some

theorem fresh_holds (cfg : Build) {c : Config ι} (fresh : Fresh c) : (outline cfg).Holds c := by
  refine (outline cfg).holds_resting fun t => ?_
  cases t with
  | none => exact ⟨_,fresh.send,fresh_inv fresh,fresh.given none,fun _ => fresh.held⟩
  | some i => exact ⟨_,fresh.stack i,fresh_inv fresh,fresh.given (some i),nofun⟩

omit [DecidableEq ι] in
theorem over_entry {l : Label} {s : State ι} (ended : iterationOver l = true) (here : entryOf none l s) : At none nullEb [] s := by
  cases l <;> first | exact here | cases ended

theorem buffers_placed (cfg : Build) {start c : Config ι} (fresh : Fresh start)
    (path : Reached ((transmitting cfg).when sending) start c) : Placed c := by
  have valid := (outline cfg).reached_holds beside_refl (fresh_holds cfg fresh) path
  have inv : Inv c.shared := (outline cfg).reached_keeps beside_refl (fun _ _ _ inv moved => moved.kept inv)
    (fun _ _ inv moved => (env_beside (t := none) moved.1 moved.2).kept inv) (fresh_holds cfg fresh) (fresh_inv fresh) path
  obtain ⟨xs,booked⟩ := inv
  refine ⟨⟨xs,booked.represents,booked.nodup,booked.conserved⟩,fun l here ended => ?_⟩
  exact (over_entry ended (valid.entry here)).held rfl

-- One caller, nothing queued.
def idle : Config (Fin 1) where
  shared := (World.initial {espSipInit with state := .run,txBlksz := 512},⟨fun _ => false,fun _ => nullEb,[],[],[]⟩)
  running
    | none => .pure .wifiSendTask
    | some _ => .pure .wifiStack

theorem idle_fresh : Fresh idle := by
  refine ⟨rfl,fun _ => rfl,⟨rfl,nofun⟩,fun _ => rfl,rfl,rfl,rfl⟩

-- A buffer is handed in and `wifi_send_task` performs `steps` operations, with
-- credit for one packet.
def sent (steps : Nat) : List ((Option (Fin 1)) × Ans) :=
  List.replicate 3 (some 0,{call := .data 1}) ++ List.replicate steps (none,{data := [0,0,1,0],word := 2048})

def inOrder (t : Option ι) (o : Op) (ans : Ans) (_ : State ι) : Bool :=
  match t,o with
  | none,.sdmmcIoWrite _ _ _ _ _ => ans.err = .ok
  | _,_ => true

theorem inOrder_sending (t : Option ι) (o : Op) (ans : Ans) (s : State ι) (r : o.Answer) (s' : State ι)
    (passed : inOrder t o ans s = true) (ran : (ledgerSlave t).exec (roleOf t) o ans s = some (r,s')) : sending t o s r := by
  have executed := (exec_iff.mp ran).1
  cases t
  case none =>
    cases o
    case sdmmcIoWrite =>
      have fine : ans.err = .ok := of_decide_eq_true passed
      exact (write_answer executed).symm.trans fine
    all_goals trivial
  case some => cases o <;> trivial

theorem idle_placed : ∃ c, Reached ((transmitting ⟨true,true⟩).when sending) idle c ∧ c.shared.2.disposed = [1] ∧ Placed c := by
  have passed : (schedule (block ⟨true,true⟩) (screened (fun t => (ledgerSlave t).exec (roleOf t)) inOrder) (sent 43) idle).any
      (fun c => decide (c.shared.2.disposed = [1])) = true := by decide +kernel
  obtain ⟨c,path,disposed⟩ := schedule_exists (m := (transmitting ⟨true,true⟩).when sending)
    (screened_sound (fun _ _ ans _ _ _ ran => ⟨ans,ran⟩) inOrder_sending) _ passed
  exact ⟨c,path,of_decide_eq_true disposed,buffers_placed ⟨true,true⟩ idle_fresh path⟩

-- When the write fails the task returns with the buffer in its hands.
theorem buffers_not_placed : ¬ ∀ c, Reached (transmitting ⟨true,true⟩) idle c → Placed c := by
  intro all
  have passed : (schedule (block ⟨true,true⟩) (fun t => (ledgerSlave t).exec (roleOf t)) (sent 35 ++ List.replicate 2 (none,{err := .fail})) idle).any
      (fun c => (c.resting none).any iterationOver && decide (c.shared.2.held = [1])) = true := by decide +kernel
  obtain ⟨c,path,failed⟩ := schedule_exists (m := transmitting ⟨true,true⟩) (fun _ _ ans _ _ _ ran => ⟨ans,ran⟩) _ passed
  simp only [Bool.and_eq_true,decide_eq_true_eq] at failed
  obtain ⟨ended,stranded⟩ := failed
  obtain ⟨l,here,last⟩ := (Option.any_eq_true _ _).mp ended
  have empty := (all c path).ended l (resting_iff.mp here) last
  rw [stranded] at empty
  cases empty

end ExtConn.WifiBuffers
