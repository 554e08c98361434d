import ExtConn.LinkedChain
import ExtConn.WifiTxList

namespace ExtConn.TxDeque
open LinkedChain

-- The abstract side: a list of buffers and what each call does to it.
inductive Call where
  | insert (eb : EbPtr)
  | headInsert (eb : EbPtr)
  | remove
  | clear (drop : EbPtr → Bool)
  -- a store to the link of a buffer outside the list, by whoever owns it
  | storeLink (eb value : EbPtr)

inductive Reply where
  | err (e : EspErr)
  | buf (eb : EbPtr)
  | recycled (ebs : List EbPtr)
  | none

def Call.admissible : Call → List EbPtr → Prop
  | .insert eb,xs | .headInsert eb,xs => eb ≠ nullEb ∧ eb ∉ xs
  | .storeLink eb _,xs => eb ∉ xs
  | _,_ => True

def Call.effect : Call → List EbPtr → Reply × List EbPtr
  | .insert eb,xs => (.err .ok,xs ++ [eb])
  | .headInsert eb,xs => (.err .ok,eb :: xs)
  | .remove,xs => (.buf (xs.head?.getD nullEb),xs.tail)
  | .clear drop,xs => (.recycled (xs.filter drop),xs.filter fun eb => !drop eb)
  | .storeLink _ _,xs => (.none,xs)

-- The code. `list_clear` is a loop, and the relation asks for a run that ends.
inductive Code : Call → WifiTx → Reply → WifiTx → Prop where
  | insert : Code (.insert eb) q (.err (listInsert eb q).1) (listInsert eb q).2
  | headInsert : Code (.headInsert eb) q (.err (listHeadInsert eb q).1) (listHeadInsert eb q).2
  | remove : Code .remove q (.buf (listRemove q).1) (listRemove q).2
  | clear : listClear drop fuel q = some (recycled,q') → Code (.clear drop) q (.recycled recycled) q'
  | storeLink : Code (.storeLink eb value) q .none (q.setNext eb value)

-- The tail pointer counts only while there is a last element.
structure Represents (q : WifiTx) (xs : List EbPtr) : Prop where
  chain : Chain nullEb q.next q.txHead xs
  tail : ∀ last, xs.getLast? = some last → q.txTail = last

theorem setNext_next (q : WifiTx) (eb value : EbPtr) : (q.setNext eb value).next = Function.update q.next eb value := rfl

theorem insert_represents (valid : Represents q xs) (proper : eb ≠ nullEb) (fresh : eb ∉ xs) :
    (listInsert eb q).1 = .ok ∧ Represents (listInsert eb q).2 (xs ++ [eb]) := by
  unfold listInsert
  rw [if_neg proper]
  refine ⟨rfl,?_⟩
  rcases List.eq_nil_or_concat xs with rfl | ⟨before,last,split⟩
  · have empty : q.txHead = nullEb := valid.chain
    simp only [if_pos empty]
    refine ⟨Chain.single proper,?_⟩
    intro last same
    exact Option.some.inj same
  · rw [List.concat_eq_append] at split
    subst split
    have nonempty : ¬ q.txHead = nullEb := by
      rw [valid.chain.null_iff]
      simp
    have tail : q.txTail = last := valid.tail last (by simp)
    have different : last ≠ eb := fun same => fresh (by simp [same])
    simp only [if_neg nonempty,tail]
    refine ⟨?_,?_⟩
    · rw [List.append_assoc]
      exact valid.chain.snoc fresh proper
    · intro l same
      simp only [List.getLast?_append,List.getLast?_singleton,Option.some_or,Option.some.injEq] at same
      subst same
      simp [setNext_next,tail,Function.update_of_ne different]

theorem headInsert_represents (valid : Represents q xs) (proper : eb ≠ nullEb) (fresh : eb ∉ xs) :
    (listHeadInsert eb q).1 = .ok ∧ Represents (listHeadInsert eb q).2 (eb :: xs) := by
  unfold listHeadInsert
  rw [if_neg proper]
  refine ⟨rfl,?_⟩
  cases xs with
  | nil =>
      have empty : q.txHead = nullEb := valid.chain
      simp only [if_pos empty]
      refine ⟨Chain.single proper,?_⟩
      intro last same
      exact Option.some.inj same
  | cons x rest =>
      have nonempty : ¬ q.txHead = nullEb := by
        rw [valid.chain.null_iff]
        simp
      simp only [if_neg nonempty]
      refine ⟨valid.chain.cons fresh proper,?_⟩
      intro last same
      exact valid.tail last (by rwa [List.getLast?_cons_cons] at same)

theorem remove_represents (valid : Represents q xs) : (listRemove q).1 = xs.head?.getD nullEb ∧
    Represents (listRemove q).2 xs.tail ∧ ((listRemove q).1 ≠ nullEb → (listRemove q).2.next (listRemove q).1 = nullEb) := by
  cases xs with
  | nil =>
      have empty : q.txHead = nullEb := valid.chain
      simp only [listRemove,empty,ne_eq,not_true_eq_false,if_false,if_true]
      exact ⟨rfl,⟨rfl,fun last same => by cases same⟩,fun wrong => wrong.elim⟩
  | cons x rest =>
      obtain ⟨here,proper,later⟩ := valid.chain
      have nonempty : q.txHead ≠ nullEb := here ▸ proper
      have fresh : x ∉ rest := (List.nodup_cons.mp valid.chain.nodup).1
      simp only [listRemove,if_pos nonempty,if_neg nonempty]
      refine ⟨here,⟨?_,?_⟩,fun _ => Function.update_self ..⟩
      · rw [setNext_next,here]
        exact later.update fresh nullEb
      · intro last same
        refine valid.tail last ?_
        cases rest with
        | nil => cases same
        | cons y rest => rwa [List.getLast?_cons_cons]

-- `list_clear` between two iterations: `ys` is still to be examined, `ks` has
-- been relinked behind `eb_head`, and `rs` has been recycled.
structure Clearing (q : WifiTx) (l : ClearLocals) (rs ks ys : List EbPtr) : Prop where
  rest : Chain nullEb q.next q.txHead ys
  kept : Chain nullEb q.next l.ebHead ks
  last : l.ebEnd = ks.getLast?.getD nullEb
  apart : ∀ x ∈ ks, x ∉ ys
  recycled : l.recycled = rs
  unlinked : ∀ r ∈ rs, q.next r = nullEb ∧ r ∉ ks ∧ r ∉ ys

theorem clear_drops (valid : Clearing q l rs ks (y :: ys)) (dropped : drop y = true) :
    Clearing (listClearBody drop q l).1 (listClearBody drop q l).2 (rs ++ [y]) ks ys := by
  obtain ⟨here,proper,later⟩ := valid.rest
  have fresh : y ∉ ys := (List.nodup_cons.mp valid.rest.nodup).1
  have foreign : y ∉ ks := fun member => valid.apart y member (List.mem_cons_self ..)
  simp only [listClearBody,here,dropped,if_true]
  refine ⟨later.update fresh nullEb,valid.kept.update foreign nullEb,valid.last,?_,by rw [valid.recycled],?_⟩
  · exact fun x member inside => valid.apart x member (List.mem_cons_of_mem y inside)
  · intro r member
    rcases List.mem_append.mp member with before | now
    · obtain ⟨null,notKept,notRest⟩ := valid.unlinked r before
      refine ⟨?_,notKept,fun inside => notRest (List.mem_cons_of_mem y inside)⟩
      rw [setNext_next]
      by_cases same : r = y
      · rw [same,Function.update_self]
      · rw [Function.update_of_ne same]
        exact null
    · obtain rfl := List.mem_singleton.mp now
      exact ⟨Function.update_self ..,foreign,fresh⟩

theorem clear_keeps (valid : Clearing q l rs ks (y :: ys)) (kept : drop y = false) :
    Clearing (listClearBody drop q l).1 (listClearBody drop q l).2 rs (ks ++ [y]) ys := by
  obtain ⟨here,proper,later⟩ := valid.rest
  have fresh : y ∉ ys := (List.nodup_cons.mp valid.rest.nodup).1
  have foreign : y ∉ ks := fun member => valid.apart y member (List.mem_cons_self ..)
  have apart : ∀ x ∈ ks ++ [y], x ∉ ys := by
    intro x member
    rcases List.mem_append.mp member with before | now
    · exact fun inside => valid.apart x before (List.mem_cons_of_mem y inside)
    · rwa [List.mem_singleton.mp now]
  have disjoint : ∀ r ∈ rs, r ∉ ks ++ [y] ∧ r ∉ ys := by
    intro r member
    obtain ⟨_,notKept,notRest⟩ := valid.unlinked r member
    refine ⟨fun inside => ?_,fun inside => notRest (List.mem_cons_of_mem y inside)⟩
    rcases List.mem_append.mp inside with before | now
    · exact notKept before
    · exact notRest (List.mem_singleton.mp now ▸ List.mem_cons_self ..)
  rcases List.eq_nil_or_concat ks with rfl | ⟨before,last,split⟩
  · have first : l.ebEnd = nullEb := valid.last
    simp only [listClearBody,here,kept,first,if_true,Bool.false_eq_true,if_false]
    refine ⟨(later.update fresh nullEb).update fresh nullEb,Chain.single proper,rfl,apart,valid.recycled,?_⟩
    intro r member
    have different : r ≠ y := fun same => (disjoint r member).1 (by simp [same])
    refine ⟨?_,disjoint r member⟩
    simp only [setNext_next,Function.update_of_ne different]
    exact (valid.unlinked r member).1
  · rw [List.concat_eq_append] at split
    subst split
    have ended : l.ebEnd = last := by simp [valid.last]
    have nonnull : ¬ last = nullEb := fun same => valid.kept.proper (by simp [same])
    have away : last ∉ ys := fun inside => valid.apart last (by simp) (List.mem_cons_of_mem y inside)
    simp only [listClearBody,here,kept,ended,if_neg nonnull,Bool.false_eq_true,if_false]
    refine ⟨?_,?_,by simp,apart,valid.recycled,?_⟩
    · exact ((later.update fresh nullEb).update away y).update fresh nullEb
    · rw [List.append_assoc]
      exact (valid.kept.update foreign nullEb).snoc foreign proper
    · intro r member
      have different : r ≠ y := fun same => (disjoint r member).1 (by simp [same])
      have other : r ≠ last := fun same => (disjoint r member).1 (by simp [same])
      refine ⟨?_,disjoint r member⟩
      simp only [setNext_next,Function.update_of_ne different,Function.update_of_ne other]
      exact (valid.unlinked r member).1

theorem clear_step (drop : EbPtr → Bool) (valid : Clearing q l rs ks (y :: ys)) :
    Clearing (listClearBody drop q l).1 (listClearBody drop q l).2 (rs ++ [y].filter drop)
      (ks ++ [y].filter fun eb => !drop eb) ys := by
  cases decided : drop y with
  | true => simpa [decided] using clear_drops valid decided
  | false => simpa [decided] using clear_keeps valid decided

-- The loop ends, after as many iterations as there are buffers to examine.
theorem clearLoop_spec (drop : EbPtr → Bool) (valid : Clearing q l rs ks ys) (enough : ys.length < fuel) :
    ∃ q' l', listClearLoop drop fuel q l = some (q',l') ∧
      Clearing q' l' (rs ++ ys.filter drop) (ks ++ ys.filter fun eb => !drop eb) [] := by
  induction ys generalizing fuel q l rs ks with
  | nil =>
      obtain ⟨fuel,rfl⟩ : ∃ n, fuel = n + 1 := ⟨fuel - 1,by simp at enough; omega⟩
      have empty : q.txHead = nullEb := valid.rest
      refine ⟨q,l,by simp [listClearLoop,empty],?_⟩
      simpa using valid
  | cons y ys ih =>
      obtain ⟨fuel,rfl⟩ : ∃ n, fuel = n + 1 := ⟨fuel - 1,by simp at enough; omega⟩
      simp only [List.length_cons] at enough
      have nonempty : ¬ q.txHead = nullEb := by
        rw [valid.rest.null_iff]
        simp
      have stepped := clear_step drop valid
      have split : ∀ p : EbPtr → Bool, (y :: ys).filter p = [y].filter p ++ ys.filter p :=
        fun p => by rw [← List.filter_append]; rfl
      simp only [split,← List.append_assoc]
      simp only [listClearLoop,if_neg nonempty]
      by_cases last : (listClearBody drop q l).1.txHead = nullEb
      · obtain rfl := stepped.rest.null_iff.mp last
        simp only [if_pos last]
        refine ⟨_,_,rfl,?_⟩
        simp only [List.filter_nil,List.append_nil]
        exact ⟨stepped.rest,stepped.kept,stepped.last,stepped.apart,stepped.recycled,stepped.unlinked⟩
      · simp only [if_neg last]
        exact ih stepped (by omega)

theorem fuel_irrelevant (drop : EbPtr → Bool) (ran : listClearLoop drop fuel q l = some result) (more : fuel ≤ fuel') :
    listClearLoop drop fuel' q l = some result := by
  induction fuel generalizing fuel' q l with
  | zero => cases ran
  | succ fuel ih =>
      obtain ⟨n,rfl⟩ : ∃ n, fuel' = n + 1 := ⟨fuel' - 1,by omega⟩
      simp only [listClearLoop] at ran ⊢
      split
      · rename_i empty
        rwa [if_pos empty] at ran
      · rename_i nonempty
        rw [if_neg nonempty] at ran
        split
        · rename_i last
          rwa [if_pos last] at ran
        · rename_i continues
          rw [if_neg continues] at ran
          exact ih ran (by omega)

theorem clear_ends (drop : EbPtr → Bool) (valid : Represents q xs) (enough : xs.length < fuel) :
    ∃ q', listClear drop fuel q = some (xs.filter drop,q') ∧ Represents q' (xs.filter fun eb => !drop eb) ∧
      ∀ r ∈ xs.filter drop, q'.next r = nullEb := by
  have start : Clearing q {} [] [] xs :=
    ⟨valid.chain,rfl,rfl,by simp,rfl,by simp⟩
  obtain ⟨q',l',ran,finished⟩ := clearLoop_spec drop start enough
  simp only [List.nil_append] at finished
  refine ⟨{q' with txHead := l'.ebHead,txTail := l'.ebEnd},?_,⟨finished.kept,?_⟩,?_⟩
  · simp [listClear,ran,finished.recycled]
  · intro last same
    simp [finished.last,same]
  · exact fun r member => (finished.unlinked r member).1

def Reply.released : Reply → List EbPtr
  | .buf eb => if eb = nullEb then [] else [eb]
  | .recycled ebs => ebs
  | _ => []

def Call.inserted : Call → List EbPtr
  | .insert eb | .headInsert eb => [eb]
  | _ => []

-- One call: it returns, and any way in which it returns is the abstract one.
theorem code_returns (c : Call) (valid : Represents q xs) : ∃ r q', Code c q r q' := by
  cases c with
  | insert eb => exact ⟨_,_,.insert⟩
  | headInsert eb => exact ⟨_,_,.headInsert⟩
  | remove => exact ⟨_,_,.remove⟩
  | clear drop =>
      obtain ⟨q',ran,_⟩ := clear_ends drop valid (Nat.lt_succ_self xs.length)
      exact ⟨_,q',.clear ran⟩
  | storeLink eb value => exact ⟨_,_,.storeLink⟩

theorem code_refines (valid : Represents q xs) (allowed : c.admissible xs) (ran : Code c q r q') :
    r = (c.effect xs).1 ∧ Represents q' (c.effect xs).2 ∧ ∀ eb ∈ r.released, q'.next eb = nullEb ∧ eb ∉ (c.effect xs).2 := by
  cases ran with
  | insert =>
      obtain ⟨returned,after⟩ := insert_represents valid allowed.1 allowed.2
      exact ⟨by rw [returned]; rfl,after,fun eb member => by cases member⟩
  | headInsert =>
      obtain ⟨returned,after⟩ := headInsert_represents valid allowed.1 allowed.2
      exact ⟨by rw [returned]; rfl,after,fun eb member => by cases member⟩
  | remove =>
      obtain ⟨returned,after,unlinked⟩ := remove_represents valid
      refine ⟨by rw [returned]; rfl,after,fun eb member => ?_⟩
      have nonnull : (listRemove q).1 ≠ nullEb := by
        intro null
        simp [Reply.released,null] at member
      have same : eb = (listRemove q).1 := by simpa [Reply.released,nonnull] using member
      subst same
      refine ⟨unlinked nonnull,?_⟩
      cases xs with
      | nil => exact absurd returned nonnull
      | cons x rest =>
          obtain rfl : (listRemove q).1 = x := returned
          exact (List.nodup_cons.mp valid.chain.nodup).1
  | clear ended =>
      rename_i drop fuel recycled
      have enough : xs.length < max fuel xs.length + 1 := by omega
      obtain ⟨q₁,ran,after,unlinked⟩ := clear_ends drop valid enough
      have same : listClear drop (max fuel xs.length + 1) q = some (recycled,q') := by
        unfold listClear at ended ⊢
        obtain ⟨result,looped,made⟩ := Option.map_eq_some_iff.mp ended
        rw [fuel_irrelevant drop looped (by omega),Option.map_some,made]
      obtain ⟨rfl,rfl⟩ := Prod.mk.inj (Option.some.inj (same.symm.trans ran))
      refine ⟨rfl,after,fun eb member => ⟨unlinked eb member,fun inside => ?_⟩⟩
      have drops := (List.mem_filter.mp member).2
      have keeps := (List.mem_filter.mp inside).2
      rw [drops] at keeps
      cases keeps
  | storeLink =>
      exact ⟨rfl,⟨valid.chain.update allowed _,valid.tail⟩,fun eb member => by cases member⟩

def Admissible : List Call → List EbPtr → Prop
  | [],_ => True
  | c :: rest,xs => c.admissible xs ∧ Admissible rest (c.effect xs).2

def perform : List Call → List EbPtr → List Reply × List EbPtr
  | [],xs => ([],xs)
  | c :: rest,xs => ((c.effect xs).1 :: (perform rest (c.effect xs).2).1,(perform rest (c.effect xs).2).2)

inductive CodeRun : WifiTx → List Call → List Reply → WifiTx → Prop where
  | nil : CodeRun q [] [] q
  | cons : Code c q r m → CodeRun m rest replies q' → CodeRun q (c :: rest) (r :: replies) q'

theorem run_returns (calls : List Call) (valid : Represents q xs) (allowed : Admissible calls xs) :
    ∃ replies q', CodeRun q calls replies q' := by
  induction calls generalizing q xs with
  | nil => exact ⟨[],q,.nil⟩
  | cons c rest ih =>
      obtain ⟨r,m,first⟩ := code_returns c valid
      obtain ⟨_,middle,_⟩ := code_refines valid allowed.1 first
      obtain ⟨replies,q',later⟩ := ih middle allowed.2
      exact ⟨r :: replies,q',.cons first later⟩

theorem run_refines (valid : Represents q xs) (allowed : Admissible calls xs) (run : CodeRun q calls replies q') :
    replies = (perform calls xs).1 ∧ Represents q' (perform calls xs).2 := by
  induction run generalizing xs with
  | nil => exact ⟨rfl,valid⟩
  | cons first later ih =>
      obtain ⟨reply,middle,_⟩ := code_refines valid allowed.1 first
      obtain ⟨replies,after⟩ := ih middle allowed.2
      exact ⟨by rw [reply,replies]; rfl,after⟩

theorem effect_conserves (c : Call) (proper : nullEb ∉ xs) :
    (xs ++ c.inserted).Perm ((c.effect xs).1.released ++ (c.effect xs).2) := by
  cases c with
  | insert eb => exact .refl _
  | headInsert eb => exact List.perm_append_comm
  | remove =>
      cases xs with
      | nil => exact .refl _
      | cons x rest =>
          have nonnull : ¬ x = nullEb := fun same => proper (by simp [same])
          simp [Call.inserted,Call.effect,Reply.released,nonnull]
  | clear drop =>
      simp only [Call.inserted,Call.effect,Reply.released,List.append_nil]
      exact (List.filter_append_perm drop xs).symm
  | storeLink eb value => simp [Call.inserted,Call.effect,Reply.released]

theorem effect_proper {c : Call} {xs : List EbPtr} (proper : nullEb ∉ xs) (allowed : c.admissible xs) : nullEb ∉ (c.effect xs).2 := by
  cases c with
  | insert eb =>
      intro member
      rcases List.mem_append.mp member with before | now
      · exact proper before
      · exact allowed.1 (List.mem_singleton.mp now).symm
  | headInsert eb =>
      intro member
      rcases List.mem_cons.mp member with now | before
      · exact allowed.1 now.symm
      · exact proper before
  | remove => exact fun member => proper (List.mem_of_mem_tail member)
  | clear drop => exact fun member => proper (List.mem_filter.mp member).1
  | storeLink eb value => exact proper

theorem perform_conserves (calls : List Call) (proper : nullEb ∉ xs) (allowed : Admissible calls xs) :
    (xs ++ calls.flatMap Call.inserted).Perm ((perform calls xs).1.flatMap Reply.released ++ (perform calls xs).2) := by
  induction calls generalizing xs with
  | nil => simp [perform]
  | cons c rest ih =>
      have one := effect_conserves c proper
      have later := ih (effect_proper proper allowed.1) allowed.2
      simp only [List.flatMap_cons,perform]
      calc xs ++ (c.inserted ++ rest.flatMap Call.inserted)
        _ = (xs ++ c.inserted) ++ rest.flatMap Call.inserted := (List.append_assoc ..).symm
        _ |>.Perm (((c.effect xs).1.released ++ (c.effect xs).2) ++ rest.flatMap Call.inserted) := one.append_right _
        _ = (c.effect xs).1.released ++ ((c.effect xs).2 ++ rest.flatMap Call.inserted) := List.append_assoc ..
        _ |>.Perm ((c.effect xs).1.released ++ _) := later.append_left _
        _ = _ := (List.append_assoc ..).symm

theorem tx_list_refines_deque {start : WifiTx} (empty : start.txHead = nullEb) (calls : List Call)
    (allowed : Admissible calls []) :
    (∃ replies q, CodeRun start calls replies q) ∧
    ∀ replies q, CodeRun start calls replies q →
      replies = (perform calls []).1 ∧ Chain nullEb q.next q.txHead (perform calls []).2 ∧ (perform calls []).2.Nodup ∧
      (∀ last, (perform calls []).2.getLast? = some last → q.txTail = last) ∧
      (calls.flatMap Call.inserted).Perm (replies.flatMap Reply.released ++ (perform calls []).2) ∧
      ∀ c, c.admissible (perform calls []).2 → ∀ r q', Code c q r q' →
        ∀ eb ∈ r.released, q'.next eb = nullEb ∧ eb ∉ (c.effect (perform calls []).2).2 := by
  have valid : Represents start [] := ⟨empty,fun last same => by cases same⟩
  refine ⟨run_returns calls valid allowed,fun replies q run => ?_⟩
  obtain ⟨replied,after⟩ := run_refines valid allowed run
  refine ⟨replied,after.chain,after.chain.nodup,after.tail,?_,?_⟩
  · rw [replied]
    exact perform_conserves calls (by simp) allowed
  · intro c next r q' ran
    exact (code_refines after next ran).2.2

-- Buffer 1 is dropped from between 2 and 3, and 2 is taken from the front.
def fiveCalls : List Call := [.insert 1,.headInsert 2,.insert 3,.clear fun eb => eb = 1,.remove]

theorem five_calls_refine : ∃ replies q, CodeRun ⟨0,0,fun _ => 0,false⟩ fiveCalls replies q ∧
    (perform fiveCalls []).2 = [3] ∧ Chain nullEb q.next q.txHead [3] := by
  have allowed : Admissible fiveCalls [] :=
    ⟨⟨by decide,by decide⟩,⟨by decide,by decide⟩,⟨by decide,by decide⟩,trivial,trivial,trivial⟩
  obtain ⟨⟨replies,q,run⟩,all⟩ := @tx_list_refines_deque ⟨0,0,fun _ => 0,false⟩ rfl fiveCalls allowed
  exact ⟨replies,q,run,rfl,(all replies q run).2.1⟩

end ExtConn.TxDeque
