import ExtConn.HeapOwnership
import ExtConn.Layers

namespace ExtConn.HeapWatch
open Effects ByteMemory Interleaving Custody Layers HeapBooks

-- Records that are kept beside the books of the heap and refuse nothing.
abbrev Record (ε : Type) := Task → World → Op → Ans → ε → ε

variable {ε : Type} {follow : Record ε}

def beside (follow : Record ε) : Slave (Books × ε) where
  answers t w o ans d := (books.answers t w o ans d.1).map fun kept => (kept,follow t w o ans d.2)
  moves d d' := d' = d

abbrev State (ε : Type) := World × Books × ε

def heap (s : State ε) : HeapBooks.State := (s.1,s.2.1)

theorem beside_iff {t : Task} {o : Op} {r : o.Answer} {s s' : State ε} : (beside follow).act t o s r s' ↔
    ∃ ans, World.exec t o ans s.1 = some (r,s'.1) ∧ books.answers t s.1 o ans s.2.1 = some s'.2.1 ∧
      s'.2.2 = follow t s.1 o ans s.2.2 := by
  rw [act_iff]
  constructor
  · rintro ⟨ans,ran,answered⟩
    obtain ⟨kept,known,same⟩ := Option.map_eq_some_iff.mp answered
    refine ⟨ans,ran,?_,?_⟩
    · rw [← same]
      exact known
    · rw [← same]
  · rintro ⟨ans,ran,known,recorded⟩
    refine ⟨ans,ran,Option.map_eq_some_iff.mpr ⟨_,known,?_⟩⟩
    rw [← recorded]

theorem heap_act {t : Task} {o : Op} {r : o.Answer} {s s' : State ε} (acted : (beside follow).act t o s r s') :
    books.act t o (heap s) r (heap s') := by
  obtain ⟨ans,ran,known,_⟩ := beside_iff.mp acted
  exact act_iff.mpr ⟨ans,ran,known⟩

abbrev recorded (cfg : Build) (follow : Record ε) : Machine signature Task Label (State ε) := system cfg (beside follow)

abbrev Config (ε : Type) := Interleaving.Config signature Task Label (State ε)

-- What is known of the heap in every run, for the outlines of the records.
def heapOutline (cfg : Build) (follow : Record ε) : Outline (recorded cfg follow) :=
  project (outline cfg) heap (recorded cfg follow) rfl (fun _ _ _ _ _ acted => heap_act acted) fun a b moved => by
    obtain ⟨same,still⟩ := moved
    refine ⟨same,?_⟩
    rw [heap,heap,still]
    rfl

def heaped (cfg : Build) (follow : Record ε) : Machine signature Task Label (State ε) := along (recorded cfg follow) (heapOutline cfg follow)

def Opened (c : Config ε) : Prop := Opening ⟨heap c.shared,c.running⟩

theorem opened_holds {cfg : Build} {c : Config ε} (opened : Opened c) : (heapOutline cfg follow).Holds c :=
  (heapOutline cfg follow).holds_resting opened

theorem reached_heaped {cfg : Build} {start c : Config ε} (opened : Opened start) (path : Reached (recorded cfg follow) start c) :
    Reached (heaped cfg follow) start c :=
  reached_along (heapOutline cfg follow) (fun t s => Stays.refl t (heap s)) (opened_holds opened) path

-- One step of the running system: what it does, what it records, and what it may
-- touch.
structure Stepped (follow : Record ε) (t : Task) (o : Op) (s : State ε) (r : o.Answer) (s' : State ε) : Prop where
  acted : books.act t o (heap s) r (heap s')
  ran : ∃ ans, World.exec t o ans s.1 = some (r,s'.1) ∧ s'.2.2 = follow t s.1 o ans s.2.2
  allowed : allowed t o (heap s)
  leaves : Leaves t (heap s) (heap s')

theorem heaped_stepped {cfg : Build} {t : Task} {o : Op} {r : o.Answer} {s s' : State ε} (acted : (heaped cfg follow).act t o s r s') :
    Stepped follow t o s r s' := by
  obtain ⟨act,allowed,leaves⟩ := acted
  obtain ⟨ans,ran,_,recorded⟩ := beside_iff.mp act
  exact ⟨heap_act act,⟨ans,ran,recorded⟩,allowed,leaves⟩

end ExtConn.HeapWatch
