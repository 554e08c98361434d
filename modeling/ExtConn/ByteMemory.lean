import Mathlib

namespace ExtConn.ByteMemory

-- A pointer is a block and an offset; a memory gives every block its bytes.
-- Bounds are not part of the memory: they are properties of the accesses.
structure Ptr where
  blk : Nat
  off : Nat
  deriving DecidableEq, Repr

def Ptr.add (p : Ptr) (n : Nat) : Ptr := ⟨p.blk,p.off + n⟩

@[simp] theorem Ptr.add_blk (p : Ptr) (n : Nat) : (p.add n).blk = p.blk := rfl
@[simp] theorem Ptr.add_off (p : Ptr) (n : Nat) : (p.add n).off = p.off + n := rfl
@[simp] theorem Ptr.add_zero (p : Ptr) : p.add 0 = p := rfl
theorem Ptr.add_add (p : Ptr) (n k : Nat) : (p.add n).add k = p.add (n + k) := by
  simp [Ptr.add,Nat.add_assoc]

abbrev Mem := Nat → Nat → UInt8

def Mem.read (m : Mem) (p : Ptr) (n : Nat) : List UInt8 := (List.range n).map fun i => m p.blk (p.off + i)

def Mem.write (m : Mem) (p : Ptr) (bs : List UInt8) : Mem := fun blk i =>
  if blk = p.blk ∧ p.off ≤ i ∧ i < p.off + bs.length then bs.getD (i - p.off) 0 else m blk i

@[simp] theorem read_length (m : Mem) (p : Ptr) (n : Nat) : (m.read p n).length = n := by simp [Mem.read]
@[simp] theorem read_zero (m : Mem) (p : Ptr) : m.read p 0 = [] := rfl
@[simp] theorem write_nil (m : Mem) (p : Ptr) : m.write p [] = m := by
  funext blk i
  simp only [Mem.write,List.length_nil]
  rw [if_neg (by omega)]

theorem read_get (m : Mem) (p : Ptr) (bound : i < n) : (m.read p n)[i]? = some (m p.blk (p.off + i)) := by
  simp [Mem.read,bound]

theorem read_append (m : Mem) (p : Ptr) (n k : Nat) : m.read p (n + k) = m.read p n ++ m.read (p.add n) k := by
  simp [Mem.read,List.range_add,Nat.add_assoc]

theorem read_take (m : Mem) (p : Ptr) (fits : k ≤ n) : (m.read p n).take k = m.read p k := by
  obtain ⟨rest,rfl⟩ := Nat.exists_eq_add_of_le fits
  rw [read_append,List.take_append_of_le_length (by simp),List.take_of_length_le (by simp)]

theorem read_drop (m : Mem) (p : Ptr) (n k : Nat) : (m.read p (n + k)).drop n = m.read (p.add n) k := by
  rw [read_append,List.drop_append_of_le_length (by simp),List.drop_of_length_le (by simp),List.nil_append]

theorem read_congr {m m' : Mem} {p : Ptr} (same : ∀ i < n, m p.blk (p.off + i) = m' p.blk (p.off + i)) :
    m.read p n = m'.read p n := by
  simp only [Mem.read]
  exact List.map_congr_left fun i member => same i (List.mem_range.mp member)

-- Writing and reading back the same range, and a frame for disjoint ranges.
theorem read_write (m : Mem) (p : Ptr) (bs : List UInt8) : (m.write p bs).read p bs.length = bs := by
  apply List.ext_getElem?
  intro i
  by_cases bound : i < bs.length
  · rw [read_get _ _ bound]
    simp [Mem.write,bound]
  · rw [List.getElem?_eq_none (by simp; omega),List.getElem?_eq_none (by omega)]

theorem read_back (m : Mem) (p : Ptr) {bs : List UInt8} (n : Nat) (length : bs.length = n) : (m.write p bs).read p n = bs := by
  rw [← length]
  exact read_write m p bs

theorem read_write_other (m : Mem) (p q : Ptr) (bs : List UInt8)
    (apart : q.blk ≠ p.blk ∨ q.off + n ≤ p.off ∨ p.off + bs.length ≤ q.off) :
    (m.write p bs).read q n = m.read q n := by
  apply read_congr
  intro i bound
  simp only [Mem.write]
  rw [if_neg]
  rintro ⟨same,low,high⟩
  rcases apart with different | before | after <;> omega

-- Writing within or at the end of what has been written, and reading a part of it.
theorem write_at (m : Mem) (p : Ptr) (bs : List UInt8) {k : Nat} (part : List UInt8) (inside : k ≤ bs.length) :
    (m.write p bs).write (p.add k) part = m.write p (bs.take k ++ part ++ bs.drop (k + part.length)) := by
  funext blk i
  have whole : (bs.take k ++ part ++ bs.drop (k + part.length)).length = max bs.length (k + part.length) := by
    simp only [List.length_append,List.length_take,List.length_drop]
    omega
  simp only [Mem.write,Ptr.add_blk,Ptr.add_off,whole]
  by_cases here : blk = p.blk ∧ p.off ≤ i
  · obtain ⟨same,low⟩ := here
    obtain ⟨j,rfl⟩ := Nat.exists_eq_add_of_le low
    have back : p.off + j - p.off = j := by omega
    simp only [same,low,true_and,back,List.getD_eq_getElem?_getD,List.getElem?_append,List.length_append,List.length_take,
      Nat.min_eq_left inside]
    by_cases before : j < k
    · rw [if_neg (by omega),if_pos (by omega),if_pos (by omega),if_pos (by omega),if_pos (by omega),List.getElem?_take_of_lt before]
    · by_cases within : j < k + part.length
      · have shift : p.off + j - (p.off + k) = j - k := by omega
        rw [if_pos (by omega),if_pos (by omega),if_pos within,if_neg before,shift]
      · rw [if_neg (by omega)]
        by_cases last : j < bs.length
        · have shift : k + part.length + (j - (k + part.length)) = j := by omega
          rw [if_pos (by omega),if_pos (by omega),if_neg within,List.getElem?_drop,shift]
        · rw [if_neg (by omega),if_neg (by omega)]
  · have first : ¬ (blk = p.blk ∧ p.off + k ≤ i ∧ i < p.off + k + part.length) := fun both => here ⟨both.1,by omega⟩
    have second : ∀ n, ¬ (blk = p.blk ∧ p.off ≤ i ∧ i < n) := fun _ both => here ⟨both.1,both.2.1⟩
    simp only [first,second,if_false]

theorem read_inside (m : Mem) (p : Ptr) (bs : List UInt8) {k n : Nat} (inside : k + n ≤ bs.length) :
    (m.write p bs).read (p.add k) n = (bs.drop k).take n := by
  have whole := congrArg (fun l : List UInt8 => (l.drop k).take n) (read_write m p bs)
  obtain ⟨rest,length⟩ := Nat.exists_eq_add_of_le inside
  rw [← whole,length,Nat.add_assoc]
  simp only [read_drop]
  rw [read_take _ _ (Nat.le_add_right n rest)]

-- Little-endian numbers of any width.
def leNat : List UInt8 → Nat
  | [] => 0
  | b :: rest => b.toNat + 256 * leNat rest

def leBytes : Nat → Nat → List UInt8
  | 0,_ => []
  | width+1,n => UInt8.ofNat n :: leBytes width (n / 256)

@[simp] theorem leBytes_length (width n : Nat) : (leBytes width n).length = width := by
  induction width generalizing n with
  | zero => rfl
  | succ width ih => simp [leBytes,ih]

theorem leNat_leBytes (width n : Nat) : leNat (leBytes width n) = n % 256 ^ width := by
  induction width generalizing n with
  | zero => simp [leBytes,leNat,Nat.mod_one]
  | succ width ih =>
      have byte : (UInt8.ofNat n).toNat = n % 256 := by simp
      rw [leBytes,leNat,ih,byte,Nat.pow_succ,Nat.mul_comm (256 ^ width),Nat.mod_mul]

theorem leBytes_leNat (bs : List UInt8) : leBytes bs.length (leNat bs) = bs := by
  induction bs with
  | nil => rfl
  | cons b rest ih =>
      have bound := b.toNat_lt
      have head : UInt8.ofNat (b.toNat + 256 * leNat rest) = b := by
        apply UInt8.toNat_inj.mp
        rw [UInt8.toNat_ofNat']
        omega
      have tail : (b.toNat + 256 * leNat rest) / 256 = leNat rest := by omega
      rw [List.length_cons,leNat,leBytes,head,tail,ih]

theorem leNat_bound (bs : List UInt8) : leNat bs < 256 ^ bs.length := by
  induction bs with
  | nil => simp [leNat]
  | cons b rest ih =>
      have byte := b.toNat_lt
      simp only [leNat,List.length_cons,Nat.pow_succ]
      omega

end ExtConn.ByteMemory
