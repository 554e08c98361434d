import Mathlib

namespace ExtConn.Words

-- Masks of 32-bit words as arithmetic on their values.
theorem mask_high (n k w : Nat) (fits : n < 2 ^ (k + w)) : n &&& ((2 ^ w - 1) * 2 ^ k) = n / 2 ^ k * 2 ^ k := by
  apply Nat.eq_of_testBit_eq
  intro i
  rw [Nat.testBit_and,Nat.testBit_mul_two_pow,Nat.testBit_mul_two_pow,Nat.testBit_two_pow_sub_one,
    Nat.testBit_div_two_pow]
  by_cases low : k ≤ i
  · have back : i - k + k = i := by omega
    by_cases inside : i - k < w
    · simp [low,inside,back]
    · have above : n.testBit i = false := by
        apply Nat.testBit_lt_two_pow
        exact Nat.lt_of_lt_of_le fits (Nat.pow_le_pow_right (by decide) (by omega))
      simp [back,above]
  · simp [low]

theorem align_four (x : UInt32) : (x &&& ~~~3).toNat = x.toNat / 4 * 4 := by
  have bound := x.toNat_lt
  have mask : (~~~(3 : UInt32)).toNat = (2 ^ 30 - 1) * 2 ^ 2 := by decide
  have value : (x &&& ~~~3).toNat = x.toNat / 2 ^ 2 * 2 ^ 2 := by rw [UInt32.toNat_and,mask,mask_high _ 2 30 (by omega)]
  exact value

theorem round_four (x : UInt32) (fits : x.toNat + 3 < 2 ^ 32) : ((x + 3) &&& ~~~3).toNat = (x.toNat + 3) / 4 * 4 := by
  rw [align_four,UInt32.toNat_add]
  have three : (3 : UInt32).toNat = 3 := rfl
  rw [three]
  omega

-- Three bytes put together, the highest first.
theorem three_bytes (a b c : UInt8) : (((UInt32.ofNat a.toNat <<< 16) ||| (UInt32.ofNat b.toNat <<< 8) ||| UInt32.ofNat c.toNat) &&&
    0xffffff).toNat = 65536 * a.toNat + 256 * b.toNat + c.toNat := by
  have low := c.toNat_lt
  have middle := b.toNat_lt
  have high := a.toNat_lt
  have word : ∀ x : UInt8, (UInt32.ofNat x.toNat).toNat = x.toNat :=
    fun x => UInt32.toNat_ofNat_of_lt' (Nat.lt_trans x.toNat_lt (by decide))
  have shifted : ∀ (x : UInt8) k, k ≤ 16 → x.toNat <<< k % 2 ^ 32 = x.toNat <<< k := by
    intro x k inside
    have bound := x.toNat_lt
    have power : 2 ^ k ≤ 2 ^ 16 := Nat.pow_le_pow_right (by decide) inside
    have top : x.toNat * 2 ^ k < 2 ^ 8 * 2 ^ k := Nat.mul_lt_mul_of_pos_right bound (Nat.two_pow_pos k)
    apply Nat.mod_eq_of_lt
    rw [Nat.shiftLeft_eq]
    omega
  have upper : a.toNat <<< 16 ||| b.toNat <<< 8 = (a.toNat <<< 8 + b.toNat) <<< 8 := by
    rw [Nat.shiftLeft_add_eq_or_of_lt middle,Nat.shiftLeft_or_distrib,← Nat.shiftLeft_add]
  have mask : (0xffffff : UInt32).toNat = 2 ^ 24 - 1 := rfl
  rw [UInt32.toNat_and,UInt32.toNat_or,UInt32.toNat_or,UInt32.toNat_shiftLeft,UInt32.toNat_shiftLeft,word,word,word,mask,
    Nat.and_two_pow_sub_one_eq_mod]
  show (a.toNat <<< 16 % 2 ^ 32 ||| b.toNat <<< 8 % 2 ^ 32 ||| c.toNat) % 2 ^ 24 = _
  rw [shifted a 16 (by decide),shifted b 8 (by decide),upper,← Nat.shiftLeft_add_eq_or_of_lt low,Nat.shiftLeft_eq,Nat.shiftLeft_eq]
  omega

-- Words bit by bit.
theorem word_ext {a b : UInt32} (bits : ∀ i < 32, a.toBitVec.getLsbD i = b.toBitVec.getLsbD i) : a = b := by
  apply UInt32.toBitVec_inj.mp
  exact BitVec.eq_of_getLsbD_eq bits

theorem or_and (a b m : UInt32) : (a ||| b) &&& m = (a &&& m) ||| (b &&& m) := by
  apply word_ext
  intro i _
  simp only [UInt32.toBitVec_and,UInt32.toBitVec_or,BitVec.getLsbD_and,BitVec.getLsbD_or]
  exact Bool.and_or_distrib_right ..

theorem or_keeps {a b m : UInt32} (set : a &&& m ≠ 0) : (a ||| b) &&& m ≠ 0 := by
  rw [or_and]
  exact fun none => set (UInt32.or_eq_zero_iff.mp none).1

-- Clearing bits leaves the others as they are.
theorem clear_apart {a m b : UInt32} (apart : m &&& b = 0) : (a &&& ~~~m) &&& b = a &&& b := by
  apply word_ext
  intro i inside
  have bits := congrArg (fun w : UInt32 => w.toBitVec.getLsbD i) apart
  simp only [UInt32.toBitVec_and,UInt32.toBitVec_not,UInt32.toBitVec_zero,BitVec.getLsbD_and,BitVec.getLsbD_not,
    BitVec.getLsbD_zero,inside,decide_true,Bool.true_and] at bits ⊢
  cases clears : m.toBitVec.getLsbD i with
  | false => simp
  | true =>
      rw [clears,Bool.true_and] at bits
      simp [bits]

-- Clearing bits takes away what they stood for.
theorem clear_add (x m : UInt32) : (x &&& ~~~m) + (x &&& m) = x := by
  have apart : (x &&& ~~~m).toBitVec &&& (x &&& m).toBitVec = 0#32 := by
    apply BitVec.eq_of_getLsbD_eq
    intro i inside
    simp only [UInt32.toBitVec_and,UInt32.toBitVec_not,BitVec.getLsbD_and,BitVec.getLsbD_not,BitVec.getLsbD_zero,inside]
    cases m.toBitVec.getLsbD i <;> simp
  apply UInt32.toBitVec_inj.mp
  rw [UInt32.toBitVec_add,BitVec.add_eq_or_of_and_eq_zero _ _ apart]
  apply BitVec.eq_of_getLsbD_eq
  intro i inside
  simp only [UInt32.toBitVec_and,UInt32.toBitVec_not,BitVec.getLsbD_and,BitVec.getLsbD_or,BitVec.getLsbD_not,inside]
  cases m.toBitVec.getLsbD i <;> simp

theorem clear_toNat (x m : UInt32) : (x &&& ~~~m).toNat = x.toNat - (x &&& m).toNat := by
  have below : x &&& m ≤ x := by
    rw [UInt32.le_iff_toNat_le,UInt32.toNat_and]
    exact Nat.and_le_left
  have split : x &&& ~~~m = x - (x &&& m) := (UInt32.sub_eq_iff_eq_add.mpr (clear_add x m).symm).symm
  rw [split,UInt32.toNat_sub_of_le _ _ below]

end ExtConn.Words
