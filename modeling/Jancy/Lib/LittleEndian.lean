import Mathlib.Data.Nat.Bitwise

/-! Numbers stored in bytes, the least significant first. -/
namespace LittleEndian

def store : ℕ → ℕ → List UInt8
  | 0,_ => []
  | k + 1,n => UInt8.ofNat n :: store k (n / 256)

def load : List UInt8 → ℕ
  | [] => 0
  | b :: bs => b.toNat + 256 * load bs

@[simp] theorem length_store (k n : ℕ) : (store k n).length = k := by
  induction k generalizing n with
  | zero => rfl
  | succ k ih => simp [store,ih]

theorem load_lt (bs : List UInt8) : load bs < 2 ^ (8 * bs.length) := by
  induction bs with
  | nil => simp [load]
  | cons b bs ih =>
    have hb := b.toNat_lt
    have hpow : 2 ^ (8 * (b :: bs).length) = 256 * 2 ^ (8 * bs.length) := by
      rw [List.length_cons,Nat.mul_add,Nat.pow_add,Nat.mul_comm]
    rw [hpow,load]
    omega

theorem load_store (k n : ℕ) : load (store k n) = n % 2 ^ (8 * k) := by
  induction k generalizing n with
  | zero => simp [store,load,Nat.mod_one]
  | succ k ih =>
    have hpow : 2 ^ (8 * (k + 1)) = 256 * 2 ^ (8 * k) := by
      rw [Nat.mul_add,Nat.pow_add,Nat.mul_comm]
    rw [store,load,ih,hpow,Nat.mod_mul,UInt8.toNat_ofNat']

theorem load_store_of_lt {k n : ℕ} (h : n < 2 ^ (8 * k)) : load (store k n) = n := by
  rw [load_store,Nat.mod_eq_of_lt h]

theorem store_load (bs : List UInt8) : store bs.length (load bs) = bs := by
  induction bs with
  | nil => rfl
  | cons b bs ih =>
    have hb := b.toNat_lt
    have hdiv : (b.toNat + 256 * load bs) / 256 = load bs := by omega
    have hlow : UInt8.ofNat (b.toNat + 256 * load bs) = b := by
      apply UInt8.toNat_inj.mp
      rw [UInt8.toNat_ofNat']
      omega
    rw [List.length_cons,store,load,hdiv,hlow,ih]

theorem store_mod (k n : ℕ) : store k (n % 2 ^ (8 * k)) = store k n := by
  have hstored := store_load (store k n)
  rwa [length_store,load_store] at hstored

theorem store_xor_load_store (k n key : ℕ) :
    store k (load (store k (n ^^^ key)) ^^^ key) = store k n := by
  rw [load_store,← store_mod k (_ ^^^ key),Nat.xor_mod_two_pow,Nat.mod_mod,
    ← Nat.xor_mod_two_pow,Nat.xor_assoc,Nat.xor_self,Nat.xor_zero,store_mod]

end LittleEndian
