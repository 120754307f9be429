import IndexPlanner.Checksum
import Mathlib.Algebra.CharP.Two
import Mathlib.Algebra.Field.ZMod
import Mathlib.RingTheory.AdjoinRoot
import Mathlib.Tactic.ComputeDegree

/-!
# A checksum is the remainder of a division

The register takes in bytes by shifts and exclusive ors.  What comes out is the remainder of a
division: bits are the coefficients of a polynomial over the field of two elements, and the
polynomial of the bytes is divided by `generator`.

## Mirrored words

The lowest bit of a byte is taken in first, so it belongs to the highest power.  The lowest bit
of the register belongs to the highest power as well, which is `X ^ 31`, and a shift to the
right multiplies by `X`.  So there is one way from words to polynomials, `lowestFirst` and then
`polynomial`, for what is taken in and for what the register holds.

## The division

`IsChecksum` says which word is the checksum of bytes, and knows of no register.  It appends 32
zeros to the bits, where a remainder has its place, and turns over the first 32 bits, because
zeros at the front would otherwise be lost.  The bits of the remainder are turned over as well.

A step of the register multiplies by `X` and takes off the generator where the product is too
long (`X_mul_register`).  In the ring of remainders, `AdjoinRoot generator`, it is the
multiplication by the root (`residue_shift`); a byte is eight of these, and a run over bytes
follows by induction (`residue_feed`).  What the register holds is no longer than a remainder,
so it is the remainder (`register_feed`).

* `Crc32.isChecksum_iff`: every list of bytes has one checksum, the one that the register gives;
* `Checksum.ofKeys_of_joined_text`: the checksum of keys, which are fed in pieces, is the
  checksum of their joined text.
-/

namespace IndexPlanner

namespace Crc32

open Polynomial

/-! ## Bits and polynomials -/

/-- A bit as a coefficient. -/
def coefficient (b : Bool) : ZMod 2 := if b then 1 else 0

/-- The polynomial with these bits for coefficients, from the highest power down. -/
noncomputable def polynomial : List Bool → (ZMod 2)[X]
  | [] => 0
  | b :: bs => C (coefficient b) * X ^ bs.length + polynomial bs

/-- The bits of a word, the lowest one first. -/
def lowestFirst (width v : Nat) : List Bool := (List.range width).map v.testBit

/-- The bits of bytes in the order in which they are taken in. -/
def bits (bytes : List UInt8) : List Bool := bytes.flatMap fun b => lowestFirst 8 b.toNat

@[simp] theorem coefficient_false : coefficient false = 0 := rfl

@[simp] theorem coefficient_true : coefficient true = 1 := rfl

theorem coefficient_xor (a b : Bool) : coefficient (a ^^ b) = coefficient a + coefficient b := by
  cases a <;> cases b <;> decide

theorem coefficient_not (a : Bool) : coefficient (!a) = coefficient a + coefficient true := by
  cases a <;> decide

theorem coefficient_inj {a b : Bool} (h : coefficient a = coefficient b) : a = b := by
  revert h
  cases a <;> cases b <;> decide

theorem polynomial_append (xs ys : List Bool) :
    polynomial (xs ++ ys) = X ^ ys.length * polynomial xs + polynomial ys := by
  induction xs with
  | nil => rw [List.nil_append, polynomial, mul_zero, zero_add]
  | cons b xs ih =>
    rw [List.cons_append, polynomial, polynomial, ih, List.length_append, pow_add]
    ring

theorem polynomial_append_singleton (bs : List Bool) (b : Bool) :
    polynomial (bs ++ [b]) = X * polynomial bs + C (coefficient b) := by
  simp [polynomial_append, polynomial]

theorem polynomial_replicate_false (n : Nat) : polynomial (List.replicate n false) = 0 := by
  induction n with
  | zero => rfl
  | succ n ih =>
    rw [List.replicate_succ, polynomial, ih, coefficient_false, C_0, zero_mul, zero_add]

/-- Turning all bits over adds ones. -/
theorem polynomial_map_not (bs : List Bool) :
    polynomial (bs.map (!·)) = polynomial bs + polynomial (List.replicate bs.length true) := by
  induction bs with
  | nil => simp [polynomial]
  | cons b bs ih =>
    rw [List.map_cons, polynomial, polynomial, ih, coefficient_not, C_add, List.length_map,
      List.length_cons, List.replicate_succ, polynomial, List.length_replicate]
    ring

theorem degree_polynomial_lt (bs : List Bool) : (polynomial bs).degree < bs.length := by
  induction bs with
  | nil => simp [polynomial]
  | cons b bs ih =>
    have hlength : (bs.length : WithBot ℕ) < (bs.length + 1 : ℕ) := by
      exact_mod_cast Nat.lt_succ_self _
    rw [polynomial, List.length_cons]
    refine (degree_add_le _ _).trans_lt (max_lt ?_ (ih.trans hlength))
    exact (degree_C_mul_X_pow_le _ _).trans_lt hlength

/-- Lists of bits of one length are told apart by their polynomials: the first bits are the
coefficients of the highest power. -/
theorem polynomial_inj {xs ys : List Bool} (hlength : xs.length = ys.length)
    (h : polynomial xs = polynomial ys) : xs = ys := by
  induction xs generalizing ys with
  | nil => exact (List.length_eq_zero_iff.1 hlength.symm).symm
  | cons a xs ih =>
    cases ys with
    | nil => exact absurd hlength (Nat.succ_ne_zero _)
    | cons b ys =>
      have htails : xs.length = ys.length := Nat.succ.inj hlength
      rw [polynomial, polynomial, htails] at h
      -- neither tail reaches the power of the first bit
      have hxs : (polynomial xs).coeff ys.length = 0 :=
        coeff_eq_zero_of_degree_lt (htails ▸ degree_polynomial_lt xs)
      have hys : (polynomial ys).coeff ys.length = 0 :=
        coeff_eq_zero_of_degree_lt (degree_polynomial_lt ys)
      have hhead : a = b := by
        have hcoeff := congrArg (fun p => p.coeff ys.length) h
        simp only [coeff_add, coeff_C_mul, coeff_X_pow_self, mul_one, hxs, hys, add_zero] at hcoeff
        exact coefficient_inj hcoeff
      subst hhead
      rw [ih htails (add_left_cancel h)]

/-! ## The bits of words -/

@[simp] theorem length_lowestFirst (width v : Nat) : (lowestFirst width v).length = width := by
  rw [lowestFirst, List.length_map, List.length_range]

theorem lowestFirst_succ (width v : Nat) :
    lowestFirst (width + 1) v = lowestFirst width v ++ [v.testBit width] := by
  rw [lowestFirst, List.range_succ, List.map_append, List.map_singleton, lowestFirst]

theorem lowestFirst_succ_eq_cons (width v : Nat) :
    lowestFirst (width + 1) v = v.testBit 0 :: lowestFirst width (v / 2) := by
  simp [lowestFirst, List.range_succ_eq_map, Function.comp_def, Nat.testBit_succ]

/-- A number that fits into a word has zeros above it in a longer one. -/
theorem lowestFirst_add {width v : Nat} (h : v < 2 ^ width) (k : Nat) :
    lowestFirst (width + k) v = lowestFirst width v ++ List.replicate k false := by
  induction k with
  | zero => rw [Nat.add_zero, List.replicate_zero, List.append_nil]
  | succ k ih =>
    have hbit : v.testBit (width + k) = false :=
      Nat.testBit_lt_two_pow (h.trans_le (Nat.pow_le_pow_right (by decide) (Nat.le_add_right _ _)))
    rw [← Nat.add_assoc, lowestFirst_succ, ih, hbit, List.append_assoc, List.replicate_succ']

theorem lowestFirst_inj {width u v : Nat} (hu : u < 2 ^ width) (hv : v < 2 ^ width)
    (h : lowestFirst width u = lowestFirst width v) : u = v := by
  refine Nat.eq_of_testBit_eq fun i => ?_
  by_cases hi : i < width
  · have hget := congrArg (fun bs => bs[i]?) h
    simpa [lowestFirst, hi] using hget
  · have hpow : 2 ^ width ≤ 2 ^ i := Nat.pow_le_pow_right (by decide) (Nat.le_of_not_lt hi)
    rw [Nat.testBit_lt_two_pow (hu.trans_le hpow), Nat.testBit_lt_two_pow (hv.trans_le hpow)]

/-- An exclusive or adds polynomials. -/
theorem polynomial_lowestFirst_xor (width u v : Nat) :
    polynomial (lowestFirst width (u ^^^ v)) =
      polynomial (lowestFirst width u) + polynomial (lowestFirst width v) := by
  induction width with
  | zero => exact (add_zero _).symm
  | succ width ih =>
    simp only [lowestFirst_succ, polynomial_append_singleton, ih, Nat.testBit_xor,
      coefficient_xor, C_add]
    ring

/-! ## What is divided, and by what -/

/-- The polynomial to divide by. -/
noncomputable def generator : (ZMod 2)[X] :=
  X ^ 32 + X ^ 26 + X ^ 23 + X ^ 22 + X ^ 16 + X ^ 12 + X ^ 11 + X ^ 10 + X ^ 8 + X ^ 7 + X ^ 5 +
    X ^ 4 + X ^ 2 + X + 1

/-- Bits with the first `n` of them turned over. -/
def complementFirst (n : Nat) (bs : List Bool) : List Bool :=
  (bs.take n).map (!·) ++ bs.drop n

/-- A word is the checksum of bytes.  The bits of the bytes, with 32 zeros after them and the
first 32 of all these bits turned over, are divided by the generator, and the bits of the
remainder are turned over. -/
def IsChecksum (c : UInt32) (bytes : List UInt8) : Prop :=
  polynomial ((lowestFirst 32 c.toNat).map (!·)) =
    polynomial (complementFirst 32 (bits bytes ++ List.replicate 32 false)) %ₘ generator

theorem generator_monic : generator.Monic := by
  unfold generator
  monicity!

theorem degree_generator : generator.degree = 32 := by
  unfold generator
  compute_degree!

theorem polynomial_complementFirst {n : Nat} {bs : List Bool} (h : n ≤ bs.length) :
    polynomial (complementFirst n bs) =
      X ^ (bs.length - n) * polynomial (List.replicate n true) + polynomial bs := by
  have hsplit := polynomial_append (bs.take n) (bs.drop n)
  rw [List.take_append_drop] at hsplit
  rw [complementFirst, polynomial_append, polynomial_map_not, List.length_take_of_le h, hsplit,
    List.length_drop]
  ring

/-! ## What the register holds -/

/-- The polynomial that the register holds. -/
noncomputable def register (r : UInt32) : (ZMod 2)[X] := polynomial (lowestFirst 32 r.toNat)

theorem register_xor (r s : UInt32) : register (r ^^^ s) = register r + register s := by
  rw [register, UInt32.toNat_xor, polynomial_lowestFirst_xor, register, register]

theorem register_inj {r s : UInt32} (h : register r = register s) : r = s := by
  have hlengths : (lowestFirst 32 r.toNat).length = (lowestFirst 32 s.toNat).length := by
    rw [length_lowestFirst, length_lowestFirst]
  exact UInt32.toNat_inj.1 (lowestFirst_inj r.toNat_lt s.toNat_lt (polynomial_inj hlengths h))

theorem degree_register_lt (r : UInt32) : (register r).degree < generator.degree := by
  have h := degree_polynomial_lt (lowestFirst 32 r.toNat)
  rw [length_lowestFirst, ← register] at h
  rwa [degree_generator]

theorem register_start : register start = polynomial (List.replicate 32 true) := by
  have hbits : lowestFirst 32 start.toNat = List.replicate 32 true := by decide
  rw [register, hbits]

/-- The word that is taken off in a shift stands for the generator without its highest power. -/
theorem X_pow_add_register_eq_generator : X ^ 32 + register 0xEDB88320 = generator := by
  have hbits : lowestFirst 32 (0xEDB88320 : UInt32).toNat =
      [false, false, false, false, false, true, false, false,
        true, true, false, false, false, false, false, true,
        false, false, false, true, true, true, false, true,
        true, false, true, true, false, true, true, true] := by decide
  rw [register, hbits, generator]
  simp [polynomial]
  ring

/-- The bits of a byte take the place of the highest powers of the register. -/
theorem register_toUInt32 (b : UInt8) :
    register b.toUInt32 = X ^ 24 * polynomial (lowestFirst 8 b.toNat) := by
  have hbits : lowestFirst 32 b.toNat = lowestFirst 8 b.toNat ++ List.replicate 24 false :=
    lowestFirst_add b.toNat_lt 24
  rw [register, UInt8.toNat_toUInt32, hbits, polynomial_append, polynomial_replicate_false,
    List.length_replicate, add_zero]

/-- A shift to the right multiplies by `X`, but the lowest bit gets lost. -/
theorem X_mul_register_eq_shiftRight (r : UInt32) :
    X * register r = C (coefficient (r.toNat.testBit 0)) * X ^ 32 + register (r >>> 1) := by
  have hhalf : r.toNat / 2 < 2 ^ 31 := by
    have := r.toNat_lt
    omega
  have hshift : (r >>> 1).toNat = r.toNat / 2 := UInt32.toNat_shiftRight r 1
  have hlow : lowestFirst 32 r.toNat = r.toNat.testBit 0 :: lowestFirst 31 (r.toNat / 2) :=
    lowestFirst_succ_eq_cons 31 _
  have hhigh : lowestFirst 32 (r.toNat / 2) = lowestFirst 31 (r.toNat / 2) ++ [false] :=
    lowestFirst_add hhalf 1
  rw [register, register, hshift, hlow, hhigh, polynomial, polynomial_append_singleton,
    length_lowestFirst, coefficient_false, C_0, add_zero]
  ring

/-- One step of the division: the generator is taken off if the highest power is there. -/
theorem X_mul_register (r : UInt32) :
    X * register r = C (coefficient (r.toNat.testBit 0)) * generator + register (shift r) := by
  have hlowest : r &&& 1 = 1 ↔ r.toNat.testBit 0 = true := by
    rw [Nat.testBit_zero, decide_eq_true_iff, ← UInt32.toNat_inj, UInt32.toNat_and]
    exact Eq.congr_left (Nat.and_one_is_mod _)
  rw [X_mul_register_eq_shiftRight, shift]
  by_cases h : r &&& 1 = 1
  · -- the word is there twice, in the generator and in the shifted register, and cancels
    have htwice := CharTwo.add_self_eq_zero (register 0xEDB88320)
    rw [if_pos h, hlowest.1 h, coefficient_true, C_1, register_xor,
      ← X_pow_add_register_eq_generator]
    linear_combination -htwice
  · have hzero : r.toNat.testBit 0 = false := Bool.eq_false_iff.2 fun hbit => h (hlowest.2 hbit)
    rw [if_neg h, hzero, coefficient_false, C_0, zero_mul, zero_mul]

/-! ## The run over bytes -/

/-- What the register holds, in the ring of remainders. -/
noncomputable def residue (r : UInt32) : AdjoinRoot generator :=
  AdjoinRoot.mk generator (register r)

theorem residue_shift (r : UInt32) :
    residue (shift r) = AdjoinRoot.root generator * residue r := by
  rw [residue, residue, ← AdjoinRoot.mk_X, ← map_mul, X_mul_register, map_add, map_mul,
    AdjoinRoot.mk_self, mul_zero, zero_add]

theorem residue_repeat_shift (n : Nat) (r : UInt32) :
    residue (Nat.repeat shift n r) = AdjoinRoot.root generator ^ n * residue r := by
  induction n with
  | zero => rw [Nat.repeat, pow_zero, one_mul]
  | succ n ih => rw [Nat.repeat, residue_shift, ih, pow_succ', mul_assoc]

/-- A byte goes to the highest powers of the register, which become its lowest ones in the
eight shifts, so it counts 32 powers more than by itself. -/
theorem residue_step (r : UInt32) (b : UInt8) :
    residue (step r b) = AdjoinRoot.root generator ^ 8 * residue r +
      AdjoinRoot.mk generator (X ^ 32 * polynomial (lowestFirst 8 b.toNat)) := by
  rw [step, residue_repeat_shift, residue, register_xor, register_toUInt32]
  simp only [residue, map_add, map_mul, map_pow, AdjoinRoot.mk_X]
  ring

theorem residue_feed (r : UInt32) (bytes : List UInt8) :
    residue (feed r bytes) = AdjoinRoot.mk generator
      (X ^ (bits bytes).length * register r + X ^ 32 * polynomial (bits bytes)) := by
  induction bytes generalizing r with
  | nil => simp [bits, polynomial, residue]
  | cons b bytes ih =>
    -- what the first byte leaves is moved up by the bytes that follow, as the byte itself is
    have hfeed : feed r (b :: bytes) = feed (step r b) bytes := rfl
    have hbits : bits (b :: bytes) = lowestFirst 8 b.toNat ++ bits bytes := rfl
    rw [hfeed, ih, map_add, map_mul, ← residue, residue_step, hbits, polynomial_append,
      List.length_append, length_lowestFirst]
    simp only [residue, map_add, map_mul, map_pow, AdjoinRoot.mk_X]
    ring

/-- What bytes leave in the register is the remainder of what it held, moved up by as many
powers as they have bits, and of these bits. -/
theorem register_feed (r : UInt32) (bytes : List UInt8) :
    register (feed r bytes) =
      (X ^ (bits bytes).length * register r + X ^ 32 * polynomial (bits bytes)) %ₘ generator := by
  rw [← modByMonic_eq_of_dvd_sub generator_monic (AdjoinRoot.mk_eq_mk.1 (residue_feed r bytes))]
  exact ((modByMonic_eq_self_iff generator_monic).2 (degree_register_lt _)).symm

/-! ## The checksum of bytes -/

@[simp] theorem finish_finish (r : UInt32) : finish (finish r) = r := by
  rw [finish, finish, UInt32.xor_assoc, UInt32.xor_self, UInt32.xor_zero]

theorem polynomial_not_lowestFirst (c : UInt32) :
    polynomial ((lowestFirst 32 c.toNat).map (!·)) = register (finish c) := by
  rw [polynomial_map_not, length_lowestFirst, ← register_start, ← register, ← register_xor]
  rfl

/-- **Every list of bytes has one checksum, the one that the register gives.** -/
theorem isChecksum_iff {c : UInt32} {bytes : List UInt8} :
    IsChecksum c bytes ↔ c = finish (feed start bytes) := by
  have hlength : 32 ≤ (bits bytes ++ List.replicate 32 false).length := by
    rw [List.length_append, List.length_replicate]
    exact Nat.le_add_left _ _
  have hdividend : polynomial (complementFirst 32 (bits bytes ++ List.replicate 32 false)) =
      X ^ (bits bytes).length * register start + X ^ 32 * polynomial (bits bytes) := by
    rw [polynomial_complementFirst hlength, polynomial_append, polynomial_replicate_false,
      register_start, List.length_append, List.length_replicate, Nat.add_sub_cancel, add_zero]
  rw [IsChecksum, polynomial_not_lowestFirst, hdividend, ← register_feed]
  constructor
  · intro h
    rw [← register_inj h, finish_finish]
  · rintro rfl
    rw [finish_finish]

/-- The nine digits that checksums are compared by. -/
example : IsChecksum 0xCBF43926 (utf8Bytes "123456789") :=
  isChecksum_iff.2 (by decide +kernel)

end Crc32

/-! ## The checksum of keys -/

theorem toList_toUTF8 (s : String) : s.toUTF8.data.toList = utf8Bytes s := by
  rw [String.toUTF8, ← String.utf8Encode_toList, List.utf8Encode, List.data_toByteArray]
  rfl

/-- **The checksum of keys is that of their joined text.**  Whatever the register holds, bytes
may be fed in pieces.  So keys fed one after the other, with a comma between two of them, leave
in it what their joined text leaves in one run, and what comes out at the end is the one word
that is the checksum of this text in UTF-8. -/
theorem Checksum.ofKeys_of_joined_text :
    (∀ (r : UInt32) (xs ys : List UInt8),
      Crc32.feed (Crc32.feed r xs) ys = Crc32.feed r (xs ++ ys)) ∧
    (∀ (r : UInt32) (ks : List Key),
      feedKeys r ks = Crc32.feed r (",".intercalate (ks.map Key.text)).toUTF8.data.toList) ∧
    ∀ (ks : List Key) (c : UInt32),
      (ofKeys ks).value = c ↔
        Crc32.IsChecksum c (",".intercalate (ks.map Key.text)).toUTF8.data.toList := by
  have hkeys : ∀ (r : UInt32) (ks : List Key),
      feedKeys r ks = Crc32.feed r (",".intercalate (ks.map Key.text)).toUTF8.data.toList := by
    intro r ks
    rw [toList_toUTF8, feedKeys_eq_feed]
  refine ⟨?_, hkeys, ?_⟩
  · intro r xs ys
    exact (Crc32.feed_append r xs ys).symm
  · intro ks c
    show Crc32.finish (feedKeys Crc32.start ks) = c ↔ _
    rw [hkeys, Crc32.isChecksum_iff]
    exact eq_comm

end IndexPlanner
