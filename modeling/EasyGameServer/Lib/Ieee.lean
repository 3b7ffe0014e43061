/-
  EasyGameServer.Lib.Ieee

  Conversions between `float` and `double`, on bit patterns: widening is
  exact, narrowing rounds to nearest, ties to even.  A NaN keeps its sign and
  the upper part of its payload and comes out quiet.  Narrowing undoes widening,
  down to the subnormals, except that it leaves no NaN signalling.  A NaN is
  one, and −0 is −0, before widening and after.
-/

import Mathlib.Algebra.Group.Nat.Defs

namespace EasyGameServer.Lib

/-- `m / 2 ^ k`, rounded to nearest, ties to even. -/
def roundShift (m k : Nat) : Nat :=
  let q := m / 2 ^ k
  let r := 2 * (m % 2 ^ k)
  if r > 2 ^ k ∨ (r = 2 ^ k ∧ q % 2 = 1) then q + 1 else q

/-- `(double)f`. -/
def floatToDouble (f : UInt32) : UInt64 :=
  let n := f.toNat
  let sign := (n / 2 ^ 31) * 2 ^ 63
  let e := n / 2 ^ 23 % 2 ^ 8
  let m := n % 2 ^ 23
  if e = 255 then
    let payload := if m = 0 then 0 else m * 2 ^ 29 % 2 ^ 51 + 2 ^ 51
    UInt64.ofNat (sign + 2047 * 2 ^ 52 + payload)
  else if e = 0 then
    if m = 0 then UInt64.ofNat sign
    else
      -- a subnormal `m * 2^-149` is normal as a double
      let k := m.log2
      UInt64.ofNat (sign + (k + 874) * 2 ^ 52 + (m - 2 ^ k) * 2 ^ (52 - k))
  else
    UInt64.ofNat (sign + (e + 896) * 2 ^ 52 + m * 2 ^ 29)

/-- `(float)d`. -/
def doubleToFloat (d : UInt64) : UInt32 :=
  let n := d.toNat
  let sign := (n / 2 ^ 63) * 2 ^ 31
  let e := n / 2 ^ 52 % 2 ^ 11
  let m := n % 2 ^ 52
  if e = 2047 then
    let payload := if m = 0 then 0 else m / 2 ^ 29 % 2 ^ 22 + 2 ^ 22
    UInt32.ofNat (sign + 255 * 2 ^ 23 + payload)
  else if e = 0 then UInt32.ofNat sign
  else
    let magnitude :=
      if 897 ≤ e then (e - 897) * 2 ^ 23 + roundShift (2 ^ 52 + m) 29
      else roundShift (2 ^ 52 + m) (29 + (897 - e))
    -- past the largest finite value lies infinity
    UInt32.ofNat (sign + min magnitude (255 * 2 ^ 23))

/-- `f`, a NaN made quiet. -/
def quiet (f : UInt32) : UInt32 :=
  let n := f.toNat
  let sign := (n / 2 ^ 31) * 2 ^ 31
  let e := n / 2 ^ 23 % 2 ^ 8
  let m := n % 2 ^ 23
  if e = 255 ∧ m ≠ 0 then UInt32.ofNat (sign + 255 * 2 ^ 23 + (m % 2 ^ 22 + 2 ^ 22)) else f

/-- What is divisible is not rounded. -/
theorem roundShift_mul_pow (m k : Nat) : roundShift (m * 2 ^ k) k = m := by
  have hpos := Nat.two_pow_pos k
  have hdiv : m * 2 ^ k / 2 ^ k = m := Nat.mul_div_cancel m hpos
  have hmod : m * 2 ^ k % 2 ^ k = 0 := Nat.mul_mod_left m (2 ^ k)
  simp only [roundShift, hdiv, hmod]
  rw [if_neg (by omega)]

/-- A subnormal mantissa, normalized: its leading one goes to bit 52. -/
theorem normalize_spec {m : Nat} (h0 : m ≠ 0) (hm : m < 2 ^ 23) :
    m.log2 ≤ 22 ∧ (m - 2 ^ m.log2) * 2 ^ (52 - m.log2) < 2 ^ 52 ∧
      2 ^ 52 + (m - 2 ^ m.log2) * 2 ^ (52 - m.log2) = m * 2 ^ (52 - m.log2) := by
  have hle : 2 ^ m.log2 ≤ m := Nat.log2_self_le h0
  have hlt : m < 2 ^ (m.log2 + 1) := Nat.lt_log2_self
  have hk : m.log2 < 23 := (Nat.log2_lt h0).mpr hm
  have htop : 2 ^ m.log2 * 2 ^ (52 - m.log2) = 2 ^ 52 := by
    rw [← Nat.pow_add]
    congr 1
    omega
  have hsum : 2 ^ m.log2 * 2 ^ (52 - m.log2) + (m - 2 ^ m.log2) * 2 ^ (52 - m.log2)
      = m * 2 ^ (52 - m.log2) := by
    rw [← Nat.add_mul, Nat.add_sub_cancel' hle]
  have hfits : (m - 2 ^ m.log2) * 2 ^ (52 - m.log2) < 2 ^ m.log2 * 2 ^ (52 - m.log2) := by
    refine Nat.mul_lt_mul_of_pos_right ?_ (Nat.two_pow_pos _)
    rw [Nat.pow_succ] at hlt
    omega
  omega

/-- Narrowing, on the fields of a `double`. -/
theorem doubleToFloat_ofNat {s e m : Nat} (hs : s < 2) (he : e < 2 ^ 11) (hm : m < 2 ^ 52) :
    doubleToFloat (UInt64.ofNat (s * 2 ^ 63 + e * 2 ^ 52 + m)) =
      if e = 2047 then
        UInt32.ofNat (s * 2 ^ 31 + 255 * 2 ^ 23
          + if m = 0 then 0 else m / 2 ^ 29 % 2 ^ 22 + 2 ^ 22)
      else if e = 0 then UInt32.ofNat (s * 2 ^ 31)
      else UInt32.ofNat (s * 2 ^ 31 + min
        (if 897 ≤ e then (e - 897) * 2 ^ 23 + roundShift (2 ^ 52 + m) 29
          else roundShift (2 ^ 52 + m) (29 + (897 - e))) (255 * 2 ^ 23)) := by
  have hn : (UInt64.ofNat (s * 2 ^ 63 + e * 2 ^ 52 + m)).toNat = s * 2 ^ 63 + e * 2 ^ 52 + m :=
    UInt64.toNat_ofNat_of_lt' (by simp only [UInt64.size]; omega)
  have hsign : (s * 2 ^ 63 + e * 2 ^ 52 + m) / 2 ^ 63 = s := by omega
  have hexp : (s * 2 ^ 63 + e * 2 ^ 52 + m) / 2 ^ 52 % 2 ^ 11 = e := by omega
  have hman : (s * 2 ^ 63 + e * 2 ^ 52 + m) % 2 ^ 52 = m := by omega
  simp only [doubleToFloat, hn, hsign, hexp, hman]

/-- **Widening and narrowing back** gives the same `float`, a NaN made quiet. -/
theorem doubleToFloat_floatToDouble (f : UInt32) : doubleToFloat (floatToDouble f) = quiet f := by
  have hf : f.toNat < 2 ^ 32 := f.toNat_lt
  have hofNat : UInt32.ofNat f.toNat = f := UInt32.ofNat_toNat
  simp only [floatToDouble, quiet]
  generalize f.toNat = n at hf hofNat ⊢
  have hs : n / 2 ^ 31 < 2 := by omega
  have hm : n % 2 ^ 23 < 2 ^ 23 := Nat.mod_lt _ (by omega)
  have he : n / 2 ^ 23 % 2 ^ 8 < 2 ^ 8 := Nat.mod_lt _ (by omega)
  have hsplit : n / 2 ^ 31 * 2 ^ 31 + n / 2 ^ 23 % 2 ^ 8 * 2 ^ 23 + n % 2 ^ 23 = n := by omega
  generalize n / 2 ^ 31 = s at *
  generalize n / 2 ^ 23 % 2 ^ 8 = e at *
  generalize n % 2 ^ 23 = m at *
  by_cases h255 : e = 255
  · -- infinity, or a NaN, which keeps the rest of its payload
    rw [if_pos h255]
    by_cases h0 : m = 0
    · rw [if_pos h0, if_neg (fun h : e = 255 ∧ m ≠ 0 => h.2 h0),
        doubleToFloat_ofNat hs (by decide) (by decide), if_pos rfl, if_pos rfl, ← hofNat, ← hsplit,
        h255, h0]
    · have hpayload : (m * 2 ^ 29 % 2 ^ 51 + 2 ^ 51) / 2 ^ 29 % 2 ^ 22 = m % 2 ^ 22 := by omega
      rw [if_neg h0, if_pos (And.intro h255 h0),
        doubleToFloat_ofNat hs (by decide) (by omega), if_pos rfl, if_neg (by omega), hpayload]
  · rw [if_neg h255, if_neg (fun h : e = 255 ∧ m ≠ 0 => h255 h.1), ← hofNat, ← hsplit]
    by_cases hzero : e = 0
    · rw [if_pos hzero]
      by_cases h0 : m = 0
      · have hzeros : s * 2 ^ 63 = s * 2 ^ 63 + e * 2 ^ 52 + m := by
          rw [hzero, h0, Nat.zero_mul, Nat.add_zero]
        rw [if_pos h0, hzeros, doubleToFloat_ofNat hs (by omega) (by omega), if_neg (by omega),
          if_pos hzero, hzero, h0, Nat.zero_mul, Nat.add_zero]
      · -- a subnormal is shifted back by as much as it was
        obtain ⟨hk, hfits, hone⟩ := normalize_spec h0 hm
        have hshift : 29 + (897 - (m.log2 + 874)) = 52 - m.log2 := by omega
        have hmin : min m (255 * 2 ^ 23) = e * 2 ^ 23 + m := by omega
        rw [if_neg h0, doubleToFloat_ofNat hs (by omega) hfits, if_neg (by omega),
          if_neg (by omega), if_neg (by omega), hone, hshift, roundShift_mul_pow, hmin,
          Nat.add_assoc]
    · have hone : 2 ^ 52 + m * 2 ^ 29 = (2 ^ 23 + m) * 2 ^ 29 := by omega
      have hmin : min ((e + 896 - 897) * 2 ^ 23 + (2 ^ 23 + m)) (255 * 2 ^ 23)
          = e * 2 ^ 23 + m := by omega
      rw [if_neg hzero, doubleToFloat_ofNat hs (by omega) (by omega), if_neg (by omega),
        if_neg (by omega), if_pos (by omega), hone, roundShift_mul_pow, hmin, Nat.add_assoc]

/-- A NaN or −0. -/
def irregularDouble (d : UInt64) : Bool :=
  d.toNat / 2 ^ 52 % 2 ^ 11 == 2047 && d.toNat % 2 ^ 52 != 0 || d == 0x8000000000000000

/-- A NaN or −0. -/
def irregularFloat (f : UInt32) : Bool :=
  f.toNat / 2 ^ 23 % 2 ^ 8 == 255 && f.toNat % 2 ^ 23 != 0 || f == 0x80000000

theorem irregularFloat_iff (f : UInt32) : irregularFloat f = true ↔
    (f.toNat / 2 ^ 23 % 2 ^ 8 = 255 ∧ f.toNat % 2 ^ 23 ≠ 0) ∨ f = 0x80000000 := by
  simp [irregularFloat]

theorem irregularDouble_iff (d : UInt64) : irregularDouble d = true ↔
    (d.toNat / 2 ^ 52 % 2 ^ 11 = 2047 ∧ d.toNat % 2 ^ 52 ≠ 0) ∨ d = 0x8000000000000000 := by
  simp [irregularDouble]

theorem quiet_of_regular {f : UInt32} (h : irregularFloat f = false) : quiet f = f := by
  rw [← Bool.not_eq_true, irregularFloat_iff, not_or] at h
  simp only [quiet]
  exact if_neg h.1

/-- Narrowing makes a NaN of a NaN. -/
theorem irregularFloat_doubleToFloat {d : UInt64} (h : irregularDouble d = true) :
    irregularFloat (doubleToFloat d) = true := by
  rw [irregularDouble_iff] at h
  rcases h with ⟨hexp, hman⟩ | rfl
  · rw [irregularFloat_iff]
    left
    simp only [doubleToFloat, hexp, if_true, if_neg hman]
    have hd : d.toNat < 2 ^ 64 := d.toNat_lt
    rw [UInt32.toNat_ofNat_of_lt' (by simp only [UInt32.size]; omega)]
    omega
  · decide

theorem irregularDouble_floatToDouble (f : UInt32) :
    irregularDouble (floatToDouble f) = irregularFloat f := by
  rw [Bool.eq_iff_iff]
  constructor
  · intro h
    have hback := irregularFloat_doubleToFloat h
    rw [doubleToFloat_floatToDouble] at hback
    cases hf : irregularFloat f with
    | true => rfl
    | false =>
        rw [quiet_of_regular hf, hf] at hback
        cases hback
  · intro h
    rw [irregularFloat_iff] at h
    rcases h with ⟨hexp, hman⟩ | rfl
    · rw [irregularDouble_iff]
      left
      simp only [floatToDouble, hexp, if_true, if_neg hman]
      have hf : f.toNat < 2 ^ 32 := f.toNat_lt
      rw [UInt64.toNat_ofNat_of_lt' (by simp only [UInt64.size]; omega)]
      omega
    · decide

end EasyGameServer.Lib
