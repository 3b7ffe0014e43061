/-
  EasyGameServer.Lib.Bytes

  Fixed-width integers as little-endian byte strings, and C strings in
  fixed-size character arrays.

  A `CString n` is a `char[n]` that holds a terminator, so a reader of one can
  never run off its end.  `strcpyS` is the checked copy of the C runtime: it
  fails (the runtime ends the process) when the source has no terminator
  within the destination's size, and is the only way to turn raw bytes into a
  `CString`.
-/

import Mathlib.Algebra.Group.Int.Defs
import Mathlib.Algebra.Group.Nat.Defs
import Mathlib.Data.List.Basic
import Mathlib.Data.List.GetD

namespace EasyGameServer.Lib

/-! ## Little-endian integers -/

/-- The number a little-endian byte string denotes. -/
def leNat : List UInt8 → Nat
  | [] => 0
  | b :: rest => b.toNat + 256 * leNat rest

/-- The `k` low bytes of a number, least significant first. -/
def leBytes : Nat → Nat → List UInt8
  | 0, _ => []
  | k + 1, n => UInt8.ofNat n :: leBytes k (n / 256)

@[simp] theorem length_leBytes (k n : Nat) : (leBytes k n).length = k := by
  induction k generalizing n with
  | zero => rfl
  | succ k ih => simp [leBytes, ih]

/-- Decoding what was encoded gives the number back modulo the width. -/
theorem leNat_leBytes (k n : Nat) : leNat (leBytes k n) = n % 256 ^ k := by
  induction k generalizing n with
  | zero => simp [leNat, leBytes, Nat.mod_one]
  | succ k ih =>
      have hpow : 256 ^ (k + 1) = 256 * 256 ^ k := Nat.pow_succ'
      rw [leBytes, leNat, ih, UInt8.toNat_ofNat', hpow]
      exact Nat.mod_mul.symm

/-- The run of `len` bytes at offset `off` of a byte string. -/
def field (bs : List UInt8) (off len : Nat) : List UInt8 := (bs.drop off).take len

/-- A field of a prefix is the field of the whole. -/
theorem field_take (bs : List UInt8) {off len n : Nat} (h : off + len ≤ n) :
    field (bs.take n) off len = field bs off len := by
  rw [field, field, List.drop_take, List.take_take, Nat.min_eq_left (by omega)]

def int16At (bs : List UInt8) (off : Nat) : Int16 :=
  Int16.ofBitVec (BitVec.ofNat 16 (leNat (field bs off 2)))

def int32At (bs : List UInt8) (off : Nat) : Int32 :=
  Int32.ofBitVec (BitVec.ofNat 32 (leNat (field bs off 4)))

def uint32At (bs : List UInt8) (off : Nat) : UInt32 :=
  UInt32.ofNat (leNat (field bs off 4))

def int16Bytes (x : Int16) : List UInt8 := leBytes 2 x.toBitVec.toNat

def int32Bytes (x : Int32) : List UInt8 := leBytes 4 x.toBitVec.toNat

def uint32Bytes (x : UInt32) : List UInt8 := leBytes 4 x.toNat

@[simp] theorem length_int16Bytes (x : Int16) : (int16Bytes x).length = 2 := length_leBytes ..
@[simp] theorem length_int32Bytes (x : Int32) : (int32Bytes x).length = 4 := length_leBytes ..
@[simp] theorem length_uint32Bytes (x : UInt32) : (uint32Bytes x).length = 4 := length_leBytes ..

/-- What was laid out at an offset is the field there. -/
theorem field_of_eq {bs pre x rest : List UInt8} {off len : Nat} (h : bs = pre ++ (x ++ rest))
    (hoff : pre.length = off) (hlen : x.length = len) : field bs off len = x := by
  subst hoff hlen
  rw [field, h, List.drop_left, List.take_left]

theorem int16At_of_eq {bs pre rest : List UInt8} {x : Int16} {off : Nat}
    (h : bs = pre ++ (int16Bytes x ++ rest)) (hoff : pre.length = off) : int16At bs off = x := by
  have hlt : x.toBitVec.toNat < 256 ^ 2 := x.toBitVec.isLt
  rw [int16At, field_of_eq h hoff (length_int16Bytes x), int16Bytes, leNat_leBytes,
    Nat.mod_eq_of_lt hlt, BitVec.ofNat_toNat, BitVec.setWidth_eq, Int16.ofBitVec_toBitVec]

theorem int32At_of_eq {bs pre rest : List UInt8} {x : Int32} {off : Nat}
    (h : bs = pre ++ (int32Bytes x ++ rest)) (hoff : pre.length = off) : int32At bs off = x := by
  have hlt : x.toBitVec.toNat < 256 ^ 4 := x.toBitVec.isLt
  rw [int32At, field_of_eq h hoff (length_int32Bytes x), int32Bytes, leNat_leBytes,
    Nat.mod_eq_of_lt hlt, BitVec.ofNat_toNat, BitVec.setWidth_eq, Int32.ofBitVec_toBitVec]

theorem uint32At_of_eq {bs pre rest : List UInt8} {x : UInt32} {off : Nat}
    (h : bs = pre ++ (uint32Bytes x ++ rest)) (hoff : pre.length = off) :
    uint32At bs off = x := by
  have hlt : x.toNat < 256 ^ 4 := x.toNat_lt
  rw [uint32At, field_of_eq h hoff (length_uint32Bytes x), uint32Bytes, leNat_leBytes,
    Nat.mod_eq_of_lt hlt, UInt32.ofNat_toNat]

/-! ## C strings -/

/-- A `char[n]`. -/
@[ext] structure CharArray (n : Nat) where
  bytes : List UInt8
  size : bytes.length = n
deriving DecidableEq

/-- The `char[n]` at offset `off` of a byte string that reaches that far;
    missing bytes read as zero. -/
def charArrayAt (bs : List UInt8) (off n : Nat) : CharArray n where
  bytes := (field bs off n).rightpad n 0
  size := by
    simp only [field, List.rightpad, List.length_append, List.length_replicate,
      List.length_take, List.length_drop]
    omega

theorem charArrayAt_of_eq {bs pre rest : List UInt8} {n off : Nat} {x : CharArray n}
    (h : bs = pre ++ (x.bytes ++ rest)) (hoff : pre.length = off) : charArrayAt bs off n = x := by
  have hfield : field bs off n = x.bytes := field_of_eq h hoff x.size
  apply CharArray.ext
  change (field bs off n).rightpad n 0 = x.bytes
  rw [hfield, List.rightpad, x.size, Nat.sub_self, List.replicate_zero, List.append_nil]

/-- A `char[n]` with a terminator in it. -/
structure CString (n : Nat) extends CharArray n where
  terminated : (0 : UInt8) ∈ bytes
deriving DecidableEq

namespace CString

variable {n : Nat}

/-- The text up to the terminator. -/
def text (s : CString n) : List UInt8 := s.bytes.takeWhile (· ≠ 0)

/-- `memset(buf, 0, n)`. -/
def zeros (n : Nat) (h : 0 < n) : CString n where
  bytes := List.replicate n 0
  size := List.length_replicate
  terminated := List.mem_replicate.mpr ⟨by omega, rfl⟩

end CString

/-- `strcpy_s(dst, src)` into a `char[n]`: the source up to and with its
    terminator, then what the destination held.  `none` when no terminator
    comes within the first `n` bytes of the source. -/
def strcpyS {n : Nat} (dst : CString n) (src : List UInt8) : Option (CString n) :=
  if h : (src.takeWhile (· ≠ 0)).length < n
      ∧ (src.takeWhile (· ≠ 0)).length < src.length then
    some
      { bytes := src.takeWhile (· ≠ 0)
          ++ 0 :: dst.bytes.drop ((src.takeWhile (· ≠ 0)).length + 1)
        size := by
          simp only [List.length_append, List.length_cons, List.length_drop, dst.size]
          omega
        terminated := by simp }
  else none

/-- Where the text before the terminator stops. -/
theorem length_takeWhile_lt_iff {src : List UInt8} :
    (src.takeWhile (· ≠ 0)).length < src.length ↔ (0 : UInt8) ∈ src := by
  induction src with
  | nil => simp
  | cons b rest ih =>
      by_cases hb : b = 0
      · simp [hb]
      · simp only [ne_eq, hb, not_false_eq_true, decide_true, List.takeWhile_cons_of_pos,
          List.length_cons, Nat.add_lt_add_iff_right, List.mem_cons]
        rw [ih]
        exact ⟨Or.inr, fun h => h.resolve_left (Ne.symm hb)⟩

/-- The text of an array leaves room for its terminator. -/
theorem CString.length_text_lt {n : Nat} (s : CString n) : s.text.length < n := by
  have hlt := length_takeWhile_lt_iff.mpr s.terminated
  rwa [s.size] at hlt

/-- The checked copy fails exactly on a source without a terminator, when the
    source is no longer than the destination. -/
theorem strcpyS_isSome_iff {n : Nat} (dst : CString n) {src : List UInt8}
    (h : src.length ≤ n) : (strcpyS dst src).isSome ↔ (0 : UInt8) ∈ src := by
  rw [← length_takeWhile_lt_iff]
  unfold strcpyS
  by_cases hlt : (src.takeWhile (· ≠ 0)).length < src.length
  · rw [dif_pos ⟨by omega, hlt⟩]
    simpa using hlt
  · rw [dif_neg (by omega)]
    simpa using hlt

/-- The copy carries the text. -/
theorem text_strcpyS {n : Nat} {dst res : CString n} {src : List UInt8}
    (h : strcpyS dst src = some res) : res.text = src.takeWhile (· ≠ 0) := by
  unfold strcpyS at h
  split at h
  · cases h
    rw [CString.text]
    have hall : ∀ b ∈ src.takeWhile (· ≠ 0), decide (b ≠ 0) = true := fun b hb =>
      List.all_eq_true.mp List.all_takeWhile b hb
    rw [List.takeWhile_append_of_pos hall]
    simp
  · cases h

/-- `strcpy_s` between arrays of one size, from one that holds a string. -/
def CString.copy {n : Nat} (dst src : CString n) : CString n :=
  (strcpyS dst src.bytes).get
    ((strcpyS_isSome_iff dst (Nat.le_of_eq src.size)).mpr src.terminated)

theorem CString.text_copy {n : Nat} (dst src : CString n) : (dst.copy src).text = src.text :=
  text_strcpyS (Option.some_get _).symm

end EasyGameServer.Lib
