import Mathlib.Data.UInt
import Mathlib.Tactic.Common

namespace Tempio.Lib.Words

/-- The two bytes of a 16-bit word in memory order, least significant first. -/
def le16 (x : UInt16) : List UInt8 := [x.toUInt8, UInt8.ofNat (x.toNat / 256)]

def ofLe16 (lo hi : UInt8) : UInt16 := UInt16.ofNat (lo.toNat + 256 * hi.toNat)

def le32 (x : UInt32) : List UInt8 :=
  [x.toUInt8, UInt8.ofNat (x.toNat / 256), UInt8.ofNat (x.toNat / 65536), UInt8.ofNat (x.toNat / 16777216)]

def ofLe32 (a b c d : UInt8) : UInt32 :=
  UInt32.ofNat (a.toNat + 256 * b.toNat + 65536 * c.toNat + 16777216 * d.toNat)

/-- Read consecutive little-endian words; `none` on an odd byte. -/
def words : List UInt8 → Option (List UInt16)
  | [] => some []
  | [_] => none
  | lo :: hi :: bs => (words bs).map (ofLe16 lo hi :: ·)

@[simp]
theorem length_le16 (x : UInt16) : (le16 x).length = 2 := rfl

@[simp]
theorem ofLe16_le16 (x : UInt16) :
    ofLe16 x.toUInt8 (UInt8.ofNat (x.toNat / 256)) = x := by
  apply UInt16.toNat.inj
  have := x.toNat_lt
  simp only [ofLe16, UInt16.toNat_ofNat', UInt8.toNat_ofNat', UInt16.toNat_toUInt8]
  omega

@[simp]
theorem le16_ofLe16 (lo hi : UInt8) : le16 (ofLe16 lo hi) = [lo, hi] := by
  have hlo := lo.toNat_lt
  have hhi := hi.toNat_lt
  have hnat : (ofLe16 lo hi).toNat = lo.toNat + 256 * hi.toNat := by
    rw [ofLe16, UInt16.toNat_ofNat']
    omega
  rw [le16, List.cons.injEq, List.cons.injEq]
  refine ⟨UInt8.toNat.inj ?_, UInt8.toNat.inj ?_, rfl⟩
  · rw [UInt16.toNat_toUInt8, hnat]
    omega
  · rw [UInt8.toNat_ofNat', hnat]
    omega

@[simp]
theorem ofLe32_le32 (x : UInt32) :
    ofLe32 x.toUInt8 (UInt8.ofNat (x.toNat / 256)) (UInt8.ofNat (x.toNat / 65536))
      (UInt8.ofNat (x.toNat / 16777216)) = x := by
  apply UInt32.toNat.inj
  have := x.toNat_lt
  simp only [ofLe32, UInt32.toNat_ofNat', UInt8.toNat_ofNat', UInt32.toNat_toUInt8]
  omega

@[simp]
theorem le32_ofLe32 (a b c d : UInt8) : le32 (ofLe32 a b c d) = [a, b, c, d] := by
  have ha := a.toNat_lt
  have hb := b.toNat_lt
  have hc := c.toNat_lt
  have hd := d.toNat_lt
  have hnat : (ofLe32 a b c d).toNat =
      a.toNat + 256 * b.toNat + 65536 * c.toNat + 16777216 * d.toNat := by
    rw [ofLe32, UInt32.toNat_ofNat']
    omega
  rw [le32, List.cons.injEq, List.cons.injEq, List.cons.injEq, List.cons.injEq]
  refine ⟨UInt8.toNat.inj ?_, UInt8.toNat.inj ?_, UInt8.toNat.inj ?_, UInt8.toNat.inj ?_, rfl⟩
  · rw [UInt32.toNat_toUInt8, hnat]
    omega
  · rw [UInt8.toNat_ofNat', hnat]
    omega
  · rw [UInt8.toNat_ofNat', hnat]
    omega
  · rw [UInt8.toNat_ofNat', hnat]
    omega

theorem words_flatMap_le16 (xs : List UInt16) : words (xs.flatMap le16) = some xs := by
  induction xs with
  | nil => rfl
  | cons x xs ih =>
      simp only [List.flatMap_cons, le16, List.cons_append, List.nil_append, words, ofLe16_le16]
      rw [ih, Option.map_some]

theorem length_flatMap_le16 (xs : List UInt16) : (xs.flatMap le16).length = 2 * xs.length := by
  simp [List.length_flatMap, Nat.mul_comm]

theorem toNat_sub_ofNat {stamp now : Nat} (h : stamp ≤ now) :
    (UInt32.ofNat now - UInt32.ofNat stamp).toNat = (now - stamp) % 2 ^ 32 := by
  simp only [UInt32.toNat_sub, UInt32.toNat_ofNat']
  omega

theorem sub_lt_iff {stamp now : Nat} {ttl : UInt32} (h : stamp ≤ now) (hn : now < 2 ^ 32) :
    UInt32.ofNat now - UInt32.ofNat stamp < ttl ↔ now - stamp < ttl.toNat := by
  rw [UInt32.lt_iff_toNat_lt, toNat_sub_ofNat h, Nat.mod_eq_of_lt (by omega)]

theorem toNat_ofInt16 (x : Int) : ((UInt16.ofInt x).toNat : Int) = x % 2 ^ 16 := by
  rw [UInt16.ofInt, UInt16.toNat_ofNat']
  omega

theorem toNat_ofInt8 (x : Int) : ((UInt8.ofInt x).toNat : Int) = x % 2 ^ 8 := by
  rw [UInt8.ofInt, UInt8.toNat_ofNat']
  omega

theorem toNat_ofInt16_eq_iff (x : Int) :
    ((UInt16.ofInt x).toNat : Int) = x ↔ 0 ≤ x ∧ x < 2 ^ 16 := by
  rw [toNat_ofInt16]
  omega

@[simp]
theorem ofInt_toNat (x : UInt16) : UInt16.ofInt (x.toNat : Int) = x := by
  have h := x.toNat_lt
  have hi := (toNat_ofInt16_eq_iff x.toNat).mpr (by omega)
  exact UInt16.toNat.inj (by omega)

end Tempio.Lib.Words
