import NoZapret.Library.Frames
import NoZapret.Library.Splice
import NoZapret.Packets

/-!
# Packet helpers on a buffer in pieces

What the readers and writers of `packets.c` do on a buffer that is written as a
concatenation around the bytes they touch.
-/

namespace PacketsSpec

open Block Frames Packets

lemma u16_of_lt {v : Nat} (h : v < 65536) : u16 (v : Int) = v := by
  unfold u16
  omega

lemma antohs_lt {b : Bytes} {i : Int} {v : Nat} (h : antohs b i = some v) : v < 65536 := by
  simp only [antohs, Option.bind_eq_bind, Option.bind_eq_some_iff] at h
  obtain ⟨hi, -, lo, -, h⟩ := h
  cases h
  have hhi := hi.toNat_lt
  have hlo := lo.toNat_lt
  omega

lemma antohs_splice {b x z : Bytes} {i : Int} {hi lo : UInt8} (hb : b = x ++ hi :: lo :: z)
    (hx : i = x.length) : antohs b i = some (ofBe16 hi lo) := by
  have h1 : rd b i = some hi := rd_splice hb hx
  have h2 : rd b (i + 1) = some lo := by
    have hb' : b = (x ++ [hi]) ++ lo :: z := by simp [hb]
    exact rd_splice hb' (by simp [hx])
  simp only [antohs, h1, h2, Option.bind_eq_bind, Option.bind_some]
  rfl

lemma antohs_be16 {b x z : Bytes} {i : Int} {v : Nat} (hv : v < 65536)
    (hb : b = x ++ be16 v ++ z) (hx : i = x.length) : antohs b i = some v := by
  have hb' : b = x ++ UInt8.ofNat (v / 256) :: UInt8.ofNat (v % 256) :: z := by
    simp [hb, be16]
  rw [antohs_splice hb' hx, ofBe16_be16 hv]

lemma shtona_splice {b x y z : Bytes} {i v : Int} {n : Nat} (hv : u16 v = n)
    (hb : b = x ++ y ++ z) (hy : y.length = 2) (hx : i = x.length) :
    shtona b i v = some (x ++ be16 n ++ z) := by
  obtain ⟨c, d, rfl⟩ := List.length_eq_two.mp hy
  have hb' : b = x ++ c :: d :: z := by simp [hb]
  have h1 : wr b i (UInt8.ofNat (n / 256)) = some (x ++ UInt8.ofNat (n / 256) :: d :: z) :=
    wr_splice hb' hx
  have h2 : wr (x ++ UInt8.ofNat (n / 256) :: d :: z) (i + 1) (UInt8.ofNat (n % 256)) =
      some ((x ++ [UInt8.ofNat (n / 256)]) ++ UInt8.ofNat (n % 256) :: z) := by
    have hd : x ++ UInt8.ofNat (n / 256) :: d :: z =
        (x ++ [UInt8.ofNat (n / 256)]) ++ d :: z := by simp
    exact wr_splice hd (by simp [hx])
  simp only [shtona, hv, h1, h2, Option.bind_eq_bind, Option.bind_some]
  simp [be16]

end PacketsSpec
