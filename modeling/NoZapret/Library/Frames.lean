import Mathlib.Data.List.Basic

/-!
# Length-prefixed frames

A frame is a header, the length of its payload in two bytes, high byte first,
and the payload. Headers of one stream all have the same length. A stream of
frames that share a header reads back as its payloads.
-/

namespace Frames

/-- Two bytes, high byte first. -/
def be16 (v : Nat) : List UInt8 := [UInt8.ofNat (v / 256), UInt8.ofNat (v % 256)]

def ofBe16 (hi lo : UInt8) : Nat := hi.toNat * 256 + lo.toNat

@[simp] lemma be16_length (v : Nat) : (be16 v).length = 2 := rfl

lemma ofBe16_lt (hi lo : UInt8) : ofBe16 hi lo < 65536 := by
  have := hi.toNat_lt
  have := lo.toNat_lt
  unfold ofBe16
  omega

lemma ofBe16_be16 {v : Nat} (h : v < 65536) :
    ofBe16 (UInt8.ofNat (v / 256)) (UInt8.ofNat (v % 256)) = v := by
  simp only [ofBe16, UInt8.toNat_ofNat']
  omega

lemma be16_ofBe16 (hi lo : UInt8) : be16 (ofBe16 hi lo) = [hi, lo] := by
  have hhi := hi.toNat_lt
  have hlo := lo.toNat_lt
  have hdiv : (hi.toNat * 256 + lo.toNat) / 256 = hi.toNat := by omega
  have hmod : (hi.toNat * 256 + lo.toNat) % 256 = lo.toNat := by omega
  simp only [be16, ofBe16, hdiv, hmod, UInt8.ofNat_toNat]

def frame (header payload : List UInt8) : List UInt8 := header ++ be16 payload.length ++ payload

lemma frame_length (header payload : List UInt8) :
    (frame header payload).length = header.length + 2 + payload.length := by
  simp only [frame, List.length_append, be16_length]

/-- The first `k` frames of a stream whose headers take `w` bytes, each as its
header and its payload, and what follows them. -/
def readFrames (w : Nat) : Nat → List UInt8 → Option (List (List UInt8 × List UInt8) × List UInt8)
  | 0, s => some ([], s)
  | k + 1, s =>
    match s.drop w with
    | hi :: lo :: body =>
      if ofBe16 hi lo ≤ body.length then do
        let (fs, rest) ← readFrames w k (body.drop (ofBe16 hi lo))
        return ((s.take w, body.take (ofBe16 hi lo)) :: fs, rest)
      else none
    | _ => none

lemma readFrames_frame {w k : Nat} {header payload s : List UInt8} (hw : header.length = w)
    (hsize : payload.length < 65536) :
    readFrames w (k + 1) (frame header payload ++ s) =
      (readFrames w k s).map fun r => ((header, payload) :: r.1, r.2) := by
  subst hw
  have hread := ofBe16_be16 hsize
  simp only [readFrames, frame, be16, List.append_assoc, List.drop_left, List.take_left,
    List.cons_append, List.nil_append, hread]
  rw [if_pos (by simp)]
  cases readFrames header.length k s <;> rfl

/-- Frames with one header read back as their payloads. -/
theorem readFrames_flatMap {w : Nat} {header rest : List UInt8} (hw : header.length = w)
    (pieces : List (List UInt8)) (hsize : ∀ p ∈ pieces, p.length < 65536) :
    readFrames w pieces.length (pieces.flatMap (frame header) ++ rest) =
      some (pieces.map fun p => (header, p), rest) := by
  induction pieces with
  | nil => rfl
  | cons p pieces ih =>
    have hp : p.length < 65536 := hsize p (by simp)
    have hrest := ih fun q hq => hsize q (by simp [hq])
    rw [List.flatMap_cons, List.append_assoc, List.length_cons, readFrames_frame hw hp, hrest]
    rfl

/-- A frame that reads is one. -/
theorem readFrames_one {w : Nat} {s header payload rest : List UInt8}
    (h : readFrames w 1 s = some ([(header, payload)], rest)) :
    s = frame header payload ++ rest ∧ payload.length < 65536 := by
  simp only [readFrames] at h
  split at h
  · next hi lo body hs =>
    split at h
    · next hfit =>
      simp only [Option.bind_eq_bind, Option.bind_some, Option.pure_def, Option.some.injEq,
        Prod.mk.injEq, List.cons.injEq, and_true] at h
      obtain ⟨⟨rfl, rfl⟩, rfl⟩ := h
      have hlen : (body.take (ofBe16 hi lo)).length = ofBe16 hi lo := by
        simp only [List.length_take]
        omega
      constructor
      · simp only [frame, hlen, be16_ofBe16, List.append_assoc, List.take_append_drop,
          List.cons_append, List.nil_append]
        rw [← hs, List.take_append_drop]
      · rw [hlen]
        exact ofBe16_lt hi lo
    · cases h
  · cases h

end Frames
