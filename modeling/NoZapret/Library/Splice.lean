import NoZapret.Library.Block

/-!
# Editing a block in pieces

A block written as a concatenation, and what one access does to the piece it
covers. Each rule takes the decomposition as an equation, so that it can be
applied to a block whose pieces are associated differently.
-/

namespace Block

universe u
variable {α : Type u} {b x y z : List α} {i len : Int}

lemma rd_splice {a : α} (hb : b = x ++ a :: z) (hi : i = x.length) : rd b i = some a := by
  subst hb hi
  simp [rd]

lemma wr_splice {a c : α} (hb : b = x ++ a :: z) (hi : i = x.length) :
    wr b i c = some (x ++ c :: z) := by
  subst hb hi
  simp only [wr, List.length_append, List.length_cons]
  rw [if_pos (by omega)]
  simp

lemma slice_splice (hb : b = x ++ y ++ z) (hi : i = x.length) (hlen : len = y.length) :
    slice b i len = some y := by
  subst hb hi hlen
  simp only [slice, List.length_append]
  rw [if_pos (by omega)]
  simp

lemma blit_splice {xs : List α} (hb : b = x ++ y ++ z) (hi : i = x.length)
    (hlen : xs.length = y.length) : blit b i xs = some (x ++ xs ++ z) := by
  subst hb hi
  simp only [blit, List.length_append]
  rw [if_pos (by omega)]
  simp [hlen]

/-- A piece copied over another one of its size. -/
lemma memmove_splice {dst src : Int} {s t : List α} (hs : b = s ++ y ++ t) (hsrc : src = s.length)
    (hlen : len = y.length) {d : List α} (hd : b = x ++ d ++ z) (hdst : dst = x.length)
    (hsize : y.length = d.length) : memmove b dst src len = some (x ++ y ++ z) := by
  simp only [memmove, Option.bind_eq_bind, slice_splice hs hsrc hlen, Option.bind_some]
  exact blit_splice hd hdst hsize

/-- A piece moved up over the gap behind it. -/
lemma memmove_up {dst src : Int} {gap : List α} (hb : b = x ++ y ++ gap ++ z)
    (hsrc : src = x.length) (hdst : dst = x.length + gap.length) (hlen : len = y.length) :
    ∃ g, g.length = gap.length ∧ memmove b dst src len = some (x ++ g ++ y ++ z) := by
  have hg : ((y ++ gap).take gap.length).length = gap.length := by
    simp only [List.length_take, List.length_append]
    omega
  have hd : ((y ++ gap).drop gap.length).length = y.length := by
    simp only [List.length_drop, List.length_append]
    omega
  refine ⟨(y ++ gap).take gap.length, hg, ?_⟩
  apply memmove_splice (s := x) (t := gap ++ z) (d := (y ++ gap).drop gap.length)
  · simp [hb]
  · exact hsrc
  · exact hlen
  · rw [List.append_assoc x, List.take_append_drop, hb, List.append_assoc x]
  · simp only [List.length_append, hg]
    omega
  · exact hd.symm

/-- A piece moved down over the gap before it; the last cells stay what they were. -/
lemma memmove_down {dst src : Int} {gap : List α} (hb : b = x ++ gap ++ y ++ z)
    (hsrc : src = x.length + gap.length) (hdst : dst = x.length) (hlen : len = y.length) :
    memmove b dst src len = some (x ++ y ++ (gap ++ y).drop y.length ++ z) := by
  have hd : ((gap ++ y).take y.length).length = y.length := by
    simp only [List.length_take, List.length_append]
    omega
  rw [List.append_assoc (x ++ y)]
  apply memmove_splice (s := x ++ gap) (t := z) (d := (gap ++ y).take y.length)
  · exact hb
  · simp only [List.length_append]
    omega
  · exact hlen
  · rw [hb, ← List.append_assoc (x ++ _), List.append_assoc x (List.take _ _),
      List.take_append_drop, ← List.append_assoc x gap]
  · exact hdst
  · exact hd.symm

end Block
