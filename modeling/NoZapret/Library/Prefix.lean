import NoZapret.Library.Block

/-!
# Blocks that start alike

What an access to a block says about every block that continues it, and what
the first hit of a search is.
-/

namespace Block

universe u
variable {α : Type u} {b r : List α}

lemma rd_nat (b : List α) (i : Nat) : rd b i = b[i]? := by
  simp [rd]

lemma slice_nat {i n : Nat} (h : i + n ≤ b.length) :
    slice b i n = some ((b.drop i).take n) := by
  unfold slice
  rw [if_pos (by omega)]
  simp

lemma slice_text (front text rest : List α) :
    slice (front ++ (text ++ rest)) front.length text.length = some text := by
  rw [slice_nat (by simp only [List.length_append]; omega), List.drop_left, List.take_left]

lemma blit_text {p s r t : List α} (h : t.length = s.length) :
    blit (p ++ (s ++ r)) p.length t = some (p ++ (t ++ r)) := by
  unfold blit
  rw [if_pos (by simp only [List.length_append]; omega), Int.toNat_natCast, List.take_left,
    List.drop_length_add_append, h, List.drop_left, List.append_assoc]

/-- The cells of a block after some of them were written. -/
lemma blit_get {b' xs : List α} {i : Nat} (h : blit b i xs = some b') (j : Nat) :
    b'[j]? = if i ≤ j ∧ j < i + xs.length then xs[j - i]? else b[j]? := by
  unfold blit at h
  split at h
  · next hfit =>
    cases h
    rw [Int.toNat_natCast]
    have htake : (b.take i).length = i := by
      rw [List.length_take]
      omega
    rcases Nat.lt_or_ge j i with hj | hj
    · rw [if_neg (by omega), List.append_assoc, List.getElem?_append_left (by omega),
        List.getElem?_take_of_lt hj]
    · rcases Nat.lt_or_ge j (i + xs.length) with hj' | hj'
      · rw [if_pos ⟨hj, hj'⟩, List.append_assoc, List.getElem?_append_right (by omega), htake,
          List.getElem?_append_left (by omega)]
      · rw [if_neg (by omega), List.getElem?_append_right (by rw [List.length_append]; omega),
          List.length_append, htake, List.getElem?_drop]
        congr 1
        omega
  · cases h

lemma blit_fits {xs : List α} {i : Nat} (h : i + xs.length ≤ b.length) :
    ∃ b', blit b i xs = some b' := by
  unfold blit
  rw [if_pos (by omega)]
  exact ⟨_, rfl⟩

lemma slice_get {xs : List α} {i len j : Int} (h : slice b i len = some xs) (hj : 0 ≤ j)
    (hlen : j < len) : xs[j.toNat]? = rd b (i + j) := by
  unfold slice at h
  split at h
  · cases h
    rw [List.getElem?_take_of_lt (by omega), List.getElem?_drop, rd, if_pos (by omega)]
    congr 1
    omega
  · cases h

lemma rd_range {c : α} {i : Int} (h : rd b i = some c) : 0 ≤ i ∧ i < b.length := by
  unfold rd at h
  split at h
  · next hi =>
    obtain ⟨hlt, -⟩ := List.getElem?_eq_some_iff.mp h
    omega
  · cases h

lemma rd_front (h : r <+: b) {i : Int} (hi : i < r.length) : rd b i = rd r i := by
  obtain ⟨t, rfl⟩ := h
  unfold rd
  split
  · rw [List.getElem?_append_left (by omega)]
  · rfl

lemma slice_front (h : r <+: b) {i len : Int} (hi : i + len ≤ r.length) :
    slice b i len = slice r i len := by
  obtain ⟨t, rfl⟩ := h
  unfold slice
  simp only [List.length_append]
  by_cases hin : 0 ≤ i ∧ 0 ≤ len
  · rw [if_pos (by omega), if_pos (by omega), List.drop_append_of_le_length (by omega),
      List.take_append_of_le_length (by simp only [List.length_drop]; omega)]
  · rw [if_neg (by omega), if_neg (by omega)]

lemma getElem?_front (h : r <+: b) {i : Nat} {x : α} (hx : r[i]? = some x) : b[i]? = some x := by
  obtain ⟨t, rfl⟩ := h
  rw [List.getElem?_append_left (List.getElem?_eq_some_iff.mp hx).1]
  exact hx

lemma take_drop_front (h : r <+: b) {i len : Nat} (hlen : i + len ≤ r.length) :
    (b.drop i).take len = (r.drop i).take len := by
  obtain ⟨t, rfl⟩ := h
  rw [List.drop_append_of_le_length (by omega),
    List.take_append_of_le_length (by simp only [List.length_drop]; omega)]

lemma prefix_of_take_eq {y : List α} (h : r <+: b) {i len : Nat} (hlen : r.length ≤ i + len)
    (heq : (b.drop i).take len = y.take len) : r.drop i <+: y := by
  by_cases hi : i ≤ r.length
  · have hdrop : r.drop i <+: (b.drop i).take len := by
      obtain ⟨t, rfl⟩ := h
      rw [List.drop_append_of_le_length hi, List.take_append, List.take_of_length_le
        (by simp only [List.length_drop]; omega)]
      exact List.prefix_append _ _
    rw [heq] at hdrop
    exact hdrop.trans <| List.take_prefix len y
  · rw [List.drop_eq_nil_of_le (by omega)]
    exact List.nil_prefix

/-- The first cell of `[i, n)` that satisfies `p`. -/
structure FirstHit (b : List α) (p : α → Bool) (i n k : Nat) : Prop where
  ge : i ≤ k
  lt : k < n
  hit : ∃ x, b[k]? = some x ∧ p x = true
  first : ∀ j x, i ≤ j → j < k → b[j]? = some x → p x = false

/-- A search ends at the first hit or finds that there is none. -/
lemma findIn_cases (p : α → Bool) {i n : Nat} (hi : i ≤ n) (hn : n ≤ b.length) :
    (∃ k : Nat, findIn b p i ((n : Int) - i) = some (some (k : Int)) ∧ FirstHit b p i n k) ∨
      (findIn b p i ((n : Int) - i) = some none ∧
        ∀ j x, i ≤ j → j < n → b[j]? = some x → p x = false) := by
  have hcell : ∀ j, j < n - i → ((b.drop i).take (n - i))[j]? = b[i + j]? := by
    intro j hj
    rw [List.getElem?_take_of_lt hj, List.getElem?_drop]
  unfold findIn
  rw [slice_eq hi hn]
  cases hfind : ((b.drop i).take (n - i)).findIdx? p with
  | none =>
    right
    constructor
    · simp [hfind]
    · intro j x hij hjn hx
      rw [List.findIdx?_eq_none_iff] at hfind
      apply hfind
      apply List.mem_of_getElem? (i := j - i)
      rw [hcell _ (by omega), Nat.add_sub_cancel' hij, hx]
  | some k =>
    left
    obtain ⟨hk, hpk, hfirst⟩ := List.findIdx?_eq_some_iff_getElem.mp hfind
    have hkn : k < n - i := by
      simp only [List.length_take, List.length_drop] at hk
      omega
    refine ⟨i + k, by simp [hfind], by omega, by omega, ⟨_, ?_, hpk⟩, ?_⟩
    · rw [← hcell k hkn, List.getElem?_eq_getElem hk]
    · intro j x hij hj hx
      have hlt := hfirst (j - i) (by omega)
      have hget : ((b.drop i).take (n - i))[j - i]? = some x := by
        rw [hcell _ (by omega), Nat.add_sub_cancel' hij, hx]
      rw [List.getElem?_eq_some_iff] at hget
      obtain ⟨_, hget⟩ := hget
      simpa [hget] using hlt

lemma FirstHit.unique {p : α → Bool} {i n n' k k' : Nat} (h : FirstHit b p i n k)
    (h' : FirstHit b p i n' k') : k = k' := by
  obtain ⟨x, hx, hpx⟩ := h.hit
  obtain ⟨x', hx', hpx'⟩ := h'.hit
  rcases Nat.lt_trichotomy k k' with hlt | heq | hgt
  · have hno := h'.first k x h.ge hlt hx
    rw [hpx] at hno
    cases hno
  · exact heq
  · have hno := h.first k' x' h'.ge hgt hx'
    rw [hpx'] at hno
    cases hno

lemma FirstHit.front {p : α → Bool} {i k : Nat} (h : FirstHit r p i r.length k) (hr : r <+: b) :
    FirstHit b p i b.length k := by
  have hlen := hr.length_le
  have hk := h.lt
  refine ⟨h.ge, by omega, ?_, ?_⟩
  · obtain ⟨x, hx, hpx⟩ := h.hit
    exact ⟨x, getElem?_front hr hx, hpx⟩
  · intro j x hij hjk hx
    have hjr : j < r.length := by omega
    have hj : r[j]? = some r[j] := List.getElem?_eq_getElem hjr
    rw [getElem?_front hr hj] at hx
    exact h.first j x hij hjk (hj.trans hx)

/-- A search that is known to have a hit finds it. -/
lemma findIn_of_firstHit {p : α → Bool} {i n k : Nat} (h : FirstHit b p i n k)
    (hn : n ≤ b.length) : findIn b p i ((n : Int) - i) = some (some (k : Int)) := by
  have hlt := h.lt
  have hge := h.ge
  rcases findIn_cases p (i := i) (by omega) hn with ⟨k', hfind, hfirst⟩ | ⟨-, hnone⟩
  · rw [hfind, h.unique hfirst]
  · obtain ⟨x, hx, hpx⟩ := h.hit
    rw [hnone k x hge hlt hx] at hpx
    cases hpx

/-- The first hit behind cells that are passed. -/
lemma firstHit_text {p : α → Bool} {a s r : List α} {c : α}
    (hpass : ∀ x ∈ s, p x = false) (hc : p c = true) :
    FirstHit (a ++ (s ++ c :: r)) p a.length (a ++ (s ++ c :: r)).length
      (a.length + s.length) := by
  refine ⟨Nat.le_add_right _ _, ?_, ⟨c, ?_, hc⟩, ?_⟩
  · simp only [List.length_append, List.length_cons]
    omega
  · rw [List.getElem?_append_right (Nat.le_add_right _ _), Nat.add_sub_cancel_left]
    simp
  · intro j x hj hlt hx
    rw [List.getElem?_append_right hj, List.getElem?_append_left (by omega)] at hx
    exact hpass x (List.mem_of_getElem? hx)

end Block
