import Mathlib.Algebra.Order.Ring.Int
import Mathlib.Data.List.Basic
import NoZapret.Library.Frames
import NoZapret.Library.Runs
import NoZapret.Library.Machine

/-!
# The timer inside a TLS record

`try_set_tls_timer` as `tcp_recv_hook` calls it for what the remote side sends. It follows the
records of the response from one chunk to the next and arms the timer where the response may not
end.
-/

namespace TlsRecords

open Frames Machine Runs

abbrev Bytes := List UInt8

/-- The fields of an `eval` that follow the records. -/
structure Tls where
  tlsRecSize : Nat
  tlsRecPos : Nat
  tlsRec : Vector UInt8 5
  deriving DecidableEq, Repr

def Tls.zero : Tls := ⟨0, 0, Vector.replicate 5 0⟩

structure Params where
  toBytesLim : Int
  ptimeout : Nat

/-- The remote `eval`; `mark` is its pair's, `timer` the time it is armed for. -/
structure Eval extends Tls where
  recvCount : Nat
  timer : Option Nat
  mark : Bool
  deriving DecidableEq, Repr

/-- No byte of the response has come yet. -/
def Eval.fresh (v : Eval) : Eval := { v with toTls := .zero, mark := true }

/-- What one byte does, wherever a chunk begins. -/
def feedByte (v : Tls) (x : UInt8) : Bool × Tls :=
  if h : v.tlsRecPos < 5 then
    (true, { v with tlsRec := v.tlsRec.set v.tlsRecPos x h, tlsRecPos := v.tlsRecPos + 1 })
  else if v.tlsRecPos = 5 then
    let v : Tls := { v with tlsRecSize := ofBe16 v.tlsRec[3] v.tlsRec[4] + 5 }
    let t : UInt8 := v.tlsRec[0]
    if t < 0x14 ∨ t > 0x18 then (false, v)
    else if v.tlsRecSize ≤ v.tlsRecPos then (false, v)
    else (true, { v with tlsRecPos := v.tlsRecPos + 1 })
  else if v.tlsRecPos = v.tlsRecSize then
    (true, { tlsRecSize := 0, tlsRecPos := 1, tlsRec := v.tlsRec.set 0 x })
  else if v.tlsRecSize ≤ v.tlsRecPos then (false, v)
  else (true, { v with tlsRecPos := v.tlsRecPos + 1 })

/-- The loop from `buff[pos]` on; `false` is the `return -1`. -/
def tlsLoop (buff : Bytes) (n : Nat) : Nat → Nat → Tls → Option (Bool × Tls)
  | 0, _, _ => none
  | fuel + 1, pos, v =>
    let more (pos : Nat) (v : Tls) : Option (Bool × Tls) :=
      if pos < n then tlsLoop buff n fuel pos v else some (true, v)
    let body (v : Tls) : Option (Bool × Tls) :=
      -- zero where the difference is not positive
      let left := v.tlsRecSize - v.tlsRecPos
      if left = 0 then some (false, v)
      else
        let left := if pos + left > n then n - pos else left
        more (pos + left) { v with tlsRecPos := v.tlsRecPos + left }
    if h : v.tlsRecPos < 5 then
      match buff[pos]? with
      | none => none
      | some x =>
        more (pos + 1) { v with tlsRec := v.tlsRec.set v.tlsRecPos x h, tlsRecPos := v.tlsRecPos + 1 }
    else if v.tlsRecPos = 5 then
      let v : Tls := { v with tlsRecSize := ofBe16 v.tlsRec[3] v.tlsRec[4] + 5 }
      let t : UInt8 := v.tlsRec[0]
      if t < 0x14 ∨ t > 0x18 then some (false, v) else body v
    else if v.tlsRecPos = v.tlsRecSize then more pos { v with tlsRecPos := 0, tlsRecSize := 0 }
    else body v

/-- `try_set_tls_timer` -/
def trySetTlsTimer (p : Params) (v : Eval) (buff : Bytes) (n : Nat) : Option (Int × Eval) :=
  if p.toBytesLim ≠ 0 ∧ v.recvCount > p.toBytesLim then some (-1, { v with timer := none })
  else
    match tlsLoop buff n (2 * n) 0 v.toTls with
    | none => none
    | some (false, t) => some (-1, { v with toTls := t })
    | some (true, t) =>
      if p.ptimeout ≠ 0 then
        let timer := if t.tlsRecPos ≠ t.tlsRecSize then some p.ptimeout else none
        some (0, { v with toTls := t, timer := timer })
      else some (0, { v with toTls := t })

/-- A chunk of the response in `tcp_recv_hook`, as far as the timer goes. -/
def recvChunk (p : Params) (v : Eval) (chunk : Bytes) : Option Eval :=
  let v := { v with recvCount := v.recvCount + chunk.length }
  if v.mark then
    match trySetTlsTimer p v chunk chunk.length with
    | none => none
    | some (r, v) => some (if r ≠ 0 then { v with mark := false } else v)
  else some v

/-- A record by its length only. -/
structure Record where
  type : UInt8
  major : UInt8
  minor : UInt8
  hi : UInt8
  lo : UInt8
  body : Bytes
  size : body.length = ofBe16 hi lo

def Record.bytes (r : Record) : Bytes := r.type :: r.major :: r.minor :: r.hi :: r.lo :: r.body

/-- The stream ends strictly inside a record. -/
def Inside (s : Bytes) : Prop :=
  ∃ (rs : List Record) (r : Record) (part : Bytes), s = rs.flatMap Record.bytes ++ part ∧
    part <+: r.bytes ∧ part ≠ [] ∧ part ≠ r.bytes

/-- The stream ends behind the header of a record that has nothing else. -/
def BehindEmpty (s : Bytes) : Prop :=
  ∃ (rs : List Record) (r : Record), s = rs.flatMap Record.bytes ++ r.bytes ∧ r.body = []

section Bytes

variable {v : Tls}

/-- Bytes of a body are counted only. -/
lemma feed_body (xs rest : Bytes) (h : 5 < v.tlsRecPos)
    (hfit : v.tlsRecPos + xs.length ≤ v.tlsRecSize) :
    feed feedByte v (xs ++ rest) =
      feed feedByte { v with tlsRecPos := v.tlsRecPos + xs.length } rest := by
  induction xs generalizing v with
  | nil => rfl
  | cons x xs ih =>
    rw [List.length_cons] at hfit
    have hstep : feedByte v x = (true, { v with tlsRecPos := v.tlsRecPos + 1 }) := by
      unfold feedByte
      rw [dif_neg (by omega), if_neg (by omega), if_neg (by omega), if_neg (by omega)]
    rw [List.cons_append, feed_cons hstep, ih (by dsimp only; omega) (by dsimp only; omega)]
    dsimp only
    rw [List.length_cons, show v.tlsRecPos + 1 + xs.length = v.tlsRecPos + (xs.length + 1) by omega]

/-- The same from the end of the header on. -/
lemma feed_header (xs rest : Bytes) (h : v.tlsRecPos = 5) (hne : xs ≠ [])
    (htype : ¬ (v.tlsRec[0] < 0x14 ∨ v.tlsRec[0] > 0x18))
    (hfit : xs.length ≤ ofBe16 v.tlsRec[3] v.tlsRec[4]) :
    feed feedByte v (xs ++ rest) =
      feed feedByte { v with
        tlsRecSize := ofBe16 v.tlsRec[3] v.tlsRec[4] + 5, tlsRecPos := 5 + xs.length } rest := by
  match xs, hne with
  | x :: xs, _ =>
    rw [List.length_cons] at hfit
    have hstep : feedByte v x =
        (true, { v with tlsRecSize := ofBe16 v.tlsRec[3] v.tlsRec[4] + 5, tlsRecPos := 6 }) := by
      unfold feedByte
      dsimp only
      rw [dif_neg (by omega), if_pos h, if_neg htype, if_neg (by omega), h]
    rw [List.cons_append, feed_cons hstep, feed_body xs rest (by dsimp only; omega)
      (by dsimp only; omega)]
    dsimp only
    rw [List.length_cons, show 6 + xs.length = 5 + (xs.length + 1) by omega]

lemma feedByte_short (x : UInt8) (h : v.tlsRecPos < 5) :
    feedByte v x = (true, { v with
      tlsRec := v.tlsRec.set v.tlsRecPos x h, tlsRecPos := v.tlsRecPos + 1 }) := by
  unfold feedByte
  rw [dif_pos h]

lemma feedByte_again (x : UInt8) (h : 5 < v.tlsRecPos) (heq : v.tlsRecPos = v.tlsRecSize) :
    feedByte v x = feedByte { v with tlsRecPos := 0, tlsRecSize := 0 } x := by
  unfold feedByte
  rw [dif_neg (by omega), if_neg (by omega), if_pos heq, dif_pos (Nat.zero_lt_succ 4)]

lemma feedByte_past (x : UInt8) (h : 5 < v.tlsRecPos) (hpast : v.tlsRecSize < v.tlsRecPos) :
    feedByte v x = (false, v) := by
  unfold feedByte
  rw [dif_neg (by omega), if_neg (by omega), if_neg (by omega), if_pos (by omega)]

lemma feedByte_type (x : UInt8) (h : v.tlsRecPos = 5)
    (htype : v.tlsRec[0] < 0x14 ∨ v.tlsRec[0] > 0x18) :
    feedByte v x = (false, { v with tlsRecSize := ofBe16 v.tlsRec[3] v.tlsRec[4] + 5 }) := by
  unfold feedByte
  dsimp only
  rw [dif_neg (by omega), if_pos h, if_pos htype]

lemma feedByte_empty (x : UInt8) (h : v.tlsRecPos = 5)
    (htype : ¬ (v.tlsRec[0] < 0x14 ∨ v.tlsRec[0] > 0x18))
    (hzero : ofBe16 v.tlsRec[3] v.tlsRec[4] = 0) :
    feedByte v x = (false, { v with tlsRecSize := ofBe16 v.tlsRec[3] v.tlsRec[4] + 5 }) := by
  unfold feedByte
  dsimp only
  rw [dif_neg (by omega), if_pos h, if_neg htype, if_pos (by omega)]

variable {buff : Bytes}

/-- The loop over what is left of a chunk is the machine over it. -/
lemma tlsLoop_feed (k : Nat) : ∀ (fuel pos : Nat) (v : Tls), buff.length - pos = k →
    pos < buff.length → 2 * k ≤ fuel →
    tlsLoop buff buff.length fuel pos v = some (feed feedByte v (buff.drop pos)) := by
  induction k using Nat.strongRecOn with
  | ind k ih =>
    intro fuel pos v hk hpos hfuel
    have more (fuel p : Nat) (w : Tls) (hp : pos < p) (hle : p ≤ buff.length)
        (henough : 2 * k ≤ fuel + 2) :
        (if p < buff.length then tlsLoop buff buff.length fuel p w else some (true, w)) =
          some (feed feedByte w (buff.drop p)) := by
      split
      · next hlt => exact ih (buff.length - p) (by omega) fuel p w rfl hlt (by omega)
      · next hge =>
        rw [List.drop_eq_nil_of_le (by omega)]
        rfl
    have header (fuel : Nat) (w : Tls) (h : w.tlsRecPos < 5) (henough : 2 * k ≤ fuel + 2) :
        tlsLoop buff buff.length (fuel + 1) pos w = some (feed feedByte w (buff.drop pos)) := by
      have hget : buff[pos]? = some buff[pos] := List.getElem?_eq_getElem hpos
      unfold tlsLoop
      rw [dif_pos h]
      simp only [hget]
      rw [more fuel (pos + 1) _ (by omega) (by omega) henough, List.drop_eq_getElem_cons hpos,
        feed_cons (feedByte_short buff[pos] h)]
    have split (left : Nat) : buff.drop pos = (buff.drop pos).take left ++ buff.drop (pos + left) := by
      rw [← List.drop_drop, List.take_append_drop]
    have taken (left : Nat) (hle : pos + left ≤ buff.length) :
        ((buff.drop pos).take left).length = left := by
      rw [List.length_take, List.length_drop]
      omega
    obtain ⟨fuel, rfl⟩ : ∃ f, fuel = f + 2 := ⟨fuel - 2, by omega⟩
    rcases Nat.lt_trichotomy v.tlsRecPos 5 with hlt | heq | hgt
    · exact header (fuel + 1) v hlt (by omega)
    · unfold tlsLoop
      rw [dif_neg (by omega), if_pos heq]
      dsimp only
      rw [List.drop_eq_getElem_cons hpos]
      split
      · next htype =>
        rw [feed_stop (feedByte_type _ heq htype)]
      · next htype =>
        split
        · next hzero =>
          rw [feed_stop (feedByte_empty _ heq htype (by omega))]
        · next hleft =>
          rw [← List.drop_eq_getElem_cons hpos]
          generalize hn : (if pos + (ofBe16 v.tlsRec[3] v.tlsRec[4] + 5 - v.tlsRecPos) > buff.length
            then buff.length - pos else ofBe16 v.tlsRec[3] v.tlsRec[4] + 5 - v.tlsRecPos) = left
          have hbound : 0 < left ∧ pos + left ≤ buff.length ∧
              left ≤ ofBe16 v.tlsRec[3] v.tlsRec[4] := by
            split at hn <;> omega
          obtain ⟨hsome, hle, hfit⟩ := hbound
          have hlen := taken left hle
          rw [more (fuel + 1) (pos + left) _ (by omega) hle (by omega), split left,
            feed_header _ _ heq (List.ne_nil_of_length_pos (by omega)) htype (by omega), hlen, heq]
    · unfold tlsLoop
      rw [dif_neg (by omega), if_neg (by omega)]
      dsimp only
      split
      · next hsize =>
        rw [header fuel _ (Nat.zero_lt_succ 4) (by omega)]
        rw [List.drop_eq_getElem_cons hpos]
        simp only [feed, feedByte_again _ hgt hsize]
      · next hsize =>
        split
        · next hzero =>
          rw [List.drop_eq_getElem_cons hpos, feed_stop (feedByte_past _ hgt (by omega))]
        · next hleft =>
          generalize hn : (if pos + (v.tlsRecSize - v.tlsRecPos) > buff.length
            then buff.length - pos else v.tlsRecSize - v.tlsRecPos) = left
          have hbound : 0 < left ∧ pos + left ≤ buff.length ∧
              v.tlsRecPos + left ≤ v.tlsRecSize := by
            split at hn <;> omega
          obtain ⟨hsome, hle, hfit⟩ := hbound
          have hlen := taken left hle
          rw [more (fuel + 1) (pos + left) _ (by omega) hle (by omega), split left,
            feed_body _ _ hgt (by omega), hlen]

lemma feed_short (xs : Bytes) (h : v.tlsRecPos + xs.length ≤ 5) :
    ∃ w : Vector UInt8 5, feed feedByte v xs = (true, ⟨v.tlsRecSize, v.tlsRecPos + xs.length, w⟩) := by
  induction xs generalizing v with
  | nil => exact ⟨v.tlsRec, rfl⟩
  | cons x xs ih =>
    rw [List.length_cons] at h
    obtain ⟨w, hw⟩ := ih (v := { v with
      tlsRec := v.tlsRec.set v.tlsRecPos x (by omega), tlsRecPos := v.tlsRecPos + 1 })
      (by dsimp only; omega)
    refine ⟨w, ?_⟩
    rw [feed_cons (feedByte_short x (by omega)), hw, List.length_cons]
    dsimp only
    rw [show v.tlsRecPos + 1 + xs.length = v.tlsRecPos + (xs.length + 1) by omega]

end Bytes

section Records

lemma Record.bytes_length (r : Record) : r.bytes.length = ofBe16 r.hi r.lo + 5 := by
  simp only [Record.bytes, List.length_cons, r.size]

lemma Record.append_inj {q r : Record} {xs ys : Bytes} (h : q.bytes ++ xs = r.bytes ++ ys) :
    q = r ∧ xs = ys := by
  obtain ⟨t, a, b, hi, lo, body, hsize⟩ := q
  obtain ⟨t', a', b', hi', lo', body', hsize'⟩ := r
  simp only [Record.bytes, List.cons_append, List.cons.injEq] at h
  obtain ⟨rfl, rfl, rfl, rfl, rfl, h⟩ := h
  obtain ⟨rfl, rfl⟩ := List.append_inj h (hsize.trans hsize'.symm)
  exact ⟨rfl, rfl⟩

/-- The record that begins with these bytes, filled up with zeros. -/
def padded (t a b hi lo : UInt8) (body : Bytes) (h : body.length ≤ ofBe16 hi lo) : Record where
  type := t
  major := a
  minor := b
  hi := hi
  lo := lo
  body := body ++ List.replicate (ofBe16 hi lo - body.length) 0
  size := by
    rw [List.length_append, List.length_replicate]
    omega

/-- Not at the end of a record, unless it is empty. -/
def Unfinished (part : Bytes) : Prop :=
  ∃ r : Record, part <+: r.bytes ∧ part ≠ [] ∧ (part ≠ r.bytes ∨ r.body = [])

lemma unfinished_iff (s : Bytes) :
    Inside s ∨ BehindEmpty s ↔
      ∃ (rs : List Record) (part : Bytes), s = rs.flatMap Record.bytes ++ part ∧ Unfinished part := by
  constructor
  · rintro (⟨rs, r, part, hs, hpre, hne, hpart⟩ | ⟨rs, r, hs, hempty⟩)
    · exact ⟨rs, part, hs, r, hpre, hne, .inl hpart⟩
    · refine ⟨rs, r.bytes, hs, r, List.prefix_rfl, ?_, .inr hempty⟩
      exact List.ne_nil_of_length_pos (by rw [r.bytes_length]; omega)
  · rintro ⟨rs, part, hs, r, hpre, hne, hpart⟩
    rcases Classical.em (part = r.bytes) with heq | hother
    · exact .inr ⟨rs, r, heq ▸ hs, hpart.resolve_left fun h => h heq⟩
    · exact .inl ⟨rs, r, part, hs, hpre, hne, hother⟩

lemma not_unfinished {rs : List Record} (hrs : ∀ r ∈ rs, r.body ≠ []) :
    ∀ (rs' : List Record) (part : Bytes),
      rs.flatMap Record.bytes = rs'.flatMap Record.bytes ++ part → ¬ Unfinished part := by
  intro rs' part h
  induction rs' generalizing rs with
  | nil =>
    rintro ⟨r, ⟨more, hmore⟩, hne, hpart⟩
    match rs, hrs with
    | [], _ => exact hne h.symm
    | q :: qs, hrs =>
      rw [List.flatMap_nil, List.nil_append, List.flatMap_cons] at h
      have hbytes : q.bytes ++ (qs.flatMap Record.bytes ++ more) = r.bytes ++ [] := by
        rw [List.append_nil, ← hmore, ← h, List.append_assoc]
      obtain ⟨rfl, hnil⟩ := Record.append_inj hbytes
      have hq : qs.flatMap Record.bytes = [] := (List.append_eq_nil_iff.mp hnil).1
      rw [hq, List.append_nil] at h
      rcases hpart with hpart | hempty
      · exact hpart h.symm
      · exact hrs q List.mem_cons_self hempty
  | cons q' rs' ih =>
    match rs, hrs with
    | [], _ =>
      have hlen := congrArg List.length h
      simp only [List.flatMap_cons, List.flatMap_nil, List.length_append, q'.bytes_length,
        List.length_nil] at hlen
      omega
    | q :: qs, hrs =>
      rw [List.flatMap_cons, List.flatMap_cons, List.append_assoc] at h
      exact ih (fun r hr => hrs r (List.mem_cons_of_mem _ hr)) (Record.append_inj h).2

/-- Between two records. -/
def Boundary (v : Tls) : Prop :=
  v.tlsRecPos = v.tlsRecSize ∧ (v.tlsRecPos = 0 ∨ 5 < v.tlsRecPos)

lemma Boundary.start {v : Tls} (h : Boundary v) (x : UInt8) (xs : Bytes) :
    feed feedByte v (x :: xs) = feed feedByte ⟨0, 1, v.tlsRec.set 0 x⟩ xs := by
  have hstep : feedByte v x = (true, ⟨0, 1, v.tlsRec.set 0 x⟩) := by
    obtain ⟨size, pos, bytes⟩ := v
    obtain ⟨heq, hzero | hlarge⟩ := h
    · dsimp only at heq hzero
      subst hzero heq
      rfl
    · rw [feedByte_again x hlarge heq]
      rfl
  rw [feed_cons hstep]

lemma Boundary.header {v : Tls} (h : Boundary v) (t a b hi lo : UInt8) (xs : Bytes) :
    ∃ w : Vector UInt8 5, w[0] = t ∧ w[3] = hi ∧ w[4] = lo ∧
      feed feedByte v (t :: a :: b :: hi :: lo :: xs) = feed feedByte ⟨0, 5, w⟩ xs := by
  refine ⟨((((v.tlsRec.set 0 t).set 1 a).set 2 b).set 3 hi).set 4 lo, ?_, ?_, ?_, ?_⟩
  · simp
  · simp
  · simp
  · rw [h.start]
    rfl

lemma short_unfinished {s : Bytes} (hne : s ≠ []) (h : s.length < 5) : Unfinished s := by
  have hlen (r : Record) : s ≠ r.bytes := by
    intro hs
    have := congrArg List.length hs
    rw [r.bytes_length] at this
    omega
  match s, hne, h, hlen with
  | [t], hne, _, hlen =>
    exact ⟨padded t 0 0 0 0 [] (Nat.zero_le _), ⟨_, rfl⟩, hne, .inl (hlen _)⟩
  | [t, a], hne, _, hlen =>
    exact ⟨padded t a 0 0 0 [] (Nat.zero_le _), ⟨_, rfl⟩, hne, .inl (hlen _)⟩
  | [t, a, b], hne, _, hlen =>
    exact ⟨padded t a b 0 0 [] (Nat.zero_le _), ⟨_, rfl⟩, hne, .inl (hlen _)⟩
  | [t, a, b, hi], hne, _, hlen =>
    exact ⟨padded t a b hi 0 [] (Nat.zero_le _), ⟨_, rfl⟩, hne, .inl (hlen _)⟩
  | _ :: _ :: _ :: _ :: _ :: _, _, h, _ =>
    simp only [List.length_cons] at h
    omega

lemma header_unfinished {t a b hi lo : UInt8} {body : Bytes}
    (h : body.length < ofBe16 hi lo ∨ body = []) :
    Unfinished (t :: a :: b :: hi :: lo :: body) := by
  have hfit : body.length ≤ ofBe16 hi lo := by
    rcases h with h | rfl
    · omega
    · exact Nat.zero_le _
  refine ⟨padded t a b hi lo body hfit, ⟨List.replicate (ofBe16 hi lo - body.length) 0, rfl⟩,
    List.cons_ne_nil _ _, ?_⟩
  rcases Nat.eq_or_lt_of_le hfit with heq | hlt
  · right
    rcases h with h | rfl
    · omega
    · have hzero : ofBe16 hi lo = 0 := heq.symm
      simp only [padded, hzero, List.length_nil, Nat.sub_self, List.replicate_zero, List.append_nil]
  · left
    intro hbytes
    have hlen := congrArg List.length hbytes
    rw [Record.bytes_length] at hlen
    simp only [padded, List.length_cons] at hlen
    omega

/-- Where an accepted stream ends. -/
lemma accepted_ends (n : Nat) : ∀ (s : Bytes) (v v' : Tls), s.length = n → Boundary v →
    feed feedByte v s = (true, v') →
    ∃ rs : List Record, (∀ r ∈ rs, r.body ≠ []) ∧
      (s = rs.flatMap Record.bytes ∧ v'.tlsRecPos = v'.tlsRecSize ∨
        ∃ part, s = rs.flatMap Record.bytes ++ part ∧ Unfinished part ∧
          v'.tlsRecPos ≠ v'.tlsRecSize) := by
  induction n using Nat.strongRecOn with
  | ind n ih =>
    intro s v v' hn hv hfeed
    have nomore : ∀ r ∈ ([] : List Record), r.body ≠ [] := fun r hr => absurd hr List.not_mem_nil
    rcases Nat.lt_or_ge s.length 5 with hshort | hlong
    · match s, hfeed with
      | [], hfeed =>
        cases hfeed
        exact ⟨[], nomore, .inl ⟨rfl, hv.1⟩⟩
      | x :: xs, hfeed =>
        rw [List.length_cons] at hshort
        obtain ⟨w, hw⟩ := feed_short (v := ⟨0, 1, v.tlsRec.set 0 x⟩) xs (by dsimp only; omega)
        rw [hv.start, hw] at hfeed
        cases hfeed
        refine ⟨[], nomore, .inr ⟨_, rfl, short_unfinished (List.cons_ne_nil x xs) ?_, ?_⟩⟩
        · rw [List.length_cons]
          omega
        · dsimp only
          omega
    · match s, hlong with
      | t :: a :: b :: hi :: lo :: xs, _ =>
        obtain ⟨w, ht, hhi, hlo, hheader⟩ := hv.header t a b hi lo xs
        rw [hheader] at hfeed
        match xs, hfeed with
        | [], hfeed =>
          cases hfeed
          exact ⟨[], nomore, .inr ⟨_, rfl, header_unfinished (.inr rfl), Nat.succ_ne_zero 4⟩⟩
        | x :: xs, hfeed =>
          have htype : ¬ (w[0] < 0x14 ∨ w[0] > 0x18) := by
            intro htype
            have hstop := feedByte_type (v := ⟨0, 5, w⟩) x rfl htype
            rw [feed_stop hstop] at hfeed
            cases hfeed
          have hsome : 0 < ofBe16 hi lo := by
            rcases Nat.eq_zero_or_pos (ofBe16 hi lo) with hzero | hsome
            · rw [← hhi, ← hlo] at hzero
              have hstop := feedByte_empty (v := ⟨0, 5, w⟩) x rfl htype hzero
              rw [feed_stop hstop] at hfeed
              cases hfeed
            · exact hsome
          rcases Nat.lt_or_ge (x :: xs).length (ofBe16 hi lo) with hpart | hwhole
          · have hbody := feed_header (v := ⟨0, 5, w⟩) (x :: xs) [] rfl (List.cons_ne_nil x xs) htype
              (by dsimp only; rw [hhi, hlo]; omega)
            rw [List.append_nil, feed_nil] at hbody
            rw [hbody] at hfeed
            cases hfeed
            refine ⟨[], nomore, .inr ⟨_, rfl, header_unfinished (.inl hpart), ?_⟩⟩
            dsimp only
            rw [hhi, hlo]
            omega
          · obtain ⟨body, rest, hxs, hlen⟩ : ∃ body rest : Bytes, x :: xs = body ++ rest ∧
                body.length = ofBe16 hi lo :=
              ⟨_, _, (List.take_append_drop (ofBe16 hi lo) (x :: xs)).symm,
                List.length_take_of_le hwhole⟩
            have hne : body ≠ [] := List.ne_nil_of_length_pos (by omega)
            have hbody := feed_header (v := ⟨0, 5, w⟩) body rest rfl hne htype
              (by dsimp only; rw [hhi, hlo]; omega)
            rw [hxs] at hfeed hn ⊢
            rw [hbody] at hfeed
            simp only [List.length_cons, List.length_append] at hn
            obtain ⟨rs, hrs, hends⟩ := ih rest.length (by omega) rest _ v' rfl
              ⟨by dsimp only; rw [hhi, hlo]; omega, .inr (by dsimp only; omega)⟩ hfeed
            refine ⟨⟨t, a, b, hi, lo, body, hlen⟩ :: rs, ?_, ?_⟩
            · intro r hr
              rcases List.mem_cons.mp hr with rfl | hr
              · exact hne
              · exact hrs r hr
            · rcases hends with ⟨rfl, hpos⟩ | ⟨part, rfl, hpart⟩
              · exact .inl ⟨rfl, hpos⟩
              · refine .inr ⟨part, ?_, hpart⟩
                rw [List.flatMap_cons, List.append_assoc]
                rfl

/-- What the two sizes say of an accepted stream. -/
lemma pos_ne_size_iff {s : Bytes} {v v' : Tls} (hv : Boundary v)
    (hfeed : feed feedByte v s = (true, v')) :
    v'.tlsRecPos ≠ v'.tlsRecSize ↔ Inside s ∨ BehindEmpty s := by
  rw [unfinished_iff]
  obtain ⟨rs, hrs, ⟨hs, heq⟩ | ⟨part, hs, hpart, hne⟩⟩ := accepted_ends s.length s v v' rfl hv hfeed
  · refine ⟨fun hne => absurd heq hne, ?_⟩
    rintro ⟨rs', part, hs', hpart⟩
    exact absurd hpart (not_unfinished hrs rs' part (hs.symm.trans hs'))
  · exact ⟨fun _ => ⟨rs, part, hs, hpart⟩, fun _ => hne⟩

end Records

section Runs

variable {p : Params} {v : Eval}

/-- What is left when all chunks were received. -/
structure Tracks (p : Params) (t : Tls) (s : Bytes) (w : Eval) : Prop where
  tls : w.toTls = (feed feedByte t s).2
  mark : w.mark = (feed feedByte t s).1
  timer : p.ptimeout ≠ 0 → s ≠ [] → w.mark = true →
    w.timer = if w.tlsRecPos ≠ w.tlsRecSize then some p.ptimeout else none

lemma recvChunk_tracks (hlim : p.toBytesLim = 0) (hmark : v.mark = true) {chunk : Bytes}
    (hne : chunk ≠ []) : ∃ w, recvChunk p v chunk = some w ∧ Tracks p v.toTls chunk w := by
  have hloop := tlsLoop_feed chunk.length (2 * chunk.length) 0 v.toTls (Nat.sub_zero _)
    (List.length_pos_iff.mpr hne) (Nat.le_refl _)
  rw [List.drop_zero] at hloop
  unfold recvChunk trySetTlsTimer
  simp only [hmark, if_true, hlim, ne_eq, not_true, false_and, if_false, hloop]
  rcases hr : feed feedByte v.toTls chunk with ⟨go, t⟩
  cases go with
  | true =>
    rcases Classical.em (p.ptimeout = 0) with hzero | hset
    · simp only [hzero, not_true, if_false]
      exact ⟨_, rfl, by rw [hr], by rw [hr], fun h => absurd hzero h⟩
    · simp only [hset, not_false_iff, if_true, not_true, if_false]
      exact ⟨_, rfl, by rw [hr], by rw [hr], fun _ _ _ => rfl⟩
  | false =>
    refine ⟨_, rfl, ?_, ?_, ?_⟩
    · rw [if_pos (by decide), hr]
    · rw [if_pos (by decide), hr]
    · intro _ _ h
      rw [if_pos (by decide)] at h
      cases h

/-- Nothing is followed any more. -/
lemma run_unmarked (chunks : List Bytes) (hmark : v.mark = false) :
    ∃ w, run (recvChunk p) v chunks = some w ∧ w.toTls = v.toTls ∧ w.mark = false := by
  induction chunks generalizing v with
  | nil => exact ⟨v, rfl, rfl, hmark⟩
  | cons chunk chunks ih =>
    have hstep : recvChunk p v chunk =
        some { v with recvCount := v.recvCount + chunk.length } := by
      unfold recvChunk
      simp only [hmark, Bool.false_eq_true, if_false]
    rw [run_cons hstep]
    exact ih hmark

lemma run_tracks (hlim : p.toBytesLim = 0) (chunks : List Bytes) (hne : ∀ c ∈ chunks, c ≠ [])
    (hmark : v.mark = true) :
    ∃ w, run (recvChunk p) v chunks = some w ∧ Tracks p v.toTls chunks.flatten w := by
  induction chunks generalizing v with
  | nil => exact ⟨v, rfl, rfl, hmark, fun _ h => absurd rfl h⟩
  | cons chunk chunks ih =>
    obtain ⟨w, hstep, htls, hgo, htimer⟩ := recvChunk_tracks hlim hmark (hne chunk List.mem_cons_self)
    rw [run_cons hstep, List.flatten_cons]
    cases hw : w.mark with
    | false =>
      obtain ⟨u, hrun, hu, humark⟩ := run_unmarked (p := p) chunks hw
      have hfeed : feed feedByte v.toTls (chunk ++ chunks.flatten) = _ :=
        feed_append chunk chunks.flatten
      rw [← hgo, hw, if_neg Bool.false_ne_true] at hfeed
      refine ⟨u, hrun, ?_, ?_, fun _ _ h => ?_⟩
      · rw [hfeed, hu, htls]
      · rw [hfeed, humark, ← hgo, hw]
      · rw [humark] at h
        cases h
    | true =>
      obtain ⟨u, hrun, hutls, hugo, hutimer⟩ := ih (fun c hc => hne c (List.mem_cons_of_mem _ hc)) hw
      have hfeed : feed feedByte v.toTls (chunk ++ chunks.flatten) = _ :=
        feed_append chunk chunks.flatten
      rw [← hgo, hw, if_pos rfl, ← htls] at hfeed
      refine ⟨u, hrun, ?_, ?_, fun hset _ h => ?_⟩
      · rw [hfeed, hutls]
      · rw [hfeed, hugo]
      · match chunks, hrun with
        | [], hrun =>
          cases hrun
          exact htimer hset (hne chunk List.mem_cons_self) h
        | c :: cs, _ =>
          refine hutimer hset ?_ h
          have hc := hne c (List.mem_cons_of_mem _ List.mem_cons_self)
          rw [List.flatten_cons]
          exact fun hnil => hc (List.append_eq_nil_iff.mp hnil).1

end Runs

/-- However a response is cut, its records are followed to the same place, and the timer is armed
where the response may not end. -/
theorem chunking_irrelevant (p : Params) (hlim : p.toBytesLim = 0) (v : Eval) (s : Bytes)
    (x y : Cut s) :
    ∃ a b, run (recvChunk p) v.fresh x.chunks = some a ∧
      run (recvChunk p) v.fresh y.chunks = some b ∧ a.toTls = b.toTls ∧ a.mark = b.mark ∧
      (p.ptimeout ≠ 0 → s ≠ [] → a.mark = true →
        (a.timer.isSome ↔ Inside s ∨ BehindEmpty s)) := by
  obtain ⟨a, hruna, ha⟩ := run_tracks (v := v.fresh) hlim x.chunks x.nonempty rfl
  obtain ⟨b, hrunb, hb⟩ := run_tracks (v := v.fresh) hlim y.chunks y.nonempty rfl
  rw [x.whole] at ha
  rw [y.whole] at hb
  refine ⟨a, b, hruna, hrunb, ha.tls.trans hb.tls.symm, ha.mark.trans hb.mark.symm, ?_⟩
  intro hset hne hmark
  have hfeed : feed feedByte v.fresh.toTls s = (true, a.toTls) :=
    Prod.ext (ha.mark.symm.trans hmark) ha.tls.symm
  rw [← pos_ne_size_iff ⟨rfl, .inl rfl⟩ hfeed, ha.timer hset hne hmark]
  split
  · next h => simp [h]
  · next h => simp [h]

def idle : Eval := ⟨.zero, 0, none, true⟩

theorem chunking_irrelevant_handshake :
    ∃ a b, run (recvChunk ⟨0, 500⟩) idle.fresh [[0x16, 3], [1, 0, 2, 9]] = some a ∧
      run (recvChunk ⟨0, 500⟩) idle.fresh [[0x16, 3, 1, 0, 2, 9]] = some b ∧ a.toTls = b.toTls ∧
      a.mark = b.mark ∧
      ((500 : Nat) ≠ 0 → ([0x16, 3, 1, 0, 2, 9] : Bytes) ≠ [] → a.mark = true →
        (a.timer.isSome ↔ Inside [0x16, 3, 1, 0, 2, 9] ∨ BehindEmpty [0x16, 3, 1, 0, 2, 9])) :=
  chunking_irrelevant ⟨0, 500⟩ rfl idle [0x16, 3, 1, 0, 2, 9]
    ⟨[[0x16, 3], [1, 0, 2, 9]], by decide, rfl⟩ ⟨[[0x16, 3, 1, 0, 2, 9]], by decide, rfl⟩

/-- The header of a record without a body: the timer is armed at the end of the record. -/
def emptyRecord : Bytes := [0x17, 3, 3, 0, 0]

lemma emptyRecord_not_inside : ¬ Inside emptyRecord := by
  rintro ⟨rs, r, part, hs, ⟨more, hmore⟩, hne, hpart⟩
  match rs, hs with
  | [], hs =>
    rw [List.flatMap_nil, List.nil_append] at hs
    have hbytes : Record.bytes ⟨0x17, 3, 3, 0, 0, [], rfl⟩ ++ more = r.bytes ++ [] := by
      rw [List.append_nil, ← hmore, ← hs]
      rfl
    obtain ⟨rfl, -⟩ := Record.append_inj hbytes
    exact hpart hs.symm
  | q :: qs, hs =>
    have hlen := congrArg List.length hs
    have hfive : emptyRecord.length = 5 := rfl
    have hsome := List.length_pos_iff.mpr hne
    simp only [List.flatMap_cons, List.length_append, q.bytes_length, hfive] at hlen
    omega

theorem empty_record_armed :
    ¬ ∀ (p : Params) (v : Eval) (s : Bytes) (x : Cut s) (a : Eval), p.toBytesLim = 0 →
      p.ptimeout ≠ 0 → s ≠ [] → run (recvChunk p) v.fresh x.chunks = some a → a.mark = true →
      (a.timer.isSome ↔ Inside s) := by
  intro h
  have hsome : (run (recvChunk ⟨0, 500⟩) idle.fresh [emptyRecord]).isSome := by decide
  have hrun := (Option.some_get hsome).symm
  have hiff := h ⟨0, 500⟩ idle emptyRecord ⟨[emptyRecord], by decide, rfl⟩ _ rfl (by decide)
    (by decide) hrun rfl
  exact emptyRecord_not_inside (hiff.mp rfl)

end TlsRecords
