import NoZapret.ClientHello
import NoZapret.PacketsSpec

/-!
# Merging TLS records

`merge_tls_records` takes the headers out of the records that follow the first one.
It moves what is behind a header five bytes down and leaves `n` as it is, so that the
last five bytes of the buffer stand there once more for every header taken out.
-/

namespace RecordMerge

open Block ClientHello Frames Packets PacketsSpec

/-- The payload of a complete record of type `t`, and what follows it. -/
def nextRecord (t : UInt8) : Bytes → Option (Bytes × Bytes)
  | a :: _ :: _ :: hi :: lo :: body =>
    if a = t ∧ ofBe16 hi lo ≤ body.length then
      some (body.take (ofBe16 hi lo), body.drop (ofBe16 hi lo))
    else none
  | _ => none

/-- The payloads of the complete records that follow each other, as long as they add
up to 16 bits with the `total` before them, and what is left. -/
def followers (t : UInt8) : Nat → Nat → Bytes → List Bytes × Bytes
  | 0, _, s => ([], s)
  | fuel + 1, total, s =>
    match nextRecord t s with
    | none => ([], s)
    | some (payload, rest) =>
      if total + payload.length < 65536 then
        let (ps, rest) := followers t fuel (total + payload.length) rest
        (payload :: ps, rest)
      else ([], s)

def lastFive (s : Bytes) : Bytes := s.drop (s.length - 5)

/-- What the loop meets behind the payloads when it has taken `k` headers out. -/
def seen (rest last : Bytes) (k : Nat) : Bytes := rest ++ (List.replicate k last).flatten

/-- `merge_tls_records` with a loop of at most `fuel` rounds. -/
def mergeWithin (fuel : Nat) (b : Bytes) (n : Int) : Option (Int × Bytes) := do
  if n < 5 then return (0, b)
  let rSz ← antohs b 3
  let (b, fullSz, i) ← mergeFrom n fuel b 0 rSz 0
  let b ← shtona b 3 fullSz
  let b ← shtona b 7 ((fullSz : Int) - 4)
  return (i * 5, b)

/-- The header with the total length, the payloads, the new length of the handshake
over bytes 7 and 8, and what follows. -/
def merged (header payload rest junk : Bytes) : Bytes :=
  let x := header ++ be16 payload.length ++ payload ++ rest ++ junk
  x.take 7 ++ be16 (u16 ((payload.length : Int) - 4)) ++ x.drop 9

/-- The call ends, and this is what it returns and leaves in the buffer. -/
def Merges (b : Bytes) (n : Nat) (ret : Int) (out : Bytes) : Prop :=
  ∃ fuel, mergeWithin fuel b n = some (ret, out)

/-- The first record, with payload `p`, and the complete ones that follow it become
one; the bytes from `n` on are not touched. -/
def PayloadKept (t : UInt8) (b : Bytes) (n : Nat) (p s : Bytes) : Prop :=
  let (ps, rest) := followers t s.length p.length s
  ∃ junk, junk.length = 5 * ps.length ∧
    Merges (b.take n) n (5 * ps.length : Nat) (merged (b.take 3) (p :: ps).flatten rest junk) ∧
    Merges b n (5 * ps.length : Nat) (merged (b.take 3) (p :: ps).flatten rest junk ++ b.drop n)

section Records

variable {t : UInt8} {s payload rest last : Bytes}

lemma nextRecord_some (h : nextRecord t s = some (payload, rest)) :
    ∃ v w hi lo, s = t :: v :: w :: hi :: lo :: (payload ++ rest) ∧
      payload.length = ofBe16 hi lo := by
  unfold nextRecord at h
  split at h
  · next a v w hi lo body =>
    split at h
    · next hfit =>
      obtain ⟨rfl, hfit⟩ := hfit
      cases h
      refine ⟨v, w, hi, lo, ?_, ?_⟩
      · rw [List.take_append_drop]
      · rw [List.length_take]
        omega
    · cases h
  · cases h

lemma nextRecord_append (h : nextRecord t s = some (payload, rest)) (z : Bytes) :
    nextRecord t (s ++ z) = some (payload, rest ++ z) := by
  obtain ⟨v, w, hi, lo, rfl, hlen⟩ := nextRecord_some h
  simp only [List.cons_append, nextRecord, List.append_assoc]
  have hfit : ofBe16 hi lo ≤ (payload ++ (rest ++ z)).length := by
    simp only [List.length_append]
    omega
  rw [if_pos ⟨trivial, hfit⟩, ← hlen, List.take_left, List.drop_left]

lemma nextRecord_length (h : nextRecord t s = some (payload, rest)) :
    s.length = payload.length + rest.length + 5 := by
  obtain ⟨v, w, hi, lo, rfl, -⟩ := nextRecord_some h
  simp only [List.length_cons, List.length_append]

/-- With fuel for the whole of `s` the records end where the next one is incomplete,
of another type or too long. -/
theorem followers_end (fuel total : Nat) (s : Bytes) (hfuel : s.length ≤ fuel) :
    ∀ {payload rest}, nextRecord t (followers t fuel total s).2 = some (payload, rest) →
      65536 ≤ total + (followers t fuel total s).1.flatten.length + payload.length := by
  induction fuel generalizing total s with
  | zero =>
    intro payload rest h
    have hlen := nextRecord_length h
    simp only [followers] at hlen
    omega
  | succ fuel ih =>
    intro payload rest h
    simp only [followers] at h ⊢
    cases hnext : nextRecord t s with
    | none => simp [hnext] at h
    | some r =>
      obtain ⟨p, r⟩ := r
      have hlen := nextRecord_length hnext
      simp only [hnext] at h ⊢
      by_cases hfit : total + p.length < 65536
      · rw [if_pos hfit] at h ⊢
        have hbound := ih (total + p.length) r (by omega) h
        simp only [List.flatten_cons, List.length_append]
        omega
      · rw [if_neg hfit] at h ⊢
        rw [hnext] at h
        cases h
        simp only [List.flatten_nil, List.length_nil]
        omega

lemma lastFive_length (h : 5 ≤ s.length) : (lastFive s).length = 5 := by
  simp only [lastFive, List.length_drop]
  omega

lemma lastFive_append (x : Bytes) (h : last.length = 5) : lastFive (x ++ last) = last := by
  have hlen : (x ++ last).length - 5 = x.length := by
    simp only [List.length_append]
    omega
  rw [lastFive, hlen, List.drop_left]

lemma lastFive_of_append (x : Bytes) (h : 5 ≤ s.length) : lastFive (x ++ s) = lastFive s := by
  have hlen : (x ++ s).length - 5 = x.length + (s.length - 5) := by
    simp only [List.length_append]
    omega
  rw [lastFive, hlen, List.drop_length_add_append, lastFive]

end Records

section Loop

variable {t : UInt8} {n : Int} {b b' front s ext last : Bytes} {fullSz rSz full full' i i' fuel : Nat}

lemma mergeFrom_le (h : mergeFrom n fuel b fullSz rSz i = some (b', full', i')) : i ≤ i' := by
  induction fuel generalizing b fullSz rSz i with
  | zero => cases h
  | succ fuel ih =>
    simp only [mergeFrom, Option.bind_eq_bind, Option.pure_def] at h
    split at h
    · cases h
      exact Nat.le_refl _
    · obtain ⟨c, -, h⟩ := Option.bind_eq_some_iff.mp h
      obtain ⟨d, -, h⟩ := Option.bind_eq_some_iff.mp h
      split at h
      · cases h
        exact Nat.le_refl _
      · obtain ⟨r, -, h⟩ := Option.bind_eq_some_iff.mp h
        split at h
        · cases h
          exact Nat.le_refl _
        · obtain ⟨b'', -, h⟩ := Option.bind_eq_some_iff.mp h
          exact Nat.le_of_succ_le (ih h)

/-- More rounds than it takes change nothing. -/
lemma mergeFrom_more {x : Bytes × Nat × Nat} (h : mergeFrom n fuel b fullSz rSz i = some x)
    (m : Nat) : mergeFrom n (fuel + m) b fullSz rSz i = some x := by
  induction fuel generalizing b fullSz rSz i with
  | zero => cases h
  | succ fuel ih =>
    rw [Nat.succ_add]
    simp only [mergeFrom, Option.bind_eq_bind, Option.pure_def] at h ⊢
    split at h
    · next hend => rwa [if_pos hend]
    · next hend =>
      rw [if_neg hend]
      obtain ⟨c, hc, h⟩ := Option.bind_eq_some_iff.mp h
      obtain ⟨d, hd, h⟩ := Option.bind_eq_some_iff.mp h
      rw [hc, hd, Option.bind_some, Option.bind_some]
      split at h
      · next hne => rwa [if_pos hne]
      · next hne =>
        rw [if_neg hne]
        obtain ⟨r, hr, h⟩ := Option.bind_eq_some_iff.mp h
        rw [hr, Option.bind_some]
        split at h
        · next hout => rwa [if_pos hout]
        · next hout =>
          rw [if_neg hout]
          obtain ⟨b'', hb'', h⟩ := Option.bind_eq_some_iff.mp h
          rw [hb'', Option.bind_some]
          exact ih h

/-- One round: it ends, or takes one header out. -/
lemma mergeFrom_round (fuel i : Nat) (hb : b = front ++ s ++ ext) (hn : n = front.length + s.length)
    (ht : rd b 0 = some t) (hfull : u16 (fullSz + rSz) = full) (hfront : front.length = 5 + full) :
    mergeFrom n (fuel + 1) b fullSz rSz i =
      match nextRecord t s with
      | none => some (b, full, i)
      | some (p, rest) =>
        mergeFrom n fuel (front ++ p ++ (rest ++ lastFive s) ++ ext) full p.length (i + 1) := by
  simp only [mergeFrom, hfull, Option.bind_eq_bind, Option.pure_def]
  match s with
  | [] | [_] | [_, _] | [_, _, _] | [_, _, _, _] =>
    simp only [List.length_nil, List.length_cons] at hn
    rw [if_pos (by omega)]
    rfl
  | a :: v :: w :: hi :: lo :: body =>
    simp only [List.length_cons] at hn
    have ha : rd b (5 + full) = some a := by
      apply rd_splice (x := front) (z := v :: w :: hi :: lo :: body ++ ext)
      · simp [hb]
      · omega
    have hr : antohs b (5 + full + 3) = some (ofBe16 hi lo) := by
      apply antohs_splice (x := front ++ [a, v, w]) (z := body ++ ext)
      · simp [hb]
      · simp only [List.length_append, List.length_cons, List.length_nil]
        omega
    rw [if_neg (by omega), ha, ht, hr, nextRecord]
    simp only [Option.bind_some]
    by_cases hat : a = t
    · rw [if_neg (by simpa using hat)]
      by_cases hfit : ofBe16 hi lo ≤ body.length
      · have hmove : memmove b (5 + full) (10 + full) (n - (10 + full)) =
            some (front ++ body ++ lastFive (a :: v :: w :: hi :: lo :: body) ++ ext) := by
          have hlast : lastFive (a :: v :: w :: hi :: lo :: body) =
              ([a, v, w, hi, lo] ++ body).drop body.length := by
            simp [lastFive]
          rw [hlast]
          have hsplit : b = front ++ [a, v, w, hi, lo] ++ body ++ ext := by
            simp [hb]
          apply memmove_down hsplit
          · simp only [List.length_cons, List.length_nil]
            omega
          · omega
          · omega
        have hlen : (body.take (ofBe16 hi lo)).length = ofBe16 hi lo := by
          rw [List.length_take]
          omega
        rw [if_neg (by omega), if_pos ⟨hat, hfit⟩, hmove, Option.bind_some]
        have hjoin : front ++ body.take (ofBe16 hi lo) ++ (body.drop (ofBe16 hi lo) ++
            lastFive (a :: v :: w :: hi :: lo :: body)) =
              front ++ body ++ lastFive (a :: v :: w :: hi :: lo :: body) := by
          rw [← List.append_assoc, List.append_assoc front, List.take_append_drop]
        simp only [hlen, hjoin]
      · rw [if_pos (by omega), if_neg (fun h => hfit h.2)]
    · rw [if_pos (by simpa using hat), if_neg (fun h => hat h.1)]

end Loop

/-- The loop before a round that will come to `total`: `front` is the first header with
the payloads merged so far, `s` what is left of the records, after `k` headers. -/
structure Merging (t : UInt8) (n : Int) (last ext b front s : Bytes) (k total fullSz rSz : Nat) :
    Prop where
  buffer : b = front ++ seen s last k ++ ext
  size : n = front.length + (seen s last k).length
  type : front.head? = some t
  tail : lastFive (front ++ seen s last k) = last
  five : last.length = 5
  full : u16 ((fullSz : Int) + rSz) = total
  front : front.length = 5 + total
  small : total < 65536

section Run

variable {t : UInt8} {n : Int} {last ext b front s p rest : Bytes} {k total fullSz rSz i : Nat}
  {ps : List Bytes}

lemma seen_more (rest last : Bytes) (k : Nat) :
    seen rest last k ++ last = seen rest last (k + 1) := by
  rw [seen, seen, List.append_assoc, List.replicate_succ', List.flatten_append]
  simp

lemma Merging.first (h : Merging t n last ext b front s k total fullSz rSz) : rd b 0 = some t := by
  have hfront := h.front
  have htype := h.type
  rw [h.buffer, rd, if_pos (Int.le_refl 0), List.append_assoc,
    List.getElem?_append_left (by simp only [Int.toNat_zero]; omega)]
  rwa [List.head?_eq_getElem?] at htype

/-- The round looks at what stands behind the payloads, real or not. -/
lemma Merging.round (h : Merging t n last ext b front s k total fullSz rSz) (fuel : Nat) :
    mergeFrom n (fuel + 1) b fullSz rSz i =
      match nextRecord t (seen s last k) with
      | none => some (b, total, i)
      | some (p, rest) =>
        mergeFrom n fuel (front ++ p ++ (rest ++ lastFive (seen s last k)) ++ ext) total p.length
          (i + 1) :=
  mergeFrom_round _ _ h.buffer h.size h.first h.full h.front

lemma Merging.next (h : Merging t n last ext b front s k total fullSz rSz)
    (hnext : nextRecord t s = some (p, rest)) (hfit : total + p.length < 65536) :
    ∃ b', Merging t n last ext b' (front ++ p) rest (k + 1) (total + p.length) total p.length ∧
      ∀ fuel, mergeFrom n (fuel + 1) b fullSz rSz i = mergeFrom n fuel b' total p.length (i + 1) := by
  have hseen : nextRecord t (seen s last k) = some (p, seen rest last k) := nextRecord_append hnext _
  have hlen := nextRecord_length hseen
  have htail : lastFive (seen s last k) = last := by
    rw [← lastFive_of_append front (by omega)]
    exact h.tail
  refine ⟨front ++ p ++ seen rest last (k + 1) ++ ext, ?_, ?_⟩
  · constructor
    · rfl
    · have hsize := h.size
      have hfive := h.five
      rw [← seen_more]
      simp only [List.length_append]
      omega
    · rw [List.head?_append, h.type]
      rfl
    · rw [← seen_more, ← List.append_assoc]
      exact lastFive_append _ h.five
    · exact h.five
    · have hu : u16 (((total + p.length : Nat) : Int)) = total + p.length := u16_of_lt hfit
      rwa [Int.natCast_add] at hu
    · have hfront := h.front
      rw [List.length_append]
      omega
    · exact hfit
  · intro fuel
    rw [h.round, hseen]
    simp only [htail, seen_more]

/-- The loop takes the headers of the followers out, one a round. -/
lemma Merging.run {room : Nat} (h : Merging t n last ext b front s k total fullSz rSz)
    (hfollow : followers t room total s = (ps, rest)) :
    ∃ b' f r, Merging t n last ext b' (front ++ ps.flatten) rest (k + ps.length)
        (total + ps.flatten.length) f r ∧
      ∀ fuel, mergeFrom n (fuel + ps.length) b fullSz rSz i =
        mergeFrom n fuel b' f r (i + ps.length) := by
  induction room generalizing b front s k total fullSz rSz i ps with
  | zero =>
    cases hfollow
    exact ⟨b, fullSz, rSz, by simpa using h, fun fuel => rfl⟩
  | succ room ih =>
    rw [followers] at hfollow
    cases hnext : nextRecord t s with
    | none =>
      rw [hnext] at hfollow
      cases hfollow
      exact ⟨b, fullSz, rSz, by simpa using h, fun fuel => rfl⟩
    | some r =>
      obtain ⟨p, s'⟩ := r
      simp only [hnext] at hfollow
      split at hfollow
      · next hfit =>
        obtain ⟨b₁, h₁, hstep⟩ := h.next (i := i) hnext hfit
        obtain ⟨ps', hps⟩ : ∃ ps', followers t room (total + p.length) s' = (ps', rest) ∧
            ps = p :: ps' := by
          cases hfollow
          exact ⟨_, rfl, rfl⟩
        obtain ⟨hrest, rfl⟩ := hps
        obtain ⟨b', f, r, h', hrun⟩ := ih (i := i + 1) h₁ hrest
        refine ⟨b', f, r, ?_, ?_⟩
        · simpa only [List.flatten_cons, List.length_cons, List.length_append, List.append_assoc,
            Nat.add_assoc, Nat.add_comm 1] using h'
        · intro fuel
          rw [List.length_cons, ← Nat.add_assoc, hstep, hrun, Nat.add_assoc, Nat.add_comm 1]
      · cases hfollow
        exact ⟨b, fullSz, rSz, by simpa using h, fun fuel => rfl⟩

end Run

section Whole

variable {t : UInt8} {b x p s rest pay R ext : Bytes} {n : Nat} {ps : List Bytes}

theorem merges_of_mergeTlsRecords {ret : Int} {out : Bytes} (h : mergeTlsRecords b n = some (ret, out)) :
    Merges b n ret out := ⟨_, h⟩

lemma merging_start {v w hi lo : UInt8} (hx : x = t :: v :: w :: hi :: lo :: (p ++ s))
    (hp : p.length = ofBe16 hi lo) (ext : Bytes) :
    Merging t x.length (lastFive x) ext (x ++ ext) ([t, v, w, hi, lo] ++ p) s 0 p.length 0 p.length := by
  have hsmall : p.length < 65536 := hp ▸ ofBe16_lt hi lo
  constructor
  · simp [hx, seen]
  · simp [hx, seen]
    omega
  · rfl
  · simp [hx, seen]
  · apply lastFive_length
    simp [hx]
  · have hu : u16 (p.length : Int) = p.length := u16_of_lt hsmall
    simpa using hu
  · simp
    omega
  · exact hsmall

/-- The two lengths written at the end. -/
lemma lengths_written (t v w hi lo : UInt8) {junk : Bytes} (ext : Bytes) (hn : 9 ≤ 5 + pay.length + (rest ++ junk).length)
    (hsmall : pay.length < 65536) :
    (shtona ([t, v, w, hi, lo] ++ pay ++ (rest ++ junk) ++ ext) 3 pay.length).bind
        (fun b => shtona b 7 ((pay.length : Int) - 4)) =
      some (merged [t, v, w] pay rest junk ++ ext) := by
  have hfirst : shtona ([t, v, w, hi, lo] ++ pay ++ (rest ++ junk) ++ ext) 3 pay.length =
      some ([t, v, w] ++ be16 pay.length ++ (pay ++ (rest ++ junk) ++ ext)) :=
    shtona_splice (x := [t, v, w]) (y := [hi, lo]) (u16_of_lt hsmall) (by simp) rfl rfl
  rw [hfirst, Option.bind_some]
  unfold merged
  generalize hz : [t, v, w] ++ be16 pay.length ++ pay ++ rest ++ junk = z
  have hlen : 9 ≤ z.length := by
    rw [← hz]
    simp only [List.length_append, be16_length, List.length_cons, List.length_nil] at hn ⊢
    omega
  have hsecond : shtona (z ++ ext) 7 ((pay.length : Int) - 4) =
      some (z.take 7 ++ be16 (u16 ((pay.length : Int) - 4)) ++ (z.drop 9 ++ ext)) := by
    apply shtona_splice (y := (z.drop 7).take 2) rfl
    · have h9 : z.drop 9 = (z.drop 7).drop 2 := by rw [List.drop_drop]
      rw [h9, List.append_assoc (z.take 7), ← List.append_assoc (List.take 2 _),
        List.take_append_drop, ← List.append_assoc, List.take_append_drop]
    · rw [List.length_take, List.length_drop]
      omega
    · rw [List.length_take]
      omega
  have hjoin : [t, v, w] ++ be16 pay.length ++ (pay ++ (rest ++ junk) ++ ext) = z ++ ext := by
    simp [← hz]
  rw [hjoin, hsecond]
  simp

/-- The call up to the end of the loop. -/
lemma mergeWithin_run {v w hi lo : UInt8} (ext : Bytes) (hx : x = t :: v :: w :: hi :: lo :: (p ++ s))
    (hp : p.length = ofBe16 hi lo) (fuel : Nat) :
    mergeWithin fuel (x ++ ext) x.length =
      (mergeFrom x.length fuel (x ++ ext) 0 p.length 0).bind fun r =>
        (shtona r.1 3 r.2.1).bind fun b => (shtona b 7 ((r.2.1 : Int) - 4)).bind fun b =>
          some ((r.2.2 : Int) * 5, b) := by
  have hlen : ¬ (x.length : Int) < 5 := by
    simp only [hx, List.length_cons]
    omega
  have hr : antohs (x ++ ext) 3 = some p.length := by
    rw [hp]
    apply antohs_splice (x := [t, v, w]) (z := p ++ s ++ ext)
    · simp [hx]
    · rfl
  simp only [mergeWithin, if_neg hlen, hr, Option.bind_eq_bind, Option.bind_some, Option.pure_def]

/-- With no record in sight behind the last one the call ends there. -/
lemma merges_of_end {v w hi lo : UInt8} (hx : x = t :: v :: w :: hi :: lo :: (p ++ s))
    (hp : p.length = ofBe16 hi lo) (hn : 9 ≤ x.length)
    (hfollow : followers t s.length p.length s = (ps, rest))
    (hend : nextRecord t (seen rest (lastFive x) ps.length) = none) (ext : Bytes) :
    Merges (x ++ ext) x.length (5 * ps.length : Nat)
      (merged [t, v, w] (p :: ps).flatten rest (List.replicate ps.length (lastFive x)).flatten ++
        ext) := by
  obtain ⟨b', f, r, hmerging, hrun⟩ := (merging_start hx hp ext).run (i := 0) hfollow
  rw [Nat.zero_add] at hmerging
  have hfull : p.length + ps.flatten.length = (p :: ps).flatten.length := by
    rw [List.flatten_cons, List.length_append]
  have hround := hmerging.round (i := 0 + ps.length) 0
  rw [hend, hfull] at hround
  have hloop := (hrun 1).trans hround
  have hsize := hmerging.size
  rw [hfull] at hmerging
  have hnine : 9 ≤ 5 + (p :: ps).flatten.length +
      (rest ++ (List.replicate ps.length (lastFive x)).flatten).length := by
    simp only [List.length_append, List.length_cons, List.length_nil, seen, List.flatten_cons]
      at hsize ⊢
    omega
  have hlengths := lengths_written t v w hi lo ext hnine hmerging.small
  refine ⟨1 + ps.length, ?_⟩
  rw [mergeWithin_run _ hx hp, hloop, Option.bind_some]
  have hb' : b' = [t, v, w, hi, lo] ++ (p :: ps).flatten ++
      (rest ++ (List.replicate ps.length (lastFive x)).flatten) ++ ext := by
    rw [hmerging.buffer]
    simp [seen]
  rw [← hb'] at hlengths
  obtain ⟨c, hc, hwritten⟩ := Option.bind_eq_some_iff.mp hlengths
  simp only [hc, hwritten, Option.bind_some, Option.some.injEq, Prod.mk.injEq, and_true]
  omega

/-- A record in sight behind the last one is merged too, or the loop does not end. -/
lemma not_merges {v w hi lo : UInt8} {y : Bytes × Bytes}
    (hx : x = t :: v :: w :: hi :: lo :: (p ++ s)) (hp : p.length = ofBe16 hi lo)
    (hfollow : followers t s.length p.length s = (ps, rest))
    (hnext : nextRecord t (seen rest (lastFive x) ps.length) = some y) (ext : Bytes) :
    ¬ ∃ out, Merges (x ++ ext) x.length (5 * ps.length : Nat) out := by
  rintro ⟨out, fuel, h⟩
  rw [mergeWithin_run _ hx hp] at h
  obtain ⟨⟨b, full, i⟩, hloop, h⟩ := Option.bind_eq_some_iff.mp h
  obtain ⟨b', f, r, hmerging, hrun⟩ := (merging_start hx hp ext).run (i := 0) hfollow
  rw [Nat.zero_add] at hmerging
  have hmore := mergeFrom_more hloop (1 + ps.length)
  rw [← Nat.add_assoc, hrun, hmerging.round, hnext] at hmore
  have hle := mergeFrom_le hmore
  obtain ⟨c, -, h⟩ := Option.bind_eq_some_iff.mp h
  obtain ⟨d, -, h⟩ := Option.bind_eq_some_iff.mp h
  simp only [Option.some.injEq, Prod.mk.injEq] at h
  omega

/-- The payload is kept exactly when what stands behind the merged records, with the
last five bytes once more for each header taken out, does not begin with a complete
record of the type. -/
theorem payload_kept_iff (hn : 9 ≤ n) (hfits : n ≤ b.length)
    (hfirst : nextRecord t (b.take n) = some (p, s)) :
    PayloadKept t b n p s ↔
      nextRecord t (seen (followers t s.length p.length s).2 (lastFive (b.take n))
        (followers t s.length p.length s).1.length) = none := by
  obtain ⟨v, w, hi, lo, hx, hp⟩ := nextRecord_some hfirst
  obtain ⟨ps, rest, hfollow⟩ : ∃ ps rest, followers t s.length p.length s = (ps, rest) :=
    ⟨_, _, rfl⟩
  have hlen : (b.take n).length = n := by
    rw [List.length_take]
    omega
  have hhead : b.take 3 = [t, v, w] := by
    have htake : b.take 3 = (b.take n).take 3 := by
      rw [List.take_take, Nat.min_eq_left (by omega)]
    rw [htake, hx]
    rfl
  have hwhole : b.take n ++ b.drop n = b := List.take_append_drop n b
  simp only [PayloadKept, hfollow, hhead]
  constructor
  · rintro ⟨junk, -, hinside, -⟩
    cases hnext : nextRecord t (seen rest (lastFive (b.take n)) ps.length) with
    | none => rfl
    | some y =>
      have hno := not_merges hx hp hfollow hnext []
      rw [List.append_nil, hlen] at hno
      exact absurd ⟨_, hinside⟩ hno
  · intro hend
    refine ⟨(List.replicate ps.length (lastFive (b.take n))).flatten, ?_, ?_, ?_⟩
    · have hfive : (lastFive (b.take n)).length = 5 := lastFive_length (by omega)
      rw [List.length_flatten, List.map_replicate, hfive, List.sum_replicate_nat, Nat.mul_comm]
    · have hinside := merges_of_end hx hp (by omega) hfollow hend []
      rwa [List.append_nil, List.append_nil, hlen] at hinside
    · have hall := merges_of_end hx hp (by omega) hfollow hend (b.drop n)
      rwa [hwhole, hlen] at hall

/-- Two records that are merged, and no more. -/
theorem payload_kept_iff_two :
    PayloadKept 0x16 [0x16, 3, 1, 0, 4, 1, 0, 0, 0, 0x16, 3, 1, 0, 1, 7] 15 [1, 0, 0, 0]
      [0x16, 3, 1, 0, 1, 7] :=
  (payload_kept_iff (by decide) (by decide) (by decide)).mpr (by decide)

/-- A first record with an empty one right at the end of the buffer. -/
def emptyRecordLast : Bytes := [0x16, 3, 1, 0, 4, 1, 0, 0, 0, 0x16, 3, 1, 0, 0]

/-- The empty record is taken out and stands there again: the loop does not end. -/
theorem empty_record_never_ends :
    nextRecord 0x16 emptyRecordLast = some ([1, 0, 0, 0], [0x16, 3, 1, 0, 0]) ∧
      (∀ fuel, mergeWithin fuel emptyRecordLast 14 = none) ∧
      ¬ PayloadKept 0x16 emptyRecordLast 14 [1, 0, 0, 0] [0x16, 3, 1, 0, 0] := by
  have hloop : ∀ fuel f r i, u16 ((f : Nat) + (r : Nat) : Int) = 4 →
      mergeFrom 14 fuel emptyRecordLast f r i = none := by
    intro fuel
    induction fuel with
    | zero => exact fun f r i _ => rfl
    | succ fuel ih =>
      intro f r i hfull
      have hsplit : emptyRecordLast = [0x16, 3, 1, 0, 4, 1, 0, 0, 0] ++ [0x16, 3, 1, 0, 0] ++ [] := rfl
      have hround := mergeFrom_round fuel i hsplit (n := 14) rfl rfl hfull rfl
      exact hround.trans (ih 4 0 (i + 1) rfl)
  have hnone : ∀ fuel, mergeWithin fuel emptyRecordLast 14 = none := by
    intro fuel
    have hsplit : emptyRecordLast = 0x16 :: 3 :: 1 :: 0 :: 4 :: ([1, 0, 0, 0] ++ [0x16, 3, 1, 0, 0]) :=
      rfl
    have hrun := mergeWithin_run [] hsplit rfl fuel
    have hend : mergeFrom 14 fuel emptyRecordLast 0 4 0 = none := hloop fuel 0 4 0 rfl
    refine hrun.trans ?_
    change (mergeFrom 14 fuel emptyRecordLast 0 4 0).bind _ = none
    rw [hend, Option.bind_none]
  refine ⟨by decide, hnone, ?_⟩
  rintro ⟨junk, -, ⟨fuel, h⟩, -⟩
  have hend : mergeWithin fuel emptyRecordLast 14 = none := hnone fuel
  change mergeWithin fuel emptyRecordLast 14 = some _ at h
  rw [hend] at h
  cases h

end Whole

end RecordMerge
