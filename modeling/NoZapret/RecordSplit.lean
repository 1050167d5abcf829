import NoZapret.PacketsSpec
import NoZapret.Desync

/-!
# Splitting the first TLS record

`tamp` cuts the record at its start into several, by one call of `part_tls` for
each position. `part_tls` answers non-zero both when it has written a header
and when the position lies behind the record's end, and `tamp` counts five
bytes for either answer.
-/

namespace RecordSplit

open Block Frames Packets PacketsSpec Params Desync

/-- Where one iteration asks for a cut. -/
def cutPos (rnd : Rands) (rep : Rep) (rc : Nat) (lp : Int) (t : Tamped) :
    Option (Int × ProtoInfo) := do
  let (off, info) ← genOffset (rnd.tlsrec rc) rep.1.pos rep.1.flag t.data (t.n - rc * 5) lp t.info
  let pos ← addL (rc * 5 : Nat) off
  let pos ← addL pos (if rep.1.pos < 0 ∨ rep.1.flag.any then -5 else 0)
  let pos ← addL pos (rep.1.s * rep.2 : Nat)
  return (pos, info)

def cutAt (t : Tamped) (lp pos : Int) : Option (Int × Bytes) :=
  partTls t.data lp (t.data.length - lp) (t.n - lp) (pos - lp)

/-- Is the position inside the record at `lp`? -/
def inRecord (t : Tamped) (lp pos : Int) : Bool :=
  match antohs t.data (lp + 3) with
  | none => false
  | some rSz => decide (pos - lp ≤ rSz)

/-- One entry for every iteration that counts five bytes: was it for a header? -/
def headers (rnd : Rands) : List Rep → Nat → Int → Tamped → List Bool
  | [], _, _, _ => []
  | rep :: rest, rc, lp, t =>
    match cutPos rnd rep rc lp t with
    | none => []
    | some (pos, info) =>
      if pos < lp then []
      else
        match cutAt t lp pos with
        | none => []
        | some (ret, data) =>
          if ret = 0 then []
          else inRecord t lp pos :: headers rnd rest (rc + 1) (pos + 5) ⟨data, t.n + 5, info⟩

/-- The request with the version `tlsminor` asks for. -/
def versioned (dp : DesyncParams) (t : Tamped) : Tamped :=
  match dp.tlsminor with
  | some v => { t with data := t.data.set 2 v }
  | none => t

def tampHeaders (dp : DesyncParams) (rnd : Rands) (t : Tamped) : List Bool :=
  headers rnd (expand dp.tlsrec) 0 0 (versioned dp t)

/-- `after` reads as `k` records more than `before`: the same header in each,
payloads that add up to the first payload of `before`, and the same rest. -/
def Kept (before after : Bytes) (k : Nat) : Prop :=
  ∃ (header payload rest : Bytes) (pieces : List Bytes),
    readFrames 3 1 before = some ([(header, payload)], rest) ∧
    readFrames 3 (k + 1) after = some (pieces.map fun p => (header, p), rest) ∧
    pieces.flatten = payload

/-- Five bytes for every header written, and the handshake kept. -/
def Preserved (dp : DesyncParams) (rnd : Rands) (t t' : Tamped) : Prop :=
  t'.n = t.n + 5 * (tampHeaders dp rnd t).count true ∧
    Kept ((versioned dp t).data.take t.n) (t'.data.take t'.n) ((t'.n - t.n) / 5)

section PartTls

variable {header cur rest spare pre : Bytes} {b b' : Bytes} {base bsize n pos r : Int}

lemma partTls_zero (h : partTls b base bsize n pos = some (0, b')) : b' = b := by
  simp only [partTls, Option.bind_eq_bind] at h
  split at h
  · cases h
    rfl
  · simp only [Option.bind_eq_some_iff] at h
    obtain ⟨rSz, -, h⟩ := h
    split at h
    · cases h
      omega
    · simp only [Option.bind_eq_some_iff] at h
      obtain ⟨_, _, _, _, _, _, _, _, h⟩ := h
      cases h

/-- What a non-zero answer says about the arguments. -/
lemma partTls_nonzero (h : partTls b base bsize n pos = some (r, b')) (hr : r ≠ 0) :
    5 ≤ (bsize - n) % 2 ^ 64 ∧ 0 ≤ pos ∧ pos + 5 ≤ n := by
  simp only [partTls, Option.bind_eq_bind] at h
  split at h
  · cases h
    exact absurd rfl hr
  · omega

/-- A cut inside the record writes a header between its two parts. -/
lemma partTls_cut {left right gap : Bytes} (hheader : header.length = 3)
    (hb : b = pre ++ frame header (left ++ right) ++ rest ++ gap ++ spare)
    (hsize : (left ++ right).length < 65536) (hgap : gap.length = 5) (hbase : base = pre.length)
    (hn : n = (frame header (left ++ right)).length + rest.length)
    (hroom : 5 ≤ (bsize - n) % 2 ^ 64) :
    partTls b base bsize n left.length =
      some (5, pre ++ frame header left ++ frame header right ++ rest ++ spare) := by
  rw [frame_length, hheader] at hn
  simp only [List.length_append] at hn hsize
  have hread : antohs b (base + 3) = some (left ++ right).length := by
    have hb' : b = (pre ++ header) ++ be16 (left ++ right).length ++
        (left ++ right ++ rest ++ gap ++ spare) := by
      simp only [hb, frame, List.append_assoc]
    refine antohs_be16 ?_ hb' ?_
    · simpa only [List.length_append] using hsize
    · simp only [List.length_append, hheader]
      omega
  -- the tail moves up by five
  obtain ⟨g, hg, hmove⟩ : ∃ g, g.length = 5 ∧
      memmove b (base + 5 + left.length + 5) (base + 5 + left.length) (n - (5 + left.length)) =
        some (pre ++ header ++ be16 (left ++ right).length ++ left ++ g ++ (right ++ rest) ++
          spare) := by
    have hb' : b = (pre ++ header ++ be16 (left ++ right).length ++ left) ++ (right ++ rest) ++
        gap ++ spare := by
      simp only [hb, frame, List.append_assoc]
    rw [← hgap]
    apply memmove_up hb'
    all_goals
      simp only [List.length_append, be16_length, hheader]
      omega
  obtain ⟨g3, g2, rfl, hg3⟩ : ∃ g3 g2, g = g3 ++ g2 ∧ g3.length = 3 :=
    ⟨g.take 3, g.drop 3, (List.take_append_drop 3 g).symm, by simp [hg]⟩
  simp only [List.length_append, hg3] at hg
  have hcopy : memmove (pre ++ header ++ be16 (left ++ right).length ++ left ++ (g3 ++ g2) ++
      (right ++ rest) ++ spare) (base + 5 + left.length) base 3 =
      some (pre ++ header ++ be16 (left ++ right).length ++ left ++ header ++
        (g2 ++ (right ++ rest) ++ spare)) := by
    apply memmove_splice (s := pre) (d := g3)
    · simp only [List.append_assoc]
      rfl
    · exact hbase
    · omega
    · simp only [List.append_assoc]
    · simp only [List.length_append, be16_length, hheader]
      omega
    · omega
  have hfirst : shtona (pre ++ header ++ be16 (left ++ right).length ++ left ++ header ++
      (g2 ++ (right ++ rest) ++ spare)) (base + 3) left.length =
      some (pre ++ header ++ be16 left.length ++
        (left ++ header ++ (g2 ++ (right ++ rest) ++ spare))) := by
    apply shtona_splice (y := be16 (left ++ right).length)
    · exact u16_of_lt (by omega)
    · simp only [List.append_assoc]
    · rfl
    · simp only [List.length_append, hheader]
      omega
  have hsecond : shtona (pre ++ header ++ be16 left.length ++
      (left ++ header ++ (g2 ++ (right ++ rest) ++ spare))) (base + 5 + left.length + 3)
      ((left ++ right).length - left.length) =
      some (pre ++ header ++ be16 left.length ++ left ++ header ++ be16 right.length ++
        (right ++ rest ++ spare)) := by
    apply shtona_splice (y := g2)
    · have hlen : (((left ++ right).length : Int) - left.length) = right.length := by
        simp only [List.length_append]
        omega
      rw [hlen]
      exact u16_of_lt (by omega)
    · simp only [List.append_assoc]
    · omega
    · simp only [List.length_append, be16_length, hheader]
      omega
  simp only [partTls, hread, hmove, hcopy, hfirst, hsecond, Option.bind_eq_bind, Option.bind_some]
  rw [if_neg (by omega), if_neg (by simp only [List.length_append]; omega)]
  simp only [frame, List.append_assoc]
  rfl

end PartTls

lemma tlsrecLoop_cons {rnd : Rands} {rep : Rep} {rest : List Rep} {rc : Nat} {lp : Int}
    {t : Tamped} : tlsrecLoop rnd (rep :: rest) rc lp t =
      (cutPos rnd rep rc lp t).bind fun p =>
        if p.1 < lp then some { t with info := p.2 }
        else (cutAt t lp p.1).bind fun r =>
          if r.1 = 0 then some { t with data := r.2, info := p.2 }
          else tlsrecLoop rnd rest (rc + 1) (p.1 + 5) ⟨r.2, t.n + 5, p.2⟩ := by
  simp only [tlsrecLoop, cutPos, cutAt, Option.bind_eq_bind, Option.bind_assoc, Option.pure_def,
    Option.bind_some]

section Loop

variable {rnd : Rands} {header payload rest cur spare : Bytes} {done : List Bytes} {lp pos : Int}
  {t t' : Tamped}

/-- The buffer inside the loop: the records already cut, the one at `lp`, and
what followed the first record. -/
structure Cutting (header payload rest : Bytes) (done : List Bytes) (cur spare : Bytes) (lp : Int)
    (t : Tamped) : Prop where
  data : t.data = done.flatMap (frame header) ++ frame header cur ++ rest ++ spare
  n : t.n = (done.flatMap (frame header)).length + (frame header cur).length + rest.length
  lp : lp = (done.flatMap (frame header)).length
  payload : done.flatten ++ cur = payload

lemma Cutting.taken (h : Cutting header payload rest done cur spare lp t) :
    t.data.take t.n = (done ++ [cur]).flatMap (frame header) ++ rest := by
  have hn : t.n = (done.flatMap (frame header) ++ frame header cur ++ rest).length := by
    simp only [List.length_append, h.n]
  rw [h.data, hn, List.take_left]
  simp

lemma Cutting.cur_le (h : Cutting header payload rest done cur spare lp t) :
    cur.length ≤ payload.length := by
  rw [← h.payload, List.length_append]
  omega

lemma Cutting.recordLen (h : Cutting header payload rest done cur spare lp t)
    (hheader : header.length = 3) (hsize : payload.length < 65536) :
    antohs t.data (lp + 3) = some cur.length := by
  have hdata : t.data = (done.flatMap (frame header) ++ header) ++ be16 cur.length ++
      (cur ++ rest ++ spare) := by
    simp only [h.data, frame, List.append_assoc]
  have hcur := h.cur_le
  refine antohs_be16 (by omega) hdata ?_
  rw [h.lp, List.length_append, hheader]
  omega

/-- A cut inside the current record moves the loop to its second part. -/
lemma Cutting.step {ret : Int} {data : Bytes} (h : Cutting header payload rest done cur spare lp t)
    (hheader : header.length = 3) (hsize : payload.length < 65536) (info : ProtoInfo)
    (hcut : cutAt t lp pos = some (ret, data)) (hret : ret ≠ 0)
    (hin : inRecord t lp pos = true) :
    ∃ left right spare', Cutting header payload rest (done ++ [left]) right spare' (pos + 5)
      ⟨data, t.n + 5, info⟩ := by
  have hcur := h.cur_le
  obtain ⟨hroom, hpos, hle⟩ := partTls_nonzero hcut hret
  obtain ⟨k, hk⟩ : ∃ k : Nat, pos - lp = k := ⟨(pos - lp).toNat, by omega⟩
  simp only [inRecord, h.recordLen hheader hsize, decide_eq_true_eq] at hin
  have hlen : t.data.length = t.n + spare.length := by
    rw [h.data, h.n]
    simp only [List.length_append]
  have hspare : 5 ≤ spare.length := by omega
  have hleft : (cur.take k).length = k := by
    simp only [List.length_take]
    omega
  have hjoin : cur.take k ++ cur.drop k = cur := List.take_append_drop k cur
  have hdata : t.data = done.flatMap (frame header) ++ frame header (cur.take k ++ cur.drop k) ++
      rest ++ spare.take 5 ++ spare.drop 5 := by
    simp [h.data]
  have hn : (t.n : Int) - lp = (frame header (cur.take k ++ cur.drop k)).length + rest.length := by
    rw [hjoin, h.n, h.lp]
    omega
  have hpart := partTls_cut hheader hdata (by rw [hjoin]; omega)
    (by simp only [List.length_take]; omega) h.lp hn hroom
  rw [hleft, ← hk] at hpart
  obtain ⟨-, rfl⟩ := Prod.mk.inj (Option.some.inj (hcut.symm.trans hpart))
  refine ⟨cur.take k, cur.drop k, spare.drop 5, ?_, ?_, ?_, ?_⟩
  · simp
  · simp only [h.n, List.flatMap_append, List.flatMap_cons, List.flatMap_nil, List.append_nil,
      List.length_append, frame_length, hheader, hleft, List.length_drop]
    omega
  · simp only [List.flatMap_append, List.flatMap_cons, List.flatMap_nil, List.append_nil,
      List.length_append, frame_length, hheader, hleft]
    have := h.lp
    omega
  · rw [← h.payload]
    simp

/-- With nothing behind the record no position in the buffer lies behind it. -/
lemma Cutting.inRecord {ret : Int} {data : Bytes}
    (h : Cutting header payload [] done cur spare lp t) (hheader : header.length = 3)
    (hsize : payload.length < 65536) (hcut : cutAt t lp pos = some (ret, data)) (hret : ret ≠ 0) :
    RecordSplit.inRecord t lp pos = true := by
  obtain ⟨-, -, hle⟩ := partTls_nonzero hcut hret
  simp only [RecordSplit.inRecord, h.recordLen hheader hsize, decide_eq_true_eq]
  have hn := h.n
  have hlp := h.lp
  simp only [frame_length, hheader, List.length_nil] at hn
  omega

/-- Every entry stands for five bytes more. -/
lemma tlsrecLoop_length {reps : List Rep} :
    ∀ {rc : Nat} {lp : Int} {t t' : Tamped}, tlsrecLoop rnd reps rc lp t = some t' →
      t'.n = t.n + 5 * (headers rnd reps rc lp t).length := by
  induction reps with
  | nil =>
    intro rc lp t t' h
    cases h
    simp [headers]
  | cons rep reps ih =>
    intro rc lp t t' h
    simp only [tlsrecLoop_cons, Option.bind_eq_some_iff] at h
    obtain ⟨⟨pos, info⟩, hpos, h⟩ := h
    simp only [headers, hpos]
    split at h
    · next hlt =>
      cases h
      simp [hlt]
    · next hlt =>
      simp only [Option.bind_eq_some_iff] at h
      obtain ⟨⟨ret, data⟩, hcut, h⟩ := h
      simp only [hlt, hcut, if_false]
      split at h
      · next hret =>
        cases h
        simp [show ret = 0 from hret]
      · next hret =>
        have hrest := ih h
        simp only at hret hrest
        simp only [hret, if_false, List.length_cons]
        omega

/-- While every cut falls inside the current record, the loop only cuts. -/
theorem tlsrecLoop_cuts (hheader : header.length = 3) (hsize : payload.length < 65536)
    {reps : List Rep} :
    ∀ {rc : Nat} {lp : Int} {t t' : Tamped} {done : List Bytes} {cur spare : Bytes},
      Cutting header payload rest done cur spare lp t →
      (∀ w ∈ headers rnd reps rc lp t, w = true) → tlsrecLoop rnd reps rc lp t = some t' →
      ∃ done' cur' spare' lp', Cutting header payload rest done' cur' spare' lp' t' ∧
        done'.length = done.length + (headers rnd reps rc lp t).length := by
  induction reps with
  | nil =>
    intro rc lp t t' done cur spare hcut _ h
    cases h
    exact ⟨done, cur, spare, lp, hcut, by simp [headers]⟩
  | cons rep reps ih =>
    intro rc lp t t' done cur spare hc hall h
    simp only [tlsrecLoop_cons, Option.bind_eq_some_iff] at h
    obtain ⟨⟨pos, info⟩, hpos, h⟩ := h
    simp only [headers, hpos] at hall ⊢
    split at h
    · next hlt =>
      cases h
      exact ⟨done, cur, spare, lp, ⟨hc.data, hc.n, hc.lp, hc.payload⟩, by simp [hlt]⟩
    · next hlt =>
      simp only [Option.bind_eq_some_iff] at h
      obtain ⟨⟨ret, data⟩, hcut, h⟩ := h
      simp only [hlt, hcut, if_false] at hall ⊢
      split at h
      · next hret =>
        cases h
        obtain rfl : ret = 0 := hret
        obtain rfl : data = t.data := partTls_zero hcut
        exact ⟨done, cur, spare, lp, ⟨hc.data, hc.n, hc.lp, hc.payload⟩, by simp⟩
      · next hret =>
        simp only at hret
        simp only [hret, if_false, List.mem_cons, forall_eq_or_imp] at hall
        obtain ⟨left, right, spare', hstep⟩ := hc.step hheader hsize info hcut hret hall.1
        obtain ⟨done', cur', spare'', lp', hlast, hlen⟩ := ih hstep hall.2 h
        refine ⟨done', cur', spare'', lp', hlast, ?_⟩
        simp only [hret, if_false, List.length_cons, hlen, List.length_append, List.length_nil]
        omega

theorem headers_lone (hheader : header.length = 3) (hsize : payload.length < 65536)
    {reps : List Rep} :
    ∀ {rc : Nat} {lp : Int} {t : Tamped} {done : List Bytes} {cur spare : Bytes},
      Cutting header payload [] done cur spare lp t →
      ∀ w ∈ headers rnd reps rc lp t, w = true := by
  induction reps with
  | nil =>
    intro rc lp t done cur spare _ w hw
    simp [headers] at hw
  | cons rep reps ih =>
    intro rc lp t done cur spare hc w hw
    rw [headers] at hw
    split at hw
    · simp at hw
    · next pos info hpos =>
      split at hw
      · simp at hw
      · split at hw
        · simp at hw
        · next ret data hcut =>
          split at hw
          · simp at hw
          · next hret =>
            have hin := hc.inRecord hheader hsize hcut hret
            rcases List.mem_cons.mp hw with rfl | htail
            · exact hin
            · obtain ⟨left, right, spare', hstep⟩ := hc.step hheader hsize info hcut hret hin
              exact ih hstep w htail

end Loop

section Tamp

variable {dp : DesyncParams} {rnd : Rands} {t t' : Tamped}

lemma isTlsChello_bytes {b : Bytes} {n : Nat} (h : isTlsChello b n = some true) :
    5 < n ∧ rd b 0 = some 0x16 ∧ rd b 1 = some 0x03 ∧ rd b 5 = some 0x01 := by
  simp only [isTlsChello, Option.bind_eq_bind] at h
  split at h
  · cases h
  · next hn =>
    simp only [antohs, Option.bind_eq_bind, Option.bind_eq_some_iff] at h
    obtain ⟨word, ⟨hi, hhi, lo, hlo, hword⟩, h⟩ := h
    have hhi' := hi.toNat_lt
    have hlo' := lo.toNat_lt
    split at h
    · cases h
    · next hmagic =>
      simp only [Option.bind_eq_some_iff] at h
      obtain ⟨c, hc, h⟩ := h
      simp only [Option.pure_def, Option.some.injEq, beq_iff_eq] at h hword
      subst h
      have h16 : hi = 0x16 := UInt8.toNat_inj.mp (by change hi.toNat = 22; omega)
      have h03 : lo = 0x03 := UInt8.toNat_inj.mp (by change lo.toNat = 3; omega)
      subst h16 h03
      exact ⟨by omega, hhi, hlo, hc⟩

lemma isTlsChello_of_bytes {b : Bytes} {n : Nat} (hn : 5 < n) (h0 : rd b 0 = some 0x16)
    (h1 : rd b 1 = some 0x03) (h5 : rd b 5 = some 0x01) : isTlsChello b n = some true := by
  have hword : antohs b 0 = some 0x1603 := by
    change ((rd b 0).bind fun hi => (rd b 1).bind fun lo => some (hi.toNat * 256 + lo.toNat)) = _
    rw [h0, h1]
    rfl
  unfold isTlsChello
  rw [if_neg (by omega), hword]
  change ((rd b 5).bind fun c => some (c == 0x01)) = some true
  rw [h5]
  rfl

lemma isHttp_hello {b : Bytes} {n : Nat} (h : isTlsChello b n = some true) :
    isHttp b n = some false := by
  obtain ⟨-, h0, -, -⟩ := isTlsChello_bytes h
  have hc : (0x16 : UInt8) > ch 'T' ∨ (0x16 : UInt8) < ch 'C' := by decide
  unfold isHttp
  split
  · rfl
  · rw [h0, Option.bind_eq_bind, Option.bind_some, if_pos hc]
    rfl

lemma rd_set {b : Bytes} {i k : Nat} {v : UInt8} (h : i ≠ k) : rd (b.set k v) i = rd b i := by
  simp [rd, h.symm]

lemma rd_lt {b : Bytes} {i : Nat} {c : UInt8} (h : rd b i = some c) : i < b.length := by
  simp only [rd, Int.natCast_nonneg, if_true, Int.toNat_natCast, List.getElem?_eq_some_iff] at h
  obtain ⟨hlt, -⟩ := h
  exact hlt

lemma versioned_hello (h : isTlsChello t.data t.n = some true) :
    isTlsChello (versioned dp t).data t.n = some true := by
  obtain ⟨hn, h0, h1, h5⟩ := isTlsChello_bytes h
  unfold versioned
  cases dp.tlsminor with
  | none => exact h
  | some v =>
    apply isTlsChello_of_bytes hn
    · rw [← h0]
      exact rd_set (by decide)
    · rw [← h1]
      exact rd_set (by decide)
    · rw [← h5]
      exact rd_set (by decide)

@[simp] lemma versioned_n : (versioned dp t).n = t.n := by
  unfold versioned
  cases dp.tlsminor <;> rfl

@[simp] lemma versioned_length : (versioned dp t).data.length = t.data.length := by
  unfold versioned
  cases dp.tlsminor <;> simp

lemma tampMinor_hello (h : isTlsChello t.data t.n = some true) :
    tampMinor dp t.data t.n = some (versioned dp t).data := by
  obtain ⟨-, -, -, h5⟩ := isTlsChello_bytes h
  have hlen : 5 < t.data.length := rd_lt (i := 5) h5
  unfold tampMinor versioned
  cases dp.tlsminor with
  | none => rfl
  | some v =>
    simp only [h, Option.bind_eq_bind, Option.bind_some, if_true, wr]
    rw [if_pos (by omega)]
    rfl

/-- On a ClientHello `tamp` stores the version and then splits. -/
lemma tamp_hello (h : isTlsChello t.data t.n = some true) :
    tamp dp rnd t = tlsrecLoop rnd (expand dp.tlsrec) 0 0 (versioned dp t) := by
  have hhttp : tampHttp dp t.data t.n = some t.data := by
    simp only [tampHttp, isHttp_hello h, Option.bind_eq_bind, Option.bind_some]
    split <;> rfl
  have hset : { t with data := (versioned dp t).data } = versioned dp t := by
    unfold versioned
    cases dp.tlsminor <;> rfl
  simp only [tamp, hhttp, tampMinor_hello h, versioned_hello h, Option.bind_eq_bind,
    Option.bind_some, hset, if_true, Option.pure_def]
  split
  · next hnone =>
    rw [List.length_eq_zero_iff.mp hnone]
    rfl
  · rfl

/-- The first record of the buffer is all there is to cut at the start. -/
lemma cutting_start {header payload rest : Bytes}
    (hread : readFrames 3 1 (t.data.take t.n) = some ([(header, payload)], rest))
    (hfits : t.n ≤ t.data.length) :
    Cutting header payload rest [] payload (t.data.drop t.n) 0 t ∧ payload.length < 65536 := by
  obtain ⟨htake, hsize⟩ := readFrames_one hread
  refine ⟨⟨?_, ?_, rfl, rfl⟩, hsize⟩
  · rw [List.flatMap_nil, List.nil_append, ← htake, List.take_append_drop]
  · have hlen := congrArg List.length htake
    simp only [List.length_take, List.length_append] at hlen
    simp only [List.flatMap_nil, List.length_nil]
    omega

lemma readFrames_versioned {header payload rest : Bytes} (dp : DesyncParams)
    (hread : readFrames 3 1 (t.data.take t.n) = some ([(header, payload)], rest)) :
    ∃ header', readFrames 3 1 ((versioned dp t).data.take t.n) =
      some ([(header', payload)], rest) := by
  unfold versioned
  cases dp.tlsminor with
  | none => exact ⟨header, hread⟩
  | some v =>
    obtain ⟨hs, hsize⟩ := readFrames_one hread
    simp only [readFrames, List.take_set, List.drop_set, show 2 < 3 by decide, if_true] at hread ⊢
    split at hread
    · split at hread
      · next hfit =>
        simp only [Option.bind_eq_bind, Option.bind_some, Option.pure_def, Option.some.injEq,
          Prod.mk.injEq, List.cons.injEq, and_true] at hread
        obtain ⟨⟨-, rfl⟩, rfl⟩ := hread
        rw [if_pos hfit]
        exact ⟨_, rfl⟩
      · cases hread
    · cases hread

lemma header_length {s header payload rest : Bytes} (hlen : 3 ≤ s.length)
    (hread : readFrames 3 1 s = some ([(header, payload)], rest)) : header.length = 3 := by
  simp only [readFrames] at hread
  split at hread
  · split at hread
    · simp only [Option.bind_eq_bind, Option.bind_some, Option.pure_def, Option.some.injEq,
        Prod.mk.injEq, List.cons.injEq, and_true] at hread
      obtain ⟨⟨rfl, -⟩, -⟩ := hread
      simp only [List.length_take]
      omega
    · cases hread
  · cases hread

/-- The loop starts on the whole first record. -/
lemma cutting_hello {header payload rest : Bytes} (dp : DesyncParams)
    (hhello : isTlsChello t.data t.n = some true) (hfits : t.n ≤ t.data.length)
    (hread : readFrames 3 1 (t.data.take t.n) = some ([(header, payload)], rest)) :
    ∃ header' spare, header'.length = 3 ∧ payload.length < 65536 ∧
      readFrames 3 1 ((versioned dp t).data.take t.n) = some ([(header', payload)], rest) ∧
      Cutting header' payload rest [] payload spare 0 (versioned dp t) := by
  obtain ⟨hn, -, -, -⟩ := isTlsChello_bytes hhello
  obtain ⟨header', hread'⟩ := readFrames_versioned dp hread
  have hlen : header'.length = 3 := by
    refine header_length ?_ hread'
    simp only [List.length_take, versioned_length]
    omega
  obtain ⟨hcut, hsize⟩ := cutting_start (t := versioned dp t) (by simpa using hread')
    (by simpa using hfits)
  exact ⟨header', _, hlen, hsize, hread', hcut⟩

lemma all_iff_count (l : List Bool) : (∀ w ∈ l, w = true) ↔ l.count true = l.length := by
  rw [List.count_eq_length]
  constructor
  · intro h w hw
    exact (h w hw).symm
  · intro h w hw
    exact (h w hw).symm

end Tamp

section Handshake

variable {dp : DesyncParams} {rnd : Rands} {t t' : Tamped} {header payload rest : Bytes}

lemma tamp_grows (hhello : isTlsChello t.data t.n = some true) (htamp : tamp dp rnd t = some t') :
    t'.n = t.n + 5 * (tampHeaders dp rnd t).length := by
  rw [tamp_hello hhello] at htamp
  have hlen := tlsrecLoop_length htamp
  rw [versioned_n] at hlen
  exact hlen

lemma preserved_of_inRecord (hhello : isTlsChello t.data t.n = some true)
    (hfits : t.n ≤ t.data.length)
    (hread : readFrames 3 1 (t.data.take t.n) = some ([(header, payload)], rest))
    (htamp : tamp dp rnd t = some t') (hall : ∀ w ∈ tampHeaders dp rnd t, w = true) :
    Preserved dp rnd t t' := by
  have hgrown := tamp_grows hhello htamp
  rw [tamp_hello hhello] at htamp
  have hcount := (all_iff_count _).mp hall
  obtain ⟨header', spare, hheader, hsize, hread', hstart⟩ := cutting_hello dp hhello hfits hread
  obtain ⟨done, cur, spare', lp, hend, hlen⟩ := tlsrecLoop_cuts hheader hsize hstart hall htamp
  have hlen' : done.length = (tampHeaders dp rnd t).length := by
    rw [List.length_nil, Nat.zero_add] at hlen
    exact hlen
  have hpieces : (done ++ [cur]).flatten = payload := by
    simpa using hend.payload
  have hk : (t'.n - t.n) / 5 + 1 = (done ++ [cur]).length := by
    simp only [List.length_append, List.length_cons, List.length_nil]
    omega
  refine ⟨by omega, header', payload, rest, done ++ [cur], hread', ?_, hpieces⟩
  rw [hend.taken, hk]
  apply readFrames_flatMap hheader
  intro p hp
  have hle := List.Sublist.length_le (List.sublist_flatten_of_mem hp)
  rw [hpieces] at hle
  omega

/-- A request that is one record keeps its handshake, whatever the positions. -/
theorem lone_record_preserved (hhello : isTlsChello t.data t.n = some true)
    (hfits : t.n ≤ t.data.length)
    (hread : readFrames 3 1 (t.data.take t.n) = some ([(header, payload)], []))
    (htamp : tamp dp rnd t = some t') : Preserved dp rnd t t' := by
  obtain ⟨header', spare, hheader, hsize, -, hstart⟩ := cutting_hello dp hhello hfits hread
  exact preserved_of_inRecord hhello hfits hread htamp (headers_lone hheader hsize hstart)

end Handshake

/-- The handshake survives exactly when no cut is asked for behind the end of
the current record but still inside the buffer. -/
theorem handshake_preserved_iff (dp : DesyncParams) (rnd : Rands) (t t' : Tamped)
    (header payload rest : Bytes) (hhello : isTlsChello t.data t.n = some true)
    (hfits : t.n ≤ t.data.length)
    (hread : readFrames 3 1 (t.data.take t.n) = some ([(header, payload)], rest))
    (htamp : tamp dp rnd t = some t') :
    Preserved dp rnd t t' ↔ ∀ w ∈ tampHeaders dp rnd t, w = true := by
  constructor
  · rintro ⟨hcount, -⟩
    have hgrown := tamp_grows hhello htamp
    apply (all_iff_count _).mpr
    omega
  · exact preserved_of_inRecord hhello hfits hread htamp

/-- A one-byte record, ten bytes of the next one behind it, and room to grow. -/
def helloThenMore : Tamped :=
  ⟨[0x16, 3, 1, 0, 1, 1, 0x17, 3, 3, 0, 5, 1, 2, 3, 4, 5] ++ List.replicate 8 0, 16, {}⟩

def recordAt (pos : Int) : DesyncParams := { tlsrec := [⟨.none, {}, pos, 0, 0⟩] }

theorem handshake_preserved_iff_at1 :
    ∃ t', tamp (recordAt 1) {} helloThenMore = some t' ∧
      Preserved (recordAt 1) {} helloThenMore t' := by
  refine ⟨_, rfl, ?_⟩
  exact (handshake_preserved_iff (recordAt 1) {} helloThenMore _ [0x16, 3, 1] [1]
    [0x17, 3, 3, 0, 5, 1, 2, 3, 4, 5] (by decide) (by decide) (by decide) rfl).mpr (by decide)

/-- A cut at 3 lies behind the record: the request grows by five stale bytes,
and a record with another header follows the first. -/
theorem cut_behind_record :
    ∃ t', tamp (recordAt 3) {} helloThenMore = some t' ∧ t'.data = helloThenMore.data ∧
      t'.n = 21 ∧ ¬ Kept (helloThenMore.data.take 16) (t'.data.take 21) 1 := by
  refine ⟨_, rfl, by decide, by decide, ?_⟩
  rintro ⟨header, payload, rest, pieces, -, hafter, -⟩
  have hread : readFrames 3 2 (helloThenMore.data.take 21) = some
      ([([0x16, 3, 1], [1]), ([0x17, 3, 3], [1, 2, 3, 4, 5])], List.replicate 5 0) := by decide
  obtain ⟨hpieces, -⟩ := Prod.mk.inj (Option.some.inj (hread.symm.trans hafter))
  have hsame : ∀ f ∈ [(([0x16, 3, 1] : Bytes), ([1] : Bytes)), ([0x17, 3, 3], [1, 2, 3, 4, 5])],
      f.1 = header := by
    intro f hf
    rw [hpieces] at hf
    obtain ⟨p, -, rfl⟩ := List.mem_map.mp hf
    rfl
  have hone := hsame ([0x16, 3, 1], [1]) (by simp)
  have htwo := hsame ([0x17, 3, 3], [1, 2, 3, 4, 5]) (by simp)
  exact absurd (hone.trans htwo.symm) (by decide)

end RecordSplit
