import NoZapret.DesyncSpec

/-!
# One call on a calm socket

When every `send` takes all it is offered and nothing is ever reported unsent,
one call runs through all parts. The first half of a disorder, disoob or fake
pair puts bytes on the stream without moving `lp`, so they are sent again (or
were never part of the request). `intact` follows the position `q` the loop has
reached and the count `f` of request bytes already on the stream, and says
exactly when the peer still reads the request.
-/

namespace DecoyStream

open Block Packets Params Desync Stream DesyncSpec

/-- Will the stream be the request's? `q` is `lp` and `[0, f)` is sent. -/
def intact (c : Call) : List Rep → Nat → Nat → Nat → ProtoInfo → Bool
  | [], _, q, f, _ => q == f
  | rep :: rest, idx, q, f, info =>
    match place (c.rnd.part idx) rep c.buffer c.n q info with
    | none => false
    | some (pos, info) =>
      if pos < q then q == f
      else
        let p := (min pos c.n).toNat
        if rep.1.m.urgent && decide (c.buffer.length ≤ p) then f == c.n
        else if rep.1.m == .fake && firstOfPair rep then
          match fakePacket c.dp c.rnd idx c.buffer c.n info with
          | none => false
          | some (pkt, info) =>
            if p = q then intact c rest (idx + 1) q f info
            else decoyLen pkt q p == 0 && f == c.n
        else if p = q then intact c rest (idx + 1) q f info
        else q == f && intact c rest (idx + 1) (if firstOfPair rep then q else p) p info

/-- A first call: nothing sent before, `wait_send` off. -/
structure First (c : Call) : Prop where
  offset : c.offset = 0
  skip : c.skip = 0
  partSkip : c.partSkip = 0
  noWait : c.g.waitSend = false
  fits : c.n ≤ c.buffer.length

/-- One repetition that the loop goes on from, with `x` added to the stream. -/
structure Moved (st st' : Loop) (lp : Nat) (info : ProtoInfo) (x : List (UInt8 × Option Nat)) :
    Prop where
  lp : st'.lp = lp
  info : st'.info = info
  calm : Calm st'.sock
  stream : stream st'.sock.log = Stream.stream st.sock.log ++ x

section Step

variable {c : Call} {idx : Nat} {rep : Rep} {st : Loop} {pos : Int} {info : ProtoInfo}

lemma not_skipped (hc : First c) : skipped c (idx + 1) rep pos = false := by
  simp [skipped, hc.offset, hc.skip, hc.partSkip]

lemma clip_le (hc : First c) : (min pos c.n).toNat ≤ c.buffer.length := by
  have := hc.fits
  omega

lemma lp_le_clip (hlp : st.lp ≤ c.n) (hpos : (st.lp : Int) ≤ pos) :
    st.lp ≤ (min pos c.n).toNat := by
  omega

/-- After a complete send the loop goes on. -/
lemma afterSend_moved (rep : Rep) (curr : Nat) (hc : First c) {p : Nat} {x : List (UInt8 × Option Nat)} {st1 : Loop}
    (hsent : Sent { st with info := info } st1 info x) (hcalm : Calm st.sock)
    (hlp : st.lp ≤ p) :
    ∃ st', Moved st st' (if firstOfPair rep then st.lp else p) info x ∧
      afterSend c curr (firstOfPair rep) p ((p : Int) - st.lp) st1 = .next st' := by
  have hcalm1 : Calm st1.sock := calm_of_sent hsent hcalm
  have hlp1 : st1.lp = st.lp := hsent.lp
  obtain ⟨st', hafter, heq⟩ := afterSend_complete c curr (firstOfPair rep) (hlp1 ▸ hlp)
  have hgo : suspends c curr st1 = false := not_suspends hcalm1.neverUnsent hc.noWait
  refine ⟨st', ⟨?_, ?_, calm_of_after hafter hcalm1, ?_⟩, ?_⟩
  · rw [hafter.lp, hlp1]
  · rw [hafter.info, hsent.info]
  · rw [hafter.stream, hsent.stream]
  · rw [← hlp1, heq, hgo]
    rfl

lemma step_send (hc : First c) (hcalm : Calm st.sock)
    (h : place (c.rnd.part idx) rep c.buffer c.n st.lp st.info = some (pos, info))
    (hlp : st.lp ≤ c.n) (hpos : (st.lp : Int) ≤ pos)
    (hoob : rep.1.m.urgent = true → (min pos c.n).toNat < c.buffer.length)
    (hmode : rep.1.m = .fake → firstOfPair rep = false) :
    ∃ st', partStep c idx rep st = some (.next st') ∧
      Moved st st' (if firstOfPair rep then st.lp else (min pos c.n).toNat) info
        (part c.buffer st.lp (min pos c.n).toNat) := by
  have hle := lp_le_clip hlp hpos
  obtain ⟨st1, hsend, hsent⟩ := sendPart_plain c idx
    { st with info := info } hmode hoob hle (clip_le hc) hcalm.allSent hcalm.sysOk
  obtain ⟨st', hmoved, hafter⟩ := afterSend_moved rep (idx + 1) hc hsent hcalm hle
  refine ⟨st', ?_, hmoved⟩
  rw [partStep_sends h (not_skipped hc) hpos (by simp [hc.partSkip]) hsend, hafter]

lemma step_full (hc : First c) (hcalm : Calm st.sock)
    (h : place (c.rnd.part idx) rep c.buffer c.n st.lp st.info = some (pos, info))
    (hlp : st.lp ≤ c.n) (hpos : (st.lp : Int) ≤ pos) (hoob : rep.1.m.urgent = true)
    (hfull : c.buffer.length ≤ (min pos c.n).toNat) :
    ∃ v st', partStep c idx rep st = some (.ret v false st') ∧
      stream st'.sock.log = stream st.sock.log := by
  have hle := lp_le_clip hlp hpos
  obtain ⟨st1, hsend, hsent⟩ := sendPart_urgent_full c idx
    { st with info := info } hoob hfull hcalm.sysOk
  have hne : (-1 : Int) ≠ ((min pos c.n).toNat : Int) - st1.lp := by
    rw [hsent.lp]
    dsimp only
    omega
  rw [partStep_sends h (not_skipped hc) hpos (by simp [hc.partSkip]) hsend,
    afterSend_ends c _ _ hne]
  refine ⟨_, _, rfl, ?_⟩
  simpa using hsent.stream

lemma step_fake_none (hc : First c) (hcalm : Calm st.sock)
    (h : place (c.rnd.part idx) rep c.buffer c.n st.lp st.info = some (pos, info))
    (hpos : (st.lp : Int) ≤ pos) (hm : rep.1.m = .fake) (hf : firstOfPair rep = true)
    (hpkt : fakePacket c.dp c.rnd idx c.buffer c.n info = none) :
    partStep c idx rep st = none :=
  partStep_sends_none h (not_skipped hc) hpos (by simp [hc.partSkip])
    (sendPart_fake_none hm hf hpkt hcalm.sysOk)

/-- The first half of a decoy pair: either the loop goes on, or a decoy shorter
than the part ends the call. -/
lemma step_fake (hc : First c) (hcalm : Calm st.sock)
    (h : place (c.rnd.part idx) rep c.buffer c.n st.lp st.info = some (pos, info))
    (hlp : st.lp ≤ c.n) (hpos : (st.lp : Int) ≤ pos) (hm : rep.1.m = .fake)
    (hf : firstOfPair rep = true) {pkt : Packet} {info' : ProtoInfo}
    (hpkt : fakePacket c.dp c.rnd idx c.buffer c.n info = some (pkt, info')) :
    ∃ (st' : Loop) (xs : Bytes),
      (xs.length : Int) = decoyLen pkt st.lp (min pos c.n).toNat ∧
      Moved st st' st.lp info' (xs.map fun x => (x, none)) ∧
      partStep c idx rep st = some
        (if (xs.length : Int) = ((min pos c.n).toNat : Int) - st.lp then .next st'
          else .ret (st.lp + xs.length - c.offset) false st') := by
  have hle := lp_le_clip hlp hpos
  obtain ⟨st1, xs, hsend, hlen, hsent⟩ := sendPart_fake { st with info := info } hm hf
    hpkt hle hcalm.allSent hcalm.sysOk
  have hlp1 : st1.lp = st.lp := hsent.lp
  have hstep := partStep_sends h (not_skipped hc) hpos (by simp [hc.partSkip]) hsend
  rw [← hlen] at hstep
  by_cases hfull : (xs.length : Int) = ((min pos c.n).toNat : Int) - st.lp
  · have hsent' : Sent { st with info := info' } st1 info' (xs.map fun x => (x, none)) :=
      ⟨hsent.lp, hsent.info, hsent.partSent, hsent.sends, hsent.notsent, hsent.sysOk, hsent.stream⟩
    obtain ⟨st', hmoved, hafter⟩ := afterSend_moved rep (idx + 1) hc hsent' hcalm hle
    refine ⟨st', xs, hlen, by simpa [hf] using hmoved, ?_⟩
    rw [hstep, if_pos hfull, ← hafter, hfull]
  · refine ⟨st1, xs, hlen, ⟨hlp1, hsent.info, calm_of_sent hsent hcalm, hsent.stream⟩, ?_⟩
    rw [hstep, if_neg hfull, afterSend_ends c _ _ (by rw [hlp1]; exact hfull), hf, ← hlp1]
    simp

end Step

/-- Nothing is taken back, and a loop that goes on stays calm and in range. -/
def Grown (c : Call) (st : Loop) : Flow → Prop
  | .next st' => stream st.sock.log <+: stream st'.sock.log ∧ Calm st'.sock ∧ st'.lp ≤ c.n
  | .cancel st' => st'.sock = st.sock ∧ st'.lp = st.lp
  | .ret _ _ st' => stream st.sock.log <+: stream st'.sock.log

lemma partStep_grows {c : Call} {idx : Nat} {rep : Rep} {st : Loop} {fl : Flow} (hc : First c)
    (hcalm : Calm st.sock) (hlp : st.lp ≤ c.n) (h : partStep c idx rep st = some fl) :
    Grown c st fl := by
  cases hplace : place (c.rnd.part idx) rep c.buffer c.n st.lp st.info with
  | none => simp [partStep_undefined hplace] at h
  | some x =>
    obtain ⟨pos, info⟩ := x
    by_cases hpos : pos < st.lp
    · rw [partStep_cancel hplace (not_skipped hc) hpos] at h
      cases h
      exact ⟨rfl, rfl⟩
    have hpos : (st.lp : Int) ≤ pos := by omega
    by_cases hfull : rep.1.m.urgent = true ∧ c.buffer.length ≤ (min pos c.n).toNat
    · obtain ⟨v, st', hstep, hstream⟩ := step_full hc hcalm hplace hlp hpos hfull.1 hfull.2
      rw [hstep] at h
      cases h
      exact ⟨[], by rw [List.append_nil, hstream]⟩
    by_cases hfake : rep.1.m = .fake ∧ firstOfPair rep = true
    · cases hpkt : fakePacket c.dp c.rnd idx c.buffer c.n info with
      | none => simp [step_fake_none hc hcalm hplace hpos hfake.1 hfake.2 hpkt] at h
      | some y =>
        obtain ⟨st', xs, -, hmoved, hstep⟩ := step_fake hc hcalm hplace hlp hpos hfake.1 hfake.2 hpkt
        rw [hstep] at h
        split at h
        · cases h
          exact ⟨⟨_, hmoved.stream.symm⟩, hmoved.calm, hmoved.lp.symm ▸ hlp⟩
        · cases h
          exact ⟨_, hmoved.stream.symm⟩
    · obtain ⟨st', hstep, hmoved⟩ := step_send hc hcalm hplace hlp hpos
        (fun hu => Nat.lt_of_not_le fun hle => hfull ⟨hu, hle⟩)
        (fun hm => Bool.eq_false_iff.mpr fun hf => hfake ⟨hm, hf⟩)
      rw [hstep] at h
      cases h
      refine ⟨⟨_, hmoved.stream.symm⟩, hmoved.calm, ?_⟩
      rw [hmoved.lp]
      split <;> omega

theorem partsLoop_grows {c : Call} (hc : First c) {reps : List Rep} :
    ∀ {idx : Nat} {st : Loop} {e : Ended}, Calm st.sock → st.lp ≤ c.n →
      partsLoop c reps idx st = some e → stream st.sock.log <+: stream e.st.sock.log := by
  have hrest : ∀ {st : Loop} {e : Ended}, Calm st.sock → st.lp ≤ c.n → sendRest c st = some e →
      stream st.sock.log <+: stream e.st.sock.log := by
    intro st e hcalm hlp h
    obtain ⟨st', hst', hsent⟩ := sendRest_all hlp hc.fits hcalm.allSent
    rw [hst'] at h
    cases h
    exact ⟨_, hsent.stream.symm⟩
  induction reps with
  | nil => exact hrest
  | cons rep rest ih =>
    intro idx st e hcalm hlp h
    cases hstep : partStep c idx rep st with
    | none => simp [partsLoop_undefined hstep] at h
    | some fl =>
      have hgrow := partStep_grows hc hcalm hlp hstep
      cases fl with
      | next st' =>
        obtain ⟨hpre, hcalm', hlp'⟩ := hgrow
        rw [partsLoop_next hstep] at h
        exact hpre.trans (ih hcalm' hlp' h)
      | cancel st' =>
        obtain ⟨hsock, hlp'⟩ := hgrow
        rw [partsLoop_cancel hstep] at h
        rw [← hsock] at hcalm ⊢
        exact hrest hcalm (hlp' ▸ hlp) h
      | ret v wait st' =>
        rw [partsLoop_ret hstep] at h
        cases h
        exact hgrow

/-- The peer has read exactly the request. -/
def Delivered (c : Call) (out : Option Ended) : Prop :=
  ∃ e, out = some e ∧ stream e.st.sock.log = part c.buffer 0 c.n

/-- Once the stream has left the request it stays off it. -/
lemma not_delivered {c : Call} (hc : First c) {reps : List Rep} {idx : Nat} {st : Loop}
    (hcalm : Calm st.sock) (hlp : st.lp ≤ c.n)
    (hdead : ¬ stream st.sock.log <+: part c.buffer 0 c.n) :
    ¬ Delivered c (partsLoop c reps idx st) := by
  rintro ⟨e, he, hstream⟩
  exact hdead (hstream ▸ partsLoop_grows hc hcalm hlp he)

lemma part_inj {b : Bytes} {n f : Nat} (hf : f ≤ n) (hn : n ≤ b.length)
    (h : part b 0 f = part b 0 n) : f = n := by
  have hlen := congrArg List.length h
  rw [part_length (by omega), part_length hn] at hlen
  omega

/-- The final send completes the request just when nothing ran ahead of `lp`. -/
lemma delivered_sendRest {c : Call} (hc : First c) {st : Loop} {f : Nat} (hcalm : Calm st.sock)
    (hqf : st.lp ≤ f) (hf : f ≤ c.n) (hstream : stream st.sock.log = part c.buffer 0 f) :
    Delivered c (sendRest c st) ↔ st.lp = f := by
  have hfits := hc.fits
  obtain ⟨st', hst', hsent⟩ := sendRest_all (c := c) (by omega) hc.fits hcalm.allSent
  have hlog : stream st'.sock.log = part c.buffer 0 f ++ part c.buffer st.lp c.n := by
    rw [hsent.stream, hstream]
  constructor
  · rintro ⟨e, he, hdel⟩
    rw [hst'] at he
    cases he
    rw [hlog] at hdel
    by_contra hne
    exact part_not_prefix (n := c.n) (by omega) (by omega) hfits hne
      (by simp only [hdel, List.prefix_refl])
  · intro heq
    refine ⟨_, hst', ?_⟩
    rw [hlog, heq, part_append (Nat.zero_le f) hf (by omega)]

/-- Where the loop stops without sending more, the request must be complete. -/
lemma delivered_stopped {c : Call} (hc : First c) {out : Option Ended} {e : Ended} {f : Nat}
    (hout : out = some e) (hf : f ≤ c.n) (hstream : stream e.st.sock.log = part c.buffer 0 f) :
    Delivered c out ↔ f = c.n := by
  constructor
  · rintro ⟨e', he', hdel⟩
    rw [hout] at he'
    cases he'
    exact part_inj hf hc.fits (hstream.symm.trans hdel)
  · intro heq
    exact ⟨e, hout, heq ▸ hstream⟩

lemma delivered_ret {c : Call} {reps : List Rep} {idx : Nat} {st st' : Loop} {rep : Rep} {v : Int}
    {wait : Bool} (h : partStep c idx rep st = some (.ret v wait st'))
    (hdead : ¬ stream st'.sock.log <+: part c.buffer 0 c.n) :
    ¬ Delivered c (partsLoop c (rep :: reps) idx st) := by
  rintro ⟨e, he, hdel⟩
  rw [partsLoop_ret h] at he
  cases he
  exact hdead (hdel ▸ List.prefix_refl _)

/-- The claim about the repetitions that follow, for the induction below. -/
def Follows (c : Call) (rest : List Rep) : Prop :=
  ∀ {idx f : Nat} {st : Loop}, Calm st.sock → st.lp ≤ f → f ≤ c.n →
    stream st.sock.log = part c.buffer 0 f →
    (Delivered c (partsLoop c rest idx st) ↔ intact c rest idx st.lp f st.info = true)

section Branch

variable {c : Call} {idx f : Nat} {rep : Rep} {rest : List Rep} {st : Loop} {pos : Int}
  {info : ProtoInfo}

/-- A repetition that sends `[lp, p)` of the request. -/
lemma delivered_send_iff (hc : First c) (ih : Follows c rest) (hcalm : Calm st.sock)
    (hqf : st.lp ≤ f) (hf : f ≤ c.n) (hstream : stream st.sock.log = part c.buffer 0 f)
    (hplace : place (c.rnd.part idx) rep c.buffer c.n st.lp st.info = some (pos, info))
    (hpos : (st.lp : Int) ≤ pos)
    (hoob : rep.1.m.urgent = true → (min pos c.n).toNat < c.buffer.length)
    (hmode : rep.1.m = .fake → firstOfPair rep = false) :
    Delivered c (partsLoop c (rep :: rest) idx st) ↔
      (if (min pos c.n).toNat = st.lp then intact c rest (idx + 1) st.lp f info
        else st.lp == f && intact c rest (idx + 1)
          (if firstOfPair rep then st.lp else (min pos c.n).toNat) (min pos c.n).toNat info)
        = true := by
  have hfits := hc.fits
  have hlp : st.lp ≤ c.n := by omega
  have hle := lp_le_clip hlp hpos
  obtain ⟨st', hstep, hmoved⟩ := step_send hc hcalm hplace hlp hpos hoob hmode
  rw [partsLoop_next hstep]
  have hclip : (min pos c.n).toNat ≤ c.n := by omega
  generalize (min pos c.n).toNat = p at hle hclip hmoved ⊢
  have hlog := hmoved.stream
  rw [hstream] at hlog
  by_cases hsame : p = st.lp
  · subst hsame
    have hlp' : st'.lp = st.lp := by rw [hmoved.lp, ite_self]
    rw [part_self, List.append_nil] at hlog
    rw [if_pos rfl, ih hmoved.calm (hlp'.symm ▸ hqf) hf hlog, hlp', hmoved.info]
  · rw [if_neg hsame]
    by_cases hq : st.lp = f
    · have hlp' : st'.lp ≤ p := by rw [hmoved.lp]; split <;> omega
      rw [← hq, part_append (Nat.zero_le _) hle (by omega)] at hlog
      rw [ih hmoved.calm hlp' hclip hlog, hmoved.lp, hmoved.info, hq, beq_self_eq_true,
        Bool.true_and]
    · have hdead : ¬ stream st'.sock.log <+: part c.buffer 0 c.n := by
        rw [hlog]
        exact part_not_prefix (by omega) (by omega) (by omega) hq
      have hlp' : st'.lp ≤ c.n := by rw [hmoved.lp]; split <;> omega
      simp [not_delivered hc hmoved.calm hlp' hdead, hq]

/-- The first half of a decoy pair. -/
lemma delivered_fake_iff (hc : First c) (ih : Follows c rest) (hcalm : Calm st.sock)
    (hqf : st.lp ≤ f) (hf : f ≤ c.n) (hstream : stream st.sock.log = part c.buffer 0 f)
    (hplace : place (c.rnd.part idx) rep c.buffer c.n st.lp st.info = some (pos, info))
    (hpos : (st.lp : Int) ≤ pos) (hm : rep.1.m = .fake) (hfirst : firstOfPair rep = true)
    {pkt : Packet} {info' : ProtoInfo}
    (hpkt : fakePacket c.dp c.rnd idx c.buffer c.n info = some (pkt, info')) :
    Delivered c (partsLoop c (rep :: rest) idx st) ↔
      (if (min pos c.n).toNat = st.lp then intact c rest (idx + 1) st.lp f info'
        else decoyLen pkt st.lp (min pos c.n).toNat == 0 && f == c.n) = true := by
  have hfits := hc.fits
  have hlp : st.lp ≤ c.n := by omega
  have hle := lp_le_clip hlp hpos
  obtain ⟨st', xs, hlen, hmoved, hstep⟩ := step_fake hc hcalm hplace hlp hpos hm hfirst hpkt
  generalize (min pos c.n).toNat = p at hle hlen hstep ⊢
  have hlog := hmoved.stream
  rw [hstream] at hlog
  by_cases hsame : p = st.lp
  · have hoff := fakePacket_off hpkt
    have hnil : xs = [] := List.length_eq_zero_iff.mp (by unfold decoyLen at hlen; omega)
    rw [hnil, List.map_nil, List.append_nil] at hlog
    rw [if_pos (by simp [hnil, hsame])] at hstep
    rw [if_pos hsame, partsLoop_next hstep, ih hmoved.calm (hmoved.lp.symm ▸ hqf) hf hlog,
      hmoved.lp, hmoved.info]
  · rw [if_neg hsame, ← hlen]
    by_cases hnil : xs = []
    · rw [hnil, List.map_nil, List.append_nil] at hlog
      rw [if_neg (by simp only [hnil, List.length_nil]; omega)] at hstep
      rw [delivered_stopped hc (partsLoop_ret hstep) hf hlog]
      simp [hnil]
    · have hdead : ¬ stream st'.sock.log <+: part c.buffer 0 c.n := by
        rw [hlog]
        exact decoy_not_prefix (by omega) hnil
      have hnot : ¬ Delivered c (partsLoop c (rep :: rest) idx st) := by
        split at hstep
        · rw [partsLoop_next hstep]
          exact not_delivered hc hmoved.calm (hmoved.lp.symm ▸ hlp) hdead
        · exact delivered_ret hstep hdead
      simp [hnot, hnil]

end Branch

/-- The induction over the repetitions: the peer reads the request exactly when
`intact` says so. -/
theorem partsLoop_delivered_iff {c : Call} (hc : First c) (reps : List Rep) : Follows c reps := by
  induction reps with
  | nil =>
    intro idx f st hcalm hqf hf hstream
    rw [partsLoop, delivered_sendRest hc hcalm hqf hf hstream, intact, beq_iff_eq]
  | cons rep rest ih =>
    intro idx f st hcalm hqf hf hstream
    have hlp : st.lp ≤ c.n := by omega
    rw [intact]
    cases hplace : place (c.rnd.part idx) rep c.buffer c.n st.lp st.info with
    | none => simp [partsLoop_undefined (partStep_undefined hplace), Delivered]
    | some x =>
      obtain ⟨pos, info⟩ := x
      dsimp only
      by_cases hpos : pos < st.lp
      · rw [partsLoop_cancel (partStep_cancel hplace (not_skipped hc) hpos), if_pos hpos,
          beq_iff_eq]
        exact delivered_sendRest hc hcalm hqf hf hstream
      rw [if_neg hpos]
      have hpos : (st.lp : Int) ≤ pos := by omega
      by_cases hfull : rep.1.m.urgent = true ∧ c.buffer.length ≤ (min pos c.n).toNat
      · obtain ⟨v, st', hstep, hsame⟩ := step_full hc hcalm hplace hlp hpos hfull.1 hfull.2
        rw [if_pos (by simpa using hfull), beq_iff_eq]
        exact delivered_stopped hc (partsLoop_ret hstep) hf (hsame.trans hstream)
      rw [if_neg (by simpa using hfull)]
      by_cases hfake : rep.1.m = .fake ∧ firstOfPair rep = true
      · rw [if_pos (by simpa using hfake)]
        cases hpkt : fakePacket c.dp c.rnd idx c.buffer c.n info with
        | none =>
          have hstep := step_fake_none hc hcalm hplace hpos hfake.1 hfake.2 hpkt
          simp [partsLoop_undefined hstep, Delivered]
        | some y =>
          exact delivered_fake_iff hc ih hcalm hqf hf hstream hplace hpos hfake.1 hfake.2 hpkt
      · rw [if_neg (by simpa using hfake)]
        exact delivered_send_iff hc ih hcalm hqf hf hstream hplace hpos
          (fun hu => Nat.lt_of_not_le fun hle => hfull ⟨hu, hle⟩)
          (fun hm => Bool.eq_false_iff.mpr fun hf => hfake ⟨hm, hf⟩)

/-- One call on a fresh request: the peer reads each byte of the tampered
request once, in order, and nothing else. -/
def Relayed (g : Globals) (dp : DesyncParams) (rnd : Rands) (r : Request) (remote : Restore)
    (w : Sock) : Prop :=
  ∃ v wait k, desync g dp rnd (r.conn remote w) = some (v, wait, k) ∧
    stream k.sock.log = part k.data 0 k.n

/-- `intact` for a whole request: `tamp` first, then the parts from position 0. -/
def keepsStream (g : Globals) (dp : DesyncParams) (rnd : Rands) (r : Request) : Bool :=
  match prepare g dp rnd r.data r.n 0 with
  | none => false
  | some t => intact ⟨g, dp, rnd, t.data, t.n, 0, 0, 0⟩ (expand dp.parts) 0 0 0 t.info

/-- The bytes of a relayed request are the buffer's. -/
lemma part_bytes (b : Bytes) (n : Nat) : (part b 0 n).map Prod.fst = b.take n := by
  simp [part, span, Function.comp_def]

/-- Decoy modes keep the stream exactly when no executed first half covers a byte
that is sent again. -/
theorem stream_intact_iff (g : Globals) (dp : DesyncParams) (rnd : Rands) (r : Request)
    (remote : Restore) (w : Sock) (hwait : g.waitSend = false) (hcalm : Calm w)
    (hlog : w.log = []) :
    Relayed g dp rnd r remote w ↔ keepsStream g dp rnd r = true := by
  cases ht : prepare g dp rnd r.data r.n 0 with
  | none =>
    have hnone : ¬ Relayed g dp rnd r remote w := by
      rintro ⟨v, wait, k, hd, -⟩
      obtain ⟨t, e, ht', -⟩ := desync_some_iff.mp hd
      exact absurd (ht.symm.trans ht') (by simp)
    simp [hnone, keepsStream, ht]
  | some t =>
    have hfirst : First (callOf g dp rnd (r.conn remote w) t) :=
      ⟨rfl, rfl, rfl, hwait, (prepare_fits ht r.fits).2⟩
    have hloop : Delivered (callOf g dp rnd (r.conn remote w) t)
        (partsLoop (callOf g dp rnd (r.conn remote w) t) (expand dp.parts) 0
          (loopOf (r.conn remote w) t)) ↔
        intact (callOf g dp rnd (r.conn remote w) t) (expand dp.parts) 0 0 0 t.info = true :=
      partsLoop_delivered_iff hfirst (expand dp.parts) hcalm (Nat.le_refl 0) (Nat.zero_le _)
        (by simp [loopOf, Request.conn, hlog])
    rw [keepsStream, ht]
    refine Iff.trans ?_ hloop
    constructor
    · rintro ⟨v, wait, k, hd, hs⟩
      obtain ⟨t', e, ht', he, hk⟩ := desync_some_iff.mp hd
      obtain rfl : t = t' := Option.some.inj (ht.symm.trans ht')
      cases hk
      exact ⟨e, he, hs⟩
    · rintro ⟨e, he, hs⟩
      exact ⟨e.ret, e.wait, _, desync_some_iff.mpr ⟨t, e, ht, he, rfl⟩, hs⟩

/-- One part at `pos` and a three byte request. -/
def onePart (m : Demode) (pos : Int) : DesyncParams := { parts := [⟨m, {}, pos, 0, 0⟩] }

def abc : Request := ⟨[97, 98, 99], 3, by decide⟩

theorem stream_intact_iff_split : Relayed {} (onePart .split 1) {} abc {} {} :=
  (stream_intact_iff {} (onePart .split 1) {} abc {} {} rfl
    ⟨by simp [AllSent], by simp [NeverUnsent], by simp [SysOk]⟩ rfl).mpr (by decide)

/-- `--disorder 1`: the low-TTL send of byte 0 is followed by the whole request. -/
theorem disorder_repeats_byte :
    Calm {} ∧ ¬ Relayed {} (onePart .disorder 1) {} abc {} {} ∧
      (desync {} (onePart .disorder 1) {} (abc.conn {} {})).map
        (fun out => (stream out.2.2.sock.log).map Prod.fst) = some [97, 97, 98, 99] := by
  have hrun : (desync {} (onePart .disorder 1) {} (abc.conn {} {})).map
      (fun out => (stream out.2.2.sock.log).map Prod.fst) = some [97, 97, 98, 99] := by decide
  have hdata : (desync {} (onePart .disorder 1) {} (abc.conn {} {})).map
      (fun out => out.2.2.data.take out.2.2.n) = some [97, 98, 99] := by decide
  refine ⟨⟨by simp [AllSent], by simp [NeverUnsent], by simp [SysOk]⟩, ?_, hrun⟩
  rintro ⟨v, wait, k, hd, hs⟩
  rw [hd] at hrun hdata
  simp only [Option.map_some, Option.some.injEq] at hrun hdata
  rw [hs, part_bytes, hdata] at hrun
  exact absurd hrun (by decide)

end DecoyStream
