import NoZapret.DesyncSpec
import NoZapret.Library.Prefix
import NoZapret.LogSwitch
import NoZapret.RecordSplit

/-!
# What random positions divide by

A random position is drawn below the length of the host, or below what is left of the request
behind the last cut. The calls of `gen_offset` that one call of `desync` makes, and the two
divisors at each of them.
-/

namespace Divisors

open Block Packets PacketsSpec Params Desync DesyncSpec LogSwitch RecordSplit

/-- A call of `gen_offset`. With `spent`, which is no argument of it, nothing is left behind
the last cut: a part before was cut at the end of the request, the record before ended where the
request ends that came in, or there is no request. -/
structure Ask where
  flag : OffsetFlag
  buffer : Bytes
  n : Nat
  lp : Int
  info : ProtoInfo
  spent : Bool

/-- The divisor of the `%` that the call comes to. -/
def Ask.divisors (a : Ask) : List Int :=
  if hostFlag a.flag then
    match initProtoInfo a.buffer a.n a.info with
    | none => []
    | some info =>
      if info.hostPos = 0 ∨ (a.flag.sni ∧ info.type ≠ .https) then []
      else if a.flag.toEnd || a.flag.mid || !a.flag.rand then []
      else [info.hostLen]
  else if a.flag.rand then [a.n - a.lp]
  else []

/-- As `unsigned int`, no divisor is zero. -/
def Ask.Divides (a : Ask) : Prop := ∀ d ∈ a.divisors, d % 2 ^ 32 ≠ 0

/-- The parsers store where a host begins and answer that it has no bytes. -/
def NoBytes (buffer : Bytes) (n : Nat) : Prop :=
  ∃ tls http, parseTls buffer n = some tls ∧ parseHttp buffer n false = some http ∧
    tls.len = 0 ∧ http.len = 0 ∧ ∃ i, http.hs.or tls.hs = some i ∧ i ≠ 0

/-- The host that is remembered, or the one that is looked up now, has no bytes. -/
structure Ask.EmptyHost (a : Ask) : Prop where
  type : a.flag.sni = true → a.info.type = .https
  host : if a.info.init then a.info.hostPos ≠ 0 ∧ a.info.hostLen = 0 else NoBytes a.buffer a.n

/-- No random place is asked for in an empty host, nor where nothing is left. -/
structure Ask.Fine (a : Ask) : Prop where
  left : hostFlag a.flag = false → a.flag.rand = true → a.spent = false
  host : hostFlag a.flag = true → a.flag.rand = true → a.flag.toEnd = false →
    a.flag.mid = false → ¬ a.EmptyHost

/-- The calls of the record loop. -/
inductive RecordAsk (rnd : Rands) : List Rep → Nat → Int → Tamped → Bool → Ask → Prop where
  | here {rep : Rep} {rest : List Rep} {rc : Nat} {lp : Int} {t : Tamped} {e : Bool} :
      RecordAsk rnd (rep :: rest) rc lp t e ⟨rep.1.flag, t.data, t.n - rc * 5, lp, t.info, e⟩
  | later {rep : Rep} {rest : List Rep} {rc : Nat} {lp pos ret : Int} {t : Tamped} {e : Bool}
      {a : Ask} {data : Bytes} {info : ProtoInfo} (hpos : cutPos rnd rep rc lp t = some (pos, info))
      (hle : lp ≤ pos) (hcut : cutAt t lp pos = some (ret, data)) (hret : ret ≠ 0)
      (h : RecordAsk rnd rest (rc + 1) (pos + 5) ⟨data, t.n + 5, info⟩
        (decide (pos + 5 = (t.n - rc * 5 : Nat))) a) :
      RecordAsk rnd (rep :: rest) rc lp t e a

/-- The calls of `tamp`. -/
inductive TampAsk (dp : DesyncParams) (rnd : Rands) (t : Tamped) (a : Ask) : Prop where
  | mk {d1 d2 : Bytes} (h1 : tampHttp dp t.data t.n = some d1)
      (h2 : tampMinor dp d1 t.n = some d2) (hhello : isTlsChello d2 t.n = some true)
      (h : RecordAsk rnd (expand dp.tlsrec) 0 0 { t with data := d2 } false a)

/-- The call of `get_tcp_fake`. -/
inductive DecoyAsk (c : Call) (idx : Nat) (rep : Rep) (st : Loop) : Ask → Prop where
  | mk {pos : Int} {info info' : ProtoInfo} {page : Bytes} {fo : Part}
      (hplace : place (c.rnd.part idx) rep c.buffer c.n st.lp st.info = some (pos, info))
      (hskip : skipped c (idx + 1) rep pos = false) (hpos : st.lp ≤ pos)
      (hcurr : idx + 1 ≠ c.partSkip) (hfake : rep.1.m = .fake) (hfirst : firstOfPair rep = true)
      (hsys : st.sock.sys1.1 = true) (hinfo : settleType c.dp c.buffer c.n info = some info')
      (hpage : fakePage c.dp c.rnd idx c.buffer c.n info'.type
        (c.dp.fakeData.getD (if info'.type = .http then ClientHello.httpData
          else ClientHello.tlsData)) = some page)
      (hfo : c.dp.fakeOffset = some fo) :
      DecoyAsk c idx rep st ⟨fo.flag, c.buffer, c.n, 0, info', decide (c.n = 0)⟩

/-- The part is cut at the end of the request. -/
def cutsEnd (c : Call) (idx : Nat) (rep : Rep) (st : Loop) : Bool :=
  match place (c.rnd.part idx) rep c.buffer c.n st.lp st.info with
  | none => false
  | some (pos, _) => !skipped c (idx + 1) rep pos && !firstOfPair rep && decide ((c.n : Int) ≤ pos)

/-- The calls of the loop over the parts. -/
inductive PartAsk (c : Call) : List Rep → Nat → Loop → Bool → Ask → Prop where
  | here {rep : Rep} {rest : List Rep} {idx : Nat} {st : Loop} {e : Bool} :
      PartAsk c (rep :: rest) idx st e ⟨rep.1.flag, c.buffer, c.n, st.lp, st.info, e⟩
  | decoy {rep : Rep} {rest : List Rep} {idx : Nat} {st : Loop} {e : Bool} {a : Ask}
      (h : DecoyAsk c idx rep st a) : PartAsk c (rep :: rest) idx st e a
  | later {rep : Rep} {rest : List Rep} {idx : Nat} {st st' : Loop} {e : Bool} {a : Ask}
      (hstep : partStep c idx rep st = some (.next st'))
      (h : PartAsk c rest (idx + 1) st' (e || cutsEnd c idx rep st) a) :
      PartAsk c (rep :: rest) idx st e a

/-- The calls of `gen_offset` in one call of `desync`. -/
inductive CallAsk (g : Globals) (dp : DesyncParams) (rnd : Rands) (k : Conn) (a : Ask) : Prop where
  | tamp {info : ProtoInfo} (hskip : k.roundSent = 0)
      (hinfo : (if g.logEnabled then initProtoInfo k.data k.n {} else some {}) = some info)
      (h : TampAsk dp rnd ⟨k.data, k.n, info⟩ a)
  | part {t : Tamped} (ht : prepare g dp rnd k.data k.n k.roundSent = some t)
      (h : PartAsk (callOf g dp rnd k t) (expand dp.parts) 0 (loopOf k t)
        (decide (k.offset = t.n)) a)

section Host

variable {b : Bytes} {n : Nat} {i j : Int} {ref : HostRef} {info info' : ProtoInfo}

lemma trimBack_range {p : UInt8 → Bool} {fuel : Nat} (h : trimBack p b fuel i = some j) :
    1 ≤ j ∧ j ≤ b.length := by
  induction fuel generalizing i with
  | zero => cases h
  | succ fuel ih =>
    obtain ⟨c, hc, h⟩ := Option.bind_eq_some_iff.mp h
    split at h
    · exact ih h
    · cases h
      have hrange := rd_range hc
      omega

lemma parseTls_len (h : parseTls b n = some ref) : 0 ≤ ref.len ∧ ref.len < 65536 := by
  simp only [parseTls, Option.bind_eq_bind, Option.bind_eq_some_iff] at h
  obtain ⟨yes, -, h⟩ := h
  split at h
  · cases h
    decide
  obtain ⟨skip, -, h⟩ := Option.bind_eq_some_iff.mp h
  split at h
  · cases h
    decide
  obtain ⟨offs, -, h⟩ := Option.bind_eq_some_iff.mp h
  split at h
  · cases h
    decide
  obtain ⟨len, hlen, h⟩ := Option.bind_eq_some_iff.mp h
  have hlt := antohs_lt hlen
  split at h
  · cases h
    decide
  · cases h
    simp only
    omega

/-- Both ends of a host are inside the buffer. -/
lemma parseHttp_len (h : parseHttp b n false = some ref) :
    -(b.length : Int) - 2 ≤ ref.len ∧ ref.len ≤ b.length := by
  have hmiss : -(b.length : Int) - 2 ≤ HostRef.miss.len ∧ HostRef.miss.len ≤ b.length := by
    simp only [HostRef.miss]
    omega
  unfold parseHttp at h
  obtain ⟨yes, -, h⟩ := Option.bind_eq_some_iff.mp h
  split at h
  · cases h
    exact hmiss
  obtain ⟨field, -, h⟩ := Option.bind_eq_some_iff.mp h
  cases field with
  | none =>
    cases h
    exact hmiss
  | some field =>
    obtain ⟨host, -, h⟩ := Option.bind_eq_some_iff.mp h
    obtain ⟨line, -, h⟩ := Option.bind_eq_some_iff.mp h
    cases line with
    | none =>
      cases h
      exact hmiss
    | some line =>
      obtain ⟨lEnd, hl, h⟩ := Option.bind_eq_some_iff.mp h
      obtain ⟨digits, hd, h⟩ := Option.bind_eq_some_iff.mp h
      obtain ⟨port, hport, h⟩ := Option.bind_eq_some_iff.mp h
      have hlrange := trimBack_range hl
      have hdrange := trimBack_range hd
      cases port with
      | none =>
        cases h
        exact hmiss
      | some x =>
        obtain ⟨hEnd, port⟩ := x
        have hend : 0 ≤ hEnd ∧ hEnd ≤ b.length := by
          obtain ⟨c, -, hport⟩ := Option.bind_eq_some_iff.mp hport
          split at hport
          · cases hport
            omega
          · cases hport
            omega
        obtain ⟨c, hc, h⟩ := Option.bind_eq_some_iff.mp h
        have hrange := rd_range hc
        split at h
        · obtain ⟨c', hc', h⟩ := Option.bind_eq_some_iff.mp h
          split at h
          · cases h
            exact hmiss
          · cases h
            simp only
            omega
        · cases h
          simp only
          omega

/-- The length of the host that is remembered fits an `int`. -/
def Small (info : ProtoInfo) : Prop := -2 ^ 32 < info.hostLen ∧ info.hostLen < 2 ^ 32

lemma small_empty : Small {} := ⟨by decide, by decide⟩

lemma initProtoInfo_small (hb : b.length < 2 ^ 31) (hsmall : Small info)
    (h : initProtoInfo b n info = some info') : Small info' := by
  unfold initProtoInfo at h
  split at h
  · cases h
    exact hsmall
  · obtain ⟨tls, htls, h⟩ := Option.bind_eq_some_iff.mp h
    have hlen := parseTls_len htls
    split at h
    · cases h
      simp only [Small]
      omega
    · obtain ⟨http, hhttp, h⟩ := Option.bind_eq_some_iff.mp h
      have hlen' := parseHttp_len hhttp
      cases h
      simp only [Small]
      omega

lemma genOffset_small {flag : OffsetFlag} {r : Nat} {pos lp : Int} {x : Int × ProtoInfo}
    (hb : b.length < 2 ^ 31) (hsmall : Small info)
    (h : genOffset r pos flag b n lp info = some x) : Small x.2 := by
  cases hflag : hostFlag flag with
  | false =>
    rw [genOffset_plain hflag, Option.map_eq_some_iff] at h
    obtain ⟨y, -, rfl⟩ := h
    exact hsmall
  | true => exact initProtoInfo_small hb hsmall (genOffset_looks hflag h)

lemma settleType_small {dp : DesyncParams} (hsmall : Small info)
    (h : settleType dp b n info = some info') : Small info' := by
  unfold settleType at h
  split at h
  · cases h
    exact hsmall
  obtain ⟨tls, -, h⟩ := Option.bind_eq_some_iff.mp h
  split at h
  · cases h
    exact hsmall
  obtain ⟨http, -, h⟩ := Option.bind_eq_some_iff.mp h
  split at h <;> cases h <;> exact hsmall

lemma fakePacket_small {dp : DesyncParams} {rnd : Rands} {idx : Nat} {x : Packet × ProtoInfo}
    (hb : b.length < 2 ^ 31) (hsmall : Small info)
    (h : fakePacket dp rnd idx b n info = some x) : Small x.2 := by
  simp only [fakePacket, Option.bind_eq_bind, Option.bind_eq_some_iff] at h
  obtain ⟨info1, h1, page, -, page', -, ⟨off, info2⟩, hoff, h⟩ := h
  cases h
  have hsmall1 := settleType_small hsmall h1
  unfold fakeOff at hoff
  split at hoff
  · cases hoff
    exact hsmall1
  · obtain ⟨y, hy, hoff⟩ := Option.bind_eq_some_iff.mp hoff
    cases hoff
    exact genOffset_small hb hsmall1 hy

end Host

/-- What the loops keep true at every call. -/
structure Ask.Sound (a : Ask) : Prop where
  bound : a.buffer.length < 2 ^ 31
  fits : a.n ≤ a.buffer.length
  lp : 0 ≤ a.lp ∧ a.lp ≤ a.buffer.length
  spent : a.spent = true ↔ a.lp = a.n
  small : Small a.info

section Sound

variable {a : Ask}

lemma small_divides {x : Int} (hlo : -2 ^ 32 < x) (hhi : x < 2 ^ 32) : x % 2 ^ 32 = 0 ↔ x = 0 := by
  omega

lemma Ask.Sound.left_iff (h : a.Sound) (hflag : hostFlag a.flag = false) :
    a.Divides ↔ (a.flag.rand = true → a.spent = false) := by
  have hlp := h.lp
  have hfits := h.fits
  have hbound := h.bound
  have hzero : ((a.n : Int) - a.lp) % 2 ^ 32 = 0 ↔ a.spent = true := by
    rw [small_divides (by omega) (by omega), h.spent]
    omega
  simp only [Ask.Divides, Ask.divisors, hflag, Bool.false_eq_true, if_false]
  cases hrand : a.flag.rand with
  | false => simp
  | true =>
    simp only [if_true, List.mem_singleton, forall_eq, ne_eq, hzero, Bool.not_eq_true, forall_const]

lemma Ask.emptyHost_iff : a.EmptyHost ↔
    ∃ info, initProtoInfo a.buffer a.n a.info = some info ∧ info.hostPos ≠ 0 ∧ info.hostLen = 0 ∧
      (a.flag.sni = true → info.type = .https) := by
  cases hinit : a.info.init with
  | true =>
    simp only [initProtoInfo, hinit, if_true, Option.pure_def, Option.some.injEq, exists_eq_left']
    constructor
    · rintro ⟨htype, hhost⟩
      rw [hinit, if_pos rfl] at hhost
      exact ⟨hhost.1, hhost.2, htype⟩
    · rintro ⟨hpos, hlen, htype⟩
      exact ⟨htype, by rw [hinit, if_pos rfl]; exact ⟨hpos, hlen⟩⟩
  | false =>
    simp only [initProtoInfo, hinit, Bool.false_eq_true, if_false, Option.bind_eq_bind,
      Option.bind_eq_some_iff]
    constructor
    · rintro ⟨htype, hhost⟩
      rw [hinit] at hhost
      simp only [Bool.false_eq_true, if_false] at hhost
      obtain ⟨tls, http, htls, hhttp, h0, h0', i, hi, hne⟩ := hhost
      refine ⟨⟨true, a.info.type, 0, i⟩, ⟨tls, htls, ?_⟩, hne, rfl, htype⟩
      rw [if_neg (not_not.mpr h0)]
      refine Option.bind_eq_some_iff.mpr ⟨http, hhttp, ?_⟩
      simp only [hi, h0', ne_eq, not_true_eq_false, if_false, Option.getD_some, Option.pure_def]
    · rintro ⟨info, ⟨tls, htls, h⟩, hpos, hlen, htype⟩
      split at h
      · next hne =>
        cases h
        exact absurd hlen hne
      · next h0 =>
        obtain ⟨http, hhttp, h⟩ := Option.bind_eq_some_iff.mp h
        cases h
        simp only at hpos hlen htype
        rw [if_neg (not_not.mpr hlen)] at htype
        refine ⟨htype, ?_⟩
        rw [hinit]
        simp only [Bool.false_eq_true, if_false]
        refine ⟨tls, http, htls, hhttp, not_not.mp h0, hlen, ?_⟩
        cases hor : http.hs.or tls.hs with
        | none => simp [hor] at hpos
        | some i => exact ⟨i, rfl, by simpa [hor] using hpos⟩

lemma Ask.Sound.host_iff (h : a.Sound) (hflag : hostFlag a.flag = true) :
    a.Divides ↔ (a.flag.rand = true → a.flag.toEnd = false → a.flag.mid = false →
      ¬ a.EmptyHost) := by
  simp only [Ask.Divides, Ask.divisors, hflag, if_true, Ask.emptyHost_iff]
  cases hinit : initProtoInfo a.buffer a.n a.info with
  | none => simp
  | some info =>
    have hsmall := initProtoInfo_small h.bound h.small hinit
    have hzero := small_divides hsmall.1 hsmall.2
    simp only [Option.some.injEq, exists_eq_left']
    by_cases hskip : info.hostPos = 0 ∨ (a.flag.sni ∧ info.type ≠ .https)
    · rw [if_pos hskip]
      constructor
      · rintro - - - - ⟨hpos, -, hsni⟩
        obtain h0 | ⟨hs, htype⟩ := hskip
        · exact hpos h0
        · exact htype (hsni hs)
      · rintro - d hd
        cases hd
    · rw [if_neg hskip]
      obtain ⟨hpos, hsni⟩ := not_or.mp hskip
      have hsni' : a.flag.sni = true → info.type = .https := fun hs => by
        by_contra htype
        exact hsni ⟨hs, htype⟩
      cases hrand : a.flag.rand with
      | false => simp
      | true =>
        cases hend : a.flag.toEnd with
        | true => simp
        | false =>
          cases hmid : a.flag.mid with
          | true => simp
          | false =>
            simp only [Bool.not_true, Bool.or_false, Bool.false_eq_true, if_false,
              List.mem_singleton, forall_eq, ne_eq, hzero, forall_const]
            constructor
            · rintro hne ⟨-, hlen, -⟩
              exact hne hlen
            · intro hempty hlen
              exact hempty ⟨hpos, hlen, hsni'⟩

lemma Ask.Sound.divides_iff (h : a.Sound) : a.Divides ↔ a.Fine := by
  cases hflag : hostFlag a.flag with
  | false =>
    rw [h.left_iff hflag]
    constructor
    · intro hleft
      exact ⟨fun _ => hleft, fun hhost => by rw [hflag] at hhost; cases hhost⟩
    · intro hfine
      exact hfine.left hflag
  | true =>
    rw [h.host_iff hflag]
    constructor
    · intro hhost
      exact ⟨fun hplain => (by rw [hflag] at hplain; cases hplain), fun _ => hhost⟩
    · intro hfine
      exact hfine.host hflag

end Sound

section Records

variable {rnd : Rands} {dp : DesyncParams} {rep : Rep} {rc : Nat} {lp pos ret : Int}
  {t : Tamped} {e : Bool} {data : Bytes} {info : ProtoInfo} {a : Ask}

/-- The record loop in front of an iteration: `len` bytes came in. -/
structure Recording (len rc : Nat) (lp : Int) (t : Tamped) (e : Bool) : Prop where
  bound : t.data.length < 2 ^ 31
  fits : t.n ≤ t.data.length
  grown : t.n = len + 5 * rc
  range : 0 ≤ lp ∧ lp ≤ t.n
  ends : e = true ↔ lp = len
  small : Small t.info

lemma cutPos_small (hb : t.data.length < 2 ^ 31) (hsmall : Small t.info)
    (h : cutPos rnd rep rc lp t = some (pos, info)) : Small info := by
  simp only [cutPos, Option.bind_eq_bind, Option.bind_eq_some_iff] at h
  obtain ⟨x, hx, p1, -, p2, -, p3, -, h⟩ := h
  cases h
  exact genOffset_small hb hsmall hx

lemma Recording.step {len : Nat} (h : Recording len rc lp t e)
    (hpos : cutPos rnd rep rc lp t = some (pos, info)) (hle : lp ≤ pos)
    (hcut : cutAt t lp pos = some (ret, data)) (hret : ret ≠ 0) :
    Recording len (rc + 1) (pos + 5) ⟨data, t.n + 5, info⟩
      (decide (pos + 5 = (t.n - rc * 5 : Nat))) := by
  obtain ⟨hdata, hroom⟩ := partTls_spec hcut
  have hfive := hroom hret
  obtain ⟨-, -, hfit⟩ := partTls_nonzero hcut hret
  obtain ⟨hbound, hfits, hn, hlp, -, hsmall⟩ := h
  refine ⟨?_, ?_, ?_, ?_, ?_, cutPos_small hbound hsmall hpos⟩
  · simpa only [hdata] using hbound
  · simp only [hdata]
    omega
  · simp only
    omega
  · simp only
    omega
  · simp only [decide_eq_true_eq]
    omega

lemma Recording.sound {len : Nat} (h : Recording len rc lp t e) :
    Ask.Sound ⟨rep.1.flag, t.data, t.n - rc * 5, lp, t.info, e⟩ := by
  obtain ⟨hbound, hfits, hn, hlp, hends, hsmall⟩ := h
  have hlen : t.n - rc * 5 = len := by omega
  refine ⟨hbound, ?_, ?_, ?_, hsmall⟩
  · simp only
    omega
  · simp only
    omega
  · simpa only [hlen] using hends

lemma recordAsk_sound {len : Nat} {reps : List Rep} (hask : RecordAsk rnd reps rc lp t e a)
    (h : Recording len rc lp t e) : a.Sound := by
  induction hask with
  | here => exact h.sound
  | later hpos hle hcut hret _ ih => exact ih (h.step hpos hle hcut hret)

lemma recording_start {d1 d2 : Bytes} (h1 : tampHttp dp t.data t.n = some d1)
    (h2 : tampMinor dp d1 t.n = some d2) (hhello : isTlsChello d2 t.n = some true)
    (hbound : t.data.length < 2 ^ 31) (hfits : t.n ≤ t.data.length) (hsmall : Small t.info) :
    Recording t.n 0 0 { t with data := d2 } false := by
  have hlen := (tampMinor_length h2).trans (tampHttp_length h1)
  have hn : 5 < t.n := (isTlsChello_bytes hhello).1
  refine ⟨?_, ?_, rfl, ?_, ?_, hsmall⟩
  · simpa only [hlen] using hbound
  · simpa only [hlen] using hfits
  · simp only
    omega
  · simp only [Bool.false_eq_true, false_iff]
    omega

lemma tampAsk_sound (hask : TampAsk dp rnd t a) (hbound : t.data.length < 2 ^ 31)
    (hfits : t.n ≤ t.data.length) (hsmall : Small t.info) : a.Sound := by
  obtain ⟨h1, h2, hhello, h⟩ := hask
  exact recordAsk_sound h (recording_start h1 h2 hhello hbound hfits hsmall)

/-- The host that is remembered stays in its range through the record loop. -/
lemma tlsrecLoop_small {reps : List Rep} {t' : Tamped} (h : tlsrecLoop rnd reps rc lp t = some t')
    (hrec : Recording len rc lp t e) : Small t'.info := by
  induction reps generalizing rc lp t e with
  | nil =>
    cases h
    exact hrec.small
  | cons rep rest ih =>
    rw [RecordSplit.tlsrecLoop_cons] at h
    obtain ⟨⟨pos, info⟩, hpos, h⟩ := Option.bind_eq_some_iff.mp h
    have hinfo := cutPos_small hrec.bound hrec.small hpos
    split at h
    · cases h
      exact hinfo
    · next hle =>
      obtain ⟨⟨ret, data⟩, hcut, h⟩ := Option.bind_eq_some_iff.mp h
      split at h
      · cases h
        exact hinfo
      · next hret => exact ih h (hrec.step hpos (by simpa using hle) hcut hret)

lemma tamp_small {t' : Tamped} (hbound : t.data.length < 2 ^ 31) (hfits : t.n ≤ t.data.length)
    (hsmall : Small t.info) (h : tamp dp rnd t = some t') : Small t'.info := by
  simp only [tamp, Option.bind_eq_bind, Option.bind_eq_some_iff] at h
  obtain ⟨d1, h1, d2, h2, h⟩ := h
  split at h
  · cases h
    exact hsmall
  obtain ⟨yes, hhello, h⟩ := Option.bind_eq_some_iff.mp h
  cases yes with
  | false =>
    cases h
    exact hsmall
  | true => exact tlsrecLoop_small h (recording_start h1 h2 hhello hbound hfits hsmall)

lemma logged_small {g : Globals} {n : Nat} (hbound : data.length < 2 ^ 31)
    (h : (if g.logEnabled then initProtoInfo data n {} else some {}) = some info) :
    Small info := by
  split at h
  · exact initProtoInfo_small hbound small_empty h
  · cases h
    exact small_empty

end Records

section Parts

variable {c : Call} {idx pos : Nat} {rep : Rep} {st st' : Loop} {e : Bool} {a : Ask}

lemma partStep_unmapped {p : Int} {info : ProtoInfo}
    (hplace : place (c.rnd.part idx) rep c.buffer c.n st.lp st.info = some (p, info))
    (hskip : skipped c (idx + 1) rep p = false) (hp : st.lp ≤ p) (hcurr : idx + 1 ≠ c.partSkip)
    (hsend : sendPart c idx rep { st with info := info } (min p c.n).toNat = some (none, st')) :
    partStep c idx rep st = some (.ret (-1) false st') := by
  have h1 : ¬ p < 0 := by omega
  have h2 : ¬ p < st.lp := by omega
  simp [partStep, hplace, hskip, h1, h2, hcurr, hsend]

lemma sendRequest_frame {s : Int} (h : sendRequest c st pos = some (s, st')) :
    st'.lp = st.lp ∧ st'.info = st.info := by
  obtain ⟨xs, -, h⟩ := Option.bind_eq_some_iff.mp h
  cases h
  exact ⟨rfl, rfl⟩

lemma sendOob_frame {s : Int} (h : sendOob c st pos = some (s, st')) :
    st'.lp = st.lp ∧ st'.info = st.info := by
  unfold sendOob at h
  split at h
  · cases h
    exact ⟨rfl, rfl⟩
  · obtain ⟨xs, -, h⟩ := Option.bind_eq_some_iff.mp h
    cases h
    exact ⟨rfl, rfl⟩

lemma disorder_frame {oob first : Bool} {s : Int}
    (h : disorder c oob first st pos = some (s, st')) : st'.lp = st.lp ∧ st'.info = st.info := by
  simp only [disorder] at h
  generalize (if first = true then st.sock.setttl 1 else (true, st.sock)) = out at h
  split at h
  · cases h
    exact ⟨rfl, rfl⟩
  · split at h
    · have hframe := sendOob_frame h
      exact hframe
    · have hframe := sendRequest_frame h
      exact hframe

lemma sendFake_frame {pkt : Packet} {s : Int} (h : sendFake c st pos pkt = some (s, st')) :
    st'.lp = st.lp ∧ st'.info = st.info := by
  simp only [sendFake, Option.bind_eq_bind] at h
  split at h
  · cases h
    exact ⟨rfl, rfl⟩
  generalize st.sock.setttl (if c.dp.ttl = 0 then 8 else c.dp.ttl) = ttl at h
  split at h
  · cases h
    exact ⟨rfl, rfl⟩
  generalize (if c.dp.md5sig = true then ttl.2.setMd5sig 5 else (true, ttl.2)) = md5 at h
  split at h
  · cases h
    exact ⟨rfl, rfl⟩
  obtain ⟨xs, -, h⟩ := Option.bind_eq_some_iff.mp h
  cases h
  exact ⟨rfl, rfl⟩

lemma fakeFirst_frame {s : Option Int} (hb : c.buffer.length < 2 ^ 31) (hsmall : Small st.info)
    (h : fakeFirst c idx st pos = some (s, st')) : st'.lp = st.lp ∧ Small st'.info := by
  simp only [fakeFirst, Option.bind_eq_bind] at h
  split at h
  · cases h
    exact ⟨rfl, hsmall⟩
  obtain ⟨⟨pkt, info⟩, hpkt, h⟩ := Option.bind_eq_some_iff.mp h
  have hinfo := fakePacket_small hb hsmall hpkt
  split at h
  · cases h
    exact ⟨rfl, hinfo⟩
  · obtain ⟨⟨s', st''⟩, hfake, h⟩ := Option.bind_eq_some_iff.mp h
    cases h
    obtain ⟨hlp, hkept⟩ := sendFake_frame hfake
    exact ⟨hlp, hkept ▸ hinfo⟩

/-- Sending a part does not move `lp`. -/
lemma sendPart_frame {s : Option Int} (hb : c.buffer.length < 2 ^ 31) (hsmall : Small st.info)
    (h : sendPart c idx rep st pos = some (s, st')) : st'.lp = st.lp ∧ Small st'.info := by
  unfold sendPart at h
  split at h
  · split at h
    · exact fakeFirst_frame hb hsmall h
    · obtain ⟨⟨s', st''⟩, hsend, h⟩ := Option.bind_eq_some_iff.mp h
      cases h
      obtain ⟨hlp, hkept⟩ := sendRequest_frame hsend
      exact ⟨hlp, hkept ▸ hsmall⟩
  · obtain ⟨⟨s', st''⟩, hsend, h⟩ := Option.bind_eq_some_iff.mp h
    cases h
    obtain ⟨hlp, hkept⟩ := sendOob_frame hsend
    exact ⟨hlp, hkept ▸ hsmall⟩
  · obtain ⟨⟨s', st''⟩, hsend, h⟩ := Option.bind_eq_some_iff.mp h
    cases h
    obtain ⟨hlp, hkept⟩ := disorder_frame hsend
    exact ⟨hlp, hkept ▸ hsmall⟩
  · obtain ⟨⟨s', st''⟩, hsend, h⟩ := Option.bind_eq_some_iff.mp h
    cases h
    obtain ⟨hlp, hkept⟩ := disorder_frame hsend
    exact ⟨hlp, hkept ▸ hsmall⟩
  all_goals
    obtain ⟨⟨s', st''⟩, hsend, h⟩ := Option.bind_eq_some_iff.mp h
    cases h
    obtain ⟨hlp, hkept⟩ := sendRequest_frame hsend
    exact ⟨hlp, hkept ▸ hsmall⟩

/-- The loop over the parts goes on only behind a send that came back complete. -/
lemma afterSend_next {curr : Nat} {first : Bool} {s : Int} (hlp : st.lp ≤ pos)
    (h : afterSend c curr first pos s st = .next st') : After curr first pos st st' := by
  by_cases hs : s = (pos : Int) - st.lp
  · subst hs
    obtain ⟨st'', hafter, heq⟩ := afterSend_complete c curr first hlp
    rw [heq] at h
    split at h
    · cases h
    · cases h
      exact hafter
  · rw [afterSend_ends c curr first hs] at h
    cases h

/-- The loop over the parts in front of one of them. -/
structure Sending (c : Call) (st : Loop) (e : Bool) : Prop where
  le : st.lp ≤ c.n
  ends : e = true ↔ st.lp = c.n
  small : Small st.info

lemma place_small {r : Nat} {p lp : Int} {info : ProtoInfo} (hb : c.buffer.length < 2 ^ 31)
    (hsmall : Small st.info) (h : place r rep c.buffer c.n lp st.info = some (p, info)) :
    Small info := by
  simp only [place, Option.bind_eq_bind, Option.bind_eq_some_iff] at h
  obtain ⟨x, hx, q, -, h⟩ := h
  cases h
  exact genOffset_small hb hsmall hx

/-- What a repetition that is not skipped leaves behind. -/
lemma Sending.moved {p : Int} {info : ProtoInfo} (h : Sending c st e)
    (hplace : place (c.rnd.part idx) rep c.buffer c.n st.lp st.info = some (p, info))
    (hskip : skipped c (idx + 1) rep p = false) (hp : st.lp ≤ p)
    (hlp : st'.lp = if firstOfPair rep then st.lp else (min p c.n).toNat)
    (hsmall : Small st'.info) : Sending c st' (e || cutsEnd c idx rep st) := by
  have hcuts : cutsEnd c idx rep st = (!firstOfPair rep && decide ((c.n : Int) ≤ p)) := by
    simp only [cutsEnd, hplace, hskip, Bool.not_false, Bool.true_and]
  have hle := h.le
  have hends := h.ends
  cases hfirst : firstOfPair rep with
  | true =>
    rw [hfirst, if_pos rfl] at hlp
    rw [hcuts, hfirst, Bool.not_true, Bool.false_and, Bool.or_false]
    exact ⟨hlp ▸ hle, by rw [hlp]; exact hends, hsmall⟩
  | false =>
    rw [hfirst] at hlp
    simp only [Bool.false_eq_true, if_false] at hlp
    rw [hcuts, hfirst, Bool.not_false, Bool.true_and]
    refine ⟨by omega, ?_, hsmall⟩
    rw [Bool.or_eq_true, decide_eq_true_eq, hends]
    omega

lemma Sending.step (hb : c.buffer.length < 2 ^ 31) (h : Sending c st e)
    (hstep : partStep c idx rep st = some (.next st')) :
    Sending c st' (e || cutsEnd c idx rep st) := by
  cases hplace : place (c.rnd.part idx) rep c.buffer c.n st.lp st.info with
  | none =>
    rw [partStep_undefined hplace] at hstep
    cases hstep
  | some x =>
    obtain ⟨p, info⟩ := x
    have hinfo := place_small hb h.small hplace
    cases hskip : skipped c (idx + 1) rep p with
    | true =>
      rw [partStep_skip hplace hskip] at hstep
      cases hstep
      have hcuts : cutsEnd c idx rep st = false := by
        simp only [cutsEnd, hplace, hskip, Bool.not_true, Bool.false_and]
      rw [hcuts, Bool.or_false]
      exact ⟨h.le, h.ends, hinfo⟩
    | false =>
      by_cases hcancel : p < st.lp
      · rw [partStep_cancel hplace hskip hcancel] at hstep
        cases hstep
      have hp : st.lp ≤ p := by omega
      have hle := h.le
      have hlp : st.lp ≤ (min p c.n).toNat := by omega
      by_cases hcurr : idx + 1 = c.partSkip
      · rw [partStep_resumed hplace hskip hp hcurr, Option.some.injEq] at hstep
        have hlp' : { st with info := info }.lp ≤ (min p c.n).toNat := hlp
        have hafter := afterSend_next hlp' hstep
        exact h.moved hplace hskip hp hafter.lp (hafter.info ▸ hinfo)
      · cases hsend : sendPart c idx rep { st with info := info } (min p c.n).toNat with
        | none =>
          rw [partStep_sends_none hplace hskip hp hcurr hsend] at hstep
          cases hstep
        | some y =>
          obtain ⟨s, st''⟩ := y
          obtain ⟨hkept, hsmall⟩ := sendPart_frame hb hinfo hsend
          simp only at hkept
          cases s with
          | none =>
            rw [partStep_unmapped hplace hskip hp hcurr hsend] at hstep
            cases hstep
          | some s =>
            rw [partStep_sends hplace hskip hp hcurr hsend, Option.some.injEq] at hstep
            have hafter := afterSend_next (by omega) hstep
            exact h.moved hplace hskip hp (by rw [hafter.lp, hkept]) (hafter.info ▸ hsmall)

lemma decoyAsk_sound (hb : c.buffer.length < 2 ^ 31) (hfits : c.n ≤ c.buffer.length)
    (h : Sending c st e) (hask : DecoyAsk c idx rep st a) : a.Sound := by
  obtain ⟨hplace, -, -, -, -, -, -, hinfo, -, -⟩ := hask
  refine ⟨hb, hfits, ?_, ?_, settleType_small (place_small hb h.small hplace) hinfo⟩
  · simp only
    omega
  · simp only [decide_eq_true_eq]
    omega

lemma partAsk_sound {reps : List Rep} (hb : c.buffer.length < 2 ^ 31)
    (hfits : c.n ≤ c.buffer.length) (hask : PartAsk c reps idx st e a) (h : Sending c st e) :
    a.Sound := by
  induction hask with
  | here =>
    have hle := h.le
    have hends := h.ends
    refine ⟨hb, hfits, ?_, ?_, h.small⟩
    · simp only
      omega
    · simp only [hends]
      omega
  | decoy hdecoy => exact decoyAsk_sound hb hfits h hdecoy
  | later hstep _ ih => exact ih (h.step hb hstep)

end Parts

section Calls

variable {g : Globals} {dp : DesyncParams} {rnd : Rands} {k : Conn} {a : Ask}

lemma prepare_small {t : Tamped} (hb : k.data.length < 2 ^ 31) (hfits : k.n ≤ k.data.length)
    (h : prepare g dp rnd k.data k.n k.roundSent = some t) : Small t.info := by
  simp only [prepare, Option.bind_eq_bind] at h
  split at h
  · cases h
    exact small_empty
  · obtain ⟨info, hinfo, h⟩ := Option.bind_eq_some_iff.mp h
    have hsmall := logged_small hb hinfo
    exact tamp_small hb hfits hsmall h

lemma callAsk_sound (hfits : k.n ≤ k.data.length) (hoff : k.offset ≤ k.n)
    (hb : k.data.length < 2 ^ 31) (hask : CallAsk g dp rnd k a) : a.Sound := by
  cases hask with
  | tamp hskip hinfo h =>
    exact tampAsk_sound h hb hfits (logged_small hb hinfo)
  | @part t ht h =>
    obtain ⟨hlen, hn⟩ := prepare_fits ht hfits
    have hle := prepare_le ht
    have hb' : (callOf g dp rnd k t).buffer.length < 2 ^ 31 := by
      simpa only [callOf, hlen] using hb
    refine partAsk_sound hb' hn h ⟨?_, ?_, prepare_small hb hfits ht⟩
    · simp only [loopOf, callOf]
      omega
    · simp only [decide_eq_true_eq, loopOf, callOf]

/-- No position is drawn from nothing exactly where each of the calls is `Fine`. -/
theorem divisors_nonzero_iff (g : Globals) (dp : DesyncParams) (rnd : Rands) (k : Conn)
    (hfits : k.n ≤ k.data.length) (hoff : k.offset ≤ k.n) (hb : k.data.length < 2 ^ 31) :
    (∀ a, CallAsk g dp rnd k a → a.Divides) ↔ ∀ a, CallAsk g dp rnd k a → a.Fine := by
  constructor
  · intro h a hask
    exact (callAsk_sound hfits hoff hb hask).divides_iff.mp (h a hask)
  · intro h a hask
    exact (callAsk_sound hfits hoff hb hask).divides_iff.mpr (h a hask)

def abc : Conn := { data := [97, 98, 99], n := 3 }

/-- One cut at the end and one at random. -/
def endThenRandom : DesyncParams :=
  { parts := [⟨.split, { toEnd := true }, 0, 0, 0⟩, ⟨.split, { rand := true }, 0, 0, 0⟩] }

theorem divisors_nonzero_iff_abc :
    (∀ a, CallAsk {} endThenRandom {} abc a → a.Divides) ↔
      ∀ a, CallAsk {} endThenRandom {} abc a → a.Fine :=
  divisors_nonzero_iff {} endThenRandom {} abc (by decide) (by decide) (by decide)

/-- The second of the positions is drawn below zero bytes. -/
theorem divides_by_zero :
    ¬ ∀ (g : Globals) (dp : DesyncParams) (rnd : Rands) (k : Conn), k.n ≤ k.data.length →
      k.offset ≤ k.n → k.data.length < 2 ^ 31 → ∀ a, CallAsk g dp rnd k a → a.Divides := by
  intro h
  let c := callOf {} endThenRandom {} abc ⟨[97, 98, 99], 3, {}⟩
  let start := loopOf abc ⟨[97, 98, 99], 3, {}⟩
  let first : Rep := (⟨.split, { toEnd := true }, 0, 0, 0⟩, 0)
  let second : Rep := (⟨.split, { rand := true }, 0, 0, 0⟩, 0)
  have hplace : place 0 first c.buffer c.n 0 {} = some (3, {}) := by decide
  have hstep : partStep c 0 first start =
      some (.next ⟨3, {}, 1, {}, ⟨[], [], [], false, [.sent (.request 0) [97, 98, 99] false 3]⟩⟩) :=
    @partStep_sends c 0 first start 3 {} 3 _ hplace (by decide) (by decide) (by decide) rfl
  have hends : (false || cutsEnd c 0 first start) = true := by decide
  have hpart : PartAsk c [first, second] 0 start false
      ⟨{ rand := true }, [97, 98, 99], 3, 3, {}, true⟩ := by
    refine PartAsk.later hstep ?_
    rw [hends]
    exact PartAsk.here
  have hask : CallAsk {} endThenRandom {} abc ⟨{ rand := true }, [97, 98, 99], 3, 3, {}, true⟩ :=
    CallAsk.part (t := ⟨[97, 98, 99], 3, {}⟩) (by decide) hpart
  have hzero := h {} endThenRandom {} abc (by decide) (by decide) (by decide) _ hask
  exact hzero 0 (by decide) rfl

end Calls

end Divisors
