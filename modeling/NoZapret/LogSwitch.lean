import NoZapret.Library.Twins
import NoZapret.Desync

/-!
# Logging and the cached host

With logging on, `desync` looks the host up before `tamp` changes the request, and the
positions and decoys behind it use what it found. With logging off, the host is looked
up where it is first needed.
-/

namespace LogSwitch

open Twins Packets Params Desync

def hostFlag (flag : OffsetFlag) : Bool := flag.sni || flag.host

def decoys (dp : DesyncParams) : Bool := dp.parts.any fun p => p.m == .fake

/-- Does a position behind `tamp` depend on the host? -/
def hostRelative (dp : DesyncParams) : Bool :=
  (dp.parts.any fun p => hostFlag p.flag) || (decoys dp && dp.fakeOffset.any fun p => hostFlag p.flag)

/-- What a decoy takes from the protocol: `fake_http`, and the copy of the request. -/
def decoyKind (dp : DesyncParams) (info : ProtoInfo) : Bool × Bool :=
  (dp.fakeData.isNone && info.type == .http, dp.fakeOrig && info.type == .https)

/-- The cache that logging has filled, and the one that is still empty behind `tamp`. -/
structure Lazy (dp : DesyncParams) (buffer : Bytes) (n : Nat) (info info' : ProtoInfo) : Prop where
  filled : info.init = true
  empty : info'.init = false
  host : hostRelative dp = true → initProtoInfo buffer n info' = some info
  kind : decoys dp = true →
    Both (fun i i' => decoyKind dp i = decoyKind dp i') (settleType dp buffer n info)
      (settleType dp buffer n info')

/-- The host of the request as received is the one found where it is first needed. -/
def Neutral (dp : DesyncParams) (rnd : Rands) (data : Bytes) (n : Nat) : Prop :=
  ∃ info t, initProtoInfo data n {} = some info ∧ tamp dp rnd ⟨data, n, {}⟩ = some t ∧
    (t.info = info ∨ (t.info = {} ∧ Lazy dp t.data t.n info {}))

section Cache

variable {dp : DesyncParams} {buffer : Bytes} {n : Nat} {info info' : ProtoInfo}

lemma initProtoInfo_filled (h : info.init = true) : initProtoInfo buffer n info = some info := by
  simp only [initProtoInfo, h, if_true]
  rfl

lemma initProtoInfo_init (h : initProtoInfo buffer n info = some info') : info'.init = true := by
  unfold initProtoInfo at h
  split at h
  · next hinit =>
    cases h
    exact hinit
  · simp only [Option.bind_eq_bind, Option.bind_eq_some_iff] at h
    obtain ⟨tls, -, h⟩ := h
    split at h
    · cases h
      rfl
    · simp only [Option.bind_eq_some_iff] at h
      obtain ⟨http, -, h⟩ := h
      cases h
      rfl

/-- A position that does not depend on the host leaves the cache alone. -/
lemma genOffset_plain {flag : OffsetFlag} (hflag : hostFlag flag = false) (r : Nat) (pos : Int)
    (buffer : Bytes) (n : Nat) (lp : Int) (info : ProtoInfo) :
    genOffset r pos flag buffer n lp info =
      (genOffset r pos flag buffer n lp {}).map fun x => (x.1, info) := by
  unfold hostFlag at hflag
  simp only [genOffset, hflag, Bool.false_eq_true, if_false]
  split
  · cases hr : randMod r (n - lp) with
    | none => rfl
    | some v =>
      simp only [Option.bind_eq_bind, Option.bind_some]
      cases hl : addL lp v with
      | none => rfl
      | some w =>
        simp only [Option.bind_some]
        cases addL pos w <;> rfl
  · split
    · cases addL pos (n / 2 : Nat) <;> rfl
    · split
      · cases addL pos n <;> rfl
      · rfl

/-- A host-relative position is computed with the cache filled. -/
lemma genOffset_host {flag : OffsetFlag} (hflag : hostFlag flag = true) (r : Nat) (pos : Int)
    (lp : Int) (h : initProtoInfo buffer n info' = some info) :
    genOffset r pos flag buffer n lp info' = genOffset r pos flag buffer n lp info := by
  unfold hostFlag at hflag
  have hfilled : initProtoInfo buffer n info = some info :=
    initProtoInfo_filled (initProtoInfo_init h)
  simp only [genOffset, hflag, if_true, h, hfilled, Option.bind_eq_bind, Option.bind_some]

lemma genOffset_keeps {flag : OffsetFlag} {r : Nat} {pos lp : Int} {x : Int × ProtoInfo}
    (hinit : info.init = true) (h : genOffset r pos flag buffer n lp info = some x) :
    x.2 = info := by
  cases hflag : hostFlag flag with
  | false =>
    rw [genOffset_plain hflag, Option.map_eq_some_iff] at h
    obtain ⟨y, -, rfl⟩ := h
    rfl
  | true =>
    unfold hostFlag at hflag
    simp only [genOffset, hflag, if_true, initProtoInfo_filled hinit, Option.bind_eq_bind,
      Option.bind_some] at h
    split at h
    · cases h
      rfl
    simp only [Option.bind_eq_some_iff] at h
    obtain ⟨p, -, h⟩ := h
    split at h
    · obtain ⟨q, -, h⟩ := Option.bind_eq_some_iff.mp h
      cases h
      rfl
    split at h
    · obtain ⟨q, -, h⟩ := Option.bind_eq_some_iff.mp h
      cases h
      rfl
    split at h
    · obtain ⟨v, -, h⟩ := Option.bind_eq_some_iff.mp h
      obtain ⟨q, -, h⟩ := Option.bind_eq_some_iff.mp h
      cases h
      rfl
    · cases h
      rfl

lemma genOffset_looks {flag : OffsetFlag} {r : Nat} {pos lp : Int} {x : Int × ProtoInfo}
    (hflag : hostFlag flag = true) (h : genOffset r pos flag buffer n lp info = some x) :
    initProtoInfo buffer n info = some x.2 := by
  cases hinfo : initProtoInfo buffer n info with
  | none =>
    unfold hostFlag at hflag
    simp only [genOffset, hflag, if_true, hinfo, Option.bind_eq_bind, Option.bind_none,
      reduceCtorEq] at h
  | some j =>
    rw [genOffset_host hflag r pos lp hinfo] at h
    rw [genOffset_keeps (initProtoInfo_init hinfo) h]

end Cache

section Tamp

variable {dp : DesyncParams} {rnd : Rands} {info : ProtoInfo}

/-- The record splitting loop behind `gen_offset`. -/
def tlsrecRest (rnd : Rands) (rep : Rep) (rest : List Rep) (rc : Nat) (lp : Int) (t : Tamped)
    (off : Int) : Option Tamped := do
  let pos ← addL (rc * 5 : Nat) off
  let pos ← addL pos (if rep.1.pos < 0 ∨ rep.1.flag.any then -5 else 0)
  let pos ← addL pos (rep.1.s * rep.2 : Nat)
  if pos < lp then return t
  let (ret, data) ← partTls t.data lp (t.data.length - lp) (t.n - lp) (pos - lp)
  if ret = 0 then return { t with data := data }
  tlsrecLoop rnd rest (rc + 1) (pos + 5) { t with data := data, n := t.n + 5 }

lemma tlsrecLoop_cons (rep : Rep) (rest : List Rep) (rc : Nat) (lp : Int) (t : Tamped) :
    tlsrecLoop rnd (rep :: rest) rc lp t =
      (genOffset (rnd.tlsrec rc) rep.1.pos rep.1.flag t.data (t.n - rc * 5) lp t.info).bind
        fun x => tlsrecRest rnd rep rest rc lp { t with info := x.2 } x.1 := rfl

/-- How the loop goes on: it stops, or goes round again with the same cache. -/
lemma tlsrecRest_cases {rep : Rep} {rest : List Rep} {rc : Nat} {lp off : Int} {t t' : Tamped}
    (h : tlsrecRest rnd rep rest rc lp t off = some t') :
    (∃ data, t' = { t with data := data } ∧ ∀ i, tlsrecRest rnd rep rest rc lp
        { t with info := i } off = some { t with data := data, info := i }) ∨
      ∃ pos data, tlsrecLoop rnd rest (rc + 1) (pos + 5)
          { t with data := data, n := t.n + 5 } = some t' ∧
        ∀ i, tlsrecRest rnd rep rest rc lp { t with info := i } off =
          tlsrecLoop rnd rest (rc + 1) (pos + 5) ⟨data, t.n + 5, i⟩ := by
  simp only [tlsrecRest, Option.bind_eq_bind, Option.bind_eq_some_iff] at h
  obtain ⟨p, hp, q, hq, pos, hpos, h⟩ := h
  simp only [tlsrecRest, Option.bind_eq_bind, hp, hq, hpos, Option.bind_some]
  split at h
  · next hlt =>
    cases h
    exact .inl ⟨t.data, rfl, fun i => if_pos hlt⟩
  next hlt =>
  obtain ⟨⟨ret, data⟩, hpart, h⟩ := Option.bind_eq_some_iff.mp h
  simp only [if_neg hlt, hpart, Option.bind_some]
  simp only at h
  split at h
  · next hret =>
    cases h
    exact .inl ⟨data, rfl, fun i => if_pos hret⟩
  · next hret => exact .inr ⟨pos, data, h, fun i => if_neg hret⟩

lemma tlsrecLoop_keeps {reps : List Rep} :
    ∀ {rc : Nat} {lp : Int} {t t' : Tamped}, t.info.init = true →
      tlsrecLoop rnd reps rc lp t = some t' → t'.info = t.info := by
  induction reps with
  | nil =>
    intro rc lp t t' _ h
    cases h
    rfl
  | cons rep rest ih =>
    intro rc lp t t' hinit h
    rw [tlsrecLoop_cons, Option.bind_eq_some_iff] at h
    obtain ⟨x, hx, h⟩ := h
    rw [genOffset_keeps hinit hx] at h
    obtain ⟨data, rfl, -⟩ | ⟨pos, data, hloop, -⟩ := tlsrecRest_cases h
    · rfl
    · exact ih (t := ⟨data, t.n + 5, t.info⟩) hinit hloop

/-- The record splitting loop with the cache filled before. -/
lemma tlsrecLoop_filled {reps : List Rep} :
    ∀ {rc : Nat} {lp : Int} {t t' : Tamped}, t.info = {} →
      tlsrecLoop rnd reps rc lp t = some t' → (t'.info = {} ∨ t'.info = info) →
        info.init = true →
        tlsrecLoop rnd reps rc lp { t with info := info } = some { t' with info := info } := by
  induction reps with
  | nil =>
    intro rc lp t t' _ h _ _
    cases h
    rfl
  | cons rep rest ih =>
    intro rc lp t t' hempty h hsame hfilled
    rw [tlsrecLoop_cons, Option.bind_eq_some_iff] at h
    obtain ⟨x, hx, h⟩ := h
    rw [hempty] at hx
    rw [tlsrecLoop_cons]
    cases hflag : hostFlag rep.1.flag with
    | false =>
      rw [genOffset_plain hflag, Option.map_eq_some_iff] at hx
      obtain ⟨y, hy, rfl⟩ := hx
      rw [genOffset_plain hflag, hy, Option.map_some, Option.bind_some]
      obtain ⟨data, rfl, hrest⟩ | ⟨pos, data, hloop, hrest⟩ := tlsrecRest_cases h
      · exact hrest info
      · exact (hrest info).trans
          (ih (t := ⟨data, t.n + 5, {}⟩) rfl hloop hsame hfilled)
    | true =>
      have hlook := genOffset_looks hflag hx
      have hinit : x.2.init = true := initProtoInfo_init hlook
      have hkeep : t'.info = x.2 := by
        obtain ⟨data, rfl, -⟩ | ⟨pos, data, hloop, -⟩ := tlsrecRest_cases h
        · rfl
        · exact tlsrecLoop_keeps hinit hloop
      have hinfo : x.2 = info := by
        rcases hsame with hnone | hsame
        · rw [← hkeep, hnone] at hinit
          cases hinit
        · exact hkeep.symm.trans hsame
      rw [hinfo] at h hkeep hlook
      rw [genOffset_host hflag _ _ _ hlook] at hx
      rw [hx, Option.bind_some, hinfo, h, ← hkeep]

lemma tamp_filled {data : Bytes} {n : Nat} {t : Tamped}
    (h : tamp dp rnd ⟨data, n, {}⟩ = some t) (hsame : t.info = {} ∨ t.info = info)
    (hinit : info.init = true) : tamp dp rnd ⟨data, n, info⟩ = some { t with info := info } := by
  simp only [tamp, Option.bind_eq_bind, Option.bind_eq_some_iff] at h
  obtain ⟨b, hb, b', hb', h⟩ := h
  simp only [tamp, Option.bind_eq_bind, hb, hb', Option.bind_some]
  split at h
  · next hnone =>
    cases h
    rw [if_pos hnone]
    rfl
  next hnone =>
  rw [if_neg hnone]
  obtain ⟨hello, hhello, h⟩ := Option.bind_eq_some_iff.mp h
  rw [hhello, Option.bind_some]
  split at h
  · next hyes =>
    rw [if_pos hyes]
    exact tlsrecLoop_filled (t := ⟨b', n, {}⟩) rfl h hsame hinit
  · next hno =>
    cases h
    rw [if_neg hno]
    rfl

end Tamp

section Decoy

variable {dp : DesyncParams} {buffer : Bytes} {n : Nat} {info info' : ProtoInfo}

/-- The caches of the two runs behind `tamp`. -/
def Caches (dp : DesyncParams) (buffer : Bytes) (n : Nat) (info info' : ProtoInfo) : Prop :=
  info' = info ∨ Lazy dp buffer n info info'

/-- Two results that differ in the cache only. -/
def Alike {α : Type} (dp : DesyncParams) (buffer : Bytes) (n : Nat) (x y : α × ProtoInfo) : Prop :=
  x.1 = y.1 ∧ Caches dp buffer n x.2 y.2

lemma alike_self {α : Type} (x : Option (α × ProtoInfo)) : Both (Alike dp buffer n) x x :=
  both_self x fun _ _ => ⟨rfl, .inl rfl⟩

lemma genOffset_alike {flag : OffsetFlag} (hc : Caches dp buffer n info info')
    (hflag : hostFlag flag = true → hostRelative dp = true) (r : Nat) (pos lp : Int) :
    Both (Alike dp buffer n) (genOffset r pos flag buffer n lp info)
      (genOffset r pos flag buffer n lp info') := by
  rcases hc with rfl | hl
  · exact alike_self _
  cases hf : hostFlag flag with
  | true =>
    rw [genOffset_host hf r pos lp (hl.host (hflag hf))]
    exact alike_self _
  | false =>
    rw [genOffset_plain hf r pos buffer n lp info, genOffset_plain hf r pos buffer n lp info']
    refine (both_self (r := Eq) _ fun _ _ => rfl).map ?_
    rintro x y rfl
    exact ⟨rfl, .inr hl⟩

lemma place_alike (hc : Caches dp buffer n info info') {rep : Rep} (hrep : rep.1 ∈ dp.parts)
    (r : Nat) (lp : Int) :
    Both (Alike dp buffer n) (place r rep buffer n lp info) (place r rep buffer n lp info') := by
  have hflag : hostFlag rep.1.flag = true → hostRelative dp = true := by
    intro hf
    simp only [hostRelative, Bool.or_eq_true, List.any_eq_true]
    exact .inl ⟨rep.1, hrep, hf⟩
  unfold place
  refine (genOffset_alike hc hflag r rep.1.pos lp).bind ?_
  rintro ⟨pos, i⟩ ⟨pos', i'⟩ - ⟨hpos, hcache⟩
  obtain rfl : pos = pos' := hpos
  refine (both_self (r := Eq) _ fun _ _ => rfl).bind ?_
  rintro a b - rfl
  exact .ok ⟨rfl, hcache⟩

/-- The class of a request: the two tests of `get_tcp_fake`. -/
def classify (buffer : Bytes) (n : Nat) : Option ProtoType := do
  if ← isTlsChello buffer n then return .https
  if ← isHttp buffer n then return .http
  return .unknown

lemma settleType_eq (dp : DesyncParams) (buffer : Bytes) (n : Nat) (info : ProtoInfo) :
    settleType dp buffer n info =
      if dp.fakeData.isSome || info.type != .unknown then some info
      else (classify buffer n).map fun ty => { info with type := ty } := by
  unfold settleType classify
  split
  · rfl
  next hun =>
  have htype : info.type = .unknown := by
    simp only [Bool.or_eq_true, bne_iff_ne, not_or, ne_eq, not_not] at hun
    exact hun.2
  cases isTlsChello buffer n with
  | none => rfl
  | some tls =>
    simp only [Option.bind_eq_bind, Option.bind_some]
    cases tls with
    | true => rfl
    | false =>
      cases isHttp buffer n with
      | none => rfl
      | some http =>
        cases http with
        | true => rfl
        | false =>
          simp only [Option.bind_some, Bool.false_eq_true, if_false]
          change some info = some { info with type := .unknown }
          rw [← htype]

lemma settleType_fields {x : ProtoInfo} (h : settleType dp buffer n info = some x) :
    x = { info with type := x.type } ∧ settleType dp buffer n x = some x ∧
      (info.type ≠ .unknown → x = info) := by
  rw [settleType_eq] at h
  split at h
  · next hdone =>
    cases h
    exact ⟨rfl, by rw [settleType_eq, if_pos hdone], fun _ => rfl⟩
  next hun =>
  simp only [Bool.or_eq_true, bne_iff_ne, not_or, ne_eq, not_not] at hun
  obtain ⟨ty, hty, rfl⟩ := Option.map_eq_some_iff.mp h
  refine ⟨rfl, ?_, fun hne => absurd hun.2 hne⟩
  rw [settleType_eq]
  split
  · rfl
  · rw [hty]
    rfl

lemma settleType_type {x x' : ProtoInfo} (hsame : info.type = info'.type)
    (h : settleType dp buffer n info = some x) (h' : settleType dp buffer n info' = some x') :
    x.type = x'.type := by
  rw [settleType_eq, hsame] at h
  rw [settleType_eq] at h'
  split at h
  · next hdone =>
    rw [if_pos hdone] at h'
    cases h
    cases h'
    exact hsame
  · next hdone =>
    rw [if_neg hdone] at h'
    obtain ⟨ty, hty, rfl⟩ := Option.map_eq_some_iff.mp h
    obtain ⟨ty', hty', rfl⟩ := Option.map_eq_some_iff.mp h'
    exact Option.some.inj (hty.symm.trans hty')

/-- What `init_proto_info` does with the type it is given. -/
lemma initProtoInfo_retype (hempty : info'.init = false)
    (h : initProtoInfo buffer n info' = some info) :
    (info.type ≠ .unknown ∧ ∀ ty, initProtoInfo buffer n { info' with type := ty } = some info) ∨
      (info.type = info'.type ∧
        ∀ ty, initProtoInfo buffer n { info' with type := ty } = some { info with type := ty }) := by
  simp only [initProtoInfo, hempty, Bool.false_eq_true, if_false, Option.bind_eq_bind,
    Option.bind_eq_some_iff] at h
  obtain ⟨tls, htls, h⟩ := h
  simp only [initProtoInfo, hempty, Bool.false_eq_true, if_false, htls, Option.bind_eq_bind,
    Option.bind_some]
  by_cases hlen : tls.len ≠ 0
  · rw [if_pos hlen] at h
    cases h
    exact .inl ⟨nofun, fun ty => if_pos hlen⟩
  rw [if_neg hlen] at h
  obtain ⟨http, hhttp, h⟩ := Option.bind_eq_some_iff.mp h
  simp only [if_neg hlen, hhttp, Option.bind_some]
  cases h
  by_cases hhttp0 : http.len ≠ 0
  · refine .inl ⟨?_, fun ty => ?_⟩
    · simp [if_pos hhttp0]
    · simp only [if_pos hhttp0]
      rfl
  · refine .inr ⟨?_, fun ty => ?_⟩
    · simp only [if_neg hhttp0]
    · simp only [if_neg hhttp0]
      rfl

/-- `get_tcp_fake` settles the type of both caches in the same way. -/
lemma settleType_alike (hc : Caches dp buffer n info info') (hd : decoys dp = true) :
    Both (fun i i' => decoyKind dp i = decoyKind dp i' ∧ Caches dp buffer n i i')
      (settleType dp buffer n info) (settleType dp buffer n info') := by
  rcases hc with rfl | hl
  · exact both_self _ fun _ _ => ⟨rfl, .inl rfl⟩
  have hkind := hl.kind hd
  cases hx : settleType dp buffer n info with
  | none =>
    cases hx' : settleType dp buffer n info' with
    | none => exact .fail
    | some x' =>
      rw [hx, hx'] at hkind
      cases hkind
  | some x =>
    cases hx' : settleType dp buffer n info' with
    | none =>
      rw [hx, hx'] at hkind
      cases hkind
    | some x' =>
      rw [hx, hx'] at hkind
      obtain ⟨hfields, hagain, hkept⟩ := settleType_fields hx
      obtain ⟨hfields', hagain', hkept'⟩ := settleType_fields hx'
      cases hkind with
      | ok hkind =>
        refine .ok ⟨hkind, .inr ⟨?_, ?_, ?_, ?_⟩⟩
        · rw [hfields]
          exact hl.filled
        · rw [hfields']
          exact hl.empty
        · intro hrel
          obtain ⟨hne, hty⟩ | ⟨hsame, hty⟩ := initProtoInfo_retype hl.empty (hl.host hrel)
          · rw [hfields', hkept hne]
            exact hty x'.type
          · have htype : x.type = x'.type := settleType_type hsame hx hx'
            rw [hfields', hfields, htype]
            exact hty x'.type
        · intro _
          rw [hagain, hagain']
          exact .ok hkind

lemma fakePage_kind {ty ty' : ProtoType}
    (h : (dp.fakeOrig && ty == .https) = (dp.fakeOrig && ty' == .https)) (rnd : Rands) (idx : Nat)
    (pkt : Bytes) : fakePage dp rnd idx buffer n ty pkt = fakePage dp rnd idx buffer n ty' pkt := by
  unfold fakePage
  rw [h]

lemma fakeData_kind {ty ty' : ProtoType}
    (h : (dp.fakeData.isNone && ty == .http) = (dp.fakeData.isNone && ty' == .http)) (a b : Bytes) :
    dp.fakeData.getD (if ty = .http then a else b) =
      dp.fakeData.getD (if ty' = .http then a else b) := by
  cases hd : dp.fakeData with
  | some d => rfl
  | none =>
    simp only [hd, Option.isNone_none, Bool.true_and] at h
    have hiff : ty = .http ↔ ty' = .http := by
      rw [← beq_iff_eq, ← beq_iff_eq (a := ty'), h]
    simp only [Option.getD_none, hiff]

lemma fakePacket_alike (hc : Caches dp buffer n info info') (hd : decoys dp = true) (rnd : Rands)
    (idx : Nat) :
    Both (Alike dp buffer n) (fakePacket dp rnd idx buffer n info)
      (fakePacket dp rnd idx buffer n info') := by
  unfold fakePacket
  refine (settleType_alike hc hd).bind ?_
  rintro i i' - ⟨hkind, hcache⟩
  obtain ⟨hdata, horig⟩ := Prod.mk.inj hkind
  rw [fakeData_kind hdata]
  simp only [fakePage_kind horig]
  refine (both_self (r := Eq) _ fun _ _ => rfl).bind ?_
  rintro page _ - rfl
  refine (both_self (r := Eq) _ fun _ _ => rfl).bind ?_
  rintro page' _ - rfl
  have hoff : Both (Alike dp buffer n) (fakeOff dp rnd idx buffer n page'.length i)
      (fakeOff dp rnd idx buffer n page'.length i') := by
    unfold fakeOff
    cases ho : dp.fakeOffset with
    | none => exact .ok ⟨rfl, hcache⟩
    | some fo =>
      have hflag : hostFlag fo.flag = true → hostRelative dp = true := by
        intro hf
        simp only [hostRelative, hd, ho, Option.any_some, hf, Bool.and_self, Bool.or_true]
      refine (genOffset_alike hcache hflag _ fo.pos 0).bind ?_
      rintro ⟨off, j⟩ ⟨off', j'⟩ - ⟨hoff, hcache'⟩
      obtain rfl : off = off' := hoff
      exact .ok ⟨rfl, hcache'⟩
  refine hoff.bind ?_
  rintro ⟨off, j⟩ ⟨off', j'⟩ - ⟨hoff, hcache'⟩
  obtain rfl : off = off' := hoff
  exact .ok ⟨rfl, hcache'⟩

end Decoy

section Loop

variable {c : Call} {st st' : Loop} {i j : ProtoInfo} {pos : Nat}

abbrev setInfo (i : ProtoInfo) (st : Loop) : Loop := { st with info := i }

/-- Two results that differ in a cache that neither step looks at. -/
def Beside {α : Type} (j i : ProtoInfo) (x y : α × Loop) : Prop :=
  x.1 = y.1 ∧ x.2.info = j ∧ y.2 = setInfo i x.2

lemma beside_some {α : Type} (v : α) (st : Loop) (i : ProtoInfo) :
    Both (Beside st.info i) (some (v, st)) (some (v, setInfo i st)) :=
  .ok ⟨rfl, rfl, rfl⟩

lemma sendRequest_beside (st : Loop) :
    Both (Beside st.info i) (sendRequest c st pos) (sendRequest c (setInfo i st) pos) := by
  unfold sendRequest
  refine (both_self (r := Eq) _ fun _ _ => rfl).bind ?_
  rintro payload _ - rfl
  exact .ok ⟨rfl, rfl, rfl⟩

lemma sendOob_beside (st : Loop) :
    Both (Beside st.info i) (sendOob c st pos) (sendOob c (setInfo i st) pos) := by
  unfold sendOob
  by_cases hfull : c.buffer.length ≤ pos
  · simp only [if_pos hfull]
    exact beside_some _ st i
  simp only [if_neg hfull]
  refine (both_self (r := Eq) _ fun _ _ => rfl).bind ?_
  rintro payload _ - rfl
  exact .ok ⟨rfl, rfl, rfl⟩

lemma sendFake_beside (st : Loop) {pkt : Packet} :
    Both (Beside st.info i) (sendFake c st pos pkt) (sendFake c (setInfo i st) pos pkt) := by
  unfold sendFake
  by_cases hps : (pkt.data.length : Int) - pkt.off < 0
  · simp only [if_pos hps]
    exact beside_some _ st i
  simp only [if_neg hps, setInfo]
  generalize (if c.dp.ttl = 0 then 8 else c.dp.ttl) = ttl
  by_cases hok : (!(st.sock.setttl ttl).1) = true
  · simp only [if_pos hok]
    refine .ok ?_
    exact ⟨rfl, rfl, rfl⟩
  simp only [if_neg hok]
  cases c.dp.md5sig with
  | false =>
    refine (both_self (r := Eq) _ fun _ _ => rfl).bind ?_
    rintro payload _ - rfl
    exact .ok ⟨rfl, rfl, rfl⟩
  | true =>
    simp only [if_true]
    split
    · exact .ok ⟨rfl, rfl, rfl⟩
    · refine (both_self (r := Eq) _ fun _ _ => rfl).bind ?_
      rintro payload _ - rfl
      exact .ok ⟨rfl, rfl, rfl⟩

lemma sendBytes_beside (st : Loop) {oob : Bool} :
    Both (Beside st.info i) (if oob then sendOob c st pos else sendRequest c st pos)
      (if oob then sendOob c (setInfo i st) pos else sendRequest c (setInfo i st) pos) := by
  cases oob with
  | false => exact sendRequest_beside st
  | true => exact sendOob_beside st

lemma disorder_beside (st : Loop) {oob first : Bool} :
    Both (Beside st.info i) (disorder c oob first st pos)
      (disorder c oob first (setInfo i st) pos) := by
  unfold disorder
  cases first with
  | false =>
    exact sendBytes_beside { st with remote := { st.remote with ttl := true } }
  | true =>
    by_cases hok : (!(st.sock.setttl 1).1) = true
    · simp only [if_true, if_pos hok]
      exact .ok ⟨rfl, rfl, rfl⟩
    · simp only [if_true, if_neg hok]
      exact sendBytes_beside { st with
        sock := (st.sock.setttl 1).2, remote := { st.remote with ttl := true } }

lemma restoreState_beside (g : Globals) (st : Loop) (i : ProtoInfo) :
    (restoreState g st).info = st.info ∧
      restoreState g (setInfo i st) = setInfo i (restoreState g st) := by
  obtain ⟨lp, info, partSent, ⟨ttl, md5, fake⟩, sock⟩ := st
  cases fake <;> cases md5 <;> cases ttl <;> exact ⟨rfl, rfl⟩

/-- The states of the two runs. -/
def Twin (c : Call) (st st' : Loop) : Prop :=
  ∃ i, st' = setInfo i st ∧ Caches c.dp c.buffer c.n st.info i

/-- What the two runs do next. -/
def FlowTwin (c : Call) : Flow → Flow → Prop
  | .next st, .next st' => Twin c st st'
  | .cancel st, .cancel st' => Twin c st st'
  | .ret v wait st, .ret v' wait' st' => v = v' ∧ wait = wait' ∧ Twin c st st'
  | _, _ => False

/-- The end of the loop body, behind a complete send. -/
def settle (c : Call) (curr : Nat) (first : Bool) (pos : Nat) (st : Loop) : Flow :=
  let (notsent, w) := st.sock.hasNotsent
  let st := { st with sock := w }
  if notsent || (c.g.waitSend && decide (c.partSkip < curr)) then
    .ret ((if first then (st.lp : Int) else pos) - c.offset) true
      { st with sock := st.sock.emit (.timer c.g.awaitInt) }
  else
    let st := restoreState c.g st
    .next (if first then st else { st with lp := pos })

lemma settle_twin (h : Twin c st st') (curr : Nat) (first : Bool) (pos : Nat) :
    FlowTwin c (settle c curr first pos st) (settle c curr first pos st') := by
  obtain ⟨i, rfl, hc⟩ := h
  unfold settle
  simp only
  split
  · exact ⟨rfl, rfl, i, rfl, hc⟩
  obtain ⟨hinfo, hsame⟩ := restoreState_beside c.g { st with sock := st.sock.hasNotsent.2 } i
  cases first with
  | true => exact ⟨i, hsame, by rw [if_pos rfl, hinfo]; exact hc⟩
  | false =>
    refine ⟨i, congrArg (fun x : Loop => { x with lp := pos }) hsame, ?_⟩
    simp only [Bool.false_eq_true, if_false, hinfo]
    exact hc

lemma afterSend_twin (h : Twin c st st') (curr : Nat) (first : Bool) (s : Int) :
    FlowTwin c (afterSend c curr first pos s st) (afterSend c curr first pos s st') := by
  obtain ⟨i, rfl, hc⟩ := h
  unfold afterSend
  by_cases hneg : s < 0
  · simp only [if_pos hneg]
    cases first
    all_goals
      simp only [Bool.false_eq_true, if_true, if_false]
      split <;> exact ⟨rfl, rfl, i, rfl, hc⟩
  by_cases hpart : s ≠ (pos : Int) - st.lp
  · simp only [if_neg hneg]
    cases first
    all_goals
      simp only [Bool.false_eq_true, if_true, if_false, if_pos hpart]
      exact ⟨rfl, rfl, i, rfl, hc⟩
  simp only [if_neg hneg]
  have htwin : Twin c st (setInfo i st) := ⟨i, rfl, hc⟩
  cases first with
  | true =>
    simp only [if_true, if_neg hpart, gt_iff_lt, Int.lt_irrefl, if_false]
    exact settle_twin htwin curr true pos
  | false =>
    simp only [Bool.false_eq_true, if_false, if_neg hpart]
    split
    · have hlp : Twin c { st with partSent := curr, lp := st.lp + s.toNat }
          { st with partSent := curr, lp := st.lp + s.toNat, info := i } := ⟨i, rfl, hc⟩
      exact settle_twin hlp curr false pos
    · have hpart : Twin c { st with partSent := curr } { st with partSent := curr, info := i } :=
        ⟨i, rfl, hc⟩
      exact settle_twin hpart curr false pos

lemma fakeFirst_twin (h : Twin c st st') (hd : decoys c.dp = true) (idx : Nat) :
    Both (fun x y => x.1 = y.1 ∧ Twin c x.2 y.2) (fakeFirst c idx st pos)
      (fakeFirst c idx st' pos) := by
  obtain ⟨i, rfl, hc⟩ := h
  unfold fakeFirst
  by_cases hok : (!st.sock.sys1.1) = true
  · simp only [if_pos hok]
    exact .ok ⟨rfl, i, rfl, hc⟩
  simp only [if_neg hok]
  refine (fakePacket_alike hc hd c.rnd idx).bind ?_
  rintro ⟨pkt, j⟩ ⟨pkt', j'⟩ - ⟨hpkt, hcache⟩
  obtain rfl : pkt = pkt' := hpkt
  simp only
  split
  · exact .ok ⟨rfl, j', rfl, hcache⟩
  · refine (sendFake_beside { st with
      sock := st.sock.sys1.2.emit (.mapPage pkt.data.length), info := j
      remote := { st.remote with fake := some pkt.data.length } }).bind ?_
    rintro ⟨s, x⟩ ⟨s', y⟩ - ⟨hs, hinfo, rfl⟩
    obtain rfl : s = s' := hs
    refine .ok ⟨rfl, j', rfl, ?_⟩
    rw [hinfo]
    exact hcache

lemma Beside.twin {α : Type} {x y : α × Loop} (h : Beside j i x y)
    (hc : Caches c.dp c.buffer c.n j i) : x.1 = y.1 ∧ Twin c x.2 y.2 := by
  obtain ⟨hval, hinfo, hst⟩ := h
  exact ⟨hval, i, hst, by rw [hinfo]; exact hc⟩

lemma sendPart_twin (h : Twin c st st') (idx : Nat) {rep : Rep} (hrep : rep.1 ∈ c.dp.parts) :
    Both (fun x y => x.1 = y.1 ∧ Twin c x.2 y.2) (sendPart c idx rep st pos)
      (sendPart c idx rep st' pos) := by
  have hplain : ∀ {f g : Option (Int × Loop)},
      Both (fun x y => x.1 = y.1 ∧ Twin c x.2 y.2) f g →
        Both (fun x y => x.1 = y.1 ∧ Twin c x.2 y.2)
          (f.bind fun x => some (some x.1, x.2)) (g.bind fun x => some (some x.1, x.2)) := by
    intro f g hfg
    refine hfg.bind ?_
    rintro x y - ⟨hval, htwin⟩
    exact .ok ⟨congrArg some hval, htwin⟩
  obtain ⟨i, rfl, hc⟩ := h
  unfold sendPart
  cases hm : rep.1.m with
  | split => exact hplain ((sendRequest_beside st).imp fun _ _ hb => hb.twin hc)
  | none => exact hplain ((sendRequest_beside st).imp fun _ _ hb => hb.twin hc)
  | oob => exact hplain ((sendOob_beside st).imp fun _ _ hb => hb.twin hc)
  | disorder => exact hplain ((disorder_beside st).imp fun _ _ hb => hb.twin hc)
  | disoob => exact hplain ((disorder_beside st).imp fun _ _ hb => hb.twin hc)
  | fake =>
    have hd : decoys c.dp = true := by
      simp only [decoys, List.any_eq_true]
      exact ⟨rep.1, hrep, by rw [hm]; rfl⟩
    simp only
    split
    · exact fakeFirst_twin ⟨i, rfl, hc⟩ hd idx
    · exact hplain ((sendRequest_beside st).imp fun _ _ hb => hb.twin hc)

lemma partStep_twin (h : Twin c st st') (idx : Nat) {rep : Rep} (hrep : rep.1 ∈ c.dp.parts) :
    Both (FlowTwin c) (partStep c idx rep st) (partStep c idx rep st') := by
  obtain ⟨i, rfl, hc⟩ := h
  unfold partStep
  refine (place_alike hc hrep (c.rnd.part idx) st.lp).bind ?_
  rintro ⟨p, k⟩ ⟨p', k'⟩ - ⟨hpos, hcache⟩
  obtain rfl : p = p' := hpos
  have htwin : Twin c { st with info := k } { st with info := k' } := ⟨k', rfl, hcache⟩
  simp only
  split
  · exact .ok htwin
  split
  · exact .ok htwin
  split
  · exact .ok (afterSend_twin htwin _ _ _)
  refine (sendPart_twin htwin idx hrep).bind ?_
  rintro ⟨s, x⟩ ⟨s', y⟩ - ⟨hs, hxy⟩
  obtain rfl : s = s' := hs
  cases s with
  | none => exact .ok ⟨rfl, rfl, hxy⟩
  | some s => exact .ok (afterSend_twin hxy _ _ _)

lemma sendRest_twin (h : Twin c st st') :
    Both (fun e e' => e.ret = e'.ret ∧ e.wait = e'.wait ∧ Twin c e.st e'.st) (sendRest c st)
      (sendRest c st') := by
  obtain ⟨i, rfl, hc⟩ := h
  unfold sendRest
  by_cases hlt : st.lp < c.n
  · simp only [if_pos hlt]
    refine (sendRequest_beside st).bind ?_
    rintro ⟨s, x⟩ ⟨s', y⟩ - hb
    obtain ⟨hs, htwin⟩ := hb.twin hc
    obtain ⟨-, -, rfl⟩ := hb
    obtain rfl : s = s' := hs
    simp only
    split
    · split <;> exact .ok ⟨rfl, rfl, htwin⟩
    · exact .ok ⟨rfl, rfl, htwin⟩
  · simp only [if_neg hlt]
    exact .ok ⟨rfl, rfl, i, rfl, hc⟩

theorem partsLoop_twin {reps : List Rep} (hreps : ∀ rep ∈ reps, rep.1 ∈ c.dp.parts) :
    ∀ {st st' : Loop} (idx : Nat), Twin c st st' →
      Both (fun e e' => e.ret = e'.ret ∧ e.wait = e'.wait ∧ Twin c e.st e'.st)
        (partsLoop c reps idx st) (partsLoop c reps idx st') := by
  induction reps with
  | nil =>
    intro st st' idx h
    exact sendRest_twin h
  | cons rep rest ih =>
    intro st st' idx h
    unfold partsLoop
    refine (partStep_twin h idx (hreps rep List.mem_cons_self)).bind ?_
    rintro x y - hxy
    cases x with
    | next s =>
      cases y <;> first | exact hxy.elim | skip
      exact ih (fun r hr => hreps r (List.mem_cons_of_mem rep hr)) (idx + 1) hxy
    | cancel s =>
      cases y <;> first | exact hxy.elim | skip
      exact sendRest_twin hxy
    | ret v wait s =>
      cases y <;> first | exact hxy.elim | skip
      exact .ok hxy

end Loop

lemma partsLoop_log (b : Bool) (c : Call) {reps : List Rep} :
    ∀ (idx : Nat) (st : Loop),
      partsLoop { c with g := { c.g with logEnabled := b } } reps idx st =
        partsLoop c reps idx st := by
  induction reps with
  | nil =>
    intro idx st
    rfl
  | cons rep rest ih =>
    intro idx st
    have hstep : partStep { c with g := { c.g with logEnabled := b } } idx rep st =
        partStep c idx rep st := rfl
    simp only [partsLoop, hstep, ih]
    rfl

lemma desync_of_prepare {g : Globals} {dp : DesyncParams} {rnd : Rands} {k : Conn} {t : Tamped}
    (b : Bool)
    (h : prepare { g with logEnabled := b } dp rnd k.data k.n k.roundSent = some t) :
    desync { g with logEnabled := b } dp rnd k =
      (partsLoop (callOf g dp rnd k t) (expand dp.parts) 0 (loopOf k t)).map
        fun e => (e.ret, e.wait, k.after t e) := by
  have hloop : partsLoop (callOf { g with logEnabled := b } dp rnd k t) (expand dp.parts) 0
      (loopOf k t) = partsLoop (callOf g dp rnd k t) (expand dp.parts) 0 (loopOf k t) :=
    partsLoop_log b (callOf g dp rnd k t) 0 (loopOf k t)
  unfold desync
  simp only [h, hloop, Option.bind_eq_bind, Option.bind_some]
  cases partsLoop (callOf g dp rnd k t) (expand dp.parts) 0 (loopOf k t) <;> rfl

lemma prepare_logged {g : Globals} {dp : DesyncParams} {rnd : Rands} {data : Bytes} {n : Nat}
    {info : ProtoInfo} (h : initProtoInfo data n {} = some info) :
    prepare { g with logEnabled := true } dp rnd data n 0 = tamp dp rnd ⟨data, n, info⟩ := by
  simp only [prepare, ne_eq, not_true_eq_false, if_false, if_true, h, Option.bind_eq_bind,
    Option.bind_some]

/-- Logging makes no difference where the host of the request as received is the one that is
found later, wherever it is needed. -/
theorem logging_neutral (g : Globals) (dp : DesyncParams) (rnd : Rands) (k : Conn)
    (hn : k.roundSent = 0 → Neutral dp rnd k.data k.n) :
    desync { g with logEnabled := true } dp rnd k =
      desync { g with logEnabled := false } dp rnd k := by
  by_cases hskip : k.roundSent = 0
  · obtain ⟨info, t, hinfo, htamp, hcase⟩ := hn hskip
    have hfilled : info.init = true := initProtoInfo_init hinfo
    have hoff : prepare { g with logEnabled := false } dp rnd k.data k.n k.roundSent = some t := by
      rw [hskip]
      exact htamp
    have hon : prepare { g with logEnabled := true } dp rnd k.data k.n k.roundSent =
        some { t with info := info } := by
      rw [hskip, prepare_logged hinfo]
      exact tamp_filled htamp (hcase.symm.imp (fun h => h.1) id) hfilled
    rw [desync_of_prepare false hoff, desync_of_prepare true hon]
    have hcaches : Caches dp t.data t.n info t.info := by
      rcases hcase with hsame | ⟨hempty, hl⟩
      · exact .inl hsame
      · rw [hempty]
        exact .inr hl
    have htwin : Twin (callOf g dp rnd k t) (loopOf k { t with info := info }) (loopOf k t) :=
      ⟨t.info, rfl, hcaches⟩
    have hreps : ∀ rep ∈ expand dp.parts, rep.1 ∈ (callOf g dp rnd k t).dp.parts :=
      fun rep hrep => mem_expand hrep
    have hloop := partsLoop_twin hreps 0 htwin
    refine (hloop.map ?_).eq fun _ _ h => h
    rintro e e' ⟨hret, hwait, i, hst, -⟩
    rw [hret, hwait, Conn.after, Conn.after, hst]
  · have hsame : ∀ b, prepare { g with logEnabled := b } dp rnd k.data k.n k.roundSent =
        some ⟨k.data, k.n, {}⟩ := fun b => if_pos hskip
    rw [desync_of_prepare true (hsame true), desync_of_prepare false (hsame false)]

/-- A request whose host is at 21. -/
def getAb : Request :=
  ⟨ascii ['G', 'E', 'T', ' ', '/', ' ', 'H', 'T', 'T', 'P', '/', '1', '.', '1', '\n', 'H', 'o',
    's', 't', ':', ' ', 'a', '.', 'b', '\n', '\n'], 26, by decide⟩

def splitAtHost (space : Bool) : DesyncParams :=
  { modHttp := ⟨false, space, false⟩, parts := [⟨.split, { host := true }, 0, 0, 0⟩] }

theorem logging_neutral_host :
    desync { logEnabled := true } (splitAtHost false) {} (getAb.conn {} {}) =
      desync { logEnabled := false } (splitAtHost false) {} (getAb.conn {} {}) := by
  refine logging_neutral {} (splitAtHost false) {} (getAb.conn {} {}) fun _ => ?_
  have hinfo : initProtoInfo getAb.data 26 {} = some ⟨true, .http, 3, 21⟩ := by decide
  have htamp : tamp (splitAtHost false) {} ⟨getAb.data, 26, {}⟩ = some ⟨getAb.data, 26, {}⟩ := by
    decide
  exact ⟨_, _, hinfo, htamp, .inr ⟨rfl, rfl, rfl, fun _ => hinfo, fun hd => by cases hd⟩⟩

/-- The calls of the first pass over the request when every send succeeds. -/
def calls (log : Bool) (dp : DesyncParams) (r : Request) : Option (List Event) :=
  (desync { logEnabled := log } dp {} (r.conn {} {})).map fun x => x.2.2.sock.log

/-- `MH_SPACE` moves the host by one; with logging on, the cut stays where it was. -/
theorem logging_moves_cut :
    calls false (splitAtHost true) getAb ≠ calls true (splitAtHost true) getAb ∧
      (calls false (splitAtHost true) getAb).isSome = true ∧
      (calls true (splitAtHost true) getAb).isSome = true := by
  decide

end LogSwitch
