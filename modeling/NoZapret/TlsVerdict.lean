import NoZapret.Response

/-!
# The TLS test of a response

The test looks at three bytes of the saved request for a ClientHello and at its
session id. When the bytes received settle these the test has one outcome;
otherwise there are two continuations that it tells apart.
-/

namespace TlsVerdict

open Block Packets Response

/-- Nothing received so far rules out a TLS hello. -/
def MaybeHello (r : Bytes) : Prop :=
  (∀ c, r[0]? = some c → c = 0x16) ∧ (∀ c, r[1]? = some c → c = 0x03) ∧
    ∀ c, r[5]? = some c → c = 0x01

/-- Is the comparison of the session ids settled by `r`? -/
def SidSettled {size : Nat} (r : Bytes) (resp : Received size) : Prop :=
  size < 75 ∨ resp.n < 75 ∨
    match r[43]? with
    | none => ∀ sid : UInt8, sid ≠ 0 →
        findTlsExtOffset 0x2b resp.data resp.n (44 + sid.toNat + 3) = some 0
    | some sid => sid = 0 ∨
        findTlsExtOffset 0x2b resp.data resp.n (44 + sid.toNat + 3) = some 0 ∨
        resp.data[43]? ≠ some sid ∨ 44 + sid.toNat ≤ r.length ∨
        ¬ r.drop 44 <+: resp.data.drop 44

def TlsSettled {size : Nat} (r : Bytes) (resp : Received size) : Prop :=
  size ≤ 5 ∨ ¬ MaybeHello r ∨ (isTlsShello resp.data resp.n = some false ∧ 6 ≤ r.length) ∨
    (isTlsShello resp.data resp.n = some true ∧ SidSettled r resp)

lemma word_eq (hi lo : UInt8) : hi.toNat * 256 + lo.toNat = 0x1603 ↔ hi = 0x16 ∧ lo = 0x03 := by
  have hhi := hi.toNat_lt
  have hlo := lo.toNat_lt
  constructor
  · intro h
    exact ⟨UInt8.toNat_inj.mp (by change hi.toNat = 22; omega),
      UInt8.toNat_inj.mp (by change lo.toNat = 3; omega)⟩
  · rintro ⟨rfl, rfl⟩
    rfl

lemma antohs_some {b : Bytes} {i : Nat} (h : i + 1 < b.length) :
    ∃ hi lo, b[i]? = some hi ∧ b[i + 1]? = some lo ∧
      antohs b i = some (hi.toNat * 256 + lo.toNat) := by
  have hi : i < b.length := by omega
  have hhi : b[i]? = some b[i] := List.getElem?_eq_getElem hi
  have hlo : b[i + 1]? = some b[i + 1] := List.getElem?_eq_getElem h
  refine ⟨_, _, hhi, hlo, ?_⟩
  have h1 : rd b (i + 1) = b[i + 1]? := rd_nat b (i + 1)
  simp only [antohs, rd_nat, h1, hhi, hlo, Option.bind_eq_bind, Option.bind_some, Option.pure_def]

/-- A handshake record of the given kind. -/
def helloOf (kind : UInt8) (b : Bytes) : Bool :=
  b[0]? == some 0x16 && b[1]? == some 0x03 && b[5]? == some kind

lemma hello_eq {b : Bytes} {n : Nat} (kind : UInt8) (hn : 5 < n) (hfits : n ≤ b.length) :
    (do if (← antohs b 0) ≠ 0x1603 then return false
        return (← rd b 5) == kind) = some (helloOf kind b) := by
  obtain ⟨hi, lo, hhi, hlo, hword⟩ := antohs_some (b := b) (i := 0) (by omega)
  rw [Int.ofNat_zero] at hword
  have h5 : rd b 5 = b[5]? := rd_nat b 5
  have hfive : 5 < b.length := by omega
  have hc : b[5]? = some b[5] := List.getElem?_eq_getElem hfive
  by_cases heq : hi = 0x16 ∧ lo = 0x03
  · simp [helloOf, hword, hhi, hlo, heq, h5, hc]
  · have hne : hi.toNat * 256 + lo.toNat ≠ 0x1603 := fun h => heq ((word_eq hi lo).mp h)
    simp only [hword, Option.bind_eq_bind, Option.bind_some]
    rw [if_pos hne]
    simp only [helloOf, hhi, hlo, Option.pure_def, Option.some.injEq]
    rcases not_and_or.mp heq with h | h <;> simp [h]

lemma isTlsChello_eq {b : Bytes} {n : Nat} (hfits : n ≤ b.length) :
    isTlsChello b n = some (decide (5 < n) && helloOf 0x01 b) := by
  unfold isTlsChello
  by_cases hn : 5 < n
  · have h := hello_eq 0x01 hn hfits
    rw [if_neg (by omega)]
    simpa [hn] using h
  · rw [if_pos (by omega)]
    simp [hn]

lemma isTlsShello_eq {b : Bytes} {n : Nat} (hfits : n ≤ b.length) :
    isTlsShello b n = some (decide (5 < n) && helloOf 0x02 b) := by
  unfold isTlsShello
  by_cases hn : 5 < n
  · have h := hello_eq 0x02 hn hfits
    rw [if_neg (by omega)]
    simpa [hn] using h
  · rw [if_pos (by omega)]
    simp [hn]

lemma helloOf_front {r d : Bytes} {kind : UInt8} (h : r <+: d) (hr : 6 ≤ r.length) :
    helloOf kind d = helloOf kind r := by
  obtain ⟨t, rfl⟩ := h
  unfold helloOf
  rw [List.getElem?_append_left (by omega), List.getElem?_append_left (by omega),
    List.getElem?_append_left (by omega)]

lemma findTlsExtFrom_total (type : Nat) {data : Bytes} {size : Nat} (hfits : size ≤ data.length)
    (fuel : Nat) : ∀ skip, size ≤ skip + fuel →
      ∃ v, findTlsExtFrom type data size (fuel + 1) skip = some v := by
  induction fuel with
  | zero =>
    intro skip h
    refine ⟨0, ?_⟩
    rw [findTlsExtFrom, if_neg (by omega)]
    rfl
  | succ fuel ih =>
    intro skip h
    rw [findTlsExtFrom]
    split
    · obtain ⟨hi, lo, -, -, htype⟩ := antohs_some (b := data) (i := skip) (by omega)
      obtain ⟨hi', lo', -, -, hlen⟩ := antohs_some (b := data) (i := skip + 2) (by omega)
      have hlen : antohs data ((skip : Int) + 2) = _ := hlen
      simp only [htype, hlen, Option.bind_eq_bind, Option.bind_some]
      split
      · exact ⟨skip, rfl⟩
      · exact ih _ (by omega)
    · exact ⟨0, rfl⟩

/-- The search for an extension stays inside and needs room for the list. -/
lemma findTlsExtOffset_total (type : Nat) {data : Bytes} {size : Nat} (skip : Nat)
    (hfits : size ≤ data.length) :
    ∃ v, findTlsExtOffset type data size skip = some v ∧ (v ≠ 0 → skip + 2 < size) := by
  unfold findTlsExtOffset
  by_cases hroom : size ≤ skip + 2
  · exact ⟨0, by rw [if_pos hroom]; rfl, fun h => absurd rfl h⟩
  · rw [if_neg hroom]
    obtain ⟨hi, lo, -, -, hlen⟩ := antohs_some (b := data) (i := skip) (by omega)
    simp only [hlen, Option.bind_eq_bind, Option.bind_some]
    have hend : (if hi.toNat * 256 + lo.toNat < size - (skip + 2) then
        hi.toNat * 256 + lo.toNat + (skip + 2) else size) ≤ data.length := by
      split <;> omega
    obtain ⟨v, hv⟩ := findTlsExtFrom_total type hend _ (skip + 2) (Nat.le_add_left _ _)
    exact ⟨v, hv, fun _ => by omega⟩

/-- `find_ext_block` stays inside. -/
lemma findExtBlock_total {b : Bytes} {n : Nat} (hfits : n ≤ b.length) :
    ∃ skip, findExtBlock b n = some skip := by
  unfold findExtBlock
  by_cases hshort : n < 44
  · exact ⟨0, by rw [if_pos hshort]; rfl⟩
  · rw [if_neg hshort]
    have hread : rd b 43 = b[43]? := rd_nat b 43
    obtain ⟨c, hc⟩ : ∃ c, b[43]? = some c := ⟨_, List.getElem?_eq_getElem (by omega)⟩
    simp only [hread, hc, Option.bind_eq_bind, Option.bind_some]
    by_cases hsid : n < 44 + c.toNat + 2
    · exact ⟨0, by rw [if_pos hsid]; rfl⟩
    · rw [if_neg hsid]
      obtain ⟨hi, lo, -, -, hword⟩ := antohs_some (b := b) (i := 44 + c.toNat) (by omega)
      have hword : antohs b (44 + (c.toNat : Int)) = _ := hword
      rw [hword]
      exact ⟨_, rfl⟩

variable {size : Nat} {r d d' : Bytes} {resp : Received size}

lemma resp_fits (resp : Received size) : resp.n ≤ resp.data.length := by
  rw [resp.full]
  exact resp.fits

lemma neqTlsSid_small (h : size < 75 ∨ resp.n < 75) :
    neqTlsSid d size resp.data resp.n = some false := by
  unfold neqTlsSid
  rw [if_pos h]
  rfl

lemma neqTlsSid_no_hello (h : isTlsChello d size = some false) :
    neqTlsSid d size resp.data resp.n = some false := by
  unfold neqTlsSid
  split
  · rfl
  · rw [h]
    rfl

/-- The session id of the request against the one in the response. -/
lemma neqTlsSid_eq {sid : UInt8} (hd : d.length = size) (hq : 75 ≤ size) (hs : 75 ≤ resp.n)
    (hc : isTlsChello d size = some true) (hh : isTlsShello resp.data resp.n = some true)
    (hsid : d[43]? = some sid) :
    neqTlsSid d size resp.data resp.n = some (decide (sid ≠ 0 ∧
      findTlsExtOffset 0x2b resp.data resp.n (44 + sid.toNat + 3) ≠ some 0 ∧
      (resp.data[43]? ≠ some sid ∨
        (d.drop 44).take sid.toNat ≠ (resp.data.drop 44).take sid.toNat))) := by
  have hfits := resp_fits resp
  have hword : antohs resp.data 0 = some 0x1603 := by
    obtain ⟨hi, lo, hhi, hlo, hword⟩ := antohs_some (b := resp.data) (i := 0) (by omega)
    rw [isTlsShello_eq hfits, helloOf, hhi, hlo] at hh
    simp only [Option.some.injEq, Bool.and_eq_true, beq_iff_eq] at hh
    rw [Int.ofNat_zero] at hword
    rw [hword, (word_eq hi lo).mpr hh.2.1]
  obtain ⟨v, hv, hroom⟩ := findTlsExtOffset_total 0x2b (44 + sid.toNat + 3) hfits
  have hread : rd d 43 = some sid := (rd_nat d 43).trans hsid
  have hlen := resp.full
  have hin := resp.fits
  have hcell : 43 < resp.data.length := by omega
  have hsid' : resp.data[43]? = some resp.data[43] := List.getElem?_eq_getElem hcell
  have hread' : rd resp.data 43 = resp.data[43]? := rd_nat _ 43
  unfold neqTlsSid
  rw [if_neg (by omega), hc, hword, hread, hread', hsid']
  by_cases h0 : sid = 0
  · simp [h0]
  by_cases hv0 : v = 0
  · simp [h0, hv, hv0]
  have hroom := hroom hv0
  have hreq : slice d 44 sid.toNat = some ((d.drop 44).take sid.toNat) :=
    slice_nat (i := 44) (by omega)
  have hresp : slice resp.data 44 sid.toNat = some ((resp.data.drop 44).take sid.toNat) :=
    slice_nat (i := 44) (by omega)
  by_cases hne : sid = resp.data[43]
  · simp [h0, hv, hv0, ← hne, hreq, hresp, bne, Bool.beq_eq_decide_eq]
  · simp [h0, hv, hv0, hne, Ne.symm hne]

/-- The test by what the bytes of the request are. -/
lemma tlsErr_eq (hd : d.length = size) :
    tlsErr d size resp.data resp.n =
      if decide (5 < size) && helloOf 0x01 d then
        if isTlsShello resp.data resp.n = some true then neqTlsSid d size resp.data resp.n
        else some true
      else some false := by
  have hc := isTlsChello_eq (b := d) (n := size) (Nat.le_of_eq hd.symm)
  have hs := isTlsShello_eq (resp_fits resp)
  unfold tlsErr
  rw [hc, hs]
  cases hhello : decide (5 < size) && helloOf 0x01 d with
  | false =>
    rw [hhello] at hc
    exact neqTlsSid_no_hello hc
  | true =>
    cases hshello : decide (5 < resp.n) && helloOf 0x02 resp.data with
    | false => rfl
    | true => rfl

lemma maybeHello_of_hello (h : r <+: d) (hh : helloOf 0x01 d = true) : MaybeHello r := by
  simp only [helloOf, Bool.and_eq_true, beq_iff_eq] at hh
  obtain ⟨⟨h0, h1⟩, h5⟩ := hh
  refine ⟨?_, ?_, ?_⟩
  · intro c hc
    exact Option.some.inj ((getElem?_front h hc).symm.trans h0)
  · intro c hc
    exact Option.some.inj ((getElem?_front h hc).symm.trans h1)
  · intro c hc
    exact Option.some.inj ((getElem?_front h hc).symm.trans h5)

/-- With the session ids settled the comparison has one outcome. -/
lemma neqTlsSid_settled (h : SidSettled r resp) (hr : r <+: d) (hr' : r <+: d')
    (hd : d.length = size) (hd' : d'.length = size)
    (hh : isTlsShello resp.data resp.n = some true) :
    (if decide (5 < size) && helloOf 0x01 d then neqTlsSid d size resp.data resp.n
      else some false) =
    if decide (5 < size) && helloOf 0x01 d' then neqTlsSid d' size resp.data resp.n
      else some false := by
  by_cases hsmall : size < 75 ∨ resp.n < 75
  · rw [neqTlsSid_small hsmall, neqTlsSid_small hsmall, ite_self, ite_self]
  have hq : 75 ≤ size := by omega
  have hs : 75 ≤ resp.n := by omega
  have hset := (h.resolve_left (by omega)).resolve_left (by omega)
  have hcell : ∀ {d : Bytes}, d.length = size → ∃ sid, d[43]? = some sid := by
    intro d hd
    have h43 : 43 < d.length := by omega
    exact ⟨d[43], List.getElem?_eq_getElem h43⟩
  cases hsid : r[43]? with
  | none =>
    rw [hsid] at hset
    have hfalse : ∀ {d : Bytes}, d.length = size →
        (if decide (5 < size) && helloOf 0x01 d then neqTlsSid d size resp.data resp.n
          else some false) = some false := by
      intro d hd
      split
      · next hc =>
        obtain ⟨sid, hsid⟩ := hcell hd
        rw [neqTlsSid_eq hd hq hs ((isTlsChello_eq (Nat.le_of_eq hd.symm)).trans (by rw [hc]))
          hh hsid, Option.some.injEq, decide_eq_false_iff_not]
        rintro ⟨h0, hext, -⟩
        exact hext (hset sid h0)
      · rfl
    rw [hfalse hd, hfalse hd']
  | some sid =>
    have h43 : 43 < r.length := (List.getElem?_eq_some_iff.mp hsid).1
    rw [helloOf_front hr (by omega), helloOf_front hr' (by omega)]
    split
    · next hc =>
      have hval : ∀ {d : Bytes}, r <+: d → d.length = size → _ := fun {d} hr hd =>
        neqTlsSid_eq (d := d) hd hq hs
          ((isTlsChello_eq (Nat.le_of_eq hd.symm)).trans
            (by rw [helloOf_front hr (by omega), hc])) hh (getElem?_front hr hsid)
      rw [hval hr hd, hval hr' hd', Option.some.injEq, decide_eq_decide]
      rw [hsid] at hset
      rcases hset with h0 | hext | hne | hlen | hnot
      · simp [h0]
      · simp [hext]
      · simp [hne]
      · rw [take_drop_front hr hlen, take_drop_front hr' hlen]
      · by_cases hlen : 44 + sid.toNat ≤ r.length
        · rw [take_drop_front hr hlen, take_drop_front hr' hlen]
        · have hneq : ∀ {d : Bytes}, r <+: d →
              (d.drop 44).take sid.toNat ≠ (resp.data.drop 44).take sid.toNat :=
            fun hr heq => hnot (prefix_of_take_eq hr (by omega) heq)
          simp only [hneq hr, hneq hr', ne_eq, not_false_eq_true, or_true]
    · rfl

/-- A settled test says the same about every block that continues `r`. -/
theorem tlsErr_settled (h : TlsSettled r resp) (hr : r <+: d) (hr' : r <+: d')
    (hd : d.length = size) (hd' : d'.length = size) :
    tlsErr d size resp.data resp.n = tlsErr d' size resp.data resp.n := by
  rw [tlsErr_eq hd, tlsErr_eq hd']
  rcases h with hsize | hnot | ⟨hshello, hlen⟩ | ⟨hshello, hsid⟩
  · have hfalse : decide (5 < size) = false := decide_eq_false (by omega)
    rw [hfalse, Bool.false_and, Bool.false_and, if_neg (by decide), if_neg (by decide)]
  · have hfalse : ∀ {d : Bytes}, r <+: d → helloOf 0x01 d = false := fun hr =>
      Bool.eq_false_iff.mpr fun hh => hnot (maybeHello_of_hello hr hh)
    rw [hfalse hr, hfalse hr', Bool.and_false, if_neg (by decide), if_neg (by decide)]
  · rw [helloOf_front hr hlen, helloOf_front hr' hlen, hshello]
    rfl
  · rw [if_pos hshello, if_pos hshello]
    exact neqTlsSid_settled hsid hr hr' hd hd' hshello

/-- `r`, and behind it the cells that `f` gives. -/
def fill (size : Nat) (r : Bytes) (f : Nat → UInt8) : Bytes :=
  r ++ ((List.range size).map f).drop r.length

lemma prefix_fill (size : Nat) (r : Bytes) (f : Nat → UInt8) : r <+: fill size r f :=
  List.prefix_append _ _

lemma fill_length {f : Nat → UInt8} (hr : r.length ≤ size) : (fill size r f).length = size := by
  simp only [fill, List.length_append, List.length_drop, List.length_map, List.length_range]
  omega

lemma fill_get {f : Nat → UInt8} {i : Nat} (hi : i < size) :
    (fill size r f)[i]? = some (r[i]?.getD (f i)) := by
  unfold fill
  by_cases hin : i < r.length
  · rw [List.getElem?_append_left hin, List.getElem?_eq_getElem hin]
    rfl
  · have hnone : r[i]? = none := List.getElem?_eq_none_iff.mpr (by omega)
    rw [List.getElem?_append_right (by omega), List.getElem?_drop,
      Nat.add_sub_cancel' (by omega : r.length ≤ i), hnone, List.getElem?_map,
      List.getElem?_range hi]
    rfl

/-- The first bytes of a hello; `g` gives the others. -/
def helloCell (kind : UInt8) (g : Nat → UInt8) (i : Nat) : UInt8 :=
  if i = 0 then 0x16 else if i = 1 then 0x03 else if i = 5 then kind else g i

lemma fill_hello (kind : UInt8) (g : Nat → UInt8) (hmaybe : MaybeHello r) (hsize : 5 < size)
    (hkind : r.length ≤ 5 ∨ kind = 0x01) :
    (fill size r (helloCell kind g))[0]? = some 0x16 ∧
      helloOf 0x01 (fill size r (helloCell kind g)) = (kind == 0x01) := by
  obtain ⟨h0, h1, h5⟩ := hmaybe
  have hget : ∀ {i c}, (∀ x, r[i]? = some x → x = c) → i < size → helloCell kind g i = c →
      (fill size r (helloCell kind g))[i]? = some c := by
    intro i c hx hi hc
    rw [fill_get hi]
    cases hri : r[i]? with
    | none => rw [Option.getD_none, hc]
    | some x => rw [Option.getD_some, hx x hri]
  have c0 := hget h0 (by omega) rfl
  have c1 := hget h1 (by omega) rfl
  refine ⟨c0, ?_⟩
  have c5 : (fill size r (helloCell kind g))[5]? = some kind := by
    rcases hkind with hlen | rfl
    · exact hget (fun x hx => absurd (List.getElem?_eq_some_iff.mp hx).1 (by omega)) hsize rfl
    · exact hget h5 hsize rfl
  simp [helloOf, c0, c1, c5]

lemma take_drop_get {b : Bytes} {i len k : Nat} (hik : i ≤ k) (hk : k < i + len) :
    ((b.drop i).take len)[k - i]? = b[k]? := by
  rw [List.getElem?_take_of_lt (by omega), List.getElem?_drop, Nat.add_sub_cancel' hik]

/-- A byte that differs and lies among those compared. -/
lemma take_drop_ne {b y : Bytes} {i len k : Nat} (hik : i ≤ k) (hk : k < i + len)
    (hne : b[k]? ≠ y[k]?) : (b.drop i).take len ≠ (y.drop i).take len := by
  intro heq
  apply hne
  rw [← take_drop_get hik hk, heq, take_drop_get hik hk]

/-- A ClientHello whose session id the bytes received leave open. -/
lemma sid_varies (hmaybe : MaybeHello r) (hshello : isTlsShello resp.data resp.n = some true)
    (hsid : ¬ SidSettled r resp) (hr : r.length ≤ size) :
    ∃ d d', r <+: d ∧ r <+: d' ∧ d.length = size ∧ d'.length = size ∧ d[0]? = some 0x16 ∧
      d'[0]? = some 0x16 ∧ tlsErr d size resp.data resp.n = some true ∧
      tlsErr d' size resp.data resp.n = some false := by
  simp only [SidSettled, not_or, Nat.not_lt] at hsid
  obtain ⟨hq, hs, hsid⟩ := hsid
  have hfull := resp.full
  have hlen : ∀ f, (fill size r f).length = size := fun f => fill_length hr
  have hhello : ∀ g, (fill size r (helloCell 0x01 g))[0]? = some 0x16 ∧
      helloOf 0x01 (fill size r (helloCell 0x01 g)) = true :=
    fun g => fill_hello 0x01 g hmaybe (by omega) (.inr rfl)
  have htest : ∀ (g : Nat → UInt8) (sid : UInt8),
      (fill size r (helloCell 0x01 g))[43]? = some sid →
      tlsErr (fill size r (helloCell 0x01 g)) size resp.data resp.n = some (decide (sid ≠ 0 ∧
        findTlsExtOffset 0x2b resp.data resp.n (44 + sid.toNat + 3) ≠ some 0 ∧
        (resp.data[43]? ≠ some sid ∨
          ((fill size r (helloCell 0x01 g)).drop 44).take sid.toNat ≠
            (resp.data.drop 44).take sid.toNat))) := by
    intro g sid hg
    have hc := (isTlsChello_eq (b := fill size r (helloCell 0x01 g)) (n := size)
      (Nat.le_of_eq (hlen _).symm)).trans (by rw [(hhello g).2, decide_eq_true (by omega)])
    rw [tlsErr_eq (hlen _), (hhello g).2, decide_eq_true (by omega : 5 < size), Bool.true_and,
      if_pos rfl, if_pos hshello]
    exact neqTlsSid_eq (hlen _) hq hs hc hshello hg
  have hroom : ∀ sid : UInt8, findTlsExtOffset 0x2b resp.data resp.n (44 + sid.toNat + 3) ≠ some 0 →
      44 + sid.toNat < size := by
    intro sid hext
    obtain ⟨v, hv, hroom⟩ := findTlsExtOffset_total 0x2b (44 + sid.toNat + 3) (resp_fits resp)
    have hlt := hroom fun h0 => hext (h0 ▸ hv)
    have hfits := resp.fits
    omega
  -- an id that is one byte off, from the first byte that is not received
  have hdiff : ∀ sid : UInt8, sid ≠ 0 → (∀ c, r[43]? = some c → c = sid) →
      r.length < 44 + sid.toNat →
      findTlsExtOffset 0x2b resp.data resp.n (44 + sid.toNat + 3) ≠ some 0 →
      ∃ d, r <+: d ∧ d.length = size ∧ d[0]? = some 0x16 ∧
        tlsErr d size resp.data resp.n = some true := by
    intro sid h0 hknown hshort hext
    have hsize := hroom sid hext
    have hpos : 0 < sid.toNat := Nat.pos_of_ne_zero fun h => h0 (UInt8.toNat_inj.mp h)
    refine ⟨fill size r (helloCell 0x01 fun i => if i = 43 then sid else (resp.data[i]?.getD 0) + 1),
      prefix_fill _ _ _, hlen _, (hhello _).1, ?_⟩
    have h43 : (fill size r (helloCell 0x01 fun i =>
        if i = 43 then sid else (resp.data[i]?.getD 0) + 1))[43]? = some sid := by
      rw [fill_get (by omega)]
      cases hc : r[43]? with
      | none => rfl
      | some c => rw [hknown c hc, Option.getD_some]
    rw [htest _ sid h43, Option.some.injEq, decide_eq_true_eq]
    refine ⟨h0, hext, .inr (take_drop_ne (k := max 44 r.length) (by omega) (by omega) ?_)⟩
    have hnone : r[max 44 r.length]? = none := List.getElem?_eq_none_iff.mpr (by omega)
    have hin : max 44 r.length < resp.data.length := by omega
    have hcell : resp.data[max 44 r.length]? = some resp.data[max 44 r.length] :=
      List.getElem?_eq_getElem hin
    rw [fill_get (by omega), hnone, Option.getD_none, helloCell, if_neg (by omega),
      if_neg (by omega), if_neg (by omega), if_neg (by omega), hcell]
    simp
  cases h43 : r[43]? with
  | none =>
    rw [h43] at hsid
    have hshort : r.length ≤ 43 := List.getElem?_eq_none_iff.mp h43
    simp only [not_forall] at hsid
    obtain ⟨sid, h0, hext⟩ := hsid
    obtain ⟨d, hd, hdlen, hd0, htrue⟩ := hdiff sid h0 (by simp [h43]) (by omega) hext
    refine ⟨d, fill size r (helloCell 0x01 fun _ => 0), hd, prefix_fill _ _ _, hdlen, hlen _,
      hd0, (hhello _).1, htrue, ?_⟩
    rw [htest _ 0 (by rw [fill_get (by omega), h43]; rfl)]
    simp
  | some sid =>
    rw [h43] at hsid
    simp only [not_or, not_not, Nat.not_le] at hsid
    obtain ⟨h0, hext, hsame, hshort, hpre⟩ := hsid
    have hsize := hroom sid hext
    obtain ⟨d, hd, hdlen, hd0, htrue⟩ := hdiff sid h0 (by simp [h43]) hshort hext
    refine ⟨d, fill size r (helloCell 0x01 fun i => resp.data[i]?.getD 0), hd, prefix_fill _ _ _,
      hdlen, hlen _, hd0, (hhello _).1, htrue, ?_⟩
    rw [htest _ sid (by rw [fill_get (by omega), h43]; rfl), Option.some.injEq,
      decide_eq_false_iff_not]
    rintro ⟨-, -, hne | hne⟩
    · exact hne hsame
    · apply hne
      apply List.ext_getElem?
      intro j
      by_cases hj : j < sid.toNat
      · rw [List.getElem?_take_of_lt hj, List.getElem?_take_of_lt hj, List.getElem?_drop,
          List.getElem?_drop, fill_get (by omega)]
        have hin : 44 + j < resp.data.length := by omega
        have hcell : resp.data[44 + j]? = some resp.data[44 + j] := List.getElem?_eq_getElem hin
        cases hc : r[44 + j]? with
        | none =>
          rw [Option.getD_none, helloCell, if_neg (by omega), if_neg (by omega),
            if_neg (by omega), hcell]
          rfl
        | some c =>
          have hdrop : (r.drop 44)[j]? = some c := by rw [List.getElem?_drop, hc]
          have hc' := getElem?_front hpre hdrop
          rw [List.getElem?_drop] at hc'
          rw [Option.getD_some, hc']
      · rw [List.getElem?_take_eq_none (by omega), List.getElem?_take_eq_none (by omega)]

/-- A test that is not settled comes out both ways, on requests that start like
a TLS record. -/
theorem tlsErr_varies (h : ¬ TlsSettled r resp) (hr : r.length ≤ size) :
    ∃ d d', r <+: d ∧ r <+: d' ∧ d.length = size ∧ d'.length = size ∧ d[0]? = some 0x16 ∧
      d'[0]? = some 0x16 ∧ tlsErr d size resp.data resp.n = some true ∧
      tlsErr d' size resp.data resp.n = some false := by
  simp only [TlsSettled, not_or, Nat.not_le, not_not, not_and] at h
  obtain ⟨hsize, hmaybe, hshort, hsid⟩ := h
  have hlen : ∀ f, (fill size r f).length = size := fun f => fill_length hr
  cases hshello : isTlsShello resp.data resp.n with
  | none =>
    rw [isTlsShello_eq (resp_fits resp)] at hshello
    cases hshello
  | some shello =>
    cases shello with
    | false =>
      have hshort := hshort hshello
      obtain ⟨c0, hh⟩ := fill_hello 0x01 (fun _ => 0) hmaybe hsize (.inr rfl)
      obtain ⟨c0', hh'⟩ := fill_hello 0x00 (fun _ => 0) hmaybe hsize
        (.inl (by omega))
      refine ⟨_, _, prefix_fill _ _ _, prefix_fill _ _ _, hlen _, hlen _, c0, c0', ?_, ?_⟩
      · rw [tlsErr_eq (hlen _), hh, hshello]
        simp [hsize]
      · rw [tlsErr_eq (hlen _), hh']
        simp
    | true => exact sid_varies hmaybe hshello (hsid hshello) hr

end TlsVerdict
