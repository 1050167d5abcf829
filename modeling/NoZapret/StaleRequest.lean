import NoZapret.HostLine
import NoZapret.TlsVerdict

/-!
# What a recycled buffer can decide

The saved request stands at the front of a block whose rest is stale. The
decision about a response is the same for every rest when no remaining group
watches for the failure, or when the bytes received from the client settle the
test; otherwise two rests exist that decide differently.
-/

namespace StaleRequest

open Block Packets Groups HostLine Response TlsVerdict

/-- Does a group that has not been tried watch for this? -/
def Watched (groups : List Group) (mask : Mask) (bit : Detect) : Prop :=
  ∃ g ∈ groups, tried mask g = false ∧ g.detect &&& bit ≠ 0

/-- Nothing received so far rules out an HTTP request. -/
def MaybeHttp (r : Bytes) : Prop := ∃ m ∈ methods, m <+: r ∨ r <+: m

def HttpSettled {size : Nat} (r : Bytes) (resp : Received size) : Prop :=
  size < 16 ∨ redirectTarget resp.data resp.n = some none ∨ ¬ MaybeHttp r ∨ LineEnds r

/-- The condition, with the mask that `on_response` looks at. -/
structure Settled {size : Nat} (groups : List Group) (mask : Mask) (r : Bytes)
    (resp : Received size) : Prop where
  http : Watched groups mask detectHttpLocat → HttpSettled r resp
  tls : Watched groups mask detectTlsErr → TlsSettled r resp

section Saved

lemma blit_front {old chunk data : Bytes} (h : blit old 0 chunk = some data) :
    data = chunk ++ old.drop chunk.length ∧ chunk.length ≤ old.length := by
  unfold blit at h
  split at h
  · next hfit =>
    cases h
    constructor
    · simp
    · omega
  · cases h

lemma recvRequest_front {old r chunk : Bytes} {b' : SqBuff} (hr : r.length ≤ old.length)
    (h : recvRequest ⟨r ++ old.drop r.length, r.length⟩ chunk = some b') :
    b' = ⟨(r ++ chunk) ++ old.drop (r ++ chunk).length, (r ++ chunk).length⟩ ∧
      (r ++ chunk).length ≤ old.length := by
  unfold recvRequest at h
  split at h
  · cases h
  · next hfit =>
    simp only [List.length_append, List.length_drop] at hfit
    have hsplit : blit (r ++ old.drop r.length) r.length chunk =
        some ((r ++ chunk) ++ old.drop (r ++ chunk).length) := by
      unfold blit
      rw [if_pos (by simp only [List.length_append, List.length_drop]; omega)]
      simp [List.drop_append]
    rw [hsplit] at h
    simp only [Option.bind_eq_bind, Option.bind_some, Option.pure_def, Option.some.injEq] at h
    subst h
    constructor
    · rw [List.length_append]
    · simp only [List.length_append]
      omega

lemma foldlM_front {old : Bytes} (chunks : List Bytes) :
    ∀ {r : Bytes} {b' : SqBuff}, r.length ≤ old.length →
      chunks.foldlM recvRequest ⟨r ++ old.drop r.length, r.length⟩ = some b' →
      b' = ⟨(r ++ chunks.flatten) ++ old.drop (r ++ chunks.flatten).length,
        (r ++ chunks.flatten).length⟩ ∧ (r ++ chunks.flatten).length ≤ old.length := by
  induction chunks with
  | nil =>
    intro r b' hr h
    cases h
    simpa using hr
  | cons chunk rest ih =>
    intro r b' hr h
    simp only [List.foldlM_cons, Option.bind_eq_bind, Option.bind_eq_some_iff] at h
    obtain ⟨b1, hb1, h⟩ := h
    obtain ⟨rfl, hfit⟩ := recvRequest_front hr hb1
    have hrest := ih hfit h
    simpa only [List.flatten_cons, List.append_assoc] using hrest

/-- The received bytes stand in front, and behind them what was there before. -/
theorem firstRequest_data {saved : Bool} {old : Bytes} {chunks : List Bytes} {b : SqBuff}
    (h : firstRequest saved old chunks = some b) :
    b = ⟨chunks.flatten ++ old.drop chunks.flatten.length, chunks.flatten.length⟩ ∧
      chunks.flatten.length ≤ old.length := by
  cases chunks with
  | nil => cases h
  | cons chunk rest =>
    simp only [firstRequest, Option.bind_eq_bind, Option.bind_eq_some_iff] at h
    obtain ⟨b1, hb1, h⟩ := h
    have hfront : b1 = ⟨chunk ++ old.drop chunk.length, chunk.length⟩ ∧
        chunk.length ≤ old.length := by
      cases saved with
      | true =>
        simp only [if_true, saveBuffer, Option.bind_eq_bind, Option.bind_eq_some_iff] at hb1
        obtain ⟨data, hdata, hb1⟩ := hb1
        cases hb1
        obtain ⟨rfl, hfit⟩ := blit_front hdata
        exact ⟨rfl, hfit⟩
      | false =>
        have hnil := recvRequest_front (r := []) (Nat.zero_le old.length)
          (by simpa using hb1)
        simpa using hnil
    obtain ⟨rfl, hfit⟩ := hfront
    exact foldlM_front rest hfit h

lemma recvRequest_same {b b' c : SqBuff} {chunk : Bytes} (hlen : b.data.length = b'.data.length)
    (hlock : b.lock = b'.lock) (h : recvRequest b chunk = some c) :
    ∃ c', recvRequest b' chunk = some c' ∧ c.data.length = c'.data.length ∧ c.lock = c'.lock := by
  unfold recvRequest at h ⊢
  split at h
  · cases h
  · next hfit =>
    simp only [Option.bind_eq_bind, Option.bind_eq_some_iff] at h
    obtain ⟨data, hdata, h⟩ := h
    cases h
    have hin : 0 ≤ (b'.lock : Int) ∧ (b'.lock : Int) + chunk.length ≤ b'.data.length := by omega
    obtain ⟨data', hdata'⟩ : ∃ data', blit b'.data b'.lock chunk = some data' := by
      unfold blit
      rw [if_pos hin]
      exact ⟨_, rfl⟩
    rw [if_neg (by omega), hdata']
    refine ⟨_, rfl, ?_, ?_⟩
    · rw [blit_length hdata, blit_length hdata', hlen]
    · rw [hlock]

/-- Whether a request is kept is a matter of lengths. -/
lemma firstRequest_same {saved : Bool} {old old' : Bytes} {chunks : List Bytes} {b : SqBuff}
    (hlen : old.length = old'.length) (h : firstRequest saved old chunks = some b) :
    ∃ b', firstRequest saved old' chunks = some b' := by
  have hrest : ∀ (rest : List Bytes) {b b' c : SqBuff}, b.data.length = b'.data.length →
      b.lock = b'.lock → rest.foldlM recvRequest b = some c →
      ∃ c', rest.foldlM recvRequest b' = some c' := by
    intro rest
    induction rest with
    | nil => exact fun _ _ _ => ⟨_, rfl⟩
    | cons chunk rest ih =>
      intro b b' c hlen hlock h
      simp only [List.foldlM_cons, Option.bind_eq_bind, Option.bind_eq_some_iff] at h ⊢
      obtain ⟨b1, hb1, h⟩ := h
      obtain ⟨b1', hb1', hlen1, hlock1⟩ := recvRequest_same hlen hlock hb1
      obtain ⟨c', hc'⟩ := ih hlen1 hlock1 h
      exact ⟨c', b1', hb1', hc'⟩
  cases chunks with
  | nil => cases h
  | cons chunk rest =>
    simp only [firstRequest, Option.bind_eq_bind, Option.bind_eq_some_iff] at h ⊢
    obtain ⟨b1, hb1, h⟩ := h
    cases saved with
    | true =>
      simp only [if_true, saveBuffer, Option.bind_eq_bind, Option.bind_eq_some_iff] at hb1 ⊢
      obtain ⟨data, hdata, hb1⟩ := hb1
      cases hb1
      have hfit := (blit_front hdata).2
      obtain ⟨data', hdata'⟩ : ∃ data', blit old' 0 chunk = some data' := by
        unfold blit
        rw [if_pos (by omega)]
        exact ⟨_, rfl⟩
      have hlen1 : (SqBuff.mk data chunk.length).data.length =
          (SqBuff.mk data' chunk.length).data.length := by
        rw [blit_length hdata, blit_length hdata', hlen]
      obtain ⟨c', hc'⟩ := hrest rest hlen1 rfl h
      exact ⟨c', _, ⟨data', hdata', rfl⟩, hc'⟩
    | false =>
      simp only [Bool.false_eq_true, if_false] at hb1 ⊢
      have hlen0 : (SqBuff.mk old 0).data.length = (SqBuff.mk old' 0).data.length := hlen
      obtain ⟨b1', hb1', hlen1, hlock1⟩ := recvRequest_same hlen0 rfl hb1
      obtain ⟨c', hc'⟩ := hrest rest hlen1 hlock1 h
      exact ⟨c', b1', hb1', hc'⟩

/-- A block that starts with the request is what saving it there leaves. -/
lemma firstRequest_self {saved : Bool} {old d : Bytes} {chunks : List Bytes} {b : SqBuff}
    (h : firstRequest saved old chunks = some b) (hlen : old.length = d.length)
    (hd : chunks.flatten <+: d) :
    firstRequest saved d chunks = some ⟨d, chunks.flatten.length⟩ := by
  obtain ⟨b', hb'⟩ := firstRequest_same hlen h
  obtain ⟨t, ht⟩ := hd
  rw [hb', (firstRequest_data hb').1, ← ht, List.drop_left]

end Saved

section Http

variable {b r d d' : Bytes} {host h : Int}

lemma labelBack_front (hr : r <+: b) (fuel : Nat) : ∀ h : Int, h ≤ r.length →
    labelBack b host fuel h = labelBack r host fuel h := by
  induction fuel with
  | zero => exact fun _ _ => rfl
  | succ fuel ih =>
    intro h hh
    rw [labelBack, labelBack, rd_front hr (by omega), ih (h - 1) (by omega)]

lemma labelBack_le (fuel : Nat) : ∀ {h h' : Int}, labelBack b host fuel h = some h' → h' ≤ h := by
  induction fuel with
  | zero =>
    intro h h' hlab
    cases hlab
  | succ fuel ih =>
    intro h h' hlab
    rw [labelBack] at hlab
    split at hlab
    · cases hlab
      exact Int.le_refl _
    · simp only [Option.bind_eq_bind, Option.bind_eq_some_iff] at hlab
      obtain ⟨c, -, hlab⟩ := hlab
      split at hlab
      · have hle := ih hlab
        omega
      · cases hlab
        omega

lemma labelBack_lt {fuel : Nat} {h' : Int} (hne : h ≠ host)
    (hlab : labelBack b host (fuel + 1) h = some h') : h' < h := by
  rw [labelBack, if_neg hne] at hlab
  simp only [Option.bind_eq_bind, Option.bind_eq_some_iff] at hlab
  obtain ⟨c, -, hlab⟩ := hlab
  split at hlab
  · have hle := labelBack_le fuel hlab
    omega
  · cases hlab
    omega

/-- One label is longer than its last byte when the byte before is no dot. -/
lemma labelBack_two {fuel : Nat} {h' : Int} {x : UInt8} (hx : rd b (h - 2) = some x)
    (hdot : x ≠ ch '.') (hfar : host ≤ h - 2)
    (hlab : labelBack b host (fuel + 2) h = some h') : h' ≤ h - 2 := by
  rw [labelBack, if_neg (by omega), hx] at hlab
  simp only [Option.bind_eq_bind, Option.bind_some, if_pos hdot] at hlab
  have hlt := labelBack_lt (by omega) hlab
  omega

/-- `is_http_redirect` once the request has a host. -/
def leavesHost (req : Bytes) (qn : Nat) (resp : Bytes) (sn : Nat) (ref : HostRef) :
    Option Bool := do
  if ref.len ≤ 0 ∨ sn < 29 then return false
  let some (location, le) ← redirectTarget resp sn | return false
  let host ← ref.hs
  let he := host + ref.len
  let h ← labelBack req host (qn + 1) he
  let h ← labelBack req host (qn + 1) h
  if le - location < he - h then return true
  return (← slice resp (le - (he - h)) (he - h)) != (← slice req h (he - h))

lemma isHttpRedirect_eq (req : Bytes) (qn : Nat) (resp : Bytes) (sn : Nat) :
    isHttpRedirect req qn resp sn =
      (parseHttp req qn false).bind fun ref => leavesHost req qn resp sn ref := rfl

lemma leavesHost_front (hr : r <+: b) {qn sn : Nat} {resp : Bytes} {ref : HostRef}
    (hin : 0 < ref.len → ∃ hs, ref.hs = some hs ∧ hs + ref.len ≤ r.length) :
    leavesHost b qn resp sn ref = leavesHost r qn resp sn ref := by
  unfold leavesHost
  split
  · rfl
  · next hlen =>
    obtain ⟨hs, hhs, hle⟩ := hin (by omega)
    cases htarget : redirectTarget resp sn with
    | none => rfl
    | some target =>
      cases target with
      | none => rfl
      | some span =>
        obtain ⟨location, le⟩ := span
        simp only [hhs, Option.bind_eq_bind, Option.bind_some]
        rw [labelBack_front hr _ _ hle]
        cases hone : labelBack r hs (qn + 1) (hs + ref.len) with
        | none => rfl
        | some h1 =>
          have hle1 := labelBack_le _ hone
          simp only [Option.bind_some]
          rw [labelBack_front hr _ _ (by omega)]
          cases htwo : labelBack r hs (qn + 1) h1 with
          | none => rfl
          | some h2 =>
            simp only [Option.bind_some]
            rw [slice_front hr (by omega)]

lemma leavesHost_pass {req resp : Bytes} {qn sn : Nat} {ref : HostRef}
    (h : redirectTarget resp sn = some none) : leavesHost req qn resp sn ref = some false := by
  unfold leavesHost
  rw [h]
  split <;> rfl

lemma leavesHost_miss (req resp : Bytes) (qn sn : Nat) :
    leavesHost req qn resp sn .miss = some false := by
  unfold leavesHost
  rw [if_pos (.inl (Int.le_refl _))]
  rfl

variable {size : Nat} {resp : Received size}

lemma parseHttp_total (b : Bytes) : ∃ ref, parseHttp b b.length false = some ref := by
  by_cases hhttp : isHttp b b.length = some true ∧ LineEnds b
  · obtain ⟨hhttp, hline⟩ := hhttp
    obtain ⟨q, host, k, hat⟩ := hostAt_of_lineEnds hline
    rw [parseHttp_at hhttp hat]
    exact hostRef_total hat
  · exact ⟨_, parseHttp_miss fun h hline => hhttp ⟨h, hline⟩⟩

lemma redirect_no_host (hd : d.length = size)
    (h : isHttp d d.length = some true → ¬ LineEnds d) :
    isHttpRedirect d size resp.data resp.n = some false := by
  have hmiss : parseHttp d size false = some .miss := hd ▸ parseHttp_miss h
  rw [isHttpRedirect_eq, hmiss]
  exact leavesHost_miss _ _ _ _

lemma maybeHttp_of_http (hr : r <+: d) (h : isHttp d d.length = some true) : MaybeHttp r := by
  rw [isHttp_eq, Option.some.injEq, decide_eq_true_eq] at h
  obtain ⟨-, m, hm, hpre⟩ := h
  exact ⟨m, hm, List.prefix_or_prefix_of_prefix hpre hr⟩

lemma isHttp_same (hr : r <+: d) (hr' : r <+: d') (hlen : d.length = d'.length)
    (hseven : 7 ≤ r.length) : isHttp d d.length = isHttp d' d'.length := by
  have hsame : ∀ {d : Bytes}, r <+: d → ∀ m ∈ methods, m <+: d ↔ m <+: r := by
    intro d hr m hm
    have hshort := methods_short m hm
    exact ⟨fun h => List.prefix_of_prefix_length_le h hr (by omega), fun h => h.trans hr⟩
  rw [isHttp_eq, isHttp_eq, hlen, Option.some.injEq, decide_eq_decide]
  constructor
  · rintro ⟨h16, m, hm, hpre⟩
    exact ⟨h16, m, hm, (hsame hr' m hm).mpr ((hsame hr m hm).mp hpre)⟩
  · rintro ⟨h16, m, hm, hpre⟩
    exact ⟨h16, m, hm, (hsame hr m hm).mpr ((hsame hr' m hm).mp hpre)⟩

/-- A settled test says the same about every block that continues `r`. -/
theorem redirect_settled (h : HttpSettled r resp) (hr : r <+: d) (hr' : r <+: d')
    (hd : d.length = size) (hd' : d'.length = size) :
    isHttpRedirect d size resp.data resp.n = isHttpRedirect d' size resp.data resp.n := by
  rcases h with hsize | htarget | hnot | hline
  · have hno : ∀ {d : Bytes}, d.length = size → isHttp d d.length = some true → ¬ LineEnds d := by
      intro d hd hhttp
      rw [isHttp_eq, Option.some.injEq, decide_eq_true_eq] at hhttp
      omega
    rw [redirect_no_host hd (hno hd), redirect_no_host hd' (hno hd')]
  · have hpass : ∀ {d : Bytes}, d.length = size →
        isHttpRedirect d size resp.data resp.n = some false := by
      intro d hd
      obtain ⟨ref, href⟩ := parseHttp_total d
      rw [hd] at href
      rw [isHttpRedirect_eq, href]
      exact leavesHost_pass htarget
    rw [hpass hd, hpass hd']
  · rw [redirect_no_host hd fun hhttp => absurd (maybeHttp_of_http hr hhttp) hnot,
      redirect_no_host hd' fun hhttp => absurd (maybeHttp_of_http hr' hhttp) hnot]
  · obtain ⟨q, host, k, hat⟩ := hostAt_of_lineEnds hline
    have hfit := hat.start.ge
    have hhost := hat.line.ge
    have hk := hat.line.lt
    have hsame := isHttp_same hr hr' (hd.trans hd'.symm) (by omega)
    cases hhttp : isHttp d d.length with
    | none =>
      rw [isHttp_eq] at hhttp
      cases hhttp
    | some v =>
      have hhttp' := hsame.symm.trans hhttp
      cases v with
      | false =>
        rw [redirect_no_host hd (by rw [hhttp]; intro h; cases h),
          redirect_no_host hd' (by rw [hhttp']; intro h; cases h)]
      | true =>
        have hval : ∀ {d : Bytes}, r <+: d → d.length = size → isHttp d d.length = some true →
            isHttpRedirect d size resp.data resp.n =
              (hostRef r (size + 1) host k).bind fun ref =>
                leavesHost r size resp.data resp.n ref := by
          intro d hr hd hhttp
          have hparse : parseHttp d size false = hostRef r (size + 1) host k := by
            rw [← hd, parseHttp_at hhttp (hat.front hr), hostRef_front hr (by omega) (by omega)]
          rw [isHttpRedirect_eq, hparse]
          cases href : hostRef r (size + 1) host k with
          | none => rfl
          | some ref =>
            simp only [Option.bind_some]
            apply leavesHost_front hr
            intro hlen
            obtain ⟨hs, hhs, hle⟩ := hostRef_bound href hlen
            exact ⟨hs, hhs, by omega⟩
        rw [hval hr hd hhttp, hval hr' hd' hhttp']

lemma maybeHttp_head (h : MaybeHttp r) : r[0]? ≠ some 0x16 := by
  obtain ⟨m, hm, hpre⟩ := h
  obtain ⟨c, hc, hlo, -⟩ := methods_head m hm
  intro h0
  have hcell : r[0]? = m[0]? := by
    rcases hpre with hpre | hpre
    · rw [hc, getElem?_front hpre hc]
    · rw [h0, getElem?_front hpre h0]
  rw [h0, hc, Option.some.injEq] at hcell
  subst hcell
  exact absurd hlo (by decide)

lemma tlsErr_other (hd : d.length = size) (h : d[0]? ≠ some 0x16) :
    tlsErr d size resp.data resp.n = some false := by
  have hno : helloOf 0x01 d = false := by
    simp [helloOf, h]
  rw [tlsErr_eq hd, hno, Bool.and_false]
  rfl

lemma redirect_tls (hd : d.length = size) (h : d[0]? = some 0x16) :
    isHttpRedirect d size resp.data resp.n = some false :=
  redirect_no_host hd fun hhttp =>
    absurd h (maybeHttp_head (maybeHttp_of_http (List.prefix_refl d) hhttp))

/-- A byte that ends no host and starts none, other than two given ones. -/
structure Plain (x : UInt8) : Prop where
  newline : x ≠ ch '\n'
  blank : x ≠ ch ' '
  digit : isdigit x = false
  colon : x ≠ ch ':'
  bracket : x ≠ ch '['
  dot : x ≠ ch '.'

lemma exists_plain (u v : Option UInt8) : ∃ x, Plain x ∧ u ≠ some x ∧ v ≠ some x := by
  have ha : Plain (ch 'a') := by constructor <;> decide
  have hb : Plain (ch 'b') := by constructor <;> decide
  have hc : Plain (ch 'c') := by constructor <;> decide
  have hab : ch 'a' ≠ ch 'b' := by decide
  have hac : ch 'a' ≠ ch 'c' := by decide
  have hbc : ch 'b' ≠ ch 'c' := by decide
  by_cases hA : u ≠ some (ch 'a') ∧ v ≠ some (ch 'a')
  · exact ⟨_, ha, hA⟩
  by_cases hB : u ≠ some (ch 'b') ∧ v ≠ some (ch 'b')
  · exact ⟨_, hb, hB⟩
  refine ⟨_, hc, ?_, ?_⟩ <;> grind

/-- A host whose last or last but one byte is not the target's: the response
leaves it. -/
lemma leavesHost_differs {req resp : Bytes} {qn sn : Nat} {ref : HostRef} {hs p : Int} {x : UInt8}
    (htarget : redirectTarget resp sn ≠ some none) (hhs : ref.hs = some hs) (hlen : 0 < ref.len)
    (hx : rd req p = some x) (hdot : x ≠ ch '.')
    (hp : hs + ref.len = p + 1 ∨ (hs + ref.len = p + 2 ∧ hs ≤ p)) (hqn : 0 < qn)
    (hne : ∀ location le, redirectTarget resp sn = some (some (location, le)) →
      rd resp (le - 1) ≠ some x ∧ rd resp (le - 2) ≠ some x) :
    leavesHost req qn resp sn ref ≠ some false := by
  intro h
  have hsn : ¬ sn < 29 := by
    intro hsn
    apply htarget
    rw [redirectTarget, if_pos hsn]
    rfl
  unfold leavesHost at h
  rw [if_neg (by omega)] at h
  cases hcase : redirectTarget resp sn with
  | none => simp [hcase] at h
  | some target =>
    cases target with
    | none => exact htarget hcase
    | some span =>
      obtain ⟨location, le⟩ := span
      obtain ⟨hne1, hne2⟩ := hne location le hcase
      simp only [hcase, hhs, Option.bind_eq_bind, Option.bind_some, Option.bind_eq_some_iff] at h
      obtain ⟨h1, hone, h2, htwo, h⟩ := h
      have hle2 := labelBack_le _ htwo
      have hcover : h2 ≤ p := by
        rcases hp with hp | ⟨hp, hsp⟩
        · have hlt := labelBack_lt (by omega) hone
          omega
        · obtain ⟨n, rfl⟩ : ∃ n, qn = n + 1 := ⟨qn - 1, by omega⟩
          have hle1 := labelBack_two (by rw [hp, Int.add_sub_cancel]; exact hx) hdot (by omega) hone
          omega
      split at h
      · cases h
      · simp only [Option.bind_eq_some_iff] at h
        obtain ⟨xs, hxs, ys, hys, h⟩ := h
        simp only [Option.pure_def, Option.some.injEq, bne_eq_false_iff_eq] at h
        subst h
        have hcell := slice_get hys (j := p - h2) (by omega) (by omega)
        rw [slice_get hxs (by omega) (by omega), show h2 + (p - h2) = p by omega, hx] at hcell
        rcases hp with hp | ⟨hp, -⟩
        · rw [hp, show le - (p + 1 - h2) + (p - h2) = le - 1 by omega] at hcell
          exact hne1 hcell
        · rw [hp, show le - (p + 2 - h2) + (p - h2) = le - 2 by omega] at hcell
          exact hne2 hcell

/-- A request whose `Host` line ends just behind what `r` holds of it. -/
lemma redirect_closed {m : Bytes} {x : UInt8} (hplain : Plain x) (hm : m ∈ methods) (hmr : m <+: r)
    (hocc : ∃ q, Occurs r hostField q) (hopen : ¬ LineEnds r)
    (hr : r ++ [x, ch ']', ch '\n'] <+: d) (hd : d.length = size) (hsize : 16 ≤ size)
    (htarget : redirectTarget resp.data resp.n ≠ some none)
    (hne : ∀ location le, redirectTarget resp.data resp.n = some (some (location, le)) →
      rd resp.data (le - 1) ≠ some x ∧ rd resp.data (le - 2) ≠ some x) :
    isHttpRedirect d size resp.data resp.n ≠ some false := by
  obtain ⟨q0, hocc0⟩ := hocc
  have hfit0 := hostField_fits hocc0
  have hrd : r <+: d := (List.prefix_append r _).trans hr
  have hcell : ∀ {i c}, [x, ch ']', ch '\n'][i]? = some c → d[r.length + i]? = some c := by
    intro i c hc
    apply getElem?_front hr
    rw [List.getElem?_append_right (by omega), Nat.add_sub_cancel_left]
    exact hc
  have h0 : d[r.length]? = some x := hcell (i := 0) rfl
  have h1 : d[r.length + 1]? = some (ch ']') := hcell (i := 1) rfl
  have h2 : d[r.length + 2]? = some (ch '\n') := hcell (i := 2) rfl
  have hhttp : isHttp d d.length = some true := by
    rw [isHttp_eq, decide_eq_true ⟨by omega, m, hm, hmr.trans hrd⟩]
  obtain ⟨q, host, k, hat⟩ := hostAt_of_lineEnds
    ⟨q0, r.length + 2, hocc0.mono hrd, by omega, h2⟩
  have hq := hat.first q0 (hocc0.mono hrd)
  have hstart := hat.start.ge
  have hline := hat.line.ge
  have hhost : host ≤ r.length := by
    by_contra hlt
    have hblank := hat.start.first r.length x (by omega) (by omega) h0
    simp [hplain.blank] at hblank
  have hk : k = r.length + 2 := by
    obtain ⟨c, hc, hnl⟩ := hat.line.hit
    rw [beq_iff_eq] at hnl
    subst hnl
    have hnot : ¬ k < r.length := by
      intro hlt
      have hin : r[k]? = some (ch '\n') := by
        rw [← hc, getElem?_front hrd (List.getElem?_eq_getElem hlt), List.getElem?_eq_getElem hlt]
      exact hopen ⟨q, k, hat.occurs.within hrd (by change q + 6 ≤ _; omega), by omega, hin⟩
    have hne0 : k ≠ r.length := by
      rintro rfl
      exact hplain.newline (Option.some.inj (h0.symm.trans hc))
    have hne1 : k ≠ r.length + 1 := by
      rintro rfl
      exact absurd (Option.some.inj (h1.symm.trans hc)) (by decide)
    have hle : k ≤ r.length + 2 := by
      by_contra hlt
      have hno := hat.line.first _ _ (by omega) (by omega) h2
      exact absurd hno (by decide)
    omega
  subst hk
  have hlt := hat.line.lt
  obtain ⟨ref, hs, href, hhs, hlen, hle, hend⟩ := hostRef_closed h0 h1 hplain.digit
    hplain.colon hplain.bracket hhost (by omega) size
  have hparse : parseHttp d size false = some ref := by
    rw [← href, ← hd]
    exact parseHttp_at hhttp hat
  rw [isHttpRedirect_eq, hparse]
  apply leavesHost_differs htarget hhs hlen ((rd_nat d r.length).trans h0) hplain.dot ?_ (by omega) hne
  rcases hend with hend | ⟨hend, hin⟩
  · exact .inl (by omega)
  · exact .inr ⟨by omega, hin⟩

/-- An open request can be brought to its `Host` line. -/
lemma exists_hostField (h : MaybeHttp r) (hopen : ¬ LineEnds r) :
    ∃ r' m, m ∈ methods ∧ r <+: r' ∧ m <+: r' ∧ (∃ q, Occurs r' hostField q) ∧ ¬ LineEnds r' ∧
      r'.length ≤ max r.length 7 + 6 := by
  -- the method first, then the field
  obtain ⟨r1, m, hm, hr1, hm1, hopen1, hlen1⟩ : ∃ r1 m, m ∈ methods ∧ r <+: r1 ∧ m <+: r1 ∧
      ¬ LineEnds r1 ∧ r1.length ≤ max r.length 7 := by
    obtain ⟨m, hm, hpre | hpre⟩ := h
    · exact ⟨r, m, hm, List.prefix_refl r, hpre, hopen, by omega⟩
    · have hshort := methods_short m hm
      refine ⟨m, m, hm, hpre, List.prefix_refl m, ?_, by omega⟩
      rintro ⟨q, k, -, -, hk⟩
      exact methods_line m hm (List.mem_of_getElem? hk)
  by_cases hocc : ∃ q, Occurs r1 hostField q
  · exact ⟨r1, m, hm, hr1, hm1, hocc, hopen1, by omega⟩
  · have hsix : hostField.length = 6 := rfl
    refine ⟨r1 ++ hostField, m, hm, hr1.trans (List.prefix_append _ _),
      hm1.trans (List.prefix_append _ _), ⟨r1.length, ?_, ?_⟩, ?_, ?_⟩
    · simp only [List.length_append]
      omega
    · rw [List.drop_left, List.take_length]
    · rintro ⟨q, k, hq, hqk, hk⟩
      have hin : q + 6 ≤ r1.length := by
        by_cases hlt : k < r1.length
        · omega
        · rw [List.getElem?_append_right (by omega)] at hk
          have hlast : ∀ j < 6, hostField[j]? = some (ch '\n') → j = 0 := by decide
          have hzero := hlast _ (List.getElem?_eq_some_iff.mp hk).1 hk
          omega
      exact hocc ⟨q, hq.within (List.prefix_append _ _) hin⟩
    · simp only [List.length_append]
      omega

lemma lineEnds_zeros (hopen : ¬ LineEnds r) (hr : r.length ≤ size) :
    ¬ LineEnds (fill size r fun _ => 0) := by
  rintro ⟨q, k, hq, hqk, hk⟩
  have hlt : k < size := by
    have h := (List.getElem?_eq_some_iff.mp hk).1
    rwa [fill_length hr] at h
  rw [fill_get hlt] at hk
  cases hin : r[k]? with
  | none =>
    rw [hin] at hk
    exact absurd hk (by decide)
  | some c =>
    rw [hin, Option.getD_some] at hk
    have hkr := (List.getElem?_eq_some_iff.mp hin).1
    exact hopen ⟨q, k, hq.within (prefix_fill _ _ _) (by change q + 6 ≤ _; omega), hqk,
      hin.trans hk⟩

/-- A test that is not settled comes out both ways, on requests that do not
start like a TLS record. -/
theorem redirect_varies (h : ¬ HttpSettled r resp) (hr : r.length + 16 ≤ size) :
    ∃ d d', r <+: d ∧ r <+: d' ∧ d.length = size ∧ d'.length = size ∧ d[0]? ≠ some 0x16 ∧
      d'[0]? ≠ some 0x16 ∧ isHttpRedirect d size resp.data resp.n ≠ some false ∧
      isHttpRedirect d' size resp.data resp.n = some false := by
  simp only [HttpSettled, not_or, Nat.not_lt, not_not] at h
  obtain ⟨hsize, htarget, hmaybe, hopen⟩ := h
  obtain ⟨r', m, hm, hrr, hmr, hocc, hopen', hlen⟩ := exists_hostField hmaybe hopen
  have hx : ∃ x, Plain x ∧ ∀ location le,
      redirectTarget resp.data resp.n = some (some (location, le)) →
      rd resp.data (le - 1) ≠ some x ∧ rd resp.data (le - 2) ≠ some x := by
    cases hcase : redirectTarget resp.data resp.n with
    | none =>
      obtain ⟨x, hplain, -⟩ := exists_plain none none
      exact ⟨x, hplain, by simp⟩
    | some target =>
      cases target with
      | none => exact absurd hcase htarget
      | some span =>
        obtain ⟨location, le⟩ := span
        obtain ⟨x, hplain, hne⟩ := exists_plain (rd resp.data (le - 1)) (rd resp.data (le - 2))
        refine ⟨x, hplain, ?_⟩
        rintro location' le' heq
        cases heq
        exact hne
  obtain ⟨x, hplain, hne⟩ := hx
  have hfull : (r' ++ [x, ch ']', ch '\n']).length ≤ size := by
    simp only [List.length_append, List.length_cons, List.length_nil]
    omega
  have hpre := prefix_fill size (r' ++ [x, ch ']', ch '\n']) fun _ => 0
  have hd : (fill size (r' ++ [x, ch ']', ch '\n']) fun _ => 0).length = size := fill_length hfull
  have hrd := (List.prefix_append r' _).trans hpre
  refine ⟨_, fill size r fun _ => 0, hrr.trans hrd, prefix_fill _ _ _, hd,
    fill_length (by omega), ?_, ?_, ?_, ?_⟩
  · exact maybeHttp_head ⟨m, hm, .inl (hmr.trans hrd)⟩
  · rw [fill_get (by omega)]
    have hhead := maybeHttp_head hmaybe
    cases hr0 : r[0]? with
    | none => exact fun h => absurd h (by decide)
    | some c => exact fun h => hhead (hr0.trans h)
  · exact redirect_closed hplain hm hmr hocc hopen' hpre hd hsize htarget hne
  · exact redirect_no_host (fill_length (by omega)) fun _ => lineEnds_zeros hopen (by omega)

end Http

section Decision

variable {size : Nat} {groups : List Group} {mask : Mask} {r d d' : Bytes} {resp : Received size}

lemma Watched.tail {g : Group} {rest : List Group} {bit : Detect} (h : Watched rest mask bit) :
    Watched (g :: rest) mask bit := by
  obtain ⟨g', hg', hwatch⟩ := h
  exact ⟨g', List.mem_cons_of_mem g hg', hwatch⟩

lemma failing_congr
    (hhttp : Watched groups mask detectHttpLocat →
      isHttpRedirect d size resp.data resp.n = isHttpRedirect d' size resp.data resp.n)
    (htls : Watched groups mask detectTlsErr →
      tlsErr d size resp.data resp.n = tlsErr d' size resp.data resp.n) :
    failing d size resp.data resp.n mask groups = failing d' size resp.data resp.n mask groups := by
  induction groups with
  | nil => rfl
  | cons g rest ih =>
    have ih := ih (fun h => hhttp h.tail) (fun h => htls h.tail)
    rw [failing, failing, ih]
    by_cases htried : tried mask g = true
    · rw [if_pos htried, if_pos htried]
    · have hnot : tried mask g = false := Bool.eq_false_iff.mpr htried
      have hsame : fails d size resp.data resp.n g = fails d' size resp.data resp.n g := by
        unfold fails
        by_cases h1 : g.detect &&& detectHttpLocat ≠ 0
        · rw [hhttp ⟨g, by simp, hnot, h1⟩]
          by_cases h2 : g.detect &&& detectTlsErr ≠ 0
          · rw [htls ⟨g, by simp, hnot, h2⟩]
          · simp only [if_neg h2]
        · by_cases h2 : g.detect &&& detectTlsErr ≠ 0
          · rw [htls ⟨g, by simp, hnot, h2⟩]
            simp only [if_neg h1]
          · simp only [if_neg h1, if_neg h2]
      rw [hsame]

/-- No test fails: the response passes. -/
lemma failing_pass (hhttp : isHttpRedirect d size resp.data resp.n = some false)
    (htls : tlsErr d size resp.data resp.n = some false) :
    failing d size resp.data resp.n mask groups = some none := by
  induction groups with
  | nil => rfl
  | cons g rest ih =>
    have hno : fails d size resp.data resp.n g = some false := by
      simp [fails, hhttp, htls]
    simp [failing, ih, hno]

/-- A watched test that does not pass: something is triggered. -/
lemma failing_caught {g : Group} (hg : g ∈ groups) (hmask : tried mask g = false)
    (hfails : fails d size resp.data resp.n g ≠ some false) :
    failing d size resp.data resp.n mask groups ≠ some none := by
  induction groups with
  | nil => cases hg
  | cons g' rest ih =>
    intro h
    rw [failing] at h
    by_cases htried : tried mask g' = true
    · rw [if_pos htried] at h
      rcases List.mem_cons.mp hg with rfl | hin
      · rw [hmask] at htried
        cases htried
      · exact ih hin h
    · rw [if_neg htried] at h
      cases hcase : fails d size resp.data resp.n g' with
      | none => simp [hcase] at h
      | some v =>
        cases v with
        | true => simp [hcase] at h
        | false =>
          rcases List.mem_cons.mp hg with rfl | hin
          · exact hfails hcase
          · exact ih hin (by simpa [hcase] using h)

lemma fails_redirect {g : Group} (hwatch : g.detect &&& detectHttpLocat ≠ 0)
    (h : isHttpRedirect d size resp.data resp.n ≠ some false) :
    fails d size resp.data resp.n g ≠ some false := by
  unfold fails
  rw [if_pos hwatch]
  cases hcase : isHttpRedirect d size resp.data resp.n with
  | none => simp
  | some v =>
    cases v with
    | true => simp
    | false => exact absurd hcase h

lemma fails_tls {g : Group} (hwatch : g.detect &&& detectTlsErr ≠ 0)
    (hpass : isHttpRedirect d size resp.data resp.n = some false)
    (h : tlsErr d size resp.data resp.n = some true) :
    fails d size resp.data resp.n g ≠ some false := by
  unfold fails
  rw [if_pos hwatch, hpass, h]
  split <;> simp

/-- The decision does not depend on what the buffer held before. -/
def Indifferent {size : Nat} (groups : List Group) (mask : Mask) (own : Group) (saved : Bool)
    (chunks : List Bytes) (resp : Received size) : Prop :=
  ∀ old old' b b', old.length = size → old'.length = size →
    firstRequest saved old chunks = some b → firstRequest saved old' chunks = some b' →
    onResponse groups mask own b resp = onResponse groups mask own b' resp

/-- `auto_reconnect` keeps the request until its answer comes. -/
def Kept (saved : Bool) (chunks : List Bytes) (size : Nat) : Prop :=
  ∃ old b, old.length = size ∧ firstRequest saved old chunks = some b

lemma onResponse_settled {own : Group} {saved : Bool} {chunks : List Bytes}
    (h : Settled groups (mask ||| own.bit) chunks.flatten resp) :
    Indifferent groups mask own saved chunks resp := by
  intro old old' b b' hold hold' hb hb'
  obtain ⟨rfl, hfit⟩ := firstRequest_data hb
  obtain ⟨rfl, -⟩ := firstRequest_data hb'
  have hlen : ∀ {old : Bytes}, old.length = size →
      (chunks.flatten ++ old.drop chunks.flatten.length).length = size := by
    intro old hold
    simp only [List.length_append, List.length_drop]
    omega
  have hpre : ∀ old : Bytes, chunks.flatten <+:
      chunks.flatten ++ old.drop chunks.flatten.length := fun _ => List.prefix_append _ _
  have hsame := failing_congr
    (fun hw => redirect_settled (h.http hw) (hpre old) (hpre old') (hlen hold) (hlen hold'))
    (fun hw => tlsErr_settled (h.tls hw) (hpre old) (hpre old') (hlen hold) (hlen hold'))
  simp only [onResponse, hlen hold, hlen hold', hsame]

lemma onResponse_at {own : Group} {sq : SqBuff} (hd : sq.data.length = size) :
    onResponse groups mask own sq resp =
      (failing sq.data size resp.data resp.n (mask ||| own.bit) groups).map
        (Option.map Group.detect) := by
  simp only [onResponse, hd]
  cases failing sq.data size resp.data resp.n (mask ||| own.bit) groups <;> rfl

/-- Two requests that are judged differently though a connection sent the same. -/
lemma not_indifferent {own : Group} {saved : Bool} {chunks : List Bytes} {g : Group}
    (hkept : Kept saved chunks size) (hg : g ∈ groups) (hmask : tried (mask ||| own.bit) g = false)
    (hr : chunks.flatten <+: d) (hr' : chunks.flatten <+: d') (hd : d.length = size)
    (hd' : d'.length = size) (hfails : fails d size resp.data resp.n g ≠ some false)
    (hhttp : isHttpRedirect d' size resp.data resp.n = some false)
    (htls : tlsErr d' size resp.data resp.n = some false) :
    ¬ Indifferent groups mask own saved chunks resp := by
  intro h
  obtain ⟨old, b, hold, hb⟩ := hkept
  have hsame := h d d' _ _ hd hd' (firstRequest_self hb (hold.trans hd.symm) hr)
    (firstRequest_self hb (hold.trans hd'.symm) hr')
  rw [onResponse_at hd, onResponse_at hd', failing_pass hhttp htls, Option.map_some,
    Option.map_none, Option.map_eq_some_iff] at hsame
  obtain ⟨found, hfound, hnone⟩ := hsame
  rw [Option.map_eq_none_iff] at hnone
  subst hnone
  exact failing_caught hg hmask hfails hfound

/-- The stale rest of the buffer does not decide when the bytes received settle
every test that a remaining group watches for; and, in a buffer with room for a
`Host` line behind them, only then. -/
theorem response_judged_by_own_bytes {size : Nat} (groups : List Group) (mask : Mask)
    (own : Group) (saved : Bool) (chunks : List Bytes) (resp : Received size) :
    (Settled groups (mask ||| own.bit) chunks.flatten resp →
      Indifferent groups mask own saved chunks resp) ∧
    (Kept saved chunks size → chunks.flatten.length + 16 ≤ size →
      Indifferent groups mask own saved chunks resp →
      Settled groups (mask ||| own.bit) chunks.flatten resp) := by
  refine ⟨onResponse_settled, ?_⟩
  intro hkept hroom hind
  constructor
  · rintro ⟨g, hg, hmask, hwatch⟩
    by_contra hnot
    obtain ⟨d, d', hr, hr', hd, hd', h0, h0', hfails, hpass⟩ := redirect_varies hnot hroom
    exact not_indifferent hkept hg hmask hr hr' hd hd' (fails_redirect hwatch hfails) hpass
      (tlsErr_other hd' h0') hind
  · rintro ⟨g, hg, hmask, hwatch⟩
    by_contra hnot
    obtain ⟨d, d', hr, hr', hd, hd', h0, h0', htrue, hfalse⟩ := tlsErr_varies hnot (by omega)
    exact not_indifferent hkept hg hmask hr hr' hd hd' (fails_tls hwatch (redirect_tls hd h0) htrue)
      (redirect_tls hd' h0') hfalse hind

end Decision

/-- The first bytes of a request, and the whole one an earlier connection sent. -/
def getLine : Bytes := ascii "GET / HTTP/1.1\r\n".toList

def earlier : Bytes := getLine ++ ascii "Host: a.org\r\n\r\n".toList ++ List.replicate 33 0

def moved : Received 64 where
  data := ascii "HTTP/1.1 302 Found\r\nLocation: http://b.org/\r\n\r\n".toList ++
    List.replicate 17 0
  n := 47
  full := by decide
  fits := by decide

def plain : Group := { id := 0 }

def onRedirect : Group := { id := 1, detect := detectHttpLocat }

/-- The `Host` line of the earlier connection makes a redirect of the response. -/
theorem stale_host_decides :
    ¬ Indifferent [plain, onRedirect] 0 plain true [getLine] moved := by
  intro h
  have hsame := h (List.replicate 64 0) earlier ⟨getLine ++ List.replicate 48 0, 16⟩ ⟨earlier, 16⟩
    (by decide) (by decide) rfl rfl
  exact absurd hsame (by decide)

end StaleRequest
