import NoZapret.LocationLine
import NoZapret.StaleRequest
import NoZapret.TlsVerdict

/-!
# What the checks of a response read

`is_http_redirect` and `neq_tls_sid` are given two buffers and their sizes. An access outside is
`none` already in `Response`; a search over a negative length is refused here as well.
-/

namespace ResponseBounds

open Block HostLine HostValue LocationLine Numbers Packets Response StaleRequest TlsVerdict

/-- `redirectTarget`, where `memchr` is given lengths only. -/
def boundedTarget (resp : Bytes) (sn : Nat) : Option (Option (Int × Int)) := do
  let some (location, lEnd) ← locationLine resp sn | return none
  let le ← findIn resp (· == ch '/') location (lEnd - location)
  return some (location, le.getD lEnd)

/-- `is_http_redirect` with it. -/
def boundedRedirect (req : Bytes) (qn : Nat) (resp : Bytes) (sn : Nat) : Option Bool := do
  let ref ← parseHttp req qn false
  if ref.len ≤ 0 ∨ sn < 29 then return false
  let some (location, le) ← boundedTarget resp sn | return false
  let host ← ref.hs
  let he := host + ref.len
  let h ← labelBack req host (qn + 1) he
  let h ← labelBack req host (qn + 1) h
  if le - location < he - h then return true
  return (← slice resp (le - (he - h)) (he - h)) != (← slice req h (he - h))

/-- Both checks stay inside their buffers, and no length is negative. -/
def Inside (req resp : Bytes) : Prop :=
  (∃ v, boundedRedirect req req.length resp resp.length = some v) ∧
    ∃ v, neqTlsSid req req.length resp resp.length = some v

def HasHost (req : Bytes) : Prop :=
  ∃ ref, parseHttp req req.length false = some ref ∧ 0 < ref.len

/-- There is nothing but white space behind the colon. -/
def BlankLocation (resp : Bytes) : Prop :=
  Redirects resp ∧ ∃ lead c v rest, LocationText resp lead c v rest ∧
    lead.length + 9 < resp.length ∧ ∀ x ∈ c :: v, isspace x = true

/-- Session ids of one length, which the request is too short for. -/
def IdPastEnd (req resp : Bytes) : Prop :=
  75 ≤ req.length ∧ 75 ≤ resp.length ∧ isTlsChello req req.length = some true ∧
    antohs resp 0 = some 0x1603 ∧ ∃ sid : UInt8, req[43]? = some sid ∧ resp[43]? = some sid ∧
      findTlsExtOffset 0x2b resp resp.length (44 + sid.toNat + 3) ≠ some 0 ∧
      req.length < 44 + sid.toNat

section Target

variable {req resp : Bytes} {qn sn : Nat}

/-- With no negative length the two are one. -/
lemma boundedTarget_sound {target : Option (Int × Int)} (h : boundedTarget resp sn = some target) :
    redirectTarget resp sn = some target := by
  rw [redirectTarget_eq]
  obtain ⟨line, hline, h⟩ := Option.bind_eq_some_iff.mp h
  rw [hline, Option.bind_some]
  cases line with
  | none => exact h
  | some line =>
    obtain ⟨location, lEnd⟩ := line
    obtain ⟨le, hle, h⟩ := Option.bind_eq_some_iff.mp h
    have hpos : ¬ lEnd - location < 0 := by
      intro hneg
      rw [findIn, slice, if_neg (by omega)] at hle
      cases hle
    simp only [memchrFrom, if_neg hpos, hle, Option.map_some]
    exact h

/-- `is_http_redirect` gives the answer of the bounded check. -/
theorem boundedRedirect_sound {v : Bool} (h : boundedRedirect req qn resp sn = some v) :
    isHttpRedirect req qn resp sn = some v := by
  obtain ⟨ref, href, h⟩ := Option.bind_eq_some_iff.mp h
  rw [isHttpRedirect_eq, href, Option.bind_some]
  unfold leavesHost
  split at h
  · next hlen =>
    rw [if_pos hlen]
    exact h
  · next hlen =>
    rw [if_neg hlen]
    obtain ⟨target, htarget, h⟩ := Option.bind_eq_some_iff.mp h
    rw [boundedTarget_sound htarget]
    exact h

lemma boundedTarget_text {lead v rest : Bytes} {c : UInt8} (h : LocationText resp lead c v rest)
    (hstatus : Redirects resp) (hroom : lead.length + 9 < resp.length)
    (hblank : ∃ x ∈ c :: v, isspace x = false) :
    ∃ location le : Nat, boundedTarget resp resp.length = some (some ((location : Int), (le : Int))) ∧
      location ≤ le ∧ le ≤ resp.length := by
  have hlen := h.length
  rcases trimmed_cases c v with ⟨-, -, hspace⟩ | ⟨ht, hpre⟩
  · obtain ⟨x, hx, hno⟩ := hblank
    rw [hspace x hx] at hno
    cases hno
  · have hline := locationLine_text h hstatus hroom
    have hstrip := strip_length (textOf c v)
    have hfits := hpre.length_le
    rw [ht, List.length_cons] at hline
    generalize hl : lead.length + 1 + ((textOf c v).length - (strip (textOf c v)).length) = l
      at hline
    generalize he : lead.length + ((textOf c v).length + 1) = e at hline
    unfold boundedTarget
    simp only [hline, Option.bind_eq_bind, Option.bind_some]
    rcases findIn_cases (b := resp) (· == ch '/') (i := l) (n := e) (by omega) (by omega) with
      ⟨k, hfind, hfirst⟩ | ⟨hfind, -⟩
    · have hge := hfirst.ge
      have hlt := hfirst.lt
      rw [hfind]
      exact ⟨l, k, rfl, hge, by omega⟩
    · rw [hfind]
      exact ⟨l, e, rfl, by omega, by omega⟩

/-- The one length that is negative. -/
lemma boundedTarget_blank {lead v rest : Bytes} {c : UInt8} (h : LocationText resp lead c v rest)
    (hstatus : Redirects resp) (hroom : lead.length + 9 < resp.length)
    (hblank : ∀ x ∈ c :: v, isspace x = true) : boundedTarget resp resp.length = none := by
  have hline := locationLine_text h hstatus hroom
  rw [List.rdropWhile_eq_nil_iff.mpr hblank] at hline
  unfold boundedTarget
  rw [hline]
  simp only [Option.bind_eq_bind, Option.bind_some, findIn, slice]
  rw [if_neg (by rw [List.length_nil]; omega)]
  rfl

/-- Where the search of the response goes wrong. -/
theorem boundedTarget_none : boundedTarget resp resp.length = none ↔
    StatusOpen resp ∨ BlankLocation resp := by
  constructor
  · intro hnone
    rcases locationLine_cases resp with hopen | hmiss | ⟨lead, c, v, rest, h, hstatus, hroom⟩
    · exact .inl hopen
    · rw [boundedTarget, hmiss] at hnone
      cases hnone
    · refine .inr ⟨hstatus, lead, c, v, rest, h, hroom, ?_⟩
      intro x hx
      by_contra hno
      obtain ⟨location, le, hsome, -⟩ :=
        boundedTarget_text h hstatus hroom ⟨x, hx, Bool.eq_false_iff.mpr hno⟩
      rw [hsome] at hnone
      cases hnone
  · rintro (hopen | ⟨hstatus, lead, c, v, rest, h, hroom, hblank⟩)
    · rw [boundedTarget, locationLine_open hopen]
      rfl
    · exact boundedTarget_blank h hstatus hroom hblank

lemma boundedTarget_range {location le : Int}
    (h : boundedTarget resp resp.length = some (some (location, le))) :
    0 ≤ location ∧ location ≤ le ∧ le ≤ resp.length := by
  rcases locationLine_cases resp with hopen | hmiss | ⟨lead, c, v, rest, htext, hstatus, hroom⟩
  · rw [boundedTarget, locationLine_open hopen] at h
    cases h
  · rw [boundedTarget, hmiss] at h
    cases h
  · by_cases hblank : ∀ x ∈ c :: v, isspace x = true
    · rw [boundedTarget_blank htext hstatus hroom hblank] at h
      cases h
    · push Not at hblank
      obtain ⟨x, hx, hno⟩ := hblank
      obtain ⟨l, e, hsome, hle, hend⟩ :=
        boundedTarget_text htext hstatus hroom ⟨x, hx, Bool.eq_false_iff.mpr hno⟩
      rw [hsome] at h
      cases h
      omega

end Target

section Labels

variable {req resp : Bytes}

/-- A host that was found lies behind the field's name. -/
lemma host_range {ref : HostRef} (h : parseHttp req req.length false = some ref)
    (hlen : 0 < ref.len) :
    ∃ host : Nat, ref.hs = some (host : Int) ∧ 6 ≤ host ∧ (host : Int) + ref.len ≤ req.length := by
  rcases parseHttp_cases req with ⟨hhttp, lead, v, rest, hline⟩ | hmiss
  · rw [parseHttp_text hline hhttp, Option.some.injEq] at h
    subst h
    have hne : (valueRef false lead.length v).len ≠ 0 := by omega
    have hfit := hostField_fits hline.field
    have hle := valueRef_le hne
    have hsize := congrArg List.length hline.split
    simp only [List.length_append, List.length_cons] at hsize
    refine ⟨lead.length + hostStart v, (valueRef_found hne).1, by omega, ?_⟩
    rw [Int.natCast_add]
    omega
  · rw [hmiss false, Option.some.injEq] at h
    subst h
    exact absurd hlen (by decide)

/-- The scan over a label stays behind the byte before the host. -/
lemma labelBack_total {b : Bytes} {host : Nat} (hpos : 0 < host) (fuel : Nat) :
    ∀ h : Nat, host ≤ h → h ≤ b.length → h < host + fuel →
      ∃ h' : Nat, labelBack b host fuel h = some (h' : Int) ∧ host ≤ h' ∧ h' ≤ h := by
  induction fuel with
  | zero =>
    intro h hge _ hlt
    omega
  | succ fuel ih =>
    intro h hge hle hlt
    by_cases heq : h = host
    · subst heq
      exact ⟨h, by rw [labelBack, if_pos rfl]; rfl, Nat.le_refl _, Nat.le_refl _⟩
    · have hback : (h : Int) - 2 = (h - 2 : Nat) := by omega
      have hone : (h : Int) - 1 = (h - 1 : Nat) := by omega
      obtain ⟨x, hx⟩ : ∃ x, b[h - 2]? = some x := ⟨_, List.getElem?_eq_getElem (by omega)⟩
      rw [labelBack, if_neg (by omega), hback, hone, rd_nat, hx]
      simp only [Option.bind_eq_bind, Option.bind_some]
      split
      · obtain ⟨h', hrun, hge', hle'⟩ := ih (h - 1) (by omega) (by omega) (by omega)
        exact ⟨h', hrun, hge', by omega⟩
      · exact ⟨h - 1, rfl, by omega, Nat.sub_le _ _⟩

/-- `is_http_redirect` goes wrong in the response or not at all. -/
theorem boundedRedirect_none : boundedRedirect req req.length resp resp.length = none ↔
    HasHost req ∧ (StatusOpen resp ∨ BlankLocation resp) := by
  obtain ⟨ref, href⟩ := parseHttp_returns req false
  have hshort : StatusOpen resp ∨ BlankLocation resp → 29 ≤ resp.length := by
    rintro (hopen | hblank)
    · exact hopen.1
    · exact hblank.1.1
  unfold boundedRedirect
  rw [href, ← boundedTarget_none]
  simp only [Option.bind_eq_bind, Option.bind_some]
  by_cases hlen : ref.len ≤ 0 ∨ resp.length < 29
  · rw [if_pos hlen]
    constructor
    · nofun
    · rintro ⟨⟨ref', href', hpos⟩, hnone⟩
      rw [href, Option.some.injEq] at href'
      subst href'
      have h29 := hshort (boundedTarget_none.mp hnone)
      omega
  · rw [if_neg hlen]
    have hhost : HasHost req := ⟨ref, href, by omega⟩
    obtain ⟨host, hhs, hsix, hend⟩ := host_range href (by omega)
    cases htarget : boundedTarget resp resp.length with
    | none => simp only [Option.bind_none, hhost, true_and]
    | some target =>
      simp only [hhost, reduceCtorEq, and_false, iff_false]
      cases target with
      | none => simp
      | some target =>
        obtain ⟨location, le⟩ := target
        obtain ⟨hpos, hle, hin⟩ := boundedTarget_range htarget
        obtain ⟨len, hlen⟩ : ∃ len : Nat, ref.len = len := ⟨ref.len.toNat, by omega⟩
        have hhe : (host : Int) + ref.len = (host + len : Nat) := by omega
        have hhpos : 0 < host := by omega
        obtain ⟨h1, hrun1, hge1, hle1⟩ := labelBack_total (b := req) hhpos
          (req.length + 1) (host + len) (by omega) (by omega) (by omega)
        obtain ⟨h2, hrun2, hge2, hle2⟩ := labelBack_total (b := req) hhpos
          (req.length + 1) h1 (by omega) (by omega) (by omega)
        simp only [Option.bind_some, hhs, hhe, hrun1, hrun2]
        split
        · simp
        · obtain ⟨xs, hxs⟩ : ∃ xs, slice resp (le - ((host + len : Nat) - h2 : Int))
              ((host + len : Nat) - h2 : Int) = some xs := by
            unfold slice
            rw [if_pos (by omega)]
            exact ⟨_, rfl⟩
          obtain ⟨ys, hys⟩ : ∃ ys, slice req h2 ((host + len : Nat) - h2 : Int) = some ys := by
            unfold slice
            rw [if_pos (by omega)]
            exact ⟨_, rfl⟩
          simp only [hxs, hys, Option.bind_some]
          simp

end Labels

section Ids

variable {req resp : Bytes}

/-- `neq_tls_sid` goes wrong where it compares the ids. -/
theorem neqTlsSid_none : neqTlsSid req req.length resp resp.length = none ↔ IdPastEnd req resp := by
  unfold neqTlsSid
  by_cases hsmall : req.length < 75 ∨ resp.length < 75
  · rw [if_pos hsmall]
    constructor
    · nofun
    · rintro ⟨hq, hs, -⟩
      omega
  rw [if_neg hsmall]
  have hq : 75 ≤ req.length := by omega
  have hs : 75 ≤ resp.length := by omega
  obtain ⟨hi, lo, -, -, hword⟩ := antohs_some (b := resp) (i := 0) (by omega)
  rw [Int.ofNat_zero] at hword
  obtain ⟨sid, hsid⟩ : ∃ sid, req[43]? = some sid := ⟨_, List.getElem?_eq_getElem (by omega)⟩
  obtain ⟨sid', hsid'⟩ : ∃ sid, resp[43]? = some sid := ⟨_, List.getElem?_eq_getElem (by omega)⟩
  obtain ⟨ext, hext, hroom⟩ :=
    findTlsExtOffset_total 0x2b (44 + sid.toNat + 3) (Nat.le_refl resp.length)
  have hread : rd req 43 = some sid := (rd_nat req 43).trans hsid
  have hread' : rd resp 43 = some sid' := (rd_nat resp 43).trans hsid'
  simp only [isTlsChello_eq (Nat.le_refl req.length), hword, hread, hread', hext,
    Option.bind_eq_bind, Option.bind_some]
  unfold IdPastEnd
  rw [isTlsChello_eq (Nat.le_refl req.length), hword, hsid, hsid']
  simp only [Option.some.injEq, exists_eq_left', hq, hs, true_and]
  cases hhello : decide (5 < req.length) && helloOf 0x01 req with
  | false => simp
  | true =>
    simp only [Bool.not_true, Bool.false_eq_true, if_false, true_and]
    by_cases hversion : hi.toNat * 256 + lo.toNat = 0x1603
    · rw [if_neg (not_not.mpr hversion)]
      simp only [hversion, true_and]
      by_cases hzero : sid = 0
      · subst hzero
        rw [if_pos rfl]
        constructor
        · nofun
        · rintro ⟨-, -, hlt⟩
          have hnil : (0 : UInt8).toNat = 0 := rfl
          omega
      · rw [if_neg hzero, hext]
        by_cases hnone : ext = 0
        · simp [hnone]
        · rw [if_neg hnone]
          have hroom := hroom hnone
          by_cases hsame : sid = sid'
          · subst hsame
            have hresp : ∃ xs, slice resp 44 sid.toNat = some xs :=
              ⟨_, slice_nat (i := 44) (by omega)⟩
            obtain ⟨xs, hresp⟩ := hresp
            rw [if_neg (not_not.mpr rfl), hresp]
            by_cases hfits : req.length < 44 + sid.toNat
            · have hreq : slice req 44 sid.toNat = none := by
                unfold slice
                rw [if_neg (by omega)]
              simp [hreq, hnone, hfits]
            · have hreq : ∃ ys, slice req 44 sid.toNat = some ys :=
                ⟨_, slice_nat (i := 44) (by omega)⟩
              obtain ⟨ys, hreq⟩ := hreq
              simp [hreq, hfits]
          · simp [hsame, Ne.symm hsame]
    · rw [if_pos hversion]
      simp [hversion]

end Ids

/-- Where the checks stay inside their buffers. -/
theorem checks_inside_iff (req resp : Bytes) :
    Inside req resp ↔
      (HasHost req → ¬ StatusOpen resp ∧ ¬ BlankLocation resp) ∧ ¬ IdPastEnd req resp := by
  have hsome : ∀ {o : Option Bool}, (∃ v, o = some v) ↔ o ≠ none := fun {o} =>
    Option.ne_none_iff_exists'.symm
  unfold Inside
  rw [hsome, hsome, ne_eq, ne_eq, boundedRedirect_none, neqTlsSid_none, not_and, not_or]

/-- A request with a host, and a redirection with nothing behind `Location:`. -/
def hostRequest : Bytes :=
  ascii ['G', 'E', 'T', ' ', '/', '\r', '\n', 'H', 'o', 's', 't', ':', ' ', 'a', '.', 'o', 'r', 'g',
    '\r', '\n']

def blankResponse : Bytes :=
  ascii ['H', 'T', 'T', 'P', '/', '1', '.', '1', ' ', '3', '0', '2', ' ', 'X', '\r', '\n',
    'L', 'o', 'c', 'a', 't', 'i', 'o', 'n', ':', ' ', '\r', '\n',
    'S', 'e', 'r', 'v', 'e', 'r', ':', ' ', 'a', '\r', '\n']

/-- The line ends before it begins. -/
theorem blank_location_outside : ¬ ∀ req resp : Bytes, Inside req resp := by
  intro h
  obtain ⟨⟨v, hv⟩, -⟩ := h hostRequest blankResponse
  have hnone : boundedRedirect hostRequest hostRequest.length blankResponse blankResponse.length =
      none := by
    decide
  rw [hnone] at hv
  cases hv

end ResponseBounds
