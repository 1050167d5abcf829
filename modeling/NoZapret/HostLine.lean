import NoZapret.Library.Prefix
import NoZapret.Packets

/-!
# How `parse_http` finds the host

The first occurrence of the field name, the line behind it and the two scans
back from its end, as facts about positions.
-/

namespace HostLine

open Block Packets

/-- The search for `pat` hits at `q`. -/
def Occurs (b pat : Bytes) (q : Nat) : Prop :=
  q + pat.length ≤ b.length ∧ ((b.drop q).take pat.length).map tolower = pat.map tolower

section Search

variable {b r pat : Bytes} {q : Nat}

lemma Occurs.get (h : Occurs b pat q) {i : Nat} {c : UInt8} (hc : pat[i]? = some c) :
    ∃ x, b[q + i]? = some x ∧ tolower x = tolower c := by
  obtain ⟨hlen, heq⟩ := h
  have hi : i < pat.length := (List.getElem?_eq_some_iff.mp hc).1
  have hcell := congrArg (fun l => l[i]?) heq
  simp only [List.getElem?_map, List.getElem?_take_of_lt hi, List.getElem?_drop, hc,
    Option.map_some] at hcell
  rw [Option.map_eq_some_iff] at hcell
  exact hcell

lemma Occurs.mono (h : Occurs r pat q) (hr : r <+: b) : Occurs b pat q := by
  obtain ⟨hlen, heq⟩ := h
  refine ⟨Nat.le_trans hlen hr.length_le, ?_⟩
  rw [take_drop_front hr hlen, heq]

lemma Occurs.within (h : Occurs b pat q) (hr : r <+: b) (hlen : q + pat.length ≤ r.length) :
    Occurs r pat q := by
  refine ⟨hlen, ?_⟩
  rw [← take_drop_front hr hlen]
  exact h.2

/-- What `memchr` looks for is the start of every occurrence. -/
def PlainHead (pat : Bytes) (c : UInt8) : Prop :=
  pat[0]? = some c ∧ ∀ x, tolower x = tolower c → x = c

lemma strncasestrFrom_cases {c : UInt8} (hhead : PlainHead pat c) (fuel : Nat) :
    ∀ p, p ≤ b.length → b.length < p + fuel →
      (∃ q : Nat, strncasestrFrom b b.length pat fuel p = some (some (q : Int)) ∧
        Occurs b pat q ∧ ∀ j, p ≤ j → Occurs b pat j → q ≤ j) ∨
      (strncasestrFrom b b.length pat fuel p = some none ∧ ∀ j, p ≤ j → ¬ Occurs b pat j) := by
  have hstart : ∀ {j}, Occurs b pat j → b[j]? = some c := by
    intro j h
    obtain ⟨x, hx, heq⟩ := h.get (i := 0) hhead.1
    rw [← hhead.2 x heq]
    exact hx
  have hhd : pat.head? = some c := by rw [List.head?_eq_getElem?, hhead.1]
  induction fuel with
  | zero => exact fun p hp h => absurd h (by omega)
  | succ fuel ih =>
    intro p hp h
    rw [strncasestrFrom]
    rcases findIn_cases (fun x => some x == pat.head?) hp (Nat.le_refl b.length) with
      ⟨k, hfind, hfirst⟩ | ⟨hfind, hnone⟩
    · have hge := hfirst.ge
      have hlt := hfirst.lt
      have hle : ∀ j, p ≤ j → Occurs b pat j → k ≤ j := by
        intro j hj hocc
        by_contra hjk
        have hno := hfirst.first j c hj (by omega) (hstart hocc)
        simp [hhd] at hno
      simp only [hfind, Option.bind_eq_bind, Option.bind_some]
      by_cases hroom : (k : Int) + pat.length > b.length
      · right
        rw [if_pos hroom]
        refine ⟨rfl, ?_⟩
        intro j hj hocc
        have hkj := hle j hj hocc
        have hfit := hocc.1
        omega
      · rw [if_neg hroom, slice_nat (by omega), Option.bind_some]
        by_cases heq : ((b.drop k).take pat.length).map tolower = pat.map tolower
        · left
          rw [if_pos heq]
          exact ⟨k, rfl, ⟨by omega, heq⟩, hle⟩
        · rw [if_neg heq]
          have hnot : ¬ Occurs b pat k := fun hocc => heq hocc.2
          have hnext : ∀ j, p ≤ j → Occurs b pat j → k + 1 ≤ j := by
            intro j hj hocc
            have hkj := hle j hj hocc
            have hne : j ≠ k := fun h => hnot (h ▸ hocc)
            omega
          rcases ih (k + 1) (by omega) (by omega) with ⟨q, hq, hocc, hqle⟩ | ⟨hq, hno⟩
          · exact .inl ⟨q, hq, hocc, fun j hj hocc' => hqle j (hnext j hj hocc') hocc'⟩
          · exact .inr ⟨hq, fun j hj hocc => hno j (hnext j hj hocc) hocc⟩
    · right
      refine ⟨by simp only [hfind, Option.bind_eq_bind, Option.bind_some, Option.pure_def], ?_⟩
      intro j hj hocc
      have hfit := hocc.1
      have hc := hstart hocc
      have hno := hnone j c hj (List.getElem?_eq_some_iff.mp hc).1 hc
      simp [hhd] at hno

/-- `strncasestr` finds the first occurrence. -/
theorem strncasestr_cases {c : UInt8} (hhead : PlainHead pat c) (b : Bytes) :
    (∃ q : Nat, strncasestr b b.length pat = some (some (q : Int)) ∧ Occurs b pat q ∧
      ∀ j, Occurs b pat j → q ≤ j) ∨
    (strncasestr b b.length pat = some none ∧ ∀ j, ¬ Occurs b pat j) := by
  rcases strncasestrFrom_cases (b := b) hhead (b.length + 1) 0 (Nat.zero_le _) (by omega) with
    ⟨q, hq, hocc, hle⟩ | ⟨hq, hno⟩
  · exact .inl ⟨q, hq, hocc, fun j hj => hle j (Nat.zero_le _) hj⟩
  · exact .inr ⟨hq, fun j hj => hno j (Nat.zero_le _) hj⟩

/-- Below the letters nothing is folded. -/
lemma tolower_plain {x c : UInt8} (hc : c.toNat < 65) (h : tolower x = c) : x = c := by
  unfold tolower at h
  split at h
  · next hx =>
    exfalso
    rw [Bool.and_eq_true, decide_eq_true_eq, decide_eq_true_eq, UInt8.le_iff_toNat_le,
      UInt8.le_iff_toNat_le] at hx
    have hsum : (x + 32).toNat = x.toNat + 32 := by
      rw [UInt8.toNat_add]
      have h32 : (32 : UInt8).toNat = 32 := rfl
      have h90 : (90 : UInt8).toNat = 90 := rfl
      omega
    rw [← h, hsum] at hc
    have h65 : (65 : UInt8).toNat = 65 := rfl
    omega
  · exact h

lemma isdigit_tolower {x c : UInt8} (hc : 65 ≤ c.toNat) (h : tolower x = c) :
    isdigit x = false := by
  by_contra hd
  rw [Bool.not_eq_false, isdigit, Bool.and_eq_true, decide_eq_true_eq, decide_eq_true_eq,
    UInt8.le_iff_toNat_le, UInt8.le_iff_toNat_le] at hd
  have h57 : (57 : UInt8).toNat = 57 := rfl
  have h65 : (65 : UInt8).toNat = 65 := rfl
  have hsame : tolower x = x := by
    unfold tolower
    rw [if_neg]
    rw [Bool.and_eq_true, decide_eq_true_eq, decide_eq_true_eq, UInt8.le_iff_toNat_le,
      UInt8.le_iff_toNat_le]
    omega
  rw [hsame] at h
  subst h
  omega

lemma hostField_head : PlainHead hostField (ch '\n') :=
  ⟨rfl, fun _ h => tolower_plain (by decide) (h.trans rfl)⟩

lemma Occurs.colon (h : Occurs b hostField q) : b[q + 5]? = some (ch ':') := by
  obtain ⟨x, hx, heq⟩ := h.get (i := 5) (c := ch ':') rfl
  rw [hx, tolower_plain (x := x) (c := ch ':') (by decide) heq]

lemma Occurs.last (h : Occurs b hostField q) :
    ∃ x, b[q + 4]? = some x ∧ isdigit x = false := by
  obtain ⟨x, hx, heq⟩ := h.get (i := 4) (c := ch 't') rfl
  exact ⟨x, hx, isdigit_tolower (c := ch 't') (by decide) heq⟩

end Search

section Scan

variable {p : UInt8 → Bool} {b r : Bytes}

/-- A scan back ends behind any cell it cannot pass. -/
lemma trimBack_total {j : Nat} {x : UInt8} (hx : b[j]? = some x) (hp : p x = false) (fuel : Nat) :
    ∀ i, j < i → i ≤ b.length → i ≤ j + fuel →
      ∃ i' : Nat, trimBack p b fuel i = some (i' : Int) ∧ j < i' ∧ i' ≤ i := by
  induction fuel with
  | zero => exact fun i hj _ h => absurd h (by omega)
  | succ fuel ih =>
    intro i hj hi h
    obtain ⟨y, hy⟩ : ∃ y, b[i - 1]? = some y := ⟨_, List.getElem?_eq_getElem (by omega)⟩
    have hback : (i : Int) - 1 = (i - 1 : Nat) := by omega
    simp only [trimBack, hback, rd_nat, hy, Option.bind_eq_bind, Option.bind_some]
    by_cases hpass : p y = true
    · have hne : i - 1 ≠ j := by
        intro heq
        rw [heq, hx, Option.some.injEq] at hy
        rw [← hy, hp] at hpass
        cases hpass
      obtain ⟨i', hi', hji', hle⟩ := ih (i - 1) (by omega) (by omega) (by omega)
      rw [if_pos hpass]
      exact ⟨i', hi', hji', by omega⟩
    · rw [if_neg hpass]
      exact ⟨i, rfl, hj, Nat.le_refl _⟩

lemma trimBack_stop {i fuel : Nat} {x : UInt8} (hx : b[i]? = some x) (hp : p x = false) :
    trimBack p b (fuel + 1) ((i : Int) + 1) = some ((i : Int) + 1) := by
  have hread : rd b ((i : Int) + 1 - 1) = some x := by
    rw [Int.add_sub_cancel, rd_nat, hx]
  simp only [trimBack, hread, Option.bind_eq_bind, Option.bind_some, hp]
  rfl

lemma trimBack_front (h : r <+: b) (fuel : Nat) : ∀ i : Int, i ≤ r.length →
    trimBack p b fuel i = trimBack p r fuel i := by
  induction fuel with
  | zero => exact fun _ _ => rfl
  | succ fuel ih =>
    intro i hi
    rw [trimBack, trimBack, rd_front h (by omega), ih (i - 1) (by omega)]

lemma trimBack_le (fuel : Nat) : ∀ {i i' : Int}, trimBack p b fuel i = some i' → i' ≤ i := by
  induction fuel with
  | zero =>
    intro i i' h
    cases h
  | succ fuel ih =>
    intro i i' h
    simp only [trimBack, Option.bind_eq_bind, Option.bind_eq_some_iff] at h
    obtain ⟨c, -, h⟩ := h
    split at h
    · have hle := ih h
      omega
    · cases h
      exact Int.le_refl _

end Scan

section Method

variable {b : Bytes}

lemma startsWithOne_eq {ms : List Bytes} (h : ∀ m ∈ ms, m.length ≤ b.length) :
    startsWithOne b ms = some (decide (∃ m ∈ ms, m <+: b)) := by
  induction ms with
  | nil => simp [startsWithOne]
  | cons m ms ih =>
    have hslice : slice b 0 m.length = some (b.take m.length) :=
      slice_nat (i := 0) (by have := h m (by simp); omega)
    have hms := ih fun m' hm' => h m' (by simp [hm'])
    simp only [startsWithOne, hslice, Option.bind_eq_bind, Option.bind_some, hms]
    by_cases heq : b.take m.length = m
    · have hpre : m <+: b := List.prefix_iff_eq_take.mpr heq.symm
      simp [heq, hpre]
    · have hpre : ¬ m <+: b := fun h => heq (List.prefix_iff_eq_take.mp h).symm
      simp [heq, hpre]

lemma methods_short : ∀ m ∈ methods, m.length ≤ 7 := by decide

lemma methods_line : ∀ m ∈ methods, ch '\n' ∉ m := by decide

lemma methods_head : ∀ m ∈ methods, ∃ c, m[0]? = some c ∧ ch 'C' ≤ c ∧ c ≤ ch 'T' := by
  have h : ∀ m ∈ methods, (m[0]?.any fun c => decide (ch 'C' ≤ c) && decide (c ≤ ch 'T')) = true := by
    decide
  intro m hm
  have hany := h m hm
  rw [Option.any_eq_true] at hany
  obtain ⟨c, hc, hle⟩ := hany
  rw [Bool.and_eq_true, decide_eq_true_eq, decide_eq_true_eq] at hle
  exact ⟨c, hc, hle⟩

/-- What `is_http` accepts. -/
theorem isHttp_eq (b : Bytes) :
    isHttp b b.length = some (decide (16 ≤ b.length ∧ ∃ m ∈ methods, m <+: b)) := by
  unfold isHttp
  by_cases hlen : b.length < 16
  · rw [if_pos hlen, decide_eq_false (by omega)]
    rfl
  · have hshort : ∀ m ∈ methods, m.length ≤ b.length := by
      intro m hm
      have hseven := methods_short m hm
      omega
    obtain ⟨c, hc⟩ : ∃ c, b[0]? = some c := ⟨_, List.getElem?_eq_getElem (by omega)⟩
    have hread : rd b 0 = some c := (rd_nat b 0).trans hc
    simp only [if_neg hlen, hread, Option.bind_eq_bind, Option.bind_some]
    rw [startsWithOne_eq hshort]
    by_cases hrange : c > ch 'T' ∨ c < ch 'C'
    · rw [if_pos hrange, decide_eq_false]
      · rfl
      · rintro ⟨-, m, hm, hpre⟩
        obtain ⟨c', hc', hlo, hhi⟩ := methods_head m hm
        rw [Option.some.inj (hc.symm.trans (getElem?_front hpre hc'))] at hrange
        rcases hrange with hgt | hlt
        · exact absurd hhi (UInt8.not_le.mpr hgt)
        · exact absurd hlo (UInt8.not_le.mpr hlt)
    · rw [if_neg hrange]
      simp [Nat.not_lt.mp hlen]

end Method

section Line

variable {b r : Bytes} {q host k : Nat}

/-- A line begins with the field name and ends within `b`. -/
def LineEnds (b : Bytes) : Prop :=
  ∃ q k, Occurs b hostField q ∧ q + 6 ≤ k ∧ b[k]? = some (ch '\n')

/-- Field name, first byte of the value and end of the line. -/
structure HostAt (b : Bytes) (q host k : Nat) : Prop where
  occurs : Occurs b hostField q
  first : ∀ j, Occurs b hostField j → q ≤ j
  start : FirstHit b (· != ch ' ') (q + 6) b.length host
  line : FirstHit b (· == ch '\n') host b.length k

lemma hostField_fits (h : Occurs b hostField q) : q + 6 ≤ b.length := h.1

/-- The first line that begins so, when any of them ends. -/
lemma hostAt_of_lineEnds (h : LineEnds b) : ∃ q host k, HostAt b q host k := by
  obtain ⟨q0, k0, hocc0, hle0, hk0⟩ := h
  have hlt0 : k0 < b.length := (List.getElem?_eq_some_iff.mp hk0).1
  rcases strncasestr_cases hostField_head b with ⟨q, -, hocc, hfirst⟩ | ⟨-, hno⟩
  · have hq := hfirst q0 hocc0
    rcases findIn_cases (b := b) (· != ch ' ') (i := q + 6) (n := b.length) (by omega)
      (Nat.le_refl _) with ⟨host, -, hstart⟩ | ⟨-, hnone⟩
    · have hhost : host ≤ k0 := by
        by_contra hlt
        have hblank := hstart.first k0 _ (by omega) (by omega) hk0
        exact absurd hblank (by decide)
      rcases findIn_cases (b := b) (· == ch '\n') (i := host) (n := b.length) (by omega)
        (Nat.le_refl _) with ⟨k, -, hline⟩ | ⟨-, hnone⟩
      · exact ⟨q, host, k, hocc, hfirst, hstart, hline⟩
      · exact absurd (hnone k0 _ hhost hlt0 hk0) (by decide)
    · exact absurd (hnone k0 _ (by omega) hlt0 hk0) (by decide)
  · exact absurd hocc0 (hno q0)

lemma HostAt.front (h : HostAt r q host k) (hr : r <+: b) : HostAt b q host k := by
  refine ⟨h.occurs.mono hr, ?_, h.start.front hr, h.line.front hr⟩
  intro j hocc
  by_contra hlt
  have hfit := hostField_fits h.occurs
  exact hlt (h.first j (hocc.within hr (by change j + 6 ≤ _; omega)))

/-- `h_end` when no port is asked for. -/
def hostEnd (b : Bytes) (hEnd lEnd : Int) : Option Int := do
  if (← rd b hEnd) ≠ ch ':' then return lEnd else return hEnd

lemma parsePort_none (b : Bytes) (hEnd lEnd : Int) :
    parsePort b hEnd lEnd false = (hostEnd b hEnd lEnd).map fun e => some (e, none) := by
  unfold parsePort hostEnd
  cases rd b hEnd with
  | none => rfl
  | some c =>
    simp only [Option.bind_eq_bind, Option.bind_some]
    split <;> rfl

/-- `parse_http` from the host on. -/
def hostRef (b : Bytes) (fuel : Nat) (host lEnd : Int) : Option HostRef := do
  let lEnd ← trimBack isspace b fuel lEnd
  let hEnd := (← trimBack isdigit b fuel (lEnd - 1)) - 1
  let hEnd ← hostEnd b hEnd lEnd
  if (← rd b host) = ch '[' then
    if (← rd b (hEnd - 1)) ≠ ch ']' then return ⟨0, none, none⟩
    return ⟨hEnd - 1 - (host + 1), some (host + 1), none⟩
  return ⟨hEnd - host, some host, none⟩

lemma parseHttp_at (hhttp : isHttp b b.length = some true) (h : HostAt b q host k) :
    parseHttp b b.length false = hostRef b (b.length + 1) host k := by
  have hsearch : strncasestr b b.length hostField = some (some (q : Int)) := by
    rcases strncasestr_cases hostField_head b with ⟨q', hq', hocc, hfirst⟩ | ⟨-, hno⟩
    · rw [hq', Nat.le_antisymm (hfirst q h.occurs) (h.first q' hocc)]
    · exact absurd h.occurs (hno q)
  have hstart := findIn_of_firstHit h.start (Nat.le_refl _)
  have hline := findIn_of_firstHit h.line (Nat.le_refl _)
  have hsix : ((q + 6 : Nat) : Int) = (q : Int) + 6 := rfl
  rw [hsix] at hstart
  unfold parseHttp hostRef
  simp only [hhttp, hsearch, hstart, hline, parsePort_none, Option.bind_eq_bind,
    Option.bind_some, Option.bind_map, Option.getD_some, Bool.not_true, Bool.false_eq_true,
    if_false]
  rfl

/-- Otherwise there is no host. -/
lemma parseHttp_miss {wantPort : Bool} (h : isHttp b b.length = some true → ¬ LineEnds b) :
    parseHttp b b.length wantPort = some .miss := by
  unfold parseHttp
  rw [isHttp_eq] at h ⊢
  by_cases hhttp : 16 ≤ b.length ∧ ∃ m ∈ methods, m <+: b
  · have hno := h (by rw [decide_eq_true hhttp])
    rw [decide_eq_true hhttp]
    rcases strncasestr_cases hostField_head b with ⟨q, hq, hocc, -⟩ | ⟨hq, -⟩
    · have hfit := hostField_fits hocc
      have hsix : ((q + 6 : Nat) : Int) = (q : Int) + 6 := rfl
      have hmiss : ∀ i : Nat, q + 6 ≤ i → i ≤ b.length →
          findIn b (· == ch '\n') i ((b.length : Int) - i) = some none := by
        intro i hi hn
        rcases findIn_cases (b := b) (· == ch '\n') hn (Nat.le_refl _) with
          ⟨k, -, hk⟩ | ⟨hnone, -⟩
        · obtain ⟨x, hx, heq⟩ := hk.hit
          have hik := hk.ge
          exact absurd ⟨q, k, hocc, by omega, hx.trans (congrArg some (beq_iff_eq.mp heq))⟩ hno
        · exact hnone
      simp only [hq, Option.bind_eq_bind, Option.bind_some, Bool.not_true, Bool.false_eq_true,
        if_false]
      rcases findIn_cases (b := b) (· != ch ' ') (i := q + 6) hfit (Nat.le_refl _) with
        ⟨host, hhost, hstart⟩ | ⟨hhost, -⟩
      · rw [hsix] at hhost
        have hge := hstart.ge
        have hlt := hstart.lt
        simp only [hhost, Option.bind_some, Option.getD_some, hmiss host hge (by omega)]
        rfl
      · rw [hsix] at hhost
        simp only [hhost, Option.bind_some, Option.getD_none, hmiss b.length hfit (Nat.le_refl _)]
        rfl
    · simp [hq]
  · rw [decide_eq_false hhttp]
    rfl

lemma hostEnd_cases {hEnd lEnd e : Int} (h : hostEnd b hEnd lEnd = some e) :
    e = lEnd ∨ e = hEnd := by
  simp only [hostEnd, Option.bind_eq_bind, Option.bind_eq_some_iff] at h
  obtain ⟨c, -, h⟩ := h
  split at h
  · exact .inl (Option.some.inj h).symm
  · exact .inr (Option.some.inj h).symm

/-- The scans stop before the field name does: nothing outside is read. -/
lemma hostRef_total (h : HostAt b q host k) :
    ∃ ref, hostRef b (b.length + 1) host k = some ref := by
  have hq := h.start.ge
  have hhost := h.line.ge
  have hk := h.line.lt
  obtain ⟨t, ht, hdigit⟩ := h.occurs.last
  obtain ⟨l, hl, hjl, hlk⟩ := trimBack_total (p := isspace) h.occurs.colon (by decide)
    (b.length + 1) k (by omega) (by omega) (by omega)
  obtain ⟨e, he, hje, hel⟩ := trimBack_total ht hdigit (b.length + 1) (l - 1) (by omega)
    (by omega) (by omega)
  have hl1 : (l : Int) - 1 = (l - 1 : Nat) := by omega
  have he1 : (e : Int) - 1 = (e - 1 : Nat) := by omega
  have hcell : ∀ i, i < b.length → ∃ c, b[i]? = some c :=
    fun i hi => ⟨b[i], List.getElem?_eq_getElem hi⟩
  obtain ⟨c, hc⟩ := hcell (e - 1) (by omega)
  obtain ⟨c', hc'⟩ := hcell host (by omega)
  have hend : ∃ e' : Nat, hostEnd b ((e : Int) - 1) l = some (e' : Int) ∧ q + 4 ≤ e' ∧ e' ≤ k := by
    simp only [hostEnd, he1, rd_nat, hc, Option.bind_eq_bind, Option.bind_some]
    split
    · exact ⟨l, rfl, by omega, hlk⟩
    · exact ⟨e - 1, rfl, by omega, by omega⟩
  obtain ⟨e', he', hge, hle⟩ := hend
  have he'1 : (e' : Int) - 1 = (e' - 1 : Nat) := by omega
  obtain ⟨c'', hc''⟩ := hcell (e' - 1) (by omega)
  simp only [hostRef, hl, hl1, he, he', he'1, rd_nat, hc', hc'', Option.bind_eq_bind,
    Option.bind_some]
  split
  · split <;> exact ⟨_, rfl⟩
  · exact ⟨_, rfl⟩

lemma hostRef_front (hr : r <+: b) {fuel : Nat} {host lEnd : Int} (hhost : host < r.length)
    (hl : lEnd ≤ r.length) : hostRef b fuel host lEnd = hostRef r fuel host lEnd := by
  unfold hostRef
  rw [trimBack_front hr fuel lEnd hl, rd_front hr hhost]
  cases htrim : trimBack isspace r fuel lEnd with
  | none => rfl
  | some l =>
    have hle := trimBack_le fuel htrim
    simp only [Option.bind_eq_bind, Option.bind_some]
    rw [trimBack_front hr fuel (l - 1) (by omega)]
    cases hdigit : trimBack isdigit r fuel (l - 1) with
    | none => rfl
    | some e =>
      have hle' := trimBack_le fuel hdigit
      have hend : hostEnd b (e - 1) l = hostEnd r (e - 1) l := by
        unfold hostEnd
        rw [rd_front hr (by omega)]
      simp only [Option.bind_some, hend]
      cases hcase : hostEnd r (e - 1) l with
      | none => rfl
      | some e' =>
        have hin : e' - 1 < r.length := by
          rcases hostEnd_cases hcase with h | h <;> omega
        simp only [Option.bind_some]
        rw [rd_front hr hin]

/-- A host that is found ends where its line does or before. -/
lemma hostRef_bound {fuel : Nat} {host lEnd : Int} {ref : HostRef}
    (h : hostRef b fuel host lEnd = some ref) (hlen : 0 < ref.len) :
    ∃ hs, ref.hs = some hs ∧ hs + ref.len ≤ lEnd := by
  simp only [hostRef, Option.bind_eq_bind, Option.bind_eq_some_iff] at h
  obtain ⟨l, hl, e, he, e', he', c, -, h⟩ := h
  have hle := trimBack_le fuel hl
  have hle' := trimBack_le fuel he
  have hend : e' ≤ lEnd := by
    rcases hostEnd_cases he' with h | h <;> omega
  split at h
  · simp only [Option.bind_eq_some_iff] at h
    obtain ⟨c', -, h⟩ := h
    split at h
    · cases h
      exact absurd hlen (by decide)
    · cases h
      refine ⟨_, rfl, ?_⟩
      dsimp only
      omega
  · cases h
    refine ⟨_, rfl, ?_⟩
    dsimp only
    omega

/-- A value that ends in such two bytes is a host with one of them at its end. -/
lemma hostRef_closed {x : UInt8} {n : Nat} (hx : b[n]? = some x)
    (hclose : b[n + 1]? = some (ch ']')) (hdigit : isdigit x = false) (hcolon : x ≠ ch ':')
    (hopen : x ≠ ch '[') (hhost : host ≤ n) (hin : host < b.length) (fuel : Nat) :
    ∃ ref hs, hostRef b (fuel + 1) host (n + 2 : Nat) = some ref ∧ ref.hs = some hs ∧
      0 < ref.len ∧ ((host : Int) ≤ hs) ∧
      ((hs + ref.len = n + 1) ∨ (hs + ref.len = n + 2 ∧ hs ≤ n)) := by
  have hl : trimBack isspace b (fuel + 1) ((n + 2 : Nat) : Int) = some ((n + 2 : Nat) : Int) :=
    trimBack_stop (i := n + 1) hclose (by decide)
  have he : trimBack isdigit b (fuel + 1) (((n + 2 : Nat) : Int) - 1) = some (((n : Int) + 1)) := by
    rw [show ((n + 2 : Nat) : Int) - 1 = (n : Int) + 1 by omega]
    exact trimBack_stop hx hdigit
  have hend : hostEnd b ((n : Int) + 1 - 1) ((n + 2 : Nat) : Int) = some ((n + 2 : Nat) : Int) := by
    rw [Int.add_sub_cancel]
    simp [hostEnd, rd_nat, hx, hcolon]
  have hlast : rd b (((n + 2 : Nat) : Int) - 1) = some (ch ']') := by
    rw [show ((n + 2 : Nat) : Int) - 1 = ((n + 1 : Nat) : Int) by omega, rd_nat, hclose]
  obtain ⟨c, hc⟩ : ∃ c, b[host]? = some c := ⟨_, List.getElem?_eq_getElem hin⟩
  simp only [hostRef, hl, he, hend, hlast, rd_nat, hc, Option.bind_eq_bind, Option.bind_some]
  by_cases hbracket : c = ch '['
  · have hne : host ≠ n := by
      rintro rfl
      exact hopen (Option.some.inj (hx.symm.trans hc) ▸ hbracket)
    rw [if_pos hbracket, if_neg (by simp)]
    refine ⟨_, _, rfl, rfl, ?_, by omega, .inl ?_⟩
    · change (0 : Int) < ((n + 2 : Nat) : Int) - 1 - (host + 1)
      omega
    · change (host : Int) + 1 + (((n + 2 : Nat) : Int) - 1 - (host + 1)) = n + 1
      omega
  · rw [if_neg hbracket]
    refine ⟨_, _, rfl, rfl, ?_, by omega, .inr ⟨?_, by omega⟩⟩
    · change (0 : Int) < ((n + 2 : Nat) : Int) - host
      omega
    · change (host : Int) + (((n + 2 : Nat) : Int) - host) = n + 2
      omega

end Line

end HostLine
