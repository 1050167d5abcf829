import NoZapret.ClientHello
import NoZapret.Library.Prefix
import NoZapret.PacketsSpec

/-!
# Resizing the payload of an encrypted ClientHello

`resize_ech_ext` on a block with a whole extension. The comparison of its payload with
`(uint16_t) -inc` cuts the payload off where it should grow, and where it shrinks
`memmove` is given the length from the shifted end.
-/

namespace EchResize

open Block ClientHello Packets PacketsSpec

/-- The extension at `offs`: eight bytes, `enc`, the length of the payload and the payload. -/
structure Ech (b : Bytes) (n skip offs encSz p : Nat) : Prop where
  found : findTlsExtOffset 0xfe0d b n skip = some offs
  nonzero : offs ≠ 0
  extLen : antohs b (offs + 2) = some (8 + encSz + 2 + p)
  encLen : antohs b (offs + 4 + 6) = some encSz
  payLen : antohs b (offs + 4 + 8 + encSz) = some p
  ends : offs + 4 + (8 + encSz + 2 + p) ≤ n
  inside : n ≤ b.length

/-- By how much the payload should grow. -/
def change (p : Nat) (inc : Int) : Int := if -(p : Int) ≤ inc then inc else -p

/-- What `resize_ech_ext` makes of `inc`. -/
def taken (p : Nat) (inc : Int) : Int := if p < u16 (-inc) then -(p : Int) else inc

/-- Both lengths change by `d`, what is behind the extension moves by `d`, and no byte from
`max n (n + d)` on is touched. -/
structure Resized (b : Bytes) (n skip offs encSz p : Nat) (inc d : Int) (b' : Bytes) : Prop where
  result : resizeEchExt b n skip inc = some (d, b')
  extLen : ∃ v : Nat, antohs b' (offs + 2) = some v ∧ (v : Int) = (8 + encSz + 2 + p : Nat) + d
  payLen : ∃ v : Nat, antohs b' (offs + 4 + 8 + encSz) = some v ∧ (v : Int) = p + d
  moved : ∀ i : Int, offs + 4 + (8 + encSz + 2 + p : Nat) ≤ i → i < n → rd b' (i + d) = rd b i
  within : (resizeEchExt (b.take (max (n : Int) (n + d)).toNat) n skip inc).isSome

section Front

variable {b r : Bytes} {i : Int} {type size skip : Nat}

lemma antohs_front (h : r <+: b) (hi : i + 1 < r.length) : antohs b i = antohs r i := by
  have h1 : rd b i = rd r i := rd_front h (by omega)
  have h2 : rd b (i + 1) = rd r (i + 1) := rd_front h hi
  simp only [antohs, h1, h2]

/-- The search reads below `size` only. -/
lemma findTlsExtFrom_front (h : r <+: b) (hsize : size ≤ r.length) (fuel : Nat) :
    findTlsExtFrom type b size fuel skip = findTlsExtFrom type r size fuel skip := by
  induction fuel generalizing skip with
  | zero => rfl
  | succ fuel ih =>
    unfold findTlsExtFrom
    split
    · have htype : antohs b skip = antohs r skip := antohs_front h (by omega)
      have hlen : antohs b ((skip : Int) + 2) = antohs r ((skip : Int) + 2) :=
        antohs_front h (by omega)
      simp only [htype, hlen, ih]
    · rfl

lemma findTlsExtOffset_front (h : r <+: b) (hsize : size ≤ r.length) :
    findTlsExtOffset type b size skip = findTlsExtOffset type r size skip := by
  unfold findTlsExtOffset
  split
  · rfl
  · have hlen : antohs b skip = antohs r skip := antohs_front h (by omega)
    rw [hlen]
    congr 1
    funext extLen
    refine findTlsExtFrom_front h ?_ _
    split <;> omega

end Front

section Still

variable {b : Bytes} {i : Int} {v : Nat}

lemma wr_same {c : UInt8} (h : rd b i = some c) : wr b i c = some b := by
  have hrange := rd_range h
  unfold wr
  rw [if_pos hrange]
  unfold rd at h
  rw [if_pos hrange.1] at h
  obtain ⟨hi, rfl⟩ := List.getElem?_eq_some_iff.mp h
  rw [List.set_getElem_self]

/-- A number that is there is written again. -/
lemma shtona_same (h : antohs b i = some v) : shtona b i v = some b := by
  have hlt := antohs_lt h
  simp only [antohs, Option.bind_eq_bind, Option.bind_eq_some_iff] at h
  obtain ⟨hi, hhi, lo, hlo, h⟩ := h
  cases h
  have hu : u16 ((hi.toNat * 256 + lo.toNat : Nat) : Int) = hi.toNat * 256 + lo.toNat := by
    unfold u16
    omega
  have h1 := hi.toNat_lt
  have h2 := lo.toNat_lt
  have hhigh : UInt8.ofNat ((hi.toNat * 256 + lo.toNat) / 256) = hi := by
    rw [show (hi.toNat * 256 + lo.toNat) / 256 = hi.toNat by omega, UInt8.ofNat_toNat]
  have hlow : UInt8.ofNat ((hi.toNat * 256 + lo.toNat) % 256) = lo := by
    rw [show (hi.toNat * 256 + lo.toNat) % 256 = lo.toNat by omega, UInt8.ofNat_toNat]
  simp only [shtona, hu, hhigh, hlow, wr_same hhi, Option.bind_eq_bind, Option.bind_some,
    wr_same hlo]

lemma memmove_same {len : Int} (hi : 0 ≤ i) (hlen : 0 ≤ len) (hfits : i + len ≤ b.length) :
    memmove b i i len = some b := by
  have hcut : b.take i.toNat ++ (b.drop i.toNat).take len.toNat ++ b.drop (i.toNat + len.toNat) =
      b := by
    rw [← List.drop_drop, List.append_assoc, List.take_append_drop, List.take_append_drop]
  have hsize : ((b.drop i.toNat).take len.toNat).length = len.toNat := by
    rw [List.length_take, List.length_drop]
    omega
  simp only [memmove, slice, Option.bind_eq_bind]
  rw [if_pos ⟨hi, hlen, hfits⟩, Option.bind_some]
  unfold blit
  rw [if_pos (by omega), hsize, hcut]

end Still

section Resize

variable {b r : Bytes} {n skip offs encSz p : Nat} {inc : Int}

lemma Ech.front (h : Ech b n skip offs encSz p) (hr : r <+: b) (hn : n ≤ r.length) :
    Ech r n skip offs encSz p := by
  have hends := h.ends
  refine ⟨?_, h.nonzero, ?_, ?_, ?_, hends, hn⟩
  · rw [← findTlsExtOffset_front hr hn]
    exact h.found
  · rw [← antohs_front hr (by omega)]
    exact h.extLen
  · rw [← antohs_front hr (by omega)]
    exact h.encLen
  · rw [← antohs_front hr (by omega)]
    exact h.payLen

/-- Short of two bytes of `enc` and payload together, nothing is done. -/
lemma resizeEchExt_eq (h : Ech b n skip offs encSz p) (inc : Int) :
    resizeEchExt b n skip inc = if encSz + p < 2 then some (0, b) else do
      let b ← shtona b (offs + 2) ((8 + encSz + 2 + p : Nat) + taken p inc)
      let b ← shtona b (offs + 4 + 8 + encSz) (p + taken p inc)
      let b ← memmove b (offs + 4 + (8 + encSz + 2 + p : Nat) + taken p inc)
        (offs + 4 + (8 + encSz + 2 + p : Nat))
        (n - (offs + 4 + (8 + encSz + 2 + p : Nat) + taken p inc))
      return (taken p inc, b) := by
  have hends := h.ends
  have hp := antohs_lt h.payLen
  have hpay : u16 (((8 + encSz + 2 + p : Nat) : Int) - (8 + encSz + 2)) = p := by
    unfold u16
    omega
  unfold resizeEchExt
  simp only [Int.toNat_natCast, h.found, Option.bind_eq_bind, Option.bind_some, h.nonzero, if_false,
    h.extLen]
  by_cases hsmall : encSz + p < 2
  · rw [if_pos hsmall, if_pos (by omega)]
    rfl
  · rw [if_neg hsmall, if_neg (by omega)]
    simp only [h.encLen, Option.bind_some, hpay]
    rw [if_neg (by omega)]
    rfl

lemma change_eq_zero : change p inc = 0 ↔ inc = 0 ∨ p = 0 ∧ inc < 0 := by
  unfold change
  split <;> omega

/-- With nothing to change the block stays. -/
lemma resizeEchExt_still (h : Ech b n skip offs encSz p) (hsame : encSz + p < 2 ∨ taken p inc = 0) :
    resizeEchExt b n skip inc = some (0, b) := by
  have hends := h.ends
  have hinside := h.inside
  rw [resizeEchExt_eq h]
  split
  · rfl
  · rename_i hsmall
    have htaken : taken p inc = 0 := hsame.resolve_left hsmall
    have hlen := h.extLen
    rw [htaken]
    simp only [Int.add_zero]
    rw [shtona_same hlen, Option.bind_eq_bind, Option.bind_some, shtona_same h.payLen,
      Option.bind_some, memmove_same (by omega) (by omega) (by omega)]
    rfl

/-- In a block of `n` bytes, bytes are missing where the payload is to shrink. -/
lemma resizeEchExt_short (h : Ech b n skip offs encSz p) (hn : b.length = n)
    (hlarge : ¬ encSz + p < 2) (hneg : taken p inc < 0) : resizeEchExt b n skip inc = none := by
  rw [resizeEchExt_eq h, if_neg hlarge]
  cases hresult : (do
      let b ← shtona b (offs + 2) ((8 + encSz + 2 + p : Nat) + taken p inc)
      let b ← shtona b (offs + 4 + 8 + encSz) (p + taken p inc)
      let b ← memmove b (offs + 4 + (8 + encSz + 2 + p : Nat) + taken p inc)
        (offs + 4 + (8 + encSz + 2 + p : Nat))
        (n - (offs + 4 + (8 + encSz + 2 + p : Nat) + taken p inc))
      return (taken p inc, b)) with
  | none => rfl
  | some r =>
    exfalso
    simp only [Option.bind_eq_bind, Option.bind_eq_some_iff] at hresult
    obtain ⟨b₁, h₁, b₂, h₂, b₃, h₃, -⟩ := hresult
    have hlength : b₂.length = n := by
      rw [shtona_length h₂, shtona_length h₁, hn]
    simp only [memmove, Option.bind_eq_bind, Option.bind_eq_some_iff] at h₃
    obtain ⟨xs, hxs, -⟩ := h₃
    unfold slice at hxs
    split at hxs
    · omega
    · cases hxs

/-- A call does what it should exactly when the payload has not to change at all and what `inc`
has in 16 bits does not stand in the way, whether the result fits or not. -/
theorem resized_iff (h : Ech b n skip offs encSz p) :
    (∃ b', Resized b n skip offs encSz p inc (change p inc) b') ↔
      inc = 0 ∨ p = 0 ∧ inc < 0 ∧ (encSz < 2 ∨ ¬ (65536 : Int) ∣ inc) := by
  have hinside := h.inside
  have hstill : change p inc = 0 → (encSz + p < 2 ∨ taken p inc = 0) →
      ∃ b', Resized b n skip offs encSz p inc (change p inc) b' := by
    intro hzero hsame
    have hmax : (max (n : Int) (n + change p inc)).toNat = n := by
      omega
    refine ⟨b, ?_, ⟨_, h.extLen, ?_⟩, ⟨_, h.payLen, ?_⟩, ?_, ?_⟩
    · rw [resizeEchExt_still h hsame, hzero]
    · omega
    · omega
    · intro i _ _
      rw [hzero, Int.add_zero]
    · have hfront := h.front (List.take_prefix n b) (by rw [List.length_take]; omega)
      rw [hmax, resizeEchExt_still hfront hsame]
      rfl
  constructor
  · rintro ⟨b', hr⟩
    have hresult := hr.result
    rw [resizeEchExt_eq h] at hresult
    split at hresult
    · rename_i hsmall
      have hzero : change p inc = 0 := by
        simpa using (congrArg Prod.fst (Option.some.inj hresult)).symm
      rcases change_eq_zero.mp hzero with hinc | ⟨hp, hinc⟩
      · exact .inl hinc
      · exact .inr ⟨hp, hinc, .inl (by omega)⟩
    · rename_i hlarge
      simp only [Option.bind_eq_bind, Option.bind_eq_some_iff] at hresult
      obtain ⟨b₁, -, b₂, -, b₃, -, heq⟩ := hresult
      have htaken : taken p inc = change p inc := congrArg Prod.fst (Option.some.inj heq)
      rcases Int.lt_trichotomy (change p inc) 0 with hneg | hzero | hpos
      · exfalso
        have hfront := h.front (List.take_prefix n b) (by rw [List.length_take]; omega)
        have hmax : (max (n : Int) (n + change p inc)).toNat = n := by
          omega
        have hwithin := hr.within
        rw [hmax, resizeEchExt_short hfront (by rw [List.length_take]; omega) hlarge
          (by omega)] at hwithin
        cases hwithin
      · rcases change_eq_zero.mp hzero with hinc | ⟨hp, hinc⟩
        · exact .inl hinc
        · refine .inr ⟨hp, hinc, .inr ?_⟩
          intro hdvd
          rw [hzero] at htaken
          unfold taken u16 at htaken
          split at htaken <;> omega
      · exfalso
        obtain ⟨v, hv, hsum⟩ := hr.payLen
        have hlt := antohs_lt hv
        unfold taken u16 at htaken
        unfold change at htaken hpos hsum
        split at htaken <;> split at htaken <;> omega
  · rintro (hinc | ⟨hp, hinc, hcase⟩)
    · refine hstill (change_eq_zero.mpr (.inl hinc)) (.inr ?_)
      unfold taken u16
      split <;> omega
    · refine hstill (change_eq_zero.mpr (.inr ⟨hp, hinc⟩)) ?_
      rcases hcase with hsmall | hdvd
      · exact .inl (by omega)
      · right
        unfold taken u16
        split <;> omega

end Resize

/-- An extension of twenty bytes with `enc` of two bytes and a payload of four, two bytes behind
it and room for eight more. -/
def echBlock : Bytes :=
  [0, 22, 0xfe, 0x0d, 0, 16, 0, 0, 0, 0, 0, 0, 0, 2, 7, 7, 0, 4, 1, 2, 3, 4, 5, 6] ++
    List.replicate 8 0

lemma echBlock_ech : Ech echBlock 24 0 2 2 4 where
  found := by decide
  nonzero := by decide
  extLen := by decide
  encLen := by decide
  payLen := by decide
  ends := by decide
  inside := by decide

/-- Where the payload should grow by two, it is dropped. -/
theorem echBlock_grows :
    (∃ b', Resized echBlock 24 0 2 2 4 2 (change 4 2) b') ↔
      (2 : Int) = 0 ∨ 4 = 0 ∧ (2 : Int) < 0 ∧ (2 < 2 ∨ ¬ (65536 : Int) ∣ 2) :=
  resized_iff echBlock_ech

theorem echBlock_not_resized :
    ¬ ∀ (b : Bytes) (n skip offs encSz p : Nat) (inc : Int), Ech b n skip offs encSz p →
      n + change p inc ≤ b.length → ∃ b', Resized b n skip offs encSz p inc (change p inc) b' := by
  intro h
  obtain ⟨b', hr⟩ := h echBlock 24 0 2 2 4 2 echBlock_ech (by decide)
  have hcode : (resizeEchExt echBlock (24 : Nat) 0 2).map Prod.fst = some (-4) := by decide
  rw [hr.result, Option.map_some] at hcode
  have hgiven : change 4 2 = -4 := Option.some.inj hcode
  exact absurd hgiven (by decide)

end EchResize
