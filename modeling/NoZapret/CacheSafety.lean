import Mathlib.Data.List.DropRight
import NoZapret.CacheRoundTrip

/-!
# Loading any text

What a round of `load_cache` may do to the cache, whatever the file says, and which lines keep it
to that. `fscanf` is only asked for its first field, so the others may be missing, or stand on the
next line.
-/

namespace CacheSafety

open BitPool Block CacheFile CachePool CacheRoundTrip CacheRuns Inet Packets PrefixOrder Scanf SearchTree

/-- The host of a line; a word of one byte stands for none. -/
def lineHost (word : Bytes) : Option Bytes :=
  if (stringOf word).length > 1 then some (stringOf word) else none

/-- What `fscanf` has read stands on one line, up to its last field. -/
def OneLine (text rest : Bytes) : Prop :=
  ch '\n' ∉ (text.take (text.length - rest.length)).rdropWhile isspace

/-- The element has what a whole line says, and a key of a sane length. -/
inductive Taken (I : Pton) (text : Bytes) (v : Elem Val) : Prop where
  | intro {word host rest : Bytes} {bitlen time : Int} {port : UInt16} {addr : Addr}
      (scan : scanLine text = (⟨some word, some bitlen, some port, some time, some host⟩, rest))
      (line : OneLine text rest) (isAddr : I.addr (stringOf word) = some addr)
      (covers : v.key.bits <+: bitsOf (serializeAddr ⟨addr, port⟩))
      (long : 32 ≤ v.key.len) (fits : v.key.len ≤ 8 * v.key.data.length)
      (hasPort : slice v.key.data 2 2 = some (portBytes port)) (hasTime : v.val.time = time)
      (hasHost : hostOf v = lineHost host)

/-- A round leaves the cache as it is, or one element has been taken from a line. -/
def RoundSafe (I : Pton) (text : Bytes) (hdr hdr' : Pool Val) : Prop :=
  hdr' = hdr ∨ ∃ v ∈ hdr'.root.inorder, Taken I text v ∧
    ∀ x ∈ hdr'.root.inorder, x = v ∨ x ∈ hdr.root.inorder

section Loading

variable (K : Balance (Elem Val)) (I : Pton) (dp : Nat) (junk : Nat → Junk)

/-- The loop of `load_cache` comes to its end, and every round is safe. -/
def LoadsSafely : Nat → Nat → Pool Val → Bytes → Prop
  | 0, _, _, _ => False
  | fuel + 1, i, hdr, text =>
    match loadRound K I dp (junk i) hdr text with
    | none => False
    | some none => True
    | some (some (hdr', text')) =>
      RoundSafe I text hdr hdr' ∧ LoadsSafely fuel (i + 1) hdr' text'

/-- The line of a round: its bit length, whether it was read or not, is no number at the end of
`int`; and where the length suits an address that was read, it is not negative, all fields stand on
one line, and a host of one byte is not read for an entry that has a host. -/
def GoodLine (junk : Junk) (hdr : Pool Val) (text : Bytes) : Prop :=
  let f := (scanLine text).1
  let bitlen := f.bitlen.getD junk.bitlen
  ∀ word, f.addr = some word → bitlen + 32 < 2 ^ 31 ∧
    ∀ addr, I.addr (stringOf word) = some addr → bitlen ≤ 8 * addr.family.size →
      0 ≤ bitlen ∧ OneLine text (scanLine text).2 ∧
      ∃ port host, f.port = some port ∧ f.host = some host ∧
        (lineHost host = none → ∀ x ∈ hdr.root.inorder,
          x.key.bits <+: (⟨bitlen + 32, serializeAddr ⟨addr, port⟩⟩ : Key).bits →
            x.val.extra = none)

/-- Every round that the loop comes to has a good line. -/
def GoodLines : Nat → Nat → Pool Val → Bytes → Prop
  | 0, _, _, _ => True
  | fuel + 1, i, hdr, text => GoodLine I (junk i) hdr text ∧
    ∀ hdr' text', loadRound K I dp (junk i) hdr text = some (some (hdr', text')) →
      GoodLines fuel (i + 1) hdr' text'

end Loading

/-- What holds of a cache before and after a good load. -/
structure Sane (hdr : Pool Val) : Prop where
  sound : Sound hdr []
  long : ∀ e ∈ hdr.root.inorder, 32 ≤ e.key.len

section Rounds

variable {K : Balance (Elem Val)} {I : Pton} {dp : Nat} {junk : Junk} {hdr hdr' : Pool Val}
  {text rest : Bytes} {f : Fields} {word : Bytes} {addr : Addr} {len : Int} {dst : Dst}

lemma loadRound_done (hscan : scanLine text = (f, rest)) (hword : f.addr = none) :
    loadRound K I dp junk hdr text = some none := by
  simp [loadRound, hscan, hword]

lemma loadRound_overflow (hscan : scanLine text = (f, rest)) (hword : f.addr = some word)
    (hsum : intSum (f.bitlen.getD junk.bitlen) (4 * 8) = none) :
    loadRound K I dp junk hdr text = none := by
  simp only [loadRound, hscan, hword, hsum, Option.bind_eq_bind, Option.bind_none]

lemma loadRound_skip (hscan : scanLine text = (f, rest)) (hword : f.addr = some word)
    (hsum : intSum (f.bitlen.getD junk.bitlen) (4 * 8) = some len)
    (h : ∀ addr, I.addr (stringOf word) = some addr → 4 * 8 + 8 * addr.family.size < len) :
    loadRound K I dp junk hdr text = some (some (hdr, rest)) := by
  cases haddr : I.addr (stringOf word) with
  | none =>
    simp only [loadRound, hscan, hword, hsum, haddr, Option.bind_eq_bind, Option.bind_some,
      Option.pure_def]
  | some addr =>
    have hlong := h addr haddr
    have hlen := serializeAddr_length ⟨addr, f.port.getD junk.port⟩
    have hskip : ((serializeAddr ⟨addr, f.port.getD junk.port⟩).length : Int) * 8 < len := by
      simp only at hlen
      omega
    simp only [loadRound, hscan, hword, hsum, haddr, hskip, if_true, Option.bind_eq_bind,
      Option.bind_some, Option.pure_def]

/-- The round of a line that is stored. -/
lemma loadRound_store (hscan : scanLine text = (f, rest)) (hword : f.addr = some word)
    (hsum : intSum (f.bitlen.getD junk.bitlen) (4 * 8) = some len)
    (haddr : I.addr (stringOf word) = some addr) (hlen : len ≤ 4 * 8 + 8 * addr.family.size) :
    loadRound K I dp junk hdr text =
      (memAdd K hdr.malloc.2 {} ⟨len, serializeAddr ⟨addr, f.port.getD junk.port⟩⟩ hdr.malloc.1
        true).bind fun r =>
        r.2.elim (some none) fun e => some (some (r.1.update e (loaded dp e.val
          (f.time.getD junk.time) (stringOf (f.host.getD []))), rest)) := by
  have hlength := serializeAddr_length ⟨addr, f.port.getD junk.port⟩
  have hfits : ¬ ((serializeAddr ⟨addr, f.port.getD junk.port⟩).length : Int) * 8 < len := by
    simp only at hlength
    omega
  simp only [loadRound, hscan, hword, hsum, haddr, hfits, if_false, Option.bind_eq_bind,
    Option.bind_some]
  congr 1
  funext r
  cases r.2 <;> rfl

/-- A key that begins with the first 32 bits of a destination has its port. -/
lemma port_of_covers {key : Key} (hfits : key.Fits) (hlong : 32 ≤ key.len)
    (h : key.bits <+: bitsOf (serializeAddr dst)) :
    slice key.data 2 2 = some (portBytes dst.port) := by
  have hfit := hfits.fits
  have hlen := serializeAddr_length dst
  have hfour : (bitsOf key.data).take 32 = (bitsOf (serializeAddr dst)).take 32 := by
    have hlength := hfits.bits_length
    have hcut : key.bits.take 32 = (bitsOf key.data).take 32 := by
      rw [Key.bits, List.take_take, Nat.min_eq_left (by omega)]
    rw [← hcut, List.prefix_iff_eq_take.mp h, List.take_take, Nat.min_eq_left (by omega)]
  have hbytes : key.data.take 4 = (serializeAddr dst).take 4 := by
    apply bitsOf_inj
    · rw [List.length_take, List.length_take]
      omega
    · have h1 := bitsOf_take (d := key.data) (n := 4) (by omega) 0
      have h2 := bitsOf_take (d := serializeAddr dst) (n := 4) (by omega) 0
      rw [List.take_zero, List.append_nil] at h1 h2
      rw [← h1, ← h2]
      exact hfour
  have hslice := slice_nat (b := key.data) (i := 2) (n := 2) (by omega)
  have htwo : (key.data.drop 2).take 2 = (key.data.take 4).drop 2 := by
    rw [List.drop_take]
  rw [htwo, hbytes] at hslice
  refine hslice.trans ?_
  cases hfamily : dst.addr.family <;> simp [serializeAddr, familyBytes, portBytes, hfamily]

/-- The sum of the bit length and the offset, where it is an `int`. -/
lemma intSum_eq (hscan : scanLine text = (f, rest)) (hlt : f.bitlen.getD junk.bitlen + 32 < 2 ^ 31) :
    intSum (f.bitlen.getD junk.bitlen) (4 * 8) = some (f.bitlen.getD junk.bitlen + 32) := by
  have hrange : -2 ^ 31 ≤ f.bitlen.getD junk.bitlen := by
    cases hbits : f.bitlen with
    | none => exact junk.range.1
    | some b => exact ((scanLine_spec hscan).range b hbits).1
  rw [intSum, if_pos (by omega)]
  rfl

/-- What the round of a good line leaves. -/
lemma store_safe (dp : Nat) {word host : Bytes} {bitlen time : Int} {port : UInt16} (h : Sane hdr)
    (hscan : scanLine text = (⟨some word, some bitlen, some port, some time, some host⟩, rest))
    (hline : OneLine text rest) (haddr : I.addr (stringOf word) = some addr) (hnonneg : 0 ≤ bitlen)
    (hshort : lineHost host = none → ∀ x ∈ hdr.root.inorder,
      x.key.bits <+: (⟨bitlen + 32, serializeAddr ⟨addr, port⟩⟩ : Key).bits → x.val.extra = none)
    {mid : Pool Val} {v e : Elem Val} (hsound : Sound mid []) (hadded : Added hdr mid e v)
    (hkey : e.key = ⟨bitlen + 32, serializeAddr ⟨addr, port⟩⟩) (hval : e.val = {}) :
    Sane (mid.update v (loaded dp v.val time (stringOf host))) ∧
      RoundSafe I text hdr (mid.update v (loaded dp v.val time (stringOf host))) := by
  have hlong : ∀ x ∈ mid.root.inorder, 32 ≤ x.key.len := by
    intro x hx
    rcases hadded.sub x hx with rfl | hx
    · rw [hkey]
      simp only
      omega
    · exact h.long x hx
  have hcovers : v.key.bits <+: bitsOf (serializeAddr ⟨addr, port⟩) := by
    refine hadded.covers.trans ?_
    rw [hkey]
    exact List.take_prefix _ _
  have hextra : lineHost host = none → v.val.extra = none := by
    intro hnone
    rcases hadded.sub v hadded.mem with rfl | hv
    · rw [hval]
    · exact hshort hnone v hv (hkey ▸ hadded.covers)
  refine ⟨⟨update_sound hsound _ _, ?_⟩, .inr ⟨{ v with val := loaded dp v.val time (stringOf host) },
    mem_update_self hadded.mem _, ?_, ?_⟩⟩
  · intro x hx
    rcases mem_update hx with ⟨hx, -⟩ | ⟨y, hy, -, rfl⟩
    · exact hlong x hx
    · exact hlong y hy
  · refine .intro hscan hline haddr hcovers (hlong v hadded.mem) (hsound.fits v hadded.mem).fits
      (port_of_covers (hsound.fits v hadded.mem) (hlong v hadded.mem) hcovers) rfl ?_
    by_cases hword : (stringOf host).length > 1
    · simp [hostOf, loaded, lineHost, hword]
    · have hnone : lineHost host = none := by simp [lineHost, hword]
      simp [hostOf, loaded, hword, hextra hnone, hnone]
  · intro x hx
    rcases mem_update hx with ⟨hx, hblock⟩ | ⟨y, hy, hblock, rfl⟩
    · rcases hadded.sub x hx with rfl | hold
      · cases hsound.antichain.compat_unique hx hadded.mem (.inr hadded.covers)
        exact absurd rfl hblock
      · exact .inr hold
    · cases hsound.block_inj hy hadded.mem hblock
      exact .inl rfl

/-- A good line ends the loading, or it is safe and the loop goes on behind it. -/
theorem good_round (K : Balance (Elem Val)) (dp : Nat) (h : Sane hdr) (hgood : GoodLine I junk hdr text) :
    loadRound K I dp junk hdr text = some none ∨
      ∃ hdr' rest, loadRound K I dp junk hdr text = some (some (hdr', rest)) ∧
        rest.length < text.length ∧ Sane hdr' ∧ RoundSafe I text hdr hdr' := by
  obtain ⟨f, rest, hscan⟩ : ∃ f rest, scanLine text = (f, rest) := ⟨_, _, rfl⟩
  simp only [GoodLine, hscan] at hgood
  cases hword : f.addr with
  | none => exact .inl (loadRound_done hscan hword)
  | some word =>
    right
    have hshorter := (scanLine_spec hscan).shorter word hword
    obtain ⟨hlt, hline⟩ := hgood word hword
    have hsum := intSum_eq hscan hlt
    by_cases hskip : ∀ addr, I.addr (stringOf word) = some addr →
        4 * 8 + 8 * addr.family.size < f.bitlen.getD junk.bitlen + 32
    · exact ⟨hdr, rest, loadRound_skip hscan hword hsum hskip, hshorter, h, .inl rfl⟩
    · simp only [not_forall, Int.not_lt] at hskip
      obtain ⟨addr, haddr, hle⟩ := hskip
      obtain ⟨hnonneg, hone, port, host, hport, hhost, hshort⟩ := hline addr haddr (by omega)
      obtain ⟨⟨word', bitlen, port', time, rfl⟩, -⟩ := (scanLine_spec hscan).whole host hhost
      cases hword
      cases hport
      simp only [Option.getD_some] at *
      have hlength := serializeAddr_length ⟨addr, port⟩
      obtain ⟨mid, r, hadd, hspec⟩ := memAdd_spec (K := K) {} true (malloc_sound h.sound)
        (k := ⟨bitlen + 32, serializeAddr ⟨addr, port⟩⟩)
        ⟨by simp only; omega, by simp only at hlength ⊢; omega⟩
      cases r with
      | none =>
        obtain ⟨hroom, -⟩ := hspec
        cases hroom
      | some v =>
        obtain ⟨hsound, hadded⟩ := hspec
        have hadded' : Added hdr mid _ v :=
          ⟨hadded.mem, hadded.covers, hadded.sub, hadded.keeps⟩
        obtain ⟨hsane, hsafe⟩ :=
          store_safe dp h hscan hone haddr hnonneg hshort hsound hadded' rfl rfl
        refine ⟨_, rest, ?_, hshorter, hsane, hsafe⟩
        rw [loadRound_store hscan rfl hsum haddr hle]
        simp only [Option.getD_some, hadd, Option.bind_some, Option.elim_some]

/-- A round that goes on and is safe had a good line. -/
theorem safe_good (h : Sane hdr) (hround : loadRound K I dp junk hdr text = some (some (hdr', rest)))
    (hsafe : RoundSafe I text hdr hdr') : GoodLine I junk hdr text := by
  obtain ⟨f, rest', hscan⟩ : ∃ f rest, scanLine text = (f, rest) := ⟨_, _, rfl⟩
  intro word hword
  simp only [hscan] at hword ⊢
  have hlt : f.bitlen.getD junk.bitlen + 32 < 2 ^ 31 := by
    by_contra hover
    have hsum : intSum (f.bitlen.getD junk.bitlen) (4 * 8) = none := by
      rw [intSum, if_neg (by omega)]
    rw [loadRound_overflow hscan hword hsum] at hround
    cases hround
  refine ⟨hlt, ?_⟩
  intro addr haddr hle
  have hsum := intSum_eq hscan hlt
  rw [loadRound_store hscan hword hsum haddr (by omega)] at hround
  obtain ⟨⟨mid, r⟩, hadd, hend⟩ := Option.bind_eq_some_iff.mp hround
  cases r with
  | none => cases hend
  | some v =>
    cases hend
    have hret := memAdd_returned hadd
    -- two blocks have been allocated, so something has changed
    have hchanged : mid.update v (loaded dp v.val (f.time.getD junk.time)
        (stringOf (f.host.getD []))) ≠ hdr := by
      intro heq
      have hnext := congrArg Pool.next heq
      have hnext' : mid.next = hdr.next := hnext
      rw [hret.next] at hnext'
      simp only [Pool.malloc] at hnext'
      omega
    obtain ⟨w, hw, htaken, honly⟩ := hsafe.resolve_left hchanged
    cases htaken with
    | @intro word' host rest'' bitlen time port addr' hscan' hline haddr' hcovers hlong hfits hport
        htime hhost =>
      cases hscan.symm.trans hscan'
      cases hword
      cases haddr.symm.trans haddr'
      simp only [Option.getD_some] at *
      have hself := mem_update_self hret.mem (loaded dp v.val time (stringOf host))
      have hnonneg : 0 ≤ bitlen := by
        by_contra hneg
        have hold : ∀ x ∈ hdr.root.inorder, ¬ x.key.len ≤ bitlen + 32 := by
          intro x hx hle
          have := h.long x hx
          omega
        have hnew : v.key.len = bitlen + 32 := by
          rcases hret.old with rfl | ⟨hv, hvlen⟩
          · rfl
          · exact absurd hvlen (hold v hv)
        rcases honly _ hself with heq | hmem
        · rw [← heq] at hlong
          simp only at hlong
          omega
        · exact hold _ hmem (by simp only; omega)
      refine ⟨hnonneg, hline, port, host, rfl, rfl, ?_⟩
      intro hnone x hx hpre
      obtain ⟨mid', r, hadd', hspec⟩ := memAdd_spec (K := K) {} true (malloc_sound h.sound)
        (k := ⟨bitlen + 32, serializeAddr ⟨addr, port⟩⟩)
        ⟨by simp only; omega, by
          have hlength := serializeAddr_length ⟨addr, port⟩
          simp only at hlength ⊢
          omega⟩
      cases hadd.symm.trans hadd'
      obtain ⟨hsound, hadded⟩ := hspec
      -- the shorter key of `x` is found, and `x` is written to
      have hxmid : x ∈ mid.root.inorder := by
        rcases hadded.keeps x hx with hxmid | ⟨hback, hlonger⟩
        · exact hxmid
        · exfalso
          have hbits := (h.sound.fits x hx).bits_length
          have hle := hpre.length_le
          have hkeylen : (⟨bitlen + 32, serializeAddr ⟨addr, port⟩⟩ : Key).bits.length ≤
              (bitlen + 32).toNat := by
            rw [Key.bits]
            exact List.length_take_le _ _
          simp only at hlonger
          omega
      have hvx : v = x :=
        hsound.antichain.compat_unique hret.mem hxmid
          (List.prefix_or_prefix_of_prefix hadded.covers hpre)
      have hboth := update_sound hsound v (loaded dp v.val time (stringOf host))
      have hwv : w = { v with val := loaded dp v.val time (stringOf host) } := by
        refine hboth.antichain.compat_unique hw hself ?_
        exact List.prefix_or_prefix_of_prefix hcovers (hadded.covers.trans (List.take_prefix _ _))
      have hshort : ¬ (stringOf host).length > 1 := by
        intro hword
        simp [lineHost, hword] at hnone
      rw [hwv, hnone] at hhost
      simpa [hostOf, loaded, hshort, hvx] using hhost

/-- The loading ends where no address is read. -/
lemma done_good (hround : loadRound K I dp junk hdr text = some none) :
    GoodLine I junk hdr text := by
  intro word hword
  exfalso
  unfold loadRound at hround
  cases hscan : scanLine text with
  | mk f rest =>
    simp only [hscan] at hword
    simp only [hscan, hword, Option.bind_eq_bind, Option.bind_eq_some_iff] at hround
    obtain ⟨len, -, hround⟩ := hround
    split at hround
    · split at hround
      · cases hround
      · simp only [Option.bind_eq_some_iff] at hround
        obtain ⟨⟨mid, r⟩, hadd, hend⟩ := hround
        cases r with
        | none =>
          obtain ⟨hroom, -⟩ := memAdd_none hadd
          cases hroom
        | some v => cases hend
    · cases hround

end Rounds

section Whole

variable {K : Balance (Elem Val)} {I : Pton} {dp : Nat} {junk : Nat → Junk}

/-- A safe load begins with a good line. -/
lemma loads_good {fuel i : Nat} {hdr : Pool Val} {text : Bytes} (h : Sane hdr)
    (hsafe : LoadsSafely K I dp junk fuel i hdr text) : GoodLine I (junk i) hdr text := by
  cases fuel with
  | zero => exact hsafe.elim
  | succ fuel =>
    simp only [LoadsSafely] at hsafe
    cases hround : loadRound K I dp (junk i) hdr text with
    | none =>
      rw [hround] at hsafe
      exact hsafe.elim
    | some next =>
      cases next with
      | none => exact done_good hround
      | some next =>
        rw [hround] at hsafe
        exact safe_good h hround hsafe.1

/-- What is loaded is safe as long as the lines are good, and no longer. -/
theorem rounds_iff (K : Balance (Elem Val)) (I : Pton) (dp : Nat) (junk : Nat → Junk)
    {fuel i : Nat} {hdr : Pool Val} {text : Bytes} (h : Sane hdr) (hfuel : text.length < fuel) :
    LoadsSafely K I dp junk fuel i hdr text ↔ GoodLines K I dp junk fuel i hdr text := by
  induction fuel generalizing i hdr text with
  | zero => omega
  | succ fuel ih =>
    constructor
    · intro hsafe
      have hgood := loads_good h hsafe
      refine ⟨hgood, ?_⟩
      intro hdr' rest hround
      simp only [LoadsSafely, hround] at hsafe
      rcases good_round K dp h hgood with
        hdone | ⟨mid, rest', hround', hlen, hsane, -⟩
      · cases hround.symm.trans hdone
      · cases hround.symm.trans hround'
        exact (ih hsane (by omega)).mp hsafe.2
    · rintro ⟨hgood, hnext⟩
      simp only [LoadsSafely]
      rcases good_round K dp h hgood with
        hdone | ⟨hdr', rest, hround, hlen, hsane, hsafe⟩
      · rw [hdone]
        trivial
      · rw [hround]
        exact ⟨hsafe, (ih hsane (by omega)).mpr (hnext hdr' rest hround)⟩

lemma loads_return {fuel i : Nat} {hdr : Pool Val} {text : Bytes}
    (h : LoadsSafely K I dp junk fuel i hdr text) :
    ∃ hdr', loadLoop K I dp junk fuel i hdr text = some hdr' := by
  induction fuel generalizing i hdr text with
  | zero => exact h.elim
  | succ fuel ih =>
    simp only [LoadsSafely] at h
    cases hround : loadRound K I dp (junk i) hdr text with
    | none =>
      rw [hround] at h
      exact h.elim
    | some next =>
      rw [hround] at h
      cases next with
      | none => exact ⟨hdr, by simp [loadLoop, hround]⟩
      | some next =>
        obtain ⟨hdr'', hloop⟩ := ih h.2
        exact ⟨hdr'', by simpa [loadLoop, hround] using hloop⟩

/-- A cache to load into. -/
structure Target where
  hdr : Pool Val
  sane : Sane hdr

/-- `load_cache` returns, and has only taken elements from whole lines. -/
def SafeLoad (K : Balance (Elem Val)) (I : Pton) (dp : Nat) (junk : Nat → Junk) (T : Target)
    (text : Bytes) : Prop :=
  (∃ hdr', loadCache K I dp junk T.hdr text = some hdr') ∧
    LoadsSafely K I dp junk (text.length + 1) 0 T.hdr text

theorem safe_load_iff (K : Balance (Elem Val)) (I : Pton) (dp : Nat) (junk : Nat → Junk)
    (T : Target) (text : Bytes) :
    SafeLoad K I dp junk T text ↔ GoodLines K I dp junk (text.length + 1) 0 T.hdr text := by
  rw [← rounds_iff K I dp junk T.sane (Nat.lt_succ_self _)]
  constructor
  · exact fun h => h.2
  · exact fun h => ⟨loads_return h, h⟩

/-- An empty cache. -/
def fresh : Target := ⟨{}, ⟨empty_sound, by simp⟩⟩

/-- The text `0 1.2.3.4`, whose other fields are missing. -/
def cutLine : Bytes := ascii ['0', ' ', '1', '.', '2', '.', '3', '.', '4', '\n']

/-- It is stored with whatever the variables hold, here a whole address and the port 80. -/
theorem cut_line_loaded :
    ¬ SafeLoad ⟨id, fun _ => rfl⟩ full.toPton 0 (fun _ => ⟨32, 80, 0, by decide⟩) fresh cutLine := by
  rintro ⟨-, h⟩
  have hscan : scanLine cutLine = (⟨some (ascii ['1', '.', '2', '.', '3', '.', '4']), none, none,
      none, none⟩, []) := rfl
  have hgood := loads_good fresh.sane h
  simp only [GoodLine, hscan] at hgood
  obtain ⟨-, hline⟩ := hgood _ rfl
  have haddr : full.addr (stringOf (ascii ['1', '.', '2', '.', '3', '.', '4'])) =
      some ⟨.inet, [1, 2, 3, 4], rfl⟩ :=
    full.addr_text ⟨.inet, [1, 2, 3, 4], rfl⟩
  obtain ⟨-, -, port, host, hport, -⟩ := hline _ haddr (by decide)
  cases hport

end Whole

end CacheSafety
