import NoZapret.CacheFile
import NoZapret.CacheRuns

/-!
# Dumping and loading a cache

`load_cache` on what `dump_cache` wrote for a group. The host names are what can go wrong: they
come from requests as they are, and the reader takes a word of two to 255 characters.
-/

namespace CacheRoundTrip

open BitPool Block CacheFile CachePool CacheRuns Inet Packets PrefixOrder Runs Scanf SearchTree

/-- What the cache keeps of a host name. -/
def hostOf (e : Elem Val) : Option Bytes := e.val.extra.map fun b => b.take e.val.extraLen

/-- An entry as its users see it: family, port and address are the bytes of the key. -/
def record (e : Elem Val) : Key × Int × Option Bytes := (e.key, e.val.time, hostOf e)

/-- A text without blanks and NULs, of at most 255 bytes. -/
def Clean (h : Bytes) : Prop := (∀ c ∈ h, isspace c = false ∧ c ≠ 0) ∧ h.length ≤ 255

/-- The word that stands for the host in the file. -/
def wordOf (e : Elem Val) : Bytes := (hostOf e).getD [ch '-']

/-- The line of an entry whose host is clean. -/
def line (I : Ntop) (e : Elem Val) (dst : Dst) : Bytes :=
  ch '0' :: ch ' ' :: (I.text dst.addr ++ ch ' ' :: (decimal (e.key.len - 32) ++
    ch ' ' :: (decimal dst.port.toNat ++ ch ' ' :: (decimal e.val.time ++
    ch ' ' :: (wordOf e ++ [ch '\n'])))))

/-- An entry as it comes back: a host of one byte is taken for none. -/
def reloaded (e : Elem Val) : Key × Int × Option Bytes :=
  (e.key, e.val.time, (hostOf e).filter fun h => 1 < h.length)

section Lines

variable {I : Ntop} {e : Elem Val} {dst : Dst} {h rest text : Bytes}

lemma isspace_blank : isspace (ch ' ') = true := rfl

lemma skipBlanks_blank (text : Bytes) : skipBlanks (ch ' ' :: text) = skipBlanks text := rfl

lemma skipBlanks_word {c : UInt8} (hc : isspace c = false) :
    skipBlanks (c :: text) = c :: text := by
  simp [skipBlanks, hc]

/-- The text of an address is a word of its own. -/
lemma text_plain (I : Ntop) (a : Addr) :
    I.text a ≠ [] ∧ (I.text a).length < 40 ∧ ∀ c ∈ I.text a, isspace c = false ∧ c ≠ 0 := by
  refine ⟨I.ntop_ne a.length_eq, I.ntop_short a.length_eq, ?_⟩
  intro c hc
  have hplain := I.plain (I.pton_ntop a.length_eq) c hc
  have hbyte := forall_byte
    (p := fun c => !(isxdigit c || c == ch ':' || c == ch '.') || (!isspace c && c != 0))
    (by decide +kernel) c
  simp only [Bool.or_eq_true, Bool.not_eq_true', Bool.or_eq_false_iff, beq_eq_false_iff_ne,
    Bool.and_eq_true, bne_iff_ne] at hbyte
  rcases hbyte with ⟨⟨hx, hcolon⟩, hdot⟩ | hbyte
  · rcases hplain with hplain | hplain | hplain
    · cases hx.symm.trans hplain
    · exact absurd hplain hcolon
    · exact absurd hplain hdot
  · exact hbyte

lemma skipBlanks_plain (hne : h ≠ []) (hplain : ∀ c ∈ h, isspace c = false) :
    skipBlanks (h ++ rest) = h ++ rest := by
  obtain ⟨c, cs, rfl⟩ := List.exists_cons_of_ne_nil hne
  rw [List.cons_append, skipBlanks_word (hplain c List.mem_cons_self)]

lemma isspace_digit {c : UInt8} (hc : isdigit c = true) : isspace c = false := by
  have hbyte := forall_byte (p := fun c => !isdigit c || !isspace c) (by decide +kernel) c
  simpa [hc] using hbyte

lemma decimal_plain (v : Int) : ∀ c ∈ decimal v, isspace c = false := by
  intro c hc
  simp only [decimal, List.mem_append] at hc
  rcases hc with hc | hc
  · split at hc
    · cases List.mem_singleton.mp hc
      rfl
    · cases hc
  · exact isspace_digit ((digitsOf_spec _).2.1 c hc)

lemma toInt_small {v : Int} (h : -2 ^ 31 ≤ v ∧ v < 2 ^ 31) : toInt v = v := by
  unfold toInt saturate
  rw [max_eq_right (by omega), min_eq_right (by omega), Int.bmod_def]
  omega

lemma toUInt16_port (port : UInt16) : toUInt16 port.toNat = port := by
  have hlt : port.toNat < 2 ^ 16 := port.toNat_lt
  have hsmall : (port.toNat : Int).natAbs < 2 ^ 64 := by omega
  have hmod : ((port.toNat : Int) % 2 ^ 16).toNat = port.toNat := by omega
  rw [toUInt16, if_pos hsmall, hmod, UInt16.ofNat_toNat]

lemma toIntMax_time {v : Int} (h : -2 ^ 63 ≤ v ∧ v < 2 ^ 63) : toIntMax v = v := by
  unfold toIntMax saturate
  omega

/-- A line is read as it was written. -/
lemma scanLine_line (dst : Dst) (hplain : ∀ c ∈ wordOf e, isspace c = false) (hne : wordOf e ≠ [])
    (hlen : (wordOf e).length ≤ 255) (hbits : -2 ^ 31 ≤ e.key.len - 32 ∧ e.key.len - 32 < 2 ^ 31)
    (htime : -2 ^ 63 ≤ e.val.time ∧ e.val.time < 2 ^ 63) (rest : Bytes) :
    scanLine (line I e dst ++ rest) =
      (⟨some (I.text dst.addr), some (e.key.len - 32), some dst.port, some e.val.time,
        some (wordOf e)⟩, skipBlanks rest) := by
  obtain ⟨haddrne, haddrlen, haddr⟩ := text_plain I dst.addr
  have hblank : isdigit (ch ' ') = false := rfl
  have hnewline : isspace (ch '\n') = true := rfl
  have hzero : ¬ ch '0' ≠ ch '0' := not_not_intro rfl
  unfold line
  simp only [List.cons_append, List.append_assoc, List.nil_append, scanLine, hzero, if_false,
    skipBlanks_blank]
  rw [skipBlanks_plain haddrne fun c hc => (haddr c hc).1,
    scanWord_word haddrne (fun c hc => (haddr c hc).1) (by omega) isspace_blank]
  simp only [skipBlanks_blank]
  rw [skipBlanks_plain (decimal_ne_nil _) (decimal_plain _), scanInt_decimal _ hblank]
  simp only [skipBlanks_blank, toInt_small hbits]
  rw [skipBlanks_plain (decimal_ne_nil _) (decimal_plain _), scanInt_decimal _ hblank]
  simp only [skipBlanks_blank, toUInt16_port]
  rw [skipBlanks_plain (decimal_ne_nil _) (decimal_plain _), scanInt_decimal _ hblank]
  simp only [skipBlanks_blank, toIntMax_time htime]
  rw [skipBlanks_plain hne hplain, scanWord_word hne hplain hlen hnewline]
  rfl

lemma shownText_clean {b : Bytes} {n : Nat} (hn : n ≤ b.length) (hclean : Clean (b.take n)) :
    shownText b n = some (b.take n) := by
  have hnonzero : ∀ c ∈ b.take n, decide (c ≠ 0) = true := by
    intro c hc
    simpa using (hclean.1 c hc).2
  have htext : (b.takeWhile fun c => decide (c ≠ 0)).take n = b.take n := by
    conv_lhs => rw [← List.take_append_drop n b]
    rw [List.takeWhile_append_of_pos hnonzero, List.take_append_of_le_length (by simp; omega),
      List.take_of_length_le (by simp)]
  simp only [shownText, if_pos (Or.inr hn), htext]

/-- Family, port and address stand in the key where `dump_cache` takes them from. -/
lemma key_parts (dst : Dst) :
    slice (serializeAddr dst) 0 2 = some (familyBytes dst.addr.family) ∧
      slice (serializeAddr dst) 4 dst.addr.family.size = some dst.addr.data ∧
      ∃ hi lo : UInt8, rd (serializeAddr dst) 2 = some hi ∧ rd (serializeAddr dst) 3 = some lo ∧
        hi.toNat * 256 + lo.toNat = dst.port.toNat := by
  obtain ⟨⟨f, d, hd⟩, port⟩ := dst
  have hport := port.toNat_lt
  have hhi : (UInt8.ofNat (port.toNat / 256)).toNat = port.toNat / 256 := by
    rw [UInt8.toNat_ofNat']
    omega
  have hlo : (UInt8.ofNat (port.toNat % 256)).toNat = port.toNat % 256 := by
    rw [UInt8.toNat_ofNat']
    omega
  have hlen : (serializeAddr ⟨⟨f, d, hd⟩, port⟩).length = 4 + f.size := serializeAddr_length _
  have hfour : slice (serializeAddr ⟨⟨f, d, hd⟩, port⟩) (4 : Nat) f.size = some d := by
    rw [slice_nat (by omega)]
    have htake : d.take f.size = d := List.take_of_length_le (Nat.le_of_eq hd)
    cases f <;> simpa [serializeAddr, familyBytes, portBytes] using htake
  have hzero : slice (serializeAddr ⟨⟨f, d, hd⟩, port⟩) (0 : Nat) (2 : Nat) =
      some (familyBytes f) := by
    rw [slice_nat (by omega)]
    cases f <;> simp [serializeAddr, familyBytes, portBytes]
  refine ⟨hzero, hfour, UInt8.ofNat (port.toNat / 256), UInt8.ofNat (port.toNat % 256), ?_, ?_, ?_⟩
  · cases f <;> rfl
  · cases f <;> rfl
  · simp only [hhi, hlo]
    omega

lemma shownHost_eq (hs : Stored e) (hclean : ∀ h, hostOf e = some h → Clean h) :
    shownHost e.val = some (wordOf e) := by
  cases hextra : e.val.extra with
  | none =>
    have hword : wordOf e = [ch '-'] := by simp [wordOf, hostOf, hextra]
    have hone : 1 ≤ (if e.val.extraLen ≠ 0 then e.val.extraLen else 1) := by
      split <;> omega
    simp only [shownHost, hextra, hword, List.take_of_length_le (l := [ch '-']) hone]
  | some b =>
    obtain ⟨hpos, hle⟩ := hs.host b hextra
    have hword : wordOf e = b.take e.val.extraLen := by simp [wordOf, hostOf, hextra]
    simp only [shownHost, hextra, Nat.ne_of_gt hpos, ne_eq, not_false_eq_true, if_true, hword]
    exact shownText_clean hle (hclean _ (by simp [hostOf, hextra]))

lemma dumpLine_eq (hs : Stored e) (hkey : e.key.data = serializeAddr dst)
    (hclean : ∀ h, hostOf e = some h → Clean h) : dumpLine I e = some (line I e dst) := by
  obtain ⟨hfamily, hip, hi, lo, hhi, hlo, hport⟩ := key_parts dst
  have hwhich : (if familyBytes dst.addr.family = familyBytes .inet then Family.inet else .inet6) =
      dst.addr.family := by
    cases dst.addr.family <;> rfl
  have hportInt : ((hi.toNat : Int) * 256 + lo.toNat) = dst.port.toNat := by exact_mod_cast hport
  simp only [dumpLine, hkey, hfamily, hwhich, hip, hhi, hlo, shownHost_eq hs hclean, hportInt,
    Option.bind_eq_bind, Option.bind_some, Option.pure_def]
  simp [line, Ntop.text]

end Lines

section Load

variable {K : Balance (Elem Val)} {I : Ntop} {dp : Nat} {junk : Junk} {hdr : Pool Val}
  {others : List Nat} {e : Elem Val} {dst : Dst} {rest : Bytes}

/-- The entry can be written as a line and read back. -/
structure Readable (e : Elem Val) : Prop extends Stored e where
  fits : e.key.Fits
  clean : ∀ h, hostOf e = some h → Clean h

lemma stringOf_plain {h : Bytes} (hplain : ∀ c ∈ h, c ≠ 0) : stringOf h = h := by
  unfold stringOf
  rw [List.takeWhile_eq_self_iff]
  simpa using hplain

lemma Readable.word (h : Readable e) :
    wordOf e ≠ [] ∧ (wordOf e).length ≤ 255 ∧ ∀ c ∈ wordOf e, isspace c = false ∧ c ≠ 0 := by
  unfold wordOf
  cases hhost : hostOf e with
  | none => exact ⟨by decide, by decide, by decide +kernel⟩
  | some t =>
    obtain ⟨hplain, hlen⟩ := h.clean t hhost
    refine ⟨?_, hlen, hplain⟩
    obtain ⟨b, hextra, rfl⟩ := Option.map_eq_some_iff.mp hhost
    obtain ⟨hpos, hle⟩ := h.host b hextra
    apply List.ne_nil_of_length_pos
    simp only [Option.getD_some, List.length_take]
    omega

lemma Readable.bits (h : Readable e) : 0 ≤ e.key.len ∧ e.key.len ≤ 160 := by
  obtain ⟨dst, hkey⟩ := h.key
  have hnonneg := h.fits.nonneg
  have hfits := h.fits.fits
  have hlen := serializeAddr_length dst
  have hsize : dst.addr.family.size ≤ 16 := by cases dst.addr.family <;> decide
  rw [hkey] at hfits
  omega

/-- What is loaded for a host is the host, if it has more than one byte. -/
lemma hostOf_loaded (dp : Nat) (x : Elem Val) (e : Elem Val) (time : Int) (hx : x.val.extra = none) :
    hostOf { x with val := loaded dp x.val time (wordOf e) } =
      (hostOf e).filter fun h => 1 < h.length := by
  unfold wordOf
  cases hhost : hostOf e with
  | none => simp [hostOf, loaded, hx]
  | some t =>
    simp only [hostOf, loaded, Option.getD_some, hx, Option.filter_some]
    by_cases hlong : t.length > 1
    · simp [hlong]
    · simp [hlong]

/-- The line of an entry that stands behind all others adds it at the end. -/
lemma loadRound_line (K : Balance (Elem Val)) (dp : Nat) (junk : Junk) (hs : Sound hdr others) (h : Readable e)
    (hkey : e.key.data = serializeAddr dst)
    (hlast : ∀ x ∈ hdr.root.inorder, cmpFront x.key.bits e.key.bits = .lt)
    (hrest : skipBlanks rest = rest) :
    ∃ hdr' e', loadRound K I.toPton dp junk hdr (line I e dst ++ rest) = some (some (hdr', rest)) ∧
      Sound hdr' others ∧ hdr'.root.inorder = hdr.root.inorder ++ [e'] ∧ e'.key = e.key ∧
      record e' = reloaded e ∧ e'.val.dp = some dp := by
  obtain ⟨hne, hlen, hword⟩ := h.word
  obtain ⟨-, -, haddr⟩ := text_plain I dst.addr
  obtain ⟨hbits, hbits'⟩ := h.bits
  have hscan := scanLine_line (I := I) dst (fun c hc => (hword c hc).1) hne hlen (by omega) h.time
    rest
  have hsum : intSum (e.key.len - 32) (4 * 8) = some e.key.len := by
    have hback : e.key.len - 32 + 4 * 8 = e.key.len := by omega
    rw [intSum, hback, if_pos (by omega)]
  have haddrEq : I.addr (stringOf (I.text dst.addr)) = some dst.addr := by
    rw [stringOf_plain fun c hc => (haddr c hc).2, I.addr_text]
  have hshort : ¬ ((serializeAddr dst).length : Int) * 8 < e.key.len := by
    have hfits := h.fits.fits
    rw [hkey] at hfits
    omega
  have hkeyEq : (⟨e.key.len, serializeAddr dst⟩ : Key) = e.key := by rw [← hkey]
  obtain ⟨mid, r, hadd, hspec⟩ :=
    memAdd_spec (K := K) {} true (malloc_sound hs) (k := e.key) h.fits
  cases r with
  | none =>
    obtain ⟨hroom, -⟩ := hspec
    cases hroom
  | some v =>
    obtain ⟨hsound, hadded⟩ := hspec
    obtain ⟨hin, rfl⟩ := added_last hadded (malloc_sound hs) hsound hlast
    have hstring : stringOf (wordOf e) = wordOf e := stringOf_plain fun c hc => (hword c hc).2
    refine ⟨_, _, ?_, update_sound hsound _ _,
      update_split hsound hin (loaded dp {} e.val.time (wordOf e)), rfl, ?_, rfl⟩
    · simp only [loadRound, hscan, Option.getD_some, hsum, haddrEq, hkeyEq, hshort, if_false, hadd,
        Option.bind_eq_bind, Option.bind_some, Option.pure_def, hrest, hstring]
    · have hhost := hostOf_loaded dp ⟨hdr.malloc.2.next, hdr.malloc.1, e.key, {}⟩ e
        e.val.time rfl
      simp only [record, reloaded, ← hhost]
      rfl

/-- `l` is the line of `e`. -/
def IsLine (I : Ntop) (e : Elem Val) (l : Bytes) : Prop :=
  ∃ dst, e.key.data = serializeAddr dst ∧ l = line I e dst

lemma skipBlanks_lines {es : List (Elem Val)} {ls : List Bytes}
    (h : List.Forall₂ (IsLine I) es ls) : skipBlanks ls.flatten = ls.flatten := by
  cases h with
  | nil => rfl
  | cons hl _ =>
    obtain ⟨dst, -, rfl⟩ := hl
    rfl

/-- The lines of some entries bring these entries, in their order. -/
theorem loadLoop_lines (K : Balance (Elem Val)) (dp : Nat) (junk : Nat → Junk) (i : Nat)
    {es : List (Elem Val)} {ls : List Bytes} {fuel : Nat}
    (hs : Sound hdr others) (hes : ∀ e ∈ es, Readable e)
    (hchain : Antichain (fun e => e.key.bits) es)
    (hlast : ∀ x ∈ hdr.root.inorder, ∀ e ∈ es, cmpFront x.key.bits e.key.bits = .lt)
    (hls : List.Forall₂ (IsLine I) es ls)
    (hfuel : es.length < fuel) :
    ∃ hdr', loadLoop K I.toPton dp junk fuel i hdr ls.flatten = some hdr' ∧ Sound hdr' others ∧
      ∃ es', hdr'.root.inorder = hdr.root.inorder ++ es' ∧ es'.map record = es.map reloaded ∧
        ∀ e ∈ es', e.val.dp = some dp := by
  induction hls generalizing hdr fuel i with
  | nil =>
    obtain ⟨fuel, rfl⟩ := Nat.exists_eq_succ_of_ne_zero (Nat.ne_zero_of_lt hfuel)
    refine ⟨hdr, rfl, hs, [], by simp, rfl, by simp⟩
  | @cons e l es ls hl hls ih =>
    obtain ⟨dst, hkey, rfl⟩ := hl
    obtain ⟨fuel, rfl⟩ := Nat.exists_eq_succ_of_ne_zero (Nat.ne_zero_of_lt hfuel)
    obtain ⟨hfirst, hchain⟩ := List.pairwise_cons.mp hchain
    obtain ⟨mid, e', hround, hsound, hin, hkey', hrecord, hdp⟩ :=
      loadRound_line K dp (junk i) hs (hes e List.mem_cons_self) hkey
        (fun x hx => hlast x hx e List.mem_cons_self) (skipBlanks_lines hls)
    have hlast' : ∀ x ∈ mid.root.inorder, ∀ f ∈ es, cmpFront x.key.bits f.key.bits = .lt := by
      intro x hx f hf
      rw [hin] at hx
      rcases List.mem_append.mp hx with hx | hx
      · exact hlast x hx f (List.mem_cons_of_mem _ hf)
      · rw [List.mem_singleton.mp hx, hkey']
        exact hfirst f hf
    obtain ⟨hdr', hloop, hsound', es', hin', hrecords, hdps⟩ :=
      ih (i + 1) hsound (fun f hf => hes f (List.mem_cons_of_mem _ hf)) hchain hlast'
        (by simpa using hfuel)
    refine ⟨hdr', ?_, hsound', e' :: es', ?_, ?_, ?_⟩
    · rw [List.flatten_cons]
      exact (congrArg (fun r => Option.bind r _) hround).trans hloop
    · rw [hin', hin, List.append_assoc, List.singleton_append]
    · rw [List.map_cons, List.map_cons, hrecord, hrecords]
    · exact List.forall_mem_cons.mpr ⟨hdp, hdps⟩

lemma lines_length {es : List (Elem Val)} {ls : List Bytes} (h : List.Forall₂ (IsLine I) es ls) :
    es.length ≤ ls.flatten.length := by
  induction h with
  | nil => exact Nat.zero_le _
  | cons hl _ ih =>
    obtain ⟨dst, -, rfl⟩ := hl
    simp only [List.flatten_cons, List.length_append, List.length_cons, line]
    omega

lemma dumpLines {es : List (Elem Val)} (hes : ∀ e ∈ es, Readable e) :
    ∃ ls, es.mapM (dumpLine I) = some ls ∧ List.Forall₂ (IsLine I) es ls := by
  induction es with
  | nil => exact ⟨[], rfl, .nil⟩
  | cons e es ih =>
    obtain ⟨ls, hls, hlines⟩ := ih fun f hf => hes f (List.mem_cons_of_mem _ hf)
    have he := hes e List.mem_cons_self
    obtain ⟨dst, hkey⟩ := he.key
    refine ⟨line I e dst :: ls, ?_, .cons ⟨dst, hkey, rfl⟩ hlines⟩
    simp only [List.mapM_cons, dumpLine_eq he.toStored hkey he.clean, hls, Option.bind_eq_bind,
      Option.bind_some, Option.pure_def]

/-- What is loaded from the dump of a group all of whose hosts are clean. -/
theorem load_dump_clean (C : Cache) (I : Ntop) (K : Balance (Elem Val)) (junk : Nat → Junk)
    (dp : Nat) (hclean : ∀ e ∈ entriesOf C.hdr dp, ∀ h, hostOf e = some h → Clean h) :
    ∃ text hdr', dumpCache I C.hdr dp = some text ∧
      loadCache K I.toPton dp junk {} text = some hdr' ∧
      hdr'.root.inorder.map record = (entriesOf C.hdr dp).map reloaded ∧
      ∀ e ∈ hdr'.root.inorder, e.val.dp = some dp := by
  have hsub : (entriesOf C.hdr dp).Sublist C.hdr.root.inorder := List.filter_sublist
  have hread : ∀ e ∈ entriesOf C.hdr dp, Readable e := fun e he =>
    ⟨C.stored e (hsub.subset he), C.sound.fits e (hsub.subset he), hclean e he⟩
  obtain ⟨ls, hls, hlines⟩ := dumpLines (I := I) hread
  have hfuel := Nat.lt_succ_of_le (lines_length hlines)
  obtain ⟨hdr', hload, -, es', hin, hrecords, hdps⟩ :=
    loadLoop_lines K dp junk 0 empty_sound hread
      (C.sound.antichain.sublist hsub) (by simp) hlines hfuel
  refine ⟨ls.flatten, hdr', by rw [dumpCache, hls, Option.map_some], hload, ?_, ?_⟩
  · rw [hin]
    simpa using hrecords
  · rw [hin]
    simpa using hdps

end Load

section Hosts

variable {K : Balance (Elem Val)} {I : Pton} {dp : Nat} {hdr hdr' : Pool Val} {text rest : Bytes}

/-- What is kept of a host that `load_cache` has read. -/
def Read (e : Elem Val) : Prop :=
  ∀ b, e.val.extra = some b →
    ∃ h, b = h ++ [0] ∧ Clean h ∧ 1 < h.length ∧ e.val.extraLen ≤ h.length

lemma Read.clean {e : Elem Val} (hr : Read e) {h : Bytes} (hhost : hostOf e = some h) :
    Clean h := by
  obtain ⟨b, hextra, rfl⟩ := Option.map_eq_some_iff.mp hhost
  obtain ⟨h, rfl, ⟨hplain, hshort⟩, -, hlen⟩ := hr b hextra
  rw [List.take_append_of_le_length hlen]
  refine ⟨fun c hc => hplain c (List.mem_of_mem_take hc), ?_⟩
  rw [List.length_take]
  omega

lemma stringOf_clean {word : Bytes} (h : (∀ c ∈ word, isspace c = false) ∧ word.length ≤ 255) :
    Clean (stringOf word) := by
  constructor
  · intro c hc
    exact ⟨h.1 c (List.takeWhile_sublist _ |>.subset hc), by simpa using List.mem_takeWhile_imp hc⟩
  · exact Nat.le_trans (List.takeWhile_sublist _).length_le h.2

lemma loaded_read {e : Elem Val} (hr : Read e) {h : Bytes} (hclean : Clean h) (time : Int) :
    Read { e with val := loaded dp e.val time h } := by
  intro b hb
  simp only [loaded] at hb ⊢
  split at hb
  · next hlong =>
    cases hb
    exact ⟨h, rfl, hclean, hlong, Nat.le_refl _⟩
  · next hshort =>
    obtain ⟨h', rfl, hclean', hlong, -⟩ := hr b hb
    exact ⟨h', rfl, hclean', hlong, by omega⟩

/-- Whatever the text, a round leaves clean hosts. -/
lemma loadRound_read {junk : Junk} (hr : ∀ e ∈ hdr.root.inorder, Read e)
    (h : loadRound K I dp junk hdr text = some (some (hdr', rest))) :
    ∀ e ∈ hdr'.root.inorder, Read e := by
  unfold loadRound at h
  cases hscan : scanLine text with
  | mk f rest' =>
    simp only [hscan, Option.bind_eq_bind] at h
    split at h
    · simp only [Option.bind_eq_some_iff] at h
      obtain ⟨bitlen, -, h⟩ := h
      split at h
      · split at h
        · cases h
          exact hr
        · simp only [Option.bind_eq_some_iff] at h
          obtain ⟨⟨mid, r⟩, hadd, h⟩ := h
          cases r with
          | none => cases h
          | some v =>
            cases h
            obtain ⟨hsub, -, hv, -⟩ := memAdd_returned hadd
            have hnew : ∀ x : Elem Val, x.val = {} → Read x := by
              intro x hx b hb
              rw [hx] at hb
              cases hb
            have hmid : ∀ x ∈ mid.root.inorder, Read x := by
              intro x hx
              rcases hsub x hx with rfl | hx
              · exact hnew _ rfl
              · exact hr x hx
            have hword : Clean (stringOf (f.host.getD [])) := by
              cases hhost : f.host with
              | none => exact ⟨by decide +kernel, by decide +kernel⟩
              | some w => exact stringOf_clean ((scanLine_spec hscan).whole w hhost).2
            intro x hx
            rcases mem_update hx with ⟨hx, -⟩ | ⟨y, hy, hblock, rfl⟩
            · exact hmid x hx
            · have hread : Read v := by
                rcases hv with rfl | ⟨hv, -⟩
                · exact hnew _ rfl
                · exact hr v hv
              exact loaded_read hread hword _
      · cases h
        exact hr
    · cases h

theorem loadLoop_read {junk : Nat → Junk} {fuel i : Nat} (hr : ∀ e ∈ hdr.root.inorder, Read e)
    (h : loadLoop K I dp junk fuel i hdr text = some hdr') : ∀ e ∈ hdr'.root.inorder, Read e := by
  induction fuel generalizing i hdr text with
  | zero => cases h
  | succ fuel ih =>
    simp only [loadLoop, Option.bind_eq_bind, Option.bind_eq_some_iff] at h
    obtain ⟨r, hround, h⟩ := h
    cases r with
    | none =>
      cases h
      exact hr
    | some next => exact ih (loadRound_read hr hround) h

end Hosts

section RoundTrip

/-- Every host of the group is a word of two to 255 characters, without blanks and NULs. -/
def HostsAreWords (hdr : Pool Val) (dp : Nat) : Prop :=
  ∀ e ∈ entriesOf hdr dp, ∀ h, hostOf e = some h →
    1 < h.length ∧ h.length ≤ 255 ∧ ∀ c ∈ h, isspace c = false ∧ c ≠ 0

/-- What is dumped for a group and loaded into an empty cache is what the group had. -/
def RoundTrips (I : Ntop) (K : Balance (Elem Val)) (junk : Nat → Junk) (hdr : Pool Val)
    (dp : Nat) : Prop :=
  ∃ text hdr', dumpCache I hdr dp = some text ∧ loadCache K I.toPton dp junk {} text = some hdr' ∧
    hdr'.root.inorder.map record = (entriesOf hdr dp).map record ∧
    ∀ e ∈ hdr'.root.inorder, e.val.dp = some dp

theorem round_trip_iff (I : Ntop) (K : Balance (Elem Val)) (junk : Nat → Junk) (C : Cache)
    (dp : Nat) : RoundTrips I K junk C.hdr dp ↔ HostsAreWords C.hdr dp := by
  constructor
  · rintro ⟨text, hdr', hdump, hload, hsame, -⟩
    -- hosts that have been loaded are clean, so those of the group were
    have hread : ∀ e ∈ hdr'.root.inorder, Read e := loadLoop_read (by simp) hload
    have hclean : ∀ e ∈ entriesOf C.hdr dp, ∀ h, hostOf e = some h → Clean h := by
      intro e he h hhost
      have hmem : record e ∈ hdr'.root.inorder.map record := by
        rw [hsame]
        exact List.mem_map_of_mem he
      obtain ⟨e', he', heq⟩ := List.mem_map.mp hmem
      have hhost' : hostOf e' = some h := by
        rw [← hhost]
        exact congrArg (fun r => r.2.2) heq
      exact (hread e' he').clean hhost'
    obtain ⟨text', hdr'', hdump', hload', hreload, -⟩ := load_dump_clean C I K junk dp hclean
    cases hdump.symm.trans hdump'
    cases hload.symm.trans hload'
    rw [hsame] at hreload
    intro e he h hhost
    obtain ⟨hplain, hshort⟩ := hclean e he h hhost
    refine ⟨?_, hshort, hplain⟩
    have heq := List.map_inj_left.mp hreload e he
    have hfilter : hostOf e = (hostOf e).filter fun h => 1 < h.length :=
      congrArg (fun r => r.2.2) heq
    rw [hhost, Option.filter_some] at hfilter
    by_contra hlong
    simp [hlong] at hfilter
  · intro hwords
    have hclean : ∀ e ∈ entriesOf C.hdr dp, ∀ h, hostOf e = some h → Clean h := by
      intro e he h hhost
      obtain ⟨-, hlen, hplain⟩ := hwords e he h hhost
      exact ⟨hplain, hlen⟩
    obtain ⟨text, hdr', hdump, hload, hreload, hdps⟩ := load_dump_clean C I K junk dp hclean
    refine ⟨text, hdr', hdump, hload, ?_, hdps⟩
    rw [hreload]
    apply List.map_congr_left
    intro e he
    have hfilter : (hostOf e).filter (fun h => 1 < h.length) = hostOf e := by
      cases hhost : hostOf e with
      | none => rfl
      | some h => simp [(hwords e he h hhost).1]
    simp only [reloaded, record, hfilter]

/-- A connection to `1.1.1.1:443` whose request names the host `a b`, and that has failed. -/
def spaced : Call :=
  .trigger ⟨⟨.inet, [1, 1, 1, 1], rfl⟩, 443⟩ ⟨0, by decide⟩
    (some ⟨ascii ['a', ' ', 'b'], by decide⟩) (true, true) 0

/-- The cache that it leaves does not come back. -/
theorem spaced_host_lost :
    ∃ hdr, run (step ⟨id, fun _ => rfl⟩ (fun _ => 0) 0) {} [spaced] = some hdr ∧
      ¬ RoundTrips full ⟨id, fun _ => rfl⟩ (fun _ => ⟨0, 0, 0, by decide⟩) hdr 0 := by
  refine ⟨_, rfl, ?_⟩
  rintro ⟨text, hdr', hdump, hload, hsame, -⟩
  have hread : ∀ e ∈ hdr'.root.inorder, Read e := loadLoop_read (by simp) hload
  have hhosts : hdr'.root.inorder.map hostOf = [some (ascii ['a', ' ', 'b'])] := by
    have h := congrArg (List.map fun r => r.2.2) hsame
    rw [List.map_map, List.map_map] at h
    exact h
  have hmem : some (ascii ['a', ' ', 'b']) ∈ hdr'.root.inorder.map hostOf := by
    rw [hhosts]
    exact List.mem_cons_self
  obtain ⟨e, he, hhost⟩ := List.mem_map.mp hmem
  have hblank := ((hread e he).clean hhost).1 (ch ' ') (by decide)
  exact absurd hblank.1 (by decide)

end RoundTrip

end CacheRoundTrip
