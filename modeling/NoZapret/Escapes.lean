import NoZapret.InetText
import NoZapret.Library.Prefix

/-!
# Escaped option strings

`parse_cform`. `i` and `p` are of type `size_t` and wrap. The conversions of `sscanf` are those of
ISO C.
-/

namespace Escapes

open Block Inet Packets

def isodigit (c : UInt8) : Bool := 48 ≤ c && c ≤ 55

def digitValue (c : UInt8) : Nat := if isdigit c then c.toNat - 48 else (tolower c).toNat - 87

def signLength (item : Bytes) : Nat :=
  if item.head? = some (ch '-') ∨ item.head? = some (ch '+') then 1 else 0

/-- The digits behind a sign, and `0x` in front of them. -/
def scanDigits (base : Nat) (digit : UInt8 → Bool) (body : Bytes) : Option (Int × Nat) :=
  let zerox := if base = 16 ∧ (body.take 2).map tolower = [ch '0', ch 'x'] then 2 else 0
  let digits := (body.drop zerox).takeWhile digit
  if digits.length = 0 then none
  else some (digits.foldl (fun v c => v * base + digitValue c) 0, zerox + digits.length)

/-- `%<width>x` and `%<width>o`: the value and how many characters were read. -/
def scanUInt (base : Nat) (digit : UInt8 → Bool) (width : Nat) (text : Bytes) : Option (Int × Nat) :=
  let blanks := (text.takeWhile isspace).length
  let item := (text.drop blanks).take width
  (scanDigits base digit (item.drop (signLength item))).map fun r =>
    (if item.head? = some (ch '-') then -r.1 else r.1, blanks + signLength item + r.2)

/-- What `hh` stores. -/
def toUInt8 (v : Int) : UInt8 := UInt8.ofNat (v % 256).toNat

/-- `"x%2hhx%n"` -/
def scanHex (text : Bytes) : Option (UInt8 × Nat) :=
  match text with
  | [] => none
  | c :: rest =>
    if c = ch 'x' then (scanUInt 16 isxdigit 2 rest).map fun r => (toUInt8 r.1, r.2 + 1) else none

/-- `"%3hho%n"` -/
def scanOct (text : Bytes) : Option (UInt8 × Nat) :=
  (scanUInt 8 isodigit 3 text).map fun r => (toUInt8 r.1, r.2)

def scanEscape (text : Bytes) : Option (UInt8 × Nat) :=
  match scanHex text with
  | some r => some r
  | none => scanOct text

def esca : List (UInt8 × UInt8) :=
  [(ch 'r', 13), (ch 'n', 10), (ch 't', 9), (ch '\\', ch '\\'), (ch 'f', 12), (ch 'b', 8),
    (ch 'v', 11), (ch 'a', 7)]

/-- `str[p]`, the zero at the end included. -/
def charAt (str : Bytes) (p : Nat) : Option UInt8 :=
  if p = str.length then some 0 else str[p]?

def inc (x : Nat) : Nat := (x + 1) % 2 ^ 64

def dec (x : Nat) : Nat := (x + (2 ^ 64 - 1)) % 2 ^ 64

/-- The loop of `parse_cform`: `i` at its end and the buffer. -/
def cformLoop (blen : Nat) (str : Bytes) : Nat → Bytes → Nat → Nat → Option (Nat × Bytes)
  | 0, _, _, _ => none
  | fuel + 1, buffer, i, p =>
    if p < str.length ∧ i < blen then do
      let c ← charAt str p
      if c ≠ ch '\\' then
        cformLoop blen str fuel (← wr buffer i c) (inc i) (inc p)
      else
        let p := inc p
        let c ← charAt str p
        match esca.lookup c with
        | some v => cformLoop blen str fuel (← wr buffer i v) (inc i) (inc p)
        | none =>
          match scanEscape (str.drop p) with
          | some (v, n) => cformLoop blen str fuel (← wr buffer i v) (inc i) (inc (p + (n - 1)))
          | none => cformLoop blen str fuel buffer (inc (dec i)) (inc (dec p))
    else some (i, buffer)

/-- `parse_cform` -/
def parseCform (buffer : Bytes) (blen : Nat) (str : Bytes) : Option (Nat × Bytes) :=
  cformLoop blen str (str.length + 1) buffer 0 0

/-- A string without its zero. -/
structure CStr where
  text : Bytes
  nonzero : ∀ c ∈ text, c ≠ 0
  fits : text.length < 2 ^ 64

/-- Every byte as `\xHH`, in upper case or in lower case. -/
def hexDigit (upper : Bool) (n : Nat) : UInt8 :=
  UInt8.ofNat (if n < 10 then 48 + n else if upper then 55 + n else 87 + n)

def escapeByte (upper : Bool) (c : UInt8) : Bytes :=
  [ch '\\', ch 'x', hexDigit upper (c.toNat / 16), hexDigit upper (c.toNat % 16)]

def escape (upper : Bool) (bytes : Bytes) : Bytes := bytes.flatMap (escapeByte upper)

/-- A block of which the first `blen` bytes may be written. -/
structure Room where
  buffer : Bytes
  blen : Nat
  fits : blen ≤ buffer.length
  size : blen < 2 ^ 64

/-- It ends, and from `blen` on nothing is written. -/
def InBounds (room : Room) (str : CStr) : Prop :=
  ∃ k after, parseCform room.buffer room.blen str.text = some (k, after) ∧ k ≤ room.blen ∧
    after.length = room.buffer.length ∧ after.drop room.blen = room.buffer.drop room.blen

section Scan

variable {text body item : Bytes} {v : Int} {n : Nat} {base width : Nat} {digit : UInt8 → Bool}

lemma signLength_le : signLength item ≤ item.length := by
  unfold signLength
  cases item with
  | nil => simp
  | cons c item =>
    rw [List.length_cons]
    split <;> omega

lemma scanDigits_bounds (h : scanDigits base digit body = some (v, n)) :
    0 < n ∧ n ≤ body.length := by
  unfold scanDigits at h
  dsimp only at h
  generalize (if base = 16 ∧ (body.take 2).map tolower = [ch '0', ch 'x'] then 2 else 0) = zerox at h
  split at h
  · cases h
  · next hsome =>
    obtain ⟨-, rfl⟩ := Prod.mk.inj (Option.some.inj h)
    have hle := (List.takeWhile_prefix digit (l := body.drop zerox)).length_le
    rw [List.length_drop] at hle
    omega

/-- Something was read, and from the text. -/
lemma scanUInt_bounds (h : scanUInt base digit width text = some (v, n)) :
    0 < n ∧ n ≤ text.length := by
  unfold scanUInt at h
  dsimp only at h
  obtain ⟨r, hr, hn⟩ := Option.map_eq_some_iff.mp h
  obtain ⟨-, rfl⟩ := Prod.mk.inj hn
  obtain ⟨hpos, hle⟩ := scanDigits_bounds hr
  have hblanks := (List.takeWhile_prefix isspace (l := text)).length_le
  have hsign : signLength ((text.drop (text.takeWhile isspace).length).take width) ≤
      ((text.drop (text.takeWhile isspace).length).take width).length := signLength_le
  simp only [List.length_drop, List.length_take] at hle hsign
  omega

lemma scanEscape_bounds {x : UInt8} (h : scanEscape text = some (x, n)) :
    0 < n ∧ n ≤ text.length := by
  unfold scanEscape at h
  split at h
  · next r hhex =>
    cases h
    unfold scanHex at hhex
    match text, hhex with
    | c :: rest, hhex =>
      dsimp only at hhex
      split at hhex
      · obtain ⟨r, hr, hn⟩ := Option.map_eq_some_iff.mp hhex
        obtain ⟨-, rfl⟩ := Prod.mk.inj hn
        have hle := (scanUInt_bounds hr).2
        rw [List.length_cons]
        omega
      · cases hhex
  · obtain ⟨r, hr, hn⟩ := Option.map_eq_some_iff.mp h
    obtain ⟨-, rfl⟩ := Prod.mk.inj hn
    exact scanUInt_bounds hr

end Scan

section Loop

variable {buffer str : Bytes} {blen i p : Nat}

lemma inc_eq {x : Nat} (h : x + 1 < 2 ^ 64) : inc x = x + 1 := Nat.mod_eq_of_lt h

/-- Below zero and back. -/
lemma inc_dec {x : Nat} (h : x < 2 ^ 64) : inc (dec x) = x := by
  unfold inc dec
  omega

lemma wr_below (hi : i < blen) (hle : blen ≤ buffer.length) (v : UInt8) :
    ∃ after, wr buffer i v = some after ∧ after.length = buffer.length ∧
      after.drop blen = buffer.drop blen := by
  refine ⟨buffer.set i v, ?_, List.length_set, ?_⟩
  · unfold wr
    rw [if_pos (by omega), Int.toNat_natCast]
  · rw [List.drop_set_of_lt hi]

/-- Every round reads further, and what it stores is in bounds. -/
lemma cformLoop_bounds (hstr : str.length < 2 ^ 64) (hblen : blen < 2 ^ 64) (fuel : Nat) :
    ∀ (buffer : Bytes) (i p : Nat), blen ≤ buffer.length → i ≤ blen → p ≤ str.length →
      str.length - p < fuel →
      ∃ k after, cformLoop blen str fuel buffer i p = some (k, after) ∧ k ≤ blen ∧
        after.length = buffer.length ∧ after.drop blen = buffer.drop blen := by
  induction fuel with
  | zero => exact fun _ _ _ _ _ _ h => absurd h (Nat.not_lt_zero _)
  | succ fuel ih =>
    intro buffer i p hle hi hp hfuel
    unfold cformLoop
    split
    · next hgo =>
      obtain ⟨hp', hi'⟩ := hgo
      -- what is stored in one round, and how far it reads
      have stored (v : UInt8) (q : Nat) (hq : p < q) (hq' : q ≤ str.length) :
          ∃ k after, (wr buffer i v).bind (fun b => cformLoop blen str fuel b (inc i) q) =
            some (k, after) ∧ k ≤ blen ∧ after.length = buffer.length ∧
            after.drop blen = buffer.drop blen := by
        obtain ⟨b, hwr, hlen, hdrop⟩ := wr_below hi' hle v
        obtain ⟨k, after, hloop, hk, hlen', hdrop'⟩ := ih b (inc i) q (by omega)
          (by rw [inc_eq (by omega)]; omega) hq' (by omega)
        refine ⟨k, after, ?_, hk, hlen'.trans hlen, hdrop'.trans hdrop⟩
        rw [hwr, Option.bind_some, hloop]
      have hchar : charAt str p = some str[p] := by
        unfold charAt
        rw [if_neg (by omega), List.getElem?_eq_getElem hp']
      simp only [hchar, Option.bind_eq_bind, Option.bind_some]
      split
      · rw [inc_eq (by omega : p + 1 < 2 ^ 64)]
        exact stored str[p] (p + 1) (by omega) (by omega)
      · obtain ⟨c, hc⟩ : ∃ c, charAt str (inc p) = some c := by
          rw [inc_eq (by omega)]
          unfold charAt
          split
          · exact ⟨0, rfl⟩
          · exact ⟨_, List.getElem?_eq_getElem (by omega)⟩
        rw [hc, Option.bind_some]
        split
        · next v hv =>
          -- the zero at the end is in no pair of the table
          have hend : p + 1 ≠ str.length := by
            intro hend
            rw [inc_eq (by omega), charAt, if_pos hend] at hc
            cases hc
            cases hv
          rw [inc_eq (by omega : p + 1 < 2 ^ 64), inc_eq (by omega : p + 1 + 1 < 2 ^ 64)]
          exact stored v (p + 1 + 1) (by omega) (by omega)
        · split
          · next v n hscan =>
            rw [inc_eq (by omega : p + 1 < 2 ^ 64)] at hscan ⊢
            obtain ⟨hpos, hread⟩ := scanEscape_bounds hscan
            rw [List.length_drop] at hread
            rw [inc_eq (by omega : p + 1 + (n - 1) + 1 < 2 ^ 64)]
            exact stored v _ (by omega) (by omega)
          · have hback : inc (dec (inc p)) = p + 1 := by
              rw [inc_dec (by rw [inc_eq (by omega)]; omega), inc_eq (by omega)]
            rw [hback, inc_dec (by omega)]
            exact ih buffer i (p + 1) hle hi (by omega) (by omega)
    · exact ⟨i, buffer, rfl, hi, rfl, rfl⟩

end Loop

section Decode

lemma hexDigit_isxdigit (upper : Bool) (c : UInt8) :
    isspace (hexDigit upper (c.toNat / 16)) = false ∧
      scanUInt 16 isxdigit 2 [hexDigit upper (c.toNat / 16), hexDigit upper (c.toNat % 16)] =
        some ((c.toNat : Int), 2) := by
  have h := forall_byte (p := fun c => [true, false].all fun upper =>
    !isspace (hexDigit upper (c.toNat / 16)) &&
      scanUInt 16 isxdigit 2 [hexDigit upper (c.toNat / 16), hexDigit upper (c.toNat % 16)] ==
        some ((c.toNat : Int), 2)) (by decide +kernel) c
  cases upper <;> simp_all

lemma scanUInt_front {base : Nat} {digit : UInt8 → Bool} {h l : UInt8} (rest : Bytes)
    (hh : isspace h = false) :
    scanUInt base digit 2 (h :: l :: rest) = scanUInt base digit 2 [h, l] := by
  have hblanks (xs : Bytes) : (h :: l :: xs).takeWhile isspace = [] := by
    rw [List.takeWhile_cons, hh, if_neg Bool.false_ne_true]
  unfold scanUInt
  rw [hblanks, hblanks]
  rfl

lemma toUInt8_toNat (c : UInt8) : toUInt8 (c.toNat : Int) = c := by
  have hlt := c.toNat_lt
  have hmod : ((c.toNat : Int) % 256).toNat = c.toNat := by omega
  rw [toUInt8, hmod, UInt8.ofNat_toNat]

lemma scanEscape_byte (upper : Bool) (c : UInt8) (rest : Bytes) :
    scanEscape (ch 'x' :: hexDigit upper (c.toNat / 16) :: hexDigit upper (c.toNat % 16) :: rest) =
      some (c, 3) := by
  obtain ⟨hspace, hscan⟩ := hexDigit_isxdigit upper c
  unfold scanEscape scanHex
  simp only [if_true, scanUInt_front rest hspace, hscan, Option.map_some, toUInt8_toNat]

variable {blen : Nat}

lemma set_split {buffer bs : Bytes} {i : Nat} (c : UInt8) (h : i < buffer.length) :
    (buffer.set i c).take (i + 1) ++ bs ++ (buffer.set i c).drop (i + 1 + bs.length) =
      buffer.take i ++ c :: bs ++ buffer.drop (i + (bs.length + 1)) := by
  have htake : (buffer.take i).length = i := List.length_take_of_le (by omega)
  have hset : buffer.set i c = (buffer.take i ++ [c]) ++ buffer.drop (i + 1) := by
    rw [List.set_eq_take_append_cons_drop, if_pos h, List.append_assoc]
    rfl
  have hlen : (buffer.take i ++ [c]).length = i + 1 := by
    rw [List.length_append, htake]
    rfl
  rw [hset, List.take_left' hlen, List.drop_append, hlen,
    List.drop_eq_nil_of_le (by omega : (buffer.take i ++ [c]).length ≤ i + 1 + bs.length),
    List.nil_append, List.drop_drop]
  rw [show i + 1 + (i + 1 + bs.length - (i + 1)) = i + (bs.length + 1) by omega]
  simp only [List.append_assoc, List.cons_append, List.nil_append]

lemma cformLoop_escape (upper : Bool) (hblen : blen < 2 ^ 64) (bs : Bytes) :
    ∀ (front str : Bytes) (fuel : Nat) (buffer : Bytes) (i : Nat),
      str = front ++ escape upper bs → str.length < 2 ^ 64 → i + bs.length ≤ blen →
      blen ≤ buffer.length → bs.length < fuel →
      cformLoop blen str fuel buffer i front.length =
        some (i + bs.length, buffer.take i ++ bs ++ buffer.drop (i + bs.length)) := by
  induction bs with
  | nil =>
    intro front str fuel buffer i hstr _ _ _ hfuel
    obtain ⟨fuel, rfl⟩ : ∃ f, fuel = f + 1 := ⟨fuel - 1, by omega⟩
    have hlen : str.length = front.length := by
      rw [hstr, escape, List.flatMap_nil, List.append_nil]
    unfold cformLoop
    rw [if_neg (by omega)]
    simp
  | cons c bs ih =>
    intro front str fuel buffer i hstr hfits hroom hle hfuel
    obtain ⟨fuel, rfl⟩ : ∃ f, fuel = f + 1 := ⟨fuel - 1, by omega⟩
    have hsplit : str = front ++ ch '\\' :: ch 'x' :: hexDigit upper (c.toNat / 16) ::
        hexDigit upper (c.toNat % 16) :: escape upper bs := hstr
    have hlen : str.length = front.length + ((escape upper bs).length + 4) := by
      rw [hsplit]
      simp only [List.length_append, List.length_cons]
    rw [List.length_cons] at hroom hfuel ⊢
    have hp : inc front.length = front.length + 1 := inc_eq (by omega)
    have hchar : charAt str front.length = some (ch '\\') := by
      unfold charAt
      rw [if_neg (by omega), hsplit, List.getElem?_append_right (Nat.le_refl _), Nat.sub_self]
      rfl
    have hnext : charAt str (front.length + 1) = some (ch 'x') := by
      unfold charAt
      rw [if_neg (by omega), hsplit, List.getElem?_append_right (Nat.le_succ _),
        show front.length.succ - front.length = 1 by omega]
      rfl
    have hdrop : str.drop (front.length + 1) = ch 'x' :: hexDigit upper (c.toNat / 16) ::
        hexDigit upper (c.toNat % 16) :: escape upper bs := by
      rw [hsplit, List.drop_length_add_append]
      rfl
    have hwr : wr buffer i c = some (buffer.set i c) := by
      unfold wr
      rw [if_pos (by omega), Int.toNat_natCast]
    have hfront : front.length + 1 + (3 - 1) + 1 = (front ++ escapeByte upper c).length := by
      rw [List.length_append]
      rfl
    have hrest := ih (front ++ escapeByte upper c) str fuel (buffer.set i c) (i + 1)
      (by rw [hstr, escape, List.flatMap_cons, List.append_assoc]; rfl) hfits (by omega)
      (by rw [List.length_set]; exact hle) (by omega)
    rw [set_split c (by omega)] at hrest
    unfold cformLoop
    rw [if_pos ⟨by omega, by omega⟩]
    simp only [hchar, Option.bind_eq_bind, Option.bind_some, ne_eq, not_true, if_false, hp, hnext,
      show esca.lookup (ch 'x') = none from rfl, hdrop, scanEscape_byte, hwr]
    rw [inc_eq (by omega), inc_eq (by omega), hfront, hrest]
    rw [show i + 1 + bs.length = i + (bs.length + 1) by omega]

end Decode

lemma escape_length (upper : Bool) (bs : Bytes) : (escape upper bs).length = 4 * bs.length := by
  induction bs with
  | nil => rfl
  | cons c bs ih =>
    have hcons : escape upper (c :: bs) = escapeByte upper c ++ escape upper bs := rfl
    rw [hcons, List.length_append, ih, List.length_cons]
    have hfour : (escapeByte upper c).length = 4 := rfl
    omega

/-- Canonical escapes decode to their bytes, and every string is decoded inside the buffer. -/
theorem parseCform_decodes :
    (∀ (upper : Bool) (bytes : Bytes) (room : Room) (str : CStr), str.text = escape upper bytes →
      bytes.length ≤ room.blen →
      parseCform room.buffer room.blen str.text =
        some (bytes.length, bytes ++ room.buffer.drop bytes.length)) ∧
    ∀ (room : Room) (str : CStr), InBounds room str := by
  constructor
  · intro upper bytes room str hstr hroom
    have hlen := escape_length upper bytes
    rw [← hstr] at hlen
    have hloop := cformLoop_escape upper room.size bytes [] str.text (str.text.length + 1)
      room.buffer 0 hstr str.fits (by omega) room.fits (by omega)
    rw [Nat.zero_add] at hloop
    exact hloop
  · intro room str
    exact cformLoop_bounds str.fits room.size _ room.buffer 0 0 room.fits (Nat.zero_le _)
      (Nat.zero_le _) (Nat.lt_succ_self _)

/-- `\x16\x03` -/
def handshake : CStr where
  text := escape false [0x16, 0x03]
  nonzero := by decide +kernel
  fits := by decide

def handshakeRoom : Room where
  buffer := List.replicate 8 0
  blen := 8
  fits := by decide
  size := by decide

theorem parseCform_decodes_handshake :
    parseCform handshakeRoom.buffer 8 handshake.text =
        some (2, [0x16, 0x03] ++ handshakeRoom.buffer.drop 2) ∧
      InBounds handshakeRoom handshake := by
  obtain ⟨hcanonical, hbounds⟩ := parseCform_decodes
  exact ⟨hcanonical false [0x16, 0x03] handshakeRoom handshake rfl (by decide),
    hbounds handshakeRoom handshake⟩

end Escapes
