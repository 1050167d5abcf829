import NoZapret.PacketsSpec
import NoZapret.TlsVerdict

/-!
# The name in a ClientHello

A ClientHello in one record, with one compression method and a name, as the bytes it is sent
as. `parse_tls` finds the name in them, and no buffer takes it outside of its bytes.
-/

namespace SniRoundTrip

open Block Frames Packets PacketsSpec TlsVerdict

/-- An extension: its type, and a body whose length takes two bytes. -/
structure Ext where
  type : Nat
  body : Bytes
  typeFits : type < 65536
  bodyFits : body.length < 65536

def Ext.bytes (e : Ext) : Bytes := frame (be16 e.type) e.body

/-- A list of names that holds one host name. -/
def nameList (host : Bytes) : Bytes := be16 (host.length + 3) ++ 0 :: frame [] host

/-- A ClientHello with one compression method. `after` may be empty only if the name has four
bytes or more. -/
structure Hello where
  /-- the low byte of the version in the record's header -/
  minor : UInt8
  /-- version and random -/
  start : Bytes
  sid : Bytes
  ciphers : Bytes
  compression : UInt8
  before : List Ext
  host : Bytes
  after : List Ext
  startLength : start.length = 34
  sidFits : sid.length < 256
  ciphersFits : ciphers.length < 65536
  listFits : (before.flatMap Ext.bytes ++ frame (be16 0) (nameList host) ++
    after.flatMap Ext.bytes).length < 65536
  alone : ∀ e ∈ before ++ after, e.type ≠ 0
  named : host ≠ []
  room : 4 ≤ host.length ∨ after ≠ []

example : ∃ h : Hello, h.host = ascii ['a', '.', 'i', 'o'] :=
  ⟨{ minor := 1, start := List.replicate 34 0, sid := [], ciphers := [0x13, 0x01],
     compression := 0, before := [], host := ascii ['a', '.', 'i', 'o'], after := [],
     startLength := by decide, sidFits := by decide, ciphersFits := by decide,
     listFits := by decide, alone := by simp, named := by decide, room := .inl (by decide) }, rfl⟩

namespace Hello

variable (h : Hello)

def extensions : Bytes :=
  h.before.flatMap Ext.bytes ++ frame (be16 0) (nameList h.host) ++ h.after.flatMap Ext.bytes

/-- The message behind its type and length. -/
def body : Bytes :=
  h.start ++ UInt8.ofNat h.sid.length :: h.sid ++ frame [] h.ciphers ++ [1, h.compression] ++
    frame [] h.extensions

def handshake : Bytes :=
  0x01 :: UInt8.ofNat (h.body.length / 65536) :: be16 (h.body.length % 65536) ++ h.body

def record : Bytes := frame [0x16, 0x03, h.minor] h.handshake

/-- The bytes up to the session id. -/
def head : Bytes :=
  [0x16, 0x03, h.minor] ++ be16 h.handshake.length ++
    (0x01 :: UInt8.ofNat (h.body.length / 65536) :: be16 (h.body.length % 65536)) ++ h.start

/-- The bytes up to the list of extensions. -/
def lead : Bytes :=
  h.head ++ [UInt8.ofNat h.sid.length] ++ h.sid ++ frame [] h.ciphers ++ [1, h.compression]

/-- The bytes up to the extension with the name. -/
def walked : Bytes := h.lead ++ be16 h.extensions.length ++ h.before.flatMap Ext.bytes

/-- Where the name stands. -/
def hostAt : Nat := h.walked.length + 9

end Hello

section Walk

variable {b : Bytes} {type size fuel : Nat}

lemma Ext.bytes_length (e : Ext) : e.bytes.length = e.body.length + 4 := by
  simp only [Ext.bytes, frame_length, be16_length]
  omega

/-- The loop passes over extensions of other types. -/
lemma findTlsExtFrom_walk (lead more : Bytes) {exts : List Ext} (hother : ∀ e ∈ exts, e.type ≠ type)
    (htype : type < 65536) (hb : b = lead ++ (exts.flatMap Ext.bytes ++ (be16 type ++ more)))
    (hsize : lead.length + (exts.flatMap Ext.bytes).length + 4 < size)
    (hfuel : exts.length < fuel) :
    findTlsExtFrom type b size fuel lead.length =
      some (lead.length + (exts.flatMap Ext.bytes).length) := by
  induction exts generalizing lead fuel with
  | nil =>
    obtain ⟨fuel, rfl⟩ := Nat.exists_eq_succ_of_ne_zero (Nat.ne_zero_of_lt hfuel)
    have hread : antohs b lead.length = some type :=
      antohs_be16 (z := more) htype (by simp [hb]) rfl
    have hroom : lead.length + 4 < size := by simpa using hsize
    simp only [findTlsExtFrom, hroom, if_true, hread, Option.bind_eq_bind, Option.bind_some]
    simp
  | cons e exts ih =>
    obtain ⟨fuel, rfl⟩ := Nat.exists_eq_succ_of_ne_zero (Nat.ne_zero_of_lt hfuel)
    have hlen := e.bytes_length
    simp only [List.flatMap_cons, List.length_append] at hsize
    have hroom : lead.length + 4 < size := by omega
    have hread : antohs b lead.length = some e.type := by
      refine antohs_be16 (z := be16 e.body.length ++ e.body ++
        (exts.flatMap Ext.bytes ++ (be16 type ++ more))) e.typeFits ?_ rfl
      simp [hb, Ext.bytes, frame]
    have hread' : antohs b ((lead.length : Int) + 2) = some e.body.length := by
      refine antohs_be16 (x := lead ++ be16 e.type) (z := e.body ++
        (exts.flatMap Ext.bytes ++ (be16 type ++ more))) e.bodyFits ?_ ?_
      · simp [hb, Ext.bytes, frame]
      · simp only [List.length_append, be16_length]
        omega
    have hne : type ≠ e.type := (hother e List.mem_cons_self).symm
    have hnext := ih (lead ++ e.bytes) (fun x hx => hother x (List.mem_cons_of_mem e hx))
      (by simp [hb]) (by rw [List.length_append]; omega) (Nat.lt_of_succ_lt_succ hfuel)
    have hat : (lead ++ e.bytes).length = lead.length + e.body.length + 4 := by
      rw [List.length_append, hlen]
      omega
    rw [hat] at hnext
    simp only [findTlsExtFrom, hroom, if_true, hread, hread', hne, if_false, Option.bind_eq_bind,
      Option.bind_some, hnext, List.flatMap_cons, List.length_append, hlen]
    congr 1
    omega

end Walk

section Bounds

/-- `parse_tls` stays inside, and its loop ends. -/
theorem parseTls_total (b : Bytes) : (parseTls b b.length).isSome := by
  obtain ⟨skip, hskip⟩ := findExtBlock_total (Nat.le_refl b.length)
  obtain ⟨offs, hoffs, -⟩ := findTlsExtOffset_total 0 skip (Nat.le_refl b.length)
  simp only [parseTls, isTlsChello_eq (Nat.le_refl b.length), hskip, hoffs, Option.bind_eq_bind,
    Option.bind_some]
  by_cases hhello : (!(decide (5 < b.length) && helloOf 0x01 b)) = true
  · rw [if_pos hhello]
    rfl
  rw [if_neg hhello]
  by_cases hnone : skip = 0
  · rw [if_pos hnone]
    rfl
  rw [if_neg hnone]
  by_cases hmiss : offs = 0 ∨ offs + 12 ≥ b.length
  · rw [if_pos hmiss]
    rfl
  rw [if_neg hmiss]
  obtain ⟨hi, lo, -, -, hlen⟩ := antohs_some (b := b) (i := offs + 7) (by omega)
  have hlen : antohs b ((offs : Int) + 7) = _ := hlen
  rw [hlen, Option.bind_some]
  split <;> rfl

end Bounds

namespace Hello

variable (h : Hello) (rest : Bytes)

lemma head_length : h.head.length = 43 := by
  simp [head, h.startLength]

lemma lead_length : h.lead.length = 44 + h.sid.length + 2 + h.ciphers.length + 2 := by
  simp only [lead, List.length_append, head_length, frame_length, List.length_nil,
    List.length_cons]
  omega

lemma record_lead : h.record = h.lead ++ frame [] h.extensions := by
  simp [record, handshake, body, lead, head, frame]

lemma extensions_length : h.extensions.length =
    (h.before.flatMap Ext.bytes).length + (h.host.length + 9) +
      (h.after.flatMap Ext.bytes).length := by
  simp only [extensions, nameList, List.length_append, frame_length, be16_length,
    List.length_cons, List.length_nil]
  omega

lemma walked_length :
    h.walked.length = h.lead.length + 2 + (h.before.flatMap Ext.bytes).length := by
  simp only [walked, List.length_append, be16_length]

/-- The record around its name. -/
lemma record_host : h.record = h.walked ++ be16 0 ++ be16 (nameList h.host).length ++
    be16 (h.host.length + 3) ++ 0 :: be16 h.host.length ++ (h.host ++
      h.after.flatMap Ext.bytes) := by
  simp [record_lead, walked, extensions, frame, nameList]

lemma record_length : h.record.length = h.lead.length + 2 + h.extensions.length := by
  rw [record_lead]
  simp only [List.length_append, frame_length, List.length_nil]
  omega

lemma isTlsChello_record :
    isTlsChello (h.record ++ rest) (h.record ++ rest).length = some true := by
  have hlead := h.lead_length
  have hrecord := h.record_length
  rw [isTlsChello_eq (Nat.le_refl _)]
  have hlong : decide (5 < (h.record ++ rest).length) = true := by
    rw [decide_eq_true_eq, List.length_append]
    omega
  have hhello : helloOf 0x01 (h.record ++ rest) = true := by
    simp [helloOf, record, handshake, frame, be16]
  rw [hlong, hhello]
  rfl

lemma findExtBlock_record :
    findExtBlock (h.record ++ rest) (h.record ++ rest).length = some h.lead.length := by
  have hlead := h.lead_length
  have hrecord := h.record_length
  have hsize : (h.record ++ rest).length = h.record.length + rest.length := List.length_append
  have hread : rd (h.record ++ rest) 43 = some (UInt8.ofNat h.sid.length) := by
    refine rd_splice (x := h.head) (z := h.sid ++ frame [] h.ciphers ++ [1, h.compression] ++
      frame [] h.extensions ++ rest) ?_ ?_
    · simp [record_lead, lead]
    · rw [head_length]
      rfl
  have hsid : (UInt8.ofNat h.sid.length).toNat = h.sid.length := by
    have hfits := h.sidFits
    rw [UInt8.toNat_ofNat']
    omega
  have hword : antohs (h.record ++ rest) (44 + (h.sid.length : Int)) = some h.ciphers.length := by
    refine antohs_be16 (x := h.head ++ [UInt8.ofNat h.sid.length] ++ h.sid) (z := h.ciphers ++
      [1, h.compression] ++ frame [] h.extensions ++ rest) h.ciphersFits ?_ ?_
    · simp [record_lead, lead, frame]
    · simp only [List.length_append, head_length, List.length_singleton]
      omega
  simp only [findExtBlock, hread, hsid, hword, Option.bind_eq_bind, Option.bind_some]
  rw [if_neg (by omega), if_neg (by omega), if_neg (by omega), hlead]
  rfl

lemma findTlsExtOffset_record :
    findTlsExtOffset 0 (h.record ++ rest) (h.record ++ rest).length h.lead.length =
      some h.walked.length := by
  have hrecord := h.record_length
  have hext := h.extensions_length
  have hsize : (h.record ++ rest).length = h.record.length + rest.length := List.length_append
  have hword : antohs (h.record ++ rest) h.lead.length = some h.extensions.length :=
    antohs_be16 (z := h.extensions ++ rest) h.listFits (by simp [record_lead, frame]) rfl
  have hend : (if h.extensions.length < (h.record ++ rest).length - (h.lead.length + 2) then
      h.extensions.length + (h.lead.length + 2) else (h.record ++ rest).length) =
      h.record.length := by
    split <;> omega
  have hfuel : h.before.length ≤ (h.before.flatMap Ext.bytes).length := by
    generalize h.before = exts
    induction exts with
    | nil => exact Nat.le_refl 0
    | cons e exts ih =>
      rw [List.flatMap_cons, List.length_append, e.bytes_length, List.length_cons]
      omega
  have hwalk : findTlsExtFrom 0 (h.record ++ rest) h.record.length (h.record.length + 1)
      (h.lead ++ be16 h.extensions.length).length =
      some ((h.lead ++ be16 h.extensions.length).length +
        (h.before.flatMap Ext.bytes).length) := by
    refine findTlsExtFrom_walk _ (be16 (nameList h.host).length ++ nameList h.host ++
      h.after.flatMap Ext.bytes ++ rest) (fun e he => h.alone e (List.mem_append_left _ he))
      (by omega) (by simp [record_lead, extensions, frame]) ?_ (by omega)
    simp only [List.length_append, be16_length]
    omega
  have hat : (h.lead ++ be16 h.extensions.length).length = h.lead.length + 2 := List.length_append
  rw [hat, ← walked_length] at hwalk
  simp only [findTlsExtOffset, hword, Option.bind_eq_bind, Option.bind_some, hend, hwalk]
  rw [if_neg (by omega)]

lemma nameLength_record :
    antohs (h.record ++ rest) ((h.walked.length : Int) + 7) = some h.host.length := by
  have hext := h.extensions_length
  have hfits : h.extensions.length < 65536 := h.listFits
  refine antohs_be16 (x := h.walked ++ be16 0 ++ be16 (nameList h.host).length ++
    be16 (h.host.length + 3) ++ [0]) (z := h.host ++ h.after.flatMap Ext.bytes ++ rest)
    (by omega) ?_ ?_
  · simp [record_host]
  · simp only [List.length_append, be16_length, List.length_singleton]
    omega

/-- The name is the bytes at its place. -/
lemma slice_host :
    slice (h.record ++ rest) h.hostAt h.host.length = some h.host := by
  refine slice_splice (x := h.walked ++ be16 0 ++ be16 (nameList h.host).length ++
    be16 (h.host.length + 3) ++ 0 :: be16 h.host.length) (z := h.after.flatMap Ext.bytes ++ rest)
    ?_ ?_ rfl
  · simp [record_host]
  · simp only [hostAt, List.length_append, be16_length, List.length_cons]

/-- Enough bytes follow the extension with the name. -/
lemma room_behind : h.walked.length + 12 < (h.record ++ rest).length ∧
    h.walked.length + 9 + h.host.length ≤ (h.record ++ rest).length := by
  have hrecord := h.record_length
  have hext := h.extensions_length
  have hwalked := h.walked_length
  have hsize : (h.record ++ rest).length = h.record.length + rest.length := List.length_append
  have hhost : 0 < h.host.length := List.length_pos_iff.mpr h.named
  refine ⟨?_, by omega⟩
  rcases h.room with hlong | hafter
  · omega
  · obtain ⟨e, es, hes⟩ := List.exists_cons_of_ne_nil hafter
    have hbytes : (h.after.flatMap Ext.bytes).length =
        e.body.length + 4 + (es.flatMap Ext.bytes).length := by
      rw [hes, List.flatMap_cons, List.length_append, e.bytes_length]
    omega

end Hello

/-- `parse_tls` gives back the name of a ClientHello, whatever follows it in the buffer, and no
buffer takes it outside of its bytes. -/
theorem sni_round_trip :
    (∀ (h : Hello) (rest : Bytes),
      parseTls (h.record ++ rest) (h.record ++ rest).length =
          some ⟨h.host.length, some h.hostAt, none⟩ ∧
        slice (h.record ++ rest) h.hostAt h.host.length = some h.host) ∧
    ∀ b : Bytes, (parseTls b b.length).isSome := by
  refine ⟨?_, parseTls_total⟩
  intro h rest
  refine ⟨?_, h.slice_host rest⟩
  obtain ⟨hroom, hfits⟩ := h.room_behind rest
  have hlead := h.lead_length
  have hwalked := h.walked_length
  have hne : h.lead.length ≠ 0 := by omega
  have hmiss : ¬ (h.walked.length = 0 ∨ h.walked.length + 12 ≥ (h.record ++ rest).length) := by
    omega
  simp only [parseTls, h.isTlsChello_record, h.findExtBlock_record, h.findTlsExtOffset_record,
    h.nameLength_record, Option.bind_eq_bind, Option.bind_some, Bool.not_true,
    Bool.false_eq_true, if_false, hne, hmiss]
  rw [if_neg (by omega)]
  rfl

end SniRoundTrip
