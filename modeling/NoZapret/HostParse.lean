import NoZapret.HostValue
import NoZapret.InetText

/-!
# A well-formed `Host` line

Which lines that follow the grammar of the field `parse_http` reads as they are meant.
-/

namespace HostParse

open Block HostLine HostValue Numbers Packets

def isalpha (c : UInt8) : Bool := (65 ≤ c && c ≤ 90) || (97 ≤ c && c ≤ 122)

/-- The bytes of a registered name; those of an IPv4 address are among them. -/
def nameByte (c : UInt8) : Bool :=
  isalpha c || isdigit c ||
    (ascii ['-', '.', '_', '~', '%', '!', '$', '&', '\'', '(', ')', '*', '+', ',', ';',
      '=']).contains c

/-- The bytes of an IPv6 address. -/
def addressByte (c : UInt8) : Bool :=
  isdigit c || (65 ≤ c && c ≤ 70) || (97 ≤ c && c ≤ 102) || c == ch ':' || c == ch '.'

inductive Host where
  | name (text : Bytes) (plain : ∀ c ∈ text, nameByte c = true)
  | bracketed (text : Bytes) (plain : ∀ c ∈ text, addressByte c = true)

def Host.text : Host → Bytes
  | .name text _ => text
  | .bracketed text _ => text

/-- How the host stands in the line. -/
def Host.shown : Host → Bytes
  | .name text _ => text
  | .bracketed text _ => ch '[' :: text ++ [ch ']']

structure Port where
  digits : Bytes
  decimal : ∀ c ∈ digits, isdigit c = true
  range : 1 ≤ value 0 digits ∧ value 0 digits ≤ 65535

/-- The host and the port of a line. -/
def core (host : Host) (port : Option Port) : Bytes :=
  host.shown ++ port.elim [] fun p => ch ':' :: p.digits

/-- A buffer with such a line: what comes before the value, the value with optional white space
around it, and what follows. -/
structure Request where
  lead : Bytes
  before : Bytes
  host : Host
  port : Option Port
  after : Bytes
  rest : Bytes
  blank : ∀ c ∈ before ++ after, c = ch ' ' ∨ c = ch '\t'
  field : Occurs lead hostField (lead.length - 6)
  first : ∀ j, Occurs (lead ++ (before ++ core host port ++ after ++ [ch '\r'] ++ ch '\n' :: rest))
    hostField j → lead.length ≤ j + 6

def Request.line (r : Request) : Bytes :=
  r.before ++ core r.host r.port ++ r.after ++ [ch '\r']

def Request.buffer (r : Request) : Bytes := r.lead ++ (r.line ++ ch '\n' :: r.rest)

/-- The given port, or 80. -/
def Request.portOr80 (r : Request) : Nat := r.port.elim 80 fun p => (value 0 p.digits).toNat

/-- The parser returns the host's bytes and stores the port. -/
def Exact (r : Request) (wantPort : Bool) : Prop :=
  ∃ hs, parseHttp r.buffer r.buffer.length wantPort =
      some ⟨r.host.text.length, some hs, if wantPort then some r.portOr80 else none⟩ ∧
    slice r.buffer hs r.host.text.length = some r.host.text

/-- The digits at the end of an address stand behind a colon, or there are none. -/
def PortLike (text : Bytes) : Prop := (text.rdropWhile isdigit).getLast? = some (ch ':')

/-- The lines that are read as they are meant. -/
def Plain (r : Request) : Prop :=
  match r.port, r.host with
  | some _, _ => ch '\t' ∉ r.before
  | none, .bracketed text _ => ch '\t' ∉ r.before ∧ ¬ PortLike text
  | none, .name [] _ => (r.before ++ r.after).head? ≠ some (ch ' ')
  | none, .name (c :: text) _ => ch '\t' ∉ r.before ∧
      (r.before = [] → ∃ d ∈ (c :: text).dropLast, isdigit d = false)

section Bytes

lemma nameByte_spec {c : UInt8} (h : nameByte c = true) :
    isspace c = false ∧ c ≠ ch ':' ∧ c ≠ ch '[' ∧ c ≠ ch ']' := by
  have hall := Inet.forall_byte (p := fun c => !nameByte c ||
    (!isspace c && c != ch ':' && c != ch '[' && c != ch ']')) (by decide +kernel) c
  simpa [h, and_assoc] using hall

lemma addressByte_spec {c : UInt8} (h : addressByte c = true) :
    isspace c = false ∧ c ≠ ch '[' ∧ c ≠ ch ']' := by
  have hall := Inet.forall_byte (p := fun c => !addressByte c ||
    (!isspace c && c != ch '[' && c != ch ']')) (by decide +kernel) c
  simpa [h, and_assoc] using hall

lemma core_visible {host : Host} {port : Option Port} {c : UInt8} (h : c ∈ core host port) :
    isspace c = false := by
  rcases List.mem_append.mp h with h | h
  · cases host with
    | name text plain => exact (nameByte_spec (plain c h)).1
    | bracketed text plain =>
      simp only [Host.shown, List.cons_append, List.mem_cons, List.mem_append, List.not_mem_nil,
        or_false] at h
      rcases h with rfl | h | rfl
      · decide
      · exact (addressByte_spec (plain c h)).1
      · decide
  · cases port with
    | none => cases h
    | some p =>
      rcases List.mem_cons.mp h with rfl | h
      · decide
      · exact isspace_digit (p.decimal c h)

lemma Port.digits_ne (p : Port) : p.digits ≠ [] := by
  intro h
  have hrange := p.range
  rw [h] at hrange
  exact absurd hrange.1 (by decide)

lemma Port.number (p : Port) : portNumber p.digits = some (value 0 p.digits).toNat := by
  have hrange := p.range
  have hall : p.digits.all isdigit = true := List.all_eq_true.mpr p.decimal
  rw [portNumber, if_pos ⟨hall, by omega, by omega⟩]

end Bytes

section Line

variable (r : Request)

lemma Request.before_space {c : UInt8} (h : c ∈ r.before ++ r.after) : isspace c = true := by
  rcases r.blank c h with rfl | rfl <;> decide

lemma Request.hostText : HostText r.buffer r.lead r.line r.rest := by
  refine ⟨rfl, r.field, r.first, ?_⟩
  intro h
  have hvisible : ∀ c : UInt8, c ∈ core r.host r.port → c ≠ ch '\n' := by
    rintro c hc rfl
    exact absurd (core_visible hc) (by decide)
  simp only [Request.line, List.mem_append, List.mem_singleton] at h
  rcases h with ((h | h) | h) | h
  · rcases r.blank _ (List.mem_append_left _ h) with h | h <;> exact absurd h (by decide)
  · exact hvisible _ h rfl
  · rcases r.blank _ (List.mem_append_right _ h) with h | h <;> exact absurd h (by decide)
  · exact absurd h (by decide)

/-- The text without the white space at its end. -/
lemma Request.trimmed :
    r.line.rdropWhile isspace = if core r.host r.port = [] then [] else
      r.before ++ core r.host r.port := by
  have htail : ∀ d ∈ r.after ++ [ch '\r'], isspace d = true := by
    intro d hd
    rcases List.mem_append.mp hd with hd | hd
    · exact r.before_space (List.mem_append_right _ hd)
    · rw [List.mem_singleton.mp hd]
      decide
  have hsplit : r.line = r.before ++ core r.host r.port ++ (r.after ++ [ch '\r']) := by
    simp [Request.line]
  rw [hsplit, rdropWhile_pass htail]
  split
  · next hcore =>
    rw [hcore, List.append_nil, List.rdropWhile_eq_nil_iff]
    exact fun c hc => r.before_space (List.mem_append_left _ hc)
  · next hcore =>
    rw [List.rdropWhile_eq_self_iff]
    intro hne
    rw [List.getLast_append_of_right_ne_nil _ _ hcore, Bool.not_eq_true]
    exact core_visible (List.getLast_mem hcore)

lemma exact_iff (wantPort : Bool) : Exact r wantPort ↔
    isHttp r.buffer r.buffer.length = some true ∧
      ∃ hs, valueRef wantPort r.lead.length r.line =
          ⟨r.host.text.length, some hs, if wantPort then some r.portOr80 else none⟩ ∧
        slice r.buffer hs r.host.text.length = some r.host.text := by
  by_cases hhttp : isHttp r.buffer r.buffer.length = some true
  · simp only [Exact, parseHttp_text r.hostText hhttp wantPort, Option.some.injEq, hhttp, true_and]
  · have hmiss : parseHttp r.buffer r.buffer.length wantPort = some .miss :=
      parseHttp_miss fun h => absurd h hhttp
    simp [Exact, hmiss, hhttp, HostRef.miss]

end Line

section Reads

variable {r : Request} {wantPort : Bool} {e : Int} {port : Option Bytes}

/-- The host as the text of the line is read. -/
def Reads (r : Request) (wantPort : Bool) : Prop :=
  ∃ hs, valueRef wantPort r.lead.length r.line =
      ⟨r.host.text.length, some hs, if wantPort then some r.portOr80 else none⟩ ∧
    slice r.buffer hs r.host.text.length = some r.host.text

lemma line_ne_bracket {c : UInt8} (h : isspace c = true) : c ≠ ch '[' := by
  rintro rfl
  exact absurd h (by decide)

/-- Where there is nothing but white space, the host begins behind the blanks and ends before
them. -/
lemma empty_iff (hcore : core r.host r.port = []) :
    Reads r wantPort ↔ (r.before ++ r.after).head? ≠ some (ch ' ') := by
  have htext : r.host.text = [] ∧ r.port = none := by
    obtain ⟨hshown, hport⟩ := List.append_eq_nil_iff.mp hcore
    constructor
    · cases hhost : r.host with
      | name text plain =>
        rw [hhost] at hshown
        exact hshown
      | bracketed text plain =>
        rw [hhost] at hshown
        cases hshown
    · cases hp : r.port with
      | none => rfl
      | some p =>
        rw [hp] at hport
        cases hport
  obtain ⟨htext, hport⟩ := htext
  have hline : r.line = r.before ++ r.after ++ [ch '\r'] := by
    rw [Request.line, hcore, List.append_nil]
  have hspace : ∀ c ∈ r.line, isspace c = true := by
    intro c hc
    rw [hline] at hc
    rcases List.mem_append.mp hc with hc | hc
    · exact r.before_space hc
    · rw [List.mem_singleton.mp hc]
      decide
  have htrim : r.line.rdropWhile isspace = [] := by
    rw [r.trimmed, if_pos hcore]
  have hopen : r.line[(blanks r.line).length]? ≠ some (ch '[') := by
    intro h
    exact line_ne_bracket (hspace _ (List.mem_of_getElem? h)) rfl
  have hanswer : valueRef wantPort r.lead.length r.line =
      ⟨-(blanks r.line).length, some (r.lead.length + (blanks r.line).length),
        if wantPort then some 80 else none⟩ := by
    have hend : valueEnd [] = (0, none) := rfl
    simp only [valueRef, htrim, hend, portRef, if_neg hopen, Int.zero_sub]
  have hhead : blanks r.line = [] ↔ (r.before ++ r.after).head? ≠ some (ch ' ') := by
    rw [blanks, hline]
    cases r.before ++ r.after with
    | nil => exact ⟨fun _ => by simp, fun _ => by decide⟩
    | cons c cs => simp [List.takeWhile_cons]
  have hslice : slice r.buffer r.lead.length 0 = some [] :=
    slice_text r.lead [] (r.line ++ ch '\n' :: r.rest)
  rw [← hhead, Reads, hanswer, htext]
  simp only [Request.portOr80, hport, Option.elim_none, List.length_nil]
  constructor
  · rintro ⟨hs, h, -⟩
    simp only [HostRef.mk.injEq] at h
    apply List.length_eq_zero_iff.mp
    omega
  · intro h
    refine ⟨r.lead.length, ?_, hslice⟩
    simp [h]

/-- A tab is taken for the first byte of the host. -/
lemma tab_not_read (htab : ch '\t' ∈ r.before) (hcore : core r.host r.port ≠ []) :
    ¬ Reads r wantPort := by
  rintro ⟨hs, href, hslice⟩
  have hvisible : ∀ c ∈ r.host.text, isspace c = false := by
    intro c hc
    refine core_visible (?_ : c ∈ core r.host r.port)
    refine List.mem_append_left _ ?_
    cases hhost : r.host with
    | name text plain =>
      rw [hhost] at hc
      exact hc
    | bracketed text plain =>
      rw [hhost] at hc
      simp only [Host.shown, List.cons_append, List.mem_cons, List.mem_append]
      exact .inr (.inl hc)
  -- the byte behind the blanks is a tab
  obtain ⟨before', hbefore⟩ : ∃ before', r.before = blanks r.before ++ ch '\t' :: before' := by
    have hsplit := blanks_split r.before
    cases htail : r.before.dropWhile (· == ch ' ') with
    | nil =>
      rw [htail, List.append_nil] at hsplit
      rw [← hsplit] at htab
      exact absurd (mem_blanks htab) (by decide)
    | cons c before' =>
      have hc := List.head?_dropWhile_not (· == ch ' ') r.before
      rw [htail] at hc
      have hmem : c ∈ r.before := by
        rw [← hsplit, htail]
        simp
      have hne : c ≠ ch ' ' := by simpa using hc
      have heq := (r.blank c (List.mem_append_left _ hmem)).resolve_left hne
      exact ⟨before', by rw [← heq, ← htail, hsplit]⟩
  have hline : r.line = blanks r.before ++ (ch '\t' :: before' ++ core r.host r.port ++ r.after ++
      [ch '\r']) := by
    rw [Request.line]
    conv_lhs => rw [hbefore]
    simp
  have hblanks : blanks r.line = blanks r.before := by
    have hpass : ∀ x ∈ blanks r.before, (x == ch ' ') = true := by
      intro x hx
      rw [mem_blanks hx]
      decide
    rw [hline]
    conv_lhs => rw [blanks, List.takeWhile_append_of_pos hpass]
    simp [show (ch '\t' == ch ' ') = false by decide]
  have hcell : r.line[(blanks r.before).length]? = some (ch '\t') := by
    rw [hline]
    simp
  have htabAt : r.before[(blanks r.before).length]? = some (ch '\t') := by
    generalize hn : blanks r.before = n at hbefore
    rw [hbefore]
    simp
  have htrim : r.line.rdropWhile isspace = r.before ++ core r.host r.port := by
    rw [r.trimmed, if_neg hcore]
  have hlong : ((blanks r.before).length : Int) < (valueEnd (r.before ++ core r.host r.port)).1 := by
    apply valueEnd_gt (x := ch '\t') _ (by decide) (by decide)
    · have hpos := List.length_pos_iff.mpr hcore
      have hlen := congrArg List.length hbefore
      simp only [List.length_append, List.length_cons] at hlen ⊢
      omega
    · have hlt := (List.getElem?_eq_some_iff.mp htabAt).1
      rw [List.getElem?_append_left hlt, htabAt]
  cases hend : valueEnd (r.before ++ core r.host r.port) with
  | mk e port =>
    rw [hend] at hlong
    simp only [valueRef, htrim, hend, hblanks, hcell, Option.some.injEq,
      show ¬ ch '\t' = ch '[' by decide, if_false] at href
    cases hport : portRef wantPort port with
    | none =>
      rw [hport] at href
      simp [HostRef.miss] at href
    | some p =>
      rw [hport] at href
      simp only [HostRef.mk.injEq, Option.some.injEq] at href
      obtain ⟨hlen, hs, -⟩ := href
      have hfirst := slice_get hslice (Int.le_refl 0) (by omega)
      rw [Int.add_zero, ← hs] at hfirst
      have hread : rd r.buffer ((r.lead.length : Int) + (blanks r.before).length) =
          some (ch '\t') := by
        have hsum : (r.lead.length : Int) + (blanks r.before).length =
            ((r.lead.length + (blanks r.before).length : Nat) : Int) := by omega
        rw [hsum, rd_nat, Request.buffer, List.getElem?_append_right (Nat.le_add_right _ _),
          Nat.add_sub_cancel_left, List.getElem?_append_left, hcell]
        exact (List.getElem?_eq_some_iff.mp hcell).1
      rw [hread] at hfirst
      exact absurd (hvisible _ (List.mem_of_getElem? hfirst)) (by decide)

/-- The answer for a line that has blanks before its host. -/
lemma answer (wantPort : Bool) (htab : ch '\t' ∉ r.before) (hcore : core r.host r.port ≠ [])
    (hend : valueEnd (r.before ++ core r.host r.port) = (e, port)) :
    valueRef wantPort r.lead.length r.line =
      match portRef wantPort port with
      | none => .miss
      | some p =>
        if (core r.host r.port).head? = some (ch '[') then
          if 0 < e ∧ (r.before ++ core r.host r.port)[(e - 1).toNat]? = some (ch ']') then
            ⟨e - 1 - (r.before.length + 1), some (r.lead.length + r.before.length + 1), p⟩
          else ⟨0, none, p⟩
        else ⟨e - r.before.length, some (r.lead.length + r.before.length), p⟩ := by
  have hpass : ∀ c ∈ r.before, (c == ch ' ') = true := by
    intro c hc
    rcases r.blank c (List.mem_append_left _ hc) with rfl | rfl
    · decide
    · exact absurd hc htab
  obtain ⟨c, tail, htail⟩ := List.exists_cons_of_ne_nil hcore
  have hc : (c == ch ' ') = false := by
    rw [beq_eq_false_iff_ne]
    rintro rfl
    have hmem : ch ' ' ∈ core r.host r.port := by
      rw [htail]
      exact List.mem_cons_self
    exact absurd (core_visible hmem) (by decide)
  have hline : r.line = r.before ++ (c :: tail ++ (r.after ++ [ch '\r'])) := by
    rw [Request.line, htail]
    simp
  have hblanks : blanks r.line = r.before := by
    rw [blanks, hline, List.takeWhile_append_of_pos hpass]
    simp [hc]
  have hcell : r.line[r.before.length]? = some c := by
    rw [hline]
    simp
  have htrim : r.line.rdropWhile isspace = r.before ++ core r.host r.port := by
    rw [r.trimmed, if_neg hcore]
  rw [htail] at htrim hend ⊢
  simp only [valueRef, htrim, hend, hblanks, hcell, List.head?_cons]
  rfl

/-- A host that is found to end where it does is read. -/
lemma reads_of_end {q : Option Bytes} (htab : ch '\t' ∉ r.before) (hcore : core r.host r.port ≠ [])
    (hend : valueEnd (r.before ++ core r.host r.port) =
      (((r.before.length + r.host.shown.length : Nat) : Int), q))
    (href : portRef wantPort q = some (if wantPort then some r.portOr80 else none)) :
    Reads r wantPort := by
  have hanswer := answer wantPort htab hcore hend
  simp only [href] at hanswer
  obtain ⟨more, hmore⟩ : ∃ more, core r.host r.port = r.host.shown ++ more := ⟨_, rfl⟩
  have hbuffer : r.buffer = r.lead ++ r.before ++ (r.host.shown ++
      (more ++ (r.after ++ [ch '\r'] ++ ch '\n' :: r.rest))) := by
    simp [Request.buffer, Request.line, hmore]
  cases hhost : r.host with
  | name text plain =>
    have hopen : (core r.host r.port).head? ≠ some (ch '[') := by
      intro h
      rcases List.mem_append.mp (List.mem_of_mem_head? h) with hmem | hmem
      · rw [hhost] at hmem
        exact (nameByte_spec (plain _ hmem)).2.2.1 rfl
      · cases hport : r.port with
        | none =>
          rw [hport] at hmem
          cases hmem
        | some p =>
          rw [hport] at hmem
          rcases List.mem_cons.mp hmem with hmem | hmem
          · exact absurd hmem (by decide)
          · exact absurd (p.decimal _ hmem) (by decide)
    have hslice := slice_text (r.lead ++ r.before) text
      (more ++ (r.after ++ [ch '\r'] ++ ch '\n' :: r.rest))
    rw [if_neg hopen] at hanswer
    simp only [hhost, Host.shown] at hbuffer hanswer
    refine ⟨((r.lead ++ r.before).length : Nat), ?_, ?_⟩
    · rw [hanswer, hhost]
      simp [Host.text]
    · rw [hbuffer, hhost]
      exact hslice
  | bracketed text plain =>
    have hopen : (core r.host r.port).head? = some (ch '[') := by
      rw [hmore, hhost]
      rfl
    have hslice := slice_text (r.lead ++ r.before ++ [ch '[']) text
      ([ch ']'] ++ (more ++ (r.after ++ [ch '\r'] ++ ch '\n' :: r.rest)))
    have hclose : (r.before ++ core r.host r.port)[(((r.before.length + r.host.shown.length : Nat) :
        Int) - 1).toNat]? = some (ch ']') := by
      have hat : (((r.before.length + r.host.shown.length : Nat) : Int) - 1).toNat =
          (r.before ++ ch '[' :: text).length := by
        rw [hhost]
        simp [Host.shown]
        omega
      rw [hat, hmore, hhost, Host.shown]
      simp
    have hpos : 0 < ((r.before.length + r.host.shown.length : Nat) : Int) := by
      rw [hhost]
      simp [Host.shown]
      omega
    rw [if_pos hopen, if_pos ⟨hpos, hclose⟩] at hanswer
    refine ⟨((r.lead ++ r.before ++ [ch '[']).length : Nat), ?_, ?_⟩
    · rw [hanswer, hhost]
      simp [Host.text, Host.shown]
      omega
    · rw [hbuffer, hhost]
      simpa [Host.shown, Host.text] using hslice

/-- With a port the host is read. -/
lemma port_reads {p : Port} (hport : r.port = some p) (htab : ch '\t' ∉ r.before) :
    Reads r wantPort := by
  have hcore : core r.host r.port = r.host.shown ++ ch ':' :: p.digits := by
    rw [core, hport, Option.elim_some]
  have hne : core r.host r.port ≠ [] := by
    rw [hcore]
    simp
  obtain ⟨ds, last, hdigits⟩ := List.eq_nil_or_concat p.digits |>.resolve_left p.digits_ne
  have hall : ∀ d ∈ ds, isdigit d = true := by
    intro d hd
    apply p.decimal
    rw [hdigits]
    simp [hd]
  have hend := valueEnd_run (t := r.before ++ core r.host r.port)
    (a := ch ':' :: r.before ++ r.host.shown) (x := ch ':') (z := last) (by decide) hall (by
      rw [hcore, hdigits]
      simp)
  rw [if_pos rfl, ← List.concat_eq_append, ← hdigits] at hend
  refine reads_of_end (q := some p.digits) htab hne ?_ ?_
  · rw [hend]
    simp only [List.length_append, List.length_cons, Prod.mk.injEq, and_true]
    omega
  · cases wantPort with
    | false => rfl
    | true => simp [portRef, p.number, Request.portOr80, hport]

/-- Without a port a name is read unless it stands directly behind the colon, and is a run of digits
but for its last byte. -/
lemma name_reads_iff {text : Bytes} {plain : ∀ c ∈ text, nameByte c = true}
    (hhost : r.host = .name text plain) (hport : r.port = none) (hne : text ≠ [])
    (htab : ch '\t' ∉ r.before) :
    Reads r wantPort ↔ (r.before = [] → ∃ d ∈ text.dropLast, isdigit d = false) := by
  have hcore : core r.host r.port = text := by
    simp [core, hhost, hport, Host.shown]
  have hcorene : core r.host r.port ≠ [] := by rwa [hcore]
  have hcolon : ch ':' ∉ r.before ++ text := by
    intro h
    rcases List.mem_append.mp h with h | h
    · rcases r.blank _ (List.mem_append_left _ h) with h | h <;> exact absurd h (by decide)
    · exact (nameByte_spec (plain _ h)).2.1 rfl
  constructor
  · rintro ⟨hs, href, -⟩ hbefore
    by_contra hdigits
    simp only [not_exists, not_and, Bool.not_eq_false] at hdigits
    obtain ⟨s, last, rfl⟩ := List.eq_nil_or_concat text |>.resolve_left hne
    rw [List.concat_eq_append, List.dropLast_concat] at hdigits
    have hend := valueEnd_run (t := r.before ++ core r.host r.port) (a := []) (x := ch ':')
      (z := last) (by decide) hdigits (by simp [hbefore, hcore])
    rw [if_pos rfl] at hend
    have hopen : (core r.host r.port).head? ≠ some (ch '[') := by
      rw [hcore]
      intro h
      exact (nameByte_spec (plain _ (List.mem_of_mem_head? h))).2.2.1 rfl
    rw [answer wantPort htab hcorene hend] at href
    simp only [hopen, if_false] at href
    cases hp : portRef wantPort (some (s ++ [last])) with
    | none =>
      rw [hp] at href
      simp [HostRef.miss] at href
    | some p =>
      rw [hp] at href
      simp only [HostRef.mk.injEq, List.length_nil] at href
      omega
  · intro hdigits
    obtain ⟨a, x, ds, last, hsplit, hx, hds⟩ := exists_run (t := r.before ++ text) (by simp [hne])
    -- the only colon is the one of the name
    have hxne : x ≠ ch ':' := by
      rintro rfl
      cases a with
      | cons c a =>
        rw [List.cons_append, List.cons.injEq] at hsplit
        refine hcolon ?_
        rw [hsplit.2]
        simp
      | nil =>
        rw [List.nil_append, List.cons.injEq] at hsplit
        have hcut := congrArg List.dropLast hsplit.2
        rw [List.dropLast_concat, List.dropLast_append_of_ne_nil hne] at hcut
        have hbefore : r.before = [] := by
          apply List.eq_nil_iff_forall_not_mem.mpr
          intro c hc
          have hspace := r.before_space (List.mem_append_left _ hc)
          have hdigit := hds c (by rw [← hcut]; exact List.mem_append_left _ hc)
          rw [isdigit_isspace hspace] at hdigit
          cases hdigit
        obtain ⟨d, hd, hnot⟩ := hdigits hbefore
        have hdigit := hds d (by rw [← hcut]; exact List.mem_append_right _ hd)
        rw [hnot] at hdigit
        cases hdigit
    have hend := valueEnd_run (t := r.before ++ text) hx hds hsplit
    rw [if_neg hxne] at hend
    refine reads_of_end (q := none) htab hcorene ?_ ?_
    · rw [hcore, hend, hhost, Host.shown, List.length_append]
    · simp [portRef, Request.portOr80, hport]

/-- Without a port an address is read unless its end looks like one. -/
lemma bracketed_reads_iff {text : Bytes} {plain : ∀ c ∈ text, addressByte c = true}
    (hhost : r.host = .bracketed text plain) (hport : r.port = none) (htab : ch '\t' ∉ r.before) :
    Reads r wantPort ↔ ¬ PortLike text := by
  have hcore : core r.host r.port = ch '[' :: text ++ [ch ']'] := by
    simp [core, hhost, hport, Host.shown]
  have hne : core r.host r.port ≠ [] := by
    rw [hcore]
    simp
  have hdone : ∀ {a ds : Bytes} {x : UInt8}, isdigit x = false → (∀ d ∈ ds, isdigit d = true) →
      x ≠ ch ':' → ch ':' :: (r.before ++ core r.host r.port) = a ++ x :: (ds ++ [ch ']']) →
      Reads r wantPort := by
    intro a ds x hx hds hxne hsplit
    have hend := valueEnd_run hx hds hsplit
    rw [if_neg hxne] at hend
    refine reads_of_end (q := none) htab hne ?_ ?_
    · rw [hend, hcore, hhost]
      simp [Host.shown]
    · simp [portRef, Request.portOr80, hport]
  have hrun := List.rdropWhile_append_rtakeWhile (p := isdigit) (l := text)
  have hds : ∀ d ∈ text.rtakeWhile isdigit, isdigit d = true := fun d => List.mem_rtakeWhile_imp
  rcases List.eq_nil_or_concat (text.rdropWhile isdigit) with hnil | ⟨u, x, hu⟩
  · have hnot : ¬ PortLike text := by
      simp [PortLike, hnil]
    rw [hnil, List.nil_append] at hrun
    refine ⟨fun _ => hnot, fun _ => ?_⟩
    refine hdone (a := ch ':' :: r.before) (x := ch '[') (by decide) hds (by decide) ?_
    rw [hcore, hrun]
    simp
  · have hx : isdigit x = false := by
      have hlast := List.rdropWhile_last_not isdigit text (by rw [hu]; simp)
      simpa [hu] using hlast
    have hlike : PortLike text ↔ x = ch ':' := by
      simp [PortLike, hu]
    have hsplit : ch ':' :: (r.before ++ core r.host r.port) =
        ch ':' :: r.before ++ ch '[' :: u ++ x :: (text.rtakeWhile isdigit ++ [ch ']']) := by
      rw [hu] at hrun
      rw [hcore]
      conv_lhs => rw [← hrun]
      simp
    rw [hlike]
    constructor
    · rintro ⟨hs, href, -⟩ rfl
      have hend := valueEnd_run hx hds hsplit
      rw [if_pos rfl] at hend
      have hopen : (core r.host r.port).head? = some (ch '[') := by
        rw [hcore]
        rfl
      rw [answer wantPort htab hne hend] at href
      simp only [hopen, if_true] at href
      have hlen : u.length ≤ text.length := by
        have hle := congrArg List.length hrun
        rw [hu] at hle
        simp only [List.concat_eq_append, List.length_append, List.length_singleton] at hle
        omega
      have hclose : (r.before ++ core r.host r.port)[
          (((ch ':' :: r.before ++ ch '[' :: u).length : Int) - 1 - 1).toNat]? ≠ some (ch ']') := by
        intro h
        have hat : (((ch ':' :: r.before ++ ch '[' :: u).length : Int) - 1 - 1).toNat =
            r.before.length + u.length := by
          simp only [List.length_append, List.length_cons]
          omega
        rw [hat, hcore, ← List.append_assoc, List.getElem?_append_left (by
          simp only [List.length_append, List.length_cons]
          omega)] at h
        rcases List.mem_append.mp (List.mem_of_getElem? h) with hmem | hmem
        · exact absurd (r.before_space (List.mem_append_left _ hmem)) (by decide)
        · rcases List.mem_cons.mp hmem with hmem | hmem
          · exact absurd hmem (by decide)
          · exact (addressByte_spec (plain _ hmem)).2.2 rfl
      cases hp : portRef wantPort (some (text.rtakeWhile isdigit ++ [ch ']'])) with
      | none =>
        rw [hp] at href
        simp [HostRef.miss] at href
      | some p =>
        rw [hp] at href
        simp only [hclose, and_false, if_false, HostRef.mk.injEq, reduceCtorEq, false_and] at href
    · intro hxne
      exact hdone hx hds hxne hsplit

lemma reads_iff (r : Request) (wantPort : Bool) : Reads r wantPort ↔ Plain r := by
  cases hport : r.port with
  | some p =>
    have hcore : core r.host r.port ≠ [] := by
      simp [core, hport]
    have hplain : Plain r ↔ ch '\t' ∉ r.before := by
      simp only [Plain, hport]
    rw [hplain]
    exact ⟨fun h htab => tab_not_read htab hcore h, port_reads hport⟩
  | none =>
    cases hhost : r.host with
    | bracketed text plain =>
      have hcore : core r.host r.port ≠ [] := by
        simp [core, hhost, Host.shown]
      have hplain : Plain r ↔ ch '\t' ∉ r.before ∧ ¬ PortLike text := by
        simp only [Plain, hport, hhost]
      rw [hplain]
      by_cases htab : ch '\t' ∈ r.before
      · simp [tab_not_read htab hcore, htab]
      · simp [bracketed_reads_iff hhost hport htab, htab]
    | name text plain =>
      cases text with
      | nil =>
        have hcore : core r.host r.port = [] := by
          simp [core, hport, hhost, Host.shown]
        have hplain : Plain r ↔ (r.before ++ r.after).head? ≠ some (ch ' ') := by
          simp only [Plain, hport, hhost]
        rw [hplain]
        exact empty_iff hcore
      | cons c text =>
        have hcore : core r.host r.port ≠ [] := by
          simp [core, hhost, Host.shown]
        have hplain : Plain r ↔ ch '\t' ∉ r.before ∧
            (r.before = [] → ∃ d ∈ (c :: text).dropLast, isdigit d = false) := by
          simp only [Plain, hport, hhost]
        rw [hplain]
        by_cases htab : ch '\t' ∈ r.before
        · simp [tab_not_read htab hcore, htab]
        · simp only [name_reads_iff hhost hport (List.cons_ne_nil c text) htab, htab,
            not_false_eq_true, true_and]

end Reads

/-- No byte outside the buffer is read, and the lines that are read as they are meant are these. -/
theorem parse_exact_iff (b : Bytes) (r : Request) (wantPort : Bool) :
    (∃ ref, parseHttp b b.length wantPort = some ref) ∧
      (Exact r wantPort ↔ isHttp r.buffer r.buffer.length = some true ∧ Plain r) := by
  refine ⟨parseHttp_returns b wantPort, ?_⟩
  rw [exact_iff, ← reads_iff r wantPort]
  rfl

/-- A request for the IPv6 loopback, without a port. -/
def loopback : Request where
  lead := ascii ['G', 'E', 'T', ' ', '/', ' ', 'H', 'T', 'T', 'P', '/', '1', '.', '1', '\r', '\n',
    'H', 'o', 's', 't', ':']
  before := ascii [' ']
  host := .bracketed (ascii [':', ':', '1']) (by decide +kernel)
  port := none
  after := []
  rest := ascii ['\r', '\n']
  blank := by decide +kernel
  field := by unfold Occurs; decide
  first := by
    have hbefore : ∀ j < 15, ¬ Occurs (ascii ['G', 'E', 'T', ' ', '/', ' ', 'H', 'T', 'T', 'P', '/',
        '1', '.', '1', '\r', '\n', 'H', 'o', 's', 't', ':', ' ', '[', ':', ':', '1', ']', '\r', '\n',
        '\r', '\n']) hostField j := by
      unfold Occurs
      decide
    intro j hj
    by_contra hlt
    change ¬ 21 ≤ j + 6 at hlt
    exact hbefore j (by omega) hj

/-- The digit behind the last colon is taken for a port. -/
theorem loopback_not_exact :
    isHttp loopback.buffer loopback.buffer.length = some true ∧ ¬ Exact loopback true := by
  refine ⟨by decide, ?_⟩
  rintro ⟨hs, hparse, -⟩
  have hmiss : parseHttp loopback.buffer loopback.buffer.length true = some .miss := by
    decide
  cases hmiss.symm.trans hparse

end HostParse
