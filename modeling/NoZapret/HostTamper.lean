import NoZapret.HostValue
import NoZapret.InetText

/-!
# What `mod_http` does to the meaning of a request

It changes the case of the field's name and of the host and moves the value to the colon. The
parser is asked again afterwards.
-/

namespace HostTamper

open Block HostLine HostValue Numbers Packets

/-- The bytes of the host that the parser has found. -/
def hostBytes (b : Bytes) (ref : HostRef) : Option Bytes :=
  ref.hs.bind fun hs => slice b hs ref.len

/-- Both buffers have the same port and, but for the case of letters, the same host. -/
def SameHost (b b' : Bytes) : Prop :=
  ∀ wantPort, ∃ ref ref', parseHttp b b.length wantPort = some ref ∧
    parseHttp b' b'.length wantPort = some ref' ∧ ref'.len = ref.len ∧ ref'.port = ref.port ∧
    (hostBytes b' ref').map (List.map tolower) = (hostBytes b ref).map (List.map tolower)

/-- Nothing but the `Host` line has changed, and its name is still there. -/
def OnlyLine (b b' : Bytes) : Prop :=
  b'.length = b.length ∧
    ((∀ lead v rest, ¬ HostText b lead v rest) → b' = b) ∧
    ∀ lead v rest, HostText b lead v rest →
      b'.take (lead.length - 5) = b.take (lead.length - 5) ∧
      b'.drop (lead.length + v.length) = b.drop (lead.length + v.length) ∧
      Occurs b' hostField (lead.length - 6)

/-- `mod_http` stays inside the buffer and keeps what the request means. -/
def KeepsMeaning (b : Bytes) (m : HttpMods) : Prop :=
  ∃ r b', modHttp b b.length m = some (r, b') ∧ OnlyLine b b' ∧ SameHost b b'

/-- The host is in no brackets; and it stands behind the colon, or some byte of the value before its
last is no digit. -/
def Free (v : Bytes) : Prop :=
  v[(blanks v).length]? ≠ some (ch '[') ∧
    (blanks v = [] ∨
      ∃ d ∈ ((v.rdropWhile isspace).drop (blanks v).length).dropLast, isdigit d = false)

/-- The value of the `Host` line can move to the colon. -/
def Movable (b : Bytes) : Prop := ∀ lead v rest, HostText b lead v rest → Free v

section Case

variable {b b' v t lead lead' rest text : Bytes} {p : UInt8 → Bool} {wantPort : Bool} {off : Nat}

lemma tolower_spec (c : UInt8) :
    isspace (tolower c) = isspace c ∧ isdigit (tolower c) = isdigit c ∧
      (isdigit c = true → tolower c = c) ∧ tolower (tolower c) = tolower c ∧
      tolower (toupper c) = tolower c := by
  have hall := Inet.forall_byte (p := fun c => isspace (tolower c) == isspace c &&
    isdigit (tolower c) == isdigit c && (!isdigit c || tolower c == c) &&
    tolower (tolower c) == tolower c && tolower (toupper c) == tolower c) (by decide +kernel) c
  simpa [and_assoc, imp_iff_not_or] using hall

/-- Signs have no case. -/
lemma tolower_sign {s : Char} (hs : s ∈ [' ', '\n', '\t', ':', '[', ']']) (c : UInt8) :
    tolower c = ch s ↔ c = ch s := by
  have hall := Inet.forall_byte (p := fun c => [' ', '\n', '\t', ':', '[', ']'].all fun s =>
    (tolower c == ch s) == (c == ch s)) (by decide +kernel) c
  have hsign := List.all_eq_true.mp hall s hs
  rw [beq_iff_eq, Bool.eq_iff_iff, beq_iff_eq, beq_iff_eq] at hsign
  exact hsign

lemma rdropWhile_map {f : UInt8 → UInt8} (hf : ∀ c, p (f c) = p c) (t : Bytes) :
    (t.map f).rdropWhile p = (t.rdropWhile p).map f := by
  induction t using List.reverseRecOn with
  | nil => rfl
  | append_singleton t c ih =>
    rw [List.map_append, List.map_singleton]
    by_cases hc : p c = true
    · rw [List.rdropWhile_concat_pos p _ _ ((hf c).trans hc), List.rdropWhile_concat_pos p _ _ hc, ih]
    · rw [List.rdropWhile_concat_neg p _ _ (by rwa [hf]), List.rdropWhile_concat_neg p _ _ hc,
        List.map_append, List.map_singleton]

lemma getLast?_lower {s : Char} (hs : s ∈ [' ', '\n', '\t', ':', '[', ']']) (t : Bytes) :
    (t.map tolower).getLast? = some (ch s) ↔ t.getLast? = some (ch s) := by
  rw [List.getLast?_map, Option.map_eq_some_iff]
  constructor
  · rintro ⟨c, hc, hlower⟩
    rw [hc, (tolower_sign hs c).mp hlower]
  · intro h
    exact ⟨ch s, h, (tolower_sign hs _).mpr rfl⟩

lemma getElem?_lower {s : Char} (hs : s ∈ [' ', '\n', '\t', ':', '[', ']']) (t : Bytes) (i : Nat) :
    (t.map tolower)[i]? = some (ch s) ↔ t[i]? = some (ch s) := by
  rw [List.getElem?_map, Option.map_eq_some_iff]
  constructor
  · rintro ⟨c, hc, hlower⟩
    rw [hc, (tolower_sign hs c).mp hlower]
  · intro h
    exact ⟨ch s, h, (tolower_sign hs _).mpr rfl⟩

lemma blanks_lower (v : Bytes) : blanks (v.map tolower) = (blanks v).map tolower := by
  have hpass : (fun c => c == ch ' ') ∘ tolower = fun c => c == ch ' ' := by
    funext c
    rw [Function.comp_apply, Bool.eq_iff_iff, beq_iff_eq, beq_iff_eq, tolower_sign (by simp)]
  rw [blanks, List.takeWhile_map, hpass]
  rfl

lemma portNumber_lower (t : Bytes) : portNumber (t.map tolower) = portNumber t := by
  have hall : (t.map tolower).all isdigit = t.all isdigit := by
    rw [List.all_map]
    congr 1
    funext c
    exact (tolower_spec c).2.1
  unfold portNumber
  rw [hall]
  by_cases hdigits : t.all isdigit = true
  · have hsame : t.map tolower = t.map id :=
      List.map_congr_left fun c hc => (tolower_spec c).2.2.1 (List.all_eq_true.mp hdigits c hc)
    rw [hsame, List.map_id]
  · simp [hdigits]

lemma valueEnd_lower (t : Bytes) :
    valueEnd (t.map tolower) = ((valueEnd t).1, (valueEnd t).2.map (List.map tolower)) := by
  have hcolon : tolower (ch ':') = ch ':' := by decide
  have hstop : (ch ':' :: t.map tolower).dropLast.rdropWhile isdigit =
      ((ch ':' :: t).dropLast.rdropWhile isdigit).map tolower := by
    rw [← rdropWhile_map (fun c => (tolower_spec c).2.1), List.map_dropLast, List.map_cons, hcolon]
  unfold valueEnd
  simp only [hstop, getLast?_lower (s := ':') (by simp), List.length_map]
  split
  · simp
  · rfl

/-- Letters may change their case. -/
theorem valueRef_lower (wantPort : Bool) (off : Nat) (v : Bytes) :
    valueRef wantPort off (v.map tolower) = valueRef wantPort off v := by
  have hport : ∀ port : Option Bytes,
      portRef wantPort (port.map (List.map tolower)) = portRef wantPort port := by
    intro port
    cases port with
    | none => rfl
    | some digits => simp only [Option.map_some, portRef, portNumber_lower]
  unfold valueRef
  simp only [blanks_lower, List.length_map, rdropWhile_map fun c => (tolower_spec c).1,
    valueEnd_lower, hport, getElem?_lower (s := '[') (by simp), getElem?_lower (s := ']') (by simp)]

end Case

section Line

variable {b b' v v' t lead lead' rest text front more : Bytes} {q : Nat} {pat : Bytes}

lemma occurs_lower (hlower : b'.map tolower = b.map tolower) (h : Occurs b pat q) :
    Occurs b' pat q := by
  have hlen := congrArg List.length hlower
  simp only [List.length_map] at hlen
  refine ⟨by rw [hlen]; exact h.1, ?_⟩
  rw [← h.2, List.map_take, List.map_drop, List.map_take, List.map_drop, hlower]

/-- A line whose field is written otherwise, with any other text. -/
lemma line_change (h : HostText b lead v rest) (hlead : lead'.map tolower = lead.map tolower)
    (hv : ch '\n' ∉ v') : HostText (lead' ++ (v' ++ ch '\n' :: rest)) lead' v' rest := by
  have hlen := congrArg List.length hlead
  simp only [List.length_map] at hlen
  refine ⟨rfl, ?_, ?_, hv⟩
  · rw [hlen]
    exact occurs_lower hlead h.field
  · intro j hj
    by_contra hlt
    have hsix : hostField.length = 6 := rfl
    have hin : Occurs lead' hostField j :=
      hj.within (List.prefix_append _ _) (by omega)
    have hbefore : Occurs b hostField j := by
      rw [h.split]
      exact (occurs_lower hlead.symm hin).mono (List.prefix_append _ _)
    have hfirst := h.first j hbefore
    omega

/-- The method stands before the line. -/
lemma isHttp_change (h : HostText b lead v rest) (hlead : lead'.map tolower = lead.map tolower)
    (hfront : lead'.take (lead.length - 5) = lead.take (lead.length - 5))
    (hv : v'.length = v.length) :
    isHttp (lead' ++ (v' ++ ch '\n' :: rest)) (lead' ++ (v' ++ ch '\n' :: rest)).length =
      isHttp b b.length := by
  have hlen := congrArg List.length hlead
  simp only [List.length_map] at hlen
  have hfit := hostField_fits h.field
  have hlength : (lead' ++ (v' ++ ch '\n' :: rest)).length = b.length := by
    rw [h.split]
    simp only [List.length_append, List.length_cons]
    omega
  have hnewline : ch '\n' ∈ lead.take (lead.length - 5) := by
    obtain ⟨x, hx, hlower⟩ := h.field.get (i := 0) hostField_head.1
    rw [hostField_head.2 x hlower, Nat.add_zero] at hx
    apply List.mem_of_getElem? (i := lead.length - 6)
    rw [List.getElem?_take_of_lt (by omega), hx]
  -- a method ends before it
  have hsame : ∀ {l more : Bytes}, l.take (lead.length - 5) = lead.take (lead.length - 5) →
      ∀ m ∈ methods, (m <+: l ++ more ↔ m <+: lead.take (lead.length - 5)) := by
    intro l more hl m hm
    have hfirst : lead.take (lead.length - 5) <+: l ++ more := by
      rw [← hl]
      exact (List.take_prefix _ _).trans (List.prefix_append _ _)
    constructor
    · intro hpre
      rcases List.prefix_or_prefix_of_prefix hpre hfirst with hpre | hpre
      · exact hpre
      · exact absurd (hpre.subset hnewline) (methods_line m hm)
    · exact fun hpre => hpre.trans hfirst
  rw [isHttp_eq, isHttp_eq, hlength, h.split]
  rw [Option.some.injEq, decide_eq_decide, and_congr_right_iff]
  intro _
  refine exists_congr fun m => and_congr_right fun hm => ?_
  rw [hsame hfront m hm, hsame rfl m hm]

lemma slice_map (f : UInt8 → UInt8) (b : Bytes) (i len : Int) :
    slice (b.map f) i len = (slice b i len).map (List.map f) := by
  unfold slice
  rw [List.length_map]
  split
  · rw [Option.map_some, List.map_take, List.map_drop]
  · rfl

end Line

section Steps

variable {b front text rest lead t more : Bytes} {c : UInt8} {k : Nat}

/-- One byte of a text changes its case. -/
lemma recase_step {a s r : Bytes} {f : UInt8 → UInt8} (hf : ∀ c, tolower (f c) = tolower c) {i : Int} {j : Nat}
    (hi : i = a.length + j) (hj : j < s.length) :
    ∃ text', ((rd (a ++ (s ++ r)) i).bind fun c =>
        wr (a ++ (s ++ r)) i (f c)) = some (a ++ (text' ++ r)) ∧
      text'.map tolower = s.map tolower := by
  obtain ⟨pre, c, post, rfl, rfl⟩ : ∃ pre c post, s = pre ++ c :: post ∧ pre.length = j := by
    refine ⟨s.take j, s[j], s.drop (j + 1), ?_, ?_⟩
    · rw [List.getElem_cons_drop, List.take_append_drop]
    · rw [List.length_take]
      omega
  have hsplit : a ++ (pre ++ c :: post ++ r) = (a ++ pre) ++ c :: (post ++ r) := by
    simp
  have hat : i = (((a ++ pre).length : Nat) : Int) := by
    rw [hi, List.length_append]
    omega
  refine ⟨pre ++ f c :: post, ?_, ?_⟩
  · rw [hsplit, hat, rd_at, Option.bind_some, wr, if_pos]
    · rw [Int.toNat_natCast, List.set_append_right _ _ (Nat.le_refl _), Nat.sub_self]
      simp
    · simp only [List.length_append, List.length_cons]
      omega
  · simp [hf]

lemma mixName_recase {a t r : Bytes} (hlen : 4 ≤ t.length) :
    ∃ text', mixName (a ++ (t ++ r)) a.length = some (a ++ (text' ++ r)) ∧
      text'.map tolower = t.map tolower := by
  have hlower := fun c => (tolower_spec c).2.2.2.1
  have hupper := fun c => (tolower_spec c).2.2.2.2
  have hsame : ∀ {s s' : Bytes}, s'.map tolower = s.map tolower → s'.length = s.length := by
    intro s s' h
    simpa using congrArg List.length h
  obtain ⟨t1, h1, hl1⟩ := recase_step (a := a) (s := t) (r := r) hlower
    (i := a.length) (j := 0) (by omega) (by omega)
  obtain ⟨t2, h2, hl2⟩ := recase_step (a := a) (s := t1) (r := r) hupper
    (i := a.length + 1) (j := 1) (by omega) (by rw [hsame hl1]; omega)
  obtain ⟨t3, h3, hl3⟩ := recase_step (a := a) (s := t2) (r := r) hupper
    (i := a.length + 3) (j := 3) (by omega) (by rw [hsame hl2, hsame hl1]; omega)
  refine ⟨t3, ?_, hl3.trans (hl2.trans hl1)⟩
  obtain ⟨c1, hc1, h1⟩ := Option.bind_eq_some_iff.mp h1
  obtain ⟨c2, hc2, h2⟩ := Option.bind_eq_some_iff.mp h2
  obtain ⟨c3, hc3, h3⟩ := Option.bind_eq_some_iff.mp h3
  simp only [mixName, hc1, h1, hc2, h2, hc3, h3, Option.bind_eq_bind, Option.bind_some]

lemma upperEvery2_recase {a t r : Bytes} (hk : 2 * k ≤ t.length + 1) :
    ∃ text', upperEvery2 (a ++ (t ++ r)) a.length k =
        some (a ++ (text' ++ r)) ∧ text'.map tolower = t.map tolower := by
  induction k with
  | zero => exact ⟨t, rfl, rfl⟩
  | succ k ih =>
    obtain ⟨t1, h1, hl1⟩ := ih (by omega)
    have hlen : t1.length = t.length := by simpa using congrArg List.length hl1
    obtain ⟨t2, h2, hl2⟩ := recase_step (a := a) (s := t1) (r := r)
      (fun c => (tolower_spec c).2.2.2.2) (i := a.length + 2 * k) (j := 2 * k) (by omega)
      (by omega)
    refine ⟨t2, ?_, hl2.trans hl1⟩
    simp only [upperEvery2, h1, Option.bind_eq_bind, Option.bind_some]
    exact h2

lemma skip_text {a s r : Bytes} (hpass : ∀ x ∈ s, isspace x = false)
    (hc : isspace c = true) {n : Nat} (hfuel : (s ++ c :: r).length < n) :
    skipFwd (fun c => !isspace c) (a ++ (s ++ c :: r)) n a.length =
      some ((a.length + s.length : Nat) : Int) := by
  have hpass' : ∀ x ∈ s, (fun c => !isspace c) x = true := by
    intro x hx
    simp [hpass x hx]
  have hend : (c :: r).takeWhile (fun c => !isspace c) = [] ∧
      (c :: r).dropWhile (fun c => !isspace c) = c :: r := by
    simp [hc]
  rw [skipFwd_eq a hfuel, List.takeWhile_append_of_pos hpass',
    List.dropWhile_append_of_pos hpass', hend.1, hend.2, List.append_nil,
    if_neg (List.cons_ne_nil _ _)]

/-- The text behind `k` bytes moves to the front, and tabs follow it. -/
lemma spaceHost_text (hb : b = lead ++ (t ++ c :: more)) (hk : k ≤ t.length)
    {par host len : Int} (hpar : par + 5 = lead.length) (hhost : host = lead.length + k)
    (hskip : skipFwd (fun c => !isspace c) b (b.length + 1) (host + len) =
      some ((lead.length + t.length : Nat) : Int)) :
    spaceHost b par host len =
      some (lead ++ (t.drop k ++ List.replicate k (ch '\t') ++ c :: more)) := by
  have hcut : lead ++ t.take k ++ (t.drop k ++ c :: more) = b := by
    rw [hb, List.append_assoc, ← List.append_assoc (t.take k), List.take_append_drop]
  have hslice : slice b host ((lead.length + t.length : Nat) - host) = some (t.drop k) := by
    have hat := slice_text (lead ++ t.take k) (t.drop k) (c :: more)
    rw [hcut] at hat
    rw [← hat]
    congr 1
    · rw [hhost, List.length_append, List.length_take]
      omega
    · rw [hhost, List.length_drop]
      omega
  have hold : b = lead ++ (t.take (t.length - k) ++ (t.drop (t.length - k) ++ c :: more)) := by
    rw [hb, ← List.append_assoc (t.take _), List.take_append_drop]
  have hmove : memmove b (par + 5) host ((lead.length + t.length : Nat) - host) =
      some (lead ++ (t.drop k ++ (t.drop (t.length - k) ++ c :: more))) := by
    have hblit := blit_text (p := lead) (s := t.take (t.length - k)) (t := t.drop k)
      (r := t.drop (t.length - k) ++ c :: more) (by
        rw [List.length_drop, List.length_take]
        omega)
    rw [← hold, ← hpar] at hblit
    simp only [memmove, hslice, Option.bind_eq_bind, Option.bind_some, hblit]
  have htabs : memset (lead ++ (t.drop k ++ (t.drop (t.length - k) ++ c :: more)))
      (par + 5 + ((lead.length + t.length : Nat) - host)) (ch '\t') (host - (par + 5)) =
      some (lead ++ (t.drop k ++ List.replicate k (ch '\t') ++ c :: more)) := by
    have hblit := blit_text (p := lead ++ t.drop k) (s := t.drop (t.length - k))
      (t := List.replicate k (ch '\t')) (r := c :: more) (by
        rw [List.length_replicate, List.length_drop]
        omega)
    have hcount : (host - (par + 5)).toNat = k := by omega
    have hat : par + 5 + ((lead.length + t.length : Nat) - host) =
        ((lead ++ t.drop k).length : Nat) := by
      rw [List.length_append, List.length_drop]
      omega
    rw [memset, if_pos (by omega), hcount, hat, ← List.append_assoc lead, hblit]
    simp
  simp only [spaceHost, hskip, hmove, htabs, Option.bind_eq_bind, Option.bind_some]

end Steps

/-- The text after it has moved. -/
def moved (v : Bytes) : Bytes :=
  let t := v.rdropWhile isspace
  t.drop (hostStart v) ++ List.replicate (hostStart v) (ch '\t') ++ v.drop t.length

section Found

variable {b v t lead rest : Bytes} {ref : HostRef} {off : Nat}

/-- What the steps before the move leave of the line. -/
structure Recased (lead v lead' v' : Bytes) : Prop where
  lead_lower : lead'.map tolower = lead.map tolower
  text_lower : v'.map tolower = v.map tolower
  front : lead'.take (lead.length - 5) = lead.take (lead.length - 5)

/-- The value moves, if it does, in a line of other case. -/
lemma modHttp_steps (h : HostText b lead v rest) (hhttp : isHttp b b.length = some true)
    (hlen : (valueRef false lead.length v).len ≠ 0) (m : HttpMods) :
    ∃ lead' v', Recased lead v lead' v' ∧ modHttp b b.length m =
      (if m.space then spaceHost (lead' ++ (v' ++ ch '\n' :: rest)) ((lead.length : Int) - 5)
          ((lead.length + hostStart v : Nat) : Int) (valueRef false lead.length v).len
        else some (lead' ++ (v' ++ ch '\n' :: rest))).map fun b' => (0, b') := by
  have hfit := hostField_fits h.field
  obtain ⟨hhs, -, -⟩ := valueRef_found hlen
  have hbound := valueRef_le hlen
  have hstart := hostStart_le v
  have hback : trimBack (· != ch ':') b (b.length + 1) ((lead.length + hostStart v : Nat) : Int) =
      some ((lead.length : Nat) : Int) := by
    have hpass : ∀ c ∈ v.take (hostStart v), (c != ch ':') = true := by
      intro c hc
      simp [take_hostStart v c hc]
    have hsplit : b = lead ++ (v.take (hostStart v) ++ (v.drop (hostStart v) ++ ch '\n' :: rest)) := by
      rw [← List.append_assoc (v.take _), List.take_append_drop]
      exact h.split
    have hfuel : (v.take (hostStart v)).length < b.length + 1 := by
      rw [hsplit]
      simp only [List.length_append]
      omega
    have htrim := trimBack_text (p := (· != ch ':')) (a := lead) (s := v.take (hostStart v))
      (r := v.drop (hostStart v) ++ ch '\n' :: rest) h.colon (by simp) hfuel
    rw [← hsplit, List.rdropWhile_eq_nil_iff.mpr hpass, List.length_take, Nat.min_eq_left hstart,
      List.length_nil, Nat.add_zero] at htrim
    exact htrim
  have hpar : ((lead.length : Nat) : Int) - 1 - 4 = (lead.length : Int) - 5 := by omega
  -- the name
  obtain ⟨lead', hlead, hfront, hname⟩ : ∃ lead', lead'.map tolower = lead.map tolower ∧
      lead'.take (lead.length - 5) = lead.take (lead.length - 5) ∧
      (if m.hmix then mixName b ((lead.length : Int) - 5) else some b) =
        some (lead' ++ (v ++ ch '\n' :: rest)) := by
    by_cases hmix : m.hmix = true
    · obtain ⟨name, hname, hlower⟩ := mixName_recase (a := lead.take (lead.length - 5))
        (t := lead.drop (lead.length - 5)) (r := v ++ ch '\n' :: rest) (by
          rw [List.length_drop]
          omega)
      have hsplit : lead.take (lead.length - 5) ++ (lead.drop (lead.length - 5) ++
          (v ++ ch '\n' :: rest)) = b := by
        rw [← List.append_assoc, List.take_append_drop]
        exact h.split.symm
      have hat : (((lead.take (lead.length - 5)).length : Nat) : Int) = (lead.length : Int) - 5 := by
        rw [List.length_take]
        omega
      rw [hsplit, hat] at hname
      refine ⟨lead.take (lead.length - 5) ++ name, ?_, ?_, ?_⟩
      · rw [List.map_append, hlower, ← List.map_append, List.take_append_drop]
      · rw [List.take_append_of_le_length (by rw [List.length_take]; omega), List.take_take,
          Nat.min_self]
      · rw [if_pos hmix, hname, List.append_assoc]
    · exact ⟨lead, rfl, rfl, by rw [if_neg hmix, ← h.split]⟩
  -- the host
  have hlead' : lead'.length = lead.length := by simpa using congrArg List.length hlead
  obtain ⟨v', htext, hhost⟩ : ∃ v', v'.map tolower = v.map tolower ∧
      (if m.dmix then upperEvery2 (lead' ++ (v ++ ch '\n' :: rest))
          ((lead.length + hostStart v : Nat) : Int)
          (((valueRef false lead.length v).len + 1) / 2).toNat
        else some (lead' ++ (v ++ ch '\n' :: rest))) = some (lead' ++ (v' ++ ch '\n' :: rest)) := by
    by_cases hmix : m.dmix = true
    · obtain ⟨host, hhost, hlower⟩ := upperEvery2_recase (a := lead' ++ v.take (hostStart v))
        (t := v.drop (hostStart v)) (r := ch '\n' :: rest)
        (k := (((valueRef false lead.length v).len + 1) / 2).toNat) (by
          rw [List.length_drop]
          omega)
      have hsplit : lead' ++ v.take (hostStart v) ++ (v.drop (hostStart v) ++ ch '\n' :: rest) =
          lead' ++ (v ++ ch '\n' :: rest) := by
        rw [List.append_assoc, ← List.append_assoc (v.take _), List.take_append_drop]
      have hat : (lead' ++ v.take (hostStart v)).length = lead.length + hostStart v := by
        rw [List.length_append, List.length_take, hlead', Nat.min_eq_left hstart]
      rw [hsplit, hat] at hhost
      refine ⟨v.take (hostStart v) ++ host, ?_, ?_⟩
      · rw [List.map_append, hlower, ← List.map_append, List.take_append_drop]
      · rw [if_pos hmix, hhost]
        simp only [List.append_assoc]
    · exact ⟨v, rfl, by rw [if_neg hmix]⟩
  refine ⟨lead', v', ⟨hlead, htext, hfront⟩, ?_⟩
  unfold modHttp
  simp only [parseHttp_text h hhttp false, hlen, hhs, hback, hpar, hname, hhost,
    Option.bind_eq_bind, Option.bind_some, if_false]
  generalize (if m.space then _ else _ : Option Bytes) = moved
  cases moved <;> rfl

end Found

section Meaning

variable {b b' b'' v v' w lead lead' rest : Bytes}

lemma SameHost.symm (h : SameHost b b') : SameHost b' b := by
  intro wantPort
  obtain ⟨ref, ref', hparse, hparse', hlen, hport, hbytes⟩ := h wantPort
  exact ⟨ref', ref, hparse', hparse, hlen.symm, hport.symm, hbytes.symm⟩

lemma SameHost.trans (h : SameHost b b') (h' : SameHost b' b'') : SameHost b b'' := by
  intro wantPort
  obtain ⟨ref, ref', hparse, hparse', hlen, hport, hbytes⟩ := h wantPort
  obtain ⟨ref1, ref'', hparse1, hparse'', hlen', hport', hbytes'⟩ := h' wantPort
  cases hparse'.symm.trans hparse1
  exact ⟨ref, ref'', hparse, hparse'', hlen'.trans hlen, hport'.trans hport, hbytes'.trans hbytes⟩

lemma sameHost_of_lower (hlower : b'.map tolower = b.map tolower)
    (hparse : ∀ wantPort, parseHttp b' b'.length wantPort = parseHttp b b.length wantPort) :
    SameHost b b' := by
  intro wantPort
  obtain ⟨ref, href⟩ := parseHttp_returns b wantPort
  refine ⟨ref, ref, href, (hparse wantPort).trans href, rfl, rfl, ?_⟩
  have hslice : ∀ hs, (slice b' hs ref.len).map (List.map tolower) =
      (slice b hs ref.len).map (List.map tolower) := by
    intro hs
    rw [← slice_map, hlower, slice_map]
  unfold hostBytes
  cases ref.hs with
  | none => rfl
  | some hs => exact hslice hs

/-- Another text in a line of other case. -/
lemma onlyLine_change (h : HostText b lead v rest) (hlead : lead'.map tolower = lead.map tolower)
    (hfront : lead'.take (lead.length - 5) = lead.take (lead.length - 5))
    (hlen : v'.length = v.length) (hv : ch '\n' ∉ v') :
    OnlyLine b (lead' ++ (v' ++ ch '\n' :: rest)) := by
  have hlead' : lead'.length = lead.length := by simpa using congrArg List.length hlead
  refine ⟨?_, fun hnone => absurd h (hnone lead v rest), ?_⟩
  · rw [h.split]
    simp only [List.length_append, List.length_cons]
    omega
  · intro l w r h'
    obtain ⟨rfl, rfl, rfl⟩ := h.unique h'
    refine ⟨?_, ?_, ?_⟩
    · rw [h.split, List.take_append_of_le_length (by omega),
        List.take_append_of_le_length (by omega), hfront]
    · rw [h.split, ← hlead', List.drop_length_add_append, hlead', List.drop_length_add_append,
        ← hlen, List.drop_left, hlen, List.drop_left]
    · have hocc := (line_change h hlead hv).field
      rw [hlead'] at hocc
      exact hocc.mono (List.prefix_append _ _)

/-- The steps before the move change nothing that counts. -/
lemma Recased.kept (h : HostText b lead v rest) (hhttp : isHttp b b.length = some true)
    (hcase : Recased lead v lead' v') :
    HostText (lead' ++ (v' ++ ch '\n' :: rest)) lead' v' rest ∧
      isHttp (lead' ++ (v' ++ ch '\n' :: rest)) (lead' ++ (v' ++ ch '\n' :: rest)).length =
        some true ∧
      OnlyLine b (lead' ++ (v' ++ ch '\n' :: rest)) ∧
      SameHost b (lead' ++ (v' ++ ch '\n' :: rest)) := by
  obtain ⟨hlead, htext, hfront⟩ := hcase
  have hlead' : lead'.length = lead.length := by simpa using congrArg List.length hlead
  have hlen : v'.length = v.length := by simpa using congrArg List.length htext
  have hv : ch '\n' ∉ v' := by
    intro hmem
    have hin : ch '\n' ∈ v.map tolower := by
      rw [← htext]
      exact List.mem_map.mpr ⟨ch '\n', hmem, rfl⟩
    obtain ⟨c, hc, hlower⟩ := List.mem_map.mp hin
    rw [(tolower_sign (s := '\n') (by simp) c).mp hlower] at hc
    exact h.line hc
  have hline := line_change h hlead hv
  have hhttp' := (isHttp_change h hlead hfront hlen).trans hhttp
  refine ⟨hline, hhttp', onlyLine_change h hlead hfront hlen hv, sameHost_of_lower ?_ ?_⟩
  · rw [h.split]
    simp only [List.map_append, hlead, htext]
  · intro wantPort
    rw [parseHttp_text hline hhttp', parseHttp_text h hhttp, hlead', ← valueRef_lower,
      htext, valueRef_lower]

end Meaning

section Move

variable {b v t lead rest : Bytes} {off : Nat}

lemma free_lower (v : Bytes) : Free (v.map tolower) ↔ Free v := by
  have hdigit : ∀ t : Bytes, (∃ d ∈ t.map tolower, isdigit d = false) ↔
      ∃ d ∈ t, isdigit d = false := by
    intro t
    simp only [List.mem_map, exists_exists_and_eq_and, (tolower_spec _).2.1]
  unfold Free
  rw [blanks_lower, List.length_map, ne_eq, getElem?_lower (s := '[') (by simp), List.map_eq_nil_iff,
    rdropWhile_map fun c => (tolower_spec c).1, ← List.map_drop, ← List.map_dropLast, hdigit]

lemma trimmed_last (v : Bytes) :
    ∀ c, (v.rdropWhile isspace).getLast? = some c → isspace c = false := by
  intro c hc
  have hne : v.rdropWhile isspace ≠ [] := by
    intro hnil
    rw [hnil] at hc
    cases hc
  have hnot := List.rdropWhile_last_not isspace v hne
  rw [List.getLast?_eq_some_getLast hne, Option.some.injEq] at hc
  rw [hc] at hnot
  exact Bool.eq_false_iff.mpr hnot

lemma drop_trimmed (v : Bytes) :
    v.drop (v.rdropWhile isspace).length = v.rtakeWhile isspace := by
  have hsplit := List.rdropWhile_append_rtakeWhile (p := isspace) (l := v)
  generalize v.rdropWhile isspace = t at *
  generalize v.rtakeWhile isspace = s at *
  rw [← hsplit, List.drop_left]

/-- The blanks end before the text does. -/
lemma blanks_lt (hne : v.rdropWhile isspace ≠ []) :
    (blanks v).length < (v.rdropWhile isspace).length := by
  by_contra hle
  have hfront : v.rdropWhile isspace <+: blanks v :=
    List.prefix_of_prefix_length_le (List.rdropWhile_prefix _ _) (List.takeWhile_prefix _) (by omega)
  have hlast := trimmed_last v _ (List.getLast?_eq_some_getLast hne)
  rw [mem_blanks (hfront.subset (List.getLast_mem hne))] at hlast
  exact absurd hlast (by decide)

/-- A bracket opens before it closes. -/
lemma bracket_lt (hlen : (valueRef false off v).len ≠ 0)
    (hbracket : v[(blanks v).length]? = some (ch '[')) :
    ((blanks v).length : Int) + 1 < (valueEnd (v.rdropWhile isspace)).1 := by
  obtain ⟨-, hopen, -⟩ := valueRef_found hlen
  obtain ⟨hpos, hclose, -⟩ := hopen hbracket
  have hat := getElem?_front (List.rdropWhile_prefix isspace (l := v)) hclose
  generalize (valueEnd (v.rdropWhile isspace)).1 = e at *
  rcases Nat.lt_trichotomy (e - 1).toNat (blanks v).length with hlt | heq | hgt
  · exfalso
    have hcell : (blanks v)[(e - 1).toNat]? = some (blanks v)[(e - 1).toNat] :=
      List.getElem?_eq_getElem hlt
    have hsame := getElem?_front (List.takeWhile_prefix (p := (· == ch ' ')) (l := v)) hcell
    rw [hat, mem_blanks (List.getElem_mem hlt)] at hsame
    exact absurd hsame (by decide)
  · exfalso
    rw [heq, hbracket] at hat
    exact absurd hat (by decide)
  · omega

/-- The host begins before the text ends. -/
lemma hostStart_lt (hlen : (valueRef false off v).len ≠ 0) (hne : v.rdropWhile isspace ≠ []) :
    hostStart v < (v.rdropWhile isspace).length := by
  have hlt := blanks_lt hne
  have hrange := (valueEnd_range (v.rdropWhile isspace)).2
  unfold hostStart
  split
  · next hbracket =>
    have hafter := bracket_lt hlen hbracket
    omega
  · omega

/-- No white space stands between the end of the host and the end of the text. -/
lemma skip_found {p r : Bytes} {c : UInt8} (hlen : (valueRef false off v).len ≠ 0)
    (hc : isspace c = true) {n : Nat}
    (hfuel : (ch ':' :: v.rdropWhile isspace ++ c :: r).length < n) :
    skipFwd (fun c => !isspace c) (p ++ (ch ':' :: v.rdropWhile isspace ++ c :: r)) n
        (((p.length + 1 + hostStart v : Nat) : Int) + (valueRef false off v).len) =
      some ((p.length + 1 + (v.rdropWhile isspace).length : Nat) : Int) := by
  obtain ⟨-, hopen, hplain⟩ := valueRef_found hlen
  have hrange := valueEnd_range (v.rdropWhile isspace)
  have hrest := valueEnd_rest (trimmed_last v)
  -- it is a bracket, or the byte behind the host
  obtain ⟨i, hat, hi, hspace⟩ : ∃ i : Nat,
      ((p.length + 1 + hostStart v : Nat) : Int) + (valueRef false off v).len =
        ((p.length + i : Nat) : Int) ∧ i ≤ (ch ':' :: v.rdropWhile isspace).length ∧
      ∀ x ∈ (ch ':' :: v.rdropWhile isspace).drop i, isspace x = false := by
    by_cases hbracket : v[(blanks v).length]? = some (ch '[')
    · obtain ⟨hpos, hclose, hsize⟩ := hopen hbracket
      obtain ⟨hlt, hget⟩ := List.getElem?_eq_some_iff.mp hclose
      refine ⟨(valueEnd (v.rdropWhile isspace)).1.toNat, by omega, by simp only [List.length_cons]; omega, ?_⟩
      intro x hx
      have hnext : (valueEnd (v.rdropWhile isspace)).1.toNat =
          ((valueEnd (v.rdropWhile isspace)).1 - 1).toNat + 1 := by omega
      rw [hnext, List.drop_succ_cons, List.drop_eq_getElem_cons hlt, hget] at hx
      rcases List.mem_cons.mp hx with rfl | hx
      · decide
      · apply hrest
        have hlast : ((valueEnd (v.rdropWhile isspace)).1 + 1).toNat =
            ((valueEnd (v.rdropWhile isspace)).1 - 1).toNat + 1 + 1 := by omega
        rw [hlast, List.drop_succ_cons]
        exact hx
    · have hsize := hplain hbracket
      exact ⟨((valueEnd (v.rdropWhile isspace)).1 + 1).toNat, by omega,
        by simp only [List.length_cons]; omega, hrest⟩
  have hsplit : p ++ (ch ':' :: v.rdropWhile isspace ++ c :: r) =
      p ++ (ch ':' :: v.rdropWhile isspace).take i ++
        ((ch ':' :: v.rdropWhile isspace).drop i ++ c :: r) := by
    rw [List.append_assoc, ← List.append_assoc (List.take _ _), List.take_append_drop]
  have hfront : (p ++ (ch ':' :: v.rdropWhile isspace).take i).length = p.length + i := by
    rw [List.length_append, List.length_take, Nat.min_eq_left hi]
  have hstop := skip_text (a := p ++ (ch ':' :: v.rdropWhile isspace).take i)
    (r := r) hspace hc (n := n) (by
      simp only [List.length_append, List.length_cons, List.length_drop] at hfuel ⊢
      omega)
  rw [hsplit, hat, ← hfront, hstop, hfront, List.length_drop, List.length_cons]
  congr 2
  rw [List.length_cons] at hi
  omega

/-- The move of a value that is not empty. -/
lemma space_moves (h : HostText b lead v rest) (hlen : (valueRef false lead.length v).len ≠ 0)
    (hne : v.rdropWhile isspace ≠ []) :
    spaceHost b ((lead.length : Int) - 5) ((lead.length + hostStart v : Nat) : Int)
        (valueRef false lead.length v).len =
      some (lead ++ (moved v ++ ch '\n' :: rest)) := by
  obtain ⟨c, more, hc, hv⟩ := trimmed_split v rest
  obtain ⟨front, hfront⟩ := List.getLast?_eq_some_iff.mp h.colon
  have hlead : lead.length = front.length + 1 := by
    rw [hfront]
    simp
  have hb : b = lead ++ (v.rdropWhile isspace ++ c :: more) := by
    rw [← hv]
    exact h.split
  have hb' : b = front ++ (ch ':' :: v.rdropWhile isspace ++ c :: more) := by
    rw [hb, hfront]
    simp
  have hskip := skip_found (p := front) (r := more) hlen hc (n := b.length + 1) (by
    rw [hb', @List.length_append _ front]
    omega)
  rw [← hb', ← hlead] at hskip
  have htail : v.drop (v.rdropWhile isspace).length ++ ch '\n' :: rest = c :: more := by
    have hcut := congrArg (List.drop (v.rdropWhile isspace).length) hv
    rwa [List.drop_left, List.drop_append_of_le_length
      (List.rdropWhile_prefix isspace (l := v)).length_le] at hcut
  rw [spaceHost_text hb (Nat.le_of_lt (hostStart_lt hlen hne)) (by omega) (by omega) hskip, moved]
  simp only [List.append_assoc, htail]

/-- An empty value behind blanks is moved by a negative length. -/
lemma space_fails (h : HostText b lead v rest) (hlen : (valueRef false lead.length v).len ≠ 0)
    (hnil : v.rdropWhile isspace = []) :
    spaceHost b ((lead.length : Int) - 5) ((lead.length + hostStart v : Nat) : Int)
        (valueRef false lead.length v).len = none := by
  have hspace := List.rdropWhile_eq_nil_iff.mp hnil
  have hopen : v[(blanks v).length]? ≠ some (ch '[') := by
    intro hbracket
    exact absurd (hspace _ (List.mem_of_getElem? hbracket)) (by decide)
  have hsize := (valueRef_found hlen).2.2 hopen
  have hend : (valueEnd (v.rdropWhile isspace)).1 = 0 := by
    rw [hnil]
    rfl
  have hstart : hostStart v = (blanks v).length := by
    rw [hostStart, if_neg hopen, Nat.add_zero]
  have hpos : 0 < (blanks v).length := by omega
  obtain ⟨more, hmore⟩ : ∃ more, b = lead ++ ([] ++ ch ' ' :: more) := by
    obtain ⟨c, bl, hbl⟩ := List.exists_cons_of_length_pos hpos
    have hc : c = ch ' ' := mem_blanks (by rw [hbl]; exact List.mem_cons_self)
    refine ⟨bl ++ (v.dropWhile (· == ch ' ') ++ ch '\n' :: rest), ?_⟩
    conv_lhs => rw [h.behind, hbl, hc]
    simp
  have hskip := skip_text (a := lead) (s := []) (r := more) (c := ch ' ')
    (by simp) (by decide) (n := b.length + 1) (by
      rw [hmore]
      simp only [List.length_append, List.length_cons, List.length_nil]
      omega)
  rw [← hmore] at hskip
  simp only [List.length_nil, Nat.add_zero] at hskip
  have hat : ((lead.length + hostStart v : Nat) : Int) + (valueRef false lead.length v).len =
      ((lead.length : Nat) : Int) := by
    omega
  have hslice : slice b ((lead.length + hostStart v : Nat) : Int)
      ((lead.length : Int) - (lead.length + hostStart v : Nat)) = none := by
    rw [slice, if_neg (by omega)]
  simp only [spaceHost, hat, hskip, memmove, hslice, Option.bind_eq_bind, Option.bind_some,
    Option.bind_none]

lemma moved_length (hlen : (valueRef false off v).len ≠ 0) (hne : v.rdropWhile isspace ≠ []) :
    (moved v).length = v.length := by
  have hlt := hostStart_lt hlen hne
  have hle := (List.rdropWhile_prefix isspace (l := v)).length_le
  simp only [moved, List.length_append, List.length_drop, List.length_replicate]
  omega

lemma moved_line (hv : ch '\n' ∉ v) : ch '\n' ∉ moved v := by
  intro hmem
  simp only [moved, List.mem_append] at hmem
  rcases hmem with (hmem | hmem) | hmem
  · exact hv ((List.rdropWhile_prefix isspace v).subset (List.mem_of_mem_drop hmem))
  · exact absurd (List.eq_of_mem_replicate hmem) (by decide)
  · exact hv (List.mem_of_mem_drop hmem)

/-- The text that has moved, without the white space behind it. -/
lemma moved_trimmed (hlen : (valueRef false off v).len ≠ 0) (hne : v.rdropWhile isspace ≠ []) :
    (moved v).rdropWhile isspace = (v.rdropWhile isspace).drop (hostStart v) := by
  have hlt := hostStart_lt hlen hne
  have htail : ∀ c ∈ List.replicate (hostStart v) (ch '\t') ++
      v.drop (v.rdropWhile isspace).length, isspace c = true := by
    intro c hc
    rcases List.mem_append.mp hc with hc | hc
    · rw [List.eq_of_mem_replicate hc]
      decide
    · rw [drop_trimmed] at hc
      exact List.mem_rtakeWhile_imp hc
  have hcut : (v.rdropWhile isspace).drop (hostStart v) ≠ [] := by
    rw [ne_eq, List.drop_eq_nil_iff]
    omega
  rw [moved, List.append_assoc, rdropWhile_pass htail, List.rdropWhile_eq_self_iff]
  intro _
  rw [List.getLast_drop, Bool.not_eq_true]
  exact trimmed_last v _ (List.getLast?_eq_some_getLast hne)

end Move

section Verdict

variable {b v w lead rest : Bytes}

lemma slice_at {a s r : Bytes} {len : Int} (hlen : len ≤ s.length) :
    slice (a ++ (s ++ r)) a.length len =
      if 0 ≤ len then some (s.take len.toNat) else none := by
  unfold slice
  by_cases hpos : 0 ≤ len
  · rw [if_pos (by simp only [List.length_append]; omega), if_pos hpos, Int.toNat_natCast,
      List.drop_left, List.take_append_of_le_length (by omega)]
  · rw [if_neg (by omega), if_neg hpos]

/-- Two lines of one buffer are compared by what the parser makes of their texts. -/
lemma sameHost_iff (h : HostText b lead v rest) (hhttp : isHttp b b.length = some true)
    (hw : w.length = v.length) (hline : ch '\n' ∉ w) :
    SameHost b (lead ++ (w ++ ch '\n' :: rest)) ↔ ∀ wantPort,
      (valueRef wantPort lead.length w).len = (valueRef wantPort lead.length v).len ∧
      (valueRef wantPort lead.length w).port = (valueRef wantPort lead.length v).port ∧
      (hostBytes (lead ++ (w ++ ch '\n' :: rest)) (valueRef wantPort lead.length w)).map
          (List.map tolower) =
        (hostBytes b (valueRef wantPort lead.length v)).map (List.map tolower) := by
  have hline' := line_change h rfl hline
  have hhttp' := (isHttp_change h rfl rfl hw).trans hhttp
  refine forall_congr' fun wantPort => ?_
  rw [parseHttp_text hline' hhttp', parseHttp_text h hhttp]
  constructor
  · rintro ⟨ref, ref', href, href', hlen, hport, hbytes⟩
    cases href
    cases href'
    exact ⟨hlen, hport, hbytes⟩
  · rintro ⟨hlen, hport, hbytes⟩
    exact ⟨_, _, rfl, rfl, hlen, hport, hbytes⟩

/-- The text in the place of the blanks. -/
lemma moved_head (hopen : v[(blanks v).length]? ≠ some (ch '['))
    (hne : v.rdropWhile isspace ≠ []) :
    blanks (moved v) = [] ∧ (moved v)[0]? = v[(blanks v).length]? := by
  have hlt := blanks_lt hne
  have hstart : hostStart v = (blanks v).length := by
    rw [hostStart, if_neg hopen, Nat.add_zero]
  obtain ⟨c, tail, hcut⟩ : ∃ c tail, (v.rdropWhile isspace).drop (blanks v).length = c :: tail :=
    ⟨_, _, List.drop_eq_getElem_cons hlt⟩
  have hcell : v[(blanks v).length]? = some c := by
    apply getElem?_front (List.rdropWhile_prefix isspace v)
    have hhead := congrArg List.head? hcut
    rwa [List.head?_drop] at hhead
  have hc : (c == ch ' ') = false := by
    rw [getElem?_blanks] at hcell
    have hnot := List.head?_dropWhile_not (· == ch ' ') v
    rw [hcell] at hnot
    simpa using hnot
  have hmoved : ∃ more, moved v = c :: more := by
    rw [moved, hstart, hcut]
    exact ⟨_, rfl⟩
  obtain ⟨more, hmoved⟩ := hmoved
  rw [hcell, hmoved]
  refine ⟨?_, rfl⟩
  rw [blanks, List.takeWhile_cons_of_neg (by simp [hc])]

/-- A free value is found again. -/
lemma free_same (h : HostText b lead v rest) (hhttp : isHttp b b.length = some true)
    (hlen : (valueRef false lead.length v).len ≠ 0) (hne : v.rdropWhile isspace ≠ [])
    (hfree : Free v) : SameHost b (lead ++ (moved v ++ ch '\n' :: rest)) := by
  obtain ⟨hopen, hfree⟩ := hfree
  have hstart : hostStart v = (blanks v).length := by
    rw [hostStart, if_neg hopen, Nat.add_zero]
  rw [sameHost_iff h hhttp (moved_length hlen hne) (moved_line h.line)]
  intro wantPort
  rcases hfree with hnone | hsome
  · -- nothing moves
    have hsame : moved v = v := by
      simp only [moved, hstart, hnone, List.length_nil, List.drop_zero, List.replicate_zero,
        List.append_nil, drop_trimmed, List.rdropWhile_append_rtakeWhile]
    rw [hsame, ← h.split]
    exact ⟨rfl, rfl, rfl⟩
  · obtain ⟨hblanks, hhead⟩ := moved_head hopen hne
    have htrim := moved_trimmed hlen hne
    have hend := valueEnd_drop hsome
    have hle := (valueEnd_range (v.rdropWhile isspace)).2
    have hlt := blanks_lt hne
    cases hval : valueEnd (v.rdropWhile isspace) with
    | mk e port =>
      rw [hval] at hend hle
      have hopen' : (moved v)[0]? ≠ some (ch '[') := by rwa [hhead]
      cases hport : portRef wantPort port with
      | none =>
        have hmoved : valueRef wantPort lead.length (moved v) = .miss := by
          simp only [valueRef, htrim, hstart, hend, hport]
        have hold : valueRef wantPort lead.length v = .miss := by
          simp only [valueRef, hval, hport]
        rw [hmoved, hold]
        exact ⟨rfl, rfl, rfl⟩
      | some p =>
        have hmoved : valueRef wantPort lead.length (moved v) =
            ⟨e - (blanks v).length, some lead.length, p⟩ := by
          simp only [valueRef, hblanks, htrim, hstart, hend, hport, List.length_nil, if_neg hopen',
            Int.natCast_zero, Int.sub_zero, Int.add_zero]
        have hold : valueRef wantPort lead.length v =
            ⟨e - (blanks v).length, some (lead.length + (blanks v).length), p⟩ := by
          simp only [valueRef, hval, hport, if_neg hopen]
        rw [hmoved, hold]
        refine ⟨rfl, rfl, ?_⟩
        have hsize : e - (blanks v).length ≤
            ((v.rdropWhile isspace).drop (blanks v).length).length := by
          rw [List.length_drop]
          simp only at hle
          omega
        have hnew := slice_at (a := lead) (r := List.replicate (blanks v).length (ch '\t') ++
          v.drop (v.rdropWhile isspace).length ++ ch '\n' :: rest) hsize
        have hbefore := slice_at (a := lead ++ (v.rdropWhile isspace).take (blanks v).length)
          (r := v.drop (v.rdropWhile isspace).length ++ ch '\n' :: rest) hsize
        have hsplit : lead ++ (v.rdropWhile isspace).take (blanks v).length ++
            ((v.rdropWhile isspace).drop (blanks v).length ++
              (v.drop (v.rdropWhile isspace).length ++ ch '\n' :: rest)) = b := by
          rw [List.append_assoc, ← List.append_assoc (List.take _ _), List.take_append_drop,
            drop_trimmed, ← List.append_assoc (List.rdropWhile _ _),
            List.rdropWhile_append_rtakeWhile, ← h.split]
        have hfront : ((lead ++ (v.rdropWhile isspace).take (blanks v).length).length : Int) =
            lead.length + (blanks v).length := by
          rw [List.length_append, List.length_take]
          omega
        rw [hsplit, hfront, ← hnew] at hbefore
        simp only [hostBytes, Option.bind_some, hbefore, moved, hstart, List.append_assoc]

/-- A run of digits comes to stand where a port would. -/
lemma digits_differ (h : HostText b lead v rest) (hhttp : isHttp b b.length = some true)
    (hlen : (valueRef false lead.length v).len ≠ 0) (hne : v.rdropWhile isspace ≠ [])
    (hopen : v[(blanks v).length]? ≠ some (ch '[')) (hblanks : blanks v ≠ [])
    (hdigits : ∀ d ∈ ((v.rdropWhile isspace).drop (blanks v).length).dropLast, isdigit d = true) :
    ¬ SameHost b (lead ++ (moved v ++ ch '\n' :: rest)) := by
  have hstart : hostStart v = (blanks v).length := by
    rw [hostStart, if_neg hopen, Nat.add_zero]
  have hlt := blanks_lt hne
  rw [sameHost_iff h hhttp (moved_length hlen hne) (moved_line h.line)]
  intro hsame
  obtain ⟨hsize, -, -⟩ := hsame false
  obtain ⟨hnone, hhead⟩ := moved_head hopen hne
  have htrim := moved_trimmed hlen hne
  have hcut : (v.rdropWhile isspace).drop (blanks v).length ≠ [] := by
    rw [ne_eq, List.drop_eq_nil_iff]
    omega
  have hend := valueEnd_digits hcut hdigits
  have hopen' : (moved v)[0]? ≠ some (ch '[') := by rwa [hhead]
  have hmoved : (valueRef false lead.length (moved v)).len = -1 := by
    simp only [valueRef, hnone, htrim, hstart, hend, portRef, List.length_nil, if_neg hopen',
      Bool.false_eq_true, if_false]
    rfl
  -- before the move a blank stopped the scan
  have hwhole : ((blanks v).length : Int) ≤ (valueEnd (v.rdropWhile isspace)).1 := by
    have hpos := List.length_pos_iff.mpr hblanks
    have hlast : (blanks v)[(blanks v).length - 1]? = some (ch ' ') := by
      have hin : (blanks v).length - 1 < (blanks v).length := by omega
      rw [List.getElem?_eq_getElem hin, mem_blanks (List.getElem_mem hin)]
    have hin : (blanks v).length - 1 < (v.rdropWhile isspace).length := by omega
    have hcell := getElem?_front (List.rdropWhile_prefix isspace v) (List.getElem?_eq_getElem hin)
    rw [getElem?_front (List.takeWhile_prefix _) hlast] at hcell
    have hgt := valueEnd_gt ((List.getElem?_eq_getElem hin).trans hcell.symm) (by decide)
      (by decide) (by omega)
    omega
  rw [hmoved, (valueRef_found hlen).2.2 hopen, hstart] at hsize
  omega

/-- An opening bracket is lost. -/
lemma bracket_differs (h : HostText b lead v rest) (hhttp : isHttp b b.length = some true)
    (hlen : (valueRef false lead.length v).len ≠ 0) (hne : v.rdropWhile isspace ≠ [])
    (hopen : v[(blanks v).length]? = some (ch '[')) :
    ¬ SameHost b (lead ++ (moved v ++ ch '\n' :: rest)) := by
  have hstart : hostStart v = (blanks v).length + 1 := by
    rw [hostStart, if_pos hopen]
  have hlt := hostStart_lt hlen hne
  have hafter := bracket_lt hlen hopen
  have hrange := valueEnd_range (v.rdropWhile isspace)
  obtain ⟨hhs, hfound, -⟩ := valueRef_found hlen
  obtain ⟨-, hclose, hsize⟩ := hfound hopen
  have htrim := moved_trimmed hlen hne
  rw [sameHost_iff h hhttp (moved_length hlen hne) (moved_line h.line)]
  intro hsame
  obtain ⟨hlen', -, hbytes⟩ := hsame false
  generalize hval : (valueEnd (v.rdropWhile isspace)).1 = e at *
  generalize ht : v.rdropWhile isspace = t at *
  -- the end of the host, as far as it is known
  have hend : (valueEnd (t.drop (hostStart v))).1 = e - hostStart v ∨
      (valueEnd (t.drop (hostStart v))).1 = -1 := by
    by_cases hdigits : ∃ d ∈ (t.drop (hostStart v)).dropLast, isdigit d = false
    · rw [valueEnd_drop hdigits, hval]
      exact .inl rfl
    · simp only [not_exists, not_and, Bool.not_eq_false] at hdigits
      have hcut : t.drop (hostStart v) ≠ [] := by
        rw [ne_eq, List.drop_eq_nil_iff]
        omega
      rw [valueEnd_digits hcut hdigits]
      exact .inr rfl
  obtain ⟨hhs', hopen', hplain'⟩ := valueRef_found (hlen'.trans_ne hlen)
  rw [htrim] at hopen' hplain'
  have hpos : 0 < (valueRef false lead.length v).len := by omega
  by_cases hbracket : (moved v)[(blanks (moved v)).length]? = some (ch '[')
  · have hstart' : hostStart (moved v) = (blanks (moved v)).length + 1 := by
      rw [hostStart, if_pos hbracket]
    obtain ⟨hpos', -, hsize'⟩ := hopen' hbracket
    omega
  · have hstart' : hostStart (moved v) = (blanks (moved v)).length := by
      rw [hostStart, if_neg hbracket, Nat.add_zero]
    have hsize' := hplain' hbracket
    -- the lengths agree when a blank stands behind the bracket, and then the first bytes differ
    have hone : (blanks (moved v)).length = 1 := by omega
    have hblank : v[hostStart v]? = some (ch ' ') := by
      have hfirst : (blanks (moved v))[0]? = some (ch ' ') := by
        have hin : 0 < (blanks (moved v)).length := by omega
        rw [List.getElem?_eq_getElem hin, mem_blanks (List.getElem_mem hin)]
      have hmoved := getElem?_front (List.takeWhile_prefix _) hfirst
      have hhead : (moved v)[0]? = t[hostStart v]? := by
        rw [moved, ht, List.append_assoc, List.getElem?_append_left (by
          rw [List.length_drop]
          omega), List.getElem?_drop, Nat.add_zero]
      rw [hhead] at hmoved
      rw [← ht] at hmoved
      exact getElem?_front (List.rdropWhile_prefix isspace v) hmoved
    have hlength : (moved v).length = v.length := moved_length hlen (by rwa [ht])
    have hshort : t.length ≤ v.length := by
      rw [← ht]
      exact (List.rdropWhile_prefix isspace v).length_le
    obtain ⟨c, hc, hcne⟩ : ∃ c, (moved v)[1]? = some c ∧ c ≠ ch ' ' := by
      have hin : 1 < (moved v).length := by omega
      refine ⟨(moved v)[1], List.getElem?_eq_getElem hin, ?_⟩
      have hhead := getElem?_blanks (moved v)
      rw [hone, List.getElem?_eq_getElem hin] at hhead
      have hnot := List.head?_dropWhile_not (· == ch ' ') (moved v)
      rw [← hhead] at hnot
      simpa using hnot
    have hroom := valueRef_le hlen
    have hstartle := hostStart_le v
    simp only [hostBytes, hhs, hhs', hlen', hstart', hone, Option.bind_some] at hbytes
    have hslice : ∃ s, slice b ((lead.length + hostStart v : Nat) : Int)
        (valueRef false lead.length v).len = some s := by
      refine ⟨_, if_pos ⟨by omega, by omega, ?_⟩⟩
      rw [h.split]
      simp only [List.length_append, List.length_cons]
      omega
    obtain ⟨s, hs⟩ := hslice
    rw [hs, Option.map_some, Option.map_eq_some_iff] at hbytes
    obtain ⟨s', hs', hlower⟩ := hbytes
    have hfirst := slice_get hs (Int.le_refl 0) hpos
    have hfirst' := slice_get hs' (Int.le_refl 0) hpos
    rw [Int.add_zero, rd_nat] at hfirst hfirst'
    have hcell : b[lead.length + hostStart v]? = some (ch ' ') := by
      rw [h.split, List.getElem?_append_right (Nat.le_add_right _ _), Nat.add_sub_cancel_left]
      exact getElem?_front (List.prefix_append _ _) hblank
    have hcell' : (lead ++ (moved v ++ ch '\n' :: rest))[lead.length + 1]? = some c := by
      rw [List.getElem?_append_right (Nat.le_add_right _ _), Nat.add_sub_cancel_left]
      exact getElem?_front (List.prefix_append _ _) hc
    have hheads := congrArg (fun l => l[0]?) hlower
    simp only [List.getElem?_map] at hheads
    rw [hcell] at hfirst
    rw [hcell'] at hfirst'
    simp only [Int.toNat_zero] at hfirst hfirst'
    rw [hfirst, hfirst', Option.map_some, Option.map_some, Option.some.injEq,
      (tolower_sign (s := ' ') (by simp) (ch ' ')).mpr rfl, tolower_sign (by simp)] at hheads
    exact hcne hheads

lemma moved_same_iff (h : HostText b lead v rest) (hhttp : isHttp b b.length = some true)
    (hlen : (valueRef false lead.length v).len ≠ 0) (hne : v.rdropWhile isspace ≠ []) :
    SameHost b (lead ++ (moved v ++ ch '\n' :: rest)) ↔ Free v := by
  constructor
  · intro hsame
    have hopen : v[(blanks v).length]? ≠ some (ch '[') :=
      fun hbracket => bracket_differs h hhttp hlen hne hbracket hsame
    refine ⟨hopen, ?_⟩
    by_contra hnot
    simp only [not_or, not_exists, not_and, Bool.not_eq_false] at hnot
    exact digits_differ h hhttp hlen hne hopen hnot.1 hnot.2 hsame
  · exact free_same h hhttp hlen hne

lemma free_text (hlen : (valueRef false lead.length v).len ≠ 0) (hfree : Free v) :
    v.rdropWhile isspace ≠ [] := by
  intro hnil
  obtain ⟨hopen, hnone | ⟨d, hd, -⟩⟩ := hfree
  · have hsize := (valueRef_found hlen).2.2 hopen
    have hend : (valueEnd (v.rdropWhile isspace)).1 = 0 := by
      rw [hnil]
      rfl
    rw [hend, hostStart, if_neg hopen, hnone] at hsize
    simp only [List.length_nil, Nat.add_zero, Int.natCast_zero, Int.sub_zero] at hsize
    exact hlen hsize
  · rw [hnil, List.drop_nil] at hd
    cases hd

lemma movable_iff (h : HostText b lead v rest) : Movable b ↔ Free v := by
  constructor
  · exact fun hmove => hmove lead v rest h
  · intro hfree lead' v' rest' h'
    obtain ⟨-, rfl, -⟩ := h.unique h'
    exact hfree

lemma keeps_same {m : HttpMods} (h : ∃ r, modHttp b b.length m = some (r, b)) :
    KeepsMeaning b m := by
  obtain ⟨r, hmod⟩ := h
  refine ⟨r, b, hmod, ⟨rfl, fun _ => rfl, ?_⟩, sameHost_of_lower rfl fun _ => rfl⟩
  intro lead v rest hline
  refine ⟨rfl, rfl, ?_⟩
  rw [hline.split]
  exact hline.field.mono (List.prefix_append _ _)

lemma modHttp_none {m : HttpMods} {ref : HostRef} (hparse : parseHttp b b.length false = some ref)
    (hlen : ref.len = 0) : modHttp b b.length m = some (-1, b) := by
  simp only [modHttp, hparse, hlen, Option.bind_eq_bind, Option.bind_some, if_true]
  rfl

end Verdict

/-- The request keeps its meaning unless its value has to move and cannot. -/
theorem meaning_kept_iff (b : Bytes) (m : HttpMods) :
    KeepsMeaning b m ↔ m.space = false ∨
      (∃ ref, parseHttp b b.length false = some ref ∧ ref.len = 0) ∨ Movable b := by
  rcases parseHttp_cases b with ⟨hhttp, lead, v, rest, h⟩ | hmiss
  · have hparse := parseHttp_text h hhttp false
    by_cases hlen : (valueRef false lead.length v).len = 0
    · have hkept := keeps_same ⟨_, modHttp_none (m := m) hparse hlen⟩
      exact iff_of_true hkept (.inr (.inl ⟨_, hparse, hlen⟩))
    · obtain ⟨lead', v', hcase, hmod⟩ := modHttp_steps h hhttp hlen m
      obtain ⟨hline, hhttp', honly, hsame⟩ := hcase.kept h hhttp
      have hlead' : lead'.length = lead.length := by simpa using congrArg List.length hcase.lead_lower
      have href : valueRef false lead.length v' = valueRef false lead.length v := by
        rw [← valueRef_lower, hcase.text_lower, valueRef_lower]
      have hstart : hostStart v = hostStart v' := by
        have hlower : ∀ w : Bytes, hostStart (w.map tolower) = hostStart w := by
          intro w
          simp only [hostStart, blanks_lower, List.length_map, getElem?_lower (s := '[') (by simp)]
        rw [← hlower v, ← hcase.text_lower, hlower]
      have hfree : Movable b ↔ Free v' := by
        rw [movable_iff h, ← free_lower v, ← hcase.text_lower, free_lower]
      have hnone : ¬ ∃ ref, parseHttp b b.length false = some ref ∧ ref.len = 0 := by
        rintro ⟨ref, hp, hzero⟩
        cases hparse.symm.trans hp
        exact hlen hzero
      rw [hstart, ← href, ← hlead'] at hmod
      have hlen' : (valueRef false lead'.length v').len ≠ 0 := by
        rw [hlead', href]
        exact hlen
      cases hspace : m.space with
      | false =>
        rw [hspace, if_neg Bool.false_ne_true, Option.map_some] at hmod
        exact iff_of_true ⟨_, _, hmod, honly, hsame⟩ (.inl rfl)
      | true =>
        rw [hspace, if_pos rfl] at hmod
        simp only [Bool.true_eq_false, hnone, false_or, hfree]
        by_cases hne : v'.rdropWhile isspace = []
        · rw [space_fails hline hlen' hne, Option.map_none] at hmod
          refine iff_of_false ?_ fun hf => free_text hlen' hf hne
          rintro ⟨r, b', hsome, -⟩
          cases hmod.symm.trans hsome
        · rw [space_moves hline hlen' hne, Option.map_some] at hmod
          rw [← moved_same_iff hline hhttp' hlen' hne]
          constructor
          · rintro ⟨r, b', hsome, -, hkept⟩
            cases hmod.symm.trans hsome
            exact hsame.symm.trans hkept
          · intro hkept
            refine ⟨_, _, hmod, ?_, hsame.trans hkept⟩
            refine onlyLine_change h hcase.lead_lower hcase.front ?_ (moved_line hline.line)
            rw [moved_length hlen' hne]
            simpa using congrArg List.length hcase.text_lower
  · have hkept := keeps_same ⟨_, modHttp_none (m := m) (hmiss false) rfl⟩
    exact iff_of_true hkept (.inr (.inl ⟨_, hmiss false, rfl⟩))

/-- A request for the IPv6 loopback with a port. -/
def loopback : Bytes :=
  ascii ['G', 'E', 'T', ' ', '/', ' ', 'H', 'T', 'T', 'P', '/', '1', '.', '1', '\r', '\n',
    'H', 'o', 's', 't', ':', ' ', '[', ':', ':', '1', ']', ':', '8', '0', '\r', '\n', '\r', '\n']

/-- The request that `mod_http` makes of it. -/
def loopbackMoved : Bytes :=
  ascii ['G', 'E', 'T', ' ', '/', ' ', 'H', 'T', 'T', 'P', '/', '1', '.', '1', '\r', '\n',
    'H', 'o', 's', 't', ':', ':', ':', '1', ']', ':', '8', '0', '\t', '\t', '\r', '\n', '\r', '\n']

/-- The opening bracket is lost with the blank. -/
theorem bracket_lost : ¬ KeepsMeaning loopback ⟨false, true, false⟩ := by
  rintro ⟨r, b', hmod, -, hsame⟩
  obtain ⟨ref, ref', hparse, hparse', hlen, -⟩ := hsame false
  have hmoved : modHttp loopback loopback.length ⟨false, true, false⟩ = some (0, loopbackMoved) := by
    decide
  cases hmoved.symm.trans hmod
  have hbefore : parseHttp loopback loopback.length false = some ⟨3, some 23, none⟩ := by
    decide
  have hafter : parseHttp loopbackMoved loopbackMoved.length false = some ⟨4, some 21, none⟩ := by
    decide
  cases hbefore.symm.trans hparse
  cases hafter.symm.trans hparse'
  cases hlen

end HostTamper
