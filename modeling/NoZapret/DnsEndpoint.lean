import NoZapret.IpValidation

/-!
# DNS endpoints

`parseDnsEndpoint` on the URLs of the encrypted transports, and `validateDomain` for what is no
URL. `java.net.URI` is a parameter, with what its documentation says of server-based authorities.
-/

namespace DnsEndpoint

open Fields IpValidation KotlinText

inductive DnsTransportType where
  | plain
  | dot
  | doh
  | doq
  deriving DecidableEq, Repr

structure Endpoint where
  rawInput : Text
  transport : DnsTransportType
  hostOrIp : Text
  port : Int
  dohPath : Text := ['/', 'd', 'n', 's', '-', 'q', 'u', 'e', 'r', 'y']
  deriving DecidableEq, Repr

/-- `java.net.URI`; no port is -1. -/
structure Uri where
  host : Option Text
  port : Int
  rawPath : Option Text

def slashes : Text := [':', '/', '/']

def portPart : Option Text → Text
  | none => []
  | some p => ':' :: p

/-- Letters, digits and hyphens, with no hyphen at an end. -/
structure Label (l : Text) : Prop where
  nonempty : l ≠ []
  plain : ∀ c ∈ l, c.isAlphanum = true ∨ c = '-'
  head : l.head? ≠ some '-'
  last : l.getLast? ≠ some '-'

/-- Labels and dots; the last label begins with a letter. -/
def DomainName (h : Text) : Prop :=
  ∃ (ls : List Text) (top : Text), (∀ l ∈ ls, Label l) ∧ Label top ∧
    (∃ c, top.head? = some c ∧ c.isAlpha = true) ∧ h = ['.'].intercalate (ls ++ [top])

def Bracketed (h : Text) : Prop :=
  ∃ a, h = '[' :: (a ++ [']']) ∧ (HexForm a ∨ QuadForm a)

def Host (h : Text) : Prop := DomainName h ∨ DottedQuad h ∨ Bracketed h

/-- What `URI` takes for a port. -/
def Digits (port : Option Text) : Prop :=
  ∀ p, port = some p → (∀ c ∈ p, isDigit c = true) ∧ decimal p < 2 ^ 31

def portValue : Option Text → Int
  | none => -1
  | some [] => -1
  | some p => decimal p

/-- What `URI` may take for a host. -/
def ServerHost (h : Text) : Prop :=
  h ≠ [] ∧ (':' ∉ h ∧ '[' ∉ h ∨ ∃ a, h = '[' :: (a ++ [']']) ∧ ']' ∉ a)

/-- The text has a server-based authority with this host and port. -/
def Server (t h : Text) (port : Option Text) : Prop :=
  ∃ scheme user tail : Text, ':' ∉ scheme ∧ (user = [] ∨ ∃ x, user = x ++ ['@']) ∧
    ServerHost h ∧ Digits port ∧ (tail = [] ∨ ∃ c rest, tail = c :: rest ∧ c ∈ ['/', '?', '#']) ∧
    t = scheme ++ slashes ++ (user ++ (h ++ (portPart port ++ tail)))

/-- The names of the URL schemes. -/
inductive Scheme where
  | tls
  | dot
  | quic
  | doq
  | https
  deriving DecidableEq, Repr

def Scheme.name : Scheme → Text
  | .tls => ['t', 'l', 's']
  | .dot => ['d', 'o', 't']
  | .quic => ['q', 'u', 'i', 'c']
  | .doq => ['d', 'o', 'q']
  | .https => ['h', 't', 't', 'p', 's']

def Scheme.upper : Scheme → Text
  | .tls => ['T', 'L', 'S']
  | .dot => ['D', 'O', 'T']
  | .quic => ['Q', 'U', 'I', 'C']
  | .doq => ['D', 'O', 'Q']
  | .https => ['H', 'T', 'T', 'P', 'S']

def Scheme.transport : Scheme → DnsTransportType
  | .tls | .dot => .dot
  | .quic | .doq => .doq
  | .https => .doh

def Scheme.defaultPort : Scheme → Int
  | .https => 443
  | _ => 853

/-- What is documented of the class: a server-based authority is taken apart, and no other
authority has a host. -/
structure JavaUri where
  parse : Text → Except String Uri
  server : ∀ {spelled h : Text} {port : Option Text}, spelled.map Char.toLower = Scheme.https.name →
    Host h → Digits port →
    parse (spelled ++ slashes ++ (h ++ portPart port)) = .ok ⟨some h, portValue port, some []⟩
  only : ∀ {t h : Text} {u : Uri}, parse t = .ok u → u.host = some h → ∃ port, Server t h port

/-- The library of the phone. -/
structure Platform where
  uri : JavaUri
  lowercase : Text → Text

/-- `split("/", "?", "#").first()` -/
def beforePath (t : Text) : Text := t.takeWhile fun c => c != '/' && c != '?' && c != '#'

/-- `^[a-zA-Z0-9.-]+\.[a-zA-Z]{2,}$` -/
def domainRegex (t : Text) : Bool :=
  let parts := t.splitOn '.'
  let top := parts.getLast?.getD []
  2 ≤ parts.length && t.length ≠ top.length + 1 && 2 ≤ top.length && top.all Char.isAlpha &&
    t.all fun c => c.isAlphanum || c == '.' || c == '-'

def validateDomain (P : Platform) (raw : Text) : Except String Text :=
  let trimmed := P.lowercase (removePrefix (removePrefix (removePrefix (trim raw)
    ['h', 't', 't', 'p', 's', ':', '/', '/']) ['h', 't', 't', 'p', ':', '/', '/']) ['/', '/'])
  let withoutPath := trim (beforePath trimmed)
  let domainName :=
    if ':' ∈ withoutPath ∧ withoutPath.head? ≠ some '[' then withoutPath.takeWhile (· != ':')
    else withoutPath
  if domainName = [] then .error "Domain name cannot be empty"
  else if ' ' ∈ domainName ∨ '\t' ∈ domainName ∨ '\n' ∈ domainName then
    .error "Domain name cannot contain spaces"
  else if !(domainRegex domainName || ipv4Regex domainName) &&
      domainName != ['l', 'o', 'c', 'a', 'l', 'h', 'o', 's', 't'] then
    .error "Invalid hostname or IP address format"
  else .ok domainName

def startsWith (t : Text) (s : Scheme) : Bool := startsWithIgnoreCase t (s.name ++ slashes)

def isBlank (t : Text) : Bool := t.all isWhitespace

/-- The text between the colon behind a host and the end. -/
def PortText (p : Text) : Prop :=
  ∀ c ∈ p, isWhitespace c = false ∧ c ∉ [':', '/', '?', '#', '@', '[', ']']

/-- A URL of an encrypted transport, whatever its port is; the host may be missing. -/
structure Url where
  scheme : Scheme
  spelled : Text
  spelling : spelled.map Char.toLower = scheme.name
  host : Text
  hosted : host = [] ∨ Host host
  port : Option Text
  ported : ∀ p, port = some p → PortText p

def Url.text (u : Url) : Text := u.spelled ++ slashes ++ (u.host ++ portPart u.port)

/-- There is a host, and a port is a number from 1 to 65535. -/
def Url.Good (u : Url) : Prop :=
  u.host ≠ [] ∧ ∀ p, u.port = some p →
    p ≠ [] ∧ (∀ c ∈ p, isDigit c = true) ∧ 1 ≤ decimal p ∧ decimal p ≤ 65535

def Url.number (u : Url) : Int :=
  match u.port with
  | none => u.scheme.defaultPort
  | some p => decimal p

/-- What should come of a URL. -/
def Right (u : Url) (r : Except String Endpoint) : Prop :=
  (u.Good → ∃ e, r = .ok e ∧ e.transport = u.scheme.transport ∧
    (e.hostOrIp = u.host ∨ u.host = '[' :: (e.hostOrIp ++ [']'])) ∧ e.port = u.number) ∧
  (¬ u.Good → ∃ e, r = .error e)

/-- `https`: no port that `URI` reads is out of range. The others: the scheme is removed, and
nothing else has a colon. -/
def Url.Served (u : Url) : Prop :=
  if u.scheme = .https then u.host = [] ∨ u.Good ∨ ¬ Digits u.port
  else u.Good ∧ ¬ Bracketed u.host ∧
    (u.spelled = u.scheme.name ∨ u.spelled = u.scheme.upper ∨
      u.host = u.spelled ∧ u.number = 853)

section Chars

variable {c : Char} {t h : Text}

/-- The characters of hosts. -/
def HostChar (c : Char) : Prop := c.isAlphanum = true ∨ c ∈ ['-', '.', ':', '[', ']']

lemma isAlphanum_iff : c.isAlphanum = true ↔
    (('A'.val ≤ c.val ∧ c.val ≤ 'Z'.val) ∨ ('a'.val ≤ c.val ∧ c.val ≤ 'z'.val)) ∨
      ('0'.val ≤ c.val ∧ c.val ≤ '9'.val) := by
  have h : c.isAlphanum = ((decide ('A'.val ≤ c.val ∧ c.val ≤ 'Z'.val) ||
      (decide ('a'.val ≤ c.val) && decide (c.val ≤ 'z'.val))) ||
      (decide ('0'.val ≤ c.val) && decide (c.val ≤ '9'.val))) := rfl
  rw [h]
  simp only [Bool.or_eq_true, Bool.and_eq_true, decide_eq_true_iff]

lemma HostChar.ne (h : HostChar c) : c ∉ ['/', '?', '#', '@'] := by
  intro hmem
  have hall : (['/', '?', '#', '@'] : Text).all
      (fun c => !c.isAlphanum && !(['-', '.', ':', '[', ']'] : Text).contains c) = true := by decide
  have hc := List.all_eq_true.mp hall c hmem
  rw [Bool.and_eq_true, Bool.not_eq_true', Bool.not_eq_true'] at hc
  rcases h with h | h
  · exact Bool.false_ne_true (hc.1.symm.trans h)
  · exact Bool.false_ne_true (hc.2.symm.trans (List.contains_iff_mem.mpr h))

end Chars

section Hosts

variable {h h' : Text} {c : Char} {p p' : Option Text}

lemma isHex_hostChar (h : isHex c = true) : HostChar c := by
  left
  simp only [isHex, isDigit, Bool.or_eq_true, Bool.and_eq_true, decide_eq_true_iff] at h
  rw [isAlphanum_iff]
  rcases h with (⟨h1, h2⟩ | ⟨h1, h2⟩) | ⟨h1, h2⟩
  · exact .inr ⟨h1, h2⟩
  · exact .inl (.inr ⟨h1, Char.le_trans h2 (by decide)⟩)
  · exact .inl (.inl ⟨h1, Char.le_trans h2 (by decide)⟩)

/-- Letters, digits, hyphens and dots. -/
def NameChar (c : Char) : Prop := c.isAlphanum = true ∨ c ∈ ['-', '.']

lemma NameChar.ne (h : NameChar c) : c ∉ [':', '[', ']'] := by
  intro hmem
  have hall : ([':', '[', ']'] : Text).all
      (fun c => !c.isAlphanum && !(['-', '.'] : Text).contains c) = true := by decide
  have hc := List.all_eq_true.mp hall c hmem
  rw [Bool.and_eq_true, Bool.not_eq_true', Bool.not_eq_true'] at hc
  rcases h with h | h
  · exact Bool.false_ne_true (hc.1.symm.trans h)
  · exact Bool.false_ne_true (hc.2.symm.trans (List.contains_iff_mem.mpr h))

lemma NameChar.hostChar (h : NameChar c) : HostChar c := by
  rcases h with h | h
  · exact .inl h
  · right
    rcases List.mem_cons.mp h with rfl | h
    · decide
    · rw [List.mem_singleton.mp h]
      decide

lemma DomainName.chars (h : DomainName t) : ∀ c ∈ t, NameChar c := by
  obtain ⟨ls, top, hls, htop, -, rfl⟩ := h
  intro c hc
  rcases mem_intercalate hc with rfl | ⟨l, hl, hc⟩
  · exact .inr (by decide)
  · have hlabel : Label l := by
      rcases List.mem_append.mp hl with hl | hl
      · exact hls l hl
      · rw [List.mem_singleton.mp hl]
        exact htop
    rcases hlabel.plain c hc with h | rfl
    · exact .inl h
    · exact .inr (by decide)

lemma isDigit_alphanum (h : isDigit c = true) : c.isAlphanum = true := by
  simp only [isDigit, Bool.and_eq_true, decide_eq_true_iff] at h
  rw [isAlphanum_iff]
  exact .inr h

lemma quad_chars (h : DottedQuad t) : ∀ c ∈ t, NameChar c := by
  obtain ⟨ps, -, hps, rfl⟩ := h
  intro c hc
  rcases mem_intercalate hc with rfl | ⟨q, hq, hc⟩
  · exact .inr (by decide)
  · exact .inl (isDigit_alphanum ((hps q hq).2.2.1 c hc))

/-- What stands between brackets. -/
def FormChar (c : Char) : Prop := isHex c = true ∨ c = ':' ∨ NameChar c

lemma join_chars {gs : List Text} (h : ∀ g ∈ gs, ∀ c ∈ g, FormChar c) :
    ∀ c ∈ join gs, FormChar c := by
  intro c hc
  rcases mem_intercalate hc with rfl | ⟨g, hg, hc⟩
  · exact .inr (.inl rfl)
  · exact h g hg c hc

lemma form_chars (h : HexForm t ∨ QuadForm t) : ∀ c ∈ t, FormChar c := by
  have group {gs : List Text} (hgs : ∀ g ∈ gs, Group g) : ∀ g ∈ gs, ∀ c ∈ g, FormChar c :=
    fun g hg c hc => .inl ((hgs g hg).2.2 c hc)
  have tail {gs : List Text} {q : Text} (hgs : ∀ g ∈ gs, Group g) (hq : DottedQuad q) :
      ∀ g ∈ gs ++ [q], ∀ c ∈ g, FormChar c := by
    intro g hg
    rcases List.mem_append.mp hg with hg | hg
    · exact group hgs g hg
    · rw [List.mem_singleton.mp hg]
      exact fun c hc => .inr (.inr (quad_chars hq c hc))
  have gap {l r : List Text} (hl : ∀ g ∈ l, ∀ c ∈ g, FormChar c)
      (hr : ∀ g ∈ r, ∀ c ∈ g, FormChar c) : ∀ c ∈ gapText l r, FormChar c := by
    intro c hc
    rcases List.mem_append.mp hc with hc | hc
    · exact join_chars hl c hc
    · rcases List.mem_cons.mp hc with rfl | hc
      · exact .inr (.inl rfl)
      · rcases List.mem_cons.mp hc with rfl | hc
        · exact .inr (.inl rfl)
        · exact join_chars hr c hc
  rcases h with h | h
  · cases h with
    | full hgs _ => exact join_chars (group hgs)
    | gap hl hr _ => exact gap (group hl) (group hr)
  · cases h with
    | full hgs hq _ => exact join_chars (tail hgs hq)
    | gap hl hr hq _ => exact gap (group hl) (tail hr hq)

lemma FormChar.hostChar (h : FormChar c) : HostChar c := by
  rcases h with h | rfl | h
  · exact isHex_hostChar h
  · exact .inr (by decide)
  · exact h.hostChar

lemma FormChar.ne_close (h : FormChar c) : c ≠ ']' := by
  rintro rfl
  rcases h with h | h | h
  · exact absurd h (by decide)
  · exact absurd h (by decide)
  · exact h.ne (by decide)

lemma Host.chars (hh : Host h) : ∀ c ∈ h, HostChar c := by
  rcases hh with hh | hh | ⟨a, rfl, ha⟩
  · exact fun c hc => (hh.chars c hc).hostChar
  · exact fun c hc => (quad_chars hh c hc).hostChar
  · intro c hc
    rcases List.mem_cons.mp hc with rfl | hc
    · exact .inr (by decide)
    · rcases List.mem_append.mp hc with hc | hc
      · exact (form_chars ha c hc).hostChar
      · rw [List.mem_singleton.mp hc]
        exact .inr (by decide)

lemma name_plain (hh : ∀ c ∈ h, NameChar c) : ':' ∉ h ∧ '[' ∉ h :=
  ⟨fun hm => (hh _ hm).ne (by decide), fun hm => (hh _ hm).ne (by decide)⟩

lemma Host.not_nil (hh : Host h) : h ≠ [] := by
  rcases hh with ⟨ls, top, -, htop, -, rfl⟩ | hh | ⟨a, rfl, -⟩
  · rw [intercalate_snoc]
    exact List.append_ne_nil_of_right_ne_nil _ htop.nonempty
  · rintro rfl
    exact absurd hh.fields.1 (by decide)
  · exact List.cons_ne_nil _ _

lemma Host.serverHost (hh : Host h) : ServerHost h := by
  refine ⟨hh.not_nil, ?_⟩
  rcases hh with hh | hh | ⟨a, rfl, ha⟩
  · exact .inl (name_plain hh.chars)
  · exact .inl (name_plain (quad_chars hh))
  · exact .inr ⟨a, rfl, fun hm => (form_chars ha _ hm).ne_close rfl⟩

lemma portPart_inj (hp : portPart p = portPart p') : p = p' := by
  match p, p', hp with
  | none, none, _ => rfl
  | some a, some b, hp => rw [(List.cons.inj hp).2]

/-- A host and a port are told apart in one way. -/
lemma hostPort_inj (hh : h = [] ∨ ServerHost h) (hh' : ServerHost h')
    (heq : h ++ portPart p = h' ++ portPart p') : h = h' ∧ p = p' := by
  have hcut {x y : Text} {a b : Option Text} (hx : ':' ∉ x) (hy : ':' ∉ y)
      (hxy : x ++ portPart a = y ++ portPart b) : x = y ∧ a = b := by
    match a, b, hxy with
    | none, none, hxy =>
      simp only [portPart, List.append_nil] at hxy
      exact ⟨hxy, rfl⟩
    | some p, some q, hxy =>
      obtain ⟨rfl, rfl⟩ := cut_inj hx hy hxy
      exact ⟨rfl, rfl⟩
    | none, some q, hxy =>
      rw [portPart, List.append_nil] at hxy
      exact absurd (hxy ▸ List.mem_append_right y List.mem_cons_self) hx
    | some p, none, hxy =>
      rw [portPart, portPart, List.append_nil] at hxy
      exact absurd (hxy ▸ List.mem_append_right x List.mem_cons_self) hy
  have hopen {x a : Text} {p q : Option Text} (hx : '[' ∉ x) :
      ¬ x ++ portPart p = '[' :: (a ++ [']']) ++ portPart q := by
    intro hxy
    match x, p, hx, hxy with
    | [], none, _, hxy => cases hxy
    | [], some p, _, hxy => exact absurd (List.cons.inj hxy).1 (by decide)
    | c :: x, _, hx, hxy => exact hx (List.mem_cons.mpr (.inl (List.cons.inj hxy).1.symm))
  have hplain : (':' ∉ h ∧ '[' ∉ h) ∨ ∃ a, h = '[' :: (a ++ [']']) ∧ ']' ∉ a := by
    rcases hh with rfl | hh
    · exact .inl ⟨List.not_mem_nil, List.not_mem_nil⟩
    · exact hh.2
  rcases hplain with ⟨hc, ho⟩ | ⟨a, rfl, ha⟩
  · rcases hh'.2 with ⟨hc', -⟩ | ⟨a', rfl, -⟩
    · exact hcut hc hc' heq
    · exact absurd heq (hopen ho)
  · rcases hh'.2 with ⟨-, ho'⟩ | ⟨a', rfl, ha'⟩
    · exact absurd heq.symm (hopen ho')
    · simp only [List.cons_append, List.append_assoc, List.nil_append, List.cons.injEq,
        true_and] at heq
      obtain ⟨rfl, htail⟩ := cut_inj ha ha' heq
      exact ⟨rfl, portPart_inj htail⟩

end Hosts

section Texts

variable {u : Url}

lemma name_range (s : Scheme) : ∀ c ∈ s.name, 97 ≤ c.toNat ∧ c.toNat ≤ 122 := by
  have hall : (s.name.all fun c => decide (97 ≤ c.toNat) && decide (c.toNat ≤ 122)) = true := by
    cases s <;> decide
  simpa using hall

lemma spelling_range {t : Text} {s : Scheme} (h : t.map Char.toLower = s.name) :
    ∀ c ∈ t, 65 ≤ c.toNat ∧ c.toNat ≤ 122 := by
  intro c hc
  have hlower : c.toLower ∈ s.name := by
    rw [← h]
    exact List.mem_map_of_mem hc
  obtain ⟨h1, h2⟩ := name_range _ _ hlower
  unfold Char.toLower at h1 h2
  split at h1
  · next hupper =>
    have hlo := UInt32.le_iff_toNat_le.mp hupper.1
    have hhi := UInt32.le_iff_toNat_le.mp hupper.2
    have h65 : 'A'.val.toNat = 65 := rfl
    have h90 : 'Z'.val.toNat = 90 := rfl
    have hc : c.toNat = c.val.toNat := rfl
    omega
  · next hother =>
    rw [dif_neg hother] at h2
    omega

end Texts

section Colons

variable {u : Url} {t clean x rest : Text} {k : DnsTransportType}

end Colons

section Transports

variable {u : Url} {P : Platform}

end Transports

section Instance

/-- The URLs that `https` endpoints are, and what is read of them. -/
def Documented (t : Text) (u : Uri) : Prop :=
  ∃ (spelled h : Text) (port : Option Text), spelled.map Char.toLower = Scheme.https.name ∧
    Host h ∧ Digits port ∧ t = spelled ++ slashes ++ (h ++ portPart port) ∧
    u = ⟨some h, portValue port, some []⟩

lemma spelling_colon {t : Text} {s : Scheme} (h : t.map Char.toLower = s.name) : ':' ∉ t := by
  intro hm
  exact absurd (spelling_range h ':' hm).1 (by decide)

lemma Documented.unique {t : Text} {u u' : Uri} (hu : Documented t u) (hu' : Documented t u') :
    u = u' := by
  obtain ⟨spelled, h, port, hs, hh, -, rfl, rfl⟩ := hu
  obtain ⟨spelled', h', port', hs', hh', -, htext, rfl⟩ := hu'
  rw [slashes, List.append_assoc, List.append_assoc] at htext
  simp only [List.cons_append, List.nil_append] at htext
  obtain ⟨-, hslashes⟩ := cut_inj (spelling_colon hs) (spelling_colon hs') htext
  have hrest := (List.cons.inj (List.cons.inj hslashes).2).2
  obtain ⟨rfl, rfl⟩ := hostPort_inj (.inr hh.serverHost) hh'.serverHost hrest
  rfl

end Instance

end DnsEndpoint
