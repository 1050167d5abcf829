import NoZapret.KotlinText
import NoZapret.Library.Yaml

/-!
# The configuration of the tunnel

`createTunnelConfig` of `DpiVpnService` and what a reader of YAML makes of its text. The lines
under `ipv6` come into the text with four spaces, and `trimIndent` takes no more than these from
every line.
-/

namespace TunnelConfig

open KotlinText Outline

def mtu : Int := 1400

def tunnelName : Text := "tun0".toList

/-- A number as an interpolation shows it. -/
def decimalText (n : Int) : Text :=
  if n < 0 then '-' :: Nat.toDigits 10 n.natAbs else Nat.toDigits 10 n.natAbs

/-- The lines before `ipv6`, each with the spaces before it. -/
def before : List (Nat × Text) :=
  [(12, "tunnel:".toList),
    (14, "name: ".toList ++ tunnelName),
    (14, "mtu: ".toList ++ decimalText mtu),
    (14, "ipv4:".toList),
    (16, "address: 10.1.1.1".toList),
    (16, "gateway: 10.1.1.2".toList),
    (16, "netmask: 255.255.255.0".toList)]

/-- What is put into the line behind them. -/
def ipv6Lines (enableIpv6 : Bool) : Text :=
  if enableIpv6 then
    "ipv6:\n    address: fd00::1\n    gateway: fd00::2\n    prefix-length: 128".toList
  else []

def behind (proxyHost : Text) (proxyPort : Int) : List (Nat × Text) :=
  [(0, []),
    (12, "socks5:".toList),
    (14, "port: ".toList ++ decimalText proxyPort),
    (14, "address: ".toList ++ proxyHost),
    (14, "udp: udp".toList),
    (0, []),
    (12, "misc:".toList),
    (14, "task-stack-size: 163840".toList),
    (14, "connect-timeout: 30000".toList),
    (14, "tcp-read-write-timeout: 600000".toList),
    (14, "udp-read-write-timeout: 300000".toList),
    (14, "tcp-buffer-size: 262144".toList),
    (14, "udp-recv-buffer-size: 524288".toList),
    (14, "max-session-count: 16384".toList),
    (14, "log-level: info".toList)]

/-- The raw string, which begins and ends with a line that is blank. -/
def rawConfig (enableIpv6 : Bool) (proxyHost : Text) (proxyPort : Int) : Text :=
  joinLines (((0, []) :: (before ++ (14, ipv6Lines enableIpv6) ::
    (behind proxyHost proxyPort ++ [(8, [])]))).map row)

/-- The text that goes to `tunnel.yaml`. -/
def createTunnelConfig (enableIpv6 : Bool) (proxyHost : Text) (proxyPort : Int)
    (_dnsServer : Text) : Text :=
  trimIndent (rawConfig enableIpv6 proxyHost proxyPort)

/-- Host names and addresses, and more. -/
structure Host (t : Text) : Prop where
  nonempty : t ≠ []
  words : ∀ c ∈ t, Yaml.isWord c = true
  dash : t.head? ≠ some '-'
  percent : t.head? ≠ some '%'

def fields (es : List (String × Text)) : Forest Text Text :=
  es.foldr (fun e rest => .leaf e.1.toList e.2 rest) .nil

/-- Every value under its key. -/
def intended (enableIpv6 : Bool) (proxyHost : Text) (proxyPort : Int) : Forest Text Text :=
  .branch "tunnel".toList
    (.leaf "name".toList tunnelName (.leaf "mtu".toList (decimalText mtu)
      (.branch "ipv4".toList (fields [("address", "10.1.1.1".toList),
        ("gateway", "10.1.1.2".toList), ("netmask", "255.255.255.0".toList)])
        (if enableIpv6 then .branch "ipv6".toList (fields [("address", "fd00::1".toList),
          ("gateway", "fd00::2".toList), ("prefix-length", "128".toList)]) .nil else .nil))))
    (.branch "socks5".toList (fields [("port", decimalText proxyPort), ("address", proxyHost),
        ("udp", "udp".toList)])
      (.branch "misc".toList (fields [("task-stack-size", "163840".toList),
        ("connect-timeout", "30000".toList), ("tcp-read-write-timeout", "600000".toList),
        ("udp-read-write-timeout", "300000".toList), ("tcp-buffer-size", "262144".toList),
        ("udp-recv-buffer-size", "524288".toList), ("max-session-count", "16384".toList),
        ("log-level", "info".toList)]) .nil))

/-- What a reader of YAML finds in a text. -/
def readYaml (t : Text) : Option (Forest Text Text) := Yaml.read (lines t)

/-- The rows that the line of `ipv6` comes to. -/
def ipv6Rows (enableIpv6 : Bool) : List (Nat × Text) :=
  if enableIpv6 then
    [(14, "ipv6:".toList), (4, "address: fd00::1".toList), (4, "gateway: fd00::2".toList),
      (4, "prefix-length: 128".toList)]
  else [(14, [])]

def rows (enableIpv6 : Bool) (proxyHost : Text) (proxyPort : Int) : List (Nat × Text) :=
  before ++ (ipv6Rows enableIpv6 ++ behind proxyHost proxyPort)

/-- What is taken from every line. -/
def common (enableIpv6 : Bool) : Nat := if enableIpv6 then 4 else 12

def cutRow (enableIpv6 : Bool) (p : Nat × Text) : Nat × Text := (p.1 - common enableIpv6, p.2)

section Lines

variable {enableIpv6 : Bool} {proxyHost dnsServer : Text} {proxyPort : Int}

lemma word_oneLine {t : Text} (h : ∀ c ∈ t, Yaml.isWord c = true) : OneLine t := by
  intro c hc
  have hword := h c hc
  constructor <;> rintro rfl <;> exact absurd hword (by decide)

lemma decimalText_char {n : Int} {c : Char} (hc : c ∈ decimalText n) :
    c.isDigit = true ∨ c = '-' := by
  unfold decimalText at hc
  split at hc
  · rcases List.mem_cons.mp hc with rfl | hc
    · exact .inr rfl
    · exact .inl (Nat.isDigit_of_mem_toDigits (by decide) (by decide) hc)
  · exact .inl (Nat.isDigit_of_mem_toDigits (by decide) (by decide) hc)

lemma decimalText_word {n : Int} : ∀ c ∈ decimalText n, Yaml.isWord c = true := by
  intro c hc
  rcases decimalText_char hc with hdigit | rfl
  · unfold Yaml.isWord Char.isAlphanum
    rw [hdigit, Bool.or_true, Bool.true_or]
  · decide

lemma decimalText_ne {n : Int} : decimalText n ≠ [] ∧ decimalText n ≠ ['-'] := by
  have hdigits : Nat.toDigits 10 n.natAbs ≠ [] := Nat.toDigits_ne_nil
  unfold decimalText
  split
  · exact ⟨List.cons_ne_nil _ _, by simp⟩
  · refine ⟨hdigits, ?_⟩
    intro heq
    have hdash := Nat.isDigit_of_mem_toDigits (by decide) (by decide)
      (heq ▸ List.mem_singleton_self '-' : '-' ∈ Nat.toDigits 10 n.natAbs)
    exact absurd hdash (by decide)

/-- Numbers are scalars. -/
lemma decimalText_plain {n : Int} : Yaml.isPlain (decimalText n) = true := by
  refine (Yaml.isPlain_word decimalText_word decimalText_ne.1 decimalText_ne.2 ?_).mpr ?_
  · intro hhead
    exact absurd (decimalText_char (List.mem_of_mem_head? hhead)) (by decide)
  · intro hlast
    exact absurd (decimalText_char (List.mem_of_getLast? hlast)) (by decide)

lemma behind_eq : behind proxyHost proxyPort = (behind [] 0).take 2 ++
    ((14, "port: ".toList ++ decimalText proxyPort) :: (14, "address: ".toList ++ proxyHost) ::
      (behind [] 0).drop 4) := rfl

lemma rows_row (h : Host proxyHost) : ∀ p ∈ rows enableIpv6 proxyHost proxyPort, Row p := by
  have hport : OneLine (decimalText proxyPort) := word_oneLine decimalText_word
  have hhost := word_oneLine h.words
  have hportRow : Row (14, "port: ".toList ++ decimalText proxyPort) :=
    ⟨OneLine.append (by decide) hport, rfl⟩
  have hhostRow : Row (14, "address: ".toList ++ proxyHost) :=
    ⟨OneLine.append (by decide) hhost, rfl⟩
  have hbefore : ∀ p ∈ before, Row p := by decide
  have hipv6 : ∀ p ∈ ipv6Rows enableIpv6, Row p := by
    cases enableIpv6 <;> decide
  have hsocks : ∀ p ∈ (behind [] 0).take 2, Row p := by decide
  have hmisc : ∀ p ∈ (behind [] 0).drop 4, Row p := by decide
  intro p hp
  unfold rows at hp
  rw [behind_eq] at hp
  simp only [List.mem_append, List.mem_cons] at hp
  rcases hp with hp | hp | hp | rfl | rfl | hp
  · exact hbefore p hp
  · exact hipv6 p hp
  · exact hsocks p hp
  · exact hportRow
  · exact hhostRow
  · exact hmisc p hp

lemma lines_rawConfig (h : Host proxyHost) : lines (rawConfig enableIpv6 proxyHost proxyPort) =
    row (0, []) :: ((rows enableIpv6 proxyHost proxyPort).map row ++ [row (8, [])]) := by
  have hrow : ∀ p ∈ rows enableIpv6 proxyHost proxyPort, Row p := rows_row h
  have hone (ps : List (Nat × Text))
      (hps : ∀ p ∈ ps, p ∈ rows enableIpv6 proxyHost proxyPort) : ∀ l ∈ ps.map row, OneLine l := by
    intro l hl
    obtain ⟨p, hp, rfl⟩ := List.mem_map.mp hl
    exact row_oneLine (hrow p (hps p hp)).oneLine
  have hbefore := hone before fun p hp => List.mem_append_left _ hp
  have hbehind := hone (behind proxyHost proxyPort) fun p hp =>
    List.mem_append_right _ (List.mem_append_right _ hp)
  have hipv6 : lines (row (14, ipv6Lines enableIpv6)) = (ipv6Rows enableIpv6).map row := by
    cases enableIpv6 <;> rfl
  have hlast : lines (row (8, [])) = [row (8, [])] := by decide
  have hfeeds : '\r' ∉ row (14, ipv6Lines enableIpv6) ∧ '\r' ∉ row (8, []) := by
    cases enableIpv6 <;> decide
  unfold rawConfig
  rw [lines_joinLines (by simp)]
  · simp only [List.map_cons, List.map_append, List.map_nil, List.flatMap_cons,
      List.flatMap_append, List.flatMap_nil, flatMap_lines_oneLine hbefore,
      flatMap_lines_oneLine hbehind, hipv6, hlast, rows, List.append_assoc, List.append_nil]
    rfl
  · simp only [List.map_cons, List.map_append, List.map_nil, List.mem_cons, List.mem_append,
      List.not_mem_nil, or_false]
    rintro l (rfl | hl | rfl | hl | rfl) hmem
    · cases hmem
    · exact (hbefore l hl _ hmem).2 rfl
    · exact hfeeds.1 hmem
    · exact (hbehind l hl _ hmem).2 rfl
    · exact hfeeds.2 hmem

/-- The rows that have text. -/
def filled (ps : List (Nat × Text)) : List (Nat × Text) := ps.filter fun p => !p.2.isEmpty

lemma rows_filled : filled (rows enableIpv6 proxyHost proxyPort) =
    (before ++ filled (ipv6Rows enableIpv6)) ++
      ((12, "socks5:".toList) :: (14, "port: ".toList ++ decimalText proxyPort) ::
        (14, "address: ".toList ++ proxyHost) :: filled ((behind [] 0).drop 4)) := by
  have hbefore : (before.filter fun p => !p.2.isEmpty) = before := rfl
  unfold rows filled
  rw [behind_eq, List.filter_append, List.filter_append, List.filter_append, hbefore,
    List.append_assoc]
  rfl

lemma rows_min : ((filled (rows enableIpv6 proxyHost proxyPort)).map Prod.fst).min? =
    some (common enableIpv6) := by
  rw [rows_filled]
  simp only [List.map_append, List.map_cons]
  cases enableIpv6 <;> rfl

/-- The text, line by line. -/
lemma lines_createTunnelConfig (h : Host proxyHost) :
    lines (createTunnelConfig enableIpv6 proxyHost proxyPort dnsServer) =
      ((rows enableIpv6 proxyHost proxyPort).map (cutRow enableIpv6)).map row := by
  have hrow : ∀ p ∈ rows enableIpv6 proxyHost proxyPort, Row p := rows_row h
  have hcut : ((rows enableIpv6 proxyHost proxyPort).map fun p =>
      row (p.1 - common enableIpv6, p.2)) =
        ((rows enableIpv6 proxyHost proxyPort).map (cutRow enableIpv6)).map row := by
    rw [List.map_map]
    rfl
  unfold createTunnelConfig
  rw [trimIndent_rows hrow (lines_rawConfig h) rows_min, hcut, lines_rows (by simp [rows, before])]
  intro p hp
  obtain ⟨q, hq, rfl⟩ := List.mem_map.mp hp
  exact ⟨(hrow q hq).oneLine, (hrow q hq).front⟩

lemma rows_space (h : Host proxyHost) :
    ∀ p ∈ (rows enableIpv6 proxyHost proxyPort).map (cutRow enableIpv6),
      p.2.head? ≠ some ' ' := by
  intro p hp hhead
  obtain ⟨q, hq, rfl⟩ := List.mem_map.mp hp
  have hfront : (cutRow enableIpv6 q).2.head?.any isWhitespace = false := (rows_row h q hq).front
  rw [hhead] at hfront
  exact absurd hfront (by decide)

lemma readYaml_eq (h : Host proxyHost) :
    readYaml (createTunnelConfig enableIpv6 proxyHost proxyPort dnsServer) =
      Yaml.read (((rows enableIpv6 proxyHost proxyPort).map (cutRow enableIpv6)).map row) := by
  unfold readYaml
  rw [lines_createTunnelConfig h]

lemma cut_filled : filled ((rows enableIpv6 proxyHost proxyPort).map (cutRow enableIpv6)) =
    (filled (rows enableIpv6 proxyHost proxyPort)).map (cutRow enableIpv6) := by
  unfold filled
  rw [List.filter_map]
  rfl

/-- The lines of `ipv6` are at the margin, and the first key is not. -/
lemma readYaml_ipv6 (h : Host proxyHost) :
    readYaml (createTunnelConfig true proxyHost proxyPort dnsServer) = none := by
  rw [readYaml_eq h]
  by_contra hsome
  obtain ⟨f, hread⟩ := Option.ne_none_iff_exists'.mp hsome
  have hfilled : filled ((rows true proxyHost proxyPort).map (cutRow true)) = _ := cut_filled
  rw [rows_filled] at hfilled
  have hstep := Yaml.read_rows_indent (rows_space h) hfilled hread (0, "address: fd00::1".toList)
    (by simp [ipv6Rows, cutRow, common, filled])
  exact absurd hstep (by decide)

lemma readEntry_port : Yaml.readEntry ("port: ".toList ++ decimalText proxyPort) =
    some ("port".toList, some (decimalText proxyPort)) := by
  have hsplit : Yaml.splitKey ("port: ".toList ++ decimalText proxyPort) =
      some ("port".toList, decimalText proxyPort) := rfl
  rw [Yaml.readEntry_word decimalText_word decimalText_ne.1 hsplit (by decide)
    (by decide) rfl, if_pos decimalText_plain]

lemma readEntry_host (h : Host proxyHost) : Yaml.readEntry ("address: ".toList ++ proxyHost) =
    if Yaml.isPlain proxyHost then some ("address".toList, some proxyHost) else none := by
  have hsplit : Yaml.splitKey ("address: ".toList ++ proxyHost) =
      some ("address".toList, proxyHost) := rfl
  exact Yaml.readEntry_word h.words h.nonempty hsplit (by decide) (by decide) rfl

lemma intended_lines : (intended false proxyHost proxyPort).lines 2 0 =
    ((intended false [] 0).lines 2 0).take 8 ++
      (⟨2, "port".toList, some (decimalText proxyPort)⟩ ::
        ⟨2, "address".toList, some proxyHost⟩ :: ((intended false [] 0).lines 2 0).drop 10) := rfl

/-- A row as a line of the mapping. -/
def entryLine (p : Nat × Text) : Option (Line Text Text) :=
  (Yaml.readEntry p.2).map fun e => ⟨p.1, e.1, e.2⟩

/-- Without `ipv6` the host alone decides. -/
lemma readYaml_ipv4 (h : Host proxyHost) :
    readYaml (createTunnelConfig false proxyHost proxyPort dnsServer) =
      if Yaml.isPlain proxyHost then some (intended false proxyHost proxyPort) else none := by
  have hfront : ((before ++ filled (ipv6Rows false) ++ [(12, "socks5:".toList)]).map
      (cutRow false)).mapM entryLine = some (((intended false [] 0).lines 2 0).take 8) := by
    decide +kernel
  have hback : ((filled ((behind [] 0).drop 4)).map (cutRow false)).mapM entryLine =
      some (((intended false [] 0).lines 2 0).drop 10) := by
    decide +kernel
  have hport : entryLine (cutRow false (14, "port: ".toList ++ decimalText proxyPort)) =
      some ⟨2, "port".toList, some (decimalText proxyPort)⟩ := by
    unfold entryLine cutRow
    rw [readEntry_port]
    rfl
  have hhost : entryLine (cutRow false (14, "address: ".toList ++ proxyHost)) =
      if Yaml.isPlain proxyHost then some ⟨2, "address".toList, some proxyHost⟩ else none := by
    unfold entryLine cutRow
    rw [readEntry_host h]
    split <;> rfl
  have hlines : ((filled (rows false proxyHost proxyPort)).map (cutRow false)).mapM entryLine =
      if Yaml.isPlain proxyHost then some ((intended false proxyHost proxyPort).lines 2 0)
      else none := by
    rw [rows_filled, List.append_cons, List.map_append, List.mapM_append, hfront, List.map_cons,
      List.map_cons, List.mapM_cons, List.mapM_cons, hport, hhost, hback, intended_lines]
    split <;> rfl
  have hread : Yaml.readLines (((rows false proxyHost proxyPort).map (cutRow false)).map row) =
      (filled ((rows false proxyHost proxyPort).map (cutRow false))).mapM entryLine :=
    Yaml.readLines_rows (rows_space h)
  rw [readYaml_eq h]
  unfold Yaml.read
  rw [hread, cut_filled, hlines]
  split
  · exact read_lines (by decide) _ 0
  · rfl

/-- The text is read as it is meant exactly without `ipv6` and with no colon at the end of the
host. -/
theorem readYaml_iff (h : Host proxyHost) :
    readYaml (createTunnelConfig enableIpv6 proxyHost proxyPort dnsServer) =
      some (intended enableIpv6 proxyHost proxyPort) ↔
        enableIpv6 = false ∧ proxyHost.getLast? ≠ some ':' := by
  have hdash : proxyHost ≠ ['-'] := by
    rintro rfl
    exact h.dash rfl
  rw [← Yaml.isPlain_word h.words h.nonempty hdash h.percent]
  cases enableIpv6 with
  | true => simp [readYaml_ipv6 h]
  | false =>
    rw [readYaml_ipv4 h]
    split <;> simp_all

lemma localhost_host : Host "localhost".toList where
  nonempty := by decide
  words := List.all_eq_true.mp (by decide)
  dash := by decide
  percent := by decide

/-- With `ipv6` not even a name is found. -/
theorem readYaml_localhost :
    readYaml (createTunnelConfig true "localhost".toList 1080 []) =
      some (intended true "localhost".toList 1080) ↔
        true = false ∧ "localhost".toList.getLast? ≠ some ':' :=
  readYaml_iff localhost_host

theorem readYaml_not_nested :
    ¬ ∀ (enableIpv6 : Bool) (proxyHost : Text) (proxyPort : Int) (dnsServer : Text),
      Host proxyHost → readYaml (createTunnelConfig enableIpv6 proxyHost proxyPort dnsServer) =
        some (intended enableIpv6 proxyHost proxyPort) := by
  intro h
  have hread := h true "localhost".toList 1080 [] localhost_host
  rw [readYaml_ipv6 localhost_host] at hread
  cases hread

end Lines

end TunnelConfig
