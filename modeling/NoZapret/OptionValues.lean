import Mathlib.Algebra.Order.Ring.Int
import Mathlib.Data.List.TakeWhile

/-!
# The values of the engine's options

`main.c`: what `parse_args` makes of `optarg`. A string is its characters up to the
terminator. Of a group (`struct desync_params`) only what the verdict on a later option
depends on is kept.
-/

namespace OptionValues

/-- What the parser asks of the C library and of the device. -/
structure System where
  /-- where the number ends -/
  strtof : List Char → List Char
  strtof_length : ∀ cs, (strtof cs).length ≤ cs.length
  /-- whether the text is a numeric address -/
  getaddrinfo : List Char → Bool
  /-- how many characters a hexadecimal or octal escape takes -/
  sscanf : List Char → Option Nat
  /-- whether the file can be read and is not empty -/
  fopen : List Char → Bool

inductive Verdict where
  | accept
  | invalid
  /-- a null pointer is read -/
  | crash
  deriving DecidableEq, Repr

def verdict (ok : Bool) : Verdict := if ok then .accept else .invalid

/-- From the first `c` on. -/
def strchr (c : Char) (cs : List Char) : Option (List Char) :=
  match cs.dropWhile (· ≠ c) with
  | [] => none
  | rest => some rest

def isspace (c : Char) : Bool := [' ', '\t', '\n', '\x0b', '\x0c', '\r'].contains c

def isdigit (c : Char) : Bool := '0' ≤ c && c ≤ '9'

def digit (base : Nat) (c : Char) : Option Nat :=
  let value :=
    if '0' ≤ c ∧ c ≤ '9' then c.toNat - '0'.toNat
    else if 'a' ≤ c ∧ c ≤ 'z' then c.toNat - 'a'.toNat + 10
    else if 'A' ≤ c ∧ c ≤ 'Z' then c.toNat - 'A'.toNat + 10
    else base
  if value < base then some value else none

def digits (base : Nat) (acc : Nat) : List Char → Nat × List Char
  | [] => (acc, [])
  | c :: cs =>
    match digit base c with
    | some d => digits base (acc * base + d) cs
    | none => (acc, c :: cs)

def sign : List Char → Bool × List Char
  | '-' :: cs => (true, cs)
  | '+' :: cs => (false, cs)
  | cs => (false, cs)

/-- The base and the digits; only base 0 looks at how the number begins. -/
def radix (base : Nat) (cs : List Char) : Nat × List Char :=
  if base = 0 then
    match cs with
    | '0' :: x :: d :: rest =>
      if (x = 'x' ∨ x = 'X') ∧ (digit 16 d).isSome then (16, d :: rest) else (8, cs)
    | '0' :: _ => (8, cs)
    | _ => (10, cs)
  else (base, cs)

/-- `strtol(cs, &end, base)`: the value, saturated to 64 bits, and `end`. -/
def strtol (base : Nat) (cs : List Char) : Int × List Char :=
  let (negative, unsigned) := sign (cs.dropWhile isspace)
  let (base, body) := radix base unsigned
  match body with
  | [] => (0, cs)
  | c :: _ =>
    if (digit base c).isNone then (0, cs)
    else
      let (n, rest) := digits base 0 body
      (if negative then max (-(n : Int)) (-2 ^ 63) else min (n : Int) (2 ^ 63 - 1), rest)

def intMax : Int := 2 ^ 31 - 1

def number (lo hi : Int) (optarg : List Char) : Bool :=
  let (val, rest) := strtol 0 optarg
  lo ≤ val ∧ val ≤ hi ∧ rest = []

/-- `-V` and `-R`: one number or two with a `-` between them. -/
def range (hi : Int) (optarg : List Char) : Bool :=
  let (val, rest) := strtol 0 optarg
  0 < val && val ≤ hi &&
    match rest with
    | '-' :: rest => number 1 hi rest
    | rest => rest = []

def timeout (sys : System) (optarg : List Char) : Bool :=
  let next : List Char → List Char
    | ':' :: rest => sys.strtof rest
    | rest => rest
  next (next (next (sys.strtof optarg))) = []

/-- One round of a loop over the values between commas: where it goes on looking for the
next comma. -/
inductive Turn (cs : List Char) where
  | on (rest : List Char) (h : rest.length ≤ cs.length)
  | invalid
  /-- `end` is null -/
  | null

lemma strchr_some {c : Char} {cs rest : List Char} (h : strchr c cs = some rest) :
    ∃ tail, rest = c :: tail ∧ tail.length < cs.length := by
  unfold strchr at h
  split at h
  · cases h
  · rename_i hne
    cases h
    obtain ⟨d, ds, hd⟩ := List.exists_cons_of_ne_nil hne
    have hlen := (List.dropWhile_suffix (l := cs) (· ≠ c)).length_le
    have hhead := List.head_dropWhile_not (fun d => decide (d ≠ c)) hne
    rw [hd] at hlen ⊢
    simp only [hd, List.head_cons, decide_eq_false_iff_not, not_not] at hhead
    exact ⟨ds, by rw [hhead], hlen⟩

def commaLoop (body : (cs : List Char) → Turn cs) (cs : List Char) : Verdict :=
  match body cs with
  | .invalid => .invalid
  | .null => .crash
  | .on rest _h =>
    match _hcomma : strchr ',' rest with
    | none => .accept
    | some comma =>
      commaLoop body (comma.drop 1)
termination_by cs.length
decreasing_by
  obtain ⟨tail, rfl, hlt⟩ := strchr_some _hcomma
  exact Nat.lt_of_lt_of_le hlt _h

/-- `-L`, `-K` and `-M`. -/
def letterTurn (known : List Char) : (cs : List Char) → Turn cs
  | [] => .invalid
  | c :: cs => if known.contains c then .on (c :: cs) (Nat.le_refl _) else .invalid

def autoLetters : List Char := ['t', 'r', 's', 'c', 'n']

/-- `-A`: `p=` sets the priority of the group before. -/
def autoTurn (sys : System) : (cs : List Char) → Turn cs
  | [] => .invalid
  | 'p' :: cs =>
    match h : strchr '=' ('p' :: cs) with
    | none => .null
    | some rest =>
      have : (sys.strtof (rest.drop 1)).length ≤ ('p' :: cs).length := by
        obtain ⟨tail, rfl, hlt⟩ := strchr_some h
        exact Nat.le_trans (sys.strtof_length _) (Nat.le_of_lt hlt)
      if sys.strtof (rest.drop 1) = [] then .on (sys.strtof (rest.drop 1)) this else .invalid
  | c :: cs => if autoLetters.contains c then .on (c :: cs) (Nat.le_refl _) else .invalid

lemma digits_length (base acc : Nat) (cs : List Char) :
    (digits base acc cs).2.length ≤ cs.length := by
  induction cs generalizing acc with
  | nil => exact Nat.le_refl _
  | cons c cs ih =>
    unfold digits
    cases digit base c with
    | none => exact Nat.le_refl _
    | some d => exact Nat.le_succ_of_le (ih _)

lemma sign_length (cs : List Char) : (sign cs).2.length ≤ cs.length := by
  unfold sign
  split
  · exact Nat.le_succ _
  · exact Nat.le_succ _
  · exact Nat.le_refl _

lemma radix_length (base : Nat) (cs : List Char) : (radix base cs).2.length ≤ cs.length := by
  unfold radix
  split
  · split
    · split
      · simp only [List.length_cons]
        omega
      · exact Nat.le_refl _
    · exact Nat.le_refl _
    · exact Nat.le_refl _
  · exact Nat.le_refl _

/-- `end` is in the string. -/
lemma strtol_length (base : Nat) (cs : List Char) : (strtol base cs).2.length ≤ cs.length := by
  have hspace := (List.dropWhile_suffix (l := cs) isspace).length_le
  have hsign := sign_length (cs.dropWhile isspace)
  have hradix := radix_length base (sign (cs.dropWhile isspace)).2
  have hdigits := digits_length (radix base (sign (cs.dropWhile isspace)).2).1 0
    (radix base (sign (cs.dropWhile isspace)).2).2
  unfold strtol
  dsimp only
  split
  · exact Nat.le_refl _
  · rename_i hbody
    rw [hbody] at hdigits hradix
    split
    · exact Nat.le_refl _
    · dsimp only
      rw [hbody]
      omega

lemma strtol_field {c : Char} {cs rest : List Char} (h : strchr c cs = some rest) :
    (strtol 0 (rest.drop 1)).2.length ≤ cs.length := by
  obtain ⟨tail, rfl, hlt⟩ := strchr_some h
  exact Nat.le_trans (strtol_length 0 tail) (Nat.le_of_lt hlt)

/-- `-Q`: `m` needs a number behind a `=`. -/
def modTurn : (cs : List Char) → Turn cs
  | 'm' :: cs =>
    match h : strchr '=' ('m' :: cs) with
    | none => .invalid
    | some rest =>
      let number := strtol 0 (rest.drop 1)
      if number.1 ≤ intMax ∧ (number.2 = [] ∨ number.2.head? = some ',') then
        .on number.2 (strtol_field h)
      else .invalid
  | cs => letterTurn ['r', 'o'] cs

/-- The rounds of `while (*end == ':')`: whether `part->r` is set after them, and `end`. -/
def offsetFields (r : Bool) : List Char → Option (Bool × List Char)
  | ':' :: cs =>
    let rs := strtol 0 cs
    if rs.1 < 0 ∨ intMax < rs.1 then none
    else if r then some (true, rs.2)
    else if rs.1 = 0 then none
    else offsetFields true rs.2
  | rest => some (r, rest)
termination_by cs => cs.length
decreasing_by exact Nat.lt_succ_of_le (strtol_length 0 cs)

def offsetFlag : List Char → Bool
  | [] => true
  | '+' :: c :: _ => c = 's' || c = 'h' || c = 'n'
  | _ => false

/-- `r` says whether `part->r` is set already. The result has that, and the position. -/
def parseOffset (r : Bool) (str : List Char) : Option (Bool × Int) := do
  let (val, rest) := strtol 0 str
  let (r, rest) ← offsetFields r rest
  if offsetFlag rest then some (r, val) else none

/-- The port, when one is set; nothing if the address is not valid. -/
def getAddr (sys : System) (str : List Char) : Option (Option Nat) := do
  let (s, e, p) ←
    match str with
    | '[' :: cs => (strchr ']' str).map fun e => (cs, some e, e.drop 1)
    | _ => some (str, none, str)
  let (port, e) ←
    match strchr ':' p with
    | some (c :: d :: ds) =>
      if isdigit d then
        let (val, rest) := strtol 0 (d :: ds)
        if val ≤ 0 ∨ 0xffff < val ∨ rest ≠ [] then none
        else some (some val.toNat, some (e.getD (c :: d :: ds)))
      else some (none, e)
    | _ => some (none, e)
  let host := s.take (s.length - (e.getD []).length)
  if host = [] ∨ sys.getaddrinfo (host.take 255) then some port else none

def schemes : List (String × Nat) := [
  ("socks4://", 2), ("socks5://", 1), ("socks://", 3), ("ss://", 16), ("http://", 4),
  ("sni://", 32), ("tcp://", 64), ("red://", 8)]

def getAddrScheme (sys : System) (str : List Char) : Option (Nat × Option Nat) :=
  match schemes.find? fun scheme => scheme.1.toList.isPrefixOf str with
  | some (scheme, mode) => (getAddr sys (str.drop scheme.toList.length)).map (mode, ·)
  | none => (getAddr sys str).map (0, ·)

def escapes : List Char := ['r', 'n', 't', '\\', 'f', 'b', 'v', 'a']

/-- How many bytes are written, at most `blen`. -/
def parseCform (sys : System) : Nat → List Char → Nat
  | 0, _ => 0
  | _ + 1, [] => 0
  | blen + 1, c :: cs =>
    if c ≠ '\\' then parseCform sys blen cs + 1
    else if cs.head?.any escapes.contains then parseCform sys blen (cs.drop 1) + 1
    else
      match sys.sscanf cs with
      | some n => parseCform sys blen (cs.drop n) + 1
      | none => parseCform sys (blen + 1) cs
termination_by _ cs => cs.length

def ftob (sys : System) : List Char → Bool
  | ':' :: str => 0 < parseCform sys str.length str
  | str => sys.fopen str

structure Dp where
  /-- `_optind` -/
  optind : Nat
  /-- `fake_offset.r` is not 0 -/
  offsetR : Bool
  /-- `fake_data.data` is not null -/
  fakeData : Bool
  /-- `out_addr` has a port -/
  outPort : Bool
  deriving DecidableEq, Repr

def outSupport : Nat := 65

/-- The cases of `parse_args` but for `-h`, `-v`, `-A` and `-B`. -/
def check (sys : System) (dp : Dp) (val : Char) (optarg : List Char) : Verdict :=
  match val with
  | 'N' | 'X' | 'U' | 'E' | 'D' | 'F' | 'S' | 'J' | 'Y' | 'Z' => .accept
  | 'w' | 'y' | '#' | 'n' | 'W' | 'P' => .accept
  | 'i' => verdict (getAddrScheme sys optarg).isSome
  | 'p' => verdict (number 1 0xffff optarg)
  | 'I' => verdict (getAddr sys optarg).isSome
  | 'b' => verdict (number 1 (intMax / 4) optarg)
  | 'c' => verdict (number 1 (0xffff / 2 - 1) optarg)
  | 'x' => verdict (0 ≤ (strtol 0 optarg).1.bmod (2 ^ 32))
  | 'L' => commaLoop (letterTurn ['o', 's', 'n']) optarg
  | 'u' => verdict (number 1 (2 ^ 63 - 1) optarg)
  | '/' => verdict (number 0 32 optarg)
  | 'T' => verdict (timeout sys optarg)
  | 'K' => commaLoop (letterTurn ['t', 'h', 'u', 'i']) optarg
  | 'H' | 'j' => verdict (ftob sys optarg)
  | 's' | 'd' | 'o' | 'q' | 'f' => verdict (parseOffset false optarg).isSome
  | 't' | 'm' | 'g' => verdict (number 1 255 optarg)
  | 'O' => verdict (parseOffset dp.offsetR optarg).isSome
  | 'Q' => commaLoop modTurn optarg
  | 'l' => verdict (dp.fakeData || ftob sys optarg)
  | 'e' => verdict (parseCform sys 1 optarg = 1)
  | 'M' => commaLoop (letterTurn ['r', 'h', 'd']) optarg
  | 'r' => verdict ((parseOffset false optarg).any fun part => part.2 ≤ 0xffff)
  | 'a' => verdict (number 0 intMax optarg)
  | 'V' => verdict (range 0xffff optarg)
  | 'R' => verdict (range intMax optarg)
  | 'C' => verdict ((getAddrScheme sys optarg).any fun addr =>
      addr.1 &&& outSupport = addr.1 && (addr.2.isSome || dp.outPort))
  | _ => .invalid

/-- What an option that is accepted leaves in the group. -/
def mark (sys : System) (dp : Dp) (val : Char) (optarg : List Char) : Dp :=
  match val with
  | 'O' => { dp with offsetR := ((parseOffset dp.offsetR optarg).map (·.1)).getD dp.offsetR }
  | 'l' => { dp with fakeData := true }
  | 'C' => { dp with outPort := dp.outPort || (getAddrScheme sys optarg).any (·.2.isSome) }
  | _ => dp

/-- The items of `--auto` up to one that begins with `p` are known, and no `=` is behind it. -/
inductive BareP : List Char → Prop where
  | here {rest : List Char} (h : '=' ∉ rest) : BareP ('p' :: rest)
  | later {c : Char} {item rest : List Char} (hc : c ∈ autoLetters) (hitem : ',' ∉ item)
      (h : BareP rest) : BareP (c :: (item ++ ',' :: rest))

variable {sys : System} {dp : Dp} {val c : Char} {optarg cs rest : List Char}

lemma strchr_none : strchr c cs = none ↔ c ∉ cs := by
  have hnil : strchr c cs = none ↔ cs.dropWhile (· ≠ c) = [] := by
    unfold strchr
    cases cs.dropWhile (· ≠ c) <;> simp
  rw [hnil, List.dropWhile_eq_nil_iff]
  constructor
  · intro h hc
    simpa using h c hc
  · intro h x hx
    exact decide_eq_true fun hxc => h (hxc ▸ hx)

lemma commaLoop_crash {body : (cs : List Char) → Turn cs} :
    commaLoop body cs = .crash ↔ body cs = .null ∨
      ∃ rest h comma, body cs = .on rest h ∧ strchr ',' rest = some comma ∧
        commaLoop body (comma.drop 1) = .crash := by
  rw [commaLoop]
  split
  · rename_i hbody
    simp [hbody]
  · rename_i hbody
    simp [hbody]
  · rename_i rest h hbody
    split
    · rename_i hcomma
      simp [hbody, hcomma]
    · rename_i comma hcomma
      simp [hbody, hcomma, h]

/-- Only a round that leaves `end` null can read a null pointer. -/
lemma commaLoop_ne_crash {body : (cs : List Char) → Turn cs} (h : ∀ cs, body cs ≠ .null) :
    commaLoop body cs ≠ .crash := by
  induction hn : cs.length using Nat.strongRecOn generalizing cs with
  | ind n ih =>
    intro hcrash
    rcases (commaLoop_crash).mp hcrash with hnull | ⟨rest, hle, comma, hbody, hcomma, hrest⟩
    · exact h cs hnull
    · obtain ⟨tail, rfl, hlt⟩ := strchr_some hcomma
      exact ih tail.length (by omega) rfl hrest

lemma letterTurn_ne_null {known : List Char} : letterTurn known cs ≠ .null := by
  cases cs with
  | nil => simp [letterTurn]
  | cons c cs =>
    change (if known.contains c then Turn.on (c :: cs) (Nat.le_refl _) else .invalid) ≠ _
    split <;> simp

lemma modTurn_ne_null : modTurn cs ≠ .null := by
  unfold modTurn
  split
  · split
    · simp
    · dsimp only
      split <;> simp
  · exact letterTurn_ne_null

lemma verdict_ne_crash {ok : Bool} : verdict ok ≠ .crash := by cases ok <;> simp [verdict]

/-- No value of these options makes the parser read a null pointer. -/
lemma check_ne_crash : check sys dp val optarg ≠ .crash := by
  unfold check
  split
  all_goals first
    | exact verdict_ne_crash
    | exact commaLoop_ne_crash fun _ => letterTurn_ne_null
    | exact commaLoop_ne_crash fun _ => modTurn_ne_null
    | simp

lemma strchr_append {front : List Char} (h : c ∉ front) :
    strchr c (front ++ c :: rest) = some (c :: rest) := by
  have hdrop : (front ++ c :: rest).dropWhile (· ≠ c) = c :: rest := by
    rw [List.dropWhile_append_of_pos fun x hx => decide_eq_true (by rintro rfl; exact h hx)]
    simp
  unfold strchr
  rw [hdrop]

lemma strchr_split (h : strchr c cs = some rest) :
    ∃ front tail, cs = front ++ c :: tail ∧ c ∉ front ∧ rest = c :: tail := by
  obtain ⟨tail, rfl, -⟩ := strchr_some h
  have hdrop : cs.dropWhile (· ≠ c) = c :: tail := by
    unfold strchr at h
    split at h
    · cases h
    · simpa using h
  refine ⟨cs.takeWhile (· ≠ c), tail, ?_, ?_, rfl⟩
  · rw [← hdrop, List.takeWhile_append_dropWhile]
  · intro hc
    simpa using List.mem_takeWhile_imp hc

lemma autoTurn_null : autoTurn sys cs = .null ↔ ∃ tail, cs = 'p' :: tail ∧ '=' ∉ tail := by
  unfold autoTurn
  split
  · simp
  · rename_i tail
    split
    · rename_i hnone
      simpa using (strchr_none).mp hnone
    · rename_i rest hsome
      have hmem : '=' ∈ tail := by
        have := strchr_none.not.mp (hsome ▸ Option.some_ne_none rest)
        simpa using this
      dsimp only
      split <;> simp [hmem]
  · rename_i hp
    constructor
    · split <;> simp
    · rintro ⟨tail, hcs, -⟩
      exact absurd (List.cons.inj hcs).1 hp

/-- A round goes on from a known letter, or is over with the string. -/
lemma autoTurn_on {h : rest.length ≤ cs.length} (hturn : autoTurn sys cs = .on rest h) :
    rest = [] ∨ ∃ c tail, cs = c :: tail ∧ rest = c :: tail ∧ c ∈ autoLetters := by
  unfold autoTurn at hturn
  split at hturn
  · cases hturn
  · split at hturn
    · cases hturn
    · dsimp only at hturn
      split at hturn
      · rename_i hend
        cases hturn
        exact .inl hend
      · cases hturn
  · rename_i c tail hp
    split at hturn
    · rename_i hknown
      cases hturn
      exact .inr ⟨c, tail, rfl, rfl, by simpa using hknown⟩
    · cases hturn

lemma autoTurn_letter (hc : c ∈ autoLetters) :
    autoTurn sys (c :: cs) = .on (c :: cs) (Nat.le_refl _) := by
  simp only [autoLetters, List.mem_cons, List.not_mem_nil, or_false] at hc
  rcases hc with rfl | rfl | rfl | rfl | rfl <;> rfl

lemma comma_not_letter (hc : c ∈ autoLetters) : ',' ≠ c := by
  rintro rfl
  revert hc
  decide

/-- `--auto` reads a null pointer on these values and on no others. -/
lemma auto_crash : commaLoop (autoTurn sys) cs = .crash ↔ BareP cs := by
  constructor
  · intro h
    induction hn : cs.length using Nat.strongRecOn generalizing cs with
    | ind n ih =>
      rcases (commaLoop_crash).mp h with hnull | ⟨rest, hle, comma, hbody, hcomma, hrest⟩
      · obtain ⟨tail, rfl, htail⟩ := (autoTurn_null).mp hnull
        exact .here htail
      · rcases autoTurn_on hbody with rfl | ⟨c, tail, rfl, rfl, hc⟩
        · cases hcomma
        · obtain ⟨front, after, happ, hfront, rfl⟩ := strchr_split hcomma
          cases front with
          | nil =>
            rw [List.nil_append] at happ
            cases happ
            exact absurd rfl (comma_not_letter hc)
          | cons d front =>
            rw [List.cons_append] at happ
            obtain ⟨rfl, rfl⟩ := List.cons.inj happ
            simp only [List.mem_cons, not_or] at hfront
            refine .later hc hfront.2 (ih after.length ?_ hrest rfl)
            rw [← hn]
            simp only [List.length_cons, List.length_append]
            omega
  · intro h
    induction h with
    | here h => exact (commaLoop_crash).mpr (.inl ((autoTurn_null).mpr ⟨_, rfl, h⟩))
    | @later c item rest hc hitem _ ih =>
      refine (commaLoop_crash).mpr
        (.inr ⟨_, Nat.le_refl _, ',' :: rest, autoTurn_letter hc, ?_, ih⟩)
      rw [← List.cons_append]
      exact strchr_append (by simp [comma_not_letter hc, hitem])

lemma offsetFields_true {r : Bool} (h : offsetFields true cs = some (r, rest)) : r = true := by
  unfold offsetFields at h
  split at h
  · simp only [if_true, Option.ite_none_left_eq_some, Option.some.injEq, Prod.mk.injEq] at h
    exact h.2.1.symm
  · cases h
    rfl

/-- `part->r` once set stays set. -/
lemma parseOffset_true : ((parseOffset true optarg).map (·.1)).getD true = true := by
  cases h : parseOffset true optarg with
  | none => rfl
  | some part =>
    obtain ⟨r, pos⟩ := part
    simp only [parseOffset, Option.bind_eq_bind, Option.bind_eq_some_iff] at h
    obtain ⟨⟨r', rest⟩, hfields, h⟩ := h
    have hr := offsetFields_true hfields
    subst hr
    simp only [Option.ite_none_right_eq_some, Option.some.injEq, Prod.mk.injEq] at h
    rw [← h.2.1]
    rfl

lemma mark_optind : (mark sys dp val optarg).optind = dp.optind := by
  unfold mark
  split <;> rfl

/-- What is set in a group stays set. -/
lemma mark_grows (sys : System) (dp : Dp) (val : Char) (optarg : List Char) :
    (dp.offsetR = true → (mark sys dp val optarg).offsetR = true) ∧
    (dp.fakeData = true → (mark sys dp val optarg).fakeData = true) ∧
    (dp.outPort = true → (mark sys dp val optarg).outPort = true) := by
  unfold mark
  split
  · refine ⟨fun h => ?_, id, id⟩
    rw [h]
    exact parseOffset_true
  · exact ⟨id, fun _ => rfl, id⟩
  · exact ⟨id, id, fun h => by simp [h]⟩
  · exact ⟨id, id, id⟩

lemma mark_other (hO : val ≠ 'O') (hl : val ≠ 'l') (hC : val ≠ 'C') :
    mark sys dp val optarg = dp := by
  unfold mark
  split
  · exact absurd rfl hO
  · exact absurd rfl hl
  · exact absurd rfl hC
  · rfl

/-- An option that leaves nothing new in a group leaves nothing new in it later. -/
lemma mark_settled {dp' : Dp} (h : mark sys dp val optarg = dp)
    (hR : dp.offsetR = true → dp'.offsetR = true)
    (hData : dp.fakeData = true → dp'.fakeData = true)
    (hPort : dp.outPort = true → dp'.outPort = true) : mark sys dp' val optarg = dp' := by
  obtain ⟨optind, r, data, port⟩ := dp
  obtain ⟨optind', r', data', port'⟩ := dp'
  by_cases hO : val = 'O'
  · subst hO
    simp only [mark, Dp.mk.injEq, true_and, and_true] at h hR ⊢
    cases r' with
    | true => exact parseOffset_true
    | false =>
      cases r with
      | true => cases hR rfl
      | false => exact h
  by_cases hl : val = 'l'
  · subst hl
    simp only [mark, Dp.mk.injEq, true_and, and_true] at h hData ⊢
    exact (hData h.symm).symm
  by_cases hC : val = 'C'
  · subst hC
    simp only [mark, Dp.mk.injEq, true_and] at h hPort ⊢
    cases port' with
    | true => rfl
    | false =>
      cases port with
      | true => cases hPort rfl
      | false => exact h
  · exact mark_other hO hl hC

end OptionValues
