import NoZapret.Library.Cursor
import NoZapret.Library.Loops
import NoZapret.OptionValues
import NoZapret.Options

/-!
# The option loop of the native engine

`main.c`: `parse_args` as a loop over `getopt_long`. `--auto` opens a group of options.
`--copy` sets `optind` back to where the options of a group begin; they are then read for the
present group too, up to the `--auto` that ended them, which sets `optind` to where the loop
was. Memory is always there.
-/

namespace ParseArgs

open Getopt Options OptionValues Loops

structure Loop where
  pos : Cursor
  /-- `curr_optind` -/
  curr : Nat
  /-- `_optind` of the groups before `dp` -/
  earlier : List Nat
  dp : Dp
  deriving DecidableEq, Repr

def addGroup (optind : Nat) : Dp := ⟨optind, false, false, false⟩

def start : Loop := ⟨⟨1, []⟩, 1, [], addGroup 0⟩

def optarg (item : Item) : List Char := (item.arg.getD "").toList

/-- `_optind` of the group that has this `id`. -/
def groupOptind (s : Loop) (id : Int) : Option Nat :=
  if id < 0 then none else (s.earlier ++ [s.dp.optind])[id.toNat]?

def auto (sys : System) (s : Loop) (value : List Char) : Outcome Loop Int :=
  if s.pos.optind < s.curr then .running { s with pos := s.pos.moveTo s.curr }
  else
    match commaLoop (autoTurn sys) value with
    | .accept =>
      .running { s with earlier := s.earlier ++ [s.dp.optind], dp := addGroup s.pos.optind }
    | .invalid => .returned (-1)
    | .crash => .crashed

def copy (s : Loop) (value : List Char) : Outcome Loop Int :=
  if s.pos.optind < s.curr then .running s
  else if value.head? = some 'i' then .running s
  else
    match groupOptind s ((strtol 0 value).1 - 1) with
    | none => .returned (-1)
    | some optind => .running { s with pos := s.pos.moveTo optind, curr := s.pos.optind }

def other (sys : System) (s : Loop) (val : Char) (value : List Char) : Outcome Loop Int :=
  match check sys s.dp val value with
  | .accept => .running { s with dp := mark sys s.dp val value }
  | .invalid => .returned (-1)
  | .crash => .crashed

/-- One round of the loop. -/
def step (sys : System) (argv : List String) (s : Loop) : Outcome Loop Int :=
  match getoptLong options argv s.pos with
  | .done => .returned 0
  | .bad => .returned (-1)
  | .item item pos =>
    match item.val with
    | 'h' | 'v' => .returned 1
    | 'A' => auto sys { s with pos } (optarg item)
    | 'B' => copy { s with pos } (optarg item)
    | val => other sys { s with pos } val (optarg item)

/-- `--copy` names the group it is read for. -/
def OwnGroup (s : Loop) (value : List Char) : Prop :=
  value.head? ≠ some 'i' ∧ (strtol 0 value).1 - 1 = s.earlier.length

/-- An option that the group takes once more as it is, or a `--copy`. -/
def Settled (sys : System) (dp : Dp) (item : Item) : Prop :=
  item.val = 'B' ∨
    check sys dp item.val (optarg item) = .accept ∧ mark sys dp item.val (optarg item) = dp

/-- The group takes all its options once more. -/
def Repeats (sys : System) (argv : List String) (s : Loop) : Prop :=
  Path options argv (Settled sys s.dp) (restart s.dp.optind) s.pos

/-- The next option is not an `--auto` that opens a group and has a `p` with no `=` behind it,
nor a `--copy` of a group into itself that goes round for ever. -/
structure Fine (sys : System) (argv : List String) (s : Loop) : Prop where
  auto : ∀ item pos, getoptLong options argv s.pos = .item item pos → s.curr ≤ pos.optind →
    item.val = 'A' → ¬ BareP (optarg item)
  copy : ∀ item pos, getoptLong options argv s.pos = .item item pos → s.curr ≤ pos.optind →
    item.val = 'B' → OwnGroup s (optarg item) → ¬ Repeats sys argv s

/-- What one round does with the option that was read. -/
inductive Round (sys : System) (s : Loop) (item : Item) (pos : Cursor) :
    Outcome Loop Int → Prop where
  | exit (status : Int) (hstatus : status ≠ 0) (hA : item.val ≠ 'A') (hB : item.val ≠ 'B')
      (hcheck : check sys s.dp item.val (optarg item) ≠ .accept) :
      Round sys s item pos (.returned status)
  | wrong (h : s.curr ≤ pos.optind) : Round sys s item pos (.returned (-1))
  | option (hA : item.val ≠ 'A') (hB : item.val ≠ 'B')
      (hcheck : check sys s.dp item.val (optarg item) = .accept) :
      Round sys s item pos
        (.running { s with pos, dp := mark sys s.dp item.val (optarg item) })
  | back (hA : item.val = 'A') (h : pos.optind < s.curr) :
      Round sys s item pos (.running { s with pos := pos.moveTo s.curr })
  | group (hA : item.val = 'A') (h : s.curr ≤ pos.optind) (hp : ¬ BareP (optarg item)) :
      Round sys s item pos (.running
        { s with pos, earlier := s.earlier ++ [s.dp.optind], dp := addGroup pos.optind })
  | null (hA : item.val = 'A') (h : s.curr ≤ pos.optind) (hp : BareP (optarg item)) :
      Round sys s item pos .crashed
  | skip (hB : item.val = 'B') : Round sys s item pos (.running { s with pos })
  | copy (optind : Nat) (hB : item.val = 'B') (h : s.curr ≤ pos.optind)
      (hi : (optarg item).head? ≠ some 'i')
      (hgroup : groupOptind s ((strtol 0 (optarg item)).1 - 1) = some optind) :
      Round sys s item pos (.running { s with pos := pos.moveTo optind, curr := pos.optind })

variable {sys : System} {argv : List String} {s : Loop} {item : Item} {pos : Cursor}

lemma step_item (h : getoptLong options argv s.pos = .item item pos) :
    step sys argv s =
      match item.val with
      | 'h' | 'v' => .returned 1
      | 'A' => auto sys { s with pos } (optarg item)
      | 'B' => copy { s with pos } (optarg item)
      | val => other sys { s with pos } val (optarg item) := by
  simp only [step, h]

lemma auto_round (hA : item.val = 'A') :
    Round sys s item pos (auto sys { s with pos } (optarg item)) := by
  unfold auto
  dsimp only
  split
  · rename_i h
    exact .back hA h
  · rename_i h
    rw [Nat.not_lt] at h
    split
    · rename_i hloop
      refine .group hA h fun hp => ?_
      rw [auto_crash.mpr hp] at hloop
      cases hloop
    · exact .wrong h
    · rename_i hloop
      exact .null hA h (auto_crash.mp hloop)

lemma copy_round (hB : item.val = 'B') :
    Round sys s item pos (copy { s with pos } (optarg item)) := by
  unfold copy
  dsimp only
  split
  · exact .skip hB
  · rename_i h
    rw [Nat.not_lt] at h
    split
    · exact .skip hB
    · rename_i hi
      split
      · exact .wrong h
      · rename_i optind hgroup
        exact .copy optind hB h hi hgroup

lemma other_round (hA : item.val ≠ 'A') (hB : item.val ≠ 'B') :
    Round sys s item pos (other sys { s with pos } item.val (optarg item)) := by
  unfold other
  dsimp only
  split
  · rename_i hcheck
    exact .option hA hB hcheck
  · rename_i hcheck
    exact .exit _ (by decide) hA hB (by simp [hcheck])
  · rename_i hcheck
    exact absurd hcheck check_ne_crash

lemma step_round (sys : System) (h : getoptLong options argv s.pos = .item item pos) :
    Round sys s item pos (step sys argv s) := by
  rw [step_item h]
  split
  · rename_i hval
    refine .exit 1 (by decide) (by simp [hval]) (by simp [hval]) ?_
    rw [hval]
    exact Verdict.noConfusion
  · rename_i hval
    refine .exit 1 (by decide) (by simp [hval]) (by simp [hval]) ?_
    rw [hval]
    exact Verdict.noConfusion
  · rename_i hval
    exact auto_round hval
  · rename_i hval
    exact copy_round hval
  · rename_i hh hv hA hB
    exact other_round hA hB

/-- An option that has been read for the group: what it leaves there is there already. -/
def Touched (sys : System) (dp : Dp) (item : Item) : Prop :=
  item.val = 'B' ∨ item.val ≠ 'A' ∧ mark sys dp item.val (optarg item) = dp

lemma Touched.mark {dp : Dp} {other : Item} (h : Touched sys dp item) :
    Touched sys (mark sys dp other.val (optarg other)) item := by
  rcases h with hB | ⟨hA, hmark⟩
  · exact .inl hB
  · obtain ⟨hR, hData, hPort⟩ := mark_grows sys dp other.val (optarg other)
    exact .inr ⟨hA, mark_settled hmark hR hData hPort⟩

/-- The options from where the group begins up to `front` have been read for it. -/
def Read (sys : System) (argv : List String) (dp : Dp) (front : Cursor) : Prop :=
  Path options argv (Touched sys dp) (restart dp.optind) front

/-- Where the loop stands: at options it has not read, or at options it reads once more. The
second time it gets to an option that the group refuses, or to the `--auto` behind them. -/
inductive Phase (sys : System) (argv : List String) (s : Loop) : Prop where
  | fresh (h : s.curr ≤ s.pos.optind) (hread : Read sys argv s.dp s.pos)
  | own (h : s.dp.optind < s.curr) (hread : Read sys argv s.dp ⟨s.curr, []⟩)
      (hahead : Ahead options argv (Touched sys s.dp)
        (fun item => Touched sys s.dp item ∧ ¬ Settled sys s.dp item) s.curr s.pos)
  | earlier (h : s.dp.optind < s.curr) (hread : Read sys argv s.dp ⟨s.curr, []⟩)
      (hahead : Ahead options argv (·.val ≠ 'A') (·.val = 'A') s.curr s.pos)

structure Inv (sys : System) (argv : List String) (s : Loop) : Prop where
  valid : s.pos.Valid argv
  curr : s.curr ≤ argv.length + 1
  /-- The options of each group before end with an `--auto`. -/
  groups : ∀ g ∈ s.earlier,
    Ahead options argv (·.val ≠ 'A') (·.val = 'A') (s.dp.optind + 1) (restart g)
  phase : Phase sys argv s

/-- What is left to read, after all the `--copy` that are still to be met. -/
def measure (argv : List String) (s : Loop) : Nat :=
  (argv.length + 1 - s.curr) * (size argv + 1) + left argv s.pos

lemma Read.mark {dp : Dp} {front : Cursor} (h : Read sys argv dp front) :
    Read sys argv (mark sys dp item.val (optarg item)) front := by
  unfold Read
  rw [mark_optind]
  exact h.mono fun _ => Touched.mark

lemma Read.optind_le {dp : Dp} {front : Cursor} (h : Read sys argv dp front) :
    dp.optind ≤ front.optind :=
  Nat.le_trans le_restart (Path.optind_le h valid_boundary).1

/-- An option of these letters comes with a value. -/
lemma moves_value (hpos : s.pos.Valid argv) (h : getoptLong options argv s.pos = .item item pos)
    (hval : item.val = 'A' ∨ item.val = 'B') :
    s.pos.optind < pos.optind ∧ pos.optind ≤ argv.length ∧ pos.nextchar = [] := by
  have hmoves := getoptLong_moves hpos h
  obtain ⟨o, ho, hoval, harg⟩ := hmoves.option
  have htakes : ∀ o ∈ options, o.val = 'A' ∨ o.val = 'B' → o.hasArg = true := by decide
  exact hmoves.word (harg.mp (htakes o ho (by rwa [hoval])))

/-- The round is over with a status, or it leaves less to be done. -/
def Progress (sys : System) (argv : List String) (s : Loop) (o : Outcome Loop Int) : Prop :=
  (∃ status, o = .returned status) ∨
    ∃ t, o = .running t ∧ Inv sys argv t ∧ measure argv t < measure argv s

/-- The group takes the option once more, and nothing changes but the position. -/
lemma step_settled (h : getoptLong options argv s.pos = .item item pos)
    (hsettled : Settled sys s.dp item) (hcurr : pos.optind < s.curr) :
    step sys argv s = .running { s with pos } := by
  rcases hsettled with hB | ⟨hcheck, hmark⟩
  · rw [step_item h, hB]
    exact if_pos hcurr
  · rw [step_item h]
    split
    · rename_i hval
      rw [hval] at hcheck
      cases hcheck
    · rename_i hval
      rw [hval] at hcheck
      cases hcheck
    · rename_i hval
      rw [hval] at hcheck
      cases hcheck
    · exact if_pos hcurr
    · simp only [other, hcheck, hmark]

/-- A device without files. -/
def bareSystem : System where
  strtof := id
  strtof_length := fun _ => Nat.le_refl _
  getaddrinfo := fun _ => false
  sscanf := fun _ => none
  fopen := fun _ => false

/-- The loop stays at places that a reading from the start comes to. -/
structure OnPath (argv : List String) (s : Loop) : Prop where
  pos : Path options argv (fun _ => True) ⟨1, []⟩ s.pos
  curr : Path options argv (fun _ => True) ⟨1, []⟩ (restart s.curr)
  groups : ∀ g ∈ s.earlier ++ [s.dp.optind],
    Path options argv (fun _ => True) ⟨1, []⟩ (restart g)

lemma start_onPath : OnPath argv start where
  pos := .refl
  curr := .refl
  groups := by
    intro g hg
    rw [List.mem_singleton.mp hg]
    exact .refl

lemma mem_of_groupOptind {id : Int} {g : Nat} (h : groupOptind s id = some g) :
    g ∈ s.earlier ++ [s.dp.optind] := by
  unfold groupOptind at h
  split at h
  · cases h
  · exact List.mem_of_getElem? h

lemma step_onPath {t : Loop} (hs : OnPath argv s) (h : step sys argv s = .running t) :
    OnPath argv t := by
  cases hnext : getoptLong options argv s.pos with
  | done => simp [step, hnext] at h
  | bad => simp [step, hnext] at h
  | item item pos =>
    have hvalid := (Path.optind_le hs.pos valid_boundary).2
    have hpos : Path options argv (fun _ => True) ⟨1, []⟩ pos :=
      hs.pos.tail ⟨item, hnext, trivial⟩
    have hround := step_round sys hnext
    rw [h] at hround
    cases hround with
    | option =>
      refine ⟨hpos, hs.curr, ?_⟩
      rw [mark_optind]
      exact hs.groups
    | back hA =>
      refine ⟨?_, hs.curr, hs.groups⟩
      rw [moveTo_boundary (moves_value hvalid hnext (.inl hA)).2.2]
      exact hs.curr
    | group hA =>
      obtain ⟨hlt, -, hend⟩ := moves_value hvalid hnext (.inl hA)
      refine ⟨hpos, hs.curr, ?_⟩
      intro g hg
      rcases List.mem_append.mp hg with hg | hg
      · exact hs.groups g hg
      · rw [List.mem_singleton.mp hg]
        change Path options argv (fun _ => True) ⟨1, []⟩ (restart pos.optind)
        rw [restart_eq hend (Nat.zero_lt_of_lt hlt)]
        exact hpos
    | skip => exact ⟨hpos, hs.curr, hs.groups⟩
    | copy g hB _ _ hgroup =>
      obtain ⟨hlt, -, hend⟩ := moves_value hvalid hnext (.inr hB)
      constructor
      · rw [moveTo_boundary hend]
        exact hs.groups g (mem_of_groupOptind hgroup)
      · change Path options argv (fun _ => True) ⟨1, []⟩ (restart pos.optind)
        rw [restart_eq hend (Nat.zero_lt_of_lt hlt)]
        exact hpos
      · exact hs.groups

/-- `parse_args` returns 0 for these arguments. -/
def Accepts (sys : System) (args : List String) : Prop :=
  ∃ n, exec (step sys ("byedpi" :: args)) n start = .returned 0

lemma step_zero (h : step sys argv s = .returned 0) : getoptLong options argv s.pos = .done := by
  cases hnext : getoptLong options argv s.pos with
  | done => rfl
  | bad => simp [step, hnext] at h
  | item item pos =>
    have hround := step_round sys hnext
    rw [h] at hround
    cases hround with
    | exit _ hstatus => exact absurd rfl hstatus

/-- No option of accepted arguments is unknown or lacks its value. -/
theorem accepts_complete {args : List String} (h : Accepts sys args) :
    (scan options .ready args).2.complete = true := by
  obtain ⟨n, hn⟩ := h
  obtain ⟨m, s, hs, hlast⟩ := exec_last hn
  have hpath := exec_inv (fun _ _ => step_onPath) start_onPath hs
  have hstart : (scan options .ready args).2 =
      (scanFrom options ("byedpi" :: args) ⟨1, []⟩).2 := rfl
  rw [hstart, hpath.pos.scanFrom]
  exact scanFrom_done (step_zero hlast)

end ParseArgs
