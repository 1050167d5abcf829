import NoZapret.Library.Runs
import NoZapret.Library.Tickets
import NoZapret.Strategies

/-!
# The published status of a test run

`handleStartTest` and the checks of one `testStrategy` that is not cancelled. The
checks run on IO threads, as many at a time as the semaphore lets through; between
any two of a check's steps the others may go on.
-/

namespace TestStatus

open Runs Tickets

/-- `TestingService.TestStatus`, without the name and the last result. -/
structure Status where
  success : Nat := 0
  tested : Nat := 0
  total : Nat := 0
  isRunning : Bool := false
  deriving DecidableEq, Repr

/-- Where a check is, with its `currentTested`, the value of `successCount.get()`, and
the status that `onResult` has read. -/
inductive Pc where
  | waiting
  | checking
  | counted (t : Nat)
  | added (t : Nat)
  | result (t s : Nat)
  | copying (t s : Nat) (status : Status)
  | published (t s : Nat)
  | done (t s : Nat)
  deriving DecidableEq, Repr

/-- Inside the semaphore. -/
def Pc.inside : Pc → Bool
  | .waiting | .done _ _ => false
  | _ => true

def Pc.ticket : Pc → Option Nat
  | .waiting | .checking => none
  | .counted t | .added t | .result t _ | .copying t _ _ | .published t _ | .done t _ => some t

/-- What it has to publish. -/
def Pc.read : Pc → Option (Nat × Nat)
  | .result t s | .copying t s _ | .published t s | .done t s => some (t, s)
  | _ => none

/-- What it has published. -/
def Pc.shown : Pc → Option (Nat × Nat)
  | .published t s | .done t s => some (t, s)
  | _ => none

inductive Phase where
  | ready
  | checking
  | left
  | finished
  deriving DecidableEq, Repr

/-- The sites with whether their check succeeds. -/
structure State where
  sites : List (String × Bool)
  /-- strategy `None` -/
  direct : Bool
  phase : Phase := .ready
  /-- the checks were launched -/
  begun : Bool := false
  pc : Nat → Pc := fun _ => .waiting
  testedCount : Nat := 0
  successCount : Nat := 0
  status : Status

inductive Act where
  | begin
  /-- the arguments are invalid, the port is taken or the proxy does not get ready -/
  | giveUp
  | move (i : Nat)
  /-- `coroutineScope` returns -/
  | leave
  /-- the end of the job; `owner` is whether it is still the current one -/
  | finish (owner : Bool)
  deriving DecidableEq, Repr

namespace State

def sitesToTest (st : State) : List (String × Bool) :=
  st.sites.filter fun site => !Strategies.isBlank site.1 && !site.1.toList.contains '/'

def total (st : State) : Nat := st.sitesToTest.length

/-- Does the check succeed? -/
def succeeds (st : State) (i : Nat) : Bool := (st.sitesToTest[i]?.map (·.2)).getD false

def successes (st : State) : Nat := st.sitesToTest.countP (·.2)

def permits (st : State) : Nat := if st.direct then 10 else 6

def inside (st : State) : Nat := (List.range st.total).countP fun i => (st.pc i).inside

def goto (st : State) (i : Nat) (p : Pc) : State := { st with pc := Function.update st.pc i p }

end State

/-- One step of a check. -/
def move (st : State) (i : Nat) : Option State :=
  match st.pc i with
  | .waiting => if st.inside < st.permits then some (st.goto i .checking) else none
  | .checking =>
    some { st.goto i (.counted (st.testedCount + 1)) with testedCount := st.testedCount + 1 }
  | .counted t =>
    some { st.goto i (.added t) with
      successCount := if st.succeeds i then st.successCount + 1 else st.successCount }
  | .added t => some (st.goto i (.result t st.successCount))
  | .result t s => some (st.goto i (.copying t s st.status))
  | .copying t s status =>
    some { st.goto i (.published t s) with
      status := { status with success := s, tested := t, total := st.total } }
  | .published t s => some (st.goto i (.done t s))
  | .done _ _ => none

def Pc.isDone : Pc → Bool
  | .done _ _ => true
  | _ => false

def step (st : State) : Act → Option State
  | .begin => if st.phase = .ready then some { st with phase := .checking, begun := true } else none
  | .giveUp => if st.phase = .ready ∧ st.direct = false then some { st with phase := .left } else none
  | .move i => if st.phase = .checking ∧ i < st.total then move st i else none
  | .leave =>
    if st.phase = .checking ∧ (List.range st.total).all fun i => (st.pc i).isDone then
      some { st with phase := .left }
    else none
  | .finish owner =>
    if st.phase = .left then
      some { st with
        phase := .finished
        status := if owner then { st.status with isRunning := false } else st.status }
    else none

def start (sites : List (String × Bool)) (direct : Bool) : State :=
  { sites := sites, direct := direct, status := { total := sites.length, isRunning := true } }

/-- The last published status counts the checks that were made. -/
structure Right (st : State) : Prop where
  tested : st.status.tested = if st.begun then st.total else 0
  total : st.status.total = if st.begun then st.total else 0
  success : st.status.success = if st.begun then st.successes else 0

/-- The check that is counted last reads the success counter when it is complete, and
no other check publishes behind it. A run without checks has no sites at all. -/
def Ordered (st : State) : Act → Prop
  | .begin => st.sitesToTest = [] → st.sites = []
  | .giveUp => st.sites = []
  | .move i =>
    match st.pc i with
    | .added t => t = st.total → st.successCount = st.successes
    | .copying t _ _ => t ≠ st.total → ∀ j s, (st.pc j).shown ≠ some (st.total, s)
    | _ => True
  | _ => True

variable {st st' : State} {i : Nat}

lemma total_of_sites (h : st'.sites = st.sites) : st'.total = st.total := by
  unfold State.total State.sitesToTest
  rw [h]

lemma successes_of_sites (h : st'.sites = st.sites) : st'.successes = st.successes := by
  unfold State.successes State.sitesToTest
  rw [h]

lemma goto_pc_of_ne (st : State) (p : Pc) {i j : Nat} (h : j ≠ i) :
    (st.goto i p).pc j = st.pc j := by
  simp only [State.goto, ne_eq, h, not_false_eq_true, Function.update_of_ne]

lemma move_cases (h : move st i = some st') :
    (st.pc i = .waiting ∧ st' = st.goto i .checking) ∨
    (st.pc i = .checking ∧
      st' = { st.goto i (.counted (st.testedCount + 1)) with
        testedCount := st.testedCount + 1 }) ∨
    (∃ t, st.pc i = .counted t ∧
      st' = { st.goto i (.added t) with
        successCount := if st.succeeds i then st.successCount + 1 else st.successCount }) ∨
    (∃ t, st.pc i = .added t ∧ st' = st.goto i (.result t st.successCount)) ∨
    (∃ t s, st.pc i = .result t s ∧ st' = st.goto i (.copying t s st.status)) ∨
    (∃ t s status, st.pc i = .copying t s status ∧
      st' = { st.goto i (.published t s) with
        status := { status with success := s, tested := t, total := st.total } }) ∨
    (∃ t s, st.pc i = .published t s ∧ st' = st.goto i (.done t s)) := by
  cases hpc : st.pc i <;> simp only [move, hpc, Option.some.injEq, reduceCtorEq] at h
  case waiting =>
    split at h
    · exact .inl ⟨rfl, (Option.some.inj h).symm⟩
    · cases h
  case checking => exact .inr (.inl ⟨rfl, h.symm⟩)
  case counted t => exact .inr (.inr (.inl ⟨t, rfl, h.symm⟩))
  case added t => exact .inr (.inr (.inr (.inl ⟨t, rfl, h.symm⟩)))
  case result t s => exact .inr (.inr (.inr (.inr (.inl ⟨t, s, rfl, h.symm⟩))))
  case copying t s status =>
    exact .inr (.inr (.inr (.inr (.inr (.inl ⟨t, s, status, rfl, h.symm⟩)))))
  case published t s => exact .inr (.inr (.inr (.inr (.inr (.inr ⟨t, s, rfl, h.symm⟩)))))

/-- A check changes its own place, the counters and the status. -/
lemma move_frame (h : move st i = some st') :
    st'.sites = st.sites ∧ st'.phase = st.phase ∧ st'.begun = st.begun ∧
      ∀ j, j ≠ i → st'.pc j = st.pc j := by
  obtain ⟨-, rfl⟩ | ⟨-, rfl⟩ | ⟨t, -, rfl⟩ | ⟨t, -, rfl⟩ | ⟨t, s, -, rfl⟩ |
    ⟨t, s, status, -, rfl⟩ | ⟨t, s, -, rfl⟩ := move_cases h
  all_goals exact ⟨rfl, rfl, rfl, fun j hj => goto_pc_of_ne st _ hj⟩

/-- Anything read off the places, where the place of check `i` looks as before. -/
lemma look_of_frame {α : Type} {look : Pc → α} (hrest : ∀ j, j ≠ i → st'.pc j = st.pc j)
    (hsame : look (st'.pc i) = look (st.pc i)) (j : Nat) : look (st'.pc j) = look (st.pc j) := by
  by_cases hj : j = i
  · rw [hj, hsame]
  · rw [hrest j hj]

/-- Only `incrementAndGet` draws a number. -/
lemma move_ticket (h : move st i = some st') :
    ((st.pc i).ticket = none ∧ (st'.pc i).ticket = some (st.testedCount + 1) ∧
        st'.testedCount = st.testedCount + 1) ∨
      ((∀ j, (st'.pc j).ticket = (st.pc j).ticket) ∧ st'.testedCount = st.testedCount) := by
  have hrest := (move_frame h).2.2.2
  obtain ⟨hpc, rfl⟩ | ⟨hpc, rfl⟩ | ⟨t, hpc, rfl⟩ | ⟨t, hpc, rfl⟩ | ⟨t, s, hpc, rfl⟩ |
    ⟨t, s, status, hpc, rfl⟩ | ⟨t, s, hpc, rfl⟩ := move_cases h
  case inr.inl => exact .inl (by simp [hpc, State.goto, Pc.ticket])
  all_goals
    exact .inr ⟨look_of_frame hrest (by simp [hpc, State.goto, Pc.ticket]), rfl⟩

/-- Only the write of the status flow publishes. -/
lemma move_shown (h : move st i = some st') :
    (∃ t s status, st.pc i = .copying t s status ∧ (st'.pc i).shown = some (t, s) ∧
        st'.status = { status with success := s, tested := t, total := st.total }) ∨
      ((∀ t s status, st.pc i ≠ .copying t s status) ∧
        (∀ j, (st'.pc j).shown = (st.pc j).shown) ∧ st'.status = st.status) := by
  have hrest := (move_frame h).2.2.2
  obtain ⟨hpc, rfl⟩ | ⟨hpc, rfl⟩ | ⟨t, hpc, rfl⟩ | ⟨t, hpc, rfl⟩ | ⟨t, s, hpc, rfl⟩ |
    ⟨t, s, status, hpc, rfl⟩ | ⟨t, s, hpc, rfl⟩ := move_cases h
  case inr.inr.inr.inr.inr.inl =>
    exact .inl ⟨t, s, status, hpc, by simp [State.goto, Pc.shown], rfl⟩
  all_goals
    exact .inr ⟨by simp [hpc],
      look_of_frame hrest (by simp [hpc, State.goto, Pc.shown]), rfl⟩

/-- Only `successCount.get()` reads. -/
lemma move_read (h : move st i = some st') :
    (∃ t, st.pc i = .added t ∧ (st'.pc i).read = some (t, st.successCount)) ∨
      ((∀ t, st.pc i ≠ .added t) ∧ ∀ j, (st'.pc j).read = (st.pc j).read) := by
  have hrest := (move_frame h).2.2.2
  obtain ⟨hpc, rfl⟩ | ⟨hpc, rfl⟩ | ⟨t, hpc, rfl⟩ | ⟨t, hpc, rfl⟩ | ⟨t, s, hpc, rfl⟩ |
    ⟨t, s, status, hpc, rfl⟩ | ⟨t, s, hpc, rfl⟩ := move_cases h
  case inr.inr.inr.inl => exact .inl ⟨t, hpc, by simp [State.goto, Pc.read]⟩
  all_goals
    exact .inr ⟨by simp [hpc], look_of_frame hrest (by simp [hpc, State.goto, Pc.read])⟩

/-- What holds in every state of a run. -/
structure Inv (st : State) : Prop where
  issued : Issued st.total (fun i => (st.pc i).ticket) st.testedCount
  published :
    (∃ i t s, (st.pc i).shown = some (t, s) ∧ st.status.tested = t ∧ st.status.success = s ∧
        st.status.total = st.total) ∨
      ((∀ i, (st.pc i).shown = none) ∧ st.status.tested = 0 ∧ st.status.success = 0 ∧
        st.status.total = st.sites.length)
  ready : st.phase = .ready → st.begun = false
  checking : st.phase = .checking → st.begun = true
  waiting : st.begun = false → ∀ i, st.pc i = .waiting
  ended : st.begun = true → st.phase ≠ .checking → ∀ i, i < st.total → ∃ t s, st.pc i = .done t s

lemma inv_start (sites : List (String × Bool)) (direct : Bool) : Inv (start sites direct) where
  issued := issued_none fun _ => rfl
  published := .inr ⟨fun _ => rfl, rfl, rfl, rfl⟩
  ready := fun _ => rfl
  checking := nofun
  waiting := fun _ _ => rfl
  ended := nofun

lemma Inv.move (hinv : Inv st) (hph : st.phase = .checking) (hi : i < st.total)
    (h : move st i = some st') : Inv st' := by
  obtain ⟨hsites, hphase, hbegun, hrest⟩ := move_frame h
  have htotal : st'.total = st.total := total_of_sites hsites
  have hb : st'.begun = true := hbegun.trans (hinv.checking hph)
  have hp : st'.phase = .checking := hphase.trans hph
  refine ⟨?_, ?_, ?_, fun _ => hb, ?_, fun _ hne => (hne hp).elim⟩
  · rw [htotal]
    obtain ⟨hnone, hdraw, hcount⟩ | ⟨hsame, hcount⟩ := move_ticket h
    · rw [hcount]
      exact hinv.issued.draw hi hnone hdraw fun j hj => congrArg Pc.ticket (hrest j hj)
    · rw [hcount]
      exact hinv.issued.congr hsame
  · rw [htotal, hsites]
    obtain ⟨t, s, status, -, hshown, hstatus⟩ | ⟨-, hsame, hstatus⟩ := move_shown h
    · rw [hstatus]
      exact .inl ⟨i, t, s, hshown, rfl, rfl, rfl⟩
    · simpa only [hsame, hstatus] using hinv.published
  · intro hr
    cases hp.symm.trans hr
  · intro hf
    cases hb.symm.trans hf

lemma inv_step (st : State) (a : Act) (st' : State) (hinv : Inv st)
    (h : step st a = some st') : Inv st' := by
  cases a <;> simp only [step] at h <;> split at h <;> rename_i hg <;>
    first | (cases h; done) | skip
  case begin.isTrue =>
    cases h
    exact ⟨hinv.issued, hinv.published, nofun, fun _ => rfl, nofun, fun _ hne => (hne rfl).elim⟩
  case giveUp.isTrue =>
    cases h
    have hb : st.begun = false := hinv.ready hg.1
    refine ⟨hinv.issued, hinv.published, nofun, nofun, hinv.waiting, ?_⟩
    intro ht
    cases hb.symm.trans ht
  case move.isTrue i => exact hinv.move hg.1 hg.2 h
  case leave.isTrue =>
    cases h
    refine ⟨hinv.issued, hinv.published, nofun, nofun, hinv.waiting, ?_⟩
    intro _ _ i hi
    have hdone : (st.pc i).isDone = true := List.all_eq_true.mp hg.2 i (List.mem_range.mpr hi)
    change ∃ t s, st.pc i = .done t s
    cases hpc : st.pc i <;> simp only [hpc, Pc.isDone, Bool.false_eq_true] at hdone
    exact ⟨_, _, rfl⟩
  case finish.isTrue owner =>
    cases h
    have hnot : st.phase ≠ .checking := by simp [hg]
    refine ⟨hinv.issued, ?_, nofun, nofun, hinv.waiting, fun hb _ => hinv.ended hb hnot⟩
    cases owner
    · exact hinv.published
    · exact hinv.published

/-- The check that was counted last has published, and another one behind it. -/
def Overwritten (st : State) : Prop :=
  st.status.tested ≠ st.total ∧ ∃ i s, (st.pc i).shown = some (st.total, s)

/-- The check that was counted last has read the success counter too early. -/
def ReadEarly (st : State) : Prop :=
  ∃ i s, (st.pc i).read = some (st.total, s) ∧ s ≠ st.successes

/-- No check is made, though there are sites. -/
def Unchecked (st : State) : Prop :=
  st.sites ≠ [] ∧ st.phase ≠ .ready ∧ (st.begun = true → st.sitesToTest = [])

lemma Pc.read_of_shown {p : Pc} {t s : Nat} (h : p.shown = some (t, s)) :
    p.read = some (t, s) := by
  cases p <;> simp_all [Pc.shown, Pc.read]

lemma Pc.ticket_of_read {p : Pc} {t s : Nat} (h : p.read = some (t, s)) : p.ticket = some t := by
  cases p <;> simp_all [Pc.ticket, Pc.read]

lemma Pc.ticket_of_shown {p : Pc} {t s : Nat} (h : p.shown = some (t, s)) :
    p.ticket = some t :=
  Pc.ticket_of_read (Pc.read_of_shown h)

/-- Two checks with the same number that have both read are one. -/
lemma Inv.read_inj (hinv : Inv st) {i j t s s' : Nat} (hi : (st.pc i).read = some (t, s))
    (hj : (st.pc j).read = some (t, s')) : s = s' := by
  have hij : i = j := hinv.issued.unique i j t (Pc.ticket_of_read hi) (Pc.ticket_of_read hj)
  subst hij
  exact congrArg Prod.snd (Option.some.inj (hi.symm.trans hj))

lemma overwritten_move (hinv : Inv st) (h : move st i = some st') :
    Overwritten st' ↔ Overwritten st ∨
      ∃ t s status, st.pc i = .copying t s status ∧ t ≠ st.total ∧
        ∃ j s', (st.pc j).shown = some (st.total, s') := by
  obtain ⟨hsites, -, -, hrest⟩ := move_frame h
  unfold Overwritten
  rw [total_of_sites hsites]
  obtain ⟨t, s, status, hpc, hshown, hstatus⟩ | ⟨hnot, hsame, hstatus⟩ := move_shown h
  · have hother : ∀ j s', (st.pc j).shown = some (st.total, s') → j ≠ i := by
      rintro j s' hj rfl
      rw [hpc] at hj
      cases hj
    rw [hstatus]
    constructor
    · rintro ⟨ht, j, s', hj⟩
      have hji : j ≠ i := by
        rintro rfl
        cases hshown.symm.trans hj
        exact ht rfl
      exact .inr ⟨t, s, status, hpc, ht, j, s', by rw [← hrest j hji, hj]⟩
    · rintro (⟨-, j, s', hj⟩ | ⟨t', s₀, status₀, hpc', ht, j, s', hj⟩)
      · refine ⟨?_, j, s', by rw [hrest j (hother j s' hj), hj]⟩
        rintro rfl
        exact hother j s' hj
          (hinv.issued.unique j i st.total (Pc.ticket_of_shown hj) (by rw [hpc]; rfl))
      · cases hpc.symm.trans hpc'
        exact ⟨ht, j, s', by rw [hrest j (hother j s' hj), hj]⟩
  · simp only [hstatus, hsame, hnot, false_and, exists_false, or_false]

lemma readEarly_move (h : move st i = some st') :
    ReadEarly st' ↔ ReadEarly st ∨
      (st.pc i = .added st.total ∧ st.successCount ≠ st.successes) := by
  obtain ⟨hsites, -, -, hrest⟩ := move_frame h
  unfold ReadEarly
  rw [total_of_sites hsites, successes_of_sites hsites]
  obtain ⟨t, hpc, hread⟩ | ⟨hnot, hsame⟩ := move_read h
  · constructor
    · rintro ⟨j, s, hj, hs⟩
      by_cases hji : j = i
      · subst hji
        cases hread.symm.trans hj
        exact .inr ⟨hpc, hs⟩
      · exact .inl ⟨j, s, by rw [← hrest j hji, hj], hs⟩
    · rintro (⟨j, s, hj, hs⟩ | ⟨ht, hs⟩)
      · have hji : j ≠ i := by
          rintro rfl
          rw [hpc] at hj
          cases hj
        exact ⟨j, s, by rw [hrest j hji, hj], hs⟩
      · cases hpc.symm.trans ht
        exact ⟨i, st.successCount, hread, hs⟩
  · simp only [hsame, hnot, false_and, or_false]

lemma unchecked_move (h : move st i = some st') : Unchecked st' ↔ Unchecked st := by
  obtain ⟨hsites, hphase, hbegun, -⟩ := move_frame h
  unfold Unchecked State.sitesToTest
  rw [hsites, hphase, hbegun]

def Marked (st : State) : Prop := Overwritten st ∨ ReadEarly st ∨ Unchecked st

lemma marked_move (hinv : Inv st) (h : move st i = some st') :
    Marked st' ↔ Marked st ∨ ¬ Ordered st (.move i) := by
  unfold Marked
  rw [overwritten_move hinv h, readEarly_move h, unchecked_move h]
  cases hpc : st.pc i <;> simp [Ordered, hpc]
  case added t =>
    by_cases ht : t = st.total
    · simp only [ht, true_and]
      tauto
    · simp [ht]
  case copying t s status => exact or_right_comm

/-- Before any check has read the success counter. -/
lemma marked_of_unread (hread : ∀ i, (st.pc i).read = none) : Marked st ↔ Unchecked st := by
  constructor
  · rintro (⟨-, i, s, hi⟩ | ⟨i, s, hi, -⟩ | hun)
    · cases (hread i).symm.trans (Pc.read_of_shown hi)
    · cases (hread i).symm.trans hi
    · exact hun
  · intro hun
    exact .inr (.inr hun)

lemma Inv.unread (hinv : Inv st) (hb : st.begun = false) (i : Nat) : (st.pc i).read = none := by
  rw [hinv.waiting hb i]
  rfl

lemma not_marked_of_ready (hinv : Inv st) (hph : st.phase = .ready) : ¬ Marked st := by
  rw [marked_of_unread (hinv.unread (hinv.ready hph))]
  rintro ⟨-, hnot, -⟩
  exact hnot hph

/-- Once the first phase is left, it makes no difference which one follows. -/
lemma marked_congr (hsites : st'.sites = st.sites) (hbegun : st'.begun = st.begun)
    (hpc : st'.pc = st.pc) (htested : st'.status.tested = st.status.tested)
    (hph : st.phase ≠ .ready) (hph' : st'.phase ≠ .ready) : Marked st' ↔ Marked st := by
  unfold Marked Overwritten ReadEarly Unchecked State.sitesToTest
  rw [total_of_sites hsites, successes_of_sites hsites, hsites, hbegun, hpc, htested]
  simp only [ne_eq, hph, hph', not_false_eq_true, true_and]

/-- A run is marked by the steps out of order. -/
lemma marked_step (st : State) (a : Act) (st' : State) (hinv : Inv st)
    (h : step st a = some st') : Marked st' ↔ Marked st ∨ ¬ Ordered st a := by
  cases a <;> simp only [step] at h <;> split at h <;> rename_i hg <;>
    first | (cases h; done) | skip
  case begin.isTrue =>
    cases h
    have hread := hinv.unread (hinv.ready hg)
    have hchecked : Marked { st with phase := .checking, begun := true } ↔
        Unchecked { st with phase := .checking, begun := true } := marked_of_unread hread
    rw [hchecked]
    simp only [Unchecked, Ordered, not_marked_of_ready hinv hg, false_or, State.sitesToTest]
    tauto
  case giveUp.isTrue =>
    cases h
    have hread := hinv.unread (hinv.ready hg.1)
    have hchecked : Marked { st with phase := .left } ↔ Unchecked { st with phase := .left } :=
      marked_of_unread hread
    rw [hchecked]
    simp only [Unchecked, Ordered, not_marked_of_ready hinv hg.1, false_or, hinv.ready hg.1]
    tauto
  case move.isTrue i => exact marked_move hinv h
  case leave.isTrue =>
    cases h
    have hph : st.phase ≠ .ready := by
      rw [hg.1]
      nofun
    simp only [Ordered, not_true_eq_false, or_false]
    exact marked_congr rfl rfl rfl rfl hph nofun
  case finish.isTrue owner =>
    cases h
    have hph : st.phase ≠ .ready := by
      rw [hg]
      nofun
    simp only [Ordered, not_true_eq_false, or_false]
    refine marked_congr rfl rfl rfl ?_ hph nofun
    cases owner <;> rfl

/-- In a finished run the check counted last has published what it read. -/
lemma exists_last (hinv : Inv st) (hph : st.phase = .finished) (hb : st.begun = true)
    (hpos : 0 < st.total) : ∃ i s, (st.pc i).shown = some (st.total, s) := by
  have hdone := hinv.ended hb (by simp [hph])
  have hall : ∀ i, i < st.total → ∃ t, (st.pc i).ticket = some t := by
    intro i hi
    obtain ⟨t, s, hpc⟩ := hdone i hi
    exact ⟨t, by rw [hpc]; rfl⟩
  have hcount : st.testedCount = st.total := hinv.issued.all hall
  obtain ⟨i, hi⟩ := hinv.issued.drawn st.total hpos hcount.ge
  obtain ⟨t, s, hpc⟩ := hdone i (hinv.issued.range i st.total hi).1
  rw [hpc] at hi
  cases hi
  exact ⟨i, s, by rw [hpc]; rfl⟩

lemma Inv.unread_of_total (hinv : Inv st) (h : st.total = 0) (i : Nat) :
    (st.pc i).read = none := by
  cases hr : (st.pc i).read with
  | none => rfl
  | some r =>
    have := (hinv.issued.range i r.1 (Pc.ticket_of_read hr)).1
    omega

lemma sitesToTest_eq_nil (st : State) : st.sitesToTest = [] ↔ st.total = 0 :=
  List.length_eq_zero_iff.symm

lemma successes_le_total (st : State) : st.successes ≤ st.total := List.countP_le_length

/-- Without checks the status still shows the number of all sites. -/
lemma right_of_unread (hinv : Inv st) (hph : st.phase = .finished)
    (hidle : st.begun = true → st.total = 0) (hread : ∀ i, (st.pc i).read = none) :
    Right st ↔ ¬ Marked st := by
  have htotal : (if st.begun then st.total else 0) = 0 := by
    cases hb : st.begun
    · rfl
    · exact hidle hb
  have hsuccs : (if st.begun then st.successes else 0) = 0 := by
    have := successes_le_total st
    split at htotal <;> simp_all
  obtain ⟨i, t, s, hi, -⟩ | ⟨-, htested, hsucc, htot⟩ := hinv.published
  · cases (hread i).symm.trans (Pc.read_of_shown hi)
  rw [marked_of_unread hread]
  constructor
  · rintro ⟨-, hright, -⟩ ⟨hsites, -⟩
    rw [htotal, htot] at hright
    exact hsites (List.length_eq_zero_iff.mp hright)
  · intro hnot
    have hsites : st.sites = [] := by
      by_contra hne
      refine hnot ⟨hne, ?_, fun hb => (sitesToTest_eq_nil st).mpr (hidle hb)⟩
      rw [hph]
      nofun
    exact ⟨htested.trans htotal.symm, by rw [htot, htotal, hsites]; rfl, hsucc.trans hsuccs.symm⟩

/-- The status at the end is right when the run is not marked. -/
lemma right_iff (hinv : Inv st) (hph : st.phase = .finished) : Right st ↔ ¬ Marked st := by
  by_cases hidle : st.begun = true → st.total = 0
  · refine right_of_unread hinv hph hidle ?_
    cases hb : st.begun
    · exact hinv.unread hb
    · exact hinv.unread_of_total (hidle hb)
  push Not at hidle
  obtain ⟨hb, hne⟩ := hidle
  obtain ⟨i, s, hi⟩ := exists_last hinv hph hb (by omega)
  constructor
  · rintro ⟨htested, -, hsucc⟩ (⟨hover, -⟩ | ⟨j, s', hj, hs'⟩ | ⟨-, -, hnone⟩)
    · rw [hb] at htested
      exact hover htested
    · obtain ⟨k, t₀, s₀, hk, ht, hs, -⟩ | ⟨hnone, -⟩ := hinv.published
      · rw [hb] at htested hsucc
        have hkt : t₀ = st.total := ht.symm.trans htested
        subst hkt
        have : s' = s₀ := hinv.read_inj hj (Pc.read_of_shown hk)
        exact hs' (this.trans (hs.symm.trans hsucc))
      · cases (hnone i).symm.trans hi
    · exact hne ((sitesToTest_eq_nil st).mp (hnone hb))
  · intro hnot
    have htested : st.status.tested = st.total := by
      by_contra hlt
      exact hnot (.inl ⟨hlt, i, s, hi⟩)
    have hs : s = st.successes := by
      by_contra hs
      exact hnot (.inr (.inl ⟨i, s, Pc.read_of_shown hi, hs⟩))
    obtain ⟨k, t₀, s₀, hk, ht, hs₀, htot⟩ | ⟨hnone, -⟩ := hinv.published
    · have hkt : t₀ = st.total := ht.symm.trans htested
      subst hkt
      have hss : s = s₀ := hinv.read_inj (Pc.read_of_shown hi) (Pc.read_of_shown hk)
      refine ⟨?_, ?_, ?_⟩ <;> rw [hb]
      · exact htested
      · exact htot
      · exact hs₀.trans (hss.symm.trans hs)
    · cases (hnone i).symm.trans hi

/-- The last status is right exactly when the check that is counted last reads a complete
counter, no other check publishes behind it, and sites are not given up unchecked. -/
theorem final_status_right_iff (sites : List (String × Bool)) (direct : Bool) (acts : List Act)
    (st : State) (hrun : run step (start sites direct) acts = some st)
    (hfin : st.phase = .finished) :
    Right st ↔ Meets step Ordered (start sites direct) acts := by
  have hinv : Inv st := run_invariant inv_step (inv_start sites direct) hrun
  have hstart : ¬ Marked (start sites direct) :=
    not_marked_of_ready (inv_start sites direct) rfl
  rw [right_iff hinv hfin,
    marked_iff_not_meets inv_step marked_step (inv_start sites direct) hrun]
  simp only [hstart, false_or, not_not]

/-- A whole check, from the semaphore to its end. -/
def check (i : Nat) : List Act := List.replicate 7 (.move i)

def oneByOne : List Act := [.begin] ++ check 0 ++ check 1 ++ [.leave, .finish true]

theorem final_status_right_iff_one_by_one :
    ∃ st, run step (start [("a.com", true), ("b.com", false)] false) oneByOne = some st ∧
      st.phase = .finished ∧
      (Right st ↔ Meets step Ordered (start [("a.com", true), ("b.com", false)] false) oneByOne) ∧
      Right st :=
  ⟨_, rfl, rfl, final_status_right_iff _ _ _ _ rfl rfl,
    ⟨by decide, by decide, by decide⟩⟩

/-- Check 1 is counted last and publishes before check 0 does. -/
def overtaken : List Act :=
  [.begin] ++ List.replicate 3 (.move 0) ++ List.replicate 6 (.move 1) ++
    List.replicate 4 (.move 0) ++ [.move 1, .leave, .finish true]

/-- Two checks that both succeed end with the status of one. -/
theorem final_status_lost :
    ∃ st, run step (start [("a.com", true), ("b.com", true)] false) overtaken = some st ∧
      st.phase = .finished ∧ st.total = 2 ∧ st.successes = 2 ∧ st.status.tested = 1 ∧
      ¬ Right st := by
  refine ⟨_, rfl, rfl, by decide, by decide, by decide, ?_⟩
  intro hright
  exact absurd hright.tested (by decide)

end TestStatus
