import NoZapret.Library.Runs
import NoZapret.Settings
import NoZapret.Validator

/-!
# The names of the custom strategies

The four operations of `SettingsManager` on the list of custom strategies. Everything
else looks a strategy up by its name: the settings by the name alone, `getStrategyArgs`
by the name or the id. What `equals(ignoreCase = true)` makes of a character is a
parameter.
-/

namespace CustomNames

open Runs Settings Strategies Validator

/-- `equals(ignoreCase = true)`; `fold` is the lower case of a character's upper case. -/
def equalsIgnoreCase (fold : Char → Char) (a b : String) : Bool :=
  a.toList.map fold == b.toList.map fold

section Operations

variable (fold : Char → Char) (customStrategies : List CustomStrategy)

def nameTaken (strategy : CustomStrategy) : Bool :=
  customStrategies.any fun it =>
    it.id != strategy.id && equalsIgnoreCase fold it.name strategy.name

def isBuiltin (name : String) : Bool :=
  strategiesData.any fun it => equalsIgnoreCase fold it.name name

def addCustomStrategy (strategy : CustomStrategy) : Except String (List CustomStrategy) := do
  if isBlank strategy.name then throw "Strategy name cannot be empty"
  if nameTaken fold customStrategies strategy || isBuiltin fold strategy.name then
    throw "A strategy with this name already exists"
  validateStrategyArgs (parseCustomArgs strategy.userArgs)
  return customStrategies ++ [strategy]

def updateCustomStrategy (strategy : CustomStrategy) (now : Int) :
    Except String (List CustomStrategy) := do
  if isBlank strategy.name then throw "Strategy name cannot be empty"
  if nameTaken fold customStrategies strategy then
    throw "A strategy with this name already exists"
  validateStrategyArgs (parseCustomArgs strategy.userArgs)
  match customStrategies.findIdx? fun it => it.id == strategy.id with
  | some idx => return customStrategies.set idx { strategy with updatedAt := now }
  | none => throw "Custom strategy not found"

def deleteCustomStrategy (id : String) : List CustomStrategy :=
  customStrategies.filter fun it => it.id != id

def getCustomStrategyById (id : String) : Option CustomStrategy :=
  customStrategies.find? fun it => it.id == id

def copyName (existing : CustomStrategy) : String := existing.name ++ " (Copy)"

/-- `newId` is a random UUID. -/
def duplicateCustomStrategy (id newId : String) (createdAt updatedAt : Int) :
    Option (List CustomStrategy) :=
  (getCustomStrategyById customStrategies id).map fun existing =>
    customStrategies ++
      [{ existing with id := newId, name := copyName existing, createdAt, updatedAt }]

end Operations

inductive Act where
  | add (strategy : CustomStrategy)
  | update (strategy : CustomStrategy) (now : Int)
  | delete (id : String)
  | duplicate (id newId : String) (createdAt updatedAt : Int)
  deriving DecidableEq, Repr

/-- A call that fails leaves the list as it is. -/
def step (fold : Char → Char) (cs : List CustomStrategy) : Act → Option (List CustomStrategy)
  | .add strategy => some ((addCustomStrategy fold cs strategy).toOption.getD cs)
  | .update strategy now => some ((updateCustomStrategy fold cs strategy now).toOption.getD cs)
  | .delete id => some (deleteCustomStrategy cs id)
  | .duplicate id newId createdAt updatedAt =>
    some ((duplicateCustomStrategy cs id newId createdAt updatedAt).getD cs)

/-- Ids and names are distinct and no name is built in, so that every lookup by a name
finds the strategy that has it. -/
structure Identified (fold : Char → Char) (cs : List CustomStrategy) : Prop where
  ids : (cs.map (·.id)).Nodup
  names : cs.Pairwise fun a b => equalsIgnoreCase fold a.name b.name = false
  builtin : ∀ c ∈ cs, isBuiltin fold c.name = false
  byName : ∀ c ∈ cs, cs.find? (fun it => it.name == c.name) = some c
  args : ∀ c ∈ cs, findCustom cs c.name = some c

/-- The checks that adding and updating have in common. -/
def admits (fold : Char → Char) (cs : List CustomStrategy) (strategy : CustomStrategy) : Bool :=
  !isBlank strategy.name && !nameTaken fold cs strategy &&
    (validateStrategyArgs (parseCustomArgs strategy.userArgs)).isOk

/-- What no operation checks: a new id is free and no id is the new name; an updated name
is not built in; the name of a copy is free in every way. -/
def Unclaimed (fold : Char → Char) (cs : List CustomStrategy) : Act → Prop
  | .add strategy => admits fold cs strategy = true → isBuiltin fold strategy.name = false →
      ∀ c ∈ cs, c.id ≠ strategy.id ∧ c.id ≠ strategy.name
  | .update strategy _ => admits fold cs strategy = true → strategy.id ∈ cs.map (·.id) →
      isBuiltin fold strategy.name = false ∧
        ∀ c ∈ cs.takeWhile (fun it => it.id != strategy.id), c.id ≠ strategy.name
  | .delete _ => True
  | .duplicate id newId _ _ => ∀ existing, getCustomStrategyById cs id = some existing →
      isBuiltin fold (copyName existing) = false ∧
        ∀ c ∈ cs, c.id ≠ newId ∧ c.id ≠ copyName existing ∧
          equalsIgnoreCase fold c.name (copyName existing) = false

instance (fold : Char → Char) (cs : List CustomStrategy) : ∀ act, Decidable (Unclaimed fold cs act)
  | .add strategy => inferInstanceAs (Decidable (admits fold cs strategy = true →
      isBuiltin fold strategy.name = false → ∀ c ∈ cs, c.id ≠ strategy.id ∧ c.id ≠ strategy.name))
  | .update strategy _ => inferInstanceAs (Decidable (admits fold cs strategy = true →
      strategy.id ∈ cs.map (·.id) → isBuiltin fold strategy.name = false ∧
        ∀ c ∈ cs.takeWhile (fun it => it.id != strategy.id), c.id ≠ strategy.name))
  | .delete _ => isTrue trivial
  | .duplicate id newId _ _ =>
    decidable_of_iff (∀ existing ∈ getCustomStrategyById cs id,
      isBuiltin fold (copyName existing) = false ∧
        ∀ c ∈ cs, c.id ≠ newId ∧ c.id ≠ copyName existing ∧
          equalsIgnoreCase fold c.name (copyName existing) = false) Iff.rfl

/-- What an earlier strategy and a later one must not share. -/
def Apart (fold : Char → Char) (a b : CustomStrategy) : Prop :=
  a.id ≠ b.id ∧ equalsIgnoreCase fold a.name b.name = false ∧ a.id ≠ b.name

section Lists

variable {fold : Char → Char} {cs pre post : List CustomStrategy} {a b c s : CustomStrategy}
  {p : CustomStrategy → Bool}

lemma equalsIgnoreCase_self (x : String) : equalsIgnoreCase fold x x = true := by
  simp only [equalsIgnoreCase, beq_self_eq_true]

lemma equalsIgnoreCase_comm (x y : String) : equalsIgnoreCase fold x y = equalsIgnoreCase fold y x := by
  simp only [equalsIgnoreCase, Bool.beq_comm]

/-- A search finds each element when no element before it answers to its question. -/
lemma find_pairwise {q : CustomStrategy → CustomStrategy → Bool} (hself : ∀ c, q c c = true)
    (h : cs.Pairwise fun a b => q b a = false) (hc : c ∈ cs) : cs.find? (q c) = some c := by
  induction cs with
  | nil => cases hc
  | cons a cs ih =>
    rw [List.pairwise_cons] at h
    rcases List.mem_cons.mp hc with rfl | hin
    · rw [List.find?_cons_of_pos (hself c)]
    · rw [List.find?_cons_of_neg (by rw [h.1 c hin]; decide)]
      exact ih h.2 hin

/-- Where the search for an element's name finds the element, no id before it is that name. -/
lemma apart_of_args (hids : cs.Pairwise fun a b => a.id ≠ b.id)
    (h : ∀ c ∈ cs, findCustom cs c.name = some c) : cs.Pairwise fun a b => a.id ≠ b.name := by
  induction cs with
  | nil => exact List.Pairwise.nil
  | cons a cs ih =>
    rw [List.pairwise_cons] at hids ⊢
    have hmiss : ∀ b ∈ cs, (a.name == b.name || a.id == b.name) = false := by
      intro b hb
      cases hhit : (a.name == b.name || a.id == b.name) with
      | false => rfl
      | true =>
        have hfound := h b (List.mem_cons_of_mem a hb)
        rw [findCustom, List.find?_cons_of_pos (by exact hhit)] at hfound
        cases hfound
        exact absurd rfl (hids.1 a hb)
    constructor
    · intro b hb heq
      simpa [heq] using hmiss b hb
    · refine ih hids.2 ?_
      intro c hc
      have hfound := h c (List.mem_cons_of_mem a hc)
      rwa [findCustom, List.find?_cons_of_neg (by rw [hmiss c hc]; decide)] at hfound

lemma identified_iff : Identified fold cs ↔
    cs.Pairwise (Apart fold) ∧ ∀ c ∈ cs, isBuiltin fold c.name = false := by
  constructor
  · rintro ⟨hids, hnames, hbuiltin, -, hargs⟩
    rw [List.Nodup, List.pairwise_map] at hids
    exact ⟨hids.and (hnames.and (apart_of_args hids hargs)), hbuiltin⟩
  · rintro ⟨hapart, hbuiltin⟩
    have hname : cs.Pairwise fun a b => (a.name == b.name) = false := by
      refine hapart.imp ?_
      intro a b h
      cases heq : a.name == b.name with
      | false => rfl
      | true =>
        have hsame := h.2.1
        rw [eq_of_beq heq, equalsIgnoreCase_self] at hsame
        cases hsame
    constructor
    · rw [List.Nodup, List.pairwise_map]
      exact hapart.imp fun h => h.1
    · exact hapart.imp fun h => h.2.1
    · exact hbuiltin
    · intro c hc
      exact find_pairwise (q := fun b a => a.name == b.name) (fun _ => beq_self_eq_true _) hname hc
    · intro c hc
      refine find_pairwise (q := fun b a => a.name == b.name || a.id == b.name)
        (fun _ => by simp) ?_ hc
      refine (hname.and hapart).imp ?_
      rintro a b ⟨hab, -, -, hid⟩
      rw [hab, Bool.false_or, beq_eq_false_iff_ne]
      exact hid

/-- One more strategy at the end. -/
lemma identified_snoc (h : Identified fold cs) : Identified fold (cs ++ [s]) ↔
    isBuiltin fold s.name = false ∧ ∀ c ∈ cs, Apart fold c s := by
  rw [identified_iff] at h ⊢
  simp only [List.pairwise_append, List.pairwise_singleton, true_and, h.1, List.mem_append,
    List.mem_singleton, forall_eq]
  constructor
  · rintro ⟨hapart, hbuiltin⟩
    exact ⟨hbuiltin s (Or.inr rfl), hapart⟩
  · rintro ⟨hs, hapart⟩
    refine ⟨hapart, ?_⟩
    rintro c (hc | rfl)
    · exact h.2 c hc
    · exact hs

/-- The strategy with an id, and what it is replaced by. -/
lemma findIdx_split {i : Nat} (h : cs.findIdx? p = some i) :
    ∃ pre c post, cs = pre ++ c :: post ∧ p c = true ∧ (∀ x ∈ pre, p x = false) ∧
      pre = cs.takeWhile (fun x => !p x) ∧ ∀ s, cs.set i s = pre ++ s :: post := by
  induction cs generalizing i with
  | nil => cases h
  | cons a cs ih =>
    rw [List.findIdx?_cons] at h
    cases hp : p a with
    | true =>
      rw [hp, if_pos rfl] at h
      cases h
      exact ⟨[], a, cs, rfl, hp, by simp, by simp [hp], fun s => rfl⟩
    | false =>
      rw [hp, if_neg (by decide)] at h
      obtain ⟨j, hj, rfl⟩ := Option.map_eq_some_iff.mp h
      obtain ⟨pre, c, post, rfl, hc, hpre, htake, hset⟩ := ih hj
      refine ⟨a :: pre, c, post, rfl, hc, ?_, ?_, ?_⟩
      · intro x hx
        rcases List.mem_cons.mp hx with rfl | hx
        · exact hp
        · exact hpre x hx
      · rw [List.takeWhile_cons_of_pos (by simp [hp]), ← htake]
      · intro s
        rw [List.set_cons_succ, hset, List.cons_append]

end Lists

section Steps

variable {fold : Char → Char} {cs cs' : List CustomStrategy} {s : CustomStrategy} {now : Int}
  {id newId : String}

lemma nameTaken_free (h : nameTaken fold cs s = false) {c : CustomStrategy} (hc : c ∈ cs)
    (hid : c.id ≠ s.id) : equalsIgnoreCase fold c.name s.name = false := by
  rw [nameTaken, List.any_eq_false] at h
  have hboth := h c hc
  simpa [hid] using hboth

lemma admits_iff : admits fold cs s = true ↔ isBlank s.name = false ∧
    nameTaken fold cs s = false ∧ validateStrategyArgs (parseCustomArgs s.userArgs) = .ok () := by
  cases hv : validateStrategyArgs (parseCustomArgs s.userArgs) <;>
    simp [admits, hv, Except.isOk, Except.toBool]

lemma add_eq : (addCustomStrategy fold cs s).toOption.getD cs =
    if admits fold cs s = true ∧ isBuiltin fold s.name = false then cs ++ [s] else cs := by
  cases hblank : isBlank s.name <;> cases htaken : nameTaken fold cs s <;>
    cases hbuiltin : isBuiltin fold s.name <;>
    cases hv : validateStrategyArgs (parseCustomArgs s.userArgs) <;>
    simp [addCustomStrategy, admits, Except.isOk, Except.toBool, hblank, htaken, hbuiltin, hv, bind, Except.bind, pure, Except.pure,
      throw, throwThe, MonadExceptOf.throw, Except.toOption]

lemma update_eq : (updateCustomStrategy fold cs s now).toOption.getD cs =
    if admits fold cs s = true then
      match cs.findIdx? fun it => it.id == s.id with
      | some idx => cs.set idx { s with updatedAt := now }
      | none => cs
    else cs := by
  cases hblank : isBlank s.name <;> cases htaken : nameTaken fold cs s <;>
    cases hv : validateStrategyArgs (parseCustomArgs s.userArgs) <;>
    cases hidx : cs.findIdx? fun it => it.id == s.id <;>
    simp [updateCustomStrategy, admits, Except.isOk, Except.toBool, hblank, htaken, hv, hidx, bind, Except.bind, pure, Except.pure,
      throw, throwThe, MonadExceptOf.throw, Except.toOption]

lemma add_step (hcs : Identified fold cs) :
    Identified fold ((addCustomStrategy fold cs s).toOption.getD cs) ↔
      Unclaimed fold cs (.add s) := by
  rw [add_eq]
  by_cases hadmits : admits fold cs s = true
  · by_cases hbuiltin : isBuiltin fold s.name = false
    · rw [if_pos ⟨hadmits, hbuiltin⟩, identified_snoc hcs]
      simp only [Unclaimed, hadmits, hbuiltin, true_and, true_imp_iff]
      constructor
      · intro h c hc
        exact ⟨(h c hc).1, (h c hc).2.2⟩
      · intro h c hc
        have hfree := nameTaken_free (admits_iff.mp hadmits).2.1 hc (h c hc).1
        exact ⟨(h c hc).1, hfree, (h c hc).2⟩
    · rw [if_neg fun h => hbuiltin h.2]
      exact ⟨fun _ _ h => absurd h hbuiltin, fun _ => hcs⟩
  · rw [if_neg fun h => hadmits h.1]
    exact ⟨fun _ h => absurd h hadmits, fun _ => hcs⟩

lemma update_step (hcs : Identified fold cs) :
    Identified fold ((updateCustomStrategy fold cs s now).toOption.getD cs) ↔
      Unclaimed fold cs (.update s now) := by
  rw [update_eq]
  by_cases hadmits : admits fold cs s = true
  · rw [if_pos hadmits]
    cases hidx : cs.findIdx? fun it => it.id == s.id with
    | none =>
      have hnot : s.id ∉ cs.map (·.id) := by
        intro hmem
        obtain ⟨c, hc, heq⟩ := List.mem_map.mp hmem
        have hmiss := List.findIdx?_eq_none_iff.mp hidx c hc
        simp [heq] at hmiss
      exact ⟨fun _ _ h => absurd h hnot, fun _ => hcs⟩
    | some idx =>
      obtain ⟨pre, c, post, hsplit, hc, hpre, htake, hset⟩ := findIdx_split hidx
      have hcid : c.id = s.id := by simpa using hc
      have hmem : s.id ∈ cs.map (·.id) := by
        rw [← hcid]
        exact List.mem_map_of_mem (by simp [hsplit])
      have htake' : pre = cs.takeWhile fun it => it.id != s.id := by
        simpa only [bne] using htake
      have hfree := (admits_iff.mp hadmits).2.1
      simp only [Unclaimed, hadmits, hmem, true_imp_iff, ← htake', hset]
      obtain ⟨new, hnew, hid, hname⟩ : ∃ new, { s with updatedAt := now } = new ∧ new.id = s.id ∧
          new.name = s.name := ⟨_, rfl, rfl, rfl⟩
      rw [hnew, ← hname]
      rw [identified_iff] at hcs ⊢
      obtain ⟨hapart, hbuiltin⟩ := hcs
      have hin : ∀ x, x ∈ pre ∨ x ∈ post → x ∈ cs := by
        rintro x (hx | hx) <;> simp [hsplit, hx]
      rw [hsplit, List.pairwise_append, List.pairwise_cons] at hapart
      obtain ⟨hapre, ⟨hcpost, hapost⟩, hcross⟩ := hapart
      simp only [List.pairwise_append, List.pairwise_cons, List.mem_cons, List.mem_append]
      constructor
      · rintro ⟨⟨-, -, hx⟩, hall⟩
        exact ⟨hall new (Or.inr (Or.inl rfl)), fun x hxpre => (hx x hxpre new (Or.inl rfl)).2.2⟩
      · rintro ⟨hs, hids⟩
        refine ⟨⟨hapre, ⟨?_, hapost⟩, ?_⟩, ?_⟩
        · intro x hx
          have hapx := hcpost x hx
          rw [Apart, hcid, ← hid] at hapx
          have hother : x.id ≠ s.id := fun h => hapx.1 (hid.trans h.symm)
          have hfold := nameTaken_free hfree (hin x (Or.inr hx)) hother
          rw [equalsIgnoreCase_comm, ← hname] at hfold
          exact ⟨hapx.1, hfold, hapx.2.2⟩
        · rintro x hx y (rfl | hy)
          · have hother : x.id ≠ s.id := by simpa using hpre x hx
            have hfold := nameTaken_free hfree (hin x (Or.inl hx)) hother
            rw [← hname] at hfold
            exact ⟨hid ▸ hother, hfold, hids x hx⟩
          · exact hcross x hx y (List.mem_cons_of_mem c hy)
        · rintro x (hx | rfl | hx)
          · exact hbuiltin x (hin x (Or.inl hx))
          · exact hs
          · exact hbuiltin x (hin x (Or.inr hx))
  · rw [if_neg hadmits]
    exact ⟨fun _ h => absurd h hadmits, fun _ => hcs⟩

lemma delete_step (hcs : Identified fold cs) : Identified fold (deleteCustomStrategy cs id) := by
  rw [identified_iff] at hcs ⊢
  exact ⟨hcs.1.filter _, fun c hc => hcs.2 c (List.mem_filter.mp hc).1⟩

lemma duplicate_step (hcs : Identified fold cs) (created updated : Int) :
    Identified fold ((duplicateCustomStrategy cs id newId created updated).getD cs) ↔
      Unclaimed fold cs (.duplicate id newId created updated) := by
  rw [duplicateCustomStrategy]
  cases hfound : getCustomStrategyById cs id with
  | none =>
    simp only [Unclaimed, hfound, Option.map_none, Option.getD_none, reduceCtorEq, false_imp_iff,
      implies_true, iff_true]
    exact hcs
  | some existing =>
    simp only [Unclaimed, hfound, Option.map_some, Option.getD_some, Option.some.injEq,
      forall_eq', identified_snoc hcs]
    refine and_congr_right fun _ => forall₂_congr fun c _ => ?_
    simp only [Apart]
    rw [and_congr_right_iff]
    exact fun _ => and_comm

theorem names_identify_iff (fold : Char → Char) {cs : List CustomStrategy} {acts : List Act}
    (hrun : run (step fold) [] acts = some cs) :
    Along (step fold) (fun _ _ cs => Identified fold cs) [] acts ↔
      Meets (step fold) (Unclaimed fold) [] acts := by
  have hstep : ∀ cs act cs', Identified fold cs → step fold cs act = some cs' →
      (Identified fold cs' ↔ Unclaimed fold cs act) := by
    intro cs act cs' hcs h
    cases act with
    | add s =>
      cases h
      exact add_step hcs
    | update s now =>
      cases h
      exact update_step hcs
    | delete id =>
      cases h
      simp only [Unclaimed, iff_true]
      exact delete_step hcs
    | duplicate id newId created updated =>
      cases h
      exact duplicate_step hcs created updated
  have hstart : Identified fold [] := by
    rw [identified_iff]
    exact ⟨List.Pairwise.nil, by simp⟩
  exact along_iff_meets (fun cs act cs' hcs hok h => (hstep cs act cs' hcs h).mpr hok) hstep hstart hrun

def mine : CustomStrategy :=
  { id := "a", name := "Mine", userArgs := "--split 1", createdAt := 0, updatedAt := 0 }

/-- A strategy that is added, copied under a new id, renamed and deleted. -/
theorem names_identify_iff_renamed :
    Along (step Char.toLower) (fun _ _ cs => Identified Char.toLower cs) []
      [.add mine, .duplicate "a" "b" 1 1, .update { mine with name := "Other" } 2, .delete "a"] :=
  (names_identify_iff Char.toLower rfl).mpr (by decide)

/-- Two copies of one strategy have one name. -/
theorem copies_share_name :
    ∃ cs, run (step Char.toLower) [] [.add mine, .duplicate "a" "b" 1 1, .duplicate "a" "c" 2 2] =
      some cs ∧ cs.map (·.name) = ["Mine", "Mine (Copy)", "Mine (Copy)"] ∧
      ¬ Identified Char.toLower cs := by
  refine ⟨_, rfl, by decide, ?_⟩
  intro h
  exact absurd h.names (by decide)

end Steps

end CustomNames
