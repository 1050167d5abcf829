import Mathlib.Tactic.Lemma
import NoZapret.KotlinText

/-!
# Values of `org.json`

What is put into a `JSONObject` and what its getters make of it. Text is left out: what is
written is what is parsed. `none` is an exception.
-/

namespace OrgJson

open KotlinText

/-- A number that is no integer stays as it is spelled. -/
inductive Json where
  | null
  | bool (b : Bool)
  | num (n : Int)
  | real (literal : String)
  | str (s : String)
  | arr (values : List Json)
  | obj (pairs : List (String × Json))

/-- The pairs of a `JSONObject`, in the order in which they came. -/
abbrev Obj := List (String × Json)

/-- `String.valueOf` for a value that is no string, and `Double.parseDouble` with the casts to
`int` and to `long`. -/
structure Platform where
  valueOf : Json → String
  parseInt : String → Option (BitVec 32)
  parseLong : String → Option (BitVec 64)

def Obj.get (o : Obj) (name : String) : Option Json := o.lookup name

def Obj.has (o : Obj) (name : String) : Bool := (o.get name).isSome

/-- A name that is there keeps its place. -/
def Obj.put (o : Obj) (name : String) (value : Json) : Obj :=
  if o.has name then o.map fun p => if p.1 = name then (name, value) else p
  else o ++ [(name, value)]

/-- `value?.let { put(name, it) }` -/
def Obj.putIf (o : Obj) (name : String) : Option Json → Obj
  | none => o
  | some value => o.put name value

section Getters

variable (p : Platform)

/-- Whatever it is, it has a text. -/
def Json.toString : Json → String
  | .str s => s
  | v => p.valueOf v

/-- `ignoreCase` on letters of the Basic Latin block. -/
def isWord (s : String) (word : List Char) : Bool := s.toList.map foldCase == word

def Json.toBoolean : Json → Option Bool
  | .bool b => some b
  | .str s =>
    if isWord s ['t', 'r', 'u', 'e'] then some true
    else if isWord s ['f', 'a', 'l', 's', 'e'] then some false
    else none
  | _ => none

def Json.toInteger : Json → Option (BitVec 32)
  | .num n => some (BitVec.ofInt 32 n)
  | .real s | .str s => p.parseInt s
  | _ => none

def Json.toLong : Json → Option (BitVec 64)
  | .num n => some (BitVec.ofInt 64 n)
  | .real s | .str s => p.parseLong s
  | _ => none

def Json.toArray : Json → Option (List Json)
  | .arr values => some values
  | _ => none

def Json.toObject : Json → Option Obj
  | .obj pairs => some pairs
  | _ => none

variable (o : Obj) (name : String)

def Obj.getString : Option String := (o.get name).map (Json.toString p)

def Obj.getBoolean : Option Bool := (o.get name).bind Json.toBoolean

def Obj.getInt : Option (BitVec 32) := (o.get name).bind (Json.toInteger p)

def Obj.getLong : Option (BitVec 64) := (o.get name).bind (Json.toLong p)

def Obj.getJSONArray : Option (List Json) := (o.get name).bind Json.toArray

def Obj.getJSONObject : Option Obj := (o.get name).bind Json.toObject

/-- `if (has(name)) getX(name) else null` -/
def Obj.optional {α : Type} (get : Option α) : Option (Option α) :=
  if o.has name then get.map some else some none

end Getters

section Puts

variable {o : Obj} {name other : String} {value : Json}

@[simp]
lemma Obj.get_nil : Obj.get [] name = none := rfl

lemma lookup_replace : (o.map fun p => if p.1 = name then (name, value) else p).lookup other =
    if other = name then (o.lookup name).map fun _ => value else o.lookup other := by
  induction o with
  | nil => simp
  | cons q o ih =>
    obtain ⟨key, v⟩ := q
    rw [List.map_cons]
    by_cases hkey : key = name
    · subst hkey
      by_cases hother : other = key
      · subst hother
        simp
      · rw [if_neg hother] at ih
        simp only [if_true, if_neg hother, List.lookup_cons, beq_false_of_ne hother]
        exact ih
    · by_cases hother : other = key
      · subst hother
        simp [hkey]
      · simp only [if_neg hkey, List.lookup_cons, beq_false_of_ne hother,
          beq_false_of_ne (Ne.symm hkey)]
        exact ih

lemma Obj.get_put :
    (o.put name value).get other = if other = name then some value else o.get other := by
  unfold put
  split
  · rename_i hhas
    obtain ⟨old, hold⟩ := Option.isSome_iff_exists.mp hhas
    unfold get at hold ⊢
    rw [lookup_replace, hold]
    rfl
  · rename_i hhas
    have hnone : o.lookup name = none := Option.not_isSome_iff_eq_none.mp hhas
    unfold get
    rw [List.lookup_append]
    by_cases hother : other = name
    · subst hother
      simp [hnone]
    · have hlast : List.lookup other [(name, value)] = none := by
        rw [List.lookup_cons, beq_false_of_ne hother]
        rfl
      rw [hlast, Option.or_none, if_neg hother]

@[simp]
lemma Obj.get_put_self : (o.put name value).get name = some value := by
  rw [Obj.get_put, if_pos rfl]

lemma Obj.get_put_of_ne (h : other ≠ name) : (o.put name value).get other = o.get other := by
  rw [Obj.get_put, if_neg h]

lemma Obj.get_putIf {value : Option Json} : (o.putIf name value).get other =
    if other = name then value.or (o.get name) else o.get other := by
  cases value with
  | none =>
    by_cases hother : other = name
    · rw [if_pos hother, hother]
      rfl
    · rw [if_neg hother]
      rfl
  | some value => exact Obj.get_put

section Reads

variable {p : Platform}

lemma Obj.getString_str {s : String} (h : o.get name = some (.str s)) :
    o.getString p name = some s := by
  rw [getString, h]
  rfl

lemma Obj.getBoolean_bool {b : Bool} (h : o.get name = some (.bool b)) :
    o.getBoolean name = some b := by
  rw [getBoolean, h]
  rfl

lemma Obj.getInt_num {n : BitVec 32} (h : o.get name = some (.num n.toInt)) :
    o.getInt p name = some n := by
  rw [getInt, h, Option.bind_some, Json.toInteger, BitVec.ofInt_toInt]

lemma Obj.optional_string {x : Option String} (h : o.get name = x.map .str) :
    o.optional name (o.getString p name) = some x := by
  unfold optional has getString
  rw [h]
  cases x with
  | none => rfl
  | some s => rfl

lemma Obj.optional_long {x : Option (BitVec 64)} (h : o.get name = x.map fun n => .num n.toInt) :
    o.optional name (o.getLong p name) = some x := by
  unfold optional has getLong
  rw [h]
  cases x with
  | none => rfl
  | some n =>
    simp only [Option.map_some, Option.isSome_some, if_true, Option.bind_some, Json.toLong,
      BitVec.ofInt_toInt]

end Reads

/-- New names are put behind the others. -/
lemma Obj.foldl_put {α : Type} {xs : List α} {key : α → String} {val : α → Json}
    (hnodup : (xs.map key).Nodup) (hnew : ∀ x ∈ xs, o.get (key x) = none) :
    xs.foldl (fun o x => o.put (key x) (val x)) o = o ++ xs.map fun x => (key x, val x) := by
  induction xs generalizing o with
  | nil => simp
  | cons x xs ih =>
    rw [List.map_cons, List.nodup_cons] at hnodup
    have hx : o.has (key x) = false := by
      unfold has
      rw [hnew x List.mem_cons_self]
      rfl
    have hput : o.put (key x) (val x) = o ++ [(key x, val x)] := by
      unfold put
      rw [if_neg (by rw [hx]; decide)]
    rw [List.foldl_cons, ih hnodup.2, hput, List.map_cons, List.append_assoc]
    · rfl
    · intro y hy
      have hne : key y ≠ key x := by
        intro heq
        exact hnodup.1 (heq ▸ List.mem_map_of_mem hy)
      rw [Obj.get_put_of_ne hne]
      exact hnew y (List.mem_cons_of_mem x hy)

/-- A pair of an object whose names differ is found under its name. -/
lemma Obj.get_of_mem {pairs : Obj} (hnodup : (pairs.map Prod.fst).Nodup)
    (h : (name, value) ∈ pairs) : pairs.get name = some value := by
  induction pairs with
  | nil => cases h
  | cons q pairs ih =>
    rw [List.map_cons, List.nodup_cons] at hnodup
    rcases List.mem_cons.mp h with rfl | hmem
    · simp [get]
    · have hne : name ≠ q.1 := by
        rintro rfl
        exact hnodup.1 (List.mem_map.mpr ⟨_, hmem, rfl⟩)
      unfold get at ih ⊢
      rw [List.lookup_cons, beq_false_of_ne hne]
      exact ih hnodup.2 hmem

end Puts

end OrgJson
