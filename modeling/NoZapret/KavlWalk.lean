import NoZapret.CacheFile
import NoZapret.KavlPool

/-!
# Walks through the trees of `kavl.h`

`kavl_itr_first`, `kavl_at` and `kavl_itr_next`, and the loop of `dump_cache` over them. A walk
comes to every element once, in the order of the tree, and its stack does not run over.
-/

namespace KavlWalk

open SearchTree BinTree BitPool CacheFile CachePool Inet Kavl KavlPool Packets

universe u

section Walk

variable {α : Type u}

/-- The entries of a stack: a node, and what is to the right of it. -/
abbrev Stack (α : Type u) := List (Node α × Kavl.Tree α)

/-- `struct kavl_itr`; the last entry of its stack, `*top`, comes first. -/
structure Itr (α : Type u) where
  stack : Stack α
  right : Kavl.Tree α

/-- `*++itr->top = p`, for `p` and what is to the left of it. -/
def pushLeft : Kavl.Tree α → Stack α → Stack α
  | leaf, stack => stack
  | node l p r, stack => pushLeft l ((p, r) :: stack)

def kavlAt (itr : Itr α) : Option α := itr.stack.head?.map fun e => e.1.val

def kavlItrFirst (root : Kavl.Tree α) : Option (Itr α) :=
  match pushLeft root [] with
  | [] => none
  | e :: stack => if maxDepth < stack.length + 1 then none else some ⟨e :: stack, e.2⟩

/-- The iterator when there is a next element, and whether there is. -/
def kavlItrNext (itr : Itr α) : Option (Option (Itr α)) :=
  match itr.stack with
  | [] => none
  | _ :: stack =>
    match pushLeft itr.right stack with
    | [] => some none
    | e :: stack => if maxDepth < stack.length + 1 then none else some (some ⟨e :: stack, e.2⟩)

end Walk

section Dump

variable (I : Ntop) (dp : Nat)

/-- What a round of `dump_cache` prints. -/
def lineOf (p : Elem Val) : Option Bytes :=
  if p.val.dp == some dp then dumpLine I p else some []

/-- The loop of `dump_cache`; `out` is what has been printed. -/
def dumpLoop : Nat → Itr (Elem Val) → Bytes → Option Bytes
  | 0, _, _ => none
  | fuel + 1, itr, out => do
    let p ← kavlAt itr
    let line ← lineOf I dp p
    match ← kavlItrNext itr with
    | none => return out ++ line
    | some itr => dumpLoop fuel itr (out ++ line)

def dumpCache (hdr : Mphdr Val) : Option Bytes :=
  match hdr.root with
  | leaf => some []
  | root => (kavlItrFirst root).bind fun itr => dumpLoop I dp root.count itr []

end Dump

section Order

variable {α : Type u} {t : Kavl.Tree α} {stack : Stack α} {e : Node α × Kavl.Tree α} {n : Nat}

/-- What a walk still has to come to. -/
def rest : Stack α → List α
  | [] => []
  | (p, r) :: stack => p.val :: (keys r).inorder ++ rest stack

/-- No subtree of the stack is so high that it does not fit on top of what is below it. -/
def Bounded (n : Nat) : Stack α → Prop
  | [] => True
  | (_, r) :: stack => stack.length + 1 + r.height ≤ n ∧ Bounded n stack

lemma rest_pushLeft : rest (pushLeft t stack) = (keys t).inorder ++ rest stack := by
  induction t generalizing stack with
  | leaf => rfl
  | node l p r ihl _ =>
    rw [pushLeft, ihl, rest, keys, keys, keys, relabel, inorder_node]
    simp only [List.append_assoc, List.cons_append]

lemma bounded_pushLeft (hstack : Bounded n stack) (hheight : stack.length + t.height ≤ n) :
    Bounded n (pushLeft t stack) := by
  induction t generalizing stack with
  | leaf => exact hstack
  | node l p r ihl _ =>
    rw [height_node] at hheight
    refine ihl ⟨by omega, hstack⟩ ?_
    rw [List.length_cons]
    omega

lemma Bounded.length_le (hstack : Bounded n (e :: stack)) : stack.length + 1 ≤ n :=
  le_trans (Nat.le_add_right ..) hstack.1

end Order

section DumpOrder

variable {I : Ntop} {dp : Nat} {hdr : Mphdr Val} {stack : Stack (Elem Val)} {fuel : Nat}
  {e : Node (Elem Val) × Kavl.Tree (Elem Val)} {out : Bytes}

lemma dumpLoop_eq (hstack : Bounded maxDepth (e :: stack))
    (hfuel : (rest (e :: stack)).length ≤ fuel) :
    dumpLoop I dp fuel ⟨e :: stack, e.2⟩ out =
      ((rest (e :: stack)).mapM (lineOf I dp)).map fun lines => out ++ lines.flatten := by
  induction fuel generalizing e stack out with
  | zero =>
    obtain ⟨p, r⟩ := e
    simp [rest] at hfuel
  | succ fuel ih =>
    obtain ⟨p, r⟩ := e
    have hnext : Bounded maxDepth (pushLeft r stack) :=
      bounded_pushLeft hstack.2 (by have hle := hstack.1; omega)
    have hrest : (keys r).inorder ++ rest stack = rest (pushLeft r stack) := rest_pushLeft.symm
    simp only [rest, List.cons_append, List.length_cons, List.mapM_cons, hrest] at hfuel ⊢
    simp only [dumpLoop, kavlAt, List.head?_cons, Option.map_some, Option.bind_eq_bind,
      Option.bind_some, kavlItrNext]
    cases lineOf I dp p.val with
    | none => rfl
    | some line =>
      simp only [Option.bind_some]
      cases hpush : pushLeft r stack with
      | nil => simp [rest]
      | cons e' stack' =>
        rw [hpush] at hnext hfuel
        simp only [if_neg (Nat.not_lt.mpr hnext.length_le), Option.bind_some]
        rw [ih hnext (by omega)]
        cases (rest (e' :: stack')).mapM (lineOf I dp) with
        | none => rfl
        | some lines => simp

lemma mapM_lineOf (l : List (Elem Val)) :
    (l.mapM (lineOf I dp)).map List.flatten =
      ((l.filter fun e => e.val.dp == some dp).mapM (dumpLine I)).map List.flatten := by
  induction l with
  | nil => rfl
  | cons e l ih =>
    simp only [List.mapM_cons, List.filter_cons]
    cases hdp : e.val.dp == some dp with
    | false =>
      simp only [lineOf, hdp, Bool.false_eq_true, if_false]
      rw [← ih]
      cases l.mapM (lineOf I dp) <;> rfl
    | true =>
      simp only [lineOf, hdp, if_true, List.mapM_cons]
      cases dumpLine I e with
      | none => rfl
      | some line =>
        have hboth : ∀ a b : Option (List Bytes), a.map List.flatten = b.map List.flatten →
            (a.bind fun ls => some (line :: ls)).map List.flatten =
              (b.bind fun ls => some (line :: ls)).map List.flatten := by
          intro a b hab
          cases a with
          | none =>
            cases b with
            | none => rfl
            | some b => cases hab
          | some a =>
            cases b with
            | none => cases hab
            | some b => simp [Option.some.inj hab]
        exact hboth _ _ ih

/-- The walk of `dump_cache` prints the lines of its group in the order of the tree. -/
theorem dump_cache_walks (I : Ntop) (dp : Nat) (hwf : Wf hdr.root)
    (hbound : hdr.root.count < 2 ^ 44) :
    dumpCache I dp hdr = CacheFile.dumpCache I hdr.plain dp := by
  have hshallow := (show Linked hdr from ⟨hwf, hbound⟩).shallow
  rw [CacheFile.dumpCache, entriesOf, ← mapM_lineOf, dumpCache]
  cases hroot : hdr.root with
  | leaf =>
    rw [Mphdr.plain, hroot]
    rfl
  | node l p r =>
    rw [hroot] at hshallow
    have hstack : Bounded maxDepth (pushLeft (node l p r) []) :=
      bounded_pushLeft trivial (by rw [List.length_nil]; omega)
    have hrest : rest (pushLeft (node l p r) []) = hdr.plain.root.inorder := by
      rw [rest_pushLeft, Mphdr.plain, hroot]
      exact List.append_nil _
    have hcount : hdr.plain.root.inorder.length = (node l p r).count := by
      rw [← hroot]
      exact count_keys _
    simp only [kavlItrFirst]
    cases hpush : pushLeft (node l p r) [] with
    | nil =>
      rw [hpush] at hrest
      rw [← hrest] at hcount
      rw [count_node] at hcount
      cases hcount
    | cons e stack =>
      rw [hpush] at hstack hrest
      simp only [if_neg (Nat.not_lt.mpr hstack.length_le), Option.bind_some]
      rw [dumpLoop_eq hstack (by rw [hrest, hcount]), hrest]
      rfl

def oneEntry : Mphdr Val :=
  ⟨node leaf ⟨⟨1, 0, ⟨32, [2, 0, 0, 80]⟩, { dp := some 7 }⟩, 0, 1⟩ leaf, 1, {}, 2⟩

theorem dump_cache_walks_one :
    dumpCache full 7 oneEntry = CacheFile.dumpCache full oneEntry.plain 7 :=
  dump_cache_walks full 7 ⟨⟨rfl, by decide, by decide, rfl⟩, trivial, trivial⟩ (by decide)

end DumpOrder

end KavlWalk
