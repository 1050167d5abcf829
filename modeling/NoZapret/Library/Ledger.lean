import Mathlib.Data.List.Basic
import Mathlib.Data.List.Perm.Basic

/-!
# A ledger of resources

Resources are acquired and released by name, and a name may be acquired again
after its release. The ledger records what is held now, what was ever acquired,
and every release of a resource that was acquired before but is not held.
`Owned` says that what is held is exactly a list of owners' names, each once.
-/

namespace Resources

universe u
variable {α : Type u}

structure Ledger (α : Type u) where
  held : List α := []
  acquired : List α := []
  again : List α := []
  deriving DecidableEq, Repr

def Ledger.acquire (l : Ledger α) (a : α) : Ledger α :=
  { l with held := a :: l.held, acquired := a :: l.acquired }

def Ledger.release [DecidableEq α] (l : Ledger α) (a : α) : Ledger α :=
  if a ∈ l.held then { l with held := l.held.erase a }
  else if a ∈ l.acquired then { l with again := a :: l.again }
  else l

/-- Everything acquired has been released, and nothing twice. -/
def Ledger.Settled (l : Ledger α) : Prop := l.held = [] ∧ l.again = []

/-- The owners hold what the ledger holds, one each. -/
structure Owned (l : Ledger α) (owners : List α) : Prop where
  held : l.held.Perm owners
  nodup : owners.Nodup
  again : l.again = []

variable {l : Ledger α} {a : α} {owners owners' : List α}

lemma Owned.perm (h : Owned l owners) (hp : owners.Perm owners') : Owned l owners' :=
  ⟨h.held.trans hp, hp.nodup_iff.mp h.nodup, h.again⟩

lemma Owned.fresh (h : Owned l owners) (ha : a ∉ l.held) : a ∉ owners := by
  intro hmem
  exact ha (h.held.mem_iff.mpr hmem)

lemma Owned.acquire (h : Owned l owners) (ha : a ∉ l.held) : Owned (l.acquire a) (a :: owners) := by
  refine ⟨h.held.cons a, ?_, h.again⟩
  rw [List.nodup_cons]
  exact ⟨h.fresh ha, h.nodup⟩

lemma Owned.release [DecidableEq α] (h : Owned l (a :: owners)) : Owned (l.release a) owners := by
  have ha : a ∈ l.held := h.held.mem_iff.mpr List.mem_cons_self
  unfold Ledger.release
  rw [if_pos ha]
  refine ⟨?_, (List.nodup_cons.mp h.nodup).2, h.again⟩
  have herase := h.held.erase a
  rwa [List.erase_cons_head] at herase

/-- What is acquired and released leaves its trace among the acquired only. -/
lemma acquire_release [DecidableEq α] (l : Ledger α) (a : α) :
    (l.acquire a).release a = { l with acquired := a :: l.acquired } := by
  simp [Ledger.acquire, Ledger.release]

/-- Of two resources, the one acquired first may be released first. -/
lemma acquire_acquire_release [DecidableEq α] (l : Ledger α) {a b : α} (hab : a ≠ b) :
    ((l.acquire a).acquire b).release a =
      { l.acquire b with acquired := b :: a :: l.acquired } := by
  have hba : b ≠ a := hab.symm
  simp [Ledger.acquire, Ledger.release, hab, hba]

/-- With no owner left the ledger is settled. -/
lemma Owned.settled (h : Owned l []) : l.Settled :=
  ⟨List.Perm.eq_nil h.held, h.again⟩

end Resources
