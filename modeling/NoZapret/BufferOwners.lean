import NoZapret.Buffers
import NoZapret.PoolRuns

/-!
# Every buffer has one owner

Over runs of the event loop, what `malloc` has handed out and `free` has not taken back is told
exactly once: by the stack of the pool, or by one slot in use. The first part is about the
buffers, the second about the callbacks and pairs that keep the slots apart.
-/

namespace BufferOwners

open Buffers Resources Runs Stack
open Pool hiding Buffer
open Closing (openable setPair free_not_used addEvent_cases)
open PoolRuns (Deletes Released Freed NoStray PairLink addEvent_added deletes_released)

def held (s : Slot) : List Nat := s.buff.toList ++ s.sqBuff.toList

/-- The buffers of the slots in use. -/
def owners (st : State) : List Nat := st.w.used.flatMap fun v => held (st.slots v)

/-- The pool's stack is `free`, and the callback at work has `ex` in its hands. -/
structure Store (ex free : List Nat) (st : State) : Prop where
  stack : Stacked (fun i => (st.buffers i).next) st.rootBuff free
  count : st.buffCount = free.length
  bound : st.buffCount ≤ maxBuffInp
  clean : ∀ i ∈ free, (st.buffers i).lock = 0 ∧ (st.buffers i).offset = 0
  owned : Owned st.heap (ex ++ free ++ owners st)

def OneOwner (st : State) : Prop := ∃ free, Store [] free st

section Store

variable {st st' : State} {ex ex' free : List Nat} {v i size : Nat} {a : Option Nat} {s : Slot}

lemma owners_congr (hused : st'.w.used = st.w.used)
    (h : ∀ v ∈ st.w.used, held (st'.slots v) = held (st.slots v)) : owners st' = owners st := by
  unfold owners
  rw [hused]
  exact List.flatMap_congr h

/-- The pool is as it was, and so are the slots in use. -/
lemma Store.congr (h : Store ex free st) (howners : owners st' = owners st)
    (hbuffers : st'.buffers = st.buffers) (hroot : st'.rootBuff = st.rootBuff)
    (hcount : st'.buffCount = st.buffCount) (hheap : st'.heap = st.heap) : Store ex free st' := by
  refine ⟨?_, hcount.trans h.count, ?_, ?_, ?_⟩
  · rw [hbuffers, hroot]
    exact h.stack
  · rw [hcount]
    exact h.bound
  · rw [hbuffers]
    exact h.clean
  · rw [hheap, howners]
    exact h.owned

lemma owners_setSlot (hv : v ∈ st.w.used) (hnodup : st.w.used.Nodup) (s : Slot) :
    ∃ rest, (owners st).Perm (held (st.slots v) ++ rest) ∧
      (owners (st.setSlot v s)).Perm (held s ++ rest) := by
  obtain ⟨l, l', hl⟩ := List.append_of_mem hv
  have hmiddle : ∀ f : Nat → List Nat,
      ((l ++ v :: l').flatMap f).Perm (f v ++ (l ++ l').flatMap f) := by
    intro f
    rw [List.flatMap_append, List.flatMap_cons, List.flatMap_append, ← List.append_assoc,
      ← List.append_assoc]
    exact List.perm_append_comm.append_right _
  have hother : ∀ u ∈ l ++ l', (st.setSlot v s).slots u = st.slots u := by
    intro u hu
    refine Function.update_of_ne ?_ _ _
    rintro rfl
    rw [hl] at hnodup
    exact (List.nodup_cons.mp (List.perm_middle.nodup_iff.mp hnodup)).1 hu
  refine ⟨(l ++ l').flatMap fun u => held (st.slots u), ?_, ?_⟩
  · unfold owners
    rw [hl]
    exact hmiddle _
  · have hself : (st.setSlot v s).slots v = s := Function.update_self _ _ _
    have hrest : ((l ++ l').flatMap fun u => held (st.slots u)) =
        (l ++ l').flatMap fun u => held ((st.setSlot v s).slots u) :=
      List.flatMap_congr fun u hu => by rw [hother u hu]
    change (st.w.used.flatMap fun u => held ((st.setSlot v s).slots u)).Perm _
    rw [hl, hrest]
    have hperm := hmiddle fun u => held ((st.setSlot v s).slots u)
    rwa [hself] at hperm

/-- Buffers pass between a slot and the callback at work. -/
lemma Store.setSlot (h : Store ex free st) (hnodup : st.w.used.Nodup) (hv : v ∈ st.w.used)
    (hperm : (ex ++ held (st.slots v)).Perm (ex' ++ held s)) : Store ex' free (st.setSlot v s) := by
  obtain ⟨rest, hbefore, hafter⟩ := owners_setSlot hv hnodup s
  refine ⟨h.stack, h.count, h.bound, h.clean, h.owned.perm ?_⟩
  rw [List.perm_iff_count] at *
  intro j
  have h1 := hbefore j
  have h2 := hafter j
  have h3 := hperm j
  simp only [List.count_append] at *
  omega

lemma Store.not_free (h : Store ex free st) (hi : i ∈ ex ++ owners st) : i ∉ free := by
  have hnodup := h.owned.nodup
  rw [List.append_assoc, List.nodup_append] at hnodup
  obtain ⟨-, hrest, hapart⟩ := hnodup
  intro hf
  rcases List.mem_append.mp hi with hex | hown
  · exact hapart i hex i (List.mem_append_left _ hf) rfl
  · exact (List.nodup_append.mp hrest).2.2 i hf i hown rfl

/-- A buffer that is not in the pool is written. -/
lemma Store.setBuffer (h : Store ex free st) (hi : i ∉ free) (b : Buffer) :
    Store ex free (st.setBuffer i b) := by
  have hother : ∀ j ∈ free, (st.setBuffer i b).buffers j = st.buffers j := by
    intro j hj
    refine Function.update_of_ne ?_ _ _
    rintro rfl
    exact hi hj
  refine ⟨h.stack.congr fun j hj => by rw [hother j hj], h.count, h.bound, ?_, h.owned⟩
  intro j hj
  rw [hother j hj]
  exact h.clean j hj

lemma Store.pop (h : Store ex free st) (hpop : buffPop st size a = some (i, st')) :
    (∃ free', Store (i :: ex) free' st') ∧ st'.slots = st.slots ∧ st'.w = st.w := by
  unfold buffPop at hpop
  split at hpop
  · rename_i k hroot
    obtain ⟨rfl, rfl⟩ := Prod.mk.inj (Option.some.inj hpop)
    have hstack := h.stack
    rw [hroot] at hstack
    obtain ⟨rest, rfl, hrest⟩ := hstack.pop
    have hcount := h.count
    have hbound := h.bound
    rw [List.length_cons] at hcount
    refine ⟨⟨rest, hrest, ?_, ?_, ?_, h.owned.perm ?_⟩, rfl, rfl⟩
    · change st.buffCount - 1 = rest.length
      omega
    · change st.buffCount - 1 ≤ maxBuffInp
      omega
    · intro j hj
      exact h.clean j (List.mem_cons_of_mem k hj)
    · exact List.perm_middle.append_right _
  · rename_i hroot
    split at hpop
    · cases hpop
    · rename_i k
      split at hpop
      · cases hpop
      · rename_i hnew
        obtain ⟨rfl, rfl⟩ := Prod.mk.inj (Option.some.inj hpop)
        have hstack := h.stack
        rw [hroot] at hstack
        obtain rfl := hstack.empty
        refine ⟨⟨[], hroot, h.count, h.bound, by simp, h.owned.acquire hnew⟩, rfl, rfl⟩

lemma Store.push (h : Store (i :: ex) free st) :
    (∃ free', Store ex free' (buffPush st i)) ∧ (buffPush st i).slots = st.slots ∧
      (buffPush st i).w = st.w := by
  have hi : i ∉ free := h.not_free (List.mem_append_left _ List.mem_cons_self)
  unfold buffPush
  split
  · exact ⟨⟨free, h.stack, h.count, h.bound, h.clean, h.owned.release⟩, rfl, rfl⟩
  · rename_i hroom
    have hcount := h.count
    refine ⟨⟨i :: free, ?_, ?_, ?_, ?_, h.owned.perm ?_⟩, rfl, rfl⟩
    · have hpushed := h.stack.push hi
      refine hpushed.congr ?_
      intro j _
      by_cases hji : j = i
      · subst hji
        simp [State.setBuffer]
      · simp [State.setBuffer, hji]
    · change st.buffCount + 1 = _
      rw [List.length_cons]
      omega
    · change st.buffCount + 1 ≤ maxBuffInp
      omega
    · intro j hj
      by_cases hji : j = i
      · subst hji
        simp [State.setBuffer]
      · have hmem := (List.mem_cons.mp hj).resolve_left hji
        simpa [State.setBuffer, hji] using h.clean j hmem
    · exact List.perm_middle.symm.append_right _

/-- `buff_ppop` leaves the buffer on top of the pool. -/
lemma Store.ppop (h : Store ex free st) (hpop : buffPop st size a = some (i, st')) :
    (buffPush st' i).rootBuff = some i := by
  have hroom : ¬ maxBuffInp ≤ st'.buffCount := by
    have hbound := h.bound
    unfold buffPop at hpop
    split at hpop
    · obtain ⟨-, rfl⟩ := Prod.mk.inj (Option.some.inj hpop)
      change ¬ maxBuffInp ≤ st.buffCount - 1
      omega
    · rename_i hroot
      have hstack := h.stack
      rw [hroot] at hstack
      have hcount := h.count
      rw [hstack.empty] at hcount
      split at hpop
      · cases hpop
      · split at hpop
        · cases hpop
        · obtain ⟨-, rfl⟩ := Prod.mk.inj (Option.some.inj hpop)
          change ¬ maxBuffInp ≤ st.buffCount
          rw [hcount]
          decide
  unfold buffPush
  rw [if_neg hroom]

end Store

/-- Slots that wait for a request have no buffer yet. -/
structure Fits (s : Slot) : Prop where
  request : s.cb = .request → held s = []
  recv : s.cb = .recvAndConnect → s.buff = none

/-- The callbacks that wait for a client, and those that wait for a remote. -/
def Cb.waits (cb : Cb) : Prop := cb = .request ∨ cb = .recvAndConnect

def Cb.dials (cb : Cb) : Prop := cb = .connect ∨ cb = .socksConn ∨ cb = .socksRecv

/-- The remote of a connection and its client have each other as pairs. -/
structure Serves (w : World) (slots : Nat → Slot) (r c : Nat) : Prop where
  client : (slots c).conn = false
  ready : ¬ Cb.waits (slots c).cb
  back : (w.items c).pair = some r

structure Tunnels (w : World) (slots : Nat → Slot) (v q : Nat) : Prop where
  back : (w.items q).pair = some v
  cb : (slots q).cb ≠ .udpTunnel
  remote : (slots v).conn = false → (slots q).conn = true

/-- What is known of slots and pairs. The slot `x` is at work with its request, and the remote `y`
is about to lose its client. -/
structure Net (x y : Option Nat) (w : World) (slots : Nat → Slot) : Prop where
  sound : Sound w
  live : ∀ v ∈ w.used, (w.items v).fd ≠ -1
  unused : ∀ v, v ∉ w.used → (w.items v).pair = none ∧ held (slots v) = []
  selfless : ∀ v, (w.items v).pair ≠ some v
  fits : ∀ v ∈ w.used, some v ≠ x → Fits (slots v)
  waiting : ∀ v ∈ w.used, Cb.waits (slots v).cb → (slots v).conn = false
  dialing : ∀ v ∈ w.used, Cb.dials (slots v).cb → (w.items v).pair ≠ none → (slots v).conn = true
  serves : ∀ r ∈ w.used, some r ≠ y → (slots r).conn = true → (slots r).cb ≠ .udpTunnel →
    ∀ c, (w.items r).pair = some c → Serves w slots r c
  tunnels : ∀ v ∈ w.used, some v ≠ y → (slots v).cb = .tunnel →
    ∀ q, (w.items v).pair = some q → Tunnels w slots v q

/-- Only `y` has the slot for its client. -/
def Alone (y : Option Nat) (w : World) (slots : Nat → Slot) (v : Nat) : Prop :=
  ∀ r ∈ w.used, (w.items r).pair = some v →
    (slots r).conn = true ∧ (slots r).cb ≠ .udpTunnel ∨ (slots r).cb = .tunnel → some r = y

section Net

variable {x y : Option Nat} {w w' : World} {slots : Nat → Slot} {v u p q r c : Nat} {s : Slot}
  {cb : Cb} {fd : Int} {ok : Bool}

lemma Net.used_of_pair (h : Net x y w slots) (hp : (w.items v).pair = some p) : v ∈ w.used := by
  by_contra hv
  cases hp.symm.trans (h.unused v hv).1

lemma Net.weaken (h : Net none y w slots) (x : Option Nat) : Net x y w slots :=
  { h with fits := fun v hv _ => h.fits v hv nofun }

lemma Net.exempt (h : Net x none w slots) (y : Option Nat) : Net x y w slots :=
  { h with
    serves := fun r hr _ => h.serves r hr nofun
    tunnels := fun v hv _ => h.tunnels v hv nofun }

/-- The slot at work is done with its request. -/
lemma Net.settle (h : Net (some v) y w slots) (hfits : Fits (slots v)) : Net x y w slots := by
  refine { h with fits := ?_ }
  intro u hu _
  by_cases huv : u = v
  · rw [huv]
    exact hfits
  · exact h.fits u hu (by simpa using huv)

/-- The slot at work has been deleted. -/
lemma Net.forget (h : Net (some v) y w slots) (hv : v ∉ w.used) : Net none y w slots := by
  refine { h with fits := ?_ }
  intro u hu _
  refine h.fits u hu ?_
  intro huv
  obtain rfl := Option.some.inj huv
  exact hv hu

/-- A remote goes on with another of its callbacks. -/
lemma Net.redial (h : Net x y w slots) (hv : v ∈ w.used) (hold : Cb.dials (slots v).cb)
    (hnew : Cb.dials cb) : Net x y w (Function.update slots v { slots v with cb := cb }) := by
  have hself : Function.update slots v { slots v with cb := cb } v = { slots v with cb := cb } :=
    Function.update_self _ _ _
  have hother : ∀ u, u ≠ v → Function.update slots v { slots v with cb := cb } u = slots u :=
    fun u hu => Function.update_of_ne hu _ _
  have hconns : ∀ u, (Function.update slots v { slots v with cb := cb } u).conn = (slots u).conn := by
    intro u
    by_cases huv : u = v
    · rw [huv, hself]
    · rw [hother u huv]
  have hneither : ∀ {cb : Cb}, Cb.dials cb → ¬ Cb.waits cb ∧ cb ≠ .udpTunnel ∧ cb ≠ .tunnel := by
    rintro cb (rfl | rfl | rfl) <;> simp [Cb.waits]
  obtain ⟨hwaits, hudp, htunnel⟩ := hneither hnew
  refine ⟨h.sound, h.live, ?_, h.selfless, ?_, ?_, ?_, ?_, ?_⟩
  · intro u hu
    have huv : u ≠ v := by
      rintro rfl
      exact hu hv
    rw [hother u huv]
    exact h.unused u hu
  · intro u hu hx
    by_cases huv : u = v
    · subst huv
      rw [hself]
      exact ⟨fun hcb => absurd (.inl hcb) hwaits, fun hcb => absurd (.inr hcb) hwaits⟩
    · rw [hother u huv]
      exact h.fits u hu hx
  · intro u hu hcb
    by_cases huv : u = v
    · subst huv
      rw [hself] at hcb
      exact absurd hcb hwaits
    · rw [hother u huv] at hcb ⊢
      exact h.waiting u hu hcb
  · intro u hu hcb
    rw [hconns]
    by_cases huv : u = v
    · subst huv
      exact h.dialing u hv hold
    · rw [hother u huv] at hcb
      exact h.dialing u hu hcb
  · intro r hr hy hconn hcb c hc
    rw [hconns] at hconn
    have hcb' : (slots r).cb ≠ .udpTunnel := by
      by_cases hrv : r = v
      · rw [hrv]
        exact (hneither hold).2.1
      · rwa [hother r hrv] at hcb
    obtain ⟨h1, h2, h3⟩ := h.serves r hr hy hconn hcb' c hc
    refine ⟨by rw [hconns]; exact h1, ?_, h3⟩
    by_cases hcv : c = v
    · rw [hcv, hself]
      exact hwaits
    · rw [hother c hcv]
      exact h2
  · intro u hu hy hcb q hq
    have huv : u ≠ v := by
      rintro rfl
      rw [hself] at hcb
      exact htunnel hcb
    rw [hother u huv] at hcb
    obtain ⟨h1, h2, h3⟩ := h.tunnels u hu hy hcb q hq
    refine ⟨h1, ?_, by simpa only [hconns] using h3⟩
    by_cases hqv : q = v
    · rw [hqv, hself]
      exact hudp
    · rw [hother q hqv]
      exact h2

lemma Net.congr (h : Net x y w slots) (hitems : w'.items = w.items) (hused : w'.used = w.used)
    (hfree : w'.free = w.free) : Net x y w' slots := by
  have hs : Sound w' := h.sound.of_items hused hfree fun u => by rw [hitems]
  refine ⟨hs, ?_, ?_, ?_, ?_, ?_, ?_, ?_, ?_⟩ <;> simp only [hused, hitems]
  · exact h.live
  · exact h.unused
  · exact h.selfless
  · exact h.fits
  · exact h.waiting
  · exact h.dialing
  · intro r hr hy hconn hcb c hc
    obtain ⟨h1, h2, h3⟩ := h.serves r hr hy hconn hcb c hc
    exact ⟨h1, h2, by rw [hitems]; exact h3⟩
  · intro v hv hy hcb q hq
    obtain ⟨h1, h2, h3⟩ := h.tunnels v hv hy hcb q hq
    exact ⟨by rw [hitems]; exact h1, h2, h3⟩

/-- A slot that is used holds something else, with its callback as it was. -/
lemma Net.hold (h : Net x y w slots) (hv : v ∈ w.used) (hcb : s.cb = (slots v).cb)
    (hconn : s.conn = (slots v).conn) (hfits : some v ≠ x → Fits s) :
    Net x y w (Function.update slots v s) := by
  have hcbs : ∀ u, (Function.update slots v s u).cb = (slots u).cb := by
    intro u
    by_cases huv : u = v
    · rw [huv, Function.update_self, hcb]
    · rw [Function.update_of_ne huv]
  have hconns : ∀ u, (Function.update slots v s u).conn = (slots u).conn := by
    intro u
    by_cases huv : u = v
    · rw [huv, Function.update_self, hconn]
    · rw [Function.update_of_ne huv]
  refine ⟨h.sound, h.live, ?_, h.selfless, ?_, ?_, ?_, ?_, ?_⟩
  · intro u hu
    have huv : u ≠ v := by
      rintro rfl
      exact hu hv
    rw [Function.update_of_ne huv]
    exact h.unused u hu
  · intro u hu hx
    by_cases huv : u = v
    · subst huv
      rw [Function.update_self]
      exact hfits hx
    · rw [Function.update_of_ne huv]
      exact h.fits u hu hx
  · simpa only [hcbs, hconns] using h.waiting
  · simpa only [hcbs, hconns] using h.dialing
  · intro r hr hy hr1 hr2 c hc
    rw [hconns] at hr1
    rw [hcbs] at hr2
    obtain ⟨h1, h2, h3⟩ := h.serves r hr hy hr1 hr2 c hc
    exact ⟨by rw [hconns]; exact h1, by rw [hcbs]; exact h2, h3⟩
  · intro a ha hy ha1 q hq
    rw [hcbs] at ha1
    obtain ⟨h1, h2, h3⟩ := h.tunnels a ha hy ha1 q hq
    exact ⟨h1, by rw [hcbs]; exact h2, by simpa only [hconns] using h3⟩

/-- The first free slot is cleared, and it comes into use or not. -/
lemma Net.add (h : Net x y w slots) {free : List Nat} (hfree : w.free = p :: free) (hfd : 0 < fd)
    (cb : Cb) (ok : Bool) :
    Net x y (Pool.addEvent w fd ok).2 (Function.update slots p { cb := cb }) := by
  have hp := free_not_used h.sound hfree
  have hadded := addEvent_added h.sound hfree fd ok
  have hpair : ((Pool.addEvent w fd ok).2.items p).pair = none := by
    cases ok <;> simp [Pool.addEvent, hfree]
  have hself : Function.update slots p { cb := cb } p = { cb := cb } := Function.update_self _ _ _
  have hother : ∀ u, u ≠ p → Function.update slots p { cb := cb } u = slots u :=
    fun u hu => Function.update_of_ne hu _ _
  have hold : ∀ u q, ((Pool.addEvent w fd ok).2.items u).pair = some q →
      u ≠ p ∧ (w.items u).pair = some q := by
    intro u q hq
    have hup : u ≠ p := by
      rintro rfl
      cases hpair.symm.trans hq
    rw [hadded.items u hup] at hq
    exact ⟨hup, hq⟩
  have hne : ∀ {u q}, (w.items u).pair = some q → u ≠ p := by
    rintro u q hq rfl
    exact hp (h.used_of_pair hq)
  generalize hw' : (Pool.addEvent w fd ok).2 = w' at hadded hpair hold ⊢
  have hused : ∀ u ∈ w'.used, u ≠ p → u ∈ w.used := fun u hu hup =>
    (hadded.used u hu).resolve_right hup
  refine ⟨hadded.sound, ?_, ?_, ?_, ?_, ?_, ?_, ?_, ?_⟩
  · intro u hu
    by_cases hup : u = p
    · rw [hup, hadded.fd]
      omega
    · rw [hadded.items u hup]
      exact h.live u (hused u hu hup)
  · intro u hu
    by_cases hup : u = p
    · rw [hup, hself]
      exact ⟨hpair, rfl⟩
    · rw [hadded.items u hup, hother u hup]
      exact h.unused u fun hold => hu (hadded.kept u hold)
  · intro u hq
    exact h.selfless u (hold u u hq).2
  · intro u hu hx
    by_cases hup : u = p
    · rw [hup, hself]
      exact ⟨fun _ => rfl, fun _ => rfl⟩
    · rw [hother u hup]
      exact h.fits u (hused u hu hup) hx
  · intro u hu
    by_cases hup : u = p
    · rw [hup, hself]
      exact fun _ => rfl
    · rw [hother u hup]
      exact h.waiting u (hused u hu hup)
  · intro u hu hcb hne
    obtain ⟨q, hq⟩ := Option.ne_none_iff_exists'.mp hne
    obtain ⟨hup, hq⟩ := hold u q hq
    rw [hother u hup] at hcb ⊢
    exact h.dialing u (hused u hu hup) hcb (by simp [hq])
  · intro r hr hy hconn hcb c hc
    obtain ⟨hrp, hc⟩ := hold r c hc
    rw [hother r hrp] at hconn hcb
    obtain ⟨h1, h2, h3⟩ := h.serves r (hused r hr hrp) hy hconn hcb c hc
    have hcp := hne h3
    exact ⟨by rw [hother c hcp]; exact h1, by rw [hother c hcp]; exact h2,
      by rw [hadded.items c hcp]; exact h3⟩
  · intro v hv hy hcb q hq
    obtain ⟨hvp, hq⟩ := hold v q hq
    rw [hother v hvp] at hcb
    obtain ⟨h1, h2, h3⟩ := h.tunnels v (hused v hv hvp) hy hcb q hq
    have hqp := hne h1
    exact ⟨by rw [hadded.items q hqp]; exact h1, by rw [hother q hqp]; exact h2,
      by rw [hother v hvp, hother q hqp]; exact h3⟩

lemma Net.alone (h : Net x none w slots) (hv : v ∈ w.used) (hcb : Cb.waits (slots v).cb) :
    Alone none w slots v := by
  rintro r hr hp (⟨hconn, hudp⟩ | htunnel)
  · exact absurd hcb (h.serves r hr nofun hconn hudp v hp).ready
  · cases hconn : (slots r).conn with
    | true =>
      have hudp : (slots r).cb ≠ .udpTunnel := by
        rw [htunnel]
        decide
      exact absurd hcb (h.serves r hr nofun hconn hudp v hp).ready
    | false =>
      have hremote := (h.tunnels r hr nofun htunnel v hp).remote hconn
      rw [h.waiting v hv hcb] at hremote
      cases hremote

/-- A remote's client is no other slot's. -/
lemma Net.alone_client (h : Net x none w slots) (hr : r ∈ w.used) (hconn : (slots r).conn = true)
    (hudp : (slots r).cb ≠ .udpTunnel) (hc : (w.items r).pair = some c) :
    Alone (some r) w slots c := by
  have hserves := h.serves r hr nofun hconn hudp c hc
  rintro a ha hp (⟨hconn, hudp⟩ | htunnel)
  · have hback := (h.serves a ha nofun hconn hudp c hp).back
    exact hback.symm.trans hserves.back
  · have hback := (h.tunnels a ha nofun htunnel c hp).back
    exact hback.symm.trans hserves.back

/-- Some slots get other pairs and callbacks; no slot beside them has one of them for its pair. -/
structure Rewired (x y y' : Option Nat) (S : Nat → Prop) (w w' : World)
    (slots slots' : Nat → Slot) : Prop where
  sound : Sound w'
  used : w'.used = w.used
  fd : ∀ u, (w'.items u).fd = (w.items u).fd
  mem : ∀ u, S u → u ∈ w.used
  slot : ∀ u, ¬ S u → slots' u = slots u
  pair : ∀ u, ¬ S u → (w'.items u).pair = (w.items u).pair
  apart : ∀ u, S u → ∀ r ∈ w.used, ¬ S r → (w.items r).pair = some u →
    (slots r).conn = true ∧ (slots r).cb ≠ .udpTunnel ∨ (slots r).cb = .tunnel → some r = y
  exempt : ∀ r, ¬ S r → some r = y → some r = y'
  selfless : ∀ u, S u → (w'.items u).pair ≠ some u
  fits : ∀ u, S u → some u ≠ x → Fits (slots' u)
  waiting : ∀ u, S u → Cb.waits (slots' u).cb → (slots' u).conn = false
  dialing : ∀ u, S u → Cb.dials (slots' u).cb → (w'.items u).pair ≠ none → (slots' u).conn = true
  serves : ∀ r, S r → some r ≠ y' → (slots' r).conn = true → (slots' r).cb ≠ .udpTunnel →
    ∀ c, (w'.items r).pair = some c → Serves w' slots' r c
  tunnels : ∀ v, S v → some v ≠ y' → (slots' v).cb = .tunnel →
    ∀ q, (w'.items v).pair = some q → Tunnels w' slots' v q

lemma Net.rewire {y' : Option Nat} {S : Nat → Prop} {slots' : Nat → Slot} (h : Net x y w slots)
    (hr : Rewired x y y' S w w' slots slots') : Net x y' w' slots' := by
  have hnot : ∀ u, u ∉ w.used → ¬ S u := fun u hu hS => hu (hr.mem u hS)
  have hmem : ∀ u, u ∈ w'.used → u ∈ w.used := fun u hu => by rwa [← hr.used]
  refine ⟨hr.sound, ?_, ?_, ?_, ?_, ?_, ?_, ?_, ?_⟩
  · intro u hu
    rw [hr.fd]
    exact h.live u (hmem u hu)
  · intro u hu
    rw [hr.used] at hu
    rw [hr.pair u (hnot u hu), hr.slot u (hnot u hu)]
    exact h.unused u hu
  · intro u
    by_cases hS : S u
    · exact hr.selfless u hS
    · rw [hr.pair u hS]
      exact h.selfless u
  · intro u hu hx
    by_cases hS : S u
    · exact hr.fits u hS hx
    · rw [hr.slot u hS]
      exact h.fits u (hmem u hu) hx
  · intro u hu
    by_cases hS : S u
    · exact hr.waiting u hS
    · rw [hr.slot u hS]
      exact h.waiting u (hmem u hu)
  · intro u hu
    by_cases hS : S u
    · exact hr.dialing u hS
    · rw [hr.slot u hS, hr.pair u hS]
      exact h.dialing u (hmem u hu)
  · intro u hu hy hconn hudp c hc
    by_cases hS : S u
    · exact hr.serves u hS hy hconn hudp c hc
    rw [hr.slot u hS] at hconn hudp
    rw [hr.pair u hS] at hc
    have hy : some u ≠ y := fun hyu => hy (hr.exempt u hS hyu)
    have hSc : ¬ S c := fun hSc =>
      hy (hr.apart c hSc u (hmem u hu) hS hc (.inl ⟨hconn, hudp⟩))
    obtain ⟨h1, h2, h3⟩ := h.serves u (hmem u hu) hy hconn hudp c hc
    exact ⟨by rw [hr.slot c hSc]; exact h1, by rw [hr.slot c hSc]; exact h2,
      by rw [hr.pair c hSc]; exact h3⟩
  · intro u hu hy hcb q hq
    by_cases hS : S u
    · exact hr.tunnels u hS hy hcb q hq
    rw [hr.slot u hS] at hcb
    rw [hr.pair u hS] at hq
    have hy : some u ≠ y := fun hyu => hy (hr.exempt u hS hyu)
    have hSq : ¬ S q := fun hSq => hy (hr.apart q hSq u (hmem u hu) hS hq (.inr hcb))
    obtain ⟨h1, h2, h3⟩ := h.tunnels u (hmem u hu) hy hcb q hq
    exact ⟨by rw [hr.pair q hSq]; exact h1, by rw [hr.slot q hSq]; exact h2,
      by rw [hr.slot u hS, hr.slot q hSq]; exact h3⟩

/-- A slot without a pair is no slot's client or remote. -/
lemma Net.unpaired (h : Net x y w slots) (hnone : (w.items p).pair = none) (hr : r ∈ w.used)
    (hp : (w.items r).pair = some p)
    (hcase : (slots r).conn = true ∧ (slots r).cb ≠ .udpTunnel ∨ (slots r).cb = .tunnel) :
    some r = y := by
  by_contra hy
  rcases hcase with ⟨hconn, hudp⟩ | htunnel
  · cases hnone.symm.trans (h.serves r hr hy hconn hudp p hp).back
  · cases hnone.symm.trans (h.tunnels r hr hy htunnel p hp).back

/-- `val->pair = pair`, `pair->pair = val`, and their callbacks -/
lemma Net.link (h : Net x y w slots) (hv : v ∈ w.used) (hconn : (slots v).conn = false)
    (halone : Alone y w slots v) (hp : p ∈ w.used) (hnone : (w.items p).pair = none)
    (hempty : held (slots p) = []) (hvp : v ≠ p)
    (hcb : (slots p).cb = .connect ∨ (slots p).cb = .socksConn) :
    Net x y (setPair (setPair w v p) p v)
      (Function.update (Function.update slots p { slots p with conn := true }) v
        { slots v with cb := .ignore }) := by
  have hpv : p ≠ v := hvp.symm
  have hsv : Function.update (Function.update slots p { slots p with conn := true }) v
      { slots v with cb := .ignore } v = { slots v with cb := .ignore } := Function.update_self _ _ _
  have hsp : Function.update (Function.update slots p { slots p with conn := true }) v
      { slots v with cb := .ignore } p = { slots p with conn := true } := by
    rw [Function.update_of_ne hpv, Function.update_self]
  have hpairv : ((setPair (setPair w v p) p v).items v).pair = some p := by
    rw [setPair, setItem_of_ne hvp, setPair, setItem_self]
  have hpairp : ((setPair (setPair w v p) p v).items p).pair = some v := by
    rw [setPair, setItem_self]
  have hother : ∀ u, ¬ (u = v ∨ u = p) → u ≠ v ∧ u ≠ p := fun u hu => not_or.mp hu
  refine h.rewire (S := fun u => u = v ∨ u = p) ⟨?_, rfl, ?_, ?_, ?_, ?_, ?_, fun _ _ hy => hy,
    ?_, ?_, ?_, ?_, ?_, ?_⟩
  · exact h.sound.of_items rfl rfl fun u =>
      (setItem_field Eval.index (by rfl) u).trans (setItem_field Eval.index (by rfl) u)
  · intro u
    exact (Closing.setPair_fd u).trans (Closing.setPair_fd u)
  · rintro u (rfl | rfl) <;> assumption
  · intro u hu
    rw [Function.update_of_ne (hother u hu).1, Function.update_of_ne (hother u hu).2]
  · intro u hu
    rw [setPair, setItem_of_ne (hother u hu).2, setPair, setItem_of_ne (hother u hu).1]
  · rintro u (rfl | rfl) r hr - hpair hcase
    · exact halone r hr hpair hcase
    · exact h.unpaired hnone hr hpair hcase
  · rintro u (rfl | rfl)
    · rw [hpairv]
      simpa using hpv
    · rw [hpairp]
      simpa using hvp
  · rintro u (rfl | rfl) -
    · rw [hsv]
      exact ⟨nofun, nofun⟩
    · rw [hsp]
      exact ⟨fun _ => hempty, fun _ =>
        Option.toList_eq_nil_iff.mp (List.append_eq_nil_iff.mp hempty).1⟩
  · rintro u (rfl | rfl) hwaits
    · rw [hsv]
      exact hconn
    · rw [hsp] at hwaits
      rcases hcb with hcb | hcb <;> simp [Cb.waits, hcb] at hwaits
  · rintro u (rfl | rfl) hdials -
    · rw [hsv] at hdials
      simp [Cb.dials] at hdials
    · rw [hsp]
  · rintro r (rfl | rfl) - hrconn - c hc
    · rw [hsv] at hrconn
      exact absurd hrconn (by simp [hconn])
    · rw [hpairp, Option.some.injEq] at hc
      subst hc
      exact ⟨by rw [hsv]; exact hconn, by simp [Cb.waits], hpairv⟩
  · rintro a (rfl | rfl) - hacb
    · rw [hsv] at hacb
      cases hacb
    · rw [hsp] at hacb
      rcases hcb with hcb | hcb <;> cases hcb.symm.trans hacb

/-- `val->pair = client`, `client->pair = pair`, `pair->pair = val`, and their callbacks -/
lemma Net.ring (h : Net x y w slots) (hv : v ∈ w.used) (hconn : (slots v).conn = false)
    (halone : Alone y w slots v) (hp : p ∈ w.used) (hc : c ∈ w.used) (hvp : v ≠ p) (hvc : v ≠ c)
    (hpc : p ≠ c) (hpnone : (w.items p).pair = none) (hcnone : (w.items c).pair = none)
    (hps : slots p = { cb := .udpTunnel }) (hcs : slots c = { cb := .udpTunnel }) :
    Net x y (setPair (setPair (setPair w v c) c p) p v)
      (Function.update (Function.update slots c { slots c with conn := true }) v
        { slots v with cb := .ignore }) := by
  have hsv : Function.update (Function.update slots c { slots c with conn := true }) v
      { slots v with cb := .ignore } v = { slots v with cb := .ignore } := Function.update_self _ _ _
  have hsc : Function.update (Function.update slots c { slots c with conn := true }) v
      { slots v with cb := .ignore } c = { cb := .udpTunnel, conn := true } := by
    rw [Function.update_of_ne hvc.symm, Function.update_self, hcs]
  have hsp : Function.update (Function.update slots c { slots c with conn := true }) v
      { slots v with cb := .ignore } p = { cb := .udpTunnel } := by
    rw [Function.update_of_ne hvp.symm, Function.update_of_ne hpc, hps]
  have hpairv : ((setPair (setPair (setPair w v c) c p) p v).items v).pair = some c := by
    rw [setPair, setItem_of_ne hvp, setPair, setItem_of_ne hvc, setPair, setItem_self]
  have hpairc : ((setPair (setPair (setPair w v c) c p) p v).items c).pair = some p := by
    rw [setPair, setItem_of_ne hpc.symm, setPair, setItem_self]
  have hpairp : ((setPair (setPair (setPair w v c) c p) p v).items p).pair = some v := by
    rw [setPair, setItem_self]
  refine h.rewire (S := fun u => u = v ∨ u = c ∨ u = p) ⟨?_, rfl, ?_, ?_, ?_, ?_, ?_,
    fun _ _ hy => hy, ?_, ?_, ?_, ?_, ?_, ?_⟩
  · exact h.sound.of_items rfl rfl fun u =>
      ((setItem_field Eval.index (by rfl) u).trans (setItem_field Eval.index (by rfl) u)).trans
        (setItem_field Eval.index (by rfl) u)
  · intro u
    exact ((Closing.setPair_fd u).trans (Closing.setPair_fd u)).trans (Closing.setPair_fd u)
  · rintro u (rfl | rfl | rfl) <;> assumption
  · intro u hu
    simp only [not_or] at hu
    rw [Function.update_of_ne hu.1, Function.update_of_ne hu.2.1]
  · intro u hu
    simp only [not_or] at hu
    rw [setPair, setItem_of_ne hu.2.2, setPair, setItem_of_ne hu.2.1, setPair,
      setItem_of_ne hu.1]
  · rintro u (rfl | rfl | rfl) r hr - hpair hcase
    · exact halone r hr hpair hcase
    · exact h.unpaired hcnone hr hpair hcase
    · exact h.unpaired hpnone hr hpair hcase
  · rintro u (rfl | rfl | rfl)
    · rw [hpairv]
      simpa using hvc.symm
    · rw [hpairc]
      simpa using hpc
    · rw [hpairp]
      simpa using hvp
  · rintro u (rfl | rfl | rfl) -
    · rw [hsv]
      exact ⟨nofun, nofun⟩
    · rw [hsc]
      exact ⟨nofun, nofun⟩
    · rw [hsp]
      exact ⟨nofun, nofun⟩
  · rintro u (rfl | rfl | rfl) hwaits
    · rw [hsv]
      exact hconn
    · simp [hsc, Cb.waits] at hwaits
    · rw [hsp]
  · rintro u (rfl | rfl | rfl) hdials -
    · simp [Cb.dials] at hdials
    · rw [hsc]
    · simp [hsp, Cb.dials] at hdials
  · rintro r (rfl | rfl | rfl) - hrconn hudp
    · rw [hsv] at hrconn
      exact absurd hrconn (by simp [hconn])
    · exact absurd (by rw [hsc]) hudp
    · exact absurd (by rw [hsp]) hudp
  · rintro a (rfl | rfl | rfl) - hacb
    · simp at hacb
    · simp [hsc] at hacb
    · simp [hsp] at hacb

/-- The client is told to go on before there is a remote. -/
lemma Net.delay (h : Net x y w slots) (hv : v ∈ w.used) (hconn : (slots v).conn = false)
    (halone : Alone y w slots v) (hbuff : (slots v).buff = none) :
    Net x y w (Function.update slots v { slots v with cb := .recvAndConnect }) := by
  have hsv : Function.update slots v { slots v with cb := .recvAndConnect } v =
      { slots v with cb := .recvAndConnect } := Function.update_self _ _ _
  refine h.rewire (S := fun u => u = v) ⟨h.sound, rfl, fun _ => rfl, ?_, ?_, fun _ _ => rfl, ?_,
    fun _ _ hy => hy, fun u _ => h.selfless u, ?_, ?_, ?_, ?_, ?_⟩
  · rintro u rfl
    exact hv
  · intro u hu
    exact Function.update_of_ne hu _ _
  · rintro u rfl r hr - hpair hcase
    exact halone r hr hpair hcase
  · rintro u rfl -
    rw [hsv]
    exact ⟨nofun, fun _ => hbuff⟩
  · rintro u rfl -
    rw [hsv]
    exact hconn
  · rintro u rfl hdials
    simp [Cb.dials] at hdials
  · rintro u rfl - hrconn
    rw [hsv] at hrconn
    exact absurd hrconn (by simp [hconn])
  · rintro u rfl - hcb
    simp at hcb

/-- The remote loses its client, which has ceased to have it for its pair. -/
lemma Net.leave (h : Net x (some r) w slots) (hr : r ∈ w.used) (hconn : (slots r).conn = true)
    (hpair : (w.items r).pair = some c) (hcb : (slots c).cb ≠ .tunnel) :
    Net x none (w.setItem r { w.items r with pair := none }) slots := by
  have hnone : ((w.setItem r { w.items r with pair := none }).items r).pair = none := by
    rw [setItem_self]
  refine h.rewire (S := fun u => u = r) ⟨?_, rfl, setItem_field Eval.fd rfl, ?_, fun _ _ => rfl, ?_,
    ?_, ?_, ?_, ?_, ?_, ?_, ?_, ?_⟩
  · exact h.sound.of_items rfl rfl (setItem_field Eval.index rfl)
  · rintro u rfl
    exact hr
  · intro u hu
    rw [setItem_of_ne hu]
  · rintro u rfl a ha hau hp (⟨haconn, hudp⟩ | htunnel)
    · by_contra hy
      have hclient := (h.serves a ha hy haconn hudp u hp).client
      rw [hconn] at hclient
      cases hclient
    · by_contra hy
      have hback := (h.tunnels a ha hy htunnel u hp).back
      rw [hpair, Option.some.injEq] at hback
      exact hcb (hback ▸ htunnel)
  · intro u hu hy
    exact absurd (Option.some.inj hy) hu
  · rintro u rfl
    rw [hnone]
    nofun
  · rintro u rfl hx
    exact h.fits u hr hx
  · rintro u rfl
    exact h.waiting u hr
  · rintro u rfl - hne
    exact absurd hnone hne
  · rintro u rfl - - - c hc
    cases hnone.symm.trans hc
  · rintro u rfl - - q hq
    cases hnone.symm.trans hq

/-- `on_connect` for both slots -/
lemma Net.connected (h : Net x none w slots) (hr : r ∈ w.used) (hconn : (slots r).conn = true)
    (hudp : (slots r).cb ≠ .udpTunnel) (hpair : (w.items r).pair = some c) :
    Net x none w (Function.update (Function.update slots r { slots r with cb := .tunnel }) c
      { slots c with cb := .tunnel }) := by
  obtain ⟨hclient, -, hback⟩ := h.serves r hr nofun hconn hudp c hpair
  have hc := h.used_of_pair hback
  have hrc : r ≠ c := by
    rintro rfl
    rw [hconn] at hclient
    cases hclient
  have hsc : Function.update (Function.update slots r { slots r with cb := .tunnel }) c
      { slots c with cb := .tunnel } c = { slots c with cb := .tunnel } := Function.update_self _ _ _
  have hsr : Function.update (Function.update slots r { slots r with cb := .tunnel }) c
      { slots c with cb := .tunnel } r = { slots r with cb := .tunnel } := by
    rw [Function.update_of_ne hrc, Function.update_self]
  refine h.rewire (S := fun u => u = r ∨ u = c) ⟨h.sound, rfl, fun _ => rfl, ?_, ?_, fun _ _ => rfl,
    ?_, fun _ _ hy => hy, fun u _ => h.selfless u, ?_, ?_, ?_, ?_, ?_⟩
  · rintro u (rfl | rfl) <;> assumption
  · intro u hu
    rw [not_or] at hu
    rw [Function.update_of_ne hu.2, Function.update_of_ne hu.1]
  · rintro u (rfl | rfl) a ha hau hp hcase
    · rw [not_or] at hau
      rcases hcase with ⟨haconn, haudp⟩ | htunnel
      · have hno := (h.serves a ha nofun haconn haudp u hp).client
        rw [hconn] at hno
        cases hno
      · have hno := (h.tunnels a ha nofun htunnel u hp).back
        rw [hpair, Option.some.injEq] at hno
        exact absurd hno.symm hau.2
    · rw [not_or] at hau
      exact absurd (Option.some.inj (h.alone_client hr hconn hudp hpair a ha hp hcase)) hau.1
  · rintro u (rfl | rfl) -
    · rw [hsr]
      exact ⟨nofun, nofun⟩
    · rw [hsc]
      exact ⟨nofun, nofun⟩
  · rintro u (rfl | rfl) hwaits
    · simp [hsr, Cb.waits] at hwaits
    · simp [Cb.waits] at hwaits
  · rintro u (rfl | rfl) hdials
    · simp [hsr, Cb.dials] at hdials
    · simp [Cb.dials] at hdials
  · rintro u (rfl | rfl) - huconn - a ha
    · rw [hpair, Option.some.injEq] at ha
      subst ha
      exact ⟨by rw [hsc]; exact hclient, by simp [Cb.waits], hback⟩
    · rw [hsc] at huconn
      exact absurd huconn (by simp [hclient])
  · rintro u (rfl | rfl) - - a ha
    · rw [hpair, Option.some.injEq] at ha
      subst ha
      refine ⟨hback, by simp, ?_⟩
      rw [hsr, hsc]
      exact fun hno => absurd hconn (by simpa using hno)
    · rw [hback, Option.some.injEq] at ha
      subst ha
      refine ⟨hpair, by simp [hsr], ?_⟩
      rw [hsr]
      exact fun _ => hconn

end Net

end BufferOwners
