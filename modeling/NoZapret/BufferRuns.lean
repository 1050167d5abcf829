import NoZapret.BufferHooks
import NoZapret.Library.Runs

/-!
# Buffers over runs of the event loop

What every callback does to the owners of the buffers, and from it that no run loses a buffer or
gives it to two owners, as long as pairs lead a deletion to no slot that is not in use.
`reconnect` can leave such a pair behind.
-/

namespace BufferRuns

open Buffers BufferOwners BufferMoves BufferHooks Resources Runs
open Pool hiding Buffer delEvent delEventFrom addEvent
open Closing (openable setPair)
open PoolRuns (NoStray)

section Relay

variable {p : Params} {st st' : State} {x gone : Option Nat} {v q i j n : Nat} {m : Int}
  {b : Bool} {room : Option Nat}

lemma setSlot_buff (st : State) (v : Nat) {s : Slot} (h : s.buff = (st.slots v).buff) (u : Nat) :
    ((st.setSlot v s).slots u).buff = (st.slots u).buff := by
  by_cases huv : u = v
  · subst huv
    simp [State.setSlot, h]
  · simp [State.setSlot, huv]

lemma setSlot_cb (st : State) (v : Nat) {s : Slot} (h : s.cb = (st.slots v).cb) (u : Nat) :
    ((st.setSlot v s).slots u).cb = (st.slots u).cb := by
  by_cases huv : u = v
  · subst huv
    simp [State.setSlot, h]
  · simp [State.setSlot, huv]

lemma quiet_write (h : Inv x none st) (hi : i ∈ held (st.slots v)) (b : Buffers.Buffer) :
    Quiet x st (st.setBuffer i b) := ⟨h.write hi b, fun _ => rfl, fun _ => rfl⟩

lemma quiet_received (h : Inv x none st) (hv : v ∈ st.w.used) (n : Nat) :
    Quiet x st (st.received v n) :=
  ⟨h.count hv _, setSlot_buff st v rfl, setSlot_cb st v rfl⟩

lemma quiet_freeFirstReq (h : Inv x none st) (v : Nat) : Quiet x st (freeFirstReq st v) := by
  refine ⟨h.freeFirstReq v, ?_, ?_⟩ <;> rw [freeFirstReq_slots]
  · exact setSlot_buff st v rfl
  · exact setSlot_cb st v rfl

lemma quiet_extend (h : Inv x none st) (hj : j ∈ held (st.slots v)) (n : Nat) :
    Quiet x st (extend st v j n) := by
  unfold extend
  dsimp only
  split
  · exact (quiet_write h hj _).trans (quiet_freeFirstReq (h.write hj _) v)
  · exact quiet_write h hj _

/-- The client's request is saved beside the bytes that are forwarded. -/
lemma quiet_saveRequest (h : Inv x none st) (hbuff : (st.slots v).buff = some i) :
    Quiet x st (saveRequest st v i n room).2 := by
  unfold saveRequest
  split
  · rename_i j hsaved
    exact quiet_extend h (mem_held_sqBuff hsaved) n
  rename_i hsaved
  split
  · exact quiet_refl h
  rename_i j st₁ hpop
  have hv := h.used_of_held (mem_held_buff hbuff)
  have hrequest : some v ≠ x → (st.slots v).cb ≠ .request := by
    intro hx hno
    have hempty := (h.net.fits v hv hx).request hno
    simp [held, hbuff] at hempty
  obtain ⟨htaken, -, hslots⟩ := h.takeSqBuff hpop hv hsaved hrequest
  have hself : (st₁.setSqBuff v (some j)).slots v = { st.slots v with sqBuff := some j } := by
    rw [hslots, Function.update_self]
  have hquiet : Quiet x st (st₁.setSqBuff v (some j)) := by
    refine ⟨htaken, ?_, ?_⟩ <;> rw [hslots]
    · exact setSlot_buff st v rfl
    · exact setSlot_cb st v rfl
  refine hquiet.trans (quiet_extend htaken ?_ n)
  rw [hself]
  simp [held]

/-- What `tcp_recv_hook` leaves; a client keeps its callback. -/
lemma tcpRecvHook_keeps {a : Recv} (h : Inv x none st) (hudp : (st.slots v).cb ≠ .udpTunnel)
    (hbuff : (st.slots v).buff = some i) (hr : tcpRecvHook p st v i a = some (m, st')) :
    Inv x none st' ∧ (0 < m → Keeps x none st st') ∧
      ((st.slots v).conn = false → (st'.slots v).cb = (st.slots v).cb) := by
  have hended : ∀ {r : Option (Bool × State)},
      (∀ b s, r = some (b, s) → Keeps x (if b then some v else none) st s ∧
        ((st.slots v).conn = false → b = false ∧ s = st)) → r.map code = some (m, st') →
      Inv x none st' ∧ (0 < m → Keeps x none st st') ∧
        ((st.slots v).conn = false → (st'.slots v).cb = (st.slots v).cb) := by
    intro r hspec hcode
    obtain ⟨⟨b, s⟩, rfl, heq⟩ := Option.map_eq_some_iff.mp hcode
    obtain ⟨rfl, rfl⟩ := Prod.mk.inj heq
    obtain ⟨hkeeps, hsame⟩ := hspec b s rfl
    refine ⟨hkeeps.inv, ?_, ?_⟩
    · intro hpos
      cases b <;> simp at hpos
    · intro hconn
      rw [(hsame hconn).2]
  cases a with
  | eof f => exact hended (fun b s hs => onFin_keeps h hudp hs) hr
  | again =>
    obtain ⟨rfl, rfl⟩ := Prod.mk.inj (Option.some.inj hr)
    exact ⟨h, fun hpos => absurd hpos (by decide), fun _ => rfl⟩
  | failed f => exact hended (fun b s hs => handleErr_keeps h hudp hs) hr
  | bytes n settled response room =>
    have hv := h.used_of_held (mem_held_buff hbuff)
    have hquiet := quiet_received h hv n
    have hkeeps := (keeps_refl h none).quiet hquiet
    have hbuff₁ : ((st.received v n).slots v).buff = some i := (hquiet.buff v).trans hbuff
    have hcb₁ : ((st.received v n).slots v).cb = (st.slots v).cb := hquiet.cb v
    have hconn₁ : ((st.received v n).slots v).conn = (st.slots v).conn := by
      simp [State.received, State.setSlot]
    unfold tcpRecvHook at hr
    dsimp only at hr
    generalize st.received v n = st₁ at hr hquiet hkeeps hbuff₁ hcb₁ hconn₁
    have hdone : some ((n : Int), st₁) = some (m, st') → Inv x none st' ∧
        (0 < m → Keeps x none st st') ∧
          ((st.slots v).conn = false → (st'.slots v).cb = (st.slots v).cb) := by
      intro heq
      obtain ⟨-, rfl⟩ := Prod.mk.inj (Option.some.inj heq)
      exact ⟨hkeeps.inv, fun _ => hkeeps, fun _ => hcb₁⟩
    split at hr
    · rename_i hconn
      have hremote : (st.slots v).conn ≠ false := by
        rw [← hconn₁, hconn]
        decide
      split at hr
      · cases hr
      rename_i c hpair
      split at hr
      · obtain ⟨rfl, rfl⟩ := Prod.mk.inj (Option.some.inj hr)
        exact ⟨hkeeps.inv, fun _ => hkeeps, fun hno => absurd hno hremote⟩
      split at hr
      · exact hdone hr
      split at hr
      · obtain ⟨-, rfl⟩ := Prod.mk.inj (Option.some.inj hr)
        have hfreed := hkeeps.quiet (quiet_freeFirstReq hkeeps.inv c)
        exact ⟨hfreed.inv, fun _ => hfreed, fun hno => absurd hno hremote⟩
      · obtain ⟨⟨b, st₂⟩, htrigger, hr⟩ := Option.bind_eq_some_iff.mp hr
        have hkept := onTrigger_keeps hkeeps.inv (by rwa [hcb₁]) htrigger
        cases b with
        | true =>
          obtain ⟨rfl, rfl⟩ := Prod.mk.inj (Option.some.inj hr)
          exact ⟨hkept.inv, fun hno => absurd hno (by decide), fun hno => absurd hno hremote⟩
        | false =>
          obtain ⟨c', -, heq⟩ := Option.map_eq_some_iff.mp hr
          obtain ⟨-, rfl⟩ := Prod.mk.inj heq
          have hfreed := (hkeeps.trans hkept).quiet (quiet_freeFirstReq hkept.inv c')
          exact ⟨hfreed.inv, fun _ => hfreed, fun hno => absurd hno hremote⟩
    split at hr
    · have hsaved : Quiet x st₁ (saveRequest st₁ v i n room).2 :=
        quiet_saveRequest hkeeps.inv hbuff₁
      rw [Option.some.inj hr] at hsaved
      exact ⟨hsaved.inv, fun _ => hkeeps.quiet hsaved, fun _ => (hsaved.cb v).trans hcb₁⟩
    · exact hdone hr

lemma tcpSendHook_keeps {a : Send} (h : Inv x none st) (hudp : (st.slots q).cb ≠ .udpTunnel)
    (hr : tcpSendHook st q a = some (m, st')) :
    Inv x none st' ∧ (0 ≤ m → Keeps x (some q) st st') := by
  have hsame : Inv x none st ∧ (0 ≤ m → Keeps x (some q) st st) :=
    ⟨h, fun _ => keeps_refl h _⟩
  unfold tcpSendHook at hr
  split at hr
  · cases hr
  cases a with
  | again =>
    obtain ⟨-, rfl⟩ := Prod.mk.inj (Option.some.inj hr)
    exact hsame
  | refused =>
    obtain ⟨-, rfl⟩ := Prod.mk.inj (Option.some.inj hr)
    exact hsame
  | failed f =>
    obtain ⟨⟨b, s⟩, hs, heq⟩ := Option.map_eq_some_iff.mp hr
    obtain ⟨rfl, rfl⟩ := Prod.mk.inj heq
    have hkeeps := (handleErr_keeps h hudp hs).1
    refine ⟨hkeeps.inv, ?_⟩
    intro hpos
    cases b with
    | false => simp at hpos
    | true => exact hkeeps
  | sent sn n wait =>
    dsimp only at hr
    split at hr
    · cases hr
    · obtain ⟨-, rfl⟩ := Prod.mk.inj (Option.some.inj hr)
      exact hsame

/-- Each turn of the loop leaves the buffer in its slot until the last. -/
lemma tunnelLoop_inv {turns : List Turn} (h : Inv none none st) (hvq : v ≠ q)
    (hv : (st.slots v).cb ≠ .udpTunnel) (hq : (st.slots q).cb ≠ .udpTunnel)
    (hbuff : (st.slots v).buff = some i) (hr : tunnelLoop p v q i turns st = some (b, st')) :
    Inv none none st' := by
  induction turns generalizing st with
  | nil => cases hr
  | cons t ts ih =>
    unfold tunnelLoop at hr
    obtain ⟨⟨n, st₁⟩, hrecv, hr⟩ := Option.bind_eq_some_iff.mp hr
    obtain ⟨h₁, hkeeps, -⟩ := tcpRecvHook_keeps h hv hbuff hrecv
    dsimp only at hr
    split at hr
    · obtain ⟨-, rfl⟩ := Prod.mk.inj (Option.some.inj hr)
      exact h₁.dropBuff v
    split at hr
    · obtain ⟨-, rfl⟩ := Prod.mk.inj (Option.some.inj hr)
      exact h₁
    have hkeeps := hkeeps (by omega)
    have hv₁ : (st₁.slots v).cb ≠ .udpTunnel := fun hno => hv (hkeeps.udp v hno)
    have hq₁ : (st₁.slots q).cb ≠ .udpTunnel := fun hno => hq (hkeeps.udp q hno)
    obtain ⟨⟨sn, st₂⟩, hsend, hr⟩ := Option.bind_eq_some_iff.mp hr
    obtain ⟨h₂, hsent⟩ := tcpSendHook_keeps h₁ hq₁ hsend
    dsimp only at hr
    split at hr
    · obtain ⟨-, rfl⟩ := Prod.mk.inj (Option.some.inj hr)
      exact h₂
    have hkeeps₂ := hkeeps.trans (hsent (by omega))
    have hbuff₂ := (hkeeps₂.buff v i (by simpa using hvq) hbuff).1
    split at hr
    · obtain ⟨-, rfl⟩ := Prod.mk.inj (Option.some.inj hr)
      exact h₂.write (mem_held_buff hbuff₂) _
    split at hr
    · exact ih h₂ (fun hno => hv (hkeeps₂.udp v hno)) (fun hno => hq (hkeeps₂.udp q hno)) hbuff₂ hr
    · obtain ⟨-, rfl⟩ := Prod.mk.inj (Option.some.inj hr)
      exact h₂.dropBuff v

lemma receive_inv {a : Relay} (h : Inv none none st) (hvq : v ≠ q) (hused : v ∈ st.w.used)
    (hv : (st.slots v).cb ≠ .udpTunnel) (hq : (st.slots q).cb ≠ .udpTunnel)
    (hwaits : ¬ Cb.waits (st.slots v).cb) (hnone : (st.slots v).buff = none)
    (hr : receive p st v q a = some (b, st')) : Inv none none st' := by
  unfold receive at hr
  split at hr
  · obtain ⟨-, rfl⟩ := Prod.mk.inj (Option.some.inj hr)
    exact h
  · rename_i i st₁ hpop
    obtain ⟨h₁, -, hslots⟩ := h.takeBuff hpop hused hnone fun _ => hwaits
    have hbuff : ((st₁.setBuff v (some i)).slots v).buff = some i := by
      rw [hslots, Function.update_self]
    have hcb : ∀ u, ((st₁.setBuff v (some i)).slots u).cb = (st.slots u).cb := by
      rw [hslots]
      exact setSlot_cb st v rfl
    exact tunnelLoop_inv h₁ hvq (by rwa [hcb]) (by rwa [hcb]) hbuff hr

lemma relay_inv {a : Relay} (h : Inv none none st) (hvq : v ≠ q) (hused : v ∈ st.w.used)
    (hv : (st.slots v).cb ≠ .udpTunnel) (hq : (st.slots q).cb ≠ .udpTunnel)
    (hwaits : ¬ Cb.waits (st.slots v).cb) (hr : relay p st v q a = some (b, st')) :
    Inv none none st' := by
  unfold relay at hr
  split at hr
  · rename_i hnone
    exact receive_inv h hvq hused hv hq hwaits hnone hr
  rename_i i hbuff
  obtain ⟨⟨sn, st₁⟩, hsend, hr⟩ := Option.bind_eq_some_iff.mp hr
  obtain ⟨h₁, hsent⟩ := tcpSendHook_keeps h hq hsend
  dsimp only at hr
  split at hr
  · obtain ⟨-, rfl⟩ := Prod.mk.inj (Option.some.inj hr)
    exact h₁
  have hkeeps := hsent (by omega)
  obtain ⟨hbuff₁, hwaits₁⟩ := hkeeps.buff v i (by simpa using hvq) hbuff
  have h₂ := h₁.write (mem_held_buff hbuff₁)
    { st₁.buffers i with lock := a.send.length (st₁.buffers i).lock }
  split at hr
  · obtain ⟨j, hj, heq⟩ := Option.map_eq_some_iff.mp hr
    obtain ⟨-, rfl⟩ := Prod.mk.inj heq
    exact h₂.write (mem_held_buff hj) _
  have h₃ := h₂.dropBuff v
  split at hr
  · obtain ⟨-, rfl⟩ := Prod.mk.inj (Option.some.inj hr)
    exact h₃
  have hslots := dropBuff_slots
    (st₁.setBuffer i { st₁.buffers i with lock := a.send.length (st₁.buffers i).lock }) v
  have hcb : ∀ u, ((dropBuff (st₁.setBuffer i
      { st₁.buffers i with lock := a.send.length (st₁.buffers i).lock }) v).slots u).cb =
        (st₁.slots u).cb := by
    rw [hslots]
    exact setSlot_cb st₁ v rfl
  refine receive_inv h₃ hvq ?_ ?_ ?_ ?_ ?_ hr
  · rw [dropBuff_w]
    exact h₂.used_of_held (mem_held_buff hbuff₁)
  · rw [hcb]
    exact fun hno => hv (hkeeps.udp v hno)
  · rw [hcb]
    exact fun hno => hq (hkeeps.udp q hno)
  · rw [hcb]
    exact fun hno => hwaits (hwaits₁ hno)
  · rw [hslots, Function.update_self]

lemma onTunnel_inv {e : Tide} {a : Relay} (h : Inv none none st) (hcb : (st.slots v).cb = .tunnel)
    (hr : onTunnel p st v e a = some (b, st')) : Inv none none st' := by
  unfold onTunnel at hr
  split at hr
  · obtain ⟨-, rfl⟩ := Prod.mk.inj (Option.some.inj hr)
    exact h
  rename_i q hpair
  have hv := h.net.used_of_pair hpair
  obtain ⟨hback, hqudp, hremote⟩ := h.net.tunnels v hv nofun hcb q hpair
  have hq := h.net.used_of_pair hback
  have hvq : v ≠ q := by
    rintro rfl
    exact h.net.selfless v hpair
  have hvudp : (st.slots v).cb ≠ .udpTunnel := by
    rw [hcb]
    decide
  have hvwaits : ¬ Cb.waits (st.slots v).cb := by
    simp [Cb.waits, hcb]
  have hqwaits : ¬ Cb.waits (st.slots q).cb := by
    intro hwaits
    cases hconn : (st.slots v).conn with
    | true => exact (h.net.serves v hv nofun hconn hvudp q hpair).ready hwaits
    | false =>
      have hno := h.net.waiting q hq hwaits
      rw [hremote hconn] at hno
      cases hno
  have hown : ∀ {b : Bool} {st' : State}, relay p st v q a = some (b, st') → Inv none none st' :=
    fun hr => relay_inv h hvq hv hvudp hqudp hvwaits hr
  have hother : ∀ {b : Bool} {st' : State}, relayPair p st q a = some (b, st') →
      Inv none none st' := by
    intro b st' hr
    unfold relayPair at hr
    obtain ⟨u, hu, hr⟩ := Option.bind_eq_some_iff.mp hr
    obtain rfl : v = u := Option.some.inj (hback.symm.trans hu)
    exact relay_inv h hvq.symm hq hqudp hvudp hqwaits hr
  cases e with
  | timeout due last t =>
    dsimp only at hr
    split at hr
    · split at hr
      · exact (onTrigger_keeps h hvudp hr).inv
      · obtain ⟨-, rfl⟩ := Prod.mk.inj (Option.some.inj hr)
        exact h
    split at hr
    · exact hother hr
    · exact hown hr
  | writable =>
    dsimp only at hr
    split at hr
    · exact hother hr
    · exact hown hr
  | other => exact hown hr

lemma onConnect_inv {e : Connected} (h : Inv none none st) (hv : v ∈ st.w.used)
    (hdials : Cb.dials (st.slots v).cb) (hr : onConnect p st v e = some (b, st')) :
    Inv none none st' := by
  have hvudp : (st.slots v).cb ≠ .udpTunnel := by
    rcases hdials with hcb | hcb | hcb <;> rw [hcb] <;> decide
  cases e with
  | failed known t =>
    unfold onConnect at hr
    dsimp only at hr
    split at hr
    · exact (onTrigger_keeps h hvudp hr).inv
    · obtain ⟨-, rfl⟩ := Prod.mk.inj (Option.some.inj hr)
      exact h
  | done modified told e a =>
    unfold onConnect at hr
    obtain ⟨c, hpair, hr⟩ := Option.bind_eq_some_iff.mp hr
    split at hr
    · obtain ⟨-, rfl⟩ := Prod.mk.inj (Option.some.inj hr)
      exact h
    dsimp only at hr
    have hconn : (st.slots v).conn = true := by
      refine h.net.dialing v hv hdials ?_
      intro hno
      cases hno.symm.trans hpair
    have hvc : v ≠ c := by
      rintro rfl
      exact h.net.selfless v hpair
    have heq : (st.setCb v .tunnel).setCb c .tunnel = { st with
        slots := Function.update (Function.update st.slots v { st.slots v with cb := .tunnel }) c
          { st.slots c with cb := .tunnel } } := by
      simp [State.setCb, State.setSlot, hvc.symm]
    have hcb : ∀ u, held (((st.setCb v .tunnel).setCb c .tunnel).slots u) = held (st.slots u) := by
      intro u
      rw [heq]
      by_cases huc : u = c
      · subst huc
        simp [held]
      by_cases huv : u = v
      · subst huv
        simp [held, huc]
      · simp [huc, huv]
    have h₁ : Inv none none ((st.setCb v .tunnel).setCb c .tunnel) := by
      refine ⟨oneOwner_congr h.store rfl (fun u _ => hcb u) rfl rfl rfl rfl, ?_⟩
      rw [heq]
      exact h.net.connected hv hconn hvudp hpair
    split at hr
    · refine onTunnel_inv h₁ ?_ hr
      rw [heq]
      simp [hvc]
    · obtain ⟨-, rfl⟩ := Prod.mk.inj (Option.some.inj hr)
      exact h₁

/-- `mod_etype` and `on_connect` for a proxy in between -/
lemma inv_redial {cb : Cb} (h : Inv x none st) (hv : v ∈ st.w.used)
    (hold : Cb.dials (st.slots v).cb) (hnew : Cb.dials cb) : Inv x none (st.setCb v cb) := by
  refine ⟨oneOwner_congr h.store rfl ?_ rfl rfl rfl rfl, h.net.redial hv hold hnew⟩
  intro u _
  by_cases huv : u = v
  · subst huv
    simp [State.setCb, State.setSlot, held]
  · simp [State.setCb, State.setSlot, huv]

end Relay

section Requests

variable {p : Params} {st st' : State} {x : Option Nat} {v i n : Nat} {b : Bool}
  {room : Option Nat} {k : Hook}

/-- A callback that fails may leave its slot with a request it has not served. -/
lemma hooked_after (h : Hooked (some v) none v b st st') :
    Inv (if b then none else some v) none st' := by
  have hinv := h.inv
  cases b with
  | false => exact hinv
  | true => exact hinv.settle h.fits

lemma inv_after (h : Inv none none st) (b : Bool) : Inv (if b then none else some v) none st :=
  h.weaken _

/-- The slot at work goes on to its remote. -/
lemma hook_after (h : Inv (some v) none st) (hv : v ∈ st.w.used)
    (hwaits : Cb.waits (st.slots v).cb) (hr : connectHook st v k = (b, st')) :
    Inv (if b then none else some v) none st' := by
  have hhook := connectHook_hooked (k := k) h hv (h.net.waiting v hv hwaits)
    (h.net.alone hv hwaits)
  rw [hr] at hhook
  exact hooked_after hhook

lemma udpAssociate_inv (h : Inv none none st) (hv : v ∈ st.w.used)
    (hconn : (st.slots v).conn = false) (halone : Alone none st.w st.slots v) (a : Associate) :
    Inv none none (udpAssociate st v a).2 := by
  unfold udpAssociate
  cases hufd : a.ufd.filter (openable st.w) with
  | none => exact h
  | some ufd =>
    have hpos := Closing.openable_pos (Option.filter_eq_some_iff.mp hufd).2
    dsimp only
    split
    · exact h.setWorld rfl rfl rfl
    have hopened : Grown st (st.setWorld (st.w.opened ufd)) := grown_setWorld rfl rfl
    have h₁ : Inv none none (st.setWorld (st.w.opened ufd)) := h.setWorld rfl rfl rfl
    obtain ⟨h₂, hadded, -, hfresh⟩ := h₁.addEvent hpos .udpTunnel a.epoll
    have hgrown := hopened.trans hadded
    generalize addEvent (st.setWorld (st.w.opened ufd)) .udpTunnel ufd a.epoll = r at *
    obtain ⟨_ | p, st₂⟩ := r
    · exact h₂.setWorld rfl rfl rfl
    obtain ⟨hpwas, hpused, hpslot, hpnone⟩ := hfresh p rfl
    have hdeleted : ∀ {st₃ : State}, Inv none none st₃ → p ∈ st₃.w.used →
        (st₃.w.items p).pair = none → Inv none none (delEvent st₃ p) :=
      fun h₃ hused hnone => (inv_delEvent h₃ (noStray_unpaired hused hnone)).1
    dsimp only
    split
    · exact h₂
    cases hcfd : a.cfd.filter (openable st₂.w) with
    | none => exact hdeleted h₂ hpused hpnone
    | some cfd =>
      have hpos' := Closing.openable_pos (Option.filter_eq_some_iff.mp hcfd).2
      have h₃ : Inv none none (st₂.setWorld (st₂.w.opened cfd)) := h₂.setWorld rfl rfl rfl
      have hopened₃ : Grown st₂ (st₂.setWorld (st₂.w.opened cfd)) := grown_setWorld rfl rfl
      dsimp only
      split
      · exact hdeleted (h₃.setWorld rfl rfl rfl) hpused hpnone
      split
      · exact (hdeleted h₃ hpused hpnone).setWorld rfl rfl rfl
      obtain ⟨h₄, hadded₄, -, hfresh₄⟩ := h₃.addEvent hpos' .udpTunnel a.epollClient
      have hgrown₄ := hopened₃.trans hadded₄
      generalize addEvent (st₂.setWorld (st₂.w.opened cfd)) .udpTunnel cfd a.epollClient = r at *
      obtain ⟨_ | c, st₄⟩ := r
      · refine (hdeleted h₄ (hgrown₄.used p hpused) ?_).setWorld rfl rfl rfl
        rw [hgrown₄.pair p hpused, hpnone]
      obtain ⟨hcwas, hcused, hcslot, hcnone⟩ := hfresh₄ c rfl
      have hv₂ := hgrown.used v hv
      have hvp : v ≠ p := by
        rintro rfl
        exact hpwas hv
      have hvc : v ≠ c := by
        rintro rfl
        exact hcwas hv₂
      have hpc : p ≠ c := by
        rintro rfl
        exact hcwas hpused
      have hsv : st₄.slots v = st.slots v := (hgrown₄.slots v hv₂).trans (hgrown.slots v hv)
      have heq : ((st₄.setWorld (setPair (setPair (setPair st₄.w v c) c p) p v)).setSlot c
          { st₄.slots c with conn := true }).setCb v .ignore = { st₄ with
            w := setPair (setPair (setPair st₄.w v c) c p) p v
            slots := Function.update
              (Function.update st₄.slots c { st₄.slots c with conn := true }) v
              { st₄.slots v with cb := .ignore } } := by
        simp [State.setWorld, State.setSlot, State.setCb, hvc]
      change Inv none none (((st₄.setWorld (setPair (setPair (setPair st₄.w v c) c p) p v)).setSlot c
          { st₄.slots c with conn := true }).setCb v .ignore)
      rw [heq]
      refine ⟨oneOwner_congr h₄.store rfl ?_ rfl rfl rfl rfl, ?_⟩
      · intro u _
        by_cases huv : u = v
        · subst huv
          simp [held]
        by_cases huc : u = c
        · subst huc
          simp [held, huv]
        · simp [huv, huc]
      · refine h₄.net.ring (hgrown₄.used v hv₂) (by rw [hsv]; exact hconn)
          (alone_grown hgrown₄ (alone_grown hgrown halone)) (hgrown₄.used p hpused) hcused hvp hvc hpc ?_ hcnone
          ?_ hcslot
        · rw [hgrown₄.pair p hpused, hpnone]
        · rw [hgrown₄.slots p hpused, hpslot]

/-- `save_buffer` is given the buffer that `on_request` has read into and given back. -/
lemma saveBuffer_some {st₁ : State} {size : Nat} {a room' : Option Nat} (h : Inv none none st)
    (hpop : buffPop st size a = some (i, st₁)) :
    (saveBuffer p (buffPush st₁ i) v i n room room').isSome := by
  obtain ⟨free, hstore⟩ := h.store
  have hroot := hstore.ppop hpop
  have hagain : buffPop (buffPush st₁ i) p.bfsize room = some (i, { buffPush st₁ i with
      rootBuff := ((buffPush st₁ i).buffers i).next
      buffCount := (buffPush st₁ i).buffCount - 1 }) := by
    unfold buffPop
    rw [hroot]
  unfold saveBuffer
  rw [hagain]
  simp only [ne_eq, not_true_eq_false, if_false]
  split
  · split <;> rfl
  · rfl

lemma saveBuffer_inv {room' : Option Nat} (h : Inv none none st) (hv : v ∈ st.w.used)
    (hempty : held (st.slots v) = []) (hr : saveBuffer p st v i n room room' = some (b, st')) :
    Inv (some v) none st' ∧ v ∈ st'.w.used ∧ (st'.slots v).cb = (st.slots v).cb := by
  obtain ⟨hnone, hsqnone⟩ := List.append_eq_nil_iff.mp hempty
  rw [Option.toList_eq_nil_iff] at hnone hsqnone
  unfold saveBuffer at hr
  split at hr
  · cases hr
  rename_i j st₁ hpop
  obtain ⟨h₁, hw, hslots⟩ := (h.weaken (some v)).takeBuff hpop hv hnone fun hno => absurd rfl hno
  have hself : (st₁.setBuff v (some j)).slots v = { st.slots v with buff := some j } := by
    rw [hslots, Function.update_self]
  have hbuff : ((st₁.setBuff v (some j)).slots v).buff = some j := by
    rw [hself]
  have hcb : ((st₁.setBuff v (some j)).slots v).cb = (st.slots v).cb := by
    rw [hself]
  have hv₁ : v ∈ (st₁.setBuff v (some j)).w.used := hw ▸ hv
  dsimp only at hr
  split at hr
  · cases hr
  have h₂ := h₁.write (mem_held_buff hbuff)
    { (st₁.setBuff v (some j)).buffers j with lock := n }
  have h₃ := h₂.count hv₁ n
  have hsq : ((st₁.setBuff v (some j)).slots v).sqBuff = none := by
    rw [hself]
    exact hsqnone
  generalize hst₂ : (st₁.setBuff v (some j)).setBuffer j
    { (st₁.setBuff v (some j)).buffers j with lock := n } = st₂ at hr h₂ h₃
  have hslots₂ : st₂.slots = (st₁.setBuff v (some j)).slots := hst₂ ▸ rfl
  have hw₂ : v ∈ st₂.w.used := hst₂ ▸ hv₁
  have hcb₃ : ((st₂.setSlot v { st₂.slots v with recvCount := n }).slots v).cb =
      (st.slots v).cb := by
    simp only [State.setSlot, Function.update_self]
    rw [hslots₂, hcb]
  have hsq₃ : ((st₂.setSlot v { st₂.slots v with recvCount := n }).slots v).sqBuff = none := by
    rw [← hsq, ← hslots₂]
    simp [State.setSlot]
  have hw₃ : v ∈ (st₂.setSlot v { st₂.slots v with recvCount := n }).w.used := hw₂
  generalize st₂.setSlot v { st₂.slots v with recvCount := n } = st₃ at hr h₃ hcb₃ hsq₃ hw₃
  split at hr
  · split at hr
    · obtain ⟨-, rfl⟩ := Prod.mk.inj (Option.some.inj hr)
      exact ⟨h₃, hw₃, hcb₃⟩
    rename_i k st₄ hpop₃
    obtain ⟨-, rfl⟩ := Prod.mk.inj (Option.some.inj hr)
    obtain ⟨h₄, hw₄, hslots₄⟩ := h₃.takeSqBuff hpop₃ hw₃ hsq₃ fun hno => absurd rfl hno
    have hself₄ : (st₄.setSqBuff v (some k)).slots v = { st₃.slots v with sqBuff := some k } := by
      rw [hslots₄, Function.update_self]
    have hk : k ∈ held ((st₄.setSqBuff v (some k)).slots v) := by
      rw [hself₄]
      simp [held]
    refine ⟨h₄.write hk _, ?_, ?_⟩
    · change v ∈ (st₄.setSqBuff v (some k)).w.used
      exact hw₄ ▸ hw₃
    · exact (congrArg Slot.cb hself₄).trans hcb₃
  · obtain ⟨-, rfl⟩ := Prod.mk.inj (Option.some.inj hr)
    exact ⟨h₃, hw₃, hcb₃⟩

/-- No assertion fails while a request is read. -/
lemma onRequest_some (h : Inv none none st) (m : Message) : (onRequest p st v room m).isSome := by
  unfold onRequest
  split
  · rfl
  · rename_i i st₁ hpop
    dsimp only
    cases m with
    | payload n room₁ room₂ k =>
      rw [Option.isSome_map]
      exact saveBuffer_some h hpop
    | _ => rfl

lemma onRequest_inv {m : Message} (h : Inv none none st) (hv : v ∈ st.w.used)
    (hcb : (st.slots v).cb = .request) (hr : onRequest p st v room m = some (b, st')) :
    Inv (if b then none else some v) none st' := by
  unfold onRequest at hr
  split at hr
  · obtain ⟨-, rfl⟩ := Prod.mk.inj (Option.some.inj hr)
    exact inv_after h b
  rename_i i st₁ hpop
  obtain ⟨h₁, hslots, hw⟩ := h.ppop hpop
  dsimp only at hr
  generalize buffPush st₁ i = st₁ at hr h₁ hslots hw
  have hv₁ : v ∈ st₁.w.used := hw ▸ hv
  have hcb₁ : (st₁.slots v).cb = .request := by
    rw [hslots, hcb]
  have hwaits : Cb.waits (st₁.slots v).cb := .inl hcb₁
  have hempty : held (st₁.slots v) = [] := (h₁.net.fits v hv₁ nofun).request hcb₁
  split at hr
  · obtain ⟨-, rfl⟩ := Prod.mk.inj (Option.some.inj hr)
    exact inv_after h₁ b
  · obtain ⟨-, rfl⟩ := Prod.mk.inj (Option.some.inj hr)
    exact inv_after h₁ b
  · exact hook_after (h₁.weaken _) hv₁ hwaits (Option.some.inj hr)
  · rename_i a
    have hassociated := udpAssociate_inv h₁ hv₁ (h₁.net.waiting v hv₁ hwaits)
      (h₁.net.alone hv₁ hwaits) a
    rw [Option.some.inj hr] at hassociated
    exact inv_after hassociated b
  · obtain ⟨⟨saved, st₂⟩, hsave, heq⟩ := Option.map_eq_some_iff.mp hr
    obtain ⟨h₂, hv₂, hcb₂⟩ := saveBuffer_inv h₁ hv₁ hempty hsave
    cases saved with
    | false =>
      obtain ⟨rfl, rfl⟩ := Prod.mk.inj heq
      exact h₂
    | true => exact hook_after h₂ hv₂ (.inl (hcb₂.trans hcb₁)) heq

lemma recvAndConnect_inv {a : Recv} (h : Inv none none st) (hv : v ∈ st.w.used)
    (hcb : (st.slots v).cb = .recvAndConnect)
    (hr : recvAndConnect p st v room a k = some (b, st')) :
    Inv (if b then none else some v) none st' := by
  unfold recvAndConnect at hr
  split at hr
  · obtain ⟨-, rfl⟩ := Prod.mk.inj (Option.some.inj hr)
    exact inv_after h b
  rename_i i st₁ hpop
  obtain ⟨h₁, -, hslots⟩ := (h.weaken (some v)).takeBuff hpop hv
    ((h.net.fits v hv nofun).recv hcb) fun hno => absurd rfl hno
  have hself : (st₁.setBuff v (some i)).slots v = { st.slots v with buff := some i } := by
    rw [hslots, Function.update_self]
  have hbuff : ((st₁.setBuff v (some i)).slots v).buff = some i := by
    rw [hself]
  have hcb₁ : ((st₁.setBuff v (some i)).slots v).cb = .recvAndConnect := by
    rw [hself]
    exact hcb
  have hv₁ := h₁.used_of_held (mem_held_buff hbuff)
  have hconn := h₁.net.waiting v hv₁ (.inr hcb₁)
  obtain ⟨⟨n, st₂⟩, hrecv, hr⟩ := Option.bind_eq_some_iff.mp hr
  obtain ⟨h₂, -, hcb₂⟩ := tcpRecvHook_keeps h₁ (by rw [hcb₁]; decide) hbuff hrecv
  dsimp only at hr
  split at hr
  · cases hr
  rename_i hbuff₂
  have hheld := mem_held_buff (not_not.mp hbuff₂)
  have hv₂ := h₂.used_of_held hheld
  have hwaits : Cb.waits (st₂.slots v).cb := .inr ((hcb₂ hconn).trans hcb₁)
  split at hr
  · obtain ⟨rfl, rfl⟩ := Prod.mk.inj (Option.some.inj hr)
    exact h₂.write hheld _
  · exact hook_after (h₂.write hheld _) hv₂ hwaits (Option.some.inj hr)

lemma onUdpTunnel_inv {ok : Bool} (h : Inv none none st) (hv : v ∈ st.w.used)
    (hr : onUdpTunnel p st v room n ok = some (b, st')) : Inv none none st' := by
  unfold onUdpTunnel at hr
  split at hr
  · obtain ⟨-, rfl⟩ := Prod.mk.inj (Option.some.inj hr)
    exact h
  rename_i i st₁ hpop
  obtain ⟨h₁, -, hw⟩ := h.ppop hpop
  obtain ⟨q, -, heq⟩ := Option.map_eq_some_iff.mp hr
  obtain ⟨-, rfl⟩ := Prod.mk.inj heq
  exact (quiet_received h₁ (hw ▸ hv : v ∈ (buffPush st₁ i).w.used) n).inv

lemma acceptOne_inv (h : Inv none none st) (a : Accepted) : Inv none none (acceptOne st a) := by
  unfold acceptOne
  cases hfd : a.fd.filter (openable st.w) with
  | none => exact h
  | some c =>
    have hpos := Closing.openable_pos (Option.filter_eq_some_iff.mp hfd).2
    dsimp only
    split
    · exact h.setWorld rfl rfl rfl
    have h₁ : Inv none none (st.setWorld (st.w.opened c)) := h.setWorld rfl rfl rfl
    obtain ⟨h₂, -, -, hfresh⟩ := h₁.addEvent hpos .request a.epoll
    generalize addEvent (st.setWorld (st.w.opened c)) .request c a.epoll = r at *
    obtain ⟨_ | q, st₂⟩ := r
    · exact h₂.setWorld rfl rfl rfl
    obtain ⟨-, hused, hslot, hnone⟩ := hfresh q rfl
    dsimp only
    split
    · exact h₂
    rename_i known k _
    have hwaits : Cb.waits (st₂.slots q).cb := by
      rw [hslot]
      exact .inl rfl
    have hhook : Hooked none none q (if known then connectHook st₂ q k else (false, st₂)).1 st₂
        (if known then connectHook st₂ q k else (false, st₂)).2 := by
      split
      · exact connectHook_hooked h₂ hused (h₂.net.waiting q hused hwaits) (h₂.net.alone hused hwaits)
      · exact hooked_failed h₂
    generalize (if known then connectHook st₂ q k else (false, st₂)) = r at hhook
    obtain ⟨b, st₃⟩ := r
    cases b with
    | true => exact hhook.inv
    | false =>
      have h₃ : Inv none none st₃ := hhook.inv
      split
      · refine (inv_delEvent h₃ (noStray_unpaired (hhook.used q hused) ?_)).1
        rw [hhook.pair q hused nofun, hnone]
      · exact h₃

lemma accepts_inv (h : Inv none none st) (as : List Accepted) :
    Inv none none (as.foldl acceptOne st) := by
  induction as generalizing st with
  | nil => exact h
  | cons a as ih => exact ih (acceptOne_inv h a)

lemma callback_inv {a : Answers} (h : Inv none none st) (hv : v ∈ st.w.used)
    (hr : callback p st v a = some (b, st')) : Inv (if b then none else some v) none st' := by
  unfold callback at hr
  split at hr
  · obtain ⟨-, rfl⟩ := Prod.mk.inj (Option.some.inj hr)
    exact inv_after h b
  · rename_i as again _
    obtain ⟨-, rfl⟩ := Prod.mk.inj (Option.some.inj hr)
    exact inv_after (accepts_inv h as) b
  · rename_i hcb
    exact onRequest_inv h hv hcb hr
  · rename_i hcb
    exact inv_after (onConnect_inv h hv (.inl hcb) hr) b
  · rename_i hcb
    exact inv_after (onTunnel_inv h hcb hr) b
  · exact inv_after (onUdpTunnel_inv h hv hr) b
  · obtain ⟨-, rfl⟩ := Prod.mk.inj (Option.some.inj hr)
    exact inv_after h b
  · rename_i hcb
    exact recvAndConnect_inv h hv hcb hr
  · rename_i ok hcb
    obtain ⟨-, rfl⟩ := Prod.mk.inj (Option.some.inj hr)
    refine inv_after ?_ b
    split
    · exact inv_redial h hv (.inr (.inl hcb)) (.inr (.inr rfl))
    · exact h
  · rename_i hcb
    exact inv_after (onConnect_inv h hv (.inr (.inl hcb)) hr) b
  · obtain ⟨-, rfl⟩ := Prod.mk.inj (Option.some.inj hr)
    exact inv_after h b
  · rename_i hcb
    exact inv_after (onConnect_inv h hv (.inr (.inr hcb)) hr) b
  · rename_i hcb
    refine inv_after (onConnect_inv (inv_redial h hv (.inr (.inr hcb)) (.inl rfl)) hv ?_ hr) b
    exact .inl (by simp [State.setCb, State.setSlot])
  · cases hr

end Requests

/-- No pair leads the deletion of a slot whose callback has failed to a slot that is not in use
and still has the descriptor of a registration that failed. -/
def Straight (st : State) : Act → Prop
  | .close => ∀ v, st.failed = some v → NoStray st.w v
  | _ => True

/-- A slot whose callback has failed may have its request for a while. -/
def Between (st : State) : Prop := Inv st.failed none st

section Runs

variable {p : Params} {st st' : State} {a : Act}

lemma start_between (max : Nat) : Between (start max) := by
  refine ⟨⟨[], rfl, rfl, Int.le_of_lt (by decide : (0 : Int) < maxBuffInp), nofun, .refl _,
    List.nodup_nil, rfl⟩, ?_⟩
  refine ⟨⟨?_, ?_⟩, nofun, fun _ _ => ⟨rfl, rfl⟩, nofun, nofun, nofun, nofun, nofun, nofun⟩
  · intro i v hv
    cases hv
  · exact List.nodup_range

lemma step_between (h : Between st) (hok : Straight st a) (hstep : step p st a = some st') :
    Between st' := by
  cases a with
  | listen cb fd epoll =>
    simp only [step, Option.ite_none_right_eq_some, Option.some.injEq] at hstep
    obtain ⟨⟨hnone, hfd, -⟩, rfl⟩ := hstep
    unfold Between at h
    rw [hnone] at h
    exact (h.addEvent hfd cb epoll).1.weaken _
  | event v a =>
    simp only [step, Option.ite_none_right_eq_some] at hstep
    obtain ⟨⟨hnone, hv⟩, hstep⟩ := hstep
    unfold Between at h
    rw [hnone] at h
    obtain ⟨⟨b, st₁⟩, hr, rfl⟩ := Option.map_eq_some_iff.mp hstep
    have hafter := callback_inv h hv hr
    cases b with
    | true => exact hafter.weaken _
    | false => exact hafter.mark _
  | close =>
    obtain ⟨v, hfailed, rfl⟩ := Option.map_eq_some_iff.mp hstep
    unfold Between at h
    rw [hfailed] at h
    obtain ⟨hinv, hv, -⟩ := inv_delEvent h (hok v hfailed)
    exact Inv.mark ⟨hinv.store, hinv.net.forget hv⟩ none

end Runs

/-- All along a run, every buffer that has been allocated is in one place: in the pool, where its
flags are cleared, or in one slot in use; as long as no deletion is led astray. -/
theorem buffers_owned_once {p : Params} {max : Nat} {acts : List Act} {st : State}
    (hok : Meets (step p) Straight (start max) acts)
    (hrun : run (step p) (start max) acts = some st) : OneOwner st :=
  (run_preserves (fun _ _ _ => step_between) (start_between max) hok hrun).store

/-- A request that is sent on, and another one that is refused. -/
theorem buffers_owned_once_refused :
    ∃ st, run (step ⟨16, true⟩) (start 4) [.listen .accept 3 true,
        .event 0 (.accept [⟨some 4, true, true, none, false⟩, ⟨some 5, true, true, none, false⟩] true),
        .event 1 (.request (some 0) (.payload 5 none (some 1)
          ⟨true, false, true, false, some 6, ⟨true, true, true⟩⟩)),
        .event 3 (.connect (.done true true .writable
          ⟨.sent 5 5 false, true, none, [⟨.again, .again, true⟩]⟩)),
        .event 2 (.request (some 2) .refused), .close] = some st ∧ OneOwner st := by
  refine ⟨_, (Option.some_get (by decide)).symm, ?_⟩
  refine buffers_owned_once ?_ (Option.some_get (by decide)).symm
  have hclosed : ∀ (st : State) (a : Act),
      (∀ v ∈ st.failed, v ∈ st.w.used ∧ (st.w.items v).pair = none) → Straight st a := by
    intro st a h
    cases a with
    | close => exact fun v hv => noStray_unpaired (h v hv).1 (h v hv).2
    | listen cb fd epoll => trivial
    | event v a => trivial
  exact meets_mono hclosed (by decide)

/-- `reconnect` that waits for the client leaves it with the pair that it deletes. A descriptor
that cannot be registered is then left in that slot, and the deletion of the client takes a third
slot out of those in use, with its buffers. -/
theorem astray_deletion :
    ∃ st, run (step ⟨16, true⟩) (start 6) [.listen .accept 3 true,
        .event 0 (.accept [⟨some 4, true, true, none, false⟩, ⟨some 5, true, true, none, false⟩] true),
        .event 2 (.request (some 0) (.payload 5 none (some 1)
          ⟨true, false, true, false, some 6, ⟨true, true, true⟩⟩)),
        .event 1 (.request (some 2) (.connect
          ⟨true, false, true, false, some 7, ⟨true, true, true⟩⟩)),
        .event 4 (.connect (.failed true
          ⟨true, none, ⟨true, true, true, false, none, ⟨true, true, true⟩⟩⟩)),
        .event 1 (.recv none (.bytes 3 true none (some 3))
          ⟨true, false, true, false, some 8, ⟨true, false, true⟩⟩),
        .close,
        .event 0 (.accept [⟨some 9, true, true, none, false⟩, ⟨some 10, true, true, none, false⟩,
          ⟨some 11, true, true, none, false⟩] true)] = some st ∧ ¬ OneOwner st := by
  refine ⟨_, (Option.some_get (by decide)).symm, ?_⟩
  intro hone
  exact absurd (oneOwner_length hone) (by decide)

end BufferRuns
