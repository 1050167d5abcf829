import NoZapret.BufferMoves

/-!
# Connections and their buffers

`connect_hook` gives a client a remote, `reconnect` another one in place of the first, which is
deleted. What both leave as it was is what their callers go on with.
-/

namespace BufferHooks

open Buffers BufferOwners BufferMoves Resources
open Pool hiding Buffer delEvent delEventFrom addEvent
open Closing (openable setPair)

/-- What `connect_hook` does for the slot `v`. When it fails, no pair changes. -/
structure Hooked (x y : Option Nat) (v : Nat) (b : Bool) (st st' : State) : Prop where
  inv : Inv x (if b then y else none) st'
  used : ∀ u ∈ st.w.used, u ∈ st'.w.used
  slots : ∀ u ∈ st.w.used, u ≠ v → st'.slots u = st.slots u
  buff : (st'.slots v).buff = (st.slots v).buff
  conn : (st'.slots v).conn = (st.slots v).conn
  cb : if b then (st'.slots v).cb = .ignore ∨
      (st'.slots v).cb = .recvAndConnect ∧ (st.slots v).buff = none
    else (st'.slots v).cb = (st.slots v).cb
  pair : ∀ u ∈ st.w.used, (b = true → u ≠ v) → (st'.w.items u).pair = (st.w.items u).pair
  udp : ∀ u, (st'.slots u).cb = .udpTunnel → (st.slots u).cb = .udpTunnel

section Hooks

variable {w' : World} {st st' : State} {x y : Option Nat} {v p c i : Nat} {b : Bool} {cb : Cb}

lemma hooked_failed (h : Inv x none st) : Hooked x y v false st st where
  inv := h
  used _ hu := hu
  slots _ _ _ := rfl
  buff := rfl
  conn := rfl
  cb := rfl
  pair _ _ _ := rfl
  udp _ hu := hu

/-- Only the world changes behind a hook that has failed. -/
lemma Hooked.setWorld (h : Hooked x y v false st st') (hitems : w'.items = st'.w.items)
    (hused : w'.used = st'.w.used) (hfree : w'.free = st'.w.free) :
    Hooked x y v false st (st'.setWorld w') where
  inv := Inv.setWorld h.inv hitems hused hfree
  used u hu := by
    change u ∈ w'.used
    rw [hused]
    exact h.used u hu
  slots := h.slots
  buff := h.buff
  conn := h.conn
  cb := h.cb
  pair u hu hne := by
    change (w'.items u).pair = _
    rw [hitems]
    exact h.pair u hu hne
  udp := h.udp

lemma hooked_grown (hg : Grown st st') (h : Inv x none st') (hv : v ∈ st.w.used)
    (hudp : ∀ u, (st'.slots u).cb = .udpTunnel → (st.slots u).cb = .udpTunnel) :
    Hooked x y v false st st' where
  inv := h
  used := hg.used
  slots u hu _ := hg.slots u hu
  buff := by rw [hg.slots v hv]
  conn := by rw [hg.slots v hv]
  cb := by simp [hg.slots v hv]
  pair u hu _ := hg.pair u hu
  udp := hudp

/-- `create_conn` once the new slot is registered -/
lemma hooked_linked (hg : Grown st st') (h : Inv x y st') (hv : v ∈ st.w.used)
    (hconn : (st.slots v).conn = false) (halone : Alone y st'.w st'.slots v)
    (hp : Fresh st st' cb p) (hcb : cb = .connect ∨ cb = .socksConn)
    (hudp : ∀ u, (st'.slots u).cb = .udpTunnel → (st.slots u).cb = .udpTunnel) :
    Hooked x y v true st
      (((st'.setWorld (setPair (setPair st'.w v p) p v)).setSlot p
        { st'.slots p with conn := true }).setCb v .ignore) := by
  have hvp : v ≠ p := by
    rintro rfl
    exact hp.was hv
  have hsv := hg.slots v hv
  have hpv : p ≠ v := hvp.symm
  have hsv := hg.slots v hv
  have heq : (((st'.setWorld (setPair (setPair st'.w v p) p v)).setSlot p
      { st'.slots p with conn := true }).setCb v .ignore) =
        { st' with
          w := setPair (setPair st'.w v p) p v
          slots := Function.update (Function.update st'.slots p { st'.slots p with conn := true }) v
            { st'.slots v with cb := .ignore } } := by
    simp [State.setWorld, State.setSlot, State.setCb, hvp]
  have hother : ∀ u, u ≠ v → u ≠ p →
      Function.update (Function.update st'.slots p { st'.slots p with conn := true }) v
        { st'.slots v with cb := .ignore } u = st'.slots u := by
    intro u huv hup
    rw [Function.update_of_ne huv, Function.update_of_ne hup]
  have hself : Function.update (Function.update st'.slots p { st'.slots p with conn := true }) v
      { st'.slots v with cb := .ignore } v = { st'.slots v with cb := .ignore } :=
    Function.update_self _ _ _
  have hnew : Function.update (Function.update st'.slots p { st'.slots p with conn := true }) v
      { st'.slots v with cb := .ignore } p = { st'.slots p with conn := true } := by
    rw [Function.update_of_ne hpv, Function.update_self]
  have hne : ∀ u ∈ st.w.used, u ≠ p := by
    rintro u hu rfl
    exact hp.was hu
  have hcbp : (st'.slots p).cb = .connect ∨ (st'.slots p).cb = .socksConn := by
    rwa [hp.slot]
  have hempty : held (st'.slots p) = [] := by
    rw [hp.slot]
    rfl
  rw [heq]
  refine ⟨⟨oneOwner_congr h.store rfl ?_ rfl rfl rfl rfl, ?_⟩, hg.used, ?_, ?_, ?_, ?_, ?_, ?_⟩
  · intro u _
    by_cases huv : u = v
    · subst huv
      exact (congrArg held hself).trans rfl
    by_cases hup : u = p
    · subst hup
      exact (congrArg held hnew).trans rfl
    · exact congrArg held (hother u huv hup)
  · exact h.net.link (hg.used v hv) (by rw [hsv]; exact hconn) halone hp.used hp.pair hempty hvp hcbp
  · intro u hu huv
    exact (hother u huv (hne u hu)).trans (hg.slots u hu)
  · exact (congrArg Slot.buff hself).trans (by rw [hsv])
  · exact (congrArg Slot.conn hself).trans (by rw [hsv])
  · exact .inl (congrArg Slot.cb hself)
  · intro u hu huv
    change ((setPair (setPair st'.w v p) p v).items u).pair = _
    rw [setPair, setItem_of_ne (hne u hu), setPair, setItem_of_ne (huv rfl)]
    exact hg.pair u hu
  · intro u hu
    refine hudp u ?_
    by_cases huv : u = v
    · subst huv
      cases (congrArg Slot.cb hself).symm.trans hu
    by_cases hup : u = p
    · subst hup
      exact (congrArg Slot.cb hnew).symm.trans hu
    · exact (congrArg Slot.cb (hother u huv hup)).symm.trans hu

/-- Slots in use keep their pairs, and so does what is known of them. -/
lemma alone_grown (hg : Grown st st') (halone : Alone y st.w st.slots v) :
    Alone y st'.w st'.slots v := by
  intro r hr hp
  have hold := hg.paired r v hr hp
  rw [hg.slots r hold]
  rw [hg.pair r hold] at hp
  exact halone r hold hp

lemma createConn_hooked {next : Cb} {fd : Option Int} {a : Closing.Connect}
    (h : Inv x none st) (hv : v ∈ st.w.used) (hconn : (st.slots v).conn = false)
    (halone : Alone y st.w st.slots v) (hnext : next = .connect ∨ next = .socksConn) :
    Hooked x y v (createConn st v next fd a).1 st (createConn st v next fd a).2 := by
  unfold createConn
  cases hfilter : fd.filter (openable st.w) with
  | none => exact hooked_failed h
  | some sfd =>
    have hpos := Closing.openable_pos (Option.filter_eq_some_iff.mp hfilter).2
    have hopened : Grown st (st.setWorld (st.w.opened sfd)) := grown_setWorld rfl rfl
    have h₁ : Inv x none (st.setWorld (st.w.opened sfd)) := h.setWorld rfl rfl rfl
    obtain ⟨h₂, hadded, hudp, hfresh⟩ := h₁.addEvent hpos next a.epoll
    have hudp : ∀ u, ((addEvent (st.setWorld (st.w.opened sfd)) next sfd a.epoll).2.slots u).cb =
        .udpTunnel → (st.slots u).cb = .udpTunnel := by
      intro u hu
      refine (hudp u hu).resolve_right ?_
      rcases hnext with rfl | rfl <;> decide
    have hgrown := hopened.trans hadded
    dsimp only
    split
    · exact (hooked_failed h).setWorld rfl rfl rfl
    generalize haddEvent : addEvent (st.setWorld (st.w.opened sfd)) next sfd a.epoll = r at *
    obtain ⟨_ | p, st₂⟩ := r
    · exact (hooked_grown hgrown h₂ hv hudp).setWorld rfl rfl rfl
    dsimp only
    split
    · exact hooked_grown hgrown h₂ hv hudp
    · obtain ⟨hwas, hused, hslot, hpair⟩ := hfresh p rfl
      exact hooked_linked hgrown (h₂.exempt y) hv hconn (alone_grown hgrown halone)
        ⟨hwas, hused, hslot, hpair⟩ hnext hudp

lemma connectHook_hooked {k : Hook} (h : Inv x none st) (hv : v ∈ st.w.used)
    (hconn : (st.slots v).conn = false) (halone : Alone y st.w st.slots v) :
    Hooked x y v (connectHook st v k).1 st (connectHook st v k).2 := by
  unfold connectHook
  split
  · exact hooked_failed h
  split
  · rename_i hlate
    rw [Bool.and_eq_true, Option.isNone_iff_eq_none] at hlate
    split
    · exact hooked_failed h
    have hother : ∀ u, u ≠ v → (st.setCb v .recvAndConnect).slots u = st.slots u :=
      fun u hu => Function.update_of_ne hu _ _
    have hself : (st.setCb v .recvAndConnect).slots v =
        { st.slots v with cb := .recvAndConnect } := Function.update_self _ _ _
    refine ⟨⟨oneOwner_congr h.store rfl ?_ rfl rfl rfl rfl,
      (h.net.exempt y).delay hv hconn halone hlate.2⟩, fun _ hu => hu, fun u _ => hother u,
      by rw [hself], by rw [hself], .inr ⟨by rw [hself], hlate.2⟩, fun _ _ _ => rfl, ?_⟩
    · intro u _
      by_cases huv : u = v
      · subst huv
        exact (congrArg held hself).trans rfl
      · rw [hother u huv]
    · intro u hu
      by_cases huv : u = v
      · rw [huv, hself] at hu
        cases hu
      · rwa [hother u huv] at hu
  · refine createConn_hooked h hv hconn halone ?_
    split
    · exact .inr rfl
    · exact .inl rfl

/-- A slot whose hook has succeeded waits for no request. -/
lemma Hooked.fits (h : Hooked x y v true st st') : Fits (st'.slots v) := by
  have hcb := h.cb
  rw [if_pos rfl] at hcb
  rcases hcb with hcb | ⟨hcb, hbuff⟩
  · constructor <;> intro hno <;> cases hcb.symm.trans hno
  · refine ⟨fun hno => (nomatch hcb.symm.trans hno), fun _ => ?_⟩
    rw [h.buff, hbuff]

end Hooks

/-- What is left of the state before, but for the slot `gone`. -/
structure Keeps (x gone : Option Nat) (st st' : State) : Prop where
  inv : Inv x none st'
  buff : ∀ u i, some u ≠ gone → (st.slots u).buff = some i → (st'.slots u).buff = some i ∧
    (Cb.waits (st'.slots u).cb → Cb.waits (st.slots u).cb)
  udp : ∀ u, (st'.slots u).cb = .udpTunnel → (st.slots u).cb = .udpTunnel

section Reconnect

variable {st st' : State} {x gone : Option Nat} {v c i : Nat} {b alive : Bool} {room : Option Nat}
  {k : Hook} {t : Trigger} {f : Failure}

lemma keeps_refl (h : Inv x none st) (gone : Option Nat) : Keeps x gone st st :=
  ⟨h, fun _ _ _ hi => ⟨hi, id⟩, fun _ hu => hu⟩

lemma Keeps.trans {st'' : State} (h : Keeps x none st st') (h' : Keeps x gone st' st'') :
    Keeps x gone st st'' := by
  refine ⟨h'.inv, ?_, fun u hu => h.udp u (h'.udp u hu)⟩
  intro u i hu hi
  obtain ⟨hi', hwaits⟩ := h.buff u i nofun hi
  obtain ⟨hi'', hwaits'⟩ := h'.buff u i hu hi'
  exact ⟨hi'', fun hno => hwaits (hwaits' hno)⟩

/-- Only the contents of buffers have changed, and what slots hold beside `buff`. -/
structure Quiet (x : Option Nat) (st st' : State) : Prop where
  inv : Inv x none st'
  buff : ∀ u, (st'.slots u).buff = (st.slots u).buff
  cb : ∀ u, (st'.slots u).cb = (st.slots u).cb

lemma quiet_refl (h : Inv x none st) : Quiet x st st := ⟨h, fun _ => rfl, fun _ => rfl⟩

lemma Quiet.trans {st'' : State} (h : Quiet x st st') (h' : Quiet x st' st'') : Quiet x st st'' :=
  ⟨h'.inv, fun u => (h'.buff u).trans (h.buff u), fun u => (h'.cb u).trans (h.cb u)⟩

lemma Keeps.quiet {st'' : State} (h : Keeps x gone st st') (hq : Quiet x st' st'') :
    Keeps x gone st st'' := by
  refine ⟨hq.inv, ?_, ?_⟩
  · intro u i hu hi
    rw [hq.buff, hq.cb]
    exact h.buff u i hu hi
  · intro u hu
    rw [hq.cb] at hu
    exact h.udp u hu

/-- The saved request is back in `buff`. -/
lemma restore_inv (h : Inv x none st) (hc : c ∈ st.w.used) (hcb : ¬ Cb.waits (st.slots c).cb)
    (hr : restore st c room = some st') :
    Inv x none st' ∧ st'.w = st.w ∧ (∀ u, u ≠ c → st'.slots u = st.slots u) ∧
      (st'.slots c).cb = (st.slots c).cb ∧ (st'.slots c).conn = (st.slots c).conn ∧
      ∀ i, (st.slots c).buff = some i → (st'.slots c).buff = some i := by
  unfold restore at hr
  split at hr
  · obtain rfl := Option.some.inj hr
    exact ⟨h, rfl, fun _ _ => rfl, rfl, rfl, fun _ hi => hi⟩
  obtain ⟨⟨i, st₁⟩, htake, rfl⟩ := Option.map_eq_some_iff.mp hr
  unfold takeBuff at htake
  split at htake
  · rename_i hbuff
    obtain ⟨rfl, rfl⟩ := Prod.mk.inj (Option.some.inj htake)
    exact ⟨h.write (mem_held_buff hbuff) _, rfl, fun _ _ => rfl, rfl, rfl, fun _ hi => hi⟩
  · rename_i hbuff
    obtain ⟨⟨j, st₂⟩, hpop, heq⟩ := Option.map_eq_some_iff.mp htake
    obtain ⟨rfl, rfl⟩ := Prod.mk.inj heq
    obtain ⟨htaken, hw, hslots⟩ := h.takeBuff hpop hc hbuff fun _ => hcb
    have hself : (st₂.setBuff c (some j)).slots c = { st.slots c with buff := some j } := by
      rw [hslots, Function.update_self]
    have hheld : j ∈ held ((st₂.setBuff c (some j)).slots c) := by
      rw [hself]
      simp [held]
    refine ⟨htaken.write hheld _, hw, ?_, (congrArg Slot.cb hself).trans rfl,
      (congrArg Slot.conn hself).trans rfl, ?_⟩
    · intro u hu
      exact (congrFun hslots u).trans (Function.update_of_ne hu _ _)
    · intro i hi
      cases hbuff.symm.trans hi

/-- A slot with a buffer keeps it over the hook, and does not begin to wait. -/
lemma Hooked.buff_kept {y : Option Nat} (h : Hooked x y c b st st') {u : Nat} (hu : u ∈ st.w.used)
    (hi : (st.slots u).buff = some i) : (st'.slots u).buff = some i ∧
      (Cb.waits (st'.slots u).cb → Cb.waits (st.slots u).cb) := by
  by_cases huc : u = c
  · subst huc
    refine ⟨h.buff.trans hi, ?_⟩
    intro hwaits
    have hcb := h.cb
    cases b with
    | false =>
      simp only [Bool.false_eq_true, if_false] at hcb
      rwa [hcb] at hwaits
    | true =>
      rw [if_pos rfl] at hcb
      rcases hcb with hcb | ⟨-, hnone⟩
      · simp [Cb.waits, hcb] at hwaits
      · cases hnone.symm.trans hi
  · rw [h.slots u hu huc]
    exact ⟨hi, id⟩

/-- The remote is deleted once its client has a new one. -/
lemma reconnect_keeps (h : Inv x none st) (hudp : (st.slots v).cb ≠ .udpTunnel)
    (hr : reconnect st v room k = some (b, st')) :
    Keeps x (if b then some v else none) st st' := by
  unfold reconnect at hr
  split at hr
  · cases hr
  rename_i hconn
  have hconn : (st.slots v).conn = true := by simpa using hconn
  cases hpair : st.pair v with
  | none => simp [hpair] at hr
  | some c =>
    have hv := h.net.used_of_pair hpair
    obtain ⟨hclient, hready, hback⟩ := h.net.serves v hv nofun hconn hudp c hpair
    have hc := h.net.used_of_pair hback
    have hvc : v ≠ c := by
      rintro rfl
      exact h.net.selfless v hpair
    rw [hpair] at hr
    dsimp only at hr
    obtain ⟨st₁, hrestore, heq⟩ := Option.map_eq_some_iff.mp hr
    obtain ⟨h₁, hw, hslots, hcb₁, hconn₁, hbuff₁⟩ := restore_inv h hc hready hrestore
    have hv₁ : v ∈ st₁.w.used := hw ▸ hv
    have hpair₁ : (st₁.w.items v).pair = some c := hw ▸ hpair
    have halone : Alone (some v) st₁.w st₁.slots c := by
      refine h₁.net.alone_client hv₁ ?_ ?_ hpair₁ <;> rwa [hslots v hvc]
    have hhook := connectHook_hooked (k := k) h₁ (hw ▸ hc : c ∈ st₁.w.used) (hconn₁.trans hclient)
      halone
    have hmove : ∀ u i, (st.slots u).buff = some i → (st₁.slots u).buff = some i ∧
        (st₁.slots u).cb = (st.slots u).cb := by
      intro u i hi
      by_cases huc : u = c
      · subst huc
        exact ⟨hbuff₁ i hi, hcb₁⟩
      · rw [hslots u huc]
        exact ⟨hi, rfl⟩
    have hudp₁ : ∀ u, (st₁.slots u).cb = .udpTunnel → (st.slots u).cb = .udpTunnel := by
      intro u hu
      by_cases huc : u = c
      · subst huc
        rwa [hcb₁] at hu
      · rwa [hslots u huc] at hu
    generalize connectHook st₁ c k = r at heq hhook
    obtain ⟨b', st₂⟩ := r
    have hkept : ∀ u i, (st.slots u).buff = some i → (st₂.slots u).buff = some i ∧
        (Cb.waits (st₂.slots u).cb → Cb.waits (st.slots u).cb) := by
      intro u i hi
      obtain ⟨hi₁, hcb⟩ := hmove u i hi
      rw [← hcb]
      exact hhook.buff_kept (h₁.used_of_held (mem_held_buff hi₁)) hi₁
    cases b' with
    | false =>
      obtain ⟨rfl, rfl⟩ := Prod.mk.inj heq
      exact ⟨hhook.inv, fun u i _ => hkept u i, fun u hu => hudp₁ u (hhook.udp u hu)⟩
    | true =>
      obtain ⟨rfl, rfl⟩ := Prod.mk.inj heq
      have hv₂ : v ∈ st₂.w.used := hhook.used v hv₁
      have hpair₂ : (st₂.w.items v).pair = some c :=
        (hhook.pair v hv₁ fun _ => hvc).trans hpair₁
      have hconn₂ : (st₂.slots v).conn = true := by
        rw [hhook.slots v hv₁ hvc, hslots v hvc, hconn]
      have htunnel : (st₂.slots c).cb ≠ .tunnel := by
        have hcb := hhook.cb
        rw [if_pos rfl] at hcb
        rcases hcb with hcb | ⟨hcb, -⟩ <;> rw [hcb] <;> decide
      have h₂ : Inv x none (st₂.setWorld
          (st₂.w.setItem v { st₂.w.items v with pair := none })) := by
        have hinv := hhook.inv
        exact ⟨oneOwner_congr hinv.store rfl (fun _ _ => rfl) rfl rfl rfl rfl,
          hinv.net.leave hv₂ hconn₂ hpair₂ htunnel⟩
      have hnone : ((st₂.w.setItem v { st₂.w.items v with pair := none }).items v).pair = none := by
        rw [setItem_self]
      obtain ⟨h₃, -, hcb₃, hslots₃⟩ := inv_delEvent h₂ (noStray_unpaired hv₂ hnone)
      refine ⟨h₃, ?_, ?_⟩
      · intro u i hu hi
        rw [hslots₃ hnone u (by simpa using hu)]
        exact hkept u i hi
      · intro u hu
        rw [hcb₃] at hu
        exact hudp₁ u (hhook.udp u hu)

lemma onTrigger_keeps (h : Inv x none st) (hudp : (st.slots v).cb ≠ .udpTunnel)
    (hr : onTrigger st v alive t = some (b, st')) :
    Keeps x (if b then some v else none) st st' := by
  unfold onTrigger at hr
  split at hr
  · cases hr
  dsimp only at hr
  split at hr
  · exact reconnect_keeps h hudp hr
  · obtain ⟨rfl, rfl⟩ := Prod.mk.inj (Option.some.inj hr)
    exact keeps_refl h _

/-- Nothing is connected anew when it was the client that failed. -/
lemma onTrigger_dead (hr : onTrigger st v false t = some (b, st')) : b = false ∧ st' = st := by
  unfold onTrigger at hr
  split at hr
  · cases hr
  · simpa using hr.symm

lemma onFin_keeps (h : Inv x none st) (hudp : (st.slots v).cb ≠ .udpTunnel)
    (hr : onFin st v f = some (b, st')) :
    Keeps x (if b then some v else none) st st' ∧
      ((st.slots v).conn = false → b = false ∧ st' = st) := by
  have hfailed : some (false, st) = some (b, st') →
      Keeps x (if b then some v else none) st st' ∧
        ((st.slots v).conn = false → b = false ∧ st' = st) := by
    intro heq
    obtain ⟨rfl, rfl⟩ := Prod.mk.inj (Option.some.inj heq)
    exact ⟨keeps_refl h _, fun _ => ⟨rfl, rfl⟩⟩
  unfold onFin at hr
  split at hr
  · exact hfailed hr
  rename_i r hremote
  split at hr
  · cases hr
  split at hr
  · exact hfailed hr
  cases hconn : (st.slots v).conn with
  | true =>
    rw [hconn] at hr hremote
    obtain rfl : v = r := by simpa using hremote
    exact ⟨onTrigger_keeps h hudp hr, nofun⟩
  | false =>
    rw [hconn] at hr
    obtain ⟨rfl, rfl⟩ := onTrigger_dead hr
    exact ⟨keeps_refl h _, fun _ => ⟨rfl, rfl⟩⟩

lemma handleErr_keeps (h : Inv x none st) (hudp : (st.slots v).cb ≠ .udpTunnel)
    (hr : handleErr st v f = some (b, st')) :
    Keeps x (if b then some v else none) st st' ∧
      ((st.slots v).conn = false → b = false ∧ st' = st) := by
  unfold handleErr at hr
  split at hr
  · obtain ⟨rfl, rfl⟩ := Prod.mk.inj (Option.some.inj hr)
    exact ⟨keeps_refl h _, fun _ => ⟨rfl, rfl⟩⟩
  split at hr
  · rename_i hconn
    refine ⟨onTrigger_keeps h hudp hr, ?_⟩
    intro hno
    cases hconn.symm.trans hno
  · exact onFin_keeps h hudp hr

end Reconnect

end BufferHooks
