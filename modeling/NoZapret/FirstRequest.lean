import NoZapret.BuffPool
import NoZapret.Library.Runs

/-!
# The saved first request

The client's bytes are kept in `sq_buff` until the first response is accepted or the buffer
is full, so that they can be sent again over another connection. `save_buffer` starts the copy
in the handshake, `tcp_recv_hook` starts or extends it, `reconnect` reads it. The other slots
take buffers from the same pool and give them back.
-/

namespace FirstRequest

open Packets Pool BuffPool Runs

/-- One client with the pool; `received` is all that it has sent behind the handshake. -/
structure State where
  mem : Mem
  /-- the buffers of all other slots -/
  others : List Nat := []
  /-- the handshake is over -/
  established : Bool := false
  buff : Option Nat := none
  sqBuff : Option Nat := none
  recvCount : Nat := 0
  received : Bytes := []
  /-- a saved request has been given up -/
  released : Bool := false
  /-- ... which was not empty -/
  spent : Bool := false

/-- `free_first_req` -/
def freeFirstReq (st : State) : State :=
  match st.sqBuff with
  | none => st
  | some j => { st with
      mem := buffPush st.mem j
      sqBuff := none
      released := true
      spent := st.spent || !st.received.isEmpty }

/-- `save_buffer`; the payload stands in the buffer that it pops. -/
def saveBuffer (size : Nat) (st : State) (n : Nat) (ok : Bool) : Option State :=
  match buffPop st.mem size ok with
  | none => none
  | some (i, m) =>
    let m := m.put i { m.buffers i with lock := n }
    (buffPop m size ok).map fun (j, m) =>
      let copied := overwrite (m.buffers j).data 0 ((m.buffers i).data.take n)
      { st with
        mem := m.put j { m.buffers j with lock := n, data := copied }
        established := true
        buff := some i
        sqBuff := some j
        recvCount := n }

/-- `on_request` in the modes that get payload with the handshake: `data` is what `recv` and
`memmove` leave in the buffer, the first `n` bytes of it are payload. -/
def onRequest (size : Nat) (st : State) (data : Bytes) (n : Nat) (ok : Bool) : Option State :=
  match buffPpop st.mem size ok with
  | none => none
  | some (i, m) =>
    saveBuffer size { st with
      mem := m.put i { m.buffers i with data := data }
      received := data.take n } n ok

/-- The first `n` bytes of the buffer `i` go behind what `sq_buff` holds, if there is room. -/
def extend (st : State) (i j n : Nat) : State :=
  let sq := st.mem.buffers j
  let lock := sq.lock + n
  if sq.data.length ≤ lock then
    freeFirstReq { st with mem := st.mem.put j { sq with lock := lock } }
  else
    let copied := overwrite sq.data (lock - n) ((st.mem.buffers i).data.take n)
    { st with mem := st.mem.put j { sq with lock := lock, data := copied } }

/-- `tcp_recv_hook` for the client, whose buffer `i` it fills, with `auto_reconnect`. -/
def tcpRecvHook (st : State) (i : Nat) (chunk : Bytes) (ok : Bool) : Option State :=
  let n := chunk.length
  let st := { st with
    mem := st.mem.recv i chunk
    recvCount := st.recvCount + n
    received := st.received ++ chunk }
  match st.sqBuff with
  | some j => some (extend st i j n)
  | none =>
    if st.recvCount = n then
      (buffPop st.mem (st.mem.size i) ok).map fun r =>
        extend { st with mem := r.2, sqBuff := some r.1 } i r.1 n
    else some st

/-- `reconnect` up to `connect_hook`; `del_event` concerns the remote's buffer. -/
def reconnect (st : State) (ok : Bool) : Option State :=
  match st.sqBuff with
  | none => some st
  | some j => do
    let (i, m) ← match st.buff with
      | some i => some (i, st.mem)
      | none => buffPop st.mem (st.mem.size j) ok
    let sq := m.buffers j
    let copied := overwrite (m.buffers i).data 0 (sq.data.take sq.lock)
    return { st with
      mem := m.put i { data := copied, lock := sq.lock, offset := 0 }
      buff := some i }

inductive Act where
  /-- the handshake brings payload -/
  | request (data : Bytes) (n : Nat) (ok : Bool)
  /-- the handshake brings none -/
  | handshake
  /-- `val->buff = buff_pop(..)` for the client -/
  | hold (ok : Bool)
  /-- `recv` into the buffer that it holds -/
  | recv (chunk : Bytes) (ok : Bool)
  /-- the buffer changes when it is sent: `tamp`, `lock` and `offset` -/
  | tamper (b : Buffer)
  /-- it has been sent -/
  | sent
  | reconnect (ok : Bool)
  /-- the remote answers, and `on_response` does not return 0 -/
  | accepted
  /-- another slot takes a buffer, writes it, gives it back -/
  | take (ok : Bool)
  | write (i : Nat) (b : Buffer)
  | give (i : Nat)

/-- `size` is `bfsize`. A pool that finds no memory, and a connection that cannot be opened,
close the client. -/
def step (size : Nat) (st : State) : Act → Option State
  | .request data n ok =>
    if ¬ st.established ∧ data.length = size ∧ n ≤ size then onRequest size st data n ok else none
  | .handshake => if st.established then none else some { st with established := true }
  | .hold ok =>
    if st.established ∧ st.buff = none then
      (buffPop st.mem size ok).map fun r => { st with mem := r.2, buff := some r.1 }
    else none
  | .recv chunk ok =>
    match st.buff with
    | some i =>
      if chunk ≠ [] ∧ chunk.length ≤ st.mem.size i then tcpRecvHook st i chunk ok else none
    | none => none
  | .tamper b =>
    match st.buff with
    | some i => if b.data.length = st.mem.size i then some { st with mem := st.mem.put i b } else none
    | none => none
  | .sent =>
    match st.buff with
    | some i => some { st with mem := buffPush st.mem i, buff := none }
    | none => none
  | .reconnect ok => if st.established then reconnect st ok else none
  | .accepted => if st.established then some (freeFirstReq st) else none
  | .take ok =>
    (buffPop st.mem size ok).map fun r => { st with mem := r.2, others := r.1 :: st.others }
  | .write i b =>
    if i ∈ st.others ∧ b.data.length = st.mem.size i then some { st with mem := st.mem.put i b }
    else none
  | .give i =>
    if i ∈ st.others then
      some { st with mem := buffPush st.mem i, others := st.others.erase i }
    else none

def held (st : State) : List Nat := st.buff.toList ++ st.sqBuff.toList ++ st.others

/-- The saved request is what the client has sent. -/
def Exact (st : State) : Prop :=
  ∀ j, st.sqBuff = some j → (st.mem.buffers j).lock ≤ st.mem.size j ∧
    (st.mem.buffers j).data.take (st.mem.buffers j).lock = st.received

/-- A client that has just been accepted, beside others that have been there before. -/
structure Init (size : Nat) (st : State) : Prop where
  owned : Owned size st.others st.mem
  established : st.established = false
  buff : st.buff = none
  sqBuff : st.sqBuff = none
  recvCount : st.recvCount = 0
  received : st.received = []
  released : st.released = false
  spent : st.spent = false

/-- What holds between two events. -/
structure Kept (size : Nat) (st : State) : Prop where
  owned : Owned size (held st) st.mem
  exact : Exact st
  count : st.recvCount = st.received.length
  idle : st.established = false → st.buff = none ∧ st.sqBuff = none ∧ st.spent = false
  spent : st.spent = true → st.sqBuff = none ∧ st.received ≠ []

section Events

variable {size i j n : Nat} {st st' : State} {chunk data : Bytes} {ok : Bool} {m m' : Mem}

lemma held_buff (h : st.buff = some i) : held st = i :: held { st with buff := none } := by
  simp [held, h]

lemma held_sqBuff (h : st.sqBuff = some j) :
    (held st).Perm (j :: held { st with sqBuff := none }) := by
  simp only [held, h, Option.toList_some, Option.toList_none, List.append_nil, List.append_assoc,
    List.singleton_append]
  exact List.perm_middle

lemma mem_held_buff (h : st.buff = some i) : i ∈ held st := by
  simp [held, h]

lemma mem_held_sqBuff (h : st.sqBuff = some j) : j ∈ held st := by
  simp [held, h]

/-- The two buffers of the client are two. -/
lemma buff_ne (h : Owned size (held st) m) (hi : st.buff = some i) (hj : st.sqBuff = some j) :
    j ≠ i := by
  rintro rfl
  rw [held_buff hi] at h
  have hmem : j ∈ held { st with buff := none } := mem_held_sqBuff hj
  exact h.not_held hmem

lemma freeFirstReq_kept (howned : Owned size (held st) st.mem)
    (hcount : st.recvCount = st.received.length) (hest : st.established = true)
    (hspent : st.spent = true → st.received ≠ []) (hj : st.sqBuff = some j) :
    Kept size (freeFirstReq st) := by
  simp only [freeFirstReq, hj]
  have hpushed := (howned.perm (held_sqBuff hj)).push
  refine ⟨hpushed.1, ?_, hcount, ?_, ?_⟩
  · intro k hk
    cases hk
  · intro hnot
    cases hest.symm.trans hnot
  · intro hs
    refine ⟨rfl, ?_⟩
    have hs : (st.spent || !st.received.isEmpty) = true := hs
    rw [Bool.or_eq_true, Bool.not_eq_true', List.isEmpty_eq_false_iff] at hs
    exact hs.elim hspent id

/-- A chunk behind what is saved. -/
lemma copied_exact {b : Buffer} (chunk : Bytes) (hlock : b.lock ≤ b.data.length)
    (hroom : b.lock + chunk.length < b.data.length) :
    (overwrite b.data b.lock chunk).length = b.data.length ∧
      (overwrite b.data b.lock chunk).take (b.lock + chunk.length) =
        b.data.take b.lock ++ chunk :=
  ⟨overwrite_length (by omega), overwrite_take hlock⟩

/-- The copy grows, or it is given up. -/
lemma extend_kept (howned : Owned size (held st) st.mem) (hj : st.sqBuff = some j)
    (hchunk : (st.mem.buffers i).data.take chunk.length = chunk)
    (hlock : (st.mem.buffers j).lock ≤ (st.mem.buffers j).data.length)
    (hsaved : (st.mem.buffers j).data.take (st.mem.buffers j).lock ++ chunk = st.received)
    (hcount : st.recvCount = st.received.length) (hest : st.established = true)
    (hspent : st.spent = false) : Kept size (extend st i j chunk.length) := by
  have hmem : j ∈ held st := mem_held_sqBuff hj
  have hsize : (st.mem.buffers j).data.length = size :=
    howned.size j (List.mem_append_right _ hmem)
  have hnot : st.spent ≠ true := by simp [hspent]
  unfold extend
  simp only [Nat.add_sub_cancel, hchunk]
  split
  · refine freeFirstReq_kept (howned.put hmem hsize) hcount hest ?_ hj
    intro hs
    exact absurd hs hnot
  · obtain ⟨hlength, htake⟩ := copied_exact chunk hlock (by omega)
    refine ⟨howned.put hmem (hlength.trans hsize), ?_, hcount, ?_, ?_⟩
    · intro k hk
      cases hj.symm.trans hk
      simp only [Mem.size, put_self, hlength]
      refine ⟨by omega, ?_⟩
      rw [htake, hsaved]
    · intro hidle
      cases hest.symm.trans hidle
    · intro hs
      exact absurd hs hnot

lemma Kept.established_of (h : Kept size st) (hi : st.buff = some i) : st.established = true := by
  by_contra hnot
  rw [Bool.not_eq_true] at hnot
  cases hi.symm.trans (h.idle hnot).1

/-- The client's bytes reach its own buffer first. -/
lemma tcpRecvHook_kept (h : Kept size st) (hi : st.buff = some i) (hne : chunk ≠ [])
    (hfits : chunk.length ≤ st.mem.size i) (hstep : tcpRecvHook st i chunk ok = some st') :
    Kept size st' := by
  have hest := h.established_of hi
  have hlen : 0 < chunk.length := List.length_pos_of_ne_nil hne
  have hmem := mem_held_buff hi
  have howned := h.owned.recv hmem hfits
  have hcount : st.recvCount + chunk.length = (st.received ++ chunk).length := by
    rw [List.length_append, h.count]
  have hfilled := recv_take st.mem i chunk
  have hsize := howned.size i (List.mem_append_right _ hmem)
  cases hsq : st.sqBuff with
  | some j =>
    have hji := buff_ne h.owned hi hsq
    obtain ⟨hlock, hsaved⟩ := h.exact j hsq
    have hspent : st.spent = false := by
      by_contra hs
      rw [Bool.not_eq_false] at hs
      cases hsq.symm.trans (h.spent hs).1
    simp only [tcpRecvHook, hsq, Option.some.injEq] at hstep
    subst hstep
    refine extend_kept ?_ rfl hfilled ?_ ?_ hcount hest hspent
    · simpa [held, hsq] using howned
    · simp only [recv_of_ne hji]
      exact hlock
    · simp only [recv_of_ne hji]
      rw [hsaved]
  | none =>
    simp only [tcpRecvHook, hsq] at hstep
    split at hstep
    · rename_i hfirst
      have hnothing : st.received = [] := by
        rw [← List.length_eq_zero_iff, ← h.count]
        omega
      have hspent : st.spent = false := by
        by_contra hs
        rw [Bool.not_eq_false] at hs
        exact (h.spent hs).2 hnothing
      rw [hsize, Option.map_eq_some_iff] at hstep
      obtain ⟨⟨j, m⟩, hpop, rfl⟩ := hstep
      have hpopped := howned.pop hpop
      refine extend_kept ?_ rfl ?_ ?_ ?_ hcount hest hspent
      · refine hpopped.owned.perm ?_
        simp only [held, hsq, Option.toList_none, Option.toList_some, List.append_nil,
          List.append_assoc, List.singleton_append]
        exact List.perm_middle.symm
      · simp only [hpopped.kept i hmem]
        exact hfilled
      · simp only [hpopped.lock]
        exact Nat.zero_le _
      · simp only [hpopped.lock, List.take_zero, hnothing]
    · cases hstep
      refine ⟨?_, ?_, hcount, ?_, ?_⟩
      · simpa [held, hsq] using howned
      · intro j hj
        cases hj
      · intro hidle
        cases hest.symm.trans hidle
      · intro hs
        refine ⟨rfl, ?_⟩
        simp [hne]

/-- The copy is only read, and the client's own buffer is another one. -/
lemma copyBack_kept (h : Kept size st) (hest : st.established = true) (hsq : st.sqBuff = some j)
    (howned : Owned size (held { st with buff := some i }) m)
    (hsame : m.buffers j = st.mem.buffers j) :
    Kept size { st with
      mem := m.put i
        { data := overwrite (m.buffers i).data 0 ((m.buffers j).data.take (m.buffers j).lock)
          lock := (m.buffers j).lock
          offset := 0 }
      buff := some i
      sqBuff := some j } := by
  have hi : i ∈ held { st with buff := some i } := mem_held_buff rfl
  have hj : j ∈ held { st with buff := some i } := mem_held_sqBuff hsq
  have hisize := howned.size i (List.mem_append_right _ hi)
  have hjsize := howned.size j (List.mem_append_right _ hj)
  have hji : j ≠ i := buff_ne howned rfl hsq
  have hlength : (overwrite (m.buffers i).data 0
      ((m.buffers j).data.take (m.buffers j).lock)).length = size := by
    rw [← hisize]
    refine overwrite_length ?_
    rw [List.length_take, Nat.zero_add]
    have hle : min (m.buffers j).lock (m.size j) ≤ m.size i := by omega
    exact hle
  refine ⟨?_, ?_, h.count, ?_, ?_⟩
  · have hput := howned.put (b := ⟨_, (m.buffers j).lock, 0⟩) hi hlength
    rwa [held, hsq] at hput
  · intro k hk
    cases hk
    simp only [Mem.size, put_of_ne hji, hsame]
    exact h.exact j hsq
  · intro hidle
    cases hest.symm.trans hidle
  · intro hs
    cases hsq.symm.trans (h.spent hs).1

lemma reconnect_kept (h : Kept size st) (hest : st.established = true)
    (hstep : reconnect st ok = some st') : Kept size st' := by
  cases hsq : st.sqBuff with
  | none =>
    simp only [reconnect, hsq, Option.some.injEq] at hstep
    exact hstep ▸ h
  | some j =>
    have hj := mem_held_sqBuff hsq
    have hjsize := h.owned.size j (List.mem_append_right _ hj)
    have howned := h.owned
    cases hbuff : st.buff with
    | some i =>
      simp only [reconnect, hsq, hbuff, Option.bind_eq_bind, Option.bind_some,
        Option.pure_def, Option.some.injEq] at hstep
      subst hstep
      refine copyBack_kept h hest hsq ?_ rfl
      rwa [held, hbuff] at howned
    | none =>
      simp only [reconnect, hsq, hbuff, Option.bind_eq_bind, Option.pure_def,
        Option.bind_eq_some_iff, Option.some.injEq, hjsize] at hstep
      obtain ⟨⟨i, m⟩, hpop, rfl⟩ := hstep
      have hpopped := howned.pop hpop
      refine copyBack_kept h hest hsq ?_ (hpopped.kept j hj)
      have hgrown := hpopped.owned
      rwa [held, hbuff, Option.toList_none, List.nil_append] at hgrown

/-- `save_buffer` pops the buffer that `recv` has filled. -/
lemma onRequest_kept (h : Kept size st) (hest : st.established = false)
    (hdata : data.length = size) (hn : n ≤ size) (hstep : onRequest size st data n ok = some st') :
    Kept size st' := by
  obtain ⟨hbuff, hsq, hspent⟩ := h.idle hest
  have howned : Owned size st.others st.mem := by
    have howned := h.owned
    rwa [held, hbuff, hsq] at howned
  unfold onRequest at hstep
  split at hstep
  · cases hstep
  · rename_i i m hppop
    obtain ⟨hpushed, rest, hfree⟩ := howned.ppop hppop
    have hfilled := hpushed.fill (b := { m.buffers i with data := data }) hdata rfl
    have hpop : buffPop (m.put i { m.buffers i with data := data }) size ok =
        some (i, { m.put i { m.buffers i with data := data } with free := rest }) :=
      buffPop_cons hfree
    have hpopped := hfilled.pop hpop
    have hlocked := hpopped.owned.put (b := { data := data, lock := n, offset := (m.buffers i).offset })
      List.mem_cons_self hdata
    simp only [saveBuffer, hpop, put_self, Option.map_eq_some_iff] at hstep
    obtain ⟨⟨j, m'⟩, hpop', rfl⟩ := hstep
    have hcopy := hlocked.pop hpop'
    have hji : j ≠ i := by
      rintro rfl
      exact hcopy.owned.not_held List.mem_cons_self
    have hi : (m'.buffers i).data = data := by
      rw [hcopy.kept i List.mem_cons_self, put_self]
    have hlength : (overwrite (m'.buffers j).data 0 (data.take n)).length = size := by
      have hj := hcopy.owned.size j (List.mem_append_right _ List.mem_cons_self)
      rw [← hj]
      refine overwrite_length ?_
      rw [List.length_take, Nat.zero_add]
      have hle : min n data.length ≤ m'.size j := by omega
      exact hle
    have htaken : (data.take n).length = n := by
      rw [List.length_take]
      omega
    simp only [hi]
    refine ⟨?_, ?_, htaken.symm, ?_, ?_⟩
    · refine (hcopy.owned.put List.mem_cons_self hlength).perm ?_
      exact List.Perm.swap i j st.others
    · intro k hk
      cases hk
      simp only [Mem.size, put_self, hlength]
      refine ⟨hn, ?_⟩
      have hfront := overwrite_front (m'.buffers j).data (data.take n)
      rwa [htaken] at hfront
    · intro hidle
      cases hidle
    · intro hs
      cases hspent.symm.trans hs

/-- A buffer of the client or of another slot is written. -/
lemma put_kept {b : Buffer} (h : Kept size st) (hi : i ∈ held st) (hb : b.data.length = size)
    (hother : ∀ j, st.sqBuff = some j → j ≠ i) : Kept size { st with mem := st.mem.put i b } := by
  refine ⟨h.owned.put hi hb, ?_, h.count, h.idle, h.spent⟩
  intro j hj
  have hne := hother j hj
  simp only [Mem.size, put_of_ne hne]
  exact h.exact j hj

lemma step_kept {a : Act} (h : Kept size st) (hstep : step size st a = some st') :
    Kept size st' := by
  cases a with
  | request data n ok =>
    simp only [step, Option.ite_none_right_eq_some, Bool.not_eq_true] at hstep
    obtain ⟨⟨hest, hdata, hn⟩, hreq⟩ := hstep
    exact onRequest_kept h hest hdata hn hreq
  | handshake =>
    simp only [step, Option.ite_none_left_eq_some, Option.some.injEq, Bool.not_eq_true] at hstep
    obtain ⟨hest, rfl⟩ := hstep
    refine ⟨h.owned, h.exact, h.count, ?_, h.spent⟩
    intro hidle
    cases hidle
  | hold ok =>
    simp only [step, Option.ite_none_right_eq_some, Option.map_eq_some_iff] at hstep
    obtain ⟨⟨hest, hbuff⟩, ⟨i, m⟩, hpop, rfl⟩ := hstep
    have hpopped := h.owned.pop hpop
    refine ⟨?_, ?_, h.count, ?_, h.spent⟩
    · have howned := hpopped.owned
      rwa [held, hbuff, Option.toList_none, List.nil_append] at howned
    · intro j hj
      have hkept := hpopped.kept j (mem_held_sqBuff hj)
      simp only [Mem.size, hkept]
      exact h.exact j hj
    · intro hidle
      cases hest.symm.trans hidle
  | recv chunk ok =>
    cases hbuff : st.buff with
    | none => simp [step, hbuff] at hstep
    | some i =>
      simp only [step, hbuff, Option.ite_none_right_eq_some] at hstep
      obtain ⟨⟨hne, hfits⟩, hrecv⟩ := hstep
      exact tcpRecvHook_kept h hbuff hne hfits hrecv
  | tamper b =>
    cases hbuff : st.buff with
    | none => simp [step, hbuff] at hstep
    | some i =>
      simp only [step, hbuff, Option.ite_none_right_eq_some, Option.some.injEq] at hstep
      obtain ⟨hb, rfl⟩ := hstep
      have hmem := mem_held_buff hbuff
      have hsize := h.owned.size i (List.mem_append_right _ hmem)
      exact hbuff ▸ put_kept h hmem (hb.trans hsize) fun j hj => buff_ne h.owned hbuff hj
  | sent =>
    cases hbuff : st.buff with
    | none => simp [step, hbuff] at hstep
    | some i =>
      simp only [step, hbuff, Option.some.injEq] at hstep
      subst hstep
      have howned := h.owned
      rw [held_buff hbuff] at howned
      obtain ⟨hpushed, hkept⟩ := howned.push
      refine ⟨hpushed, ?_, h.count, ?_, h.spent⟩
      · intro j hj
        have hsame := hkept j (mem_held_sqBuff hj)
        simp only [Mem.size, hsame]
        exact h.exact j hj
      · intro hidle
        cases (h.established_of hbuff).symm.trans hidle
  | reconnect ok =>
    simp only [step, Option.ite_none_right_eq_some] at hstep
    exact reconnect_kept h hstep.1 hstep.2
  | accepted =>
    simp only [step, Option.ite_none_right_eq_some, Option.some.injEq] at hstep
    obtain ⟨hest, rfl⟩ := hstep
    cases hsq : st.sqBuff with
    | none =>
      simp only [freeFirstReq, hsq]
      exact h
    | some j => exact freeFirstReq_kept h.owned h.count hest (fun hs => (h.spent hs).2) hsq
  | take ok =>
    simp only [step, Option.map_eq_some_iff] at hstep
    obtain ⟨⟨i, m⟩, hpop, rfl⟩ := hstep
    have hpopped := h.owned.pop hpop
    refine ⟨hpopped.owned.perm ?_, ?_, h.count, h.idle, h.spent⟩
    · exact List.perm_middle.symm
    · intro j hj
      have hkept := hpopped.kept j (mem_held_sqBuff hj)
      simp only [Mem.size, hkept]
      exact h.exact j hj
  | write i b =>
    simp only [step, Option.ite_none_right_eq_some, Option.some.injEq] at hstep
    obtain ⟨⟨hi, hb⟩, rfl⟩ := hstep
    have hmem : i ∈ held st := List.mem_append_right _ hi
    have hsize := h.owned.size i (List.mem_append_right _ hmem)
    refine put_kept h hmem (hb.trans hsize) ?_
    rintro j hj rfl
    have hnodup := (List.nodup_append.mp h.owned.once).2.1
    refine (List.nodup_append.mp hnodup).2.2 j ?_ j hi rfl
    simp [hj]
  | give i =>
    simp only [step, Option.ite_none_right_eq_some, Option.some.injEq] at hstep
    obtain ⟨hi, rfl⟩ := hstep
    have hperm : (held st).Perm (i :: held { st with others := st.others.erase i }) := by
      refine ((List.perm_cons_erase hi).append_left _).trans ?_
      exact List.perm_middle
    obtain ⟨hpushed, hkept⟩ := (h.owned.perm hperm).push
    refine ⟨hpushed, ?_, h.count, h.idle, h.spent⟩
    intro j hj
    have hsame := hkept j (mem_held_sqBuff hj)
    simp only [Mem.size, hsame]
    exact h.exact j hj

lemma init_kept (h : Init size st) : Kept size st := by
  refine ⟨?_, ?_, ?_, fun _ => ⟨h.buff, h.sqBuff, h.spent⟩, ?_⟩
  · rw [held, h.buff, h.sqBuff]
    exact h.owned
  · intro j hj
    cases h.sqBuff.symm.trans hj
  · rw [h.recvCount, h.received]
    rfl
  · intro hs
    cases h.spent.symm.trans hs

end Events

/-- The saved request is exactly what the client has sent, and after the end of one that was
not empty there is none again. -/
theorem saved_request {size : Nat} {st₀ st : State} {acts : List Act} (h₀ : Init size st₀)
    (hrun : run (step size) st₀ acts = some st) :
    Exact st ∧ (st.spent = true → st.sqBuff = none) := by
  have h : Kept size st := by
    refine run_invariant ?_ (init_kept h₀) hrun
    intro st a st' h hstep
    exact step_kept h hstep
  exact ⟨h.exact, fun hs => (h.spent hs).1⟩

/-- A pool that has not handed out anything yet; memory is zero. -/
def start (size : Nat) : State where
  mem := { buffers := fun _ => { data := List.replicate size 0 } }

lemma start_init (size : Nat) : Init size (start size) := by
  refine ⟨⟨List.nodup_nil, ?_, ?_, ?_, Nat.zero_le _⟩, rfl, rfl, rfl, rfl, rfl, rfl, rfl⟩
  · intro i hi
    cases hi
  · intro i hi
    cases hi
  · intro i hi
    cases hi

/-- A request in two pieces is tampered with, sent again, and given up with the response. -/
theorem saved_request_twice :
    ∃ st, run (step 8) (start 8) [.handshake, .hold true, .recv [1, 2] true,
        .tamper { data := [9, 9, 0, 0, 0, 0, 0, 0], lock := 2 }, .sent, .hold true, .recv [3] true,
        .reconnect true, .accepted, .sent] = some st ∧
      Exact st ∧ (st.spent = true → st.sqBuff = none) := by
  have hsome : (run (step 8) (start 8) [.handshake, .hold true, .recv [1, 2] true,
      .tamper { data := [9, 9, 0, 0, 0, 0, 0, 0], lock := 2 }, .sent, .hold true, .recv [3] true,
      .reconnect true, .accepted, .sent]).isSome := by decide
  have hrun := (Option.some_get hsome).symm
  exact ⟨_, hrun, saved_request (start_init 8) hrun⟩

/-- The handshake leaves an empty request; the remote speaks first, and then the client. -/
theorem empty_request_again :
    Init 8 (start 8) ∧ ∃ st, run (step 8) (start 8) [.request [0, 0, 0, 0, 0, 0, 0, 0] 0 true,
        .accepted, .sent, .hold true, .recv [1] true] = some st ∧
      ¬ (st.released = true → st.sqBuff = none) := by
  refine ⟨start_init 8, ?_⟩
  have hrun : (run (step 8) (start 8) [.request [0, 0, 0, 0, 0, 0, 0, 0] 0 true,
      .accepted, .sent, .hold true, .recv [1] true]).map (fun st => (st.released, st.sqBuff.isSome)) =
        some (true, true) := by decide
  obtain ⟨st, hst, heq⟩ := Option.map_eq_some_iff.mp hrun
  rw [Prod.mk.injEq] at heq
  refine ⟨st, hst, ?_⟩
  intro hnone
  rw [hnone heq.1] at heq
  cases heq.2

end FirstRequest
