import NoZapret.Stream

/-!
# One lemma for each operation of the pass

What each function of `Desync` does to the stream, the schedule and the loop
variables. The later modules reason from these and do not unfold the functions
again.
-/

namespace DesyncSpec

open Block Packets Params Desync Stream

/-- Every send to come accepts all bytes. -/
def AllSent (w : Sock) : Prop := ∀ r ∈ w.sends, r = .all

/-- Nothing is reported unsent any more. -/
def NeverUnsent (w : Sock) : Prop := ∀ b ∈ w.notsent, b = false

/-- `mmap`, `setsockopt` and `getpeername` succeed. -/
def SysOk (w : Sock) : Prop := ∀ b ∈ w.sys, b = true

/-- A step that neither sends nor asks for unsent bytes. -/
structure Silent (w w' : Sock) : Prop where
  sends : w'.sends = w.sends
  notsent : w'.notsent = w.notsent
  sysOk : SysOk w → SysOk w'
  stream : stream w'.log = stream w.log

lemma Silent.refl (w : Sock) : Silent w w := ⟨rfl, rfl, id, rfl⟩

lemma Silent.trans {w w' w'' : Sock} (h : Silent w w') (h' : Silent w' w'') : Silent w w'' :=
  ⟨h'.sends.trans h.sends, h'.notsent.trans h.notsent, h'.sysOk ∘ h.sysOk,
    h'.stream.trans h.stream⟩

lemma silent_emit (w : Sock) {e : Event} (he : eventBytes e = []) : Silent w (w.emit e) :=
  ⟨rfl, rfl, id, by rw [stream_emit, he, List.append_nil]⟩

lemma silent_sys1 (w : Sock) : Silent w w.sys1.2 := by
  unfold Sock.sys1
  split
  · exact .refl w
  · next ok rest hsys =>
    refine ⟨rfl, rfl, fun h b hb => ?_, rfl⟩
    exact h b (by rw [hsys]; exact List.mem_cons_of_mem ok hb)

lemma sys1_ok {w : Sock} (h : SysOk w) : w.sys1.1 = true := by
  unfold Sock.sys1
  split
  · rfl
  · next ok rest hsys => exact h ok (by rw [hsys]; exact List.mem_cons_self)

lemma silent_setttl (w : Sock) (ttl : Nat) : Silent w (w.setttl ttl).2 := by
  have h2 : Silent w w.sys1.2.sys1.2 := (silent_sys1 w).trans (silent_sys1 _)
  unfold Sock.setttl
  dsimp only
  split
  · exact h2.trans (silent_emit _ rfl)
  · exact h2

lemma setttl_ok {w : Sock} (h : SysOk w) (ttl : Nat) : (w.setttl ttl).1 = true := by
  have h6 : w.sys1.1 = true := sys1_ok h
  unfold Sock.setttl
  dsimp only
  rw [h6, Bool.or_true, if_pos rfl]

lemma silent_setMd5sig (w : Sock) (len : Nat) : Silent w (w.setMd5sig len).2 := by
  unfold Sock.setMd5sig
  dsimp only
  split
  · exact silent_sys1 w
  · split
    · exact ((silent_sys1 w).trans (silent_sys1 _)).trans (silent_emit _ rfl)
    · exact (silent_sys1 w).trans (silent_sys1 _)

lemma setMd5sig_ok {w : Sock} (h : SysOk w) (len : Nat) : (w.setMd5sig len).1 = true := by
  have h1 : w.sys1.1 = true := sys1_ok h
  have h2 : w.sys1.2.sys1.1 = true := sys1_ok ((silent_sys1 w).sysOk h)
  unfold Sock.setMd5sig
  simp [h1, h2]

lemma hasNotsent_false {w : Sock} (h : NeverUnsent w) : w.hasNotsent.1 = false := by
  unfold Sock.hasNotsent
  cases hn : w.notsent with
  | nil => rfl
  | cons b rest => exact h b (by rw [hn]; exact List.mem_cons_self)

/-- `send` when everything is accepted. -/
lemma send_all {w : Sock} (h : AllSent w) (o : Origin) (payload : Bytes) (oob : Bool) :
    w.send o payload oob = ((payload.length : Int),
      { w with sends := w.sends.tail }.emit (.sent o payload oob payload.length)) := by
  unfold Sock.send
  cases hs : w.sends with
  | nil => rfl
  | cons r rest =>
    have hr : r = .all := h r (by rw [hs]; exact List.mem_cons_self)
    subst hr
    rfl

/-- The loop state after a step that put `x` on the stream; `info` is what the
step left of the protocol data. -/
structure Sent (st st' : Loop) (info : ProtoInfo) (x : List (UInt8 × Option Nat)) : Prop where
  lp : st'.lp = st.lp
  info : st'.info = info
  partSent : st'.partSent = st.partSent
  sends : ∀ r ∈ st'.sock.sends, r ∈ st.sock.sends
  notsent : st'.sock.notsent = st.sock.notsent
  sysOk : SysOk st.sock → SysOk st'.sock
  stream : stream st'.sock.log = Stream.stream st.sock.log ++ x

lemma Sent.allSent {st st' : Loop} {info : ProtoInfo} {x : List (UInt8 × Option Nat)}
    (h : Sent st st' info x) (hs : AllSent st.sock) : AllSent st'.sock :=
  fun r hr => hs r (h.sends r hr)

lemma sent_of_silent {st : Loop} {w : Sock} (h : Silent st.sock w) (info : ProtoInfo)
    (r : Restore) : Sent st { st with sock := w, info := info, remote := r } info [] :=
  ⟨rfl, rfl, rfl, fun _ hr => h.sends ▸ hr, h.notsent, h.sysOk, by simp [h.stream]⟩

lemma Sent.trans {st st' st'' : Loop} {info info' : ProtoInfo}
    {x y : List (UInt8 × Option Nat)} (h : Sent st st' info x) (h' : Sent st' st'' info' y) :
    Sent st st'' info' (x ++ y) :=
  ⟨h'.lp.trans h.lp, h'.info, h'.partSent.trans h.partSent,
    fun r hr => h.sends r (h'.sends r hr), h'.notsent.trans h.notsent, h'.sysOk ∘ h.sysOk,
    by rw [h'.stream, h.stream, List.append_assoc]⟩

lemma exists_slice {b : Bytes} {i j : Nat} (hij : i ≤ j) (hj : j ≤ b.length) :
    ∃ xs, slice b i ((j : Int) - i) = some xs ∧ (xs.length : Int) = (j : Int) - i ∧
      xs.zipIdx i = span b i j :=
  ⟨_, slice_eq hij hj, slice_length (slice_eq hij hj), slice_zipIdx hij hj (slice_eq hij hj)⟩

lemma sendRequest_eq {c : Call} {st : Loop} {pos : Nat} {xs : Bytes}
    (h : slice c.buffer st.lp ((pos : Int) - st.lp) = some xs) :
    sendRequest c st pos = some ((st.sock.send (.request st.lp) xs false).1,
      { st with sock := (st.sock.send (.request st.lp) xs false).2 }) := by
  simp [sendRequest, h]

lemma sendOob_eq {c : Call} {st : Loop} {pos : Nat} {xs : Bytes} (hpos : pos < c.buffer.length)
    (h : slice c.buffer st.lp ((pos : Int) - st.lp) = some xs) :
    let out := st.sock.send (.request st.lp) (xs ++ [c.dp.oobChar.getD (ch 'a')]) true
    sendOob c st pos =
      some (if out.1 < 0 then -1 else out.1 - 1, { st with sock := out.2 }) := by
  simp [sendOob, h, Nat.not_le.mpr hpos]

lemma sendOob_full {c : Call} {st : Loop} {pos : Nat} (hpos : c.buffer.length ≤ pos) :
    sendOob c st pos = some (-1, st) := by
  simp [sendOob, hpos]

/-- A send that accepts everything, as a step of the loop. -/
lemma sent_send {st : Loop} (hs : AllSent st.sock) (o : Origin) (payload : Bytes) (oob : Bool) :
    Sent st { st with sock := (st.sock.send o payload oob).2 } st.info
      (eventBytes (.sent o payload oob payload.length)) := by
  rw [send_all hs]
  exact ⟨rfl, rfl, rfl, fun _ hr => List.mem_of_mem_tail hr, rfl, id, stream_emit _ _⟩

lemma sendRequest_all {c : Call} {st : Loop} {pos : Nat} (hlp : st.lp ≤ pos)
    (hpos : pos ≤ c.buffer.length) (hs : AllSent st.sock) :
    ∃ st', sendRequest c st pos = some ((pos : Int) - st.lp, st') ∧
      Sent st st' st.info (part c.buffer st.lp pos) := by
  obtain ⟨xs, hxs, hlen, hspan⟩ := exists_slice hlp hpos
  refine ⟨{ st with sock := (st.sock.send (.request st.lp) xs false).2 }, ?_, ?_⟩
  · rw [sendRequest_eq hxs, send_all hs, hlen]
  · have h := sent_send hs (.request st.lp) xs false
    simpa [eventBytes, part, hspan] using h

lemma sendOob_all {c : Call} {st : Loop} {pos : Nat} (hlp : st.lp ≤ pos)
    (hpos : pos < c.buffer.length) (hs : AllSent st.sock) :
    ∃ st', sendOob c st pos = some ((pos : Int) - st.lp, st') ∧
      Sent st st' st.info (part c.buffer st.lp pos) := by
  obtain ⟨xs, hxs, hlen, hspan⟩ := exists_slice hlp (Nat.le_of_lt hpos)
  refine ⟨{ st with sock := (st.sock.send (.request st.lp)
    (xs ++ [c.dp.oobChar.getD (ch 'a')]) true).2 }, ?_, ?_⟩
  · rw [sendOob_eq hpos hxs, send_all hs]
    simp only [List.length_append, List.length_singleton, Int.natCast_add, Int.natCast_one,
      Int.add_sub_cancel, hlen]
    rw [if_neg (by omega)]
  · have h := sent_send hs (.request st.lp) (xs ++ [c.dp.oobChar.getD (ch 'a')]) true
    simpa [eventBytes, part, hspan] using h

lemma setttl_step {st : Loop} (h : SysOk st.sock) (first : Bool) :
    (if first then st.sock.setttl 1 else (true, st.sock)).1 = true ∧
      Silent st.sock (if first then st.sock.setttl 1 else (true, st.sock)).2 := by
  cases first with
  | true => exact ⟨setttl_ok h 1, silent_setttl _ 1⟩
  | false => exact ⟨rfl, .refl _⟩

lemma disorder_eq (c : Call) (oob first : Bool) (pos : Nat) {st : Loop} (h : SysOk st.sock) :
    ∃ st', Sent st st' st.info [] ∧
      disorder c oob first st pos =
        (if oob then sendOob c st' pos else sendRequest c st' pos) := by
  obtain ⟨hok, hsil⟩ := setttl_step h first
  refine ⟨_, sent_of_silent hsil st.info { st.remote with ttl := true }, ?_⟩
  simp [disorder, hok]

/-- Every mode but the first half of a decoy sends the bytes up to `pos`. -/
theorem sendPart_plain (c : Call) (idx : Nat) {rep : Rep} (st : Loop) {pos : Nat}
    (hmode : rep.1.m = .fake → firstOfPair rep = false)
    (hoob : rep.1.m.urgent = true → pos < c.buffer.length)
    (hlp : st.lp ≤ pos) (hpos : pos ≤ c.buffer.length) (hs : AllSent st.sock)
    (hk : SysOk st.sock) :
    ∃ st', sendPart c idx rep st pos = some (some ((pos : Int) - st.lp), st') ∧
      Sent st st' st.info (part c.buffer st.lp pos) := by
  obtain ⟨stR, hR, hRs⟩ := sendRequest_all (c := c) hlp hpos hs
  cases hm : rep.1.m with
  | none => exact ⟨stR, by simp [sendPart, hm, hR], hRs⟩
  | split => exact ⟨stR, by simp [sendPart, hm, hR], hRs⟩
  | fake => exact ⟨stR, by simp [sendPart, hm, hmode hm, hR], hRs⟩
  | oob =>
    obtain ⟨st', h, hsent⟩ := sendOob_all (c := c) hlp (hoob (by rw [hm]; rfl)) hs
    exact ⟨st', by simp [sendPart, hm, h], hsent⟩
  | disorder =>
    obtain ⟨st1, hst1, heq⟩ := disorder_eq c false (firstOfPair rep) pos hk
    obtain ⟨st', h, hsent⟩ := sendRequest_all (c := c) (hst1.lp ▸ hlp) hpos (hst1.allSent hs)
    refine ⟨st', by simp [sendPart, hm, heq, h, hst1.lp], ?_⟩
    simpa [hst1.lp, hst1.info] using hst1.trans hsent
  | disoob =>
    obtain ⟨st1, hst1, heq⟩ := disorder_eq c true (firstOfPair rep) pos hk
    obtain ⟨st', h, hsent⟩ := sendOob_all (c := c) (hst1.lp ▸ hlp) (hoob (by rw [hm]; rfl))
      (hst1.allSent hs)
    refine ⟨st', by simp [sendPart, hm, heq, h, hst1.lp], ?_⟩
    simpa [hst1.lp, hst1.info] using hst1.trans hsent

/-- `send_oob` refuses a position at the end of the buffer. -/
theorem sendPart_urgent_full (c : Call) (idx : Nat) {rep : Rep} (st : Loop) {pos : Nat}
    (hoob : rep.1.m.urgent = true) (hpos : c.buffer.length ≤ pos) (hk : SysOk st.sock) :
    ∃ st', sendPart c idx rep st pos = some (some (-1), st') ∧ Sent st st' st.info [] := by
  cases hm : rep.1.m with
  | oob => exact ⟨st, by simp [sendPart, hm, sendOob_full hpos], sent_of_silent (.refl _) _ _⟩
  | disoob =>
    obtain ⟨st1, hst1, heq⟩ := disorder_eq c true (firstOfPair rep) pos hk
    exact ⟨st1, by simp [sendPart, hm, heq, sendOob_full hpos], hst1⟩
  | none | split | disorder | fake => simp [hm, Demode.urgent] at hoob

lemma fakeOff_range {dp : DesyncParams} {rnd : Rands} {idx n size : Nat} {buffer : Bytes}
    {info info' : ProtoInfo} {off : Int}
    (h : fakeOff dp rnd idx buffer n size info = some (off, info')) : 0 ≤ off ∧ off ≤ size := by
  unfold fakeOff at h
  split at h
  · cases h
    omega
  · simp only [Option.bind_eq_bind, Option.bind_eq_some_iff] at h
    obtain ⟨⟨o, i⟩, -, h⟩ := h
    cases h
    dsimp only
    split <;> omega

lemma fakePacket_off {dp : DesyncParams} {rnd : Rands} {idx n : Nat} {buffer : Bytes}
    {info info' : ProtoInfo} {pkt : Packet}
    (h : fakePacket dp rnd idx buffer n info = some (pkt, info')) :
    0 ≤ pkt.off ∧ pkt.off ≤ pkt.data.length := by
  simp only [fakePacket, Option.bind_eq_bind, Option.bind_eq_some_iff] at h
  obtain ⟨info1, -, page, -, page', -, ⟨off, info2⟩, hoff, h⟩ := h
  cases h
  exact fakeOff_range hoff

/-- How many bytes of a decoy go out in place of `[lp, pos)`. -/
def decoyLen (pkt : Packet) (lp pos : Nat) : Int :=
  min ((pos : Int) - lp) (pkt.data.length - pkt.off)

lemma md5_step {w : Sock} (h : SysOk w) (on : Bool) :
    (if on then w.setMd5sig 5 else (true, w)).1 = true ∧
      Silent w (if on then w.setMd5sig 5 else (true, w)).2 := by
  cases on with
  | true => exact ⟨setMd5sig_ok h 5, silent_setMd5sig _ 5⟩
  | false => exact ⟨rfl, .refl _⟩

lemma sendFake_all (c : Call) {st : Loop} {pos : Nat} {pkt : Packet} (hlp : st.lp ≤ pos)
    (hoff : 0 ≤ pkt.off ∧ pkt.off ≤ pkt.data.length) (hs : AllSent st.sock)
    (hk : SysOk st.sock) :
    ∃ (st' : Loop) (xs : Bytes), sendFake c st pos pkt = some (decoyLen pkt st.lp pos, st') ∧
      (xs.length : Int) = decoyLen pkt st.lp pos ∧
      Sent st st' st.info (xs.map fun x : UInt8 => (x, none)) := by
  have hok1 := setttl_ok hk (if c.dp.ttl = 0 then 8 else c.dp.ttl)
  have hsil1 := silent_setttl st.sock (if c.dp.ttl = 0 then 8 else c.dp.ttl)
  obtain ⟨hok2, hsil2⟩ := md5_step (hsil1.sysOk hk) c.dp.md5sig
  have hsil := hsil1.trans hsil2
  obtain ⟨xs, hxs⟩ : ∃ xs, slice pkt.data pkt.off (decoyLen pkt st.lp pos) = some xs := by
    unfold slice decoyLen
    rw [if_pos (by omega)]
    exact ⟨_, rfl⟩
  have hlen := slice_length hxs
  have hsent := sent_of_silent hsil st.info ⟨true, c.dp.md5sig, st.remote.fake⟩
  have hall := hsent.allSent hs
  refine ⟨_, xs, ?_, hlen, by simpa [eventBytes] using hsent.trans (sent_send hall .decoy xs false)⟩
  unfold decoyLen at hxs
  simp only [sendFake, hok1, hok2, Option.bind_eq_bind]
  rw [if_neg (by omega)]
  simp [hxs, send_all hall, hlen]

/-- The first half of a decoy pair: where its page cannot be built the call is
undefined, and otherwise no byte of the request goes out. -/
theorem sendPart_fake {c : Call} {idx : Nat} {rep : Rep} (st : Loop) {pos : Nat} {pkt : Packet}
    {info : ProtoInfo} (hm : rep.1.m = .fake) (hf : firstOfPair rep = true)
    (hpkt : fakePacket c.dp c.rnd idx c.buffer c.n st.info = some (pkt, info))
    (hlp : st.lp ≤ pos) (hs : AllSent st.sock) (hk : SysOk st.sock) :
    ∃ (st' : Loop) (xs : Bytes),
      sendPart c idx rep st pos = some (some (decoyLen pkt st.lp pos), st') ∧
      (xs.length : Int) = decoyLen pkt st.lp pos ∧
      Sent st st' info (xs.map fun x : UInt8 => (x, none)) := by
  have hoff := fakePacket_off hpkt
  have hsil : Silent st.sock (st.sock.sys1.2.emit (.mapPage pkt.data.length)) :=
    (silent_sys1 _).trans (silent_emit _ rfl)
  have hsent := sent_of_silent hsil info
    { st.remote with fake := some pkt.data.length }
  by_cases hpos : pos = st.lp
  · refine ⟨_, [], ?_, ?_, hsent⟩
    · simp [sendPart, hm, hf, fakeFirst, sys1_ok hk, hpkt, hpos, decoyLen]
      omega
    · simp [decoyLen, hpos]
      omega
  · obtain ⟨st', xs, h, hlen, hsent'⟩ := sendFake_all c (hsent.lp.symm ▸ hlp) hoff
      (hsent.allSent hs) (hsent.sysOk hk)
    refine ⟨st', xs, ?_, hlen, by simpa using hsent.trans hsent'⟩
    simp [sendPart, hm, hf, fakeFirst, sys1_ok hk, hpkt, hpos, h]

lemma sendPart_fake_none {c : Call} {idx : Nat} {rep : Rep} {st : Loop} {pos : Nat}
    (hm : rep.1.m = .fake) (hf : firstOfPair rep = true)
    (hpkt : fakePacket c.dp c.rnd idx c.buffer c.n st.info = none) (hk : SysOk st.sock) :
    sendPart c idx rep st pos = none := by
  simp [sendPart, hm, hf, fakeFirst, sys1_ok hk, hpkt]

/-- `restore_state` touches neither the loop variables nor the stream. -/
structure Restored (st st' : Loop) : Prop where
  lp : st'.lp = st.lp
  info : st'.info = st.info
  partSent : st'.partSent = st.partSent
  silent : Silent st.sock st'.sock

lemma Restored.refl (st : Loop) : Restored st st := ⟨rfl, rfl, rfl, .refl _⟩

lemma Restored.trans {st st' st'' : Loop} (h : Restored st st') (h' : Restored st' st'') :
    Restored st st'' :=
  ⟨h'.lp.trans h.lp, h'.info.trans h.info, h'.partSent.trans h.partSent,
    h.silent.trans h'.silent⟩

lemma restored_unmapFake (st : Loop) : Restored st (unmapFake st) := by
  unfold unmapFake
  split
  · exact ⟨rfl, rfl, rfl, silent_emit _ rfl⟩
  · exact .refl st

lemma restored_clearMd5 (st : Loop) : Restored st (clearMd5 st) := by
  unfold clearMd5
  split
  · exact ⟨rfl, rfl, rfl, silent_setMd5sig _ 0⟩
  · exact .refl st

lemma restored_resetTtl (g : Globals) (st : Loop) : Restored st (resetTtl g st) := by
  unfold resetTtl
  split
  · exact ⟨rfl, rfl, rfl, silent_setttl _ _⟩
  · exact .refl st

lemma restored_restoreState (g : Globals) (st : Loop) : Restored st (restoreState g st) :=
  ((restored_unmapFake st).trans (restored_clearMd5 _)).trans (restored_resetTtl g _)

/-- The loop variables after a repetition whose send came back complete. -/
structure After (curr : Nat) (first : Bool) (pos : Nat) (st st' : Loop) : Prop where
  lp : st'.lp = if first then st.lp else pos
  info : st'.info = st.info
  partSent : st'.partSent = if first then st.partSent else curr
  sends : st'.sock.sends = st.sock.sends
  notsent : st'.sock.notsent = st.sock.notsent.tail
  sysOk : SysOk st.sock → SysOk st'.sock
  stream : stream st'.sock.log = Stream.stream st.sock.log

/-- Does the call suspend after this repetition? -/
def suspends (c : Call) (curr : Nat) (st : Loop) : Bool :=
  st.sock.notsent.headD false || (c.g.waitSend && decide (c.partSkip < curr))

lemma not_suspends {c : Call} {curr : Nat} {st : Loop} (h : NeverUnsent st.sock)
    (hw : c.g.waitSend = false) : suspends c curr st = false := by
  have hunsent := hasNotsent_false h
  simp only [Sock.hasNotsent] at hunsent
  simp only [suspends, hunsent, hw, Bool.false_and, Bool.or_false]

/-- What the answer of `sock_has_notsent` leaves behind. -/
def polled (first : Bool) (curr pos : Nat) (st : Loop) : Loop :=
  { st with
    lp := if first then st.lp else pos
    partSent := if first then st.partSent else curr
    sock := st.sock.hasNotsent.2 }

lemma after_of_restored {curr pos : Nat} {first : Bool} {st st' : Loop}
    (h : Restored (polled first curr pos st) st') : After curr first pos st st' :=
  ⟨h.lp, h.info, h.partSent, h.silent.sends, h.silent.notsent, h.silent.sysOk, h.silent.stream⟩

lemma polled_advance {curr pos : Nat} {st : Loop} (hlp : st.lp ≤ pos) :
    (if (pos : Int) - st.lp > 0 then
        { st with partSent := curr, lp := st.lp + ((pos : Int) - st.lp).toNat }
      else { st with partSent := curr }) = { st with partSent := curr, lp := pos } := by
  split
  · congr 1
    omega
  · have heq : st.lp = pos := by omega
    rw [heq]

lemma set_lp {st : Loop} {pos : Nat} (h : st.lp = pos) : { st with lp := pos } = st := by
  subst h
  rfl

lemma afterSend_eq (c : Call) (curr : Nat) (first : Bool) {pos : Nat} {st : Loop}
    (hlp : st.lp ≤ pos) :
    afterSend c curr first pos ((pos : Int) - st.lp) st =
      if suspends c curr st then
        .ret ((if first then (st.lp : Int) else pos) - c.offset) true
          { polled first curr pos st with
            sock := (polled first curr pos st).sock.emit (.timer c.g.awaitInt) }
      else .next (restoreState c.g (polled first curr pos st)) := by
  have hnn : ¬ (pos : Int) - st.lp < 0 := by omega
  cases first with
  | true => simp [afterSend, hnn, polled, suspends, Sock.hasNotsent]
  | false =>
    have hset := set_lp (restored_restoreState c.g (polled false curr pos st)).lp
    simp only [polled, Bool.false_eq_true, if_false, Sock.hasNotsent] at hset
    simp only [afterSend, hnn, Bool.false_eq_true, if_false, polled_advance hlp]
    simp [polled, suspends, Sock.hasNotsent, hset]

/-- A complete send: the call goes on behind the part, or suspends there. -/
theorem afterSend_complete (c : Call) (curr : Nat) (first : Bool) {pos : Nat} {st : Loop}
    (hlp : st.lp ≤ pos) :
    ∃ st', After curr first pos st st' ∧
      afterSend c curr first pos ((pos : Int) - st.lp) st =
        if suspends c curr st then
          .ret ((if first then (st.lp : Int) else pos) - c.offset) true st'
        else .next st' := by
  have heq := afterSend_eq c curr first hlp
  by_cases hsus : suspends c curr st = true
  · refine ⟨{ polled first curr pos st with
      sock := (polled first curr pos st).sock.emit (.timer c.g.awaitInt) },
      after_of_restored ⟨rfl, rfl, rfl, silent_emit _ rfl⟩, ?_⟩
    rw [heq, if_pos hsus, if_pos hsus]
  · refine ⟨_, after_of_restored (restored_restoreState c.g _), ?_⟩
    rw [heq, if_neg hsus, if_neg hsus]

/-- A send that failed or was cut ends the call; only `part_sent` has moved. -/
lemma afterSend_ends (c : Call) (curr : Nat) (first : Bool) {pos : Nat} {s : Int} {st : Loop}
    (hs : s ≠ (pos : Int) - st.lp) :
    afterSend c curr first pos s st =
      .ret (if 0 ≤ s then st.lp + s - c.offset
          else if st.sock.errAgain then st.lp - c.offset else -1) false
        { st with partSent := if first then st.partSent else curr } := by
  cases first <;> by_cases hneg : s < 0 <;> cases herr : st.sock.errAgain <;>
    simp [afterSend, hneg, herr, hs, Int.not_le.mpr]

/-- Nothing goes wrong on the socket any more. -/
structure Calm (w : Sock) : Prop where
  allSent : AllSent w
  neverUnsent : NeverUnsent w
  sysOk : SysOk w

lemma calm_of_sent {st st' : Loop} {info : ProtoInfo} {x : List (UInt8 × Option Nat)}
    (h : Sent st st' info x) (hc : Calm st.sock) : Calm st'.sock :=
  ⟨h.allSent hc.allSent, fun b hb => hc.neverUnsent b (h.notsent ▸ hb), h.sysOk hc.sysOk⟩

lemma calm_of_after {curr pos : Nat} {first : Bool} {st st' : Loop}
    (h : After curr first pos st st') (hc : Calm st.sock) : Calm st'.sock :=
  ⟨fun r hr => hc.allSent r (h.sends ▸ hr),
    fun b hb => hc.neverUnsent b (List.mem_of_mem_tail (h.notsent ▸ hb)), h.sysOk hc.sysOk⟩

section Step

variable {c : Call} {idx : Nat} {rep : Rep} {st : Loop} {pos : Int} {info : ProtoInfo}

lemma partStep_undefined (h : place (c.rnd.part idx) rep c.buffer c.n st.lp st.info = none) :
    partStep c idx rep st = none := by
  simp [partStep, h]

lemma partStep_skip (h : place (c.rnd.part idx) rep c.buffer c.n st.lp st.info = some (pos, info))
    (hskip : skipped c (idx + 1) rep pos = true) :
    partStep c idx rep st = some (.next { st with info := info }) := by
  simp [partStep, h, hskip]

lemma partStep_cancel
    (h : place (c.rnd.part idx) rep c.buffer c.n st.lp st.info = some (pos, info))
    (hskip : skipped c (idx + 1) rep pos = false) (hpos : pos < st.lp) :
    partStep c idx rep st = some (.cancel { st with info := info }) := by
  simp [partStep, h, hskip, hpos]

/-- The part that is taken as sent on resumption: no byte goes out. -/
lemma partStep_resumed
    (h : place (c.rnd.part idx) rep c.buffer c.n st.lp st.info = some (pos, info))
    (hskip : skipped c (idx + 1) rep pos = false) (hpos : st.lp ≤ pos)
    (hcurr : idx + 1 = c.partSkip) :
    partStep c idx rep st = some (afterSend c (idx + 1) (firstOfPair rep) (min pos c.n).toNat
      (((min pos c.n).toNat : Int) - st.lp) { st with info := info }) := by
  have h1 : ¬ pos < 0 := by omega
  have h2 : ¬ pos < st.lp := by omega
  rw [hcurr] at hskip ⊢
  simp [partStep, h, hskip, h1, h2, hcurr]

lemma partStep_sends {s : Int} {st' : Loop}
    (h : place (c.rnd.part idx) rep c.buffer c.n st.lp st.info = some (pos, info))
    (hskip : skipped c (idx + 1) rep pos = false) (hpos : st.lp ≤ pos)
    (hcurr : idx + 1 ≠ c.partSkip)
    (hsend : sendPart c idx rep { st with info := info } (min pos c.n).toNat
      = some (some s, st')) :
    partStep c idx rep st =
      some (afterSend c (idx + 1) (firstOfPair rep) (min pos c.n).toNat s st') := by
  have h1 : ¬ pos < 0 := by omega
  have h2 : ¬ pos < st.lp := by omega
  simp [partStep, h, hskip, h1, h2, hcurr, hsend]

lemma partStep_sends_none
    (h : place (c.rnd.part idx) rep c.buffer c.n st.lp st.info = some (pos, info))
    (hskip : skipped c (idx + 1) rep pos = false) (hpos : st.lp ≤ pos)
    (hcurr : idx + 1 ≠ c.partSkip)
    (hsend : sendPart c idx rep { st with info := info } (min pos c.n).toNat = none) :
    partStep c idx rep st = none := by
  have h1 : ¬ pos < 0 := by omega
  have h2 : ¬ pos < st.lp := by omega
  simp [partStep, h, hskip, h1, h2, hcurr, hsend]

lemma partsLoop_next {rest : List Rep} {st' : Loop}
    (h : partStep c idx rep st = some (.next st')) :
    partsLoop c (rep :: rest) idx st = partsLoop c rest (idx + 1) st' := by
  simp [partsLoop, h]

lemma partsLoop_cancel {rest : List Rep} {st' : Loop}
    (h : partStep c idx rep st = some (.cancel st')) :
    partsLoop c (rep :: rest) idx st = sendRest c st' := by
  simp [partsLoop, h]

lemma partsLoop_ret {rest : List Rep} {v : Int} {wait : Bool} {st' : Loop}
    (h : partStep c idx rep st = some (.ret v wait st')) :
    partsLoop c (rep :: rest) idx st = some ⟨v, wait, st'⟩ := by
  simp [partsLoop, h]

lemma partsLoop_undefined {rest : List Rep} (h : partStep c idx rep st = none) :
    partsLoop c (rep :: rest) idx st = none := by
  simp [partsLoop, h]

end Step

/-- The final send when everything is accepted. -/
theorem sendRest_all {c : Call} {st : Loop} (hlp : st.lp ≤ c.n) (hfits : c.n ≤ c.buffer.length)
    (hs : AllSent st.sock) :
    ∃ st', sendRest c st = some ⟨c.n - c.offset, false, st'⟩ ∧
      Sent st st' st.info (part c.buffer st.lp c.n) := by
  by_cases hlt : st.lp < c.n
  · obtain ⟨st', h, hsent⟩ := sendRequest_all hlp hfits hs
    have hnn : ¬ (c.n : Int) - st.lp < 0 := by omega
    exact ⟨st', by simp [sendRest, hlt, h, hnn], hsent⟩
  · have heq : st.lp = c.n := by omega
    refine ⟨st, by simp [sendRest, hlt], ?_⟩
    rw [heq, part_self]
    exact sent_of_silent (.refl _) st.info st.remote

lemma desync_some_iff {g : Globals} {dp : DesyncParams} {rnd : Rands} {k : Conn}
    {out : Int × Bool × Conn} :
    desync g dp rnd k = some out ↔ ∃ t e, prepare g dp rnd k.data k.n k.roundSent = some t ∧
      partsLoop (callOf g dp rnd k t) (expand dp.parts) 0 (loopOf k t) = some e ∧
      (e.ret, e.wait, k.after t e) = out := by
  simp only [desync, Option.bind_eq_bind, Option.bind_eq_some_iff, Option.pure_def,
    Option.some.injEq]
  constructor
  · rintro ⟨t, ht, e, he, hout⟩
    exact ⟨t, e, ht, he, hout⟩
  · rintro ⟨t, e, ht, he, hout⟩
    exact ⟨t, ht, e, he, hout⟩

section Tamp

lemma tampHttp_length {dp : DesyncParams} {data data' : Bytes} {n : Nat}
    (h : tampHttp dp data n = some data') : data'.length = data.length := by
  simp only [tampHttp, Option.bind_eq_bind] at h
  split at h
  · simp only [Option.bind_eq_some_iff] at h
    obtain ⟨yes, -, h⟩ := h
    split at h
    · simp only [Option.bind_eq_some_iff] at h
      obtain ⟨⟨r, b⟩, hm, h⟩ := h
      cases h
      exact modHttp_length hm
    · cases h
      rfl
  · cases h
    rfl

lemma tampMinor_length {dp : DesyncParams} {data data' : Bytes} {n : Nat}
    (h : tampMinor dp data n = some data') : data'.length = data.length := by
  simp only [tampMinor, Option.bind_eq_bind] at h
  split at h
  · simp only [Option.bind_eq_some_iff] at h
    obtain ⟨yes, -, h⟩ := h
    split at h
    · exact wr_length h
    · cases h
      rfl
  · cases h
    rfl

lemma tlsrecLoop_fits {rnd : Rands} {l : List Rep} :
    ∀ {rc : Nat} {lp : Int} {t t' : Tamped}, tlsrecLoop rnd l rc lp t = some t' →
      t.n ≤ t.data.length → t'.data.length = t.data.length ∧ t'.n ≤ t'.data.length := by
  induction l with
  | nil =>
    intro rc lp t t' h hn
    cases h
    exact ⟨rfl, hn⟩
  | cons rep rest ih =>
    intro rc lp t t' h hn
    simp only [tlsrecLoop, Option.bind_eq_bind, Option.bind_eq_some_iff] at h
    obtain ⟨⟨off, info⟩, -, pos, -, pos1, -, pos2, -, h⟩ := h
    split at h
    · cases h
      exact ⟨rfl, hn⟩
    · simp only [Option.bind_eq_some_iff] at h
      obtain ⟨⟨ret, data⟩, hpart, h⟩ := h
      obtain ⟨hlen, hroom⟩ := partTls_spec hpart
      split at h
      · cases h
        exact ⟨hlen, by simpa [hlen] using hn⟩
      · next hret =>
        have hfive := hroom hret
        obtain ⟨hl, hn'⟩ := ih h (by simp only [hlen]; omega)
        exact ⟨by rw [hl]; exact hlen, hn'⟩

/-- `tamp` rewrites the request in place and never past the buffer. -/
theorem tamp_fits {dp : DesyncParams} {rnd : Rands} {t t' : Tamped}
    (h : tamp dp rnd t = some t') (hn : t.n ≤ t.data.length) :
    t'.data.length = t.data.length ∧ t'.n ≤ t'.data.length := by
  simp only [tamp, Option.bind_eq_bind, Option.bind_eq_some_iff] at h
  obtain ⟨d1, h1, d2, h2, h⟩ := h
  have hlen : d2.length = t.data.length := (tampMinor_length h2).trans (tampHttp_length h1)
  split at h
  · cases h
    exact ⟨hlen, by simpa [hlen] using hn⟩
  · simp only [Option.bind_eq_some_iff] at h
    obtain ⟨yes, -, h⟩ := h
    split at h
    · obtain ⟨hl, hn'⟩ := tlsrecLoop_fits h (by simpa [hlen] using hn)
      exact ⟨by rw [hl]; exact hlen, hn'⟩
    · cases h
      exact ⟨hlen, by simpa [hlen] using hn⟩

theorem prepare_fits {g : Globals} {dp : DesyncParams} {rnd : Rands} {data : Bytes}
    {n skip : Nat} {t : Tamped} (h : prepare g dp rnd data n skip = some t)
    (hn : n ≤ data.length) : t.data.length = data.length ∧ t.n ≤ t.data.length := by
  simp only [prepare, Option.bind_eq_bind] at h
  split at h
  · cases h
    exact ⟨rfl, hn⟩
  · simp only [Option.bind_eq_some_iff] at h
    obtain ⟨info, -, h⟩ := h
    exact tamp_fits h hn

lemma tlsrecLoop_le {rnd : Rands} {l : List Rep} :
    ∀ {rc : Nat} {lp : Int} {t t' : Tamped}, tlsrecLoop rnd l rc lp t = some t' → t.n ≤ t'.n := by
  induction l with
  | nil =>
    intro rc lp t t' h
    cases h
    exact Nat.le_refl _
  | cons rep rest ih =>
    intro rc lp t t' h
    simp only [tlsrecLoop, Option.bind_eq_bind, Option.bind_eq_some_iff] at h
    obtain ⟨⟨off, info⟩, -, pos, -, pos1, -, pos2, -, h⟩ := h
    split at h
    · cases h
      exact Nat.le_refl _
    · simp only [Option.bind_eq_some_iff] at h
      obtain ⟨⟨ret, data⟩, -, h⟩ := h
      split at h
      · cases h
        exact Nat.le_refl _
      · have := ih h
        dsimp only at this
        omega

lemma tamp_le {dp : DesyncParams} {rnd : Rands} {t t' : Tamped} (h : tamp dp rnd t = some t') :
    t.n ≤ t'.n := by
  simp only [tamp, Option.bind_eq_bind, Option.bind_eq_some_iff] at h
  obtain ⟨d1, -, d2, -, h⟩ := h
  split at h
  · cases h
    exact Nat.le_refl _
  · simp only [Option.bind_eq_some_iff] at h
    obtain ⟨yes, -, h⟩ := h
    split at h
    · have hle := tlsrecLoop_le h
      exact hle
    · cases h
      exact Nat.le_refl _

/-- `tamp` only ever lengthens the request. -/
theorem prepare_le {g : Globals} {dp : DesyncParams} {rnd : Rands} {data : Bytes} {n skip : Nat}
    {t : Tamped} (h : prepare g dp rnd data n skip = some t) : n ≤ t.n := by
  simp only [prepare, Option.bind_eq_bind] at h
  split at h
  · cases h
    exact Nat.le_refl _
  · simp only [Option.bind_eq_some_iff] at h
    obtain ⟨info, -, h⟩ := h
    exact tamp_le h

end Tamp

end DesyncSpec
