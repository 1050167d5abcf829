import NoZapret.Tunnel

/-!
# A request in several chunks

`round_sent` and `part_sent` count over the whole round, the split points over
the chunk at hand. A later chunk is not tampered with, and the parts up to
`part_sent` are passed over in it. `chunkClean` is the condition under which that
drops nothing: the part numbered `part_sent`, if the loop reaches it, ends where
the chunk begins.
-/

namespace Chunks

open Block Packets Params Desync Stream DesyncSpec SplitLoop Resume Tunnel Runs

/-- One turn of the relay: the buffer held while the remote was connecting, or a
chunk that `recv` returns. -/
inductive Turn where
  | held (rnd : Rands)
  | chunk (r : Request) (rnd : Rands)

def Turn.rnd : Turn → Rands
  | .held rnd => rnd
  | .chunk _ rnd => rnd

/-- The bytes the client sent in this turn, under their own addresses. -/
def Turn.bytes : Turn → List (UInt8 × Option Nat)
  | .held _ => []
  | .chunk r _ => part r.data 0 r.n

def turn (env : Env) (t : Pair) : Turn → Option Pair
  | .held rnd => flush env t rnd
  | .chunk r rnd => deliver env t (r, rnd)

/-- The state and the buffer that `tcp_send_hook` meets. -/
def facing (t : Pair) : Turn → Option (Pair × Buffer)
  | .held _ => t.buff.map fun b => (t, b)
  | .chunk r _ =>
    if t.buff.isSome || r.n == 0 then none else some (recvHook t r.n, ⟨r.data, r.n, 0⟩)

/-- What `tcp_send_hook` hands to the socket if nothing gets lost: the buffer,
after `tamp` when the round is one to work on. -/
def outgoing (env : Env) (t : Pair) (a : Turn) : Option Tamped := do
  let (p, b) ← facing t a
  let dp ← setupConn env p b.data b.lock
  if checkRound dp.rounds p.roundCount then prepare env.g dp a.rnd b.data b.lock p.roundSent
  else some ⟨b.data, b.lock, {}⟩

/-- A group is found, the positions are defined, and the part taken as sent is
empty in this buffer. -/
def chunkClean (env : Env) (t : Pair) (a : Turn) : Bool :=
  match facing t a with
  | none => false
  | some (p, b) =>
    match setupConn env p b.data b.lock, outgoing env t a with
    | some dp, some T => !checkRound dp.rounds p.roundCount ||
        clean (callOf env.g dp a.rnd (connOf p b b.lock) T) (expand dp.parts) 0 0 T.info
          p.sock.sends p.sock.notsent
    | _, _ => false

/-- A state in which nothing is pending on the remote socket. -/
structure Ready (env : Env) (t : Pair) : Prop where
  calm : Calm t.sock
  split : SplitOnly t.dp.parts
  held : ∀ b, t.buff = some b → b.offset = 0 ∧ 0 < b.lock ∧ b.lock ≤ b.data.length

/-- The hook sent the whole buffer. -/
structure Whole (p : Pair) (T : Tamped) (h : Hook) : Prop where
  sn : h.sn = T.n
  n : h.n = T.n
  wait : h.wait = false
  buff : h.pair.buff = p.buff
  roundSent : h.pair.roundSent = p.roundSent + T.n
  calm : Calm h.pair.sock
  stream : stream h.pair.sock.log = Stream.stream p.sock.log ++ part T.data 0 T.n

section Hook

variable {env : Env} {p : Pair} {b : Buffer} {rnd : Rands} {dp : DesyncParams} {T : Tamped}

/-- `send` of the whole buffer, when the round is not one to work on. -/
lemma plainSend_whole (hcalm : Calm p.sock) (hoff : b.offset = 0)
    (hfits : b.lock ≤ b.data.length) :
    ∃ h, plainSend p b b.lock = some h ∧ h.pair.dp = p.dp ∧ Whole p ⟨b.data, b.lock, {}⟩ h := by
  obtain ⟨xs, hxs, hlen, hspan⟩ := exists_slice (Nat.zero_le b.lock) hfits
  have hlen' : xs.length = b.lock := by omega
  have hsend : p.sock.send (.request 0) xs false = ((xs.length : Int),
      { p.sock with sends := p.sock.sends.tail }.emit (.sent (.request 0) xs false xs.length)) :=
    send_accepted (accepts_calm hcalm.allSent xs.length)
  have hnn : (0 : Int) ≤ (xs.length : Int) := Int.natCast_nonneg _
  have hplain : plainSend p b b.lock = some ⟨xs.length, false, b.data, b.lock, { p with
      sock := (p.sock.send (.request 0) xs false).2, roundSent := p.roundSent + xs.length }⟩ := by
    simp only [plainSend, hoff, hxs, Option.bind_eq_bind, Option.bind_some, hsend, hnn, if_true]
    rfl
  refine ⟨_, hplain, rfl, hlen', rfl, rfl, rfl, by rw [hlen'], ?_, ?_⟩
  · rw [hsend]
    refine ⟨?_, hcalm.neverUnsent, hcalm.sysOk⟩
    exact fun r hr => hcalm.allSent r (List.mem_of_mem_tail hr)
  · rw [hsend, stream_emit]
    simp [eventBytes, part, hspan]

/-- A clean call of the pass, on a socket that takes everything. -/
lemma desync_whole (hcalm : Calm p.sock) (hwait : env.g.waitSend = false)
    (hsplit : SplitOnly dp.parts) (hoff : b.offset = 0) (hfits : b.lock ≤ b.data.length)
    (hT : prepare env.g dp rnd b.data b.lock p.roundSent = some T)
    (hclean : clean (callOf env.g dp rnd (connOf p b b.lock) T) (expand dp.parts) 0 0 T.info
      p.sock.sends p.sock.notsent = true) :
    ∃ k, desync env.g dp rnd (connOf p b b.lock) = some ((T.n : Int), false, k) ∧
      k.n = T.n ∧ Calm k.sock ∧
      stream k.sock.log = stream p.sock.log ++ part T.data 0 T.n := by
  have hbuf := (prepare_fits hT hfits).2
  have hlp : (loopOf (connOf p b b.lock) T).lp = 0 := hoff
  obtain ⟨e, he, hserved⟩ := partsLoop_served
    (c := callOf env.g dp rnd (connOf p b b.lock) T) hbuf (splitOnly_rep hsplit) 0
    (loopOf (connOf p b b.lock) T) (by omega) (by rw [hlp]; exact hclean)
  obtain ⟨hret, hw, hcalm'⟩ := hserved.calm hcalm hwait
  simp only [callOf, connOf, hoff, Int.natCast_zero, Int.sub_zero] at hret
  refine ⟨(connOf p b b.lock).after T e, ?_, rfl, hcalm', ?_⟩
  · exact desync_some_iff.mpr ⟨T, e, hT, he, by rw [hret, hw]⟩
  · obtain ⟨f, hf, -, -, hlog⟩ := hserved.sent (by omega)
    simp only [callOf, connOf, hoff, Int.natCast_zero, Int.sub_zero] at hf
    have hfn : f = T.n := by omega
    rw [hlp, hfn] at hlog
    exact hlog

theorem tcpSendHook_whole (hcalm : Calm p.sock) (hwait : env.g.waitSend = false)
    (hset : setupConn env p b.data b.lock = some dp) (hsplit : SplitOnly dp.parts)
    (hoff : b.offset = 0) (hfits : b.lock ≤ b.data.length)
    (hT : (if checkRound dp.rounds p.roundCount then
      prepare env.g dp rnd b.data b.lock p.roundSent else some ⟨b.data, b.lock, {}⟩) = some T)
    (hclean : checkRound dp.rounds p.roundCount = true →
      clean (callOf env.g dp rnd (connOf p b b.lock) T) (expand dp.parts) 0 0 T.info
        p.sock.sends p.sock.notsent = true) :
    ∃ h, tcpSendHook env rnd p b b.lock = some h ∧ h.pair.dp = dp ∧ Whole p T h := by
  cases hround : checkRound dp.rounds p.roundCount with
  | true =>
    rw [hround, if_pos rfl] at hT
    obtain ⟨k, hk, hn, hcalm', hlog⟩ :=
      desync_whole hcalm hwait hsplit hoff hfits hT (hclean hround)
    have hk' : desync env.g dp rnd (connOf { p with dp := dp } b b.lock) =
        some ((T.n : Int), false, k) := hk
    have hnn : ¬ (T.n : Int) < 0 := by omega
    have hhook : tcpSendHook env rnd p b b.lock = some ⟨T.n, false, k.data, k.n, { p with
        dp := dp, roundSent := p.roundSent + T.n, partSent := k.partSent, remote := k.remote,
        sock := k.sock }⟩ := by
      simp only [tcpSendHook, hset, hround, if_true, Option.bind_eq_bind, Option.bind_some, hk',
        hnn, if_false]
      rfl
    exact ⟨_, hhook, rfl, rfl, hn, rfl, rfl, rfl, hcalm', hlog⟩
  | false =>
    rw [hround, if_neg (by decide)] at hT
    cases hT
    obtain ⟨h, hsend, hdp, hwhole⟩ := plainSend_whole (p := { p with dp := dp }) hcalm hoff hfits
    refine ⟨h, ?_, hdp, ?_⟩
    · simp only [tcpSendHook, hset, hround, Bool.false_eq_true, if_false, Option.bind_eq_bind,
        Option.bind_some]
      exact hsend
    · exact ⟨hwhole.sn, hwhole.n, hwhole.wait, hwhole.buff, hwhole.roundSent, hwhole.calm,
        hwhole.stream⟩

end Hook

section Turns

variable {env : Env} {t : Pair} {a : Turn} {T : Tamped}

lemma facing_spec {p : Pair} {b : Buffer} (ht : Ready env t) (h : facing t a = some (p, b)) :
    p.sock = t.sock ∧ p.dp = t.dp ∧ p.roundSent = t.roundSent ∧ b.offset = 0 ∧ 0 < b.lock ∧
      b.lock ≤ b.data.length := by
  cases a with
  | held rnd =>
    simp only [facing, Option.map_eq_some_iff, Prod.mk.injEq] at h
    obtain ⟨b', hb', rfl, rfl⟩ := h
    exact ⟨rfl, rfl, rfl, ht.held _ hb'⟩
  | chunk r rnd =>
    simp only [facing] at h
    split at h
    · cases h
    · next hfree =>
      simp only [Bool.or_eq_true, beq_iff_eq, not_or] at hfree
      cases h
      exact ⟨rfl, rfl, rfl, rfl, Nat.pos_of_ne_zero hfree.2, r.fits⟩

/-- What a turn does with the hook's answer when that is the whole buffer. -/
lemma turn_of_hook {p : Pair} {b : Buffer} {h : Hook} (hf : facing t a = some (p, b))
    (hle : b.lock ≤ T.n) (hh : tcpSendHook env a.rnd p b b.lock = some h) (hw : Whole p T h) :
    ∃ t', turn env t a = some t' ∧ t'.buff = none ∧ t'.dp = h.pair.dp ∧
      t'.roundSent = h.pair.roundSent ∧ t'.sock = h.pair.sock := by
  cases a with
  | held rnd =>
    simp only [facing, Option.map_eq_some_iff, Prod.mk.injEq] at hf
    obtain ⟨b', hb', rfl, rfl⟩ := hf
    have hdone : ¬ (h.sn < b'.lock - b'.offset ∨ h.wait = true) := by
      rw [hw.sn, hw.wait]
      simp only [Bool.false_eq_true, or_false]
      omega
    refine ⟨{ h.pair with buff := none }, ?_, rfl, rfl, rfl, rfl⟩
    simp only [turn, flush, hb', Option.bind_eq_bind, Option.bind_some]
    rw [show tcpSendHook env rnd t b' b'.lock = some h from hh]
    simp only [Option.bind_some, hdone, if_false]
    rfl
  | chunk r rnd =>
    simp only [facing] at hf
    split at hf
    · cases hf
    · next hfree =>
      cases hf
      have hdone : ¬ (h.sn < h.n ∨ h.wait = true) := by
        simp [hw.sn, hw.n, hw.wait]
      have hnone : t.buff = none := by
        simp only [Bool.or_eq_true, not_or, Option.isSome_iff_ne_none, ne_eq, not_not] at hfree
        exact hfree.1
      refine ⟨h.pair, ?_, hw.buff.trans hnone, rfl, rfl, rfl⟩
      simp only [turn, deliver, hfree, Bool.false_eq_true, if_false, Option.bind_eq_bind]
      rw [show tcpSendHook env rnd (recvHook t r.n) ⟨r.data, r.n, 0⟩ r.n = some h from hh]
      simp only [Option.bind_some, hdone, if_false]
      rfl

/-- One clean turn relays its whole buffer. -/
theorem turn_whole (hwait : env.g.waitSend = false)
    (hsel : ∀ dp b n dp', SplitOnly dp.parts → env.select dp b n = some dp' →
      SplitOnly dp'.parts)
    (ht : Ready env t) (hok : chunkClean env t a = true) (hT : outgoing env t a = some T) :
    ∃ t', turn env t a = some t' ∧ Ready env t' ∧ t'.buff = none ∧ 0 < t'.roundSent ∧
      stream t'.sock.log = stream t.sock.log ++ part T.data 0 T.n := by
  unfold chunkClean at hok
  cases hf : facing t a with
  | none => simp [hf] at hok
  | some x =>
    obtain ⟨p, b⟩ := x
    obtain ⟨hsock, hpdp, hround, hoff, hpos, hfits⟩ := facing_spec ht hf
    cases hset : setupConn env p b.data b.lock with
    | none => simp [hf, hset] at hok
    | some dp =>
      simp only [hf, hset, hT, Bool.or_eq_true, Bool.not_eq_true'] at hok
      simp only [outgoing, hf, hset, Option.bind_eq_bind, Option.bind_some] at hT
      have hsplit : SplitOnly dp.parts := by
        unfold setupConn at hset
        split at hset
        · exact hsel _ _ _ _ (hpdp ▸ ht.split) hset
        · cases hset
          rw [hpdp]
          exact ht.split
      have hle : b.lock ≤ T.n := by
        split at hT
        · exact prepare_le hT
        · cases hT
          exact Nat.le_refl _
      obtain ⟨h, hh, hdp, hw⟩ := tcpSendHook_whole (hsock ▸ ht.calm) hwait hset hsplit hoff hfits
        hT (fun hr => hok.resolve_left (by simp [hr]))
      obtain ⟨t', hturn, hbuff, hdp', hsent, hsock'⟩ := turn_of_hook hf hle hh hw
      refine ⟨t', hturn, ⟨?_, ?_, ?_⟩, hbuff, ?_, ?_⟩
      · rw [hsock']
        exact hw.calm
      · rw [hdp', hdp]
        exact hsplit
      · intro b' hb'
        rw [hbuff] at hb'
        cases hb'
      · rw [hsent, hw.roundSent]
        omega
      · rw [hsock', hw.stream, hsock]

/-- After the first chunk of a round `tamp` does not run. -/
lemma outgoing_later (hsent : 0 < t.roundSent) (hbuff : t.buff = none)
    (hok : chunkClean env t a = true) :
    ∃ T, outgoing env t a = some T ∧ part T.data 0 T.n = a.bytes := by
  cases a with
  | held rnd => simp [chunkClean, facing, hbuff] at hok
  | chunk r rnd =>
    unfold chunkClean at hok
    cases hf : facing t (.chunk r rnd) with
    | none => simp [hf] at hok
    | some x =>
      obtain ⟨p, b⟩ := x
      cases hset : setupConn env p b.data b.lock with
      | none => simp [hf, hset] at hok
      | some dp =>
        refine ⟨⟨r.data, r.n, {}⟩, ?_, rfl⟩
        have hfacing := hf
        simp only [facing] at hfacing
        split at hfacing
        · cases hfacing
        · cases hfacing
          have hne : (recvHook t r.n).roundSent ≠ 0 := Nat.ne_of_gt hsent
          simp [outgoing, hf, hset, prepare, hne]

lemma later_turns (hwait : env.g.waitSend = false)
    (hsel : ∀ dp b n dp', SplitOnly dp.parts → env.select dp b n = some dp' →
      SplitOnly dp'.parts) {as : List Turn} :
    ∀ {t : Pair}, Ready env t → t.buff = none → 0 < t.roundSent →
      Meets (turn env) (fun t a => chunkClean env t a = true) t as →
      ∃ t', run (turn env) t as = some t' ∧
        stream t'.sock.log = stream t.sock.log ++ as.flatMap Turn.bytes := by
  induction as with
  | nil =>
    intro t _ _ _ _
    exact ⟨t, rfl, by simp⟩
  | cons a as ih =>
    intro t ht hbuff hsent hok
    obtain ⟨T, hT, hbytes⟩ := outgoing_later hsent hbuff hok.1
    obtain ⟨t1, hturn, ht1, hbuff1, hsent1, hlog1⟩ := turn_whole hwait hsel ht hok.1 hT
    obtain ⟨t', hrun, hlog⟩ := ih ht1 hbuff1 hsent1 (hok.2 t1 hturn)
    refine ⟨t', (run_cons hturn).trans hrun, ?_⟩
    rw [hlog, hlog1, hbytes, List.flatMap_cons, List.append_assoc]

end Turns

/-- The chunks of a round, each relayed by a clean turn, reach the remote one
after the other, the first as `tamp` leaves it. -/
theorem chunks_relayed (env : Env) (t : Pair) (a : Turn) (as : List Turn) (T : Tamped)
    (hwait : env.g.waitSend = false) (hdp : SplitOnly t.dp.parts)
    (hsel : ∀ dp b n dp', SplitOnly dp.parts → env.select dp b n = some dp' →
      SplitOnly dp'.parts)
    (hcalm : Calm t.sock)
    (hheld : ∀ b, t.buff = some b → b.offset = 0 ∧ 0 < b.lock ∧ b.lock ≤ b.data.length)
    (hT : outgoing env t a = some T)
    (hok : Meets (turn env) (fun t a => chunkClean env t a = true) t (a :: as)) :
    ∃ t', run (turn env) t (a :: as) = some t' ∧
      stream t'.sock.log =
        stream t.sock.log ++ part T.data 0 T.n ++ as.flatMap Turn.bytes := by
  obtain ⟨t1, hturn, ht1, hbuff1, hsent1, hlog1⟩ :=
    turn_whole hwait hsel ⟨hcalm, hdp, hheld⟩ hok.1 hT
  obtain ⟨t', hrun, hlog⟩ := later_turns hwait hsel ht1 hbuff1 hsent1 (hok.2 t1 hturn)
  refine ⟨t', (run_cons hturn).trans hrun, ?_⟩
  rw [hlog, hlog1]

/-- One group, chosen for every connection. -/
def oneGroup : Env := { g := {}, select := fun dp _ _ => some dp }

def a1 : Request := ⟨[97], 1, by decide⟩
def bcde : Request := ⟨[98, 99, 100, 101], 4, by decide⟩

/-- `--split 2`, four bytes and then four: the split point lies in the first chunk. -/
theorem chunks_relayed_two :
    ∃ t', run (turn oneGroup) { dp := splitAt2 } [.chunk abcd {}, .chunk bcde {}] = some t' ∧
      stream t'.sock.log = part abcd.data 0 4 ++ part bcde.data 0 4 := by
  obtain ⟨t', hrun, hlog⟩ := chunks_relayed oneGroup { dp := splitAt2 } (.chunk abcd {})
    [.chunk bcde {}] ⟨abcd.data, 4, {}⟩ rfl (by decide)
    (fun _ _ _ _ hdp h => Option.some.inj h ▸ hdp)
    ⟨by simp [AllSent], by simp [NeverUnsent], by simp [SysOk]⟩ (by simp) rfl (by decide)
  exact ⟨t', hrun, by rw [hlog]; rfl⟩

/-- `--split 2`, one byte and then four: the split point of the first chunk lies
behind its end, and the second chunk loses its first two bytes. -/
theorem second_chunk_loses_bytes :
    ∃ t', run (turn oneGroup) { dp := splitAt2 } [.chunk a1 {}, .chunk bcde {}] = some t' ∧
      (stream t'.sock.log).map Prod.fst = [97, 100, 101] := by
  exact ⟨_, rfl, by decide⟩

end Chunks
