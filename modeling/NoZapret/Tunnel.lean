import NoZapret.Resume

/-!
# From the client to the remote socket

`on_tunnel`, `tcp_recv_hook` and `tcp_send_hook` for the direction from the
client to the remote, with the counters they keep in the client's `eval`. One
`on_tunnel` call is a `flush` when a buffer is held and then one `deliver` for
each chunk that `recv` returns. The group choice of `find_dp` is `select`; a
negative return value closes or reconnects the connection and is not followed
here, so the step is then not enabled.
-/

namespace Tunnel

open Block Packets Params Desync Stream DesyncSpec Resume

structure Env where
  g : Globals
  /-- `find_dp` for a client whose group is the first argument -/
  select : DesyncParams → Bytes → Nat → Option DesyncParams

/-- `struct buffer`; its `size` is the length of `data`. -/
structure Buffer where
  data : Bytes
  lock : Nat
  offset : Nat

/-- The client's `eval` with the buffer it holds, and the remote's `restore_*`
fields and socket. -/
structure Pair where
  dp : DesyncParams
  recvCount : Nat := 0
  roundSent : Nat := 0
  roundCount : Nat := 0
  partSent : Nat := 0
  remote : Restore := {}
  buff : Option Buffer := none
  sock : Sock := {}

def checkRound (nr : Nat × Nat) (r : Nat) : Bool :=
  (nr.2 == 0 && decide (r ≤ 1)) || (decide (nr.1 ≤ r) && decide (r ≤ nr.2))

/-- The counters of `tcp_recv_hook` for `n` bytes from the client. -/
def recvHook (t : Pair) (n : Nat) : Pair :=
  { t with
    recvCount := t.recvCount + n
    roundCount := if t.roundSent = 0 then t.roundCount + 1 else t.roundCount }

/-- `setup_conn` runs while everything received so far is this buffer. -/
def setupConn (env : Env) (t : Pair) (data : Bytes) (n : Nat) : Option DesyncParams :=
  if t.recvCount = n then env.select t.dp data n else some t.dp

def connOf (t : Pair) (b : Buffer) (n : Nat) : Conn :=
  ⟨b.data, n, b.offset, t.roundSent, t.partSent, t.remote, t.sock⟩

/-- What `tcp_send_hook` returns and writes. -/
structure Hook where
  sn : Nat
  wait : Bool
  data : Bytes
  n : Nat
  pair : Pair

/-- `send(remote->fd, buff->data + off, *n - off, 0)` -/
def plainSend (t : Pair) (b : Buffer) (n : Nat) : Option Hook := do
  let payload ← slice b.data b.offset ((n : Int) - b.offset)
  let (s, w) := t.sock.send (.request b.offset) payload false
  if 0 ≤ s then
    return ⟨s.toNat, false, b.data, n, { t with sock := w, roundSent := t.roundSent + s.toNat }⟩
  if w.errAgain then return ⟨0, false, b.data, n, { t with sock := w }⟩
  none

def tcpSendHook (env : Env) (rnd : Rands) (t : Pair) (b : Buffer) (n : Nat) : Option Hook := do
  let dp ← setupConn env t b.data n
  let t := { t with dp := dp }
  if checkRound dp.rounds t.roundCount then
    let (ret, wait, k) ← desync env.g dp rnd (connOf t b n)
    if ret < 0 then none
    else
      return ⟨ret.toNat, wait, k.data, k.n,
        { t with roundSent := t.roundSent + ret.toNat, partSent := k.partSent,
                 remote := k.remote, sock := k.sock }⟩
  else plainSend t b n

/-- One chunk from `recv`, as in the loop of `on_tunnel`. -/
def deliver (env : Env) (t : Pair) (x : Request × Rands) : Option Pair :=
  if t.buff.isSome || x.1.n == 0 then none
  else do
    let h ← tcpSendHook env x.2 (recvHook t x.1.n) ⟨x.1.data, x.1.n, 0⟩ x.1.n
    if h.sn < h.n ∨ h.wait then return { h.pair with buff := some ⟨h.data, h.n, h.sn⟩ }
    return h.pair

/-- The held buffer, as in the first half of `on_tunnel`: the remaining length is
taken before the hook runs. -/
def flush (env : Env) (t : Pair) (rnd : Rands) : Option Pair := do
  let b ← t.buff
  let h ← tcpSendHook env rnd t b b.lock
  if h.sn < b.lock - b.offset ∨ h.wait then
    return { h.pair with buff := some ⟨h.data, h.n, b.offset + h.sn⟩ }
  return { h.pair with buff := none }

lemma desync_counters {g : Globals} {dp : DesyncParams} {rnd : Rands} {k k' : Conn} {ret : Int}
    {wait : Bool} (h : desync g dp rnd k = some (ret, wait, k')) :
    k'.roundSent = k.roundSent ∧ k'.offset = k.offset := by
  obtain ⟨t, e, -, -, hout⟩ := desync_some_iff.mp h
  simp only [Prod.mk.injEq] at hout
  obtain ⟨-, -, rfl⟩ := hout
  exact ⟨rfl, rfl⟩

lemma tcpSendHook_desync {env : Env} {rnd : Rands} {t : Pair} {b : Buffer} {n : Nat} {h : Hook}
    {dp : DesyncParams} (hset : setupConn env t b.data n = some dp)
    (hround : checkRound dp.rounds t.roundCount = true)
    (hh : tcpSendHook env rnd t b n = some h) :
    ∃ ret k, desync env.g dp rnd (connOf t b n) = some (ret, h.wait, k) ∧ 0 ≤ ret ∧
      h = ⟨ret.toNat, h.wait, k.data, k.n, { t with
        dp := dp, roundSent := t.roundSent + ret.toNat, partSent := k.partSent,
        remote := k.remote, sock := k.sock }⟩ := by
  simp only [tcpSendHook, hset, hround, if_true, Option.bind_eq_bind, Option.bind_some,
    Option.bind_eq_some_iff] at hh
  obtain ⟨⟨ret, wait, k⟩, hd, hh⟩ := hh
  by_cases hneg : ret < 0
  · simp [hneg] at hh
  · simp only [hneg, if_false] at hh
    cases hh
    exact ⟨ret, k, hd, by omega, rfl⟩

/-- While the group stays and the round is one to work on, flushing the held
buffer is one `resume` of the request in it. -/
theorem flush_resumes {env : Env} {t t' : Pair} {b : Buffer} {rnd : Rands}
    (hb : t.buff = some b) (hset : setupConn env t b.data b.lock = some t.dp)
    (hround : checkRound t.dp.rounds t.roundCount = true) (h : flush env t rnd = some t') :
    ∃ p', resume env.g t.dp ⟨connOf t b b.lock, false⟩ rnd = some p' ∧
      (∀ b', t'.buff = some b' → connOf t' b' b'.lock = p'.conn) ∧
      t'.sock = p'.conn.sock := by
  simp only [flush, hb, Option.bind_eq_bind, Option.bind_some, Option.bind_eq_some_iff] at h
  obtain ⟨hook, hh, h⟩ := h
  obtain ⟨ret, k, hd, hret, heq⟩ := tcpSendHook_desync hset hround hh
  obtain ⟨hround', hoffset⟩ := desync_counters hd
  refine ⟨⟨Conn.advance k ret.toNat, !hook.wait && ret == (k.n : Int) - k.offset⟩, ?_, ?_, ?_⟩
  · simp only [resume, hd, Bool.false_eq_true, if_false]
    rw [if_neg (by omega)]
  · intro b' hb'
    rw [heq] at h
    split at h
    · cases h
      cases hb'
      simp [connOf, Conn.advance, hround', hoffset]
    · cases h
      cases hb'
  · rw [heq] at h
    split at h <;> cases h <;> rfl

/-- The first chunk of a round is the `start` of a request. -/
theorem deliver_starts {env : Env} {t t' : Pair} {r : Request} {rnd : Rands} {dp : DesyncParams}
    (hset : setupConn env (recvHook t r.n) r.data r.n = some dp)
    (hround : checkRound dp.rounds (recvHook t r.n).roundCount = true)
    (hsent : t.roundSent = 0) (hpart : t.partSent = 0)
    (h : deliver env t (r, rnd) = some t') :
    ∃ p', resume env.g dp (start r t.remote t.sock) rnd = some p' ∧ t'.dp = dp ∧
      (∀ b', t'.buff = some b' → connOf t' b' b'.lock = p'.conn) ∧
      t'.sock = p'.conn.sock := by
  unfold deliver at h
  split at h
  · cases h
  · next hfree =>
    simp only [Bool.or_eq_true, not_or, Option.isSome_iff_ne_none, ne_eq, not_not] at hfree
    simp only [Option.bind_eq_bind, Option.bind_eq_some_iff] at h
    obtain ⟨hook, hh, h⟩ := h
    obtain ⟨ret, k, hd, hret, heq⟩ := tcpSendHook_desync hset hround hh
    have hconn : connOf (recvHook t r.n) ⟨r.data, r.n, 0⟩ r.n = r.conn t.remote t.sock := by
      simp [connOf, recvHook, Request.conn, hsent, hpart]
    rw [hconn] at hd
    obtain ⟨hround', hoffset⟩ := desync_counters hd
    refine ⟨⟨Conn.advance k ret.toNat, !hook.wait && ret == (k.n : Int) - k.offset⟩, ?_, ?_, ?_, ?_⟩
    · simp only [resume, start, hd, Bool.false_eq_true, if_false]
      rw [if_neg (by omega)]
    · rw [heq] at h
      split at h <;> cases h <;> rfl
    · intro b' hb'
      rw [heq] at h
      split at h
      · cases h
        cases hb'
        simp [connOf, Conn.advance, recvHook, Request.conn, hround', hoffset, hsent]
      · cases h
        simp [recvHook, hfree.1] at hb'
    · rw [heq] at h
      split at h <;> cases h <;> rfl

end Tunnel
