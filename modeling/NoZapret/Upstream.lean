import NoZapret.Handshake

/-!
# Where a client is connected

The address of a request through all attempts to connect to it, and the conversation of
`on_socks_conn` and `on_socks_recv` with another proxy on the way. The other proxy may be the same
program.
-/

namespace Upstream

open Block Handshake Packets RequestAddr Runs SocksAddr UdpReplies

/-- A protocol that has its own first message takes this one. -/
inductive Taken (env : Params) (buffer : Bytes) (n : Nat) : Prop
  | socks5 (h : env.socks5 = true ∧ buffer[0]? = some 0x05)
  | socks4 (h : env.socks4 = true ∧ buffer[0]? = some 0x04)
  | http (h : env.http = true ∧ 7 < n ∧ buffer.take 7 = ascii "CONNECT".toList)
  | shadowsocks {first : UInt8} (hfirst : buffer[0]? = some first)
      (h : env.shadowsocks = true ∧ first ≤ 0x04)
  | tls (h : env.rawtls = true ∧ isTlsChello buffer n = some true)

/-- The message says where to connect to, in the first protocol that takes it. -/
inductive Asks (env : Params) (buffer : Bytes) (n : Nat) : Dst → Prop
  | socks5 {k : Nat} {ip : Ip} {port : Octets 2} (ver : env.socks5 = true ∧ buffer[0]? = some 0x05)
      (cmd : buffer[1]? = some 0x01) (h : Encodes env.toEnv (buffer.take n) k ip port) :
      Asks env buffer n ⟨some ip, port⟩
  | socks4 {dst : Dst} (ver : env.socks4 = true ∧ buffer[0]? = some 0x04)
      (h : s4GetAddr env.toEnv buffer n = some (some dst)) : Asks env buffer n dst
  | http {dst : Dst} (method : env.http = true ∧ 7 < n ∧ buffer.take 7 = ascii "CONNECT".toList)
      (h : httpGetAddr env.toEnv buffer n = some (some dst)) : Asks env buffer n dst
  | shadowsocks {k : Nat} {ip : Ip} {port : Octets 2} (mode : env.shadowsocks = true)
      (not4 : ¬ (env.socks4 = true ∧ buffer[0]? = some 0x04))
      (h : Encodes env.toEnv (0 :: 0 :: 0 :: buffer.take n) k ip port) :
      Asks env buffer n ⟨some ip, port⟩
  | tls {dst : Dst} (mode : env.rawtls = true ∧ isTlsChello buffer n = some true)
      (not5 : ¬ (env.socks5 = true ∧ buffer[0]? = some 0x05))
      (h : tlsGetAddr env.toEnv buffer n = some (some dst)) : Asks env buffer n dst
  | tcp (mode : env.tcp = true) (other : ¬ Taken env buffer n) : Asks env buffer n ⟨none, .zero 2⟩

/-- What happens to the client says where to connect to. -/
inductive Asked (env : Params) : Act → Dst → Prop
  | request {buffer : Bytes} {n : Nat} {a : Answers} {dst : Dst} (hn : n ≤ buffer.length)
      (h : Asks env buffer n dst) : Asked env (.request buffer n a) dst
  | accepted {remote : SockAddr} {self : Option SockAddr} {a : Dial} (h : env.transparent = true) :
      Asked env (.accepted (some remote) self a) (dstOf remote)

/-- A request for the address. -/
def Request (dst : Dst) (msg : Bytes) : Prop :=
  ∃ z, msg = 0x05 :: 0x01 :: z :: header dst.sockAddr

lemma received_length (msg : Bytes) : 262 ≤ (received msg).length := by
  rw [received, List.length_append, List.length_replicate]
  omega

/-- The request that is made of an answer. -/
lemma connRequest_eq {msg : Bytes} (dst : Dst) (hver : msg[0]? = some 0x05) :
    ∃ req, connRequest (received msg) dst = some req ∧ Request dst req := by
  have hlong := received_length msg
  have hfirst : (received msg)[0]? = some 0x05 :=
    (List.getElem?_append_left (List.getElem?_eq_some_iff.mp hver).1).trans hver
  match received msg, hlong, hfirst with
  | ver :: code :: z :: rest, hlong, hfirst =>
    cases hfirst
    simp only [List.length_cons] at hlong
    have hrest : 19 ≤ rest.length := by omega
    obtain ⟨r, hset, htake⟩ := setAddr_front (x := 0x05) (y := 0x01) (z := z) hrest dst.sockAddr
    refine ⟨_, ?_, z, rfl⟩
    unfold connRequest
    rw [List.set_cons_succ, List.set_cons_zero, hset]
    exact congrArg some htake

/-- One address for a client, which it has asked for; it is the one that other proxies are asked
for. -/
structure Aim (asked : Dst → Prop) (c : Client) : Prop where
  fresh : c.cb = .onRequest → c.addr = none
  known : ∀ dst, c.addr = some dst → asked dst
  same : ∀ conn ∈ c.dialled, c.addr = some conn.dst
  utters : ∀ msg, .said msg ∈ c.talk → msg = greeting ∨ ∃ dst, c.addr = some dst ∧ Request dst msg

section Aim

variable {env : Params} {asked : Dst → Prop} {c c' : Client} {dst : Dst}

/-- The addresses stay, and the client does not go back to its request. -/
structure Keeps (c c' : Client) : Prop where
  addr : c'.addr = c.addr
  dialled : c'.dialled = c.dialled
  talk : c'.talk = c.talk
  later : c'.cb = .onRequest → c.cb = .onRequest

lemma Keeps.refl (c : Client) : Keeps c c := ⟨rfl, rfl, rfl, id⟩

lemma Keeps.trans {d : Client} (h : Keeps c d) (h' : Keeps d c') : Keeps c c' :=
  ⟨h'.addr.trans h.addr, h'.dialled.trans h.dialled, h'.talk.trans h.talk, h.later ∘ h'.later⟩

lemma Keeps.close (c : Client) : Keeps c c.close :=
  ⟨rfl, rfl, rfl, fun h => by cases h⟩

lemma Aim.keeps (h : Aim asked c) (hkeeps : Keeps c c') : Aim asked c' := by
  refine ⟨fun hcb => ?_, fun dst hdst => ?_, fun conn hconn => ?_, fun msg hmsg => ?_⟩
  · rw [hkeeps.addr]
    exact h.fresh (hkeeps.later hcb)
  · rw [hkeeps.addr] at hdst
    exact h.known dst hdst
  · rw [hkeeps.dialled] at hconn
    rw [hkeeps.addr]
    exact h.same conn hconn
  · rw [hkeeps.talk] at hmsg
    rw [hkeeps.addr]
    exact h.utters msg hmsg

lemma keeps_resp (c : Client) (e : Errno) (sends : Bool) : Keeps c (c.resp e sends).1 := by
  unfold Client.resp
  cases respError e c.flag with
  | none => exact .refl c
  | some msg => cases sends <;> exact ⟨rfl, rfl, rfl, id⟩

lemma keeps_send (c : Client) (msg : Bytes) (sends : Bool) : Keeps c (c.send msg sends).1 := by
  cases sends <;> exact ⟨rfl, rfl, rfl, id⟩

lemma keeps_fail (c : Client) (sends : Bool) : Keeps c (c.fail sends) :=
  (keeps_resp c .other sends).trans (.close _)

lemma keeps_answer (c : Client) (e : Errno) (sends : Bool) : Keeps c (c.answer e sends) := by
  unfold Client.answer
  simp only
  split
  · exact keeps_resp c e sends
  · exact (keeps_resp c e sends).trans (.close _)

/-- A connection for an address that the client has asked for, and no other. -/
lemma Aim.hook (h : Aim asked c) (env : Params) (a : Dial) (hasked : asked dst)
    (hdst : ∀ d, c.addr = some d → d = dst) : Aim asked (connectHook env c dst a).1 := by
  have hsame : ∀ conn ∈ c.dialled, some dst = some conn.dst := fun conn hconn =>
    congrArg some (hdst conn.dst (h.same conn hconn)).symm
  have hknown : ∀ d, some dst = some d → asked d := by
    intro d hd
    cases hd
    exact hasked
  unfold connectHook
  cases a.group with
  | none => exact h
  | some group =>
    simp only
    split
    · have hresp := keeps_resp c .ok a.sends
      split
      · refine ⟨fun hcb => (by cases hcb), hknown, fun conn hconn => hsame conn ?_,
          fun msg hmsg => (h.utters msg ?_).imp_right ?_⟩
        · rw [← hresp.dialled]
          exact hconn
        · rw [← hresp.talk]
          exact hmsg
        · rintro ⟨d, hd, hreq⟩
          exact ⟨dst, rfl, hdst d hd ▸ hreq⟩
      · exact h.keeps hresp
    · split
      · refine ⟨fun hcb => (by cases hcb), hknown, fun conn hconn => ?_,
          fun msg hmsg => (by cases hmsg)⟩
        rcases List.mem_append.mp hconn with hconn | hconn
        · exact hsame conn hconn
        · cases List.mem_singleton.mp hconn
          rfl
      · exact h

lemma Aim.connectTo (h : Aim asked c) (env : Params) {dst : Option Dst} (a : Answers)
    (hnew : c.addr = none) (hasked : ∀ d, dst = some d → asked d) :
    Aim asked (connectTo env c dst a) := by
  cases dst with
  | none => exact h.keeps (keeps_fail c a.sends)
  | some dst =>
    have hconn := h.hook env a.dial (hasked dst rfl) fun d hd => by
      rw [hnew] at hd
      cases hd
    unfold Handshake.connectTo
    simp only
    split
    · exact hconn
    · exact hconn.keeps (keeps_fail _ a.sends)

lemma Aim.saveAndConnect (h : Aim asked c) (env : Params) {dst : Dst} (a : Answers)
    (hnew : c.addr = none) (hasked : asked dst) : Aim asked (saveAndConnect env c dst a) := by
  have hkept (buff sqBuff : Bool) : Aim asked { c with buff := buff, sqBuff := sqBuff } :=
    h.keeps ⟨rfl, rfl, rfl, id⟩
  have hthis : ∀ d, some dst = some d → asked d := by
    intro d hd
    cases hd
    exact hasked
  unfold Handshake.saveAndConnect saveBuffer
  by_cases hauto : env.autoReconnect = true
  · rw [if_pos hauto]
    cases a.room with
    | false => exact (hkept true false).keeps (.close _)
    | true => exact (hkept true true).connectTo env a hnew hthis
  · rw [if_neg hauto]
    exact (hkept true c.sqBuff).connectTo env a hnew hthis

lemma keeps_associate {a : Assoc} {r : Client × Bool} (h : udpAssociate c a = some r) :
    Keeps c r.1 := by
  unfold udpAssociate at h
  cases haddr : a.addr with
  | none =>
    rw [haddr] at h
    cases h
    exact .refl c
  | some addr =>
    rw [haddr] at h
    obtain ⟨msg, -, h⟩ := Option.bind_eq_some_iff.mp h
    cases h
    have hlater : Keeps c { c with cb := .associated } := ⟨rfl, rfl, rfl, fun hcb => by cases hcb⟩
    exact hlater.trans (keeps_send _ msg a.sends)

/-- The bytes behind the message are not read. -/
lemma front_encodes (front : Bytes) {buffer : Bytes} {n : Nat} {k : Int} {addr : SockAddr}
    (hn : n ≤ buffer.length)
    (hget : s5GetAddr env.toEnv (front ++ buffer) (n + front.length) .zero = some (k, addr))
    (hk : 0 ≤ k) : ∃ k' ip port, Encodes env.toEnv (front ++ buffer.take n) k' ip port ∧
      dstOf addr = ⟨some ip, port⟩ := by
  have hfront : front ++ buffer.take n <+: front ++ buffer :=
    (List.prefix_append_right_inj front).mpr (List.take_prefix n buffer)
  have hlen : (front ++ buffer.take n).length = n + front.length := by
    rw [List.length_append, List.length_take]
    omega
  rw [← hlen, s5GetAddr_front env.toEnv .zero hfront] at hget
  exact s5GetAddr_encodes hget hk

lemma Aim.handleS5 {buffer : Bytes} {n : Nat} {a : Answers} (h : Aim asked c)
    (hver : env.socks5 = true ∧ buffer[0]? = some 0x05) (hn : n ≤ buffer.length)
    (hasked : ∀ d, Asks env buffer n d → asked d) (hnew : c.addr = none)
    (hs5 : handleS5 env c buffer n a = some c') : Aim asked c' := by
  unfold Handshake.handleS5 at hs5
  split at hs5
  · obtain ⟨method, -, hs5⟩ := Option.bind_eq_some_iff.mp hs5
    cases method with
    | none =>
      cases hs5
      exact h.keeps (keeps_fail c a.sends)
    | some method =>
      have hsent := keeps_send c [0x05, method] a.sends
      simp only at hs5
      split at hs5
      · cases hs5
        exact h.keeps (hsent.trans ⟨rfl, rfl, rfl, id⟩)
      · cases hs5
        exact h.keeps (hsent.trans (keeps_fail _ a.sends))
  have refused (msg : Bytes) : Aim asked (c.send msg a.sends).1.close :=
    h.keeps ((keeps_send c msg a.sends).trans (.close _))
  split at hs5
  · cases hs5
    exact h.keeps (keeps_fail c a.sends)
  obtain ⟨cmd, hcmd, hs5⟩ := Option.bind_eq_some_iff.mp hs5
  split at hs5
  · next hconn =>
    obtain ⟨⟨r, addr⟩, hget, hs5⟩ := Option.bind_eq_some_iff.mp hs5
    simp only at hs5
    split at hs5
    · next hpos =>
      cases hs5
      obtain ⟨k, ip, port, henc, hdst⟩ := front_encodes [] hn hget hpos
      refine h.connectTo env a hnew fun d hd => ?_
      cases hd
      rw [hdst]
      rw [hconn] at hcmd
      exact hasked _ (.socks5 hver hcmd henc)
    · cases hs5
      exact refused _
  split at hs5
  · obtain ⟨⟨r, addr⟩, hget, hs5⟩ := Option.bind_eq_some_iff.mp hs5
    simp only at hs5
    split at hs5
    · obtain ⟨r, hassoc, hs5⟩ := Option.bind_eq_some_iff.mp hs5
      have hkeeps := keeps_associate hassoc
      cases hs5
      split
      · exact h.keeps hkeeps
      · exact h.keeps (hkeeps.trans (keeps_fail _ a.sends))
    · cases hs5
      exact refused _
  · cases hs5
    exact refused _

lemma Aim.onRequest {buffer : Bytes} {n : Nat} {a : Answers} (h : Aim asked c)
    (hn : n ≤ buffer.length) (hasked : ∀ d, Asks env buffer n d → asked d)
    (hcb : c.cb = .onRequest) (hreq : onRequest env c buffer n a = some c') : Aim asked c' := by
  have hnew := h.fresh hcb
  have flagged (flag : Flag) : Aim asked { c with flag := flag } := h.keeps ⟨rfl, rfl, rfl, id⟩
  unfold Handshake.onRequest at hreq
  obtain ⟨first, hfirst, hreq⟩ := Option.bind_eq_some_iff.mp hreq
  have hfirst : buffer[0]? = some first := hfirst
  split at hreq
  · next hver =>
    rw [hver.2] at hfirst
    exact h.handleS5 ⟨hver.1, hfirst⟩ hn hasked hnew hreq
  next not5 =>
  split at hreq
  · next hver =>
    rw [hver.2] at hfirst
    obtain ⟨dst, hget, hreq⟩ := Option.bind_eq_some_iff.mp hreq
    cases hreq
    refine (flagged .s4).connectTo env a hnew fun d hd => ?_
    cases hd
    exact hasked d (.socks4 ⟨hver.1, hfirst⟩ hget)
  next not4 =>
  have not5 : ¬ (env.socks5 = true ∧ buffer[0]? = some 0x05) := by
    rw [hfirst]
    exact fun hv => not5 (hv.imp_right Option.some.inj)
  have not4 : ¬ (env.socks4 = true ∧ buffer[0]? = some 0x04) := by
    rw [hfirst]
    exact fun hv => not4 (hv.imp_right Option.some.inj)
  split at hreq
  · next hmethod =>
    obtain ⟨dst, hget, hreq⟩ := Option.bind_eq_some_iff.mp hreq
    cases hreq
    refine (flagged .http).connectTo env a hnew fun d hd => ?_
    cases hd
    exact hasked d (.http hmethod hget)
  next notHttp =>
  split at hreq
  · next hmode =>
    obtain ⟨⟨r, addr⟩, hget, hreq⟩ := Option.bind_eq_some_iff.mp hreq
    cases hreq
    split
    · exact h.keeps (.close c)
    · next hpos =>
      obtain ⟨k, ip, port, henc, hdst⟩ :=
        front_encodes [0, 0, 0] hn hget (Int.not_lt.mp hpos)
      rw [hdst]
      exact h.saveAndConnect env a hnew (hasked _ (.shadowsocks hmode.1 not4 henc))
  next notShadowsocks =>
  obtain ⟨hello, hhello, hreq⟩ := Option.bind_eq_some_iff.mp hreq
  split at hreq
  · next hmode =>
    obtain ⟨dst, hget, hreq⟩ := Option.bind_eq_some_iff.mp hreq
    cases dst with
    | none =>
      cases hreq
      exact h.keeps (keeps_fail c a.sends)
    | some dst =>
      cases hreq
      rw [hmode.2] at hhello
      exact h.saveAndConnect env a hnew (hasked dst (.tls ⟨hmode.1, hhello⟩ not5 hget))
  next notTls =>
  split at hreq
  · next hmode =>
    cases hreq
    refine h.saveAndConnect env a hnew (hasked _ (.tcp hmode fun htaken => ?_))
    cases htaken with
    | socks5 hv => exact not5 hv
    | socks4 hv => exact not4 hv
    | http hv => exact notHttp hv
    | shadowsocks hother hv =>
      rw [hfirst] at hother
      cases hother
      exact notShadowsocks hv
    | tls hv =>
      rw [hhello] at hv
      exact notTls ⟨hv.1, Option.some.inj hv.2⟩
  · cases hreq
    exact h.keeps (.close c)

lemma Aim.again (h : Aim asked c) (env : Params) (a : Dial) :
    Aim asked (connectAgain env c a).1 := by
  unfold connectAgain
  cases haddr : c.addr with
  | none => exact h
  | some dst =>
    refine h.hook env a (h.known dst haddr) fun d hd => ?_
    rw [haddr] at hd
    exact (Option.some.inj hd).symm

lemma Aim.reconnect (h : Aim asked c) (env : Params) (a : Dial) :
    Aim asked (reconnect env c a).1 :=
  (h.keeps (show Keeps c c.resume from ⟨rfl, rfl, rfl, id⟩)).again env a

lemma Aim.refused (h : Aim asked c) (env : Params) (e : Errno) (ev : Event) :
    Aim asked (onConnectError env c e ev) := by
  unfold onConnectError
  generalize (if e = .ok then Errno.connrefused else e) = e
  cases ev.retry with
  | none => exact h.keeps (keeps_answer c e ev.sends)
  | some a =>
    have htry : Aim asked (if e.retried then Handshake.reconnect env c a else (c, false)).1 := by
      split
      · exact h.reconnect env a
      · exact h
    simp only
    generalize (if e.retried then Handshake.reconnect env c a else (c, false)) = r at htry ⊢
    split
    · exact htry
    · exact htry.keeps (keeps_answer r.1 e ev.sends)

lemma keeps_open (c : Client) (ev : Event) : Keeps c (c.open ev) := by
  have hlater : Keeps c { c with cb := .onTunnel } := ⟨rfl, rfl, rfl, fun hcb => by cases hcb⟩
  unfold Client.open
  split
  · exact .close c
  split
  · exact hlater
  · exact hlater.trans (keeps_answer _ .ok ev.sends)

lemma Aim.connect (h : Aim asked c) (env : Params) (ev : Event) :
    Aim asked (onConnect env c ev) := by
  unfold onConnect
  cases ev.error with
  | none => exact h.keeps (keeps_open c ev)
  | some e => exact h.refused env e ev

lemma Aim.talks (h : Aim asked c) (remoteCb : RemoteCb) (connState : Flag) (new : List Talk)
    (hnew : ∀ msg, .said msg ∈ new → msg = greeting ∨ ∃ dst, c.addr = some dst ∧ Request dst msg) :
    Aim asked { c with remoteCb := remoteCb, connState := connState, talk := c.talk ++ new } := by
  refine ⟨h.fresh, h.known, h.same, fun msg hmsg => ?_⟩
  rcases List.mem_append.mp hmsg with hmsg | hmsg
  · exact h.utters msg hmsg
  · exact hnew msg hmsg

lemma greets (msg : Bytes) (h : .said msg ∈ [Talk.said greeting]) :
    msg = greeting ∨ ∃ dst, c.addr = some dst ∧ Request dst msg := by
  cases List.mem_singleton.mp h
  exact Or.inl rfl

lemma hears {new : Bytes} (msg : Bytes) (h : .said msg ∈ [Talk.heard new]) :
    msg = greeting ∨ ∃ dst, c.addr = some dst ∧ Request dst msg := by
  cases List.mem_singleton.mp h

lemma Aim.socksConn (h : Aim asked c) (env : Params) (sends watched : Bool) (ev : Event) :
    Aim asked (onSocksConn env c sends watched ev) := by
  unfold onSocksConn
  split
  · exact h.connect env ev
  split
  · exact (h.talks c.remoteCb c.connState _ greets).keeps (.close _)
  · exact h.talks .onSocksRecv c.connState _ greets

lemma Aim.socksRecv {msg : Bytes} {sends : Bool} {e : Errno} {ev : Event} (h : Aim asked c)
    (hrecv : onSocksRecv env c msg sends e ev = some c') : Aim asked c' := by
  have hheard := h.talks c.remoteCb c.connState [.heard msg] hears
  unfold onSocksRecv at hrecv
  split at hrecv
  · cases hrecv
    exact h.refused env e ev
  next hlen =>
  obtain ⟨ver, hver, hrecv⟩ := Option.bind_eq_some_iff.mp hrecv
  obtain ⟨code, -, hrecv⟩ := Option.bind_eq_some_iff.mp hrecv
  split at hrecv
  · cases hrecv
    exact hheard.refused env e ev
  next hok =>
  have hfirst : msg[0]? = some 0x05 := by
    rw [not_not.mp (not_or.mp hok).1] at hver
    exact (List.getElem?_append_left (by omega)).symm.trans hver
  split at hrecv
  · cases haddr : c.addr with
    | none =>
      simp only [haddr] at hrecv
      cases hrecv
    | some dst =>
      simp only [haddr] at hrecv
      obtain ⟨req, hreq, hrecv⟩ := Option.bind_eq_some_iff.mp hrecv
      rw [← haddr] at hrecv
      split at hrecv
      · cases hrecv
        exact hheard.refused env e ev
      · cases hrecv
        refine hheard.talks c.remoteCb .s5 [.said req] fun m hm => ?_
        cases List.mem_singleton.mp hm
        obtain ⟨req, hreq', hrequest⟩ := connRequest_eq dst hfirst
        cases hreq'.symm.trans hreq
        exact Or.inr ⟨dst, haddr, hrequest⟩
  · cases hrecv
    exact (h.talks .onConnect c.connState [.heard msg] hears).keeps (keeps_open _ ev)

lemma Aim.accept (h : Aim asked c) (env : Params) (remote self : Option SockAddr) (a : Dial)
    (hnew : c.addr = none) (hasked : ∀ r, remote = some r → asked (dstOf r)) :
    Aim asked (onAccept env c remote self a) := by
  have htransp : Aim asked (transpConn env c remote self a).1 := by
    unfold transpConn
    split
    · next remote self =>
      split
      · exact h
      · refine h.hook env a (hasked remote rfl) fun d hd => ?_
        rw [hnew] at hd
        cases hd
    · exact h
  unfold onAccept
  simp only
  split
  · exact htransp
  split
  · exact htransp
  · exact htransp.keeps (.close _)

/-- One step. -/
lemma Aim.step {act : Act} (h : Aim asked c) (hasked : ∀ d, Asked env act d → asked d)
    (hstep : step env c act = some c') : Aim asked c' := by
  cases act with
  | accepted remote self a =>
    obtain ⟨⟨rfl, htransparent⟩, hc⟩ := Option.ite_none_right_eq_some.mp hstep
    cases hc
    refine h.accept env remote self a rfl fun r hr => ?_
    cases hr
    exact hasked _ (.accepted htransparent)
  | request buffer n a =>
    obtain ⟨⟨hcb, -, hn⟩, hreq⟩ := Option.ite_none_right_eq_some.mp hstep
    exact h.onRequest hn (fun d hd => hasked d (.request hn hd)) hcb hreq
  | connected ev =>
    obtain ⟨-, hc⟩ := Option.ite_none_right_eq_some.mp hstep
    cases hc
    exact h.connect env ev
  | socksConnected sends watched ev =>
    obtain ⟨-, hc⟩ := Option.ite_none_right_eq_some.mp hstep
    cases hc
    exact h.socksConn env sends watched ev
  | socksAnswered msg sends e ev =>
    obtain ⟨-, hrecv⟩ := Option.ite_none_right_eq_some.mp hstep
    exact h.socksRecv hrecv
  | delayed received saved a =>
    obtain ⟨-, hc⟩ := Option.ite_none_right_eq_some.mp hstep
    have hkept : Aim asked { c with buff := true, sqBuff := saved } := h.keeps ⟨rfl, rfl, rfl, id⟩
    cases hc
    unfold recvAndConnect
    split
    · exact h.keeps (.close c)
    · simp only
      split
      · exact hkept.again env a
      · exact (hkept.again env a).keeps (.close _)
  | reconnect kept a =>
    obtain ⟨-, hc⟩ := Option.ite_none_right_eq_some.mp hstep
    cases hc
    unfold tryReconnect
    simp only
    split
    · exact h.reconnect env a
    split
    · exact (h.reconnect env a).keeps ⟨rfl, rfl, rfl, id⟩
    · exact (h.reconnect env a).keeps (.close _)
  | flushed =>
    obtain ⟨-, hc⟩ := Option.ite_none_right_eq_some.mp hstep
    cases hc
    exact h.keeps ⟨rfl, rfl, rfl, id⟩
  | released =>
    obtain ⟨-, hc⟩ := Option.ite_none_right_eq_some.mp hstep
    cases hc
    exact h.keeps ⟨rfl, rfl, rfl, id⟩
  | drop =>
    obtain ⟨-, hc⟩ := Option.ite_none_left_eq_some.mp hstep
    cases hc
    exact h.keeps (.close c)

lemma run_aim {acts : List Act} (hrun : run (Handshake.step env) {} acts = some c) :
    Aim (fun dst => ∃ act ∈ acts, Asked env act dst) c :=
  run_preserves
    (fun _ act _ haim hact hstep => Aim.step haim (fun _ hdst => ⟨act, hact, hdst⟩) hstep)
    ⟨fun _ => rfl, fun dst hdst => (by cases hdst), fun conn hconn => (by cases hconn),
      fun msg hmsg => (by cases hmsg)⟩
    (meets_of_mem _ fun _ hact => hact) hrun

end Aim

/-- Every connection that is opened for a client, through all attempts, is for one address, which
the client has asked for. -/
theorem dialled_as_asked (env : Params) (acts : List Act) (c : Client)
    (hrun : run (step env) {} acts = some c) :
    c.dialled = [] ∨ ∃ dst, (∃ act ∈ acts, Asked env act dst) ∧
      ∀ conn ∈ c.dialled, conn.dst = dst := by
  have haim := run_aim hrun
  cases haddr : c.addr with
  | none =>
    refine Or.inl (List.eq_nil_iff_forall_not_mem.mpr fun conn hconn => ?_)
    have hsame := haim.same conn hconn
    rw [haddr] at hsame
    cases hsame
  | some dst =>
    refine Or.inr ⟨dst, haim.known dst haddr, fun conn hconn => ?_⟩
    have hsame := haim.same conn hconn
    rw [haddr] at hsame
    exact (Option.some.inj hsame).symm

theorem dialled_as_asked_plain : plainClient.dialled = [] ∨
    ∃ dst, (∃ act ∈ plainActs, Asked plainEnv act dst) ∧
      ∀ conn ∈ plainClient.dialled, conn.dst = dst :=
  dialled_as_asked plainEnv plainActs plainClient plain_run

/-- A SOCKS5 answer that all is well. -/
def Accepts (msg : Bytes) : Prop := msg[0]? = some 0x05 ∧ msg[1]? = some 0x00

/-- The conversation with another proxy: both answers have been accepted. -/
def Spoken (dst : Dst) (talk : List Talk) : Prop :=
  ∃ first req second, talk = [.said greeting, .heard first, .said req, .heard second] ∧
    Accepts first ∧ Accepts second ∧ connRequest (received first) dst = some req

/-- A connection that goes through another proxy. -/
def viaSocks (conn : Conn) : Bool := conn.out.any Out.socks5

/-- How far the conversation is. -/
inductive Stage (dst : Dst) (c : Client) : Prop
  | dialled (hcb : c.remoteCb = .onSocksConn) (hstate : c.connState = .unset) (htalk : c.talk = [])
  | greeted (hcb : c.remoteCb = .onSocksRecv) (hstate : c.connState = .unset)
      (htalk : c.talk = [.said greeting])
  | asked {first req : Bytes} (hcb : c.remoteCb = .onSocksRecv) (hstate : c.connState = .s5)
      (htalk : c.talk = [.said greeting, .heard first, .said req]) (hfirst : Accepts first)
      (hreq : connRequest (received first) dst = some req)

/-- What has been said on a connection that may be used; `silent` is that something could not. -/
def Ready (silent : Prop) (c : Client) : Prop :=
  ∃ conn, c.dialled.getLast? = some conn ∧ (viaSocks conn = false ∧ c.talk = [] ∨
    viaSocks conn = true ∧ (c.talk = [] ∧ silent ∨ Spoken conn.dst c.talk))

structure Chained (silent : Prop) (c : Client) : Prop where
  waits : c.cb = .onIgnore → ∃ conn, c.dialled.getLast? = some conn ∧ c.addr = some conn.dst ∧
    (viaSocks conn = false ∧ c.remoteCb = .onConnect ∧ c.talk = [] ∨
      viaSocks conn = true ∧ Stage conn.dst c)
  opened : c.cb = .onTunnel → Ready silent c

section Chained

variable {silent : Prop} {env : Params} {c c' : Client}

lemma Chained.idle (hwait : c.cb ≠ .onIgnore) (hopen : c.cb ≠ .onTunnel) : Chained silent c :=
  ⟨fun hcb => absurd hcb hwait, fun hcb => absurd hcb hopen⟩

lemma chained_close (c : Client) : Chained silent c.close := by
  refine .idle ?_ ?_
  · intro hcb
    cases hcb
  · intro hcb
    cases hcb

lemma chained_dial (c : Client) (conn : Conn) : Chained silent (c.dial conn) := by
  refine ⟨fun _ => ⟨conn, List.getLast?_concat, rfl, ?_⟩, fun hcb => by cases hcb⟩
  cases hvia : viaSocks conn with
  | false => exact Or.inl ⟨rfl, if_neg ((Bool.not_eq_true _).mpr hvia), rfl⟩
  | true => exact Or.inr ⟨rfl, .dialled (if_pos hvia) rfl rfl⟩

lemma chained_hook (env : Params) (c : Client) (dst : Dst) (a : Dial)
    (hok : (connectHook env c dst a).2 = true) : Chained silent (connectHook env c dst a).1 := by
  unfold connectHook at hok ⊢
  cases hgroup : a.group with
  | none =>
    rw [hgroup] at hok
    cases hok
  | some group =>
    simp only [hgroup] at hok ⊢
    split
    · split
      · refine .idle ?_ ?_
        · intro hcb
          cases hcb
        · intro hcb
          cases hcb
      · next hdelay hsent =>
        rw [if_pos hdelay, if_neg hsent] at hok
        cases hok
    · split
      · exact chained_dial c _
      · next hdelay hconn =>
        rw [if_neg hdelay, if_neg hconn] at hok
        cases hok

lemma chained_connectTo (env : Params) (c : Client) (dst : Option Dst) (a : Answers) :
    Chained silent (connectTo env c dst a) := by
  cases dst with
  | none => exact chained_close _
  | some dst =>
    unfold connectTo
    simp only
    split
    · next hok => exact chained_hook env c dst a.dial hok
    · exact chained_close _

lemma chained_saveAndConnect (env : Params) (c : Client) (dst : Dst) (a : Answers) :
    Chained silent (saveAndConnect env c dst a) := by
  unfold saveAndConnect
  simp only
  split
  · exact chained_connectTo env _ (some dst) a
  · exact chained_close _

lemma chained_associate {a : Assoc} {r : Client × Bool} (h : udpAssociate c a = some r)
    (hok : r.2 = true) : Chained silent r.1 := by
  unfold udpAssociate at h
  cases haddr : a.addr with
  | none =>
    rw [haddr] at h
    cases h
    cases hok
  | some addr =>
    rw [haddr] at h
    obtain ⟨msg, -, h⟩ := Option.bind_eq_some_iff.mp h
    cases h
    have hcb : ({ c with cb := .associated }.send msg a.sends).1.cb = .associated := by
      cases a.sends <;> rfl
    refine .idle ?_ ?_
    · intro hno
      exact absurd (hcb.symm.trans hno) (by decide)
    · intro hno
      exact absurd (hcb.symm.trans hno) (by decide)

lemma chained_handleS5 {buffer : Bytes} {n : Nat} {a : Answers} (hcb : c.cb = .onRequest)
    (hs5 : handleS5 env c buffer n a = some c') : Chained silent c' := by
  unfold handleS5 at hs5
  split at hs5
  · obtain ⟨method, -, hs5⟩ := Option.bind_eq_some_iff.mp hs5
    cases method with
    | none =>
      cases hs5
      exact chained_close _
    | some method =>
      simp only at hs5
      split at hs5
      · cases hs5
        have hreq : (c.send [0x05, method] a.sends).1.cb = .onRequest := by
          cases a.sends <;> exact hcb
        refine .idle ?_ ?_
        · intro hno
          exact absurd (hreq.symm.trans hno) (by decide)
        · intro hno
          exact absurd (hreq.symm.trans hno) (by decide)
      · cases hs5
        exact chained_close _
  split at hs5
  · cases hs5
    exact chained_close _
  obtain ⟨cmd, -, hs5⟩ := Option.bind_eq_some_iff.mp hs5
  split at hs5
  · obtain ⟨⟨r, addr⟩, -, hs5⟩ := Option.bind_eq_some_iff.mp hs5
    simp only at hs5
    split at hs5
    · cases hs5
      exact chained_connectTo env c _ a
    · cases hs5
      exact chained_close _
  split at hs5
  · obtain ⟨⟨r, addr⟩, -, hs5⟩ := Option.bind_eq_some_iff.mp hs5
    simp only at hs5
    split at hs5
    · obtain ⟨r, hassoc, hs5⟩ := Option.bind_eq_some_iff.mp hs5
      cases hs5
      split
      · next hok => exact chained_associate hassoc hok
      · exact chained_close _
    · cases hs5
      exact chained_close _
  · cases hs5
    exact chained_close _

lemma chained_onRequest {buffer : Bytes} {n : Nat} {a : Answers} (hcb : c.cb = .onRequest)
    (hreq : onRequest env c buffer n a = some c') : Chained silent c' := by
  unfold onRequest at hreq
  obtain ⟨first, -, hreq⟩ := Option.bind_eq_some_iff.mp hreq
  split at hreq
  · exact chained_handleS5 hcb hreq
  split at hreq
  · obtain ⟨dst, -, hreq⟩ := Option.bind_eq_some_iff.mp hreq
    cases hreq
    exact chained_connectTo env _ dst a
  split at hreq
  · obtain ⟨dst, -, hreq⟩ := Option.bind_eq_some_iff.mp hreq
    cases hreq
    exact chained_connectTo env _ dst a
  split at hreq
  · obtain ⟨⟨r, addr⟩, -, hreq⟩ := Option.bind_eq_some_iff.mp hreq
    cases hreq
    split
    · exact chained_close c
    · exact chained_saveAndConnect env c _ a
  obtain ⟨hello, -, hreq⟩ := Option.bind_eq_some_iff.mp hreq
  split at hreq
  · obtain ⟨dst, -, hreq⟩ := Option.bind_eq_some_iff.mp hreq
    cases dst with
    | none =>
      cases hreq
      exact chained_close _
    | some dst =>
      cases hreq
      exact chained_saveAndConnect env c dst a
  split at hreq
  · cases hreq
    exact chained_saveAndConnect env c _ a
  · cases hreq
    exact chained_close c

lemma chained_again (env : Params) (c : Client) (a : Dial)
    (hok : (connectAgain env c a).2 = true) : Chained silent (connectAgain env c a).1 := by
  unfold connectAgain at hok ⊢
  cases haddr : c.addr with
  | none =>
    rw [haddr] at hok
    cases hok
  | some dst =>
    simp only [haddr] at hok ⊢
    exact chained_hook env c dst a hok

lemma chained_answer {e : Errno} (he : e ≠ .ok) (c : Client) (sends : Bool) :
    Chained silent (c.answer e sends) := by
  have hclose : c.answer e sends = (c.resp e sends).1.close := if_neg fun hok => he hok.2
  rw [hclose]
  exact chained_close _

lemma chained_refused (env : Params) (c : Client) (e : Errno) (ev : Event) :
    Chained silent (onConnectError env c e ev) := by
  have he : (if e = .ok then Errno.connrefused else e) ≠ .ok := by
    split
    · intro hno
      cases hno
    · next hne => exact hne
  unfold onConnectError
  generalize (if e = .ok then Errno.connrefused else e) = e at he
  cases ev.retry with
  | none => exact chained_answer he c ev.sends
  | some a =>
    have htry : (if e.retried then reconnect env c a else (c, false)).2 = true →
        Chained silent (if e.retried then reconnect env c a else (c, false)).1 := by
      split
      · exact chained_again env c.resume a
      · intro hno
        cases hno
    simp only
    generalize (if e.retried then reconnect env c a else (c, false)) = r at htry ⊢
    split
    · next hok => exact htry hok
    · exact chained_answer he r.1 ev.sends

/-- The tunnel is opened on a connection that may be used. -/
lemma Ready.open (h : Ready silent c) (ev : Event) : Chained silent (c.open ev) := by
  have htunnel {d : Client} (hd : d.dialled = c.dialled) (htalk : d.talk = c.talk)
      (hcb : d.cb = .onTunnel) : Chained silent d := by
    refine ⟨fun hno => absurd (hcb.symm.trans hno) (by decide), fun _ => ?_⟩
    obtain ⟨conn, hlast, hsaid⟩ := h
    refine ⟨conn, ?_, ?_⟩
    · rw [hd]
      exact hlast
    · rw [htalk]
      exact hsaid
  unfold Client.open
  split
  · exact chained_close c
  split
  · exact htunnel rfl rfl rfl
  · unfold Client.answer Client.resp
    cases respError .ok c.flag with
    | none => exact htunnel rfl rfl rfl
    | some msg =>
      cases ev.sends with
      | false => exact chained_close _
      | true => exact htunnel rfl rfl rfl

lemma Ready.connect (h : Ready silent c) (env : Params) (ev : Event) :
    Chained silent (onConnect env c ev) := by
  unfold onConnect
  cases ev.error with
  | none => exact h.open ev
  | some e => exact chained_refused env c e ev

lemma Chained.plain (h : Chained silent c) (hcb : c.cb = .onIgnore)
    (hremote : c.remoteCb = .onConnect) : Ready silent c := by
  obtain ⟨conn, hlast, -, hsaid⟩ := h.waits hcb
  rcases hsaid with ⟨hvia, -, htalk⟩ | ⟨-, hstage⟩
  · exact ⟨conn, hlast, Or.inl ⟨hvia, htalk⟩⟩
  · cases hstage with
    | dialled hcb => cases hremote.symm.trans hcb
    | greeted hcb => cases hremote.symm.trans hcb
    | asked hcb => cases hremote.symm.trans hcb

lemma Chained.socksConn (h : Chained silent c) (hcb : c.cb = .onIgnore)
    (hremote : c.remoteCb = .onSocksConn) (env : Params) (sends watched : Bool) (ev : Event)
    (hsilent : sends = false → silent) :
    Chained silent (onSocksConn env c sends watched ev) := by
  obtain ⟨conn, hlast, haddr, hsaid⟩ := h.waits hcb
  obtain ⟨hvia, hstate, htalk⟩ : viaSocks conn = true ∧ c.connState = .unset ∧ c.talk = [] := by
    rcases hsaid with ⟨-, hno, -⟩ | ⟨hvia, hstage⟩
    · cases hremote.symm.trans hno
    · cases hstage with
      | dialled _ hstate htalk => exact ⟨hvia, hstate, htalk⟩
      | greeted hcb => cases hremote.symm.trans hcb
      | asked hcb => cases hremote.symm.trans hcb
  unfold onSocksConn
  split
  · next hsends =>
    have hno : silent := hsilent ((Bool.not_eq_true' _).mp hsends)
    exact Ready.connect ⟨conn, hlast, Or.inr ⟨hvia, Or.inl ⟨htalk, hno⟩⟩⟩ env ev
  split
  · exact chained_close _
  · refine ⟨fun _ => ⟨conn, hlast, haddr, Or.inr ⟨hvia, .greeted rfl hstate ?_⟩⟩, fun hno => ?_⟩
    · show c.talk ++ _ = _
      rw [htalk]
      rfl
    · exact absurd (hcb.symm.trans hno) (by decide)

lemma accepts_received {msg : Bytes} (hlen : ¬ msg.length < 2)
    (h0 : rd (received msg) 0 = some 0x05) (h1 : rd (received msg) 1 = some 0x00) :
    Accepts msg := by
  have hfront {i : Nat} (hi : i < 2) : (received msg)[i]? = msg[i]? :=
    List.getElem?_append_left (by omega)
  refine ⟨?_, ?_⟩
  · rw [← hfront (by omega)]
    exact h0
  · rw [← hfront (by omega)]
    exact h1

lemma Chained.socksRecv {msg : Bytes} {sends : Bool} {e : Errno} {ev : Event} (h : Chained silent c)
    (hcb : c.cb = .onIgnore) (hremote : c.remoteCb = .onSocksRecv)
    (hrecv : onSocksRecv env c msg sends e ev = some c') : Chained silent c' := by
  obtain ⟨conn, hlast, haddr, hsaid⟩ := h.waits hcb
  obtain ⟨hvia, hstage⟩ : viaSocks conn = true ∧ Stage conn.dst c := by
    refine hsaid.resolve_left fun hplain => ?_
    cases hremote.symm.trans hplain.2.1
  unfold onSocksRecv at hrecv
  split at hrecv
  · cases hrecv
    exact chained_refused env c e ev
  next hlen =>
  obtain ⟨ver, hver, hrecv⟩ := Option.bind_eq_some_iff.mp hrecv
  obtain ⟨code, hcode, hrecv⟩ := Option.bind_eq_some_iff.mp hrecv
  split at hrecv
  · cases hrecv
    exact chained_refused env _ e ev
  next hok =>
  obtain ⟨hver5, hcode0⟩ := not_or.mp hok
  rw [not_not.mp hver5] at hver
  rw [not_not.mp hcode0] at hcode
  have haccepts := accepts_received hlen hver hcode
  split at hrecv
  · next hstate =>
    -- the first answer: the request is sent
    obtain ⟨-, htalk⟩ : c.connState = .unset ∧ c.talk = [.said greeting] := by
      cases hstage with
      | dialled hcb => cases hremote.symm.trans hcb
      | greeted _ hunset htalk => exact ⟨hunset, htalk⟩
      | asked _ hs5 => exact absurd hs5 hstate
    simp only [haddr] at hrecv
    obtain ⟨req, hreq, hrecv⟩ := Option.bind_eq_some_iff.mp hrecv
    split at hrecv
    · cases hrecv
      exact chained_refused env _ e ev
    · cases hrecv
      refine ⟨fun _ => ⟨conn, hlast, rfl, Or.inr ⟨hvia, .asked hremote rfl ?_ haccepts hreq⟩⟩,
        fun hno => absurd (hcb.symm.trans hno) (by decide)⟩
      show c.talk ++ _ ++ _ = _
      rw [htalk]
      rfl
  · next hstate =>
    -- the second one: the tunnel is opened
    have hready : Ready silent
        { c with talk := c.talk ++ [.heard msg], remoteCb := .onConnect } := by
      cases hstage with
      | dialled hcb => cases hremote.symm.trans hcb
      | greeted _ hunset =>
        rw [hunset] at hstate
        exact absurd hstate (by decide)
      | @asked first req _ _ htalk hfirst hreq =>
        refine ⟨conn, hlast, Or.inr ⟨hvia, Or.inr ⟨first, req, msg, ?_, hfirst, haccepts, hreq⟩⟩⟩
        show c.talk ++ _ = _
        rw [htalk]
        rfl
    cases hrecv
    exact hready.open ev

/-- The buffers of the client do not matter. -/
lemma Chained.buffers (h : Chained silent c) (buff sqBuff : Bool) :
    Chained silent { c with buff := buff, sqBuff := sqBuff } := by
  refine ⟨fun hcb => ?_, fun hcb => h.opened hcb⟩
  obtain ⟨conn, hlast, haddr, hsaid⟩ := h.waits hcb
  refine ⟨conn, hlast, haddr, hsaid.imp_right fun hvia => ⟨hvia.1, ?_⟩⟩
  cases hvia.2 with
  | dialled hcb hstate htalk => exact .dialled hcb hstate htalk
  | greeted hcb hstate htalk => exact .greeted hcb hstate htalk
  | asked hcb hstate htalk hfirst hreq => exact .asked hcb hstate htalk hfirst hreq

lemma chained_new : Chained silent {} := .idle (by decide) (by decide)

lemma chained_accept (env : Params) (remote self : Option SockAddr) (a : Dial) :
    Chained silent (onAccept env {} remote self a) := by
  unfold onAccept
  simp only
  split
  · next hok =>
    unfold transpConn at hok ⊢
    split
    · next remote self =>
      simp only at hok
      split
      · exact chained_new
      · next hself =>
        rw [if_neg hself] at hok
        exact chained_hook env {} (dstOf remote) a hok
    · exact chained_new
  · next hfail =>
    rw [transp_fails ((Bool.not_eq_true _).mp hfail)]
    split
    · exact chained_new
    · exact chained_close _

lemma Chained.tries (h : Chained silent c) (env : Params) (kept : Bool) (a : Dial) :
    Chained silent (tryReconnect env c kept a) := by
  unfold tryReconnect
  simp only
  split
  · next hok => exact chained_again env c.resume a hok
  · next hfail =>
    rw [reconnect_fails ((Bool.not_eq_true _).mp hfail)]
    split
    · exact h.buffers (c.buff || c.sqBuff) false
    · exact chained_close _

lemma chained_delayed (env : Params) (c : Client) (received : Int) (saved : Bool) (a : Dial) :
    Chained silent (recvAndConnect env c received saved a) := by
  unfold recvAndConnect
  split
  · exact chained_close c
  · simp only
    split
    · next hok => exact chained_again env _ a hok
    · exact chained_close _

/-- One step. -/
lemma Chained.step {act : Act} (h : Chained silent c)
    (hsilent : ∀ watched ev, act = .socksConnected false watched ev → silent)
    (hstep : step env c act = some c') : Chained silent c' := by
  cases act with
  | accepted remote self a =>
    obtain ⟨⟨rfl, -⟩, hc⟩ := Option.ite_none_right_eq_some.mp hstep
    cases hc
    exact chained_accept env remote self a
  | request buffer n a =>
    obtain ⟨⟨hcb, -⟩, hreq⟩ := Option.ite_none_right_eq_some.mp hstep
    exact chained_onRequest hcb hreq
  | connected ev =>
    obtain ⟨⟨hcb, hremote⟩, hc⟩ := Option.ite_none_right_eq_some.mp hstep
    cases hc
    exact (h.plain hcb hremote).connect env ev
  | socksConnected sends watched ev =>
    obtain ⟨⟨hcb, hremote⟩, hc⟩ := Option.ite_none_right_eq_some.mp hstep
    cases hc
    refine h.socksConn hcb hremote env sends watched ev fun hno => ?_
    rw [hno] at hsilent
    exact hsilent watched ev rfl
  | socksAnswered msg sends e ev =>
    obtain ⟨⟨hcb, hremote, -⟩, hrecv⟩ := Option.ite_none_right_eq_some.mp hstep
    exact h.socksRecv hcb hremote hrecv
  | delayed received saved a =>
    obtain ⟨-, hc⟩ := Option.ite_none_right_eq_some.mp hstep
    cases hc
    exact chained_delayed env c received saved a
  | reconnect kept a =>
    obtain ⟨-, hc⟩ := Option.ite_none_right_eq_some.mp hstep
    cases hc
    exact h.tries env kept a
  | flushed =>
    obtain ⟨-, hc⟩ := Option.ite_none_right_eq_some.mp hstep
    cases hc
    exact h.buffers false c.sqBuff
  | released =>
    obtain ⟨-, hc⟩ := Option.ite_none_right_eq_some.mp hstep
    cases hc
    exact h.buffers c.buff false
  | drop =>
    obtain ⟨-, hc⟩ := Option.ite_none_left_eq_some.mp hstep
    cases hc
    exact chained_close c

/-- The greeting could not be sent, and there was no error. -/
def Silent (acts : List Act) : Prop := ∃ watched ev, .socksConnected false watched ev ∈ acts

end Chained

/-- `plainDial` through another proxy. -/
def chainDial : Dial :=
  ⟨some ⟨false, some ⟨true, ⟨some (.v4 (octets4 10 0 0 9)), octets2 4 56⟩⟩⟩, true, true⟩

def chainEvent : Event := ⟨none, none, true, true⟩

def chainActs : List Act :=
  [.request greeting 3 plainAnswers,
    .request [0x05, 0x01, 0x00, 0x01, 10, 0, 0, 1, 0, 80] 10
      { plainAnswers with dial := chainDial },
    .socksConnected true true chainEvent,
    .socksAnswered [0x05, 0x00] true .ok chainEvent,
    .socksAnswered (s5Error 0x00) true .ok chainEvent]

def chainConn : Conn :=
  ⟨some ⟨true, ⟨some (.v4 (octets4 10 0 0 9)), octets2 4 56⟩⟩,
    ⟨some (.v4 (octets4 10 0 0 1)), octets2 0 80⟩⟩

def chainClient : Client :=
  { plainClient with
    connState := .s5
    dialled := [chainConn]
    talk := [.said greeting, .heard [0x05, 0x00],
      .said [0x05, 0x01, 0x00, 0x01, 10, 0, 0, 1, 0, 80], .heard (s5Error 0x00)] }

set_option maxRecDepth 4000 in
lemma chain_run : run (step plainEnv) {} chainActs = some chainClient := by decide

section Chain

variable {env : Params} {asked : Dst → Prop} {c : Client} {dst d : Dst} {msg b : Bytes}

/-- The request says what it is made of. -/
lemma header_asks {addr : SockAddr} (hv6 : addr.family = .inet6 → env.ipv6 = true) (z : UInt8) :
    Encodes env.toEnv (0x05 :: 0x01 :: z :: header addr) (size addr) addr.ip addr.sinPort := by
  unfold header size SockAddr.ip
  cases hfamily : addr.family with
  | inet =>
    have h := @Encodes.v4 env.toEnv 0x05 0x01 z addr.sinAddr addr.sinPort []
    rw [List.append_nil] at h
    exact h
  | inet6 =>
    have h := @Encodes.v6 env.toEnv 0x05 0x01 z (hv6 hfamily) addr.sin6Addr addr.sinPort []
    rw [List.append_nil] at h
    exact h

lemma encodes_unique {k k' : Nat} {ip ip' : Ip} {port port' : Octets 2}
    (h : Encodes env.toEnv b k ip port) (h' : Encodes env.toEnv b k' ip' port') :
    ip = ip' ∧ port = port' := by
  obtain ⟨a, hget, rfl, rfl⟩ := h.get .zero
  obtain ⟨a', hget', rfl, rfl⟩ := h'.get .zero
  cases hget.symm.trans hget'
  exact ⟨rfl, rfl⟩

lemma encodes_type {k : Nat} {ip : Ip} {port : Octets 2} (h : Encodes env.toEnv b k ip port) :
    b[3]? = some 0x01 ∨ b[3]? = some 0x03 ∨ b[3]? = some 0x04 ∧ env.ipv6 = true := by
  cases h with
  | v4 => exact Or.inl rfl
  | name => exact Or.inr (Or.inl rfl)
  | v6 hv6 => exact Or.inr (Or.inr ⟨rfl, hv6⟩)

/-- A request is for one address. -/
lemma Request.dst_eq {k : Nat} {ip : Ip} {port : Octets 2} (h : Request dst msg)
    (henc : Encodes env.toEnv msg k ip port) : Dst.mk (some ip) port = dstOf dst.sockAddr := by
  obtain ⟨z, rfl⟩ := h
  have hv6 : dst.sockAddr.family = .inet6 → env.ipv6 = true := by
    intro hfamily
    have hthree : (0x05 :: 0x01 :: z :: header dst.sockAddr)[3]? = some 0x04 := by
      unfold header
      rw [hfamily]
      rfl
    have htype := encodes_type henc
    rw [hthree] at htype
    rcases htype with hno | hno | ⟨-, hv6⟩
    · exact absurd hno (by decide)
    · exact absurd hno (by decide)
    · exact hv6
  obtain ⟨rfl, rfl⟩ := encodes_unique henc (header_asks hv6 z)
  rfl

/-- What happens to a client of another proxy that says what this program says. -/
def Fed (talk : List Talk) : Act → Prop
  | .request buffer n _ => .said (buffer.take n) ∈ talk
  | .accepted _ _ _ => False
  | _ => True

/-- The other proxy takes no other address from it. -/
lemma fed_asked {act : Act} (h : Aim asked c) (hsocks : env.socks5 = true) (hfed : Fed c.talk act)
    (hasked : Asked env act d) : ∃ dst, c.addr = some dst ∧ d = dstOf dst.sockAddr := by
  cases hasked with
  | accepted => exact hfed.elim
  | @request buffer n a d hn hasks =>
    have hmsg := h.utters _ hfed
    have hzero : (buffer.take n)[0]? = some 0x05 := by
      rcases hmsg with hmsg | ⟨dst, -, z, hmsg⟩ <;> rw [hmsg] <;> rfl
    have hpos : 0 < n := by
      have hlt := (List.getElem?_eq_some_iff.mp hzero).1
      rw [List.length_take] at hlt
      omega
    have hver : buffer[0]? = some 0x05 := (List.getElem?_take_of_lt hpos).symm.trans hzero
    cases hasks with
    | @socks5 k ip port _ _ henc =>
      rcases hmsg with hmsg | ⟨dst, haddr, hreq⟩
      · have hlen := henc.length
        rw [hmsg] at hlen
        exact absurd (hlen.1.trans hlen.2) (by decide)
      · exact ⟨dst, haddr, hreq.dst_eq henc⟩
    | socks4 hno => exact absurd (hver.symm.trans hno.2) (by decide)
    | http hno =>
      have hfirst : (buffer.take 7)[0]? = some 0x05 :=
        (List.getElem?_take_of_lt (by omega)).trans hver
      rw [hno.2.2] at hfirst
      exact absurd hfirst (by decide)
    | shadowsocks _ _ henc =>
      have htype := encodes_type henc
      have hthree : (0 :: 0 :: 0 :: buffer.take n)[3]? = some 0x05 := hzero
      rw [hthree] at htype
      exact absurd (htype.imp_right (Or.imp_right And.left)) (by decide)
    | tls _ not5 => exact absurd ⟨hsocks, hver⟩ not5
    | tcp _ other => exact absurd (.socks5 ⟨hsocks, hver⟩) other

end Chain

/-- Two of these proxies in a row, in any interleaving and with any failures: a client of the second
one that says what the first one says is connected to the address that the first one was asked
for, and to no other. -/
theorem chain_keeps_address (env env' : Params) (acts acts' : List Act) (c u : Client)
    (hrun : run (step env) {} acts = some c) (hsocks : env'.socks5 = true)
    (hrun' : run (step env') {} acts' = some u) (hfed : ∀ act ∈ acts', Fed c.talk act) :
    u.dialled = [] ∨ ∃ dst, (∃ act ∈ acts, Asked env act dst) ∧
      ∀ conn ∈ u.dialled, conn.dst = dstOf dst.sockAddr := by
  have haim := run_aim hrun
  have haim' := run_aim hrun'
  cases haddr : u.addr with
  | none =>
    refine Or.inl (List.eq_nil_iff_forall_not_mem.mpr fun conn hconn => ?_)
    cases haddr.symm.trans (haim'.same conn hconn)
  | some d =>
    obtain ⟨act, hact, hasked⟩ := haim'.known d haddr
    obtain ⟨dst, hdst, rfl⟩ := fed_asked haim hsocks (hfed act hact) hasked
    refine Or.inr ⟨dst, haim.known dst hdst, fun conn hconn => ?_⟩
    exact Option.some.inj ((haim'.same conn hconn).symm.trans haddr)

theorem chain_keeps_address_plain : plainClient.dialled = [] ∨
    ∃ dst, (∃ act ∈ chainActs, Asked plainEnv act dst) ∧
      ∀ conn ∈ plainClient.dialled, conn.dst = dstOf dst.sockAddr := by
  refine chain_keeps_address plainEnv plainEnv chainActs plainActs chainClient plainClient chain_run
    rfl plain_run fun act hact => ?_
  simp only [plainActs, List.mem_cons, List.not_mem_nil, or_false] at hact
  rcases hact with rfl | rfl | rfl
  · exact List.mem_cons_self
  · show _ ∈ [Talk.said greeting, _, _, _]
    decide
  · trivial

section Success

variable {env : Params} {c : Client} {dst : Dst} {buffer req : Bytes} {n : Nat} {a : Answers}

/-- What an event brings when nothing fails. -/
def goodEvent : Event := ⟨none, none, true, true⟩

/-- Nothing fails for a request, and its group has nothing to wait for. -/
structure Good (a : Answers) : Prop where
  sends : a.sends = true
  group : a.dial.group = some ⟨false, none⟩
  connects : a.dial.connects = true

lemma request_s5 (hsocks : env.socks5 = true) (hcb : c.cb = .onRequest) (hpos : 1 ≤ buffer.length)
    (hver : rd buffer 0 = some 0x05) :
    step env c (.request buffer buffer.length a) = handleS5 env c buffer buffer.length a := by
  have hstep : step env c (.request buffer buffer.length a) =
      onRequest env c buffer buffer.length a := if_pos ⟨hcb, hpos, le_refl _⟩
  rw [hstep]
  unfold onRequest
  rw [hver]
  exact if_pos ⟨hsocks, rfl⟩

lemma greeting_taken (hsocks : env.socks5 = true) (ha : Good a) :
    step env {} (.request greeting greeting.length a) =
      some { flag := .s5, sent := [[0x05, 0x00]] } := by
  have hauth : authSocks5 greeting greeting.length = some (some 0x00) := by decide
  rw [request_s5 hsocks rfl (by decide) rfl]
  unfold handleS5
  rw [if_pos (by decide), hauth]
  simp [ha.sends, Client.send]

lemma request_taken (hsocks : env.socks5 = true) (hcb : c.cb = .onRequest) (hflag : c.flag = .s5)
    (hv6 : dst.sockAddr.family = .inet6 → env.ipv6 = true) (hreq : Request dst req) :
    step env c (.request req req.length a) =
      some (connectTo env c (some (dstOf dst.sockAddr)) a) := by
  obtain ⟨z, rfl⟩ := hreq
  have henc := header_asks hv6 z
  have hlen := henc.length
  obtain ⟨addr, hget, hip, hport⟩ := henc.get .zero
  have hdst : dstOf addr = dstOf dst.sockAddr := by
    rw [dstOf, hip, hport]
    rfl
  rw [request_s5 hsocks hcb (by omega) rfl]
  unfold handleS5
  rw [if_neg (not_not.mpr hflag), if_neg (by omega)]
  simp only [Option.bind_eq_bind]
  rw [hget, ← hdst]
  have hcmd : rd (0x05 :: 0x01 :: z :: header dst.sockAddr) 1 = some 0x01 := rfl
  simp only [hcmd, Option.bind_some, if_true]
  exact if_pos (Int.natCast_nonneg (size dst.sockAddr))

lemma connect_good (ha : Good a) : connectTo env c (some dst) a = c.dial ⟨none, dst⟩ := by
  unfold connectTo connectHook
  simp [ha.group, ha.connects]

lemma rd_received {msg : Bytes} {i : Nat} {x : UInt8} (h : msg[i]? = some x) :
    rd (received msg) i = some x := by
  rw [rd_nat]
  exact (List.getElem?_append_left (List.getElem?_eq_some_iff.mp h).1).trans h

lemma Accepts.length {msg : Bytes} (h : Accepts msg) : ¬ msg.length < 2 :=
  Nat.not_lt.mpr (List.getElem?_eq_some_iff.mp h.2).1

/-- The first answer that is accepted: the request is sent. -/
lemma step_first (env : Params) {msg req : Bytes} (h : Accepts msg) (hcb : c.cb = .onIgnore)
    (hremote : c.remoteCb = .onSocksRecv) (hshort : msg.length ≤ 262) (hstate : c.connState ≠ .s5)
    (haddr : c.addr = some dst) (hreq : connRequest (received msg) dst = some req) (e : Errno)
    (ev : Event) : step env c (.socksAnswered msg true e ev) =
      some { c with talk := c.talk ++ [Talk.heard msg] ++ [Talk.said req], connState := .s5 } := by
  have h0 : rd (received msg) 0 = some 0x05 := rd_received h.1
  have h1 : rd (received msg) 1 = some 0x00 := rd_received h.2
  have hstep : step env c (.socksAnswered msg true e ev) = onSocksRecv env c msg true e ev :=
    if_pos ⟨hcb, hremote, hshort⟩
  rw [hstep]
  unfold onSocksRecv
  rw [if_neg h.length]
  simp only [h0, h1, haddr, hreq, Option.bind_eq_bind, Option.bind_some]
  rw [if_neg (by decide), if_pos hstate]
  rfl

/-- The second one: the connection may be used. -/
lemma step_second (env : Params) {msg : Bytes} (h : Accepts msg) (hcb : c.cb = .onIgnore)
    (hremote : c.remoteCb = .onSocksRecv) (hshort : msg.length ≤ 262) (hstate : c.connState = .s5)
    (sends : Bool) (e : Errno) (ev : Event) : step env c (.socksAnswered msg sends e ev) =
      some ({ c with talk := c.talk ++ [Talk.heard msg], remoteCb := .onConnect }.open ev) := by
  have h0 : rd (received msg) 0 = some 0x05 := rd_received h.1
  have h1 : rd (received msg) 1 = some 0x00 := rd_received h.2
  have hstep : step env c (.socksAnswered msg sends e ev) = onSocksRecv env c msg sends e ev :=
    if_pos ⟨hcb, hremote, hshort⟩
  rw [hstep]
  unfold onSocksRecv
  rw [if_neg h.length]
  simp only [h0, h1, Option.bind_eq_bind, Option.bind_some]
  rw [if_neg (by decide), if_neg (not_not.mpr hstate)]
  rfl

lemma open_good (c : Client) : (c.open goodEvent).cb = .onTunnel ∧
    (c.open goodEvent).talk = c.talk := by
  unfold Client.open
  rw [if_neg (by decide)]
  split
  · exact ⟨rfl, rfl⟩
  · unfold Client.answer Client.resp
    cases respError .ok c.flag <;> exact ⟨rfl, rfl⟩

/-- A conversation that goes well, on the side of the first proxy. -/
lemma socks_opens (env : Params) (hcb : c.cb = .onIgnore) (hremote : c.remoteCb = .onSocksConn)
    (hstate : c.connState = .unset) (haddr : c.addr = some dst) (e : Errno)
    {first second : Bytes} (hfirst : Accepts first) (hsecond : Accepts second)
    (hshort : first.length ≤ 262 ∧ second.length ≤ 262) :
    ∃ req d, Request dst req ∧
      run (step env) c [.socksConnected true true goodEvent, .socksAnswered first true e goodEvent,
        .socksAnswered second true e goodEvent] = some d ∧ d.cb = .onTunnel ∧
      d.talk = c.talk ++ [.said greeting, .heard first, .said req, .heard second] := by
  obtain ⟨req, hreq, hrequest⟩ := connRequest_eq dst hfirst.1
  have hconn : step env c (.socksConnected true true goodEvent) =
      some { c with talk := c.talk ++ [Talk.said greeting], remoteCb := .onSocksRecv } :=
    if_pos ⟨hcb, hremote⟩
  let c₁ : Client := { c with talk := c.talk ++ [.said greeting], remoteCb := .onSocksRecv }
  have hne : c₁.connState ≠ .s5 := by
    show c.connState ≠ .s5
    rw [hstate]
    decide
  have hask := step_first env (c := c₁) hfirst hcb rfl hshort.1 hne haddr hreq e goodEvent
  let c₂ : Client := { c₁ with
    talk := c₁.talk ++ [.heard first] ++ [.said req], connState := .s5 }
  have hdone := step_second env (c := c₂) hsecond hcb rfl hshort.2 rfl true e goodEvent
  obtain ⟨hopen, htalk⟩ :=
    open_good { c₂ with talk := c₂.talk ++ [.heard second], remoteCb := .onConnect }
  refine ⟨req, _, hrequest, ?_, hopen, ?_⟩
  · rw [run_cons hconn, run_cons hask, run_cons hdone]
    rfl
  · rw [htalk]
    simp only [c₂, c₁, List.append_assoc, List.cons_append, List.nil_append]

/-- The other proxy, on its side of it. -/
lemma socks_serves (hsocks : env.socks5 = true)
    (hv6 : dst.sockAddr.family = .inet6 → env.ipv6 = true) (hreq : Request dst req) {a' : Answers}
    (ha : Good a) (ha' : Good a') :
    run (step env) {} [.request greeting greeting.length a, .request req req.length a',
        .connected goodEvent] =
      some { cb := .onTunnel, flag := .s5, addr := some (dstOf dst.sockAddr),
             sent := [[0x05, 0x00], s5Error 0x00], dialled := [⟨none, dstOf dst.sockAddr⟩] } := by
  have htaken := request_taken (a := a') (c := { flag := .s5, sent := [[0x05, 0x00]] }) hsocks rfl
    rfl hv6 hreq
  rw [connect_good ha'] at htaken
  rw [run_cons (greeting_taken hsocks ha), run_cons htaken]
  rfl

end Success

/-- Two of these proxies in a row: when nothing fails, each takes what the other one says, and both
tunnels are opened, the second one to the address of the first. -/
theorem chain_connects (env env' : Params) (c : Client) (dst : Dst) (e : Errno) (a a' : Answers)
    (hcb : c.cb = .onIgnore) (hremote : c.remoteCb = .onSocksConn) (hstate : c.connState = .unset)
    (haddr : c.addr = some dst) (hsocks : env'.socks5 = true)
    (hv6 : dst.sockAddr.family = .inet6 → env'.ipv6 = true) (ha : Good a) (ha' : Good a') :
    ∃ first req second d u,
      run (step env) c [.socksConnected true true goodEvent,
        .socksAnswered first true e goodEvent, .socksAnswered second true e goodEvent] = some d ∧
      run (step env') {} [.request greeting greeting.length a, .request req req.length a',
        .connected goodEvent] = some u ∧
      d.talk = c.talk ++ [.said greeting, .heard first, .said req, .heard second] ∧
      u.sent = [first, second] ∧ d.cb = .onTunnel ∧ u.cb = .onTunnel ∧
      u.dialled = [⟨none, dstOf dst.sockAddr⟩] := by
  have hfirst : Accepts [0x05, 0x00] := ⟨rfl, rfl⟩
  have hsecond : Accepts (s5Error 0x00) := ⟨rfl, rfl⟩
  obtain ⟨req, d, hreq, hrun, hopen, htalk⟩ :=
    socks_opens env hcb hremote hstate haddr e hfirst hsecond (by decide)
  exact ⟨_, req, _, d, _, hrun, socks_serves hsocks hv6 hreq ha ha', htalk, rfl, hopen, rfl, rfl⟩

/-- `chainClient` when the other proxy has only just been connected. -/
def waitingClient : Client :=
  { chainClient with
    cb := .onIgnore, remoteCb := .onSocksConn, connState := .unset, sent := [[0x05, 0x00]],
    talk := [] }

theorem chain_connects_plain : ∃ first req second d u,
    run (step plainEnv) waitingClient [.socksConnected true true goodEvent,
      .socksAnswered first true .ok goodEvent, .socksAnswered second true .ok goodEvent] = some d ∧
    run (step plainEnv) {} [.request greeting greeting.length plainAnswers,
      .request req req.length plainAnswers, .connected goodEvent] = some u ∧
    d.talk = waitingClient.talk ++ [.said greeting, .heard first, .said req, .heard second] ∧
    u.sent = [first, second] ∧ d.cb = .onTunnel ∧ u.cb = .onTunnel ∧
    u.dialled = [⟨none, dstOf (Dst.sockAddr ⟨some (.v4 (octets4 10 0 0 1)), octets2 0 80⟩)⟩] :=
  chain_connects plainEnv plainEnv waitingClient _ .ok plainAnswers plainAnswers rfl rfl rfl rfl rfl
    (fun _ => rfl) ⟨rfl, rfl, rfl⟩ ⟨rfl, rfl, rfl⟩

end Upstream
