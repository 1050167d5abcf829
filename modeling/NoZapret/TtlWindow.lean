import NoZapret.Tunnel

/-!
# The socket options around a decoy

The first half of a `DISORDER`, `DISOOB` or `FAKE` pair goes out with a short TTL, or with
an MD5 key. `restore_state` takes both back behind a half that was sent in full; a call
that ends before it leaves them to the next call.
-/

namespace TtlWindow

open Block Packets Params Desync DesyncSpec Tunnel Runs

/-- What a call does to the TTL and the length of the MD5 key. -/
def apply (s : Nat × Nat) : Event → Nat × Nat
  | .setTtl ttl => (ttl, s.2)
  | .setMd5 keyLen => (s.1, keyLen)
  | _ => s

/-- The options of a socket that was opened with the TTL `d`. -/
def opts (d : Nat) (log : List Event) : Nat × Nat := log.foldl apply (d, 0)

def Normal (g : Globals) (w : Sock) : Prop := opts g.defTtl w.log = (g.defTtl, 0)

instance (g : Globals) (w : Sock) : Decidable (Normal g w) :=
  inferInstanceAs (Decidable (opts g.defTtl w.log = (g.defTtl, 0)))

/-- What is to be taken back is noted. -/
structure Covered (g : Globals) (w : Sock) (r : Restore) : Prop where
  ttl : (opts g.defTtl w.log).1 ≠ g.defTtl → r.ttl = true
  md5 : (opts g.defTtl w.log).2 ≠ 0 → r.md5 = true

/-- Does the iteration send? -/
def reaches (c : Call) (idx : Nat) (rep : Rep) (st : Loop) : Bool :=
  match place (c.rnd.part idx) rep c.buffer c.n st.lp st.info with
  | none => false
  | some (pos, _) =>
    !skipped c (idx + 1) rep pos && decide (0 ≤ pos ∧ st.lp ≤ pos) && idx + 1 != c.partSkip &&
      !(rep.1.m.urgent && decide (c.buffer.length ≤ (min pos c.n).toNat))

/-- Every send of the call but the first halves of pairs finds the options normal. -/
def Guarded (c : Call) : List Rep → Nat → Loop → Prop
  | [], _, st => st.lp < c.n → Normal c.g st.sock
  | rep :: rest, idx, st =>
    (reaches c idx rep st = true → firstOfPair rep = false → Normal c.g st.sock) ∧
      match partStep c idx rep st with
      | some (.next st') => Guarded c rest (idx + 1) st'
      | some (.cancel st') => st'.lp < c.n → Normal c.g st'.sock
      | _ => True

/-- The first part that the call takes up is the first half of a pair, or the one recorded
as sent; without one there is no rest to send. -/
def resumesPair (c : Call) : List Rep → Nat → Loop → Bool
  | [], _, st => decide (c.n ≤ st.lp)
  | rep :: rest, idx, st =>
    match place (c.rnd.part idx) rep c.buffer c.n st.lp st.info with
    | none => true
    | some (pos, info) =>
      if skipped c (idx + 1) rep pos then resumesPair c rest (idx + 1) { st with info := info }
      else if pos < 0 ∨ pos < st.lp then decide (c.n ≤ st.lp)
      else idx + 1 == c.partSkip || firstOfPair rep ||
        (rep.1.m.urgent && decide (c.buffer.length ≤ (min pos c.n).toNat))

section Options

variable {d : Nat} {w : Sock}

@[simp] lemma opts_emit (d : Nat) (w : Sock) (e : Event) :
    opts d (w.emit e).log = apply (opts d w.log) e := by
  simp only [opts, Sock.emit, List.foldl_append, List.foldl_cons, List.foldl_nil]

lemma sys1_log (w : Sock) : w.sys1.2.log = w.log := by
  unfold Sock.sys1
  split <;> rfl

lemma opts_send (o : Origin) (payload : Bytes) (oob : Bool) :
    opts d (w.send o payload oob).2.log = opts d w.log := by
  unfold Sock.send
  split <;> first | rfl | exact opts_emit d _ _

lemma sysOk_send (h : SysOk w) (o : Origin) (payload : Bytes) (oob : Bool) :
    SysOk (w.send o payload oob).2 := by
  unfold Sock.send
  split <;> exact h

lemma opts_setttl (h : SysOk w) (ttl : Nat) :
    opts d (w.setttl ttl).2.log = (ttl, (opts d w.log).2) := by
  have hok : w.sys1.2.sys1.1 = true := sys1_ok ((silent_sys1 w).sysOk h)
  simp only [Sock.setttl, hok, Bool.true_or, if_true, opts_emit, apply, sys1_log]

lemma opts_setMd5sig (h : SysOk w) (keyLen : Nat) :
    opts d (w.setMd5sig keyLen).2.log = ((opts d w.log).1, keyLen) := by
  have hok : w.sys1.2.sys1.1 = true := sys1_ok ((silent_sys1 w).sysOk h)
  simp only [Sock.setMd5sig, sys1_ok h, hok, Bool.not_true, Bool.false_eq_true, if_false, if_true,
    opts_emit, apply, sys1_log]

end Options

section Restore

variable {g : Globals} {w : Sock} {r : Restore} {st : Loop}

lemma covered_of_normal (h : Normal g w) (r : Restore) : Covered g w r := by
  unfold Normal at h
  constructor
  · intro hne
    rw [h] at hne
    exact absurd rfl hne
  · intro hne
    rw [h] at hne
    exact absurd rfl hne

lemma unmapFake_opts (d : Nat) (st : Loop) :
    opts d (unmapFake st).sock.log = opts d st.sock.log ∧
      (unmapFake st).remote.ttl = st.remote.ttl ∧ (unmapFake st).remote.md5 = st.remote.md5 := by
  unfold unmapFake
  split
  · exact ⟨opts_emit d _ _, rfl, rfl⟩
  · exact ⟨rfl, rfl, rfl⟩

lemma clearMd5_opts {d : Nat} (hk : SysOk st.sock)
    (hc : (opts d st.sock.log).2 ≠ 0 → st.remote.md5 = true) :
    opts d (clearMd5 st).sock.log = ((opts d st.sock.log).1, 0) ∧
      (clearMd5 st).remote.ttl = st.remote.ttl := by
  unfold clearMd5
  split
  · exact ⟨opts_setMd5sig hk 0, rfl⟩
  · next hnot =>
    have hzero : (opts d st.sock.log).2 = 0 := by
      by_contra hne
      exact hnot (hc hne)
    exact ⟨Prod.ext rfl hzero, rfl⟩

lemma resetTtl_opts (hk : SysOk st.sock)
    (hc : (opts g.defTtl st.sock.log).1 ≠ g.defTtl → st.remote.ttl = true) :
    opts g.defTtl (resetTtl g st).sock.log = (g.defTtl, (opts g.defTtl st.sock.log).2) := by
  unfold resetTtl
  split
  · exact opts_setttl hk g.defTtl
  · next hnot =>
    have hdef : (opts g.defTtl st.sock.log).1 = g.defTtl := by
      by_contra hne
      exact hnot (hc hne)
    exact Prod.ext hdef rfl

/-- `restore_state` brings the options back. -/
lemma restoreState_normal (hk : SysOk st.sock) (hc : Covered g st.sock st.remote) :
    Normal g (restoreState g st).sock ∧ SysOk (restoreState g st).sock := by
  refine ⟨?_, (restored_restoreState g st).silent.sysOk hk⟩
  obtain ⟨hopts, httl, hmd5⟩ := unmapFake_opts g.defTtl st
  have hk1 : SysOk (unmapFake st).sock := (restored_unmapFake st).silent.sysOk hk
  have hk2 : SysOk (clearMd5 (unmapFake st)).sock := (restored_clearMd5 _).silent.sysOk hk1
  obtain ⟨hopts2, httl2⟩ := clearMd5_opts hk1 (by rw [hopts, hmd5]; exact hc.md5)
  have hopts3 := resetTtl_opts (g := g) hk2
    (by rw [hopts2, httl2, hopts, httl]; exact hc.ttl)
  rw [hopts2] at hopts3
  exact hopts3

end Restore

section Parts

variable {c : Call} {st st' : Loop} {pos : Nat}

/-- The options of the remote socket are covered, and its options succeed. -/
structure Kept (g : Globals) (st : Loop) : Prop where
  sysOk : SysOk st.sock
  covered : Covered g st.sock st.remote

/-- A step that sends, with the options left as they are. -/
lemma kept_of_opts {g : Globals} (h : Kept g st) (hk : SysOk st'.sock)
    (ho : opts g.defTtl st'.sock.log = opts g.defTtl st.sock.log)
    (ht : st.remote.ttl = true → st'.remote.ttl = true)
    (hm : st.remote.md5 = true → st'.remote.md5 = true) : Kept g st' := by
  refine ⟨hk, ?_, ?_⟩
  · rw [ho]
    exact fun hne => ht (h.covered.ttl hne)
  · rw [ho]
    exact fun hne => hm (h.covered.md5 hne)

lemma sendRequest_kept {s : Int} (h : Kept c.g st)
    (hs : sendRequest c st pos = some (s, st')) : Kept c.g st' ∧ st'.lp = st.lp := by
  simp only [sendRequest, Option.bind_eq_bind, Option.bind_eq_some_iff] at hs
  obtain ⟨payload, -, hs⟩ := hs
  cases hs
  exact ⟨kept_of_opts h (sysOk_send h.sysOk _ _ _) (opts_send _ _ _) id id, rfl⟩

lemma sendOob_kept {s : Int} (h : Kept c.g st)
    (hs : sendOob c st pos = some (s, st')) : Kept c.g st' := by
  unfold sendOob at hs
  split at hs
  · cases hs
    exact h
  · obtain ⟨payload, -, hs⟩ := Option.bind_eq_some_iff.mp hs
    cases hs
    exact kept_of_opts h (sysOk_send h.sysOk _ _ _) (opts_send _ _ _) id id

/-- Both options have been set and noted. -/
lemma kept_noted {g : Globals} (hk : SysOk st'.sock) (ht : st'.remote.ttl = true)
    (hm : (opts g.defTtl st'.sock.log).2 ≠ 0 → st'.remote.md5 = true) : Kept g st' :=
  ⟨hk, fun _ => ht, hm⟩

lemma sendFake_kept {s : Int} {pkt : Packet} (h : Kept c.g st)
    (hkey : (opts c.g.defTtl st.sock.log).2 ≠ 0 → c.dp.md5sig = true)
    (hs : sendFake c st pos pkt = some (s, st')) : Kept c.g st' := by
  simp only [sendFake] at hs
  generalize (if c.dp.ttl = 0 then 8 else c.dp.ttl) = ttl at hs
  by_cases hps : (pkt.data.length : Int) - pkt.off < 0
  · rw [if_pos hps] at hs
    cases hs
    exact h
  rw [if_neg hps] at hs
  have hok := setttl_ok h.sysOk ttl
  have hk1 : SysOk (st.sock.setttl ttl).2 := (silent_setttl st.sock ttl).sysOk h.sysOk
  have ho1 : opts c.g.defTtl (st.sock.setttl ttl).2.log = (ttl, (opts c.g.defTtl st.sock.log).2) :=
    opts_setttl h.sysOk ttl
  simp only [hok, Bool.not_true, Bool.false_eq_true, if_false] at hs
  cases hmd : c.dp.md5sig with
  | false =>
    simp only [hmd, Bool.false_eq_true, if_false, Bool.not_true, Option.bind_eq_bind,
      Option.bind_eq_some_iff] at hs
    obtain ⟨payload, -, hs⟩ := hs
    cases hs
    refine kept_noted (sysOk_send hk1 _ _ _) rfl ?_
    rw [opts_send, ho1]
    intro hne
    cases hmd.symm.trans (hkey hne)
  | true =>
    have hok2 := setMd5sig_ok hk1 5
    have hk2 := (silent_setMd5sig (st.sock.setttl ttl).2 5).sysOk hk1
    simp only [hmd, if_true, hok2, Bool.not_true, Bool.false_eq_true, if_false,
      Option.bind_eq_bind, Option.bind_eq_some_iff] at hs
    obtain ⟨payload, -, hs⟩ := hs
    cases hs
    exact kept_noted (sysOk_send hk2 _ _ _) rfl fun _ => rfl

lemma disorder_kept {oob first : Bool} {s : Int} (h : Kept c.g st)
    (hs : disorder c oob first st pos = some (s, st')) : Kept c.g st' := by
  obtain ⟨hok, hsil⟩ := setttl_step h.sysOk first
  have hmid : Kept c.g { st with
      sock := (if first then st.sock.setttl 1 else (true, st.sock)).2
      remote := { st.remote with ttl := true } } := by
    refine kept_noted (hsil.sysOk h.sysOk) rfl ?_
    cases first with
    | true =>
      simp only [if_true, opts_setttl h.sysOk]
      exact h.covered.md5
    | false => exact h.covered.md5
  simp only [disorder, hok, Bool.not_true, Bool.false_eq_true, if_false] at hs
  cases oob with
  | true => exact sendOob_kept hmid hs
  | false => exact (sendRequest_kept hmid hs).1

lemma fakeFirst_kept {idx : Nat} {s : Option Int} (h : Kept c.g st)
    (hkey : (opts c.g.defTtl st.sock.log).2 ≠ 0 → c.dp.md5sig = true)
    (hs : fakeFirst c idx st pos = some (s, st')) : Kept c.g st' := by
  have hsys : opts c.g.defTtl st.sock.sys1.2.log = opts c.g.defTtl st.sock.log :=
    congrArg _ (sys1_log st.sock)
  have hk1 : SysOk st.sock.sys1.2 := (silent_sys1 st.sock).sysOk h.sysOk
  simp only [fakeFirst] at hs
  by_cases hpage : (!st.sock.sys1.1) = true
  · rw [if_pos hpage] at hs
    cases hs
    exact kept_of_opts h hk1 hsys id id
  rw [if_neg hpage] at hs
  simp only [Option.bind_eq_bind, Option.bind_eq_some_iff] at hs
  obtain ⟨⟨pkt, info⟩, -, hs⟩ := hs
  have hmid : Kept c.g { st with
      sock := st.sock.sys1.2.emit (.mapPage pkt.data.length), info := info
      remote := { st.remote with fake := some pkt.data.length } } :=
    kept_of_opts h hk1 (by rw [opts_emit, hsys]; rfl) id id
  simp only at hs
  split at hs
  · cases hs
    exact hmid
  · obtain ⟨⟨s', x⟩, hfake, hs⟩ := Option.bind_eq_some_iff.mp hs
    cases hs
    refine sendFake_kept hmid ?_ hfake
    rw [opts_emit, hsys]
    exact hkey

lemma sendPart_kept {idx : Nat} {rep : Rep} {s : Option Int} (h : Kept c.g st)
    (hkey : (opts c.g.defTtl st.sock.log).2 ≠ 0 → c.dp.md5sig = true)
    (hs : sendPart c idx rep st pos = some (s, st')) : Kept c.g st' := by
  unfold sendPart at hs
  cases hm : rep.1.m <;> simp only [hm] at hs
  case fake =>
    split at hs
    · exact fakeFirst_kept h hkey hs
    · obtain ⟨⟨s', x⟩, hx, hs⟩ := Option.bind_eq_some_iff.mp hs
      cases hs
      exact (sendRequest_kept h hx).1
  case oob =>
    obtain ⟨⟨s', x⟩, hx, hs⟩ := Option.bind_eq_some_iff.mp hs
    cases hs
    exact sendOob_kept h hx
  case disorder | disoob =>
    obtain ⟨⟨s', x⟩, hx, hs⟩ := Option.bind_eq_some_iff.mp hs
    cases hs
    exact disorder_kept h hx
  case split | none =>
    obtain ⟨⟨s', x⟩, hx, hs⟩ := Option.bind_eq_some_iff.mp hs
    cases hs
    exact (sendRequest_kept h hx).1

/-- A flow behind the switch: the call ends with everything noted, or goes on with the
options normal. -/
def Settled (g : Globals) : Flow → Prop
  | .next st => Kept g st ∧ Normal g st.sock
  | .cancel _ => False
  | .ret _ _ st => Kept g st

lemma afterSend_settled (h : Kept c.g st) (curr : Nat) (first : Bool) (s : Int) :
    Settled c.g (afterSend c curr first pos s st) := by
  have hpart : ∀ k, Kept c.g { st with partSent := k } :=
    fun k => kept_of_opts h h.sysOk rfl id id
  have hrestore : ∀ lp k, Kept c.g (restoreState c.g
        { st with lp := lp, partSent := k, sock := st.sock.hasNotsent.2 }) ∧
      Normal c.g (restoreState c.g
        { st with lp := lp, partSent := k, sock := st.sock.hasNotsent.2 }).sock := by
    intro lp k
    have hmid : Kept c.g { st with lp := lp, partSent := k, sock := st.sock.hasNotsent.2 } :=
      kept_of_opts h h.sysOk rfl id id
    obtain ⟨hnormal, hk⟩ := restoreState_normal hmid.sysOk hmid.covered
    exact ⟨⟨hk, covered_of_normal hnormal _⟩, hnormal⟩
  have hwait : ∀ lp k, Kept c.g { st with
      lp := lp, partSent := k, sock := st.sock.hasNotsent.2.emit (.timer c.g.awaitInt) } :=
    fun lp k => kept_of_opts h h.sysOk (opts_emit _ _ _) id id
  unfold afterSend
  cases first
  all_goals
    simp only [Bool.false_eq_true, if_true, if_false]
    split
    · split <;> exact hpart _
    split
    · exact hpart _
    split
    · split
      · exact hwait _ _
      · exact ⟨⟨(hrestore _ _).1.sysOk, (hrestore _ _).1.covered⟩, (hrestore _ _).2⟩
    · split
      · exact hwait _ _
      · exact ⟨⟨(hrestore _ _).1.sysOk, (hrestore _ _).1.covered⟩, (hrestore _ _).2⟩

/-- What an iteration does: it passes over the part, cancels, or handles it. -/
lemma partStep_cases {idx : Nat} {rep : Rep} {fl : Flow} (h : Kept c.g st)
    (hkey : (opts c.g.defTtl st.sock.log).2 ≠ 0 → c.dp.md5sig = true)
    (hs : partStep c idx rep st = some fl) :
    ∃ pos info, place (c.rnd.part idx) rep c.buffer c.n st.lp st.info = some (pos, info) ∧
      ((skipped c (idx + 1) rep pos = true ∧ fl = .next { st with info := info }) ∨
        (skipped c (idx + 1) rep pos = false ∧ (pos < 0 ∨ pos < st.lp) ∧
          fl = .cancel { st with info := info }) ∨
        (skipped c (idx + 1) rep pos = false ∧ ¬ (pos < 0 ∨ pos < st.lp) ∧ Settled c.g fl)) := by
  simp only [partStep, Option.bind_eq_bind, Option.bind_eq_some_iff] at hs
  obtain ⟨⟨pos, info⟩, hplace, hs⟩ := hs
  refine ⟨pos, info, hplace, ?_⟩
  simp only at hs
  have hinfo : Kept c.g { st with info := info } := kept_of_opts h h.sysOk rfl id id
  split at hs
  · next hskip =>
    cases hs
    exact .inl ⟨hskip, rfl⟩
  next hskip =>
  have hskip' : skipped c (idx + 1) rep pos = false := by simpa using hskip
  split at hs
  · next hcancel =>
    cases hs
    exact .inr (.inl ⟨hskip', hcancel, rfl⟩)
  next hcancel =>
  refine .inr (.inr ⟨hskip', hcancel, ?_⟩)
  split at hs
  · cases hs
    exact afterSend_settled hinfo _ _ _
  · obtain ⟨⟨s, st1⟩, hsend, hs⟩ := Option.bind_eq_some_iff.mp hs
    have hst1 : Kept c.g st1 := sendPart_kept hinfo hkey hsend
    cases s with
    | none =>
      cases hs
      exact hst1
    | some s =>
      cases hs
      exact afterSend_settled hst1 _ _ _

/-- Where a call may start: the options are normal, or it takes the pair up again. -/
structure Ready (c : Call) (reps : List Rep) (idx : Nat) (st : Loop) : Prop where
  kept : Kept c.g st
  key : (opts c.g.defTtl st.sock.log).2 ≠ 0 → c.dp.md5sig = true
  resumes : Normal c.g st.sock ∨ resumesPair c reps idx st = true

lemma ready_of_normal (h : Kept c.g st) (hn : Normal c.g st.sock) (reps : List Rep) (idx : Nat) :
    Ready c reps idx st := by
  refine ⟨h, ?_, .inl hn⟩
  unfold Normal at hn
  rw [hn]
  exact fun hne => absurd rfl hne

theorem sendRest_ends {e : Ended} (h : Kept c.g st) (he : sendRest c st = some e) :
    Kept c.g e.st := by
  unfold sendRest at he
  split at he
  · obtain ⟨⟨s, x⟩, hx, he⟩ := Option.bind_eq_some_iff.mp he
    have hkept := (sendRequest_kept h hx).1
    simp only at he
    split at he
    · split at he <;> cases he <;> exact hkept
    · cases he
      exact hkept
  · cases he
    exact h

lemma resumesPair_place {idx : Nat} {rep : Rep} {rest : List Rep} {p : Int} {info : ProtoInfo}
    (h : place (c.rnd.part idx) rep c.buffer c.n st.lp st.info = some (p, info)) :
    resumesPair c (rep :: rest) idx st =
      if skipped c (idx + 1) rep p then resumesPair c rest (idx + 1) { st with info := info }
      else if p < 0 ∨ p < st.lp then decide (c.n ≤ st.lp)
      else idx + 1 == c.partSkip || firstOfPair rep ||
        (rep.1.m.urgent && decide (c.buffer.length ≤ (min p c.n).toNat)) := by
  rw [resumesPair, h]

/-- A part that is reached while the options are not normal is the first half of a pair. -/
lemma Ready.reached {idx : Nat} {rep : Rep} {rest : List Rep} (h : Ready c (rep :: rest) idx st)
    (hreach : reaches c idx rep st = true) (hfirst : firstOfPair rep = false) :
    Normal c.g st.sock := by
  refine h.resumes.resolve_right ?_
  intro hres
  unfold reaches at hreach
  split at hreach
  · cases hreach
  next p info hplace =>
  simp only [Bool.and_eq_true, Bool.not_eq_true', decide_eq_true_eq, bne_iff_ne, ne_eq]
    at hreach
  obtain ⟨⟨⟨hskip, hpos, hlp⟩, hcurr⟩, hfull⟩ := hreach
  rw [resumesPair_place hplace, hskip, if_neg (by simp), if_neg (by omega), hfirst, hfull] at hres
  simp only [Bool.or_false, beq_iff_eq] at hres
  exact hcurr hres

/-- Passing over a part changes nothing about the start. -/
lemma Ready.skip {idx : Nat} {rep : Rep} {rest : List Rep} {p : Int} {info : ProtoInfo}
    (h : Ready c (rep :: rest) idx st)
    (hplace : place (c.rnd.part idx) rep c.buffer c.n st.lp st.info = some (p, info))
    (hskip : skipped c (idx + 1) rep p = true) :
    Ready c rest (idx + 1) { st with info := info } := by
  refine ⟨kept_of_opts h.kept h.kept.sysOk rfl id id, h.key, h.resumes.imp id ?_⟩
  intro hres
  rw [resumesPair_place hplace, if_pos hskip] at hres
  exact hres

theorem parts_guarded {reps : List Rep} :
    ∀ {idx : Nat} {st : Loop}, Ready c reps idx st →
      Guarded c reps idx st ∧ ∀ e, partsLoop c reps idx st = some e → Kept c.g e.st := by
  induction reps with
  | nil =>
    intro idx st h
    refine ⟨?_, fun e he => sendRest_ends h.kept he⟩
    intro hlt
    refine h.resumes.resolve_right ?_
    simp only [resumesPair, decide_eq_true_eq]
    omega
  | cons rep rest ih =>
    intro idx st h
    have hreached : reaches c idx rep st = true → firstOfPair rep = false →
        Normal c.g st.sock := fun hreach hfirst => h.reached hreach hfirst
    simp only [Guarded]
    cases hstep : partStep c idx rep st with
    | none =>
      refine ⟨⟨hreached, trivial⟩, ?_⟩
      rw [partsLoop_undefined hstep]
      rintro e ⟨⟩
    | some fl =>
      obtain ⟨p, info, hplace, ⟨hskip, rfl⟩ | ⟨hskip, hcancel, rfl⟩ | ⟨hskip, hgo, hset⟩⟩ :=
        partStep_cases h.kept h.key hstep
      · obtain ⟨hguard, hends⟩ := ih (h.skip hplace hskip)
        rw [partsLoop_next hstep]
        exact ⟨⟨hreached, hguard⟩, hends⟩
      · have hinfo : Kept c.g { st with info := info } :=
          kept_of_opts h.kept h.kept.sysOk rfl id id
        rw [partsLoop_cancel hstep]
        refine ⟨⟨hreached, ?_⟩, fun e he => sendRest_ends hinfo he⟩
        intro hlt
        refine h.resumes.resolve_right ?_
        rw [resumesPair_place hplace, hskip, if_neg (by simp), if_pos hcancel,
          decide_eq_true_eq]
        simp only at hlt
        omega
      · cases fl with
        | next st' =>
          obtain ⟨hguard, hends⟩ := ih (ready_of_normal hset.1 hset.2 rest (idx + 1))
          rw [partsLoop_next hstep]
          exact ⟨⟨hreached, hguard⟩, hends⟩
        | cancel st' => exact hset.elim
        | ret v wait st' =>
          rw [partsLoop_ret hstep]
          refine ⟨⟨hreached, trivial⟩, ?_⟩
          rintro e he
          cases he
          exact hset

end Parts

section Runs

/-- A chunk from the client, a flush of the held buffer, or an answer that begins the next
round (`round_sent = 0`, `part_sent = 0`). -/
inductive Act where
  | deliver (x : Request × Rands)
  | flush (rnd : Rands)
  | answer

def step (env : Env) (t : Pair) : Act → Option Pair
  | .deliver x => Tunnel.deliver env t x
  | .flush rnd => Tunnel.flush env t rnd
  | .answer => some { t with roundSent := 0, partSent := 0 }

/-- A property of the call of `tcp_send_hook`, for the loop of `desync` and for a plain send. -/
def OnHook (env : Env) (rnd : Rands) (t : Pair) (b : Buffer) (n : Nat)
    (loop : Call → List Rep → Nat → Loop → Prop) (plain : Sock → Prop) : Prop :=
  ∀ dp, setupConn env t b.data n = some dp →
    if checkRound dp.rounds t.roundCount then
      ∀ T, prepare env.g dp rnd b.data n t.roundSent = some T →
        loop (callOf env.g dp rnd (connOf t b n) T) (expand dp.parts) 0 (loopOf (connOf t b n) T)
    else plain t.sock

/-- The same for the call that an action makes. -/
def OnAct (env : Env) (t : Pair) (act : Act) (loop : Call → List Rep → Nat → Loop → Prop)
    (plain : Sock → Prop) : Prop :=
  match act with
  | .deliver x => OnHook env x.2 (recvHook t x.1.n) ⟨x.1.data, x.1.n, 0⟩ x.1.n loop plain
  | .flush rnd => ∀ b, t.buff = some b → OnHook env rnd t b b.lock loop plain
  | .answer => True

/-- Every send but the first halves of pairs finds the options normal. -/
def GuardedAct (env : Env) (t : Pair) (act : Act) : Prop :=
  OnAct env t act Guarded (Normal env.g)

/-- Where the options are not normal, the call takes the pair up again, and its group still
asks for a key if one is set. -/
def Start (c : Call) (reps : List Rep) (idx : Nat) (st : Loop) : Prop :=
  Normal c.g st.sock ∨
    (resumesPair c reps idx st = true ∧
      ((opts c.g.defTtl st.sock.log).2 ≠ 0 → c.dp.md5sig = true))

def TakesUp (env : Env) (t : Pair) (act : Act) : Prop := OnAct env t act Start (Normal env.g)

/-- Between two calls. -/
structure Noted (env : Env) (t : Pair) : Prop where
  sysOk : SysOk t.sock
  covered : Covered env.g t.sock t.remote

variable {env : Env} {rnd : Rands} {t t' : Pair} {b : Buffer} {n : Nat}

lemma ready_of_start {c : Call} {reps : List Rep} {idx : Nat} {st : Loop} (hk : Kept c.g st)
    (h : Start c reps idx st) : Ready c reps idx st := by
  rcases h with hn | ⟨hres, hkey⟩
  · exact ready_of_normal hk hn reps idx
  · exact ⟨hk, hkey, .inr hres⟩

lemma kept_loopOf (hn : Noted env t) (b : Buffer) (n : Nat) (T : Tamped) :
    Kept env.g (loopOf (connOf t b n) T) :=
  ⟨hn.sysOk, hn.covered⟩

lemma onHook_guarded (hn : Noted env t) (h : OnHook env rnd t b n Start (Normal env.g)) :
    OnHook env rnd t b n Guarded (Normal env.g) := by
  intro dp hset
  have hdp := h dp hset
  split at hdp
  · next hround =>
    rw [if_pos hround]
    intro T hT
    exact (parts_guarded (ready_of_start (kept_loopOf hn b n T) (hdp T hT))).1
  · next hround =>
    rw [if_neg hround]
    exact hdp

lemma plainSend_noted {hook : Hook} (hn : Noted env t) (h : plainSend t b n = some hook) :
    Noted env hook.pair := by
  unfold plainSend at h
  obtain ⟨payload, -, h⟩ := Option.bind_eq_some_iff.mp h
  have hsent : ∀ sent, Noted env { t with
      sock := (t.sock.send (.request b.offset) payload false).2, roundSent := sent } := by
    intro sent
    refine ⟨sysOk_send hn.sysOk _ _ _, ?_⟩
    constructor
    · rw [opts_send]
      exact hn.covered.ttl
    · rw [opts_send]
      exact hn.covered.md5
  simp only at h
  split at h
  · cases h
    exact hsent _
  · split at h <;> cases h
    exact hsent _

lemma tcpSendHook_noted {hook : Hook} (hn : Noted env t)
    (hok : OnHook env rnd t b n Start (Normal env.g))
    (h : tcpSendHook env rnd t b n = some hook) : Noted env hook.pair := by
  unfold tcpSendHook at h
  obtain ⟨dp, hset, h⟩ := Option.bind_eq_some_iff.mp h
  have hdp := hok dp hset
  simp only at h
  split at h
  · next hround =>
    rw [if_pos hround] at hdp
    obtain ⟨⟨ret, wait, k⟩, hd, h⟩ := Option.bind_eq_some_iff.mp h
    obtain ⟨T, e, hT, he, hout⟩ := desync_some_iff.mp hd
    cases hout
    have hends := (parts_guarded (ready_of_start (kept_loopOf hn b n T) (hdp T hT))).2 e he
    simp only at h
    split at h <;> cases h
    exact ⟨hends.sysOk, hends.covered⟩
  · exact plainSend_noted (t := { t with dp := dp }) ⟨hn.sysOk, hn.covered⟩ h

lemma noted_step (env : Env) (t : Pair) (act : Act) (t' : Pair) (hn : Noted env t)
    (hok : TakesUp env t act) (h : step env t act = some t') : Noted env t' := by
  cases act with
  | answer =>
    cases h
    exact ⟨hn.sysOk, hn.covered⟩
  | deliver x =>
    simp only [step, Tunnel.deliver] at h
    split at h
    · cases h
    · obtain ⟨hook, hhook, h⟩ := Option.bind_eq_some_iff.mp h
      have hnext : Noted env hook.pair :=
        tcpSendHook_noted (t := recvHook t x.1.n) ⟨hn.sysOk, hn.covered⟩ hok hhook
      split at h <;> cases h <;> exact ⟨hnext.sysOk, hnext.covered⟩
  | flush rnd =>
    simp only [step, Tunnel.flush] at h
    obtain ⟨b, hb, h⟩ := Option.bind_eq_some_iff.mp h
    obtain ⟨hook, hhook, h⟩ := Option.bind_eq_some_iff.mp h
    have hnext : Noted env hook.pair := tcpSendHook_noted hn (hok b hb) hhook
    split at h <;> cases h <;> exact ⟨hnext.sysOk, hnext.covered⟩

/-- As long as no call begins with options left over that it does not take up, every send
but the first halves of pairs is made with the options normal. -/
theorem options_normal (env : Env) (dp : DesyncParams) (w : Sock) (acts : List Act)
    (hk : SysOk w) (hlog : w.log = [])
    (hok : Meets (step env) (TakesUp env) { dp := dp, sock := w } acts) :
    Meets (step env) (GuardedAct env) { dp := dp, sock := w } acts := by
  have hnormal : Normal env.g w := by
    unfold Normal
    rw [hlog]
    rfl
  have hstart : Noted env { dp := dp, sock := w } := ⟨hk, covered_of_normal hnormal _⟩
  refine meets_of_inv (noted_step env) ?_ hstart hok
  intro t act hn htakes
  cases act with
  | answer => trivial
  | deliver x => exact onHook_guarded (t := recvHook t x.1.n) ⟨hn.sysOk, hn.covered⟩ htakes
  | flush rnd => exact fun b hb => onHook_guarded hn (htakes b hb)

lemma start_of_normal {env : Env} {t : Pair} (hn : Normal env.g t.sock) (act : Act) :
    TakesUp env t act := by
  have hhook : ∀ {rnd : Rands} {u : Pair} {b : Buffer} {n : Nat}, u.sock = t.sock →
      OnHook env rnd u b n Start (Normal env.g) := by
    intro rnd u b n hu dp _
    split
    · intro T _
      refine .inl ?_
      change Normal env.g u.sock
      rwa [hu]
    · rwa [hu]
  cases act with
  | answer => trivial
  | deliver x => exact hhook rfl
  | flush rnd => exact fun b _ => hhook rfl

def disorderAt6 : DesyncParams := { parts := [⟨.disorder, {}, 6, 0, 0⟩] }

def sameGroup : Env := { g := {}, select := fun dp _ _ => some dp }

lemma fourBytes_fits : 4 ≤ ([97, 98, 99, 100] : Bytes).length := by decide

def fourBytes : Request := ⟨[97, 98, 99, 100], 4, fourBytes_fits⟩

def eightBytes : Request := ⟨[1, 2, 3, 4, 5, 6, 7, 8], 8, by decide⟩

theorem options_normal_disorder :
    Meets (step sameGroup) (GuardedAct sameGroup) { dp := disorderAt6, sock := {} }
      [.deliver (eightBytes, {})] := by
  have hk : SysOk {} := by
    intro _ hb
    cases hb
  have hn : Normal sameGroup.g ({ dp := disorderAt6, sock := {} } : Pair).sock := by
    decide
  exact options_normal sameGroup disorderAt6 {} _ hk rfl
    ⟨start_of_normal hn _, fun _ _ => trivial⟩

/-- The request comes in two chunks, and the first half that is sent for the second one is cut
short: `round_sent` has passed the part by then, and the rest goes out with a TTL of 1. -/
theorem rest_leaves_with_short_ttl :
    ∃ t t', run (step sameGroup)
        { dp := disorderAt6, sock := { sends := [.all, .all, .short 3] } }
        [.deliver (fourBytes, {}), .deliver (eightBytes, {})] = some t ∧
      step sameGroup t (.flush {}) = some t' ∧
      t.sock.log.getLast? = some (.sent (.request 0) [1, 2, 3, 4, 5, 6] false 3) ∧
      t'.sock.log = t.sock.log ++ [.sent (.request 3) [4, 5, 6, 7, 8] false 5] ∧
      ¬ GuardedAct sameGroup t (.flush {}) := by
  refine ⟨_, _, rfl, rfl, rfl, rfl, ?_⟩
  intro hguard
  have hrest := ((hguard _ rfl _ rfl) _ rfl).2
  exact absurd (hrest (by decide)) (by decide)

end Runs

end TtlWindow
