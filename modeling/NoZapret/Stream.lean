import NoZapret.Desync

/-!
# The byte stream on the remote socket

What the peer reads is the concatenation of the bytes each `send` accepted,
without the urgent byte of an `MSG_OOB` send. Every byte carries the address in
the request buffer it was read from, or none for a decoy, so that "each byte
once and in order" can be said of equal bytes too.
-/

namespace Stream

open Block Packets Desync

def eventBytes : Event → List (UInt8 × Option Nat)
  | .sent (.request start) payload oob accepted =>
    ((payload.take (if oob then min accepted (payload.length - 1) else accepted)).zipIdx start).map
      fun x => (x.1, some x.2)
  | .sent .decoy payload oob accepted =>
    (payload.take (if oob then min accepted (payload.length - 1) else accepted)).map
      fun x => (x, none)
  | _ => []

def stream (log : List Event) : List (UInt8 × Option Nat) := log.flatMap eventBytes

/-- `[i, j)` of the request buffer as it appears in the stream. -/
def part (b : Bytes) (i j : Nat) : List (UInt8 × Option Nat) :=
  (span b i j).map fun x => (x.1, some x.2)

@[simp] lemma stream_nil : stream [] = [] := rfl

lemma stream_emit (w : Sock) (e : Event) :
    stream (w.emit e).log = stream w.log ++ eventBytes e := by
  simp [Sock.emit, stream]

@[simp] lemma part_self (b : Bytes) (i : Nat) : part b i i = [] := by
  simp [part]

lemma part_length {b : Bytes} {i j : Nat} (hj : j ≤ b.length) :
    (part b i j).length = j - i := by
  simp [part, span_length hj]

lemma part_append {b : Bytes} {i j k : Nat} (hij : i ≤ j) (hjk : j ≤ k) (hj : j ≤ b.length) :
    part b i j ++ part b j k = part b i k := by
  rw [part, part, part, ← List.map_append, span_append hij hjk hj]

/-- The byte that follows `[0, f)` in the request's own stream was read at `f`. -/
lemma next_of_prefix {b : Bytes} {n f : Nat} {x : UInt8 × Option Nat}
    {rest : List (UInt8 × Option Nat)} (hf : f ≤ b.length)
    (h : part b 0 f ++ x :: rest <+: part b 0 n) : x.2 = some f := by
  obtain ⟨t, ht⟩ := h
  have hx : (part b 0 n)[f]? = some x := by
    rw [← ht, List.append_assoc, List.getElem?_append_right (by simp [part_length hf])]
    simp [part_length hf]
  simp only [part, List.getElem?_map, Option.map_eq_some_iff] at hx
  obtain ⟨y, hy, rfl⟩ := hx
  simp [span_addr hy]

/-- A non-empty stretch of the request is out of place after `[0, f)` unless it
starts at `f`. -/
lemma part_not_prefix {b : Bytes} {n f i j : Nat} (hf : f ≤ b.length) (hij : i < j)
    (hj : j ≤ b.length) (hne : i ≠ f) : ¬ part b 0 f ++ part b i j <+: part b 0 n := by
  intro h
  cases hp : part b i j with
  | nil =>
    have hlen := part_length (i := i) hj
    rw [hp] at hlen
    simp only [List.length_nil] at hlen
    omega
  | cons x rest =>
    rw [hp] at h
    have hx : (part b i j)[0]? = some x := by rw [hp]; rfl
    simp only [part, List.getElem?_map, Option.map_eq_some_iff] at hx
    obtain ⟨y, hy, rfl⟩ := hx
    have hfirst := next_of_prefix hf h
    have hy2 := span_addr hy
    simp only [Option.some.injEq] at hfirst
    omega

/-- Any byte of a decoy is out of place. -/
lemma decoy_not_prefix {b : Bytes} {n f : Nat} {xs : Bytes} (hf : f ≤ b.length)
    (hxs : xs ≠ []) : ¬ part b 0 f ++ xs.map (fun x => (x, none)) <+: part b 0 n := by
  intro h
  cases xs with
  | nil => exact hxs rfl
  | cons x rest => simpa using next_of_prefix hf h

end Stream
