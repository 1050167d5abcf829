import NoZapret.Library.Getopt

/-!
# The options of the native engine

`main.c`: the table `options` as it is compiled for Android, and the part of
`parse_args` that `--block-quic` and `--fake-sni` reach. Whether the values are
valid (numbers, offsets, files) is a parameter. `-B` reads options of an earlier
group once more and is taken as any other option here.
-/

namespace Options

open Getopt

def options : List Opt := [
  ⟨"daemon", false, 'D'⟩, ⟨"pidfile", true, 'w'⟩, ⟨"no-domain", false, 'N'⟩,
  ⟨"no-ipv6", false, 'X'⟩, ⟨"no-udp", false, 'U'⟩, ⟨"help", false, 'h'⟩,
  ⟨"version", false, 'v'⟩, ⟨"ip", true, 'i'⟩, ⟨"port", true, 'p'⟩,
  ⟨"transparent", false, 'E'⟩, ⟨"conn-ip", true, 'I'⟩, ⟨"buf-size", true, 'b'⟩,
  ⟨"max-conn", true, 'c'⟩, ⟨"debug", true, 'x'⟩, ⟨"tfo", false, 'F'⟩, ⟨"auto", true, 'A'⟩,
  ⟨"auto-mode", true, 'L'⟩, ⟨"cache-ttl", true, 'u'⟩, ⟨"timeout", true, 'T'⟩,
  ⟨"copy", true, 'B'⟩, ⟨"cache-file", true, 'y'⟩, ⟨"proto", true, 'K'⟩, ⟨"hosts", true, 'H'⟩,
  ⟨"pf", true, 'V'⟩, ⟨"round", true, 'R'⟩, ⟨"split", true, 's'⟩, ⟨"disorder", true, 'd'⟩,
  ⟨"oob", true, 'o'⟩, ⟨"disoob", true, 'q'⟩, ⟨"fake", true, 'f'⟩, ⟨"md5sig", false, 'S'⟩,
  ⟨"fake-sni", true, 'n'⟩, ⟨"ttl", true, 't'⟩, ⟨"fake-data", true, 'l'⟩,
  ⟨"fake-offset", true, 'O'⟩, ⟨"fake-tls-mod", true, 'Q'⟩, ⟨"oob-data", true, 'e'⟩,
  ⟨"mod-http", true, 'M'⟩, ⟨"tlsrec", true, 'r'⟩, ⟨"tlsminor", true, 'm'⟩,
  ⟨"udp-fake", true, 'a'⟩, ⟨"block-quic", false, 'J'⟩, ⟨"def-ttl", true, 'g'⟩,
  ⟨"wait-send", false, 'Z'⟩, ⟨"await-int", true, 'W'⟩, ⟨"drop-sack", false, 'Y'⟩,
  ⟨"protect-path", true, 'P'⟩, ⟨"ipset", true, 'j'⟩, ⟨"connect-to", true, 'C'⟩,
  ⟨"comment", true, '#'⟩, ⟨"cache-merge", true, '/'⟩]

/-- `params.block_quic` and the entries of every group's `fake_sni_list`. -/
structure Params where
  blockQuic : Bool
  fakeSniList : List String
  deriving DecidableEq, Repr

def isBlockQuic (item : Item) : Bool := item.val = 'J'

def fakeSniOf (item : Item) : Option String := if item.val = 'n' then item.arg else none

def parseArgs (valid : List Item → Bool) (argv : List String) : Option Params :=
  let (items, s) := scan options .ready argv
  if s.complete && valid items then
    some { blockQuic := items.any isBlockQuic, fakeSniList := items.filterMap fakeSniOf }
  else none

variable {valid : List Item → Bool} {argv : List String} {params : Params}

lemma parseArgs_some (h : parseArgs valid argv = some params) :
    (scan options .ready argv).2.complete = true ∧
      params = {
        blockQuic := (scan options .ready argv).1.any isBlockQuic
        fakeSniList := (scan options .ready argv).1.filterMap fakeSniOf } := by
  simp only [parseArgs, Option.ite_none_right_eq_some, Option.some.injEq, Bool.and_eq_true] at h
  exact ⟨h.1.1, h.2.symm⟩

end Options
