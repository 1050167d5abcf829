import NoZapret.Strategies

/-!
# The check of a strategy's arguments

`Config.validateStrategyArgs`: an option that is spelled in one of sixteen ways takes the
next argument, unless that begins with a dash.
-/

namespace Validator

open Strategies

def needsValue (arg : String) : Bool :=
  ["--split", "--disorder", "--oob", "--tlsrec", "--fake-sni", "--fake-tls-mod", "--udp-fake",
    "--await-int", "--auto", "--mod-http", "--hosts", "-p", "-i", "-x", "-A", "-P"].contains arg

def validateStrategyArgs : List String → Except String Unit
  | [] => .ok ()
  | [arg] =>
    if startsWith arg "-" && needsValue arg then .error ("Argument " ++ arg ++ " requires a value")
    else .ok ()
  | arg :: next :: rest =>
    if startsWith arg "-" && needsValue arg then
      if startsWith next "-" then .error ("Argument " ++ arg ++ " requires a value")
      else validateStrategyArgs rest
    else validateStrategyArgs (next :: rest)

end Validator
