/-
Serving: the address is checked, a public one is warned about, and the log tells where the server
listens.

* `Web.serve` is the part of a server's life before its first visitor.
-/
import TapeMachine.Log.Logger
import TapeMachine.Net.Network

namespace TapeMachine.Web

open Log

/-- Why a server does not start. -/
inductive ServeError where
  | address (address : Bytes) (error : ListenAddress.Error) (span : Span)
  | listen (address : Bytes) (cause : Bytes) (span : Span)
deriving DecidableEq

/-- The message of a server that does not start. -/
def ServeError.message : ServeError → Bytes
  | address text e span => wrapSpan span (e.message text)
  | listen text cause span => wrapSpan span (utf8 "listen " ++ text ++ utf8 ": " ++ cause)

/-- Starts to serve on an address under a new span. -/
def serve (l : Logger) (network : Network) (address : Bytes) : Option ServeError × Logger :=
  let (span, l) := l.newSpan [] (utf8 "serve")
  match ListenAddress.isLocal network.hosts address with
  | .error e => (some (.address address e span), l)
  | .ok isLocal =>
    let l := if isLocal then l
      else l.write span .warn "serving on a public address" [("addr", .text address)]
    match network.listen address with
    | .error cause => (some (.listen address cause span), l)
    | .ok bound => (none, l.write span .info "serving" [("addr", .text bound)])

end TapeMachine.Web
