/-
Listen addresses: a host and a port.

* `ListenAddress.split` cuts an address at its last colon and says what is wrong if it cannot;
* `ListenAddress.isLocal` tells whether a server at an address can be reached only from this host or a
  private network. An empty host is every interface, and not local.

Names are looked up in a host table.
-/
import TapeMachine.Net.HostName
import TapeMachine.Text.Quoted

namespace TapeMachine.ListenAddress

/-- What is wrong with an address. -/
inductive Error where
  | missingPort
  | tooManyColons
  | missingBracket
  | unexpectedOpen
  | unexpectedClose
deriving DecidableEq, Repr

/-- The wording of an address error. -/
def Error.wording : Error → String
  | missingPort => "missing port in address"
  | tooManyColons => "too many colons in address"
  | missingBracket => "missing ']' in address"
  | unexpectedOpen => "unexpected '[' in address"
  | unexpectedClose => "unexpected ']' in address"

/-- The message for an address that does not split. -/
def Error.message (address : Bytes) (e : Error) : Bytes :=
  utf8 "listen address " ++ Quoted.quote address ++ utf8 ": " ++
    (if address.isEmpty then [] else utf8 "address " ++ address ++ utf8 ": ") ++ utf8 e.wording

/-- The part before the last colon and the part behind it. -/
def splitLastColon (s : Bytes) : Option (Bytes × Bytes) :=
  match s.reverse.span (· ≠ 58) with
  | (port, _ :: host) => some (host.reverse, port.reverse)
  | (_, []) => none

/-- The host and the port of an address; a host with colons stands in brackets. -/
def split (address : Bytes) : Except Error (Bytes × Bytes) :=
  match splitLastColon address with
  | none => .error .missingPort
  | some (host, port) =>
    match address with
    | 91 :: inner =>
      match inner.span (· ≠ 93) with
      | (_, []) => .error .missingBracket
      | (name, _ :: behind) =>
        match behind with
        | [] => .error .missingPort
        | c :: _ =>
          if behind.length ≠ port.length + 1 then
            .error (if c = 58 then .tooManyColons else .missingPort)
          else if c ≠ 58 then .error .missingPort
          else if inner.contains 91 then .error .unexpectedOpen
          else if port.contains 93 then .error .unexpectedClose
          else .ok (name, port)
    | _ =>
      if host.contains 58 then .error .tooManyColons
      else if address.contains 91 then .error .unexpectedOpen
      else if address.contains 93 then .error .unexpectedClose
      else .ok (host, port)

/-- Whether an address can be reached only from this host or a private network. -/
def isLocal (hosts : HostTable) (address : Bytes) : Except Error Bool :=
  match split address with
  | .error e => .error e
  | .ok (host, _) =>
    if host.isEmpty then .ok false
    else match Ip.parse? host with
      | some ip => .ok ip.isLocal
      | none =>
        let ips := hosts host
        .ok (!ips.isEmpty && ips.all Ip.isLocal)

end TapeMachine.ListenAddress
