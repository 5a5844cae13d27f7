/-
What a program sees of the network: the addresses of host names, and whether it can listen.

* `Network.isolated` is a host without a network: only its own addresses can be used;
* `Network.hurried` is a network that is asked when there is no time left to wait for an answer.
-/
import TapeMachine.Net.ListenAddress
import TapeMachine.Net.Port

namespace TapeMachine

/-- The surroundings of a program that listens. -/
structure Network where
  hosts : HostTable
  /-- Listens on an address: the address in use, or why it cannot be used. -/
  listen : Bytes → Except Bytes Bytes

namespace Network

/-- Whether a host can be listened on without a network: every address, or one of the host itself. -/
def isOwn (host : Bytes) : Bool :=
  host.isEmpty || match Ip.parse? host with
    | some ip => ip.value = 0 || ip.value = Ip.v4Block || ip.isLoopback
    | none => !(HostName.ownHosts host).isEmpty

/-- A host without a network. -/
def isolated : Network where
  hosts := HostName.resolver fun _ => []
  listen address :=
    match ListenAddress.split address with
    | .error e => .error (e.message address)
    | .ok (host, port) =>
      if (Port.parse? port).isNone then .error (utf8 "invalid port")
      else if isOwn host then .ok address
      else .error (utf8 "cannot assign requested address")

/-- A network in which no name has an address, because nobody waits for the answer. An address with a zone
needs no answer. -/
def hurried (n : Network) : Network :=
  { n with hosts := fun host => (Ip.parseZoned? host).toList }

end Network

end TapeMachine
