import WorkerLink.Address.Socket
import WorkerLink.OsError

/-!
# What the network of a machine allows

A machine that has a network reaches its own addresses, and only these can be listened on. One
without any network lets a program listen on every address of version 4, since no table says which
of them are its own, but no connection leads anywhere.
-/

namespace WorkerLink

/-- What the machine's network allows. -/
structure Machine where
  /-- Whether addresses of the machine itself can be connected to. -/
  reachable : Bool
  deriving DecidableEq, Repr

namespace Machine

/-- Why a machine without a network cannot listen on a version 6 address. One that holds a version 4
address counts as that one. -/
def isolatedListenFault? (ip : Ipv6) : Option Errno :=
  if ip.embedded?.isSome || ip.isUnspecified then none
  else if ip.isMulticast || ip.isLinkLocal then some Errno.invalidArgument
  else some Errno.addressNotAvailable

/-- Why an address cannot be listened on, if it cannot. -/
def listenFault? (m : Machine) (ip : IpAddress) : Option Errno :=
  if m.reachable then if ip.isLoopback then none else some Errno.addressNotAvailable
  else match ip with
    | .v4 _ => none
    | .v6 ip => isolatedListenFault? ip

/-- Why a machine without a network cannot connect to a version 6 address: to most of them it has
no address to connect from, and one that is valid on a single link needs a scope. -/
def isolatedConnectFault (ip : Ipv6) (scope : UInt32) : Errno :=
  if ip.embedded?.isSome || ip.isMulticast then Errno.networkUnreachable
  else if ip.isLinkLocal && scope = 0 then Errno.invalidArgument
  else Errno.addressNotAvailable

/-- Why no connection can be tried to an address, if it cannot. -/
def connectFault? (m : Machine) (addr : SocketAddress) : Option Errno :=
  if m.reachable then none
  else match addr with
    | .v4 .. => some Errno.networkUnreachable
    | .v6 ip scope _ => some (isolatedConnectFault ip scope)

end Machine

end WorkerLink
