import WorkoutBoard.Config.SocketAddress

/-!
# Hosts

What a program can do with the network of the host it runs on.
-/

namespace WorkoutBoard.Command

open Config (SocketAddress)

inductive NetworkFault where
  | permissionDenied
  | addressNotAvailable
  | unreachable
deriving DecidableEq, Repr

def NetworkFault.message : NetworkFault → String
  | .permissionDenied => "Permission denied (os error 13)"
  | .addressNotAvailable => "Cannot assign requested address (os error 99)"
  | .unreachable => "Network is unreachable (os error 101)"

/-- Why one cannot listen at an address, and why one cannot connect to anything. -/
structure Host where
  bindFault : SocketAddress → Option NetworkFault
  connectFault : Option NetworkFault

def isPrivileged (port : Nat) : Bool := 0 < port && port < 1024

def isOwn : SocketAddress → Bool
  | .version4 octets _ => octets.head? == some 127 || octets == [0, 0, 0, 0]
  | .version6 groups _ _ =>
      groups == [0, 0, 0, 0, 0, 0, 0, 0] || groups == [0, 0, 0, 0, 0, 0, 0, 1]

def portOf : SocketAddress → Nat
  | .version4 _ port => port
  | .version6 _ _ port => port

def Host.isolated : Host where
  bindFault := fun address =>
    if isPrivileged (portOf address) then some .permissionDenied
    else if isOwn address then none
    else some .addressNotAvailable
  connectFault := some .unreachable

def Host.connected : Host := ⟨fun _ => none, none⟩

structure Outcome where
  exitCode : Nat
  output : String
  errors : String
deriving DecidableEq, Repr

def Outcome.failed (message : String) : Outcome := ⟨1, "", message ++ "\n"⟩

end WorkoutBoard.Command
