import Std.Async.DNS
import Std.Async.System
import Std.Async.TCP
import Turnstile.Cli
import Turnstile.Redis.Greeting
import Turnstile.Redis.Wire

/-!
# The program

The operator's tool over the network: it takes its arguments and the environment, and
opens one connection for each conversation.
-/

namespace Turnstile.Main

open Redis (Address Arrival Command Conversation RedisError Reply)
open Std.Async (TCP.Socket.Client DNS.getAddrInfo)
open Std.Net (SocketAddress)

/-- The port of a server that its address does not give. -/
def standardPort : Nat := 6379

/-- Waits for the next reply, given what has arrived. -/
partial def receive (socket : TCP.Socket.Client) (arrived : Bytes) : IO (Reply × Bytes) := do
  match Arrival.ofBytes arrived with
  | .reply reply rest => return (reply, rest)
  | .garbled => throw (IO.userError "Unexpected reply")
  | .pending =>
    match ← (socket.recv? 65536).block with
    | some more => receive socket (arrived ++ more.data.toList)
    | none => throw (IO.userError "broken pipe")

/-- Sends a command and waits for its reply. What is left of earlier arrivals is kept. -/
def exchange (socket : TCP.Socket.Client) (left : IO.Ref Bytes) (command : Command) :
    IO (Except RedisError Reply) := do
  try
    (socket.send ⟨command.encode.toArray⟩).block
    let (reply, rest) ← receive socket (← left.get)
    left.set rest
    return .ok reply
  catch e => return .error (.network (toString e))

/-- Opens a connection to the server of an address on the network. -/
def connect (address : Address) : IO TCP.Socket.Client := do
  if Address.socketSchemes.contains address.scheme then
    throw (IO.userError "Local sockets are not supported")
  let port := address.port.getD standardPort
  let name := String.ofList (address.host.filter fun c => c != '[' && c != ']')
  let found ← (DNS.getAddrInfo name (toString port)).block
  let some host := found[0]? | throw (IO.userError "No such host")
  let target : SocketAddress := match host with
    | .v4 addr => .v4 { addr, port := UInt16.ofNat port }
    | .v6 addr => .v6 { addr, port := UInt16.ofNat port }
  let socket ← TCP.Socket.Client.mk
  (socket.connect target).block
  return socket

/-- Holds a conversation over a connection of its own, after a greeting. -/
def hold {α : Type} (address : Address) (conversation : Conversation α) :
    IO (Except RedisError α) := do
  try
    let socket ← connect address
    let left ← IO.mkRef []
    let talk : Conversation α := do
      address.greet
      conversation
    let result ← talk.run (exchange socket left)
    socket.shutdown.block
    return result
  catch e => return .error (.network (toString e))

end Turnstile.Main

def main (arguments : List String) : IO UInt32 := do
  let environment ← Std.Async.System.getEnv
  let outcome ← Turnstile.Cli.run Turnstile.Main.hold environment.get? arguments
  IO.print outcome.output
  IO.eprint outcome.errors
  return UInt32.ofNat outcome.code
