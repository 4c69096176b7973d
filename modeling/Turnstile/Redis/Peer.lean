import Turnstile.Redis.Acquire
import Turnstile.Redis.Address
import Turnstile.Table

/-!
# A server that answers from a list

For each command name a list of replies is laid down, which are given in turn; when a
list has run out, a fitting reply is given that changes nothing. The server keeps what it
has seen. It may also be out of reach: then every attempt to connect fails.
-/

namespace Turnstile.Redis

/-- Why an address is not reached where nothing leads out. -/
def noRoute : RedisError := .network "Network is unreachable (os error 101)"

/-- Why a server is not reached from where there is no network: no socket lies at its path, its
name is not resolved, or nothing leads to its address. -/
def Address.isolation (address : Address) : RedisError :=
  if Address.socketSchemes.contains address.scheme then
    .network "No such file or directory (os error 2)"
  else if address.host.head? = some '[' ∨ Address.isIpv4 address.host
      ∨ address.host = "localhost".toList then noRoute
  else .network "failed to lookup address information: Temporary failure in name resolution"

/-- A server with prepared replies. -/
structure Peer where
  /-- Why no connection comes about, if none does. -/
  outOfReach : Option RedisError
  /-- Whether its clients carry out tasks in the background. -/
  hasBackground : Bool
  replies : Table (List Reply)
  /-- The commands it has seen, the latest first. -/
  seen : List Command

namespace Peer

/-- The reply to a command for which nothing is laid down. -/
def standardReply (name : String) : Reply :=
  if name = "SET" ∨ name = "PSETEX" then .status "OK"
  else if name = "GET" then .nil
  else if name = "SCRIPT" then .bulk []
  else .integer 0

variable (peer : Peer)

/-- Answers a command. -/
def answer (command : Command) : Reply × Peer :=
  let name := (Bytes.toText? (command.headD [])).getD ""
  let peer := { peer with seen := command :: peer.seen }
  match peer.replies.get? name with
  | some (reply :: rest) => (reply, { peer with replies := peer.replies.insert name rest })
  | _ => (standardReply name, peer)

/-- Holds a conversation over an open connection. -/
def converse {α : Type} : Peer → Conversation α → Except RedisError α × Peer
  | peer, .done result => (result, peer)
  | peer, .send command next =>
    let (reply, peer) := peer.answer command
    peer.converse (next (.ok reply))

/-- Opens a connection and holds a conversation. -/
def hold {α : Type} (conversation : Conversation α) : Except RedisError α × Peer :=
  match peer.outOfReach with
  | some e => (.error e, peer)
  | none => peer.converse conversation

/-- What comes of an effect of a wait: what happens to the wait, and when. -/
def carryOut (acquire : Acquire) (now : Instant) :
    AcquireEffect → Option (AcquireEvent × Instant) × Peer
  | .connect =>
    (some (peer.outOfReach.elim AcquireEvent.connected .refused, now), peer)
  | .send command =>
    let (reply, peer) := peer.answer command
    (some (.replied (.ok reply), now), peer)
  | .pauseUntil instant => (some (.resumed, instant), peer)
  | .cancelInBackground token =>
    (none, if peer.hasBackground then (peer.hold (acquire.client.cancel token)).2 else peer)
  | .log _ => (none, peer)

/-- Carries out effects in order; at most one of them makes something happen. -/
def carryOutAll (acquire : Acquire) (now : Instant) :
    List AcquireEffect → Peer → Option (AcquireEvent × Instant) × Peer
  | [], peer => (none, peer)
  | effect :: more, peer =>
    let (event, peer) := peer.carryOut acquire now effect
    let (later, peer) := carryOutAll acquire now more peer
    (event <|> later, peer)

/-- Goes on with a wait through no more than so many events: replies come at once, pauses last
exactly as long as they should, and the wait is dropped in the first pause after so many
commands. -/
def pursue (acquire : Acquire) (dropAfter : Option Nat) :
    Nat → Instant → AcquirePhase → List AcquireEffect → Peer → AcquirePhase × Peer
  | 0, _, phase, _, peer => (phase, peer)
  | events + 1, now, phase, effects, peer =>
    match phase, carryOutAll acquire now effects peer with
    | .over ending, (_, peer) => (.over ending, peer)
    | phase, (none, peer) => (phase, peer)
    | phase, (some (event, instant), peer) =>
      let isDropped := match phase with
        | .pausing => dropAfter.any (· ≤ peer.seen.length)
        | _ => false
      let (phase, effects) :=
        acquire.react instant phase (if isDropped then .dropped else event)
      pursue acquire dropAfter events instant phase effects peer

/-- More events than a wait goes through: each attempt takes at most three commands and a pause. -/
def patience (acquire : Acquire) : Nat := 4 * (acquire.deadline / acquire.client.pollInterval + 4)

/-- A wait that begins now, at the beginning of time. -/
def await (acquire : Acquire) (dropAfter : Option Nat) : AcquirePhase × Peer :=
  let (phase, effects) := Acquire.start
  pursue acquire (dropAfter.map (peer.seen.length + ·)) (patience acquire) 0 phase effects peer

end Peer
end Turnstile.Redis
