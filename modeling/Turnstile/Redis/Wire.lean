import Turnstile.Redis.Reply
import Turnstile.Text.Split

/-!
# Commands and replies on the wire

A command is sent as an array of its parts, each with its length in front. A reply
begins with a character for its type; all but values end with the line, and a value has
its length in that line. Replies arrive in pieces, so reading one may have to wait.
-/

namespace Turnstile.Redis

/-- The end of a line. -/
def lineEnd : Bytes := [0x0D, 0x0A]

/-- A line. -/
def line (text : String) : Bytes := Bytes.ofText text ++ lineEnd

/-- A part of a command, with its length. -/
def encodePart (part : Bytes) : Bytes := line s!"${part.length}" ++ part ++ lineEnd

/-- A command as it is sent. -/
def Command.encode (command : Command) : Bytes :=
  line s!"*{command.length}" ++ command.flatMap encodePart

/-- What octets that have arrived amount to. -/
inductive Arrival
  | reply (reply : Reply) (rest : Bytes)
  /-- More has to come. -/
  | pending
  | garbled
  deriving DecidableEq

namespace Arrival

/-- The octets up to the end of the line, and those behind it. -/
def cutLine? : Bytes → Option (Bytes × Bytes)
  | 0x0D :: 0x0A :: rest => some ([], rest)
  | b :: rest => (cutLine? rest).map fun (text, rest) => (b :: text, rest)
  | [] => none

/-- A value of a given length; a negative one stands for nothing. -/
def ofValue (length : Int) (rest : Bytes) : Arrival :=
  if length < 0 then .reply .nil rest
  else
    let size := length.toNat
    if rest.length < size + 2 then .pending
    else if (rest.drop size).take 2 = lineEnd then
      .reply (.bulk (rest.take size)) (rest.drop (size + 2))
    else .garbled

/-- The reply that begins the octets that have arrived. -/
def ofBytes (arrived : Bytes) : Arrival :=
  match cutLine? arrived with
  | none => .pending
  | some (text, rest) =>
    match ((Bytes.toText? text).getD "").toList with
    | '+' :: status => .reply (.status (String.ofList status)) rest
    | '-' :: error => .reply (.error (String.ofList error)) rest
    | ':' :: number => (Text.integer? number).elim .garbled fun n => .reply (.integer n) rest
    | '$' :: number => (Text.integer? number).elim .garbled fun n => ofValue n rest
    | _ => .garbled

end Arrival
end Turnstile.Redis
