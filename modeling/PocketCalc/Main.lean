import PocketCalc.CommandLine.Run

/-! The program. Standard input is read only by a request that is about its
lines. -/

namespace PocketCalc.CommandLine

def Request.readsInput : Request → Bool
  | .lines _ => true
  | _ => false

/-- All the bytes of a stream that are still to be read. -/
partial def readRest (stream : IO.FS.Stream) (sofar : ByteArray) : IO ByteArray := do
  let chunk ← stream.read 65536
  if chunk.isEmpty then return sofar else readRest stream (sofar ++ chunk)

def perform (words : List String) : IO UInt32 := do
  let request := Request.ofWords words
  let input ← if request.readsInput then readRest (← IO.getStdin) .empty else pure .empty
  let outcome := run request input
  IO.print outcome.output
  return outcome.status.toUInt32

end PocketCalc.CommandLine

def main (words : List String) : IO UInt32 := PocketCalc.CommandLine.perform words
