import MesosPoc.Python
import MesosPoc.Loop
import MesosPoc.LoadBalancer.Timers

namespace MesosPoc.Watch

open Python

-- The state of a watch loop at the top of its body. The buffer is the variable
-- event of watchEvents and message of main, the stream what is left to read,
-- and the sink what the loop delivers payloads to.
structure State (σ : Type) where
  buffer : Str
  length : Int
  stream : Str
  sink : σ

-- stream.read(n): all that is left for a negative n, else at most n bytes.
def read (stream : Str) (n : Int) : Str × Str :=
  if n < 0 then (stream, []) else (stream.take n.toNat, stream.drop n.toNat)

-- The first half of the body: a line that ends in CRLF gives the chunk size.
def parseSize {σ : Type} (s : State σ) : Except PyError (State σ) :=
  if endsWith s.buffer crlf then
    let line := rstrip s.buffer
    if 0 < line.length then
      (int16 line).map fun length => { s with buffer := [], length := length }
    else .ok { s with buffer := line }
  else .ok s

-- The second half: one more byte of the line, or the whole payload.
def readNext {σ : Type} (deliver : σ → Str → σ) (s : State σ) : State σ :=
  if s.length = -1 then
    { s with
      buffer := s.buffer ++ (read s.stream 1).1
      stream := (read s.stream 1).2 }
  else
    { buffer := []
      length := -1
      stream := (read s.stream s.length).2
      sink := deliver s.sink (read s.stream s.length).1 }

def body {σ : Type} (deliver : σ → Str → σ) (s : State σ) : Except PyError (State σ) :=
  (parseSize s).map (readNext deliver)

-- case.py, watchEvents: the payload is put on the queue.
def watchEvents : State (List Str) → Except PyError (State (List Str)) :=
  body fun queue event => queue ++ [event]

-- loadbalancer.py, main: the payload is dropped and the reload timer restarted.
def main : State (List LoadBalancer.Timer) → Except PyError (State (List LoadBalancer.Timer)) :=
  body fun timers _ => LoadBalancer.restartTimer timers

-- A loop that has just opened its stream.
def connect {σ : Type} (stream : Str) (sink : σ) : State σ where
  buffer := []
  length := -1
  stream := stream
  sink := sink

-- One chunk as it is framed: the size in hex digits of either case, with or
-- without leading zeros, denotes the length of the payload.
structure Chunk where
  size : Str
  payload : Str
  hex : IsHex size
  denotes : hexValue size = payload.length

def Chunk.frame (chunk : Chunk) : Str :=
  chunk.size ++ crlf ++ chunk.payload ++ crlf

def frames (chunks : List Chunk) : Str :=
  (chunks.map Chunk.frame).flatten

def payloads (chunks : List Chunk) : List Str :=
  chunks.map Chunk.payload

end MesosPoc.Watch
