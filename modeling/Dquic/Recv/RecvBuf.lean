import Dquic.Basic
import Dquic.Lib.Deque
import Dquic.Lib.Sparse

/-!
# The receive buffer

`RecvBuf` of `qrecovery/src/recv/rcvbuf.rs`: received fragments in order of their offsets, from
the first byte that the application has not read.
-/

namespace Dquic

open Lib

abbrev Segment := Chunk UInt8

structure RecvBuf where
  nread : Nat
  largestOffset : Nat
  segments : List Segment
  deriving DecidableEq, Repr

namespace RecvBuf

def empty : RecvBuf := ⟨0, 0, []⟩

/-- Cut off what the previous fragment covers. `none` inside stands for a break of the loop: the
previous fragment covers everything. -/
def trimPrev (prev : Option Segment) (start : Nat) (data : Bytes) : Option (Option (Nat × Bytes)) :=
  match prev with
  | some seg => do
    let stop ← checkedAdd start data.length
    if stop ≤ seg.stop then some none
    else if start < seg.stop then some (some (seg.stop, data.drop (seg.stop - start)))
    else some (some (start, data))
  | none => some (some (start, data))

/-- Split off what lies before the next fragment. -/
def splitNext (next : Option Segment) (start : Nat) (data : Bytes) : Option (Bytes × Bytes) :=
  match next with
  | some seg => do
    let stop ← checkedAdd start data.length
    if seg.offset < stop then some (data.take (seg.offset - start), data.drop (seg.offset - start))
    else some (data, [])
  | none => some (data, [])

def store (buf : RecvBuf) (index start : Nat) (uncovered : Bytes) : Option RecvBuf := do
  let stop ← checkedAdd start uncovered.length
  let segments ← insertAt buf.segments index ⟨start, uncovered⟩
  some { buf with largestOffset := max buf.largestOffset stop, segments := segments }

/-- The loop of `recv`. -/
def recvLoop : Nat → RecvBuf → Nat → Bytes → Option RecvBuf
  | 0, _, _, _ => none
  | fuel + 1, buf, start, data =>
    if data.isEmpty then some buf
    else
      match binarySearchBy Chunk.offset buf.segments start with
      | .ok index => do
        let seg ← buf.segments[index]?
        let covered := min data.length seg.data.length
        recvLoop fuel buf (start + covered) (data.drop covered)
      | .error 0 => do
        let (uncovered, rest) ← splitNext buf.segments.head? start data
        let buf ← store buf 0 start uncovered
        recvLoop fuel buf (start + uncovered.length) rest
      | .error (index + 1) => do
        match ← trimPrev buf.segments[index]? start data with
        | none => some buf
        | some (start, data) =>
          let next := buf.segments[index + 1]?
          if next.map Chunk.offset = some start then recvLoop fuel buf start data
          else
            let (uncovered, rest) ← splitNext next start data
            let buf ← store buf (index + 1) start uncovered
            recvLoop fuel buf (start + uncovered.length) rest

/-- Receive a fragment. Returns the consumption of the flow limit. -/
def recv (buf : RecvBuf) (offset : Nat) (data : Bytes) : Option (Nat × RecvBuf) := do
  let start := max offset buf.nread
  let data := data.drop (min data.length (start - offset))
  let buf' ← recvLoop (data.length + 1) buf start data
  some (buf'.largestOffset - buf.largestOffset, buf')

/-- End of the data that continues at `offset`. -/
def continuousEnd : Nat → List Segment → Nat
  | offset, [] => offset
  | offset, seg :: rest => if seg.offset = offset then continuousEnd (offset + seg.data.length) rest else offset

def available (buf : RecvBuf) : Nat := continuousEnd buf.nread buf.segments - buf.nread

def isReadable (buf : RecvBuf) : Bool := (buf.segments.head?.map Chunk.offset) = some buf.nread

/-- The loop of `try_read`, with the room left in the destination. -/
def readLoop : Nat → Nat → List Segment → Bytes × Nat × List Segment
  | nread, _, [] => ([], nread, [])
  | nread, room, seg :: rest =>
    if seg.offset ≠ nread ∨ room = 0 then ([], nread, seg :: rest)
    else if room < seg.data.length then
      -- the destination is full
      (seg.data.take room, nread + room, ⟨seg.offset + room, seg.data.drop room⟩ :: rest)
    else
      let (out, nread, rest) := readLoop (nread + seg.data.length) (room - seg.data.length) rest
      (seg.data ++ out, nread, rest)

/-- Read continuous data into a destination that has room for `room` bytes. -/
def tryRead (buf : RecvBuf) (room : Nat) : Bytes × RecvBuf :=
  let (out, nread, segments) := readLoop buf.nread room buf.segments
  (out, { buf with nread := nread, segments := segments })

def tryNext (buf : RecvBuf) : Option Bytes × RecvBuf :=
  match buf.segments with
  | [] => (none, buf)
  | seg :: rest =>
    if seg.offset = buf.nread then
      (some seg.data, { buf with nread := buf.nread + seg.data.length, segments := rest })
    else (none, buf)

end RecvBuf

end Dquic
