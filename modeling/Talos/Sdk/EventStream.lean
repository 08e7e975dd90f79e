import Talos.Encoding.TextDecoder
import Talos.Encoding.Text

/-!
# The reader of the event stream

`_readStream` of `packages/sdk/src/events.ts`: the chunks of a response are decoded, put
behind the line that the chunk before left open, and split into lines; the lines fill a
frame that a blank line dispatches. A carriage return at the end of the text is held back,
and what is left at the end of the stream is read by a path of its own, without the limits
on fields and data lines and without `retry`.

`Stream` is what outlives the reader. The heartbeat timer and the log are left out, and
the stream is not closed while it is read.
-/

namespace Talos.Sdk.EventStream

open Encoding

def lf : UInt16 := 0x0A

def cr : UInt16 := 0x0D

def space : UInt16 := 0x20

def colon : UInt16 := 0x3A

def bom : UInt16 := 0xFEFF

/-- `id`, `event`, `data`, `retry`, `message` and `heartbeat` in UTF-16 units. -/
def idField : Utf16 := [105, 100]

def eventField : Utf16 := [101, 118, 101, 110, 116]

def dataField : Utf16 := [100, 97, 116, 97]

def retryField : Utf16 := [114, 101, 116, 114, 121]

def messageType : Utf16 := [109, 101, 115, 115, 97, 103, 101]

def heartbeatType : Utf16 := [104, 101, 97, 114, 116, 98, 101, 97, 116]

structure Options where
  maxFieldBytes : Nat
  maxDataLines : Nat

structure TalosStreamEvent where
  id : Option Utf16
  type : Utf16
  data : Utf16
  deriving DecidableEq

structure Stream where
  lastEventId : Option Utf16
  baseReconnectDelayMs : Int
  dispatched : List TalosStreamEvent
  deriving DecidableEq

/-- The event being accumulated. -/
structure Frame where
  eventId : Option Utf16
  eventType : Utf16
  dataLines : List Utf16
  dataLineOverflow : Bool
  deriving DecidableEq

def Frame.empty : Frame := ⟨none, messageType, [], false⟩

/-! ### Lines -/

/-- `replace(/\r\n/g, "\n")`. -/
def replaceCrLf : Utf16 → Utf16
  | [] => []
  | [u] => [u]
  | u :: v :: rest =>
      if u = cr ∧ v = lf then lf :: replaceCrLf rest else u :: replaceCrLf (v :: rest)

/-- Without byte order marks, and with LF for every line end. -/
def normalize (text : Utf16) : Utf16 :=
  (replaceCrLf (text.filter (· ≠ bom))).map fun u => if u = cr then lf else u

/-! ### Fields -/

def fieldName (line : Utf16) : Utf16 := line.takeWhile (· ≠ colon)

/-- What follows the first colon, less one space. -/
def fieldValue (line : Utf16) : Utf16 :=
  let value := (line.dropWhile (· ≠ colon)).tail
  if value.head? = some space then value.tail else value

/-- `join("\n")`. -/
def joinLines : List Utf16 → Utf16
  | [] => []
  | [line] => line
  | line :: lines => line ++ lf :: joinLines lines

/-- A blank line: the frame is dispatched unless it has no data or too much of it. -/
def Stream.deliver (stream : Stream) (frame : Frame) : Stream :=
  if frame.dataLineOverflow = true ∨ frame.dataLines = [] then stream
  else
    let event : TalosStreamEvent := ⟨frame.eventId, frame.eventType, joinLines frame.dataLines⟩
    { stream with
      lastEventId := frame.eventId.orElse fun _ => stream.lastEventId
      dispatched :=
        if frame.eventType = heartbeatType then stream.dispatched
        else stream.dispatched ++ [event] }

def addData (options : Options) (frame : Frame) (value : Utf16) : Frame :=
  if frame.dataLineOverflow then frame
  else if options.maxDataLines ≤ frame.dataLines.length then { frame with dataLineOverflow := true }
  else { frame with dataLines := frame.dataLines ++ [value] }

def processLine (options : Options) (read : Frame × Stream) (line : Utf16) : Frame × Stream :=
  let (frame, stream) := read
  if line = [] then (.empty, stream.deliver frame)
  else if line.head? = some colon then (frame, stream)
  else
    let value := (fieldValue line).take options.maxFieldBytes
    let field := fieldName line
    if field = idField then ({ frame with eventId := some value }, stream)
    else if field = eventField then ({ frame with eventType := value }, stream)
    else if field = dataField then (addData options frame value, stream)
    else if field = retryField then
      match parseInt value with
      | some ms => (frame, { stream with baseReconnectDelayMs := ms })
      | none => (frame, stream)
    else (frame, stream)

/-- A line that is left at the end of the stream. -/
def processLastLine (read : Frame × Stream) (line : Utf16) : Frame × Stream :=
  let (frame, stream) := read
  if line = [] then (.empty, stream.deliver frame)
  else if line.head? = some colon then (frame, stream)
  else
    let value := fieldValue line
    let field := fieldName line
    if field = idField then ({ frame with eventId := some value }, stream)
    else if field = eventField then ({ frame with eventType := value }, stream)
    else if field = dataField then
      if frame.dataLineOverflow then (frame, stream)
      else ({ frame with dataLines := frame.dataLines ++ [value] }, stream)
    else (frame, stream)

/-! ### Chunks -/

structure Reader where
  decoder : TextDecoder
  buffer : Utf16
  firstChunk : Bool
  frame : Frame
  stream : Stream

def Reader.start (stream : Stream) : Reader := ⟨.fresh, [], true, .empty, stream⟩

/-- One decoded chunk. -/
def Reader.process (options : Options) (reader : Reader) (chunk : Utf16) : Reader :=
  let buffer := reader.buffer ++ chunk
  let (toProcess, held) :=
    if buffer.getLast? = some cr then (buffer.dropLast, [cr]) else (buffer, [])
  if toProcess = [] then { reader with buffer := held }
  else
    let (lines, last) := split lf (normalize toProcess)
    let (frame, stream) := lines.foldl (processLine options) (reader.frame, reader.stream)
    { reader with buffer := last ++ held, frame := frame, stream := stream }

/-- One `reader.read()` with a value. -/
def readChunk (options : Options) (reader : Reader) (value : List UInt8) : Reader :=
  let (chunk, decoder) := reader.decoder.decode value
  let chunk := if reader.firstChunk ∧ chunk.head? = some bom then chunk.tail else chunk
  { reader with decoder := decoder, firstChunk := false }.process options chunk

/-- The last `reader.read()`. -/
def Reader.finish (reader : Reader) : Stream :=
  if reader.buffer = [] then reader.stream
  else
    let (lines, last) := split lf (normalize reader.buffer)
    let lines := if last = [] then lines else lines ++ [last]
    (lines.foldl processLastLine (reader.frame, reader.stream)).2

def readStream (options : Options) (stream : Stream) (chunks : List (List UInt8)) : Stream :=
  (chunks.foldl (readChunk options) (.start stream)).finish

end Talos.Sdk.EventStream
