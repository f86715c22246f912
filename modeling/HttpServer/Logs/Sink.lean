import HttpServer.Lib.Machine
import HttpServer.Lib.Bytes
import Mathlib.Logic.Function.Basic

/-!
# Rolling log files

`RollBySizeSink`: it writes to one file until that has reached its size, and then opens
another, whose name is made of the time and a counter. A file is opened by the C string of
its name and always in append mode. `Disk` is what the sink sees of the files, with the names
it has opened; a write goes through while the file keeps to the largest offset there is. What
`log` writes goes to the stream, which keeps up to a buffer of it back; when it passes how
much on to the file is up to the stream, and `close` passes on the rest. The clock is read
when a name is made, and may show any time.
-/

namespace HttpServer.Logs
open Lib

/-! ## Names -/

/-- What `localtime_r` leaves in a `struct tm` for a time that `time` returns: the fields
`tm_year` (the years since 1900; the clock counts from 1970 on), `tm_mon`, `tm_mday`,
`tm_hour`, `tm_min` and `tm_sec`. -/
structure LocalTime where
  year : Nat
  mon : Nat
  mday : Nat
  hour : Nat
  min : Nat
  sec : Nat
  since : 69 ≤ year
  yearFits : year + 1900 < 2 ^ 31
  monLt : mon < 12
  mdayPos : 0 < mday
  mdayLe : mday ≤ 31
  hourLt : hour < 24
  minLt : min < 60
  secLe : sec ≤ 60
  deriving DecidableEq

/-- The six fields as `creatNewFile` writes them. -/
def LocalTime.stamp (lt : LocalTime) : Bytes :=
  decimal (lt.year + 1900) ++ decimal (lt.mon + 1) ++ decimal lt.mday ++ decimal lt.hour ++ decimal lt.min ++
    decimal lt.sec

/-- The name made at a time, with the value of `_name_count`. -/
def fileName (basename : Bytes) (lt : LocalTime) (nameCount : Int) : Bytes :=
  basename ++ lt.stamp ++ ascii "-" ++ decimalInt nameCount ++ ascii ".log"

/-! ## Files -/

/-- The contents of the files, and the names opened, in order. -/
structure Disk where
  files : Bytes → Option Bytes
  opened : List Bytes

namespace Disk

/-- `ofstream::open(name, ios::binary | ios::app)`. -/
def openAppend (d : Disk) (name : Bytes) : Disk where
  files := if d.files name = none then Function.update d.files name (some []) else d.files
  opened := d.opened ++ [name]

/-- `write` to the end of a file, whose size is an `off_t`. -/
def write (d : Disk) (name data : Bytes) : Option Disk :=
  match d.files name with
  | some content =>
    if content.length + data.length < 2 ^ 63 then
      some { d with files := Function.update d.files name (some (content ++ data)) }
    else none
  | none => none

end Disk

/-! ## The sink -/

/-- `BUFSIZ`, the bytes an `ofstream` has room for. -/
def BUFSIZ : Nat := 8192

/-- An `ofstream`: the file it has open, and the bytes given to it that are not in the file yet. -/
structure OfStream where
  name : Bytes
  buffer : Bytes
  deriving DecidableEq

/-- `RollBySizeSink`. -/
structure RollBySizeSink where
  basename : Bytes
  ofs : OfStream
  maxFsize : Nat
  curFsize : Nat
  nameCount : Int
  deriving DecidableEq

/-- `creatNewFile`. -/
def RollBySizeSink.creatNewFile (sink : RollBySizeSink) (lt : LocalTime) : Bytes × RollBySizeSink :=
  (fileName sink.basename lt sink.nameCount, { sink with nameCount := int32 (sink.nameCount + 1) })

/-- A sink and its files. -/
structure Rolling where
  sink : RollBySizeSink
  disk : Disk

/-- A call of `log`, with the local time at which it rolls if it does, and how many of the bytes
the stream has by then it passes on to the file, if no more are beyond its buffer. -/
structure LogCall where
  data : Bytes
  clock : LocalTime
  passed : Nat

namespace Rolling

/-- A new file is made and opened. -/
def openNew (s : Rolling) (lt : LocalTime) : Rolling :=
  let made := s.sink.creatNewFile lt
  ⟨{ made.2 with ofs := ⟨cStr made.1, []⟩ }, s.disk.openAppend (cStr made.1)⟩

/-- The constructor of `RollBySizeSink`, once the directories are there. -/
def new (basename : Bytes) (maxFsize : Nat) (lt : LocalTime) (files : Bytes → Option Bytes) : Rolling :=
  openNew ⟨⟨basename, ⟨[], []⟩, maxFsize, 0, 0⟩, ⟨files, []⟩⟩ lt

/-- `ofstream::write`; `none` if the file cannot take what is passed on. -/
def write (s : Rolling) (data : Bytes) (passed : Nat) : Option Rolling :=
  let pending := s.sink.ofs.buffer ++ data
  let count := max passed (pending.length - BUFSIZ)
  (s.disk.write s.sink.ofs.name (pending.take count)).map fun disk =>
    ⟨{ s.sink with ofs := ⟨s.sink.ofs.name, pending.drop count⟩ }, disk⟩

/-- `ofstream::close`, where the file takes the rest. -/
def close (s : Rolling) : Option Rolling := s.write [] s.sink.ofs.buffer.length

/-- The part of `log` before the write. -/
def roll (s : Rolling) (lt : LocalTime) : Option Rolling :=
  if s.sink.maxFsize ≤ s.sink.curFsize then
    s.close.map fun closed =>
      let opened := closed.openNew lt
      { opened with sink := { opened.sink with curFsize := 0 } }
  else some s

/-- `log`; a write that fails ends the process. -/
def log (s : Rolling) (call : LogCall) : Option Rolling :=
  (s.roll call.clock).bind fun s =>
    (s.write call.data call.passed).map fun s =>
      { s with sink := { s.sink with curFsize := (s.sink.curFsize + call.data.length) % 2 ^ 64 } }

/-- The sink as a machine, on a disk with these files. -/
def machine (basename : Bytes) (maxFsize : Nat) (lt : LocalTime) (files : Bytes → Option Bytes) :
    Machine Rolling LogCall := ⟨new basename maxFsize lt files, log⟩

/-- What a file holds, and for the open one what the stream has for it. -/
def written (s : Rolling) (name : Bytes) : Option Bytes :=
  if name = s.sink.ofs.name then (s.disk.files name).map (· ++ s.sink.ofs.buffer) else s.disk.files name

end Rolling

end HttpServer.Logs
