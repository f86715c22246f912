import HttpServer.Protocol.Message
import Mathlib.Data.Finset.Card
import Mathlib.Data.Int.Order.Basic

/-!
# The system the request handler runs on

`Env` fixes what the handler cannot choose: the filesystem as `stat` and `open` see it, the
outcome of `pipe`, `fork` and `waitpid`, the bytes the CGI child sends back, and the
contents of the variables the source leaves uninitialised. `Os` is what the handler
changes: the unread bytes of the connection, the descriptor table, the trace of system
calls, and the results of `write` and `send` still to come. A script of results is finite;
after it every call transfers all it is asked to.
-/

namespace HttpServer.Protocol
open Lib Net

/-- The fields of `struct stat` the server reads. -/
structure Stat where
  mode : Nat
  size : Int
  deriving DecidableEq, Repr

/-- `S_ISDIR(st_mode)`. -/
def Stat.isDir (st : Stat) : Bool := st.mode &&& 0o170000 = 0o040000

/-- `(st_mode & S_IXUSR) || (st_mode & S_IXGRP) || (st_mode & S_IXOTH)`. -/
def Stat.isExec (st : Stat) : Bool :=
  st.mode &&& 0o100 ≠ 0 || st.mode &&& 0o010 ≠ 0 || st.mode &&& 0o001 ≠ 0

/-- What `waitpid` reports for the CGI child. -/
inductive WaitStatus where
  | failed
  | exited (code : Nat)
  | signaled
  deriving DecidableEq, Repr

/-- Everything outside the server that one request depends on. Paths are C strings. -/
structure Env where
  stat : Bytes → Option Stat
  openOk : Bytes → Bool
  pipeInput : Bool
  pipeOutput : Bool
  forkOk : Bool
  cgiOutput : Bytes
  wait : WaitStatus
  staleStat : Stat
  staleSize : Int

/-- A machine without files, on which every other call succeeds. -/
def Env.bare : Env where
  stat := fun _ => none
  openOk := fun _ => false
  pipeInput := true
  pipeOutput := true
  forkOk := true
  cgiOutput := []
  wait := .exited 0
  staleStat := ⟨0, 0⟩
  staleSize := 0

/-- One system call and its result. `execl` is the forked child's, with the environment
entries the child has put; `read` is the whole read loop, up to the end of file. -/
inductive Syscall where
  | stat (path : Bytes)
  | openRead (path : Bytes) (fd : Int)
  | pipe (ends : Option (Int × Int))
  | fork (ok : Bool)
  | execl (path : Bytes) (environ : List Bytes)
  | write (fd : Int) (data : Bytes)
  | read (fd : Int) (data : Bytes)
  | waitpid
  | send (fd : Int) (data : Bytes)
  | sendfile (fd : Int) (count : Nat)
  | close (fd : Int) (ok : Bool)
  deriving DecidableEq, Repr

structure Os where
  io : Sock
  fds : Finset Nat
  trace : List Syscall
  writes : List Int
  sends : List Int
  deriving DecidableEq

/-- The lowest-numbered descriptor not in use. -/
def lowestUnused (fds : Finset Nat) : Nat :=
  ((List.range (fds.card + 1)).find? fun fd => fd ∉ fds).getD 0

theorem lowestUnused_notMem (fds : Finset Nat) : lowestUnused fds ∉ fds := by
  unfold lowestUnused
  cases found : (List.range (fds.card + 1)).find? fun fd => fd ∉ fds with
  | some fd =>
    show fd ∉ fds
    simpa using List.find?_some found
  | none =>
    -- there are more candidates than descriptors in use
    have all := List.find?_eq_none.mp found
    have sub : Finset.range (fds.card + 1) ⊆ fds := by
      intro fd small
      simpa using all fd (by simpa using small)
    have many := Finset.card_le_card sub
    rw [Finset.card_range] at many
    omega

namespace Os

/-- Record a system call that changes no descriptor. -/
def emit (os : Os) (call : Syscall) : Os := { os with trace := os.trace ++ [call] }

/-- `open(path, O_RDONLY)`. -/
def openRead (env : Env) (path : Bytes) (os : Os) : Int × Os :=
  if env.openOk path then
    let fd := lowestUnused os.fds
    ((fd : Int), { os with fds := insert fd os.fds, trace := os.trace ++ [.openRead path fd] })
  else (-1, os.emit (.openRead path (-1)))

/-- `pipe(ends)`: the read end first. -/
def pipe (ok : Bool) (os : Os) : Option (Int × Int) × Os :=
  if ok then
    let rd := lowestUnused os.fds
    let wr := lowestUnused (insert rd os.fds)
    (some ((rd : Int), (wr : Int)),
      { os with fds := insert wr (insert rd os.fds), trace := os.trace ++ [.pipe (some (rd, wr))] })
  else (none, os.emit (.pipe none))

/-- `close(fd)`. -/
def close (fd : Int) (os : Os) : Os :=
  if 0 ≤ fd ∧ fd.toNat ∈ os.fds then
    { os with fds := os.fds.erase fd.toNat, trace := os.trace ++ [.close fd true] }
  else os.emit (.close fd false)

/-- `write(fd, data, size)`. -/
def write (fd : Int) (data : Bytes) (os : Os) : Int × Os :=
  let ret := min (os.writes.headD data.length) data.length
  (ret, { os.emit (.write fd (data.take ret.toNat)) with writes := os.writes.tail })

/-- `send(fd, data, size, 0)`. -/
def send (fd : Int) (data : Bytes) (os : Os) : Int × Os :=
  let ret := min (os.sends.headD data.length) data.length
  (ret, { os.emit (.send fd (data.take ret.toNat)) with sends := os.sends.tail })

end Os

end HttpServer.Protocol
