import Pazuzu.State

/-! The statements that wait or that the operating system can make fail. A
failed file operation leaves a mark in the history. -/
namespace Pazuzu

open Asyncio

def wait (wait : Wait) : Py wait.Reply := @Coro.suspend gatewaySignature wait

/-- A call that may raise the `OSError` the environment has in store for it. -/
def fileOp (operation : FileOp) : Py Unit :=
  Coro.get.bind fun state =>
    match state.os.faults operation with
    | none => .pure ()
    | some message => .act (some (.fault operation)) id (.throw (.osError message))

/-- A polling loop that has used up the rounds of this run. -/
def never {α : Type} : Py α := (wait .never).bind fun (impossible : Empty) => nomatch impossible

/-- `asyncio.sleep`, inside a scope with the given deadline. -/
def sleep (seconds : ℚ) (deadline : Option ℚ := none) : Py Unit := do
  let state ← Coro.get
  wait (.sleep (state.os.clock + seconds) deadline)

def enqueue (name : LockName) (task : Nat) : Py Unit :=
  Coro.update fun state =>
    state.setLock name { state.lock name with waiters := (state.lock name).waiters ++ [task] }

def dequeue (name : LockName) (task : Nat) : Py Unit :=
  Coro.update fun state =>
    state.setLock name { state.lock name with waiters := (state.lock name).waiters.erase task }

def setHolder (name : LockName) (holder : Option Nat) : Py Unit :=
  Coro.update fun state => state.setLock name { state.lock name with holder }

/-- `asyncio.Lock.acquire`: at once if the lock is free and nobody waits for
it, else at the head of the queue when the holder has left. -/
def acquire (name : LockName) (deadline : Option ℚ := none) : Py Unit := do
  let me ← Coro.current
  let state ← Coro.get
  if (state.lock name).holder = none ∧ (state.lock name).waiters = [] then
    setHolder name (some me)
  else
    enqueue name me
    (wait (.lock name deadline)).tryFinally (dequeue name me)
    setHolder name (some me)

def release (name : LockName) : Py Unit := setHolder name none

/-- `async with lock`. -/
def withLock {α : Type} (name : LockName) (body : Py α) (deadline : Option ℚ := none) : Py α := do
  acquire name deadline
  body.tryFinally (release name)

/-- `run_process`: one child with bounded output and a deadline. `started` runs
once the child exists. A deadline or a cancellation reaches the caller after
the child is gone. -/
def runProcess (argv : List String) (stdin : Python.Bytes) (timeout : ℚ) (outputLimit : Nat)
    (started : Py Unit := pure ()) : Py ProcessResult := do
  wait (.launch argv)
  started
  let state ← Coro.get
  wait (.process argv stdin (state.os.clock + timeout) outputLimit)

end Pazuzu
