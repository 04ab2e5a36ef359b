import Autobahn.Foundation.Machine
import Autobahn.Session.Dispatch

/-!
# Runs of a session

One `Input` is what one thread does without being interrupted by another
thread of the `io_service`: an operation or a reply on a user thread, a queued
task, a handler, or code of the user on the `io_service` thread. A run is any
list of inputs, so a theorem about every run covers every interleaving, every
order of tasks and every message of an untrusted router.

An exception that leaves an input is gone with it; what it left behind stays.
-/

namespace Autobahn

open Foundation MsgPack

inductive Input : Type where
  /-- an operation on a user thread -/
  | operate (op : Operation)
  /-- the `n`-th queued task -/
  | task (n : Nat)
  /-- a reply through a kept handle; `io` says whether on the `io_service`
  thread -/
  | respond (io : Bool) (handle : Nat) (attempt : ReplyAttempt)
  /-- user code on the `io_service` thread, such as a continuation -/
  | userCode (script : Script)
  | message (obj : Object) (user : UserCode)
  | rxError (error : ReadError) (user : UserCode)
  | handshake (reply : Except ReadError HandshakeReply)
  /-- the last owner of the session goes away -/
  | destroy

/-- Does a queued task own this request? -/
def Task.owns (ref : Nat) : Task → Bool
  | .request response _ _ _ => response = ref
  | _ => false

/-- The members go away with the session: every promise that no queued task
owns breaks. -/
def Client.destroy (c : Client) : Client :=
  { c with
    alive := false
    requests := c.requests.mapIdx fun ref q =>
      if c.tasks.any (Task.owns ref) then q else q.abandon
    session := { c.session with
      handshake := c.session.handshake.abandon .brokenPromise
      sessionJoin := c.session.sessionJoin.abandon .brokenPromise
      sessionLeave := c.session.sessionLeave.abandon .brokenPromise
      sessionStop := c.session.sessionStop.abandon .brokenPromise } }

theorem Client.getElem?_destroy (c : Client) (ref : Nat) :
    c.destroy.requests[ref]? = (c.requests[ref]?).map fun q =>
      if c.tasks.any (Task.owns ref) then q else q.abandon := by
  rw [Client.destroy, List.getElem?_mapIdx]

def Input.program : Input → ClientM Unit
  | .operate op => Autobahn.operate false op
  | .task n => runTask n
  | .respond io handle attempt => reply io handle attempt
  | .userCode script => script.run
  | .message obj user => gotMessage user obj
  | .rxError error user => handleRxError user error
  | .handshake reply => gotHandshakeReply reply >>= fun _ => pure ()
  | .destroy => modify Client.destroy

/-- Queued tasks and kept invocation handles outlive the session; everything
else needs it. -/
def Input.needsSession : Input → Bool
  | .task _ | .respond .. => false
  | _ => true

def Client.step (c : Client) (i : Input) : Client :=
  if i.needsSession ∧ ¬ c.alive then c else (i.program.run c).2

/-- The states a session can reach, on a stream whose writes end as `plan`
says. -/
def Client.Reachable (c : Client) : Prop :=
  ∃ plan, Machine.Reachable Client.step (Client.new plan) c

abbrev Client.runs (c : Client) (is : List Input) : Client :=
  Machine.run Client.step c is

theorem Client.reachable_runs (plan : Nat → WriteResult) (is : List Input) :
    (((Client.new plan).runs is).Reachable) :=
  ⟨plan, is, rfl⟩

theorem Client.Reachable.step {c : Client} (h : c.Reachable) (i : Input) :
    (c.step i).Reachable := by
  obtain ⟨plan, hr⟩ := h
  exact ⟨plan, hr.step i⟩

end Autobahn
