import Castaway.Hci.Flow
import Castaway.L2cap.Pdu

/-!
# The ACL writer

One task writes every outbound PDU, a fragment at a time, and takes a credit for
each.  It shares the books of the controller's buffers with whoever reports
completions and links that come and go.  A step of `pump` is one thing that the
task does between two points where another can come in: it receives a job, takes
the lock, waits, or writes.
-/

namespace Castaway.Bluetooth

open Castaway.Hci (AclCredits AclPacket ConnectionHandle PacketBoundary)
open Castaway.L2cap (L2capPdu)

/-! ## Fragments -/

/-- Cut bytes into chunks of `mtu`, among the first ones.  The last may be
shorter. -/
def chunksAmong (mtu : ℕ) : ℕ → Bytes → List Bytes
  | fuel + 1, byte :: bytes =>
    (byte :: bytes).take mtu :: chunksAmong mtu fuel ((byte :: bytes).drop mtu)
  | _, _ => []

/-- Cut bytes into chunks of `mtu`.  There are no more chunks than bytes. -/
def chunks (mtu : ℕ) (bytes : Bytes) : List Bytes := chunksAmong mtu bytes.length bytes

def fragment (handle : ConnectionHandle) (boundary : PacketBoundary) (data : Bytes) : AclPacket :=
  ⟨handle, boundary, .pointToPoint, data⟩

/-- The fragments of a PDU: one that starts it, and those that continue it. -/
def fragments (handle : ConnectionHandle) (mtu : ℕ) (bytes : Bytes) : List AclPacket :=
  match chunks mtu bytes with
  | [] => []
  | chunk :: rest =>
    fragment handle .firstFlushable chunk :: rest.map (fragment handle .continuing)

/-! ## The writer -/

structure Buffers where
  credits : AclCredits
  /-- The largest fragment that the controller accepts. -/
  mtu : ℕ
  /-- Links that the controller has said are gone. -/
  dead : Finset ConnectionHandle

structure Job where
  handle : ConnectionHandle
  pdu : L2capPdu
  deriving DecidableEq

/-- A PDU that is being written: the fragment that comes next, and those after
it. -/
structure Progress where
  job : Job
  boundary : PacketBoundary
  chunk : Bytes
  rest : List Bytes
  deriving DecidableEq

def Progress.remaining (progress : Progress) : List AclPacket :=
  fragment progress.job.handle progress.boundary progress.chunk ::
    progress.rest.map (fragment progress.job.handle .continuing)

/-- Where the writer is with a fragment. -/
inductive Stage where
  /-- About to take the lock for a credit. -/
  | claiming
  /-- There was no credit, and it is about to wait for one. -/
  | waiting
  | parked
  /-- It has a credit, and is about to write. -/
  | writing
  deriving DecidableEq, Repr

/-- Where the writer is in its loop. -/
inductive Pump where
  | receiving
  /-- It has a job, and is about to ask whether the link is dead. -/
  | checking (job : Job)
  /-- It has encoded the PDU, and is about to ask for the size of a fragment. -/
  | sizing (job : Job) (bytes : Bytes)
  | sending (stage : Stage) (progress : Progress)
  /-- The transport failed, and the task has returned. -/
  | stopped (job : Job)
  deriving DecidableEq

def Pump.job : Pump → Option Job
  | .receiving => none
  | .checking job | .sizing job _ | .stopped job => some job
  | .sending _ progress => some progress.job

structure AclWriter where
  /-- The queue, oldest first. -/
  jobs : List Job
  buffers : Buffers
  /-- Wakeups that are owed: the lock has been let go, and the call is yet to
  come. -/
  owed : ℕ
  /-- A wakeup that came while nobody was waiting. -/
  permit : Bool
  pump : Pump

inductive AclAction where
  | send (job : Job)
  | configure (capacity mtu : ℕ)
  | completed (handle : ConnectionHandle) (count : ℕ)
  | linkDown (handle : ConnectionHandle)
  | linkUp (handle : ConnectionHandle)
  | wake
  /-- The writer's next step; if that is a write, whether the transport takes
  it. -/
  | pump (taken : Bool)
  deriving DecidableEq

namespace AclWriter

def initialCredits : ℕ := 1
def initialMtu : ℕ := 255

def spawn : AclWriter where
  jobs := []
  buffers := ⟨.new initialCredits, initialMtu, ∅⟩
  owed := 0
  permit := false
  pump := .receiving

/-- Queue a PDU; it is dropped if the writer is gone. -/
def send (w : AclWriter) (job : Job) : AclWriter :=
  match w.pump with
  | .stopped _ => w
  | _ => { w with jobs := w.jobs ++ [job] }

def configure (w : AclWriter) (capacity mtu : ℕ) : AclWriter :=
  { w with
    buffers := { w.buffers with
      credits := w.buffers.credits.setCapacity capacity
      mtu := max mtu 1 }
    owed := w.owed + 1 }

def completed (w : AclWriter) (handle : ConnectionHandle) (count : ℕ) : AclWriter :=
  let (credits, released) := w.buffers.credits.complete handle count
  { w with
    buffers := { w.buffers with credits }
    owed := if released > 0 then w.owed + 1 else w.owed }

/-- Mark a link dead, and take back its credits. -/
def linkDown (w : AclWriter) (handle : ConnectionHandle) : AclWriter :=
  let (credits, reclaimed) := w.buffers.credits.linkDown handle
  { w with
    buffers := { w.buffers with credits, dead := insert handle w.buffers.dead }
    owed := if reclaimed > 0 then w.owed + 2 else w.owed + 1 }

def linkUp (w : AclWriter) (handle : ConnectionHandle) : AclWriter :=
  { w with buffers := { w.buffers with dead := w.buffers.dead.erase handle } }

def wake (w : AclWriter) : AclWriter :=
  match w.owed with
  | 0 => w
  | owed + 1 =>
    match w.pump with
    | .sending .parked progress => { w with owed, pump := .sending .claiming progress }
    | _ => { w with owed, permit := true }

/-- What the writer does with the PDU when it has seen to one fragment. -/
def following (progress : Progress) : Pump :=
  match progress.rest with
  | [] => .receiving
  | chunk :: rest => .sending .claiming ⟨progress.job, .continuing, chunk, rest⟩

def advance (w : AclWriter) (taken : Bool) : AclWriter × Option AclPacket :=
  match w.pump with
  | .receiving =>
    match w.jobs with
    | [] => (w, none)
    | job :: jobs => ({ w with jobs, pump := .checking job }, none)
  | .checking job =>
    if job.handle ∈ w.buffers.dead then ({ w with pump := .receiving }, none)
    else
      match job.pdu.encode with
      | .error _ => ({ w with pump := .receiving }, none)
      | .ok bytes => ({ w with pump := .sizing job bytes }, none)
  | .sizing job bytes =>
    -- once for the whole PDU
    match chunks (max w.buffers.mtu 1) bytes with
    | [] => ({ w with pump := .receiving }, none)
    | chunk :: rest =>
      ({ w with pump := .sending .claiming ⟨job, .firstFlushable, chunk, rest⟩ }, none)
  | .sending .claiming progress =>
    if progress.job.handle ∈ w.buffers.dead then ({ w with pump := .receiving }, none)
    else
      let (credits, claimed) := w.buffers.credits.claim progress.job.handle
      if claimed then
        ({ w with
            buffers := { w.buffers with credits }
            pump := .sending .writing progress }, none)
      else ({ w with pump := .sending .waiting progress }, none)
  | .sending .waiting progress =>
    if w.permit then ({ w with permit := false, pump := .sending .claiming progress }, none)
    else ({ w with pump := .sending .parked progress }, none)
  | .sending .parked _ => (w, none)
  | .sending .writing progress =>
    let packet := fragment progress.job.handle progress.boundary progress.chunk
    if taken then ({ w with pump := following progress }, some packet)
    else ({ w with pump := .stopped progress.job }, none)
  | .stopped _ => (w, none)

def step (w : AclWriter) : AclAction → AclWriter × Option AclPacket
  | .send job => (w.send job, none)
  | .configure capacity mtu => (w.configure capacity mtu, none)
  | .completed handle count => (w.completed handle count, none)
  | .linkDown handle => (w.linkDown handle, none)
  | .linkUp handle => (w.linkUp handle, none)
  | .wake => (w.wake, none)
  | .pump taken => w.advance taken

end AclWriter

/-! ## What the fragments are of -/

end Castaway.Bluetooth
