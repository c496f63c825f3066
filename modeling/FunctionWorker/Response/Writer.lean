import FunctionWorker.Response.Prelude

/-!
Writing a streamed answer while it is being sent. The writer and the reader share a channel of
bounded length. The prelude goes ahead of the channel: it is settled by the first call that needs
it, and later calls do not change it.
-/

namespace FunctionWorker

/-- What the reader does: it waits for the prelude, it takes pieces, or it is gone. -/
inductive ReaderStage where
  | prelude
  | body
  | gone
  deriving DecidableEq, Repr

/-- A writer, a reader and the channel between them. `sent` is the prelude once it
is settled, and `writing` holds until the writer ends the body. -/
structure Channel where
  head : Prelude
  sent : Option Bytes
  queue : List Item
  writing : Bool
  stage : ReaderStage

inductive WriteResult where
  | ok
  | blocked
  | closed
  deriving DecidableEq, Repr

/-- The wording for a reader that is gone. -/
def streamClosed : String := "response stream closed"

inductive ReadResult where
  | item (i : Item)
  | pending
  | ended
  | closed

namespace Channel

def capacity : Nat := 16

def start : Channel := ⟨.start, none, [], true, .prelude⟩

def headerWritten (c : Channel) : Bool := c.sent.isSome

/-- Adds a value to a header field, unless the prelude is settled. -/
def addHeader (name value : String) (c : Channel) : Channel :=
  if c.headerWritten then c else { c with head := c.head.addHeader name value }

/-- Gives a header field this value only, unless the prelude is settled. -/
def setHeader (name value : String) (c : Channel) : Channel :=
  if c.headerWritten then c else { c with head := c.head.setHeader name value }

/-- Settles the prelude, unless it is settled. -/
def writeHeader (status : Nat) (c : Channel) : Channel :=
  if c.headerWritten then c
  else
    let head := { c.head with status := status }
    { c with head := head, sent := some head.encode }

/-- Puts an item into the channel if it has room and somebody reads. -/
def send (i : Item) (c : Channel) : WriteResult × Channel :=
  if c.stage = .gone then (.closed, c)
  else if c.queue.length < capacity then (.ok, { c with queue := c.queue ++ [i] })
  else (.blocked, c)

def write (bytes : Bytes) (c : Channel) : WriteResult × Channel :=
  (c.writeHeader 200).send (.ok bytes)

def close (c : Channel) : Channel := { c.writeHeader 200 with writing := false }

def fail (e : Failure) (c : Channel) : WriteResult × Channel :=
  let (result, c) := (c.writeHeader 200).send (.error e)
  (result, c.close)

def dropReader (c : Channel) : Channel := { c with stage := .gone }

/-- Takes a piece of the body if there is one. -/
def readBody (c : Channel) : ReadResult × Channel :=
  match c.queue with
  | i :: rest => (.item i, { c with queue := rest })
  | [] => if c.writing then (.pending, c) else (.ended, c.dropReader)

/-- Looks for the next item: the prelude, then the pieces. -/
def read (c : Channel) : ReadResult × Channel :=
  match c.stage with
  | .gone => (.closed, c)
  | .body => c.readBody
  | .prelude =>
    match c.sent with
    | some bytes => (.item (.ok bytes), { c with stage := .body })
    | none => (.pending, c)

end Channel

inductive WriterCall where
  | addHeader (name value : String)
  | setHeader (name value : String)
  | writeHeader (status : Nat)
  | write (bytes : Bytes)
  deriving DecidableEq, Repr

inductive WriterEnd where
  | dropped
  | failed (e : Failure)
  deriving DecidableEq, Repr

namespace Channel

/-- One call; what is in the channel after it. -/
def call (c : Channel) : WriterCall → Channel
  | .addHeader name value => c.addHeader name value
  | .setHeader name value => c.setHeader name value
  | .writeHeader status => c.writeHeader status
  | .write bytes => (c.write bytes).2

def finish (c : Channel) : WriterEnd → Channel
  | .dropped => c.close
  | .failed e => (c.fail e).2

/-- Takes everything out of the channel: what the reader has taken, and the channel afterwards. -/
def take (c : Channel) : List Item × Channel :=
  match c.stage with
  | .gone => ([], c)
  | .body => (c.queue, { c with queue := [] })
  | .prelude =>
    match c.sent with
    | some bytes => (.ok bytes :: c.queue, { c with queue := [], stage := .body })
    | none => ([], c)

/-- The items that a reader gets who takes everything after each call. -/
def items (c : Channel) : List WriterCall → WriterEnd → List Item
  | [], finish => (c.finish finish).take.1
  | op :: rest, finish =>
    let (taken, c) := (c.call op).take
    taken ++ c.items rest finish

end Channel

end FunctionWorker
