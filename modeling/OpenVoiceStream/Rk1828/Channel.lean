import Mathlib.Logic.Function.Basic
import OpenVoiceStream.Base.Machine
import OpenVoiceStream.Rk1828.Frames
import OpenVoiceStream.Rk1828.Line

/-!
# The frame channel of the RK1828 worker

Every request has a thread that writes its line to the worker and reads the frames of the reply
up to their end. A lock is held meanwhile, so that the threads take turns. What a thread reads it
puts into the queue of its request, and the iterator of the request takes it from there; the
iterator may stop before the thread does.

A thread also stops where it reads a word that is too large for a frame, or where the worker has
gone. It releases the lock then, whatever is left of the reply.

The worker takes the lines one after the other, and writes bytes for each, of which nothing is
assumed, and the word that ends a reply.

## Main definitions

* `State`, `Event`, `step`, `machine` — the threads, the iterators and the worker.
* `bytesFor` — what the worker has written for a line.
* `Unmixed` — a request is given the reply to its own line, and one line is out at a time.
* `Careful` — what the worker writes for a line are frames that are not too large.
-/

namespace OpenVoiceStream
namespace Rk1828

variable {d : Decoder}

/-- How far the thread of a request is. -/
inductive Phase
  /-- There is no such request yet. -/
  | absent
  /-- At the lock. -/
  | waiting
  /-- The lock is taken. -/
  | locked
  /-- The worker was ready. -/
  | ready
  /-- The line is written. -/
  | reading
  /-- The lock is released, after the end of the reply or after an exception. -/
  | ended (failed : Bool)
  deriving DecidableEq, Repr

/-- What is put into a queue: a text, an error, or that there is no more. -/
inductive Item
  | text (piece : Text)
  | error
  | done
  deriving DecidableEq, Repr

/-- The iterator of `generate`: it may have come to its end, have raised, or have been closed. -/
inductive Iter
  | live
  | finished
  | raised
  | closed
  deriving DecidableEq, Repr

/-- A request: its thread and its iterator. -/
structure Request (d : Decoder) where
  phase : Phase
  /-- What the thread writes. -/
  text : Text
  /-- The number of its line, once that is written. -/
  line : Option ℕ
  reader : Reader d
  /-- The bytes that the thread has read, each with the line that it was written for. -/
  given : List (ℕ × UInt8)
  queue : List Item
  iter : Iter
  /-- The texts that `generate` has yielded. -/
  yielded : List Text

/-- The shim and the worker. -/
structure State (d : Decoder) where
  requests : ℕ → Request d
  lock : Option ℕ
  /-- The lines that were written to the worker. -/
  stdin : List Text
  /-- How many of them it has taken. -/
  taken : ℕ
  /-- Whether it is at the last one it has taken. -/
  working : Bool
  exited : Bool
  /-- Everything it has written, each byte with the line that it was written for. -/
  log : List (ℕ × UInt8)
  /-- What of that has not been read. -/
  pipe : List (ℕ × UInt8)

/-- What happens: to the request of this number, or in the worker. -/
inductive Event
  /-- `generate` is called and starts the thread. -/
  | call (i : ℕ) (request : ChatRequest)
  | acquire (i : ℕ)
  /-- `self.is_ready()`. -/
  | check (i : ℕ)
  | write (i : ℕ)
  /-- A byte is read. -/
  | read (i : ℕ)
  /-- Nothing is left to be read, and nothing will be. -/
  | eof (i : ℕ)
  /-- The iterator takes what is in front of the queue. -/
  | next (i : ℕ)
  | timeout (i : ℕ)
  /-- The client goes away. -/
  | close (i : ℕ)
  /-- The worker takes the next line. -/
  | take
  /-- It writes a byte. -/
  | emit (b : UInt8)
  /-- It writes the word that ends a reply. -/
  | finish
  | exit

/-- Before any request. -/
def Request.none (d : Decoder) : Request d :=
  { phase := .absent
    text := []
    line := Option.none
    reader := Reader.init d
    given := []
    queue := []
    iter := .live
    yielded := [] }

namespace State

variable (s : State d)

/-- A request is changed. -/
def put (i : ℕ) (r : Request d) : State d := { s with requests := Function.update s.requests i r }

@[simp] theorem put_self (i : ℕ) (r : Request d) : (s.put i r).requests i = r :=
  Function.update_self ..

theorem put_of_ne {i j : ℕ} (hj : j ≠ i) (r : Request d) :
    (s.put i r).requests j = s.requests j := Function.update_of_ne hj ..

/-- A thread raises after it has taken the lock: `except` and `finally`. -/
def fail (i : ℕ) (r : Request d) : State d :=
  { s.put i { r with phase := .ended true, queue := r.queue ++ [.error, .done] } with
    lock := Option.none }

/-- The texts that reading a byte puts out. -/
def fresh (r : Request d) (b : UInt8) : List Item :=
  ((r.reader.byte b).texts.drop r.reader.texts.length).map .text

/-- A byte that the thread reads. -/
def readByte (i : ℕ) (b : ℕ × UInt8) (rest : List (ℕ × UInt8)) : State d :=
  let r := s.requests i
  let r' : Request d :=
    { r with
      reader := r.reader.byte b.2
      given := r.given ++ [b]
      queue := r.queue ++ fresh r b.2 }
  let s' := { s with pipe := rest }
  match r'.reader.scan with
  | .header _ | .body _ _ => s'.put i r'
  | .oversize => s'.fail i r'
  | .ended =>
    { s'.put i { r' with phase := .ended false, queue := r'.queue ++ [.done] } with
      lock := Option.none }

/-- The iterator takes an item. -/
def takeItem (i : ℕ) (item : Item) (rest : List Item) : State d :=
  let r := s.requests i
  match item with
  | .text piece => s.put i { r with queue := rest, yielded := r.yielded ++ [piece] }
  | .error => s.put i { r with queue := rest, iter := .raised }
  | .done => s.put i { r with queue := rest, iter := .finished }

/-- The worker writes some bytes for the line it is at. -/
def emitBytes (bytes : Bytes) : State d :=
  { s with
    log := s.log ++ bytes.map (s.taken, ·)
    pipe := s.pipe ++ bytes.map (s.taken, ·) }

end State

/-- One event. -/
def step (s : State d) : Event → Option (State d)
  | .call i request =>
    if (s.requests i).phase = .absent then
      some (s.put i { s.requests i with phase := .waiting, text := requestLine request })
    else none
  | .acquire i =>
    if (s.requests i).phase = .waiting ∧ s.lock = none then
      some { s.put i { s.requests i with phase := .locked } with lock := some i }
    else none
  | .check i =>
    if (s.requests i).phase = .locked then
      if s.exited then some (s.fail i (s.requests i))
      else some (s.put i { s.requests i with phase := .ready })
    else none
  | .write i =>
    if (s.requests i).phase = .ready then
      if s.exited then some (s.fail i (s.requests i))
      else
        some
          { s.put i
              { s.requests i with phase := .reading, line := some (s.stdin.length + 1) } with
            stdin := s.stdin ++ [(s.requests i).text] }
    else none
  | .read i =>
    if (s.requests i).phase = .reading then
      match s.pipe with
      | [] => none
      | b :: rest => some (s.readByte i b rest)
    else none
  | .eof i =>
    if (s.requests i).phase = .reading ∧ s.pipe = [] ∧ s.exited = true then
      some (s.fail i (s.requests i))
    else none
  | .next i =>
    if (s.requests i).iter = .live then
      match (s.requests i).queue with
      | [] => none
      | item :: rest => some (s.takeItem i item rest)
    else none
  | .timeout i =>
    if (s.requests i).iter = .live ∧ (s.requests i).queue = [] then
      some (s.put i { s.requests i with iter := .raised })
    else none
  | .close i =>
    if (s.requests i).iter = .live then some (s.put i { s.requests i with iter := .closed })
    else none
  | .take =>
    if s.exited = false ∧ s.working = false ∧ s.taken < s.stdin.length then
      some { s with working := true, taken := s.taken + 1 }
    else none
  | .emit b =>
    if s.exited = false ∧ s.working = true then some (s.emitBytes [b]) else none
  | .finish =>
    if s.exited = false ∧ s.working = true then
      some { s.emitBytes eosWord with working := false }
    else none
  | .exit => if s.exited = false then some { s with exited := true } else none

/-- The shim and the worker, after the worker has become ready. -/
def machine (d : Decoder) : Machine (State d) Event where
  init :=
    { requests := fun _ => Request.none d
      lock := none
      stdin := []
      taken := 0
      working := false
      exited := false
      log := []
      pipe := [] }
  step := step

/-! ### What is asked of the channel -/

/-- What the worker has written for a line. -/
def bytesFor (line : ℕ) (log : List (ℕ × UInt8)) : Bytes :=
  (log.filter fun b => b.1 = line).map Prod.snd

/-- How many lines the worker has answered to their end. -/
def State.answered (s : State d) : ℕ := if s.working then s.taken - 1 else s.taken

/-- The texts in a queue. -/
def textsOf (queue : List Item) : List Text :=
  queue.filterMap fun item =>
    match item with
    | .text piece => some piece
    | _ => none

/-- The texts that a request has received, and those that wait for it. -/
def Request.received (r : Request d) : List Text := r.yielded ++ textsOf r.queue

/-- **Requests are not mixed.** -/
structure Unmixed (s : State d) : Prop where
  /-- Every byte that a request is given was written for its own line. -/
  own : ∀ i line, (s.requests i).line = some line → ∀ b ∈ (s.requests i).given, b.1 = line
  /-- The bytes are those that were written for the line, from the first one on. -/
  inOrder : ∀ i line, (s.requests i).line = some line →
    (s.requests i).given.map Prod.snd <+: bytesFor line s.log
  /-- A request without a line is given nothing. -/
  noLine : ∀ i, (s.requests i).line = none → (s.requests i).given = []
  /-- The texts are what the reader makes of the bytes. -/
  texts : ∀ i, (s.requests i).received =
    (Reader.of d ((s.requests i).given.map Prod.snd)).texts
  /-- A request that has come to its end has received the texts of the frames that were written
  for its line, before the word that ends them. -/
  whole : ∀ i line, (s.requests i).line = some line → (s.requests i).phase = .ended false →
    ∃ frames, bytesFor line s.log = frameBytes frames ++ eosWord ∧
      (s.requests i).received = replyTexts d frames
  /-- One line is out at a time. -/
  oneOut : s.stdin.length ≤ s.answered + 1

/-- The worker writes frames that are not too large, and ends a reply between two of them. -/
def CarefulStep (s : State d) : Event → Prop
  | .emit b => (Scan.of (bytesFor s.taken s.log ++ [b])).Open
  | .finish => Scan.of (bytesFor s.taken s.log) = .header []
  | _ => True

instance (s : State d) (e : Event) : Decidable (CarefulStep s e) := by
  cases e <;> unfold CarefulStep <;> infer_instance

/-- So it does in a run. -/
def Careful (d : Decoder) (events : List Event) : Prop :=
  (machine d).Guarded CarefulStep (machine d).init events

end Rk1828
end OpenVoiceStream
