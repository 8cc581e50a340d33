import FlashblocksRpc.Actor
import Mathlib.Algebra.Group.Nat.Basic

/-!
# The stream task: frames in, updates out, and reconnection

`FlashblocksClient::init` (`flashblocks.rs` 58–146) spawns two tasks joined by an `mpsc`
channel of capacity 100. The stream task runs an outer `loop`, one pass per connection attempt:

* `connect_async` fails: sleep `backoff`, then `backoff = min(backoff * 2, MAX_BACKOFF)` and go
  round again (`backoff` starts at one second, `MAX_BACKOFF` is ten);
* it connects: read the connection's stream until it ends. A `Binary` frame is decoded as UTF-8
  and then as JSON and sent to the channel, and a frame that fails either step is skipped with
  `continue`; `Close` and a receive error `break`; every other frame, `Text` included, falls to
  `_ => {}`. Then the `loop` goes round again at once: no sleep, and `backoff` as it was.

The actor task takes the channel's messages in order and runs `process_payload` on each (`run`).
The channel itself is tokio's `mpsc`, library code that is not modelled.

The socket, `String::from_utf8` and `serde_json::from_str::<FlashblocksPayloadV1>` are the
libraries'. What a connection yields is data here, and the two decoders are parameters. Time is
counted in whole seconds, the unit of every `Duration` the loop builds.

* **`readLoop_eq`**: a connection sends exactly the payloads of its binary frames that decode, in
  arrival order and each once, up to the first close frame or receive error. The loop reads
  binary frames only: every other frame, text included, falls to the explicit catch-all
  `_ => {} // Handle other message types if needed` (line 116), so a text frame is never sent,
  whatever it holds (`text_frame_dropped`), where the spec's "text or binary" reading
  (`specForwarded`) would send it.
* **`streamTask_append_waits`**: after any history of attempts, a failed attempt is followed by a
  sleep of `min (2 ^ f) 10`, where `f` counts every failure since the task started, and a
  connection that ends by none. A successful connection resets nothing
  (`backoff_survives_connection`).
-/

namespace FlashblocksRpc

/-! ## Frames -/

/-- `tungstenite::Message`, the frames a connection's stream yields (the payload of a close
frame and of a raw frame is not read).
Source: `tokio_tungstenite::tungstenite::protocol::Message`, imported at `flashblocks.rs` 11
Kind: D -/
inductive Message where
  | text (s : String)
  | binary (bytes : Bytes)
  | ping (data : Bytes)
  | pong (data : Bytes)
  | close
  | frame
  deriving DecidableEq, Repr

/-- An item that ends the read loop: a close frame or a receive error.
Source: `flashblocks.rs` 110–115
Kind: D -/
def endsConnection : Except String Message → Bool
  | .ok .close | .error _ => true
  | .ok _ => false

section ReadLoop

variable (fromUtf8 : Bytes → Option String) (parse : String → Option FlashblocksPayloadV1)

/-- A `Binary` frame's bytes as UTF-8 (`String::from_utf8`), then as JSON; `none` where either
step fails and the loop `continue`s.
Source: `flashblocks.rs` 84–102
Kind: D -/
def decodeBinary (bytes : Bytes) : Option FlashblocksPayloadV1 :=
  (fromUtf8 bytes).bind parse

/-- The inner `while let Some(msg) = read.next().await` over what one connection yields: the
updates it sends to the channel, in order.
Source: `flashblocks.rs` 79–118
Kind: D -/
def readLoop : List (Except String Message) → List FlashblocksPayloadV1
  | [] => []
  | .ok (.binary bytes) :: rest => (decodeBinary fromUtf8 parse bytes).toList ++ readLoop rest
  | .ok .close :: _ => []
  | .error _ :: _ => []
  | .ok _ :: rest => readLoop rest

/-- What one item sends: the payload of a binary frame that decodes, and nothing else.
Source: `flashblocks.rs` 84–117
Kind: D -/
def sentPayload : Except String Message → Option FlashblocksPayloadV1
  | .ok (.binary bytes) => decodeBinary fromUtf8 parse bytes
  | _ => none

/-- **What a connection sends**: the payloads of its binary frames that decode, in arrival order
and each once, up to the first close frame or receive error.
Source: `flashblocks.rs` 79–118
Kind: P -/
theorem readLoop_eq (items : List (Except String Message)) :
    readLoop fromUtf8 parse items =
      (items.takeWhile (!endsConnection ·)).filterMap (sentPayload fromUtf8 parse) := by
  induction items with
  | nil => rfl
  | cons item items ih =>
    rcases item with e | m
    · rfl
    · cases m <;> simp [readLoop, endsConnection, sentPayload, ih, List.filterMap_cons,
        Option.toList]
      split <;> simp [*]

/-- What one connection should send in the spec's words: every frame, text or binary, whose
payload is UTF-8 JSON that parses, in arrival order, up to the first close frame or receive
error.
Source: spec §4.2 (PayloadStream: "text or binary-encoded JSON")
Kind: D -/
def specForwarded : List (Except String Message) → List FlashblocksPayloadV1
  | [] => []
  | .ok (.binary bytes) :: rest => (decodeBinary fromUtf8 parse bytes).toList ++ specForwarded rest
  | .ok (.text s) :: rest => (parse s).toList ++ specForwarded rest
  | .ok .close :: _ => []
  | .error _ :: _ => []
  | .ok _ :: rest => specForwarded rest

end ReadLoop

/-- An update with nothing in it, for the examples. Source: none: test data. Kind: D -/
def emptyUpdate : FlashblocksPayloadV1 := ⟨0, none, ⟨0, 0, 0, 0, 0, [], []⟩, none⟩

/-- A connection whose only frame is a text frame sends nothing, where the spec's reading sends
the update the text parses to (here under a JSON decoder that reads every text as
`emptyUpdate`).
Source: `flashblocks.rs` 116
Kind: L -/
theorem text_frame_dropped :
    readLoop (fun _ => none) (fun _ => some emptyUpdate) [.ok (.text "")] = [] ∧
      specForwarded (fun _ => none) (fun _ => some emptyUpdate) [.ok (.text "")] = [emptyUpdate] :=
  ⟨rfl, rfl⟩

/-! ## The reconnect loop -/

/-- What one pass of the outer `loop` meets: `connect_async` fails, or it connects and the
connection yields `items` before its stream ends.
Source: `flashblocks.rs` 74–131
Kind: D -/
inductive Attempt where
  | failed
  | connected (items : List (Except String Message))

/-- The pass failed to connect. Source: `flashblocks.rs` 120–129. Kind: D -/
def Attempt.isFailed : Attempt → Bool
  | .failed => true
  | .connected _ => false

/-- The number of failed attempts. Source: none: infrastructure. Kind: D -/
def failures (attempts : List Attempt) : Nat := attempts.countP Attempt.isFailed

/-- No attempt, no failure. Source: none: infrastructure. Kind: L -/
@[simp] theorem failures_nil : failures [] = 0 := rfl

/-- One more attempt counts once if it failed. Source: none: infrastructure. Kind: L -/
@[simp] theorem failures_append_singleton (attempts : List Attempt) (a : Attempt) :
    failures (attempts ++ [a]) = failures attempts + if a.isFailed then 1 else 0 := by
  cases a <;> simp [failures, Attempt.isFailed]

/-- `MAX_BACKOFF`, in seconds. Source: `flashblocks.rs` 71. Kind: D -/
def maxBackoff : Nat := 10

/-- The stream task between passes of its outer `loop`: the current `backoff`, the sleep after
each attempt so far (`0` where the loop went round without one), and the updates sent to the
channel so far.
Source: `flashblocks.rs` 69–132
Kind: D -/
structure StreamTask where
  backoff : Nat
  waits : List Nat
  sent : List FlashblocksPayloadV1

/-- The task as spawned: `backoff` is one second. Source: `flashblocks.rs` 70. Kind: D -/
def StreamTask.init : StreamTask := ⟨1, [], []⟩

section Loop

variable (fromUtf8 : Bytes → Option String) (parse : String → Option FlashblocksPayloadV1)

/-- One pass of the outer `loop`.
Source: `flashblocks.rs` 72–132
Kind: D -/
def StreamTask.step (t : StreamTask) : Attempt → StreamTask
  | .failed => ⟨min (t.backoff * 2) maxBackoff, t.waits ++ [t.backoff], t.sent⟩
  | .connected items => ⟨t.backoff, t.waits ++ [0], t.sent ++ readLoop fromUtf8 parse items⟩

/-- The stream task after a run of attempts. Source: `flashblocks.rs` 73–131. Kind: D -/
def streamTask (attempts : List Attempt) : StreamTask :=
  attempts.foldl (StreamTask.step fromUtf8 parse) StreamTask.init

/-- The task after one more attempt is one more step. Source: none: infrastructure. Kind: L -/
theorem streamTask_append (attempts : List Attempt) (a : Attempt) :
    streamTask fromUtf8 parse (attempts ++ [a]) = (streamTask fromUtf8 parse attempts).step fromUtf8 parse a :=
  List.foldl_append _ _ _ _

/-- Doubling under the cap forgets whether the cap was reached before.
Source: none: infrastructure
Kind: L -/
theorem min_double_min (x : Nat) : min (min x maxBackoff * 2) maxBackoff = min (x * 2) maxBackoff := by
  simp only [maxBackoff]; omega

/-- The backoff after a run: `2 ^ f` seconds under the cap, for `f` failures so far.
Source: `flashblocks.rs` 70–71, 120–129
Kind: L -/
theorem streamTask_backoff (attempts : List Attempt) :
    (streamTask fromUtf8 parse attempts).backoff = min (2 ^ failures attempts) maxBackoff := by
  induction attempts using List.reverseRecOn with
  | nil => rfl
  | append_singleton attempts a ih =>
    rw [streamTask_append, failures_append_singleton]
    cases a with
    | failed => simp [StreamTask.step, ih, min_double_min, Attempt.isFailed, Nat.pow_succ]
    | connected items => simp [StreamTask.step, ih, Attempt.isFailed]

/-- **The sleep after an attempt**: after any history, a failed attempt is followed by a sleep
of `min (2 ^ f) 10` seconds, where `f` counts the failures of the whole history, and a
connection that ends by none.
Source: `flashblocks.rs` 70–71, 120–129
Kind: P -/
theorem streamTask_append_waits (attempts : List Attempt) (a : Attempt) :
    (streamTask fromUtf8 parse (attempts ++ [a])).waits = (streamTask fromUtf8 parse attempts).waits ++
      [if a.isFailed then min (2 ^ failures attempts) maxBackoff else 0] := by
  rw [streamTask_append]
  cases a <;> simp [StreamTask.step, Attempt.isFailed, streamTask_backoff]

/-- Two failures, a connection that closes at once, and a failure: the last sleep is four
seconds, not the initial one, and the connection is followed by no sleep.
Source: `flashblocks.rs` 74–131
Kind: L -/
theorem backoff_survives_connection :
    (streamTask (fun _ => none) (fun _ => none)
      [.failed, .failed, .connected [.ok .close], .failed]).waits = [1, 2, 0, 4] := rfl

end Loop

end FlashblocksRpc
