/-
**Notification channels.**

A channel passes notifications to any number of subscribers.  It keeps the latest notifications,
up to a capacity that is a power of two, and knows how far each subscriber has read.  A
subscriber sees what is published after it subscribed; if it has fallen behind what is kept, it
is told once how many notifications it has lost and goes on with the oldest one that is kept.
What is published while nobody is subscribed is dropped.

Main definitions:

* `CoachLedger.Audit.Channel` — channels;
* `CoachLedger.Audit.Channel.subscribe`, `CoachLedger.Audit.Channel.publish`,
  `CoachLedger.Audit.Channel.receive` — what can be done with them;
* `CoachLedger.Audit.Channel.Step`, `CoachLedger.Audit.Channel.perform`,
  `CoachLedger.Audit.Channel.performAll` — one step after another, with what each has answered.

Main results:

* `CoachLedger.Audit.Channel.names_moveTo` — reading does not change who is subscribed.
-/

set_option autoImplicit false

namespace CoachLedger.Audit

/-- The least power of two that is not below a number. -/
def powerAtLeast (n : Nat) : Nat :=
  if n ≤ 1 then 1 else 1 <<< ((n - 1).log2 + 1)

/-- A channel for messages of some type. -/
structure Channel (α : Type) where
  /-- The number of messages that are kept. -/
  capacity : Nat
  /-- The number of messages that have been published to somebody. -/
  published : Nat
  /-- The latest of them, oldest first. -/
  kept : List α
  /-- The subscribers by name, each with the number of the message that it reads next. -/
  subscribers : List (String × Nat)
  /-- The publisher is gone. -/
  isClosed : Bool

/-- Why a step on a channel fails. -/
inductive Channel.Failure
  | noPublisher
  | noSubscriber
  | closed
  | lagged (lost : Nat)
deriving DecidableEq, Repr

namespace Channel

/-- The message of a failure that a subscriber meets while reading. -/
def Failure.message? : Failure → Option String
  | closed => some "Notification channel closed"
  | lagged lost =>
      some ("Subscriber lagged behind, " ++ toString lost ++ " notifications skipped")
  | noPublisher | noSubscriber => none

variable {α : Type}

/-- A channel that keeps at least the given number of messages, and at least one. -/
def create (capacity : Nat) : Channel α :=
  ⟨powerAtLeast (max capacity 1), 0, [], [], false⟩

/-- The number of the oldest message that is kept. -/
def oldest (c : Channel α) : Nat :=
  c.published - c.kept.length

/-- The name is no longer subscribed. -/
def unsubscribe (c : Channel α) (name : String) : Channel α :=
  { c with subscribers := c.subscribers.filter fun s => s.1 != name }

/-- The name is subscribed. -/
def isSubscribed (c : Channel α) (name : String) : Bool :=
  (c.subscribers.lookup name).isSome

/-- The name is subscribed to what is published from now on, in place of a former
subscription. -/
def subscribe (c : Channel α) (name : String) : Except Failure (Channel α) :=
  if c.isClosed then .error .noPublisher
  else
    .ok { c with
      subscribers := (name, c.published) :: (c.unsubscribe name).subscribers }

/-- The latest messages, no more than `capacity` of them. -/
def latest (capacity : Nat) (messages : List α) : List α :=
  messages.drop (messages.length - capacity)

/-- The channel with a message published, and the number of subscribers that it reaches. -/
def publish (c : Channel α) (message : α) : Except Failure (Nat × Channel α) :=
  if c.isClosed then .error .noPublisher
  else if c.subscribers.isEmpty then .ok (0, c)
  else
    .ok (c.subscribers.length,
      { c with
        published := c.published + 1
        kept := latest c.capacity (c.kept ++ [message]) })

/-- The publisher goes. -/
def close (c : Channel α) : Channel α :=
  { c with isClosed := true }

/-- The subscriber reads the given message next. -/
def moveTo (c : Channel α) (name : String) (next : Nat) : Channel α :=
  { c with subscribers := c.subscribers.map fun s => if s.1 = name then (name, next) else s }

/-- Reading does not change who is subscribed. -/
theorem names_moveTo (c : Channel α) (name : String) (next : Nat) :
    (c.moveTo name next).subscribers.map Prod.fst = c.subscribers.map Prod.fst := by
  simp only [moveTo, List.map_map]
  apply List.map_congr_left
  intro s _
  by_cases h : s.1 = name <;> simp [h]

/-- The next message for a subscriber: none if it has read everything, and a failure if it has
lost messages or if none can follow. -/
def receive (c : Channel α) (name : String) : Except Failure (Option α) × Channel α :=
  match c.subscribers.lookup name with
  | none => (.error .noSubscriber, c)
  | some next =>
      if next < c.oldest then (.error (.lagged (c.oldest - next)), c.moveTo name c.oldest)
      else
        match c.kept[next - c.oldest]? with
        | some message => (.ok (some message), c.moveTo name (next + 1))
        | none => (if c.isClosed then .error .closed else .ok none, c)

/-! ### Steps -/

/-- What the publisher and the subscribers can do, in whatever order. -/
inductive Step (α : Type)
  | subscribe (name : String)
  | unsubscribe (name : String)
  | publish (message : α)
  | receive (name : String)
  | close
deriving DecidableEq, Repr

/-- What a step answers if it does not fail. -/
inductive Answer (α : Type)
  | done
  /-- The number of subscribers that a message has reached. -/
  | reached (subscribers : Nat)
  | message (message : α)
  /-- The subscriber waits: there is nothing that it has not received. -/
  | nothing
deriving DecidableEq, Repr

/-- A step that has been taken. -/
structure Event (α : Type) where
  step : Step α
  answer : Except Failure (Answer α)

/-- What a subscriber is answered with. -/
def received : Except Failure (Option α) → Except Failure (Answer α)
  | .ok (some message) => .ok (.message message)
  | .ok none => .ok .nothing
  | .error f => .error f

/-- The answer of a step, and the channel after it. -/
def perform (c : Channel α) : Step α → Except Failure (Answer α) × Channel α
  | .subscribe name =>
      match c.subscribe name with
      | .ok d => (.ok .done, d)
      | .error f => (.error f, c)
  | .unsubscribe name => (.ok .done, c.unsubscribe name)
  | .publish message =>
      match c.publish message with
      | .ok (n, d) => (.ok (.reached n), d)
      | .error f => (.error f, c)
  | .receive name => (received (c.receive name).1, (c.receive name).2)
  | .close => (.ok .done, c.close)

/-- The steps one after another, as events, and the channel after them. -/
def performAll (c : Channel α) : List (Step α) → List (Event α) × Channel α
  | [] => ([], c)
  | step :: steps =>
      let (answer, d) := c.perform step
      let (events, e) := d.performAll steps
      (⟨step, answer⟩ :: events, e)

end Channel

end CoachLedger.Audit
