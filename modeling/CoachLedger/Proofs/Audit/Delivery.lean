/-
**Delivery of notifications.**

A subscriber is given the messages that are published after it subscribed, in their order, and
for those that it has lost it is told how many there were.  What it has been given and what is
still before it therefore always make up what has been published since.  This is stated on the
events of a channel, in whatever order subscribers come, read and go, and is proved by an
invariant that compares the channel with the list of all messages that were ever published on
it: the channel keeps the end of that list, and each subscriber has a place in it.

Main definitions:

* `CoachLedger.Audit.Channel.Receipt`, `CoachLedger.Audit.Channel.receipts` — what a subscriber
  has been given, and `CoachLedger.Audit.Channel.publishedIn` — what has been published;
* `CoachLedger.Audit.Channel.Accounts` — receipts account for messages from the oldest on and
  leave the rest pending;
* `CoachLedger.Audit.Channel.Holds` — the channel holds the end of a list of messages;
* `CoachLedger.Audit.Channel.Serves` — where a subscriber stands;
* `CoachLedger.Audit.Channel.Delivers` — what a subscriber can rely on.

Main results:

* `CoachLedger.Audit.powerAtLeast_isLeast` — the capacity of a channel;
* `CoachLedger.Audit.Channel.receive_eq` — reading, by the messages that are pending;
* `CoachLedger.Audit.Channel.serves_perform`, `CoachLedger.Audit.Channel.serves_performAll` —
  one step and any number of them keep the account of a subscriber;
* `CoachLedger.Audit.Channel.performAll_delivers` — **no message is lost silently, repeated or
  put out of order**.
-/

import CoachLedger.Audit.Channel
import Mathlib.Algebra.Ring.Nat
import Mathlib.Data.List.Basic

set_option autoImplicit false

namespace CoachLedger.Audit

/-- The capacity of a channel is the least power of two that is not below what is asked for. -/
theorem powerAtLeast_isLeast (n : Nat) :
    n ≤ powerAtLeast n ∧
      ∃ k, powerAtLeast n = 2 ^ k ∧ ∀ j, n ≤ 2 ^ j → 2 ^ k ≤ 2 ^ j := by
  unfold powerAtLeast
  split
  case isTrue h =>
    refine ⟨h, 0, rfl, ?_⟩
    intro j _
    exact Nat.one_le_two_pow
  case isFalse h =>
    have hne : n - 1 ≠ 0 := by omega
    have hlt : n - 1 < 2 ^ ((n - 1).log2 + 1) := Nat.lt_log2_self
    refine ⟨by rw [Nat.one_shiftLeft]; omega, (n - 1).log2 + 1, Nat.one_shiftLeft _, ?_⟩
    intro j hj
    have hle : 2 ^ (n - 1).log2 ≤ n - 1 := Nat.log2_self_le hne
    have hlog : (n - 1).log2 < j := by
      refine (Nat.pow_lt_pow_iff_right (by omega : 1 < 2)).1 ?_
      omega
    exact Nat.pow_le_pow_right (by omega) hlog

namespace Channel

variable {α : Type}

/-! ### What a subscriber has been given -/

/-- What a subscriber has been given: a message, or the number of messages that it has lost. -/
inductive Receipt (α : Type)
  | message (message : α)
  | skipped (lost : Nat)
deriving DecidableEq, Repr

/-- What an event has given to a subscriber. -/
def Event.receipt? (name : String) : Event α → Option (Receipt α)
  | ⟨.receive other, .ok (.message message)⟩ =>
      if other = name then some (.message message) else none
  | ⟨.receive other, .error (.lagged lost)⟩ =>
      if other = name then some (.skipped lost) else none
  | _ => none

/-- What an event has published. -/
def Event.published? : Event α → Option α
  | ⟨.publish message, .ok _⟩ => some message
  | _ => none

/-- What a subscriber has been given, in the order of the events. -/
def receipts (name : String) (events : List (Event α)) : List (Receipt α) :=
  events.filterMap (Event.receipt? name)

/-- What has been published, in the order of the events. -/
def publishedIn (events : List (Event α)) : List α :=
  events.filterMap Event.published?

@[simp] theorem receipts_cons (name : String) (event : Event α) (events : List (Event α)) :
    receipts name (event :: events) =
      (Event.receipt? name event).toList ++ receipts name events := by
  unfold receipts
  cases h : Event.receipt? name event with
  | none => rw [List.filterMap_cons_none h, Option.toList_none, List.nil_append]
  | some r => rw [List.filterMap_cons_some h, Option.toList_some, List.singleton_append]

@[simp] theorem publishedIn_cons (event : Event α) (events : List (Event α)) :
    publishedIn (event :: events) = event.published?.toList ++ publishedIn events := by
  unfold publishedIn
  cases h : event.published? with
  | none => rw [List.filterMap_cons_none h, Option.toList_none, List.nil_append]
  | some m => rw [List.filterMap_cons_some h, Option.toList_some, List.singleton_append]

/-- Who is subscribed after an event: whoever has subscribed and has not gone since. -/
def subscribedAfter (names : List String) : Event α → List String
  | ⟨.subscribe name, .ok _⟩ => name :: names.filter (· != name)
  | ⟨.unsubscribe name, _⟩ => names.filter (· != name)
  | _ => names

/-- Who is subscribed after the events. -/
def subscribed (events : List (Event α)) : List String :=
  events.foldl subscribedAfter []

/-- The messages among the receipts. -/
def delivered : List (Receipt α) → List α
  | [] => []
  | .message message :: rs => message :: delivered rs
  | .skipped _ :: rs => delivered rs

/-- The number of messages that the receipts report as lost. -/
def lost : List (Receipt α) → Nat
  | [] => 0
  | .message _ :: rs => lost rs
  | .skipped n :: rs => n + lost rs

/-- **The receipts account for the messages** from the oldest on: a message stands for itself, and
a report of `n` lost messages stands for the next `n` of them.  The last argument is what the
receipts leave pending. -/
inductive Accounts : List (Receipt α) → List α → List α → Prop
  | nil (messages : List α) : Accounts [] messages messages
  | message (m : α) {rs : List (Receipt α)} {messages pending : List α} :
      Accounts rs messages pending → Accounts (.message m :: rs) (m :: messages) pending
  | skipped (block : List α) {rs : List (Receipt α)} {messages pending : List α} :
      block ≠ [] → Accounts rs messages pending →
        Accounts (.skipped block.length :: rs) (block ++ messages) pending

namespace Accounts

variable {rs : List (Receipt α)} {messages pending : List α}

/-- What is published later is pending. -/
theorem publish (h : Accounts rs messages pending) (later : List α) :
    Accounts rs (messages ++ later) (pending ++ later) := by
  induction h with
  | nil messages => exact .nil _
  | message m _ ih => exact .message m ih
  | skipped block hne _ ih =>
      rw [List.append_assoc]
      exact .skipped block hne ih

/-- The next message is delivered. -/
theorem deliver {m : α} (h : Accounts rs messages (m :: pending)) :
    Accounts (rs ++ [.message m]) messages pending := by
  generalize hp : m :: pending = before at h
  induction h with
  | nil messages =>
      subst hp
      exact .message m (.nil pending)
  | message m' _ ih => exact .message m' (ih hp)
  | skipped block hne _ ih => exact .skipped block hne (ih hp)

/-- The next messages are reported as lost. -/
theorem skip {block : List α} (h : Accounts rs messages (block ++ pending)) (hne : block ≠ []) :
    Accounts (rs ++ [.skipped block.length]) messages pending := by
  generalize hp : block ++ pending = before at h
  induction h with
  | nil messages =>
      subst hp
      exact .skipped block hne (.nil pending)
  | message m _ ih => exact .message m (ih hp)
  | skipped block' hne' _ ih => exact .skipped block' hne' (ih hp)

/-- What is delivered is a part of what was published, in the same order. -/
theorem delivered_sublist (h : Accounts rs messages pending) :
    (delivered rs).Sublist messages := by
  induction h with
  | nil messages => exact List.nil_sublist messages
  | message m _ ih => exact ih.cons_cons m
  | skipped block _ _ ih => exact ih.trans (List.sublist_append_right block _)

/-- Delivered, lost and pending messages add up to what was published. -/
theorem length_eq (h : Accounts rs messages pending) :
    (delivered rs).length + lost rs + pending.length = messages.length := by
  induction h with
  | nil messages => simp [delivered, lost]
  | message m _ ih =>
      simp only [delivered, lost, List.length_cons]
      omega
  | skipped block _ _ ih =>
      simp only [delivered, lost, List.length_append]
      omega

end Accounts

/-! ### The channel beside everything that was published -/

/-- **The channel holds the end of a list of messages**, and every subscriber has a place in that
list. -/
structure Holds (c : Channel α) (log : List α) : Prop where
  published : c.published = log.length
  kept : c.kept = latest c.capacity log
  places : ∀ s ∈ c.subscribers, s.2 ≤ log.length

variable {c : Channel α} {log : List α} {name : String} {next : Nat}

/-- The messages before the oldest one that is kept are lost. -/
theorem Holds.oldest_eq (h : c.Holds log) : c.oldest = log.length - c.capacity := by
  unfold oldest
  rw [h.published, h.kept, latest, List.length_drop]
  omega

/-- Keeping the end of a list can be done at any time on the way. -/
theorem latest_append (capacity : Nat) (messages later : List α) :
    latest capacity (latest capacity messages ++ later) = latest capacity (messages ++ later) := by
  unfold latest
  rw [← List.drop_append_of_le_length (by omega), List.drop_drop]
  congr 1
  simp only [List.length_drop, List.length_append]
  omega

theorem place_le (h : c.Holds log) (hn : c.subscribers.lookup name = some next) :
    next ≤ log.length := by
  obtain ⟨before, after, hsplit, -⟩ := List.lookup_eq_some_iff.1 hn
  exact h.places (name, next) (by simp [hsplit])

theorem create_holds (capacity : Nat) : (create capacity : Channel α).Holds [] :=
  ⟨rfl, by simp [create, latest], by simp [create]⟩

theorem Holds.moveTo (h : c.Holds log) (hle : next ≤ log.length) :
    (c.moveTo name next).Holds log := by
  refine ⟨h.published, h.kept, ?_⟩
  intro s hs
  obtain ⟨s', hs', rfl⟩ := List.mem_map.1 hs
  split
  · exact hle
  · exact h.places s' hs'

theorem Holds.unsubscribe (h : c.Holds log) : (c.unsubscribe name).Holds log := by
  refine ⟨h.published, h.kept, ?_⟩
  intro s hs
  exact h.places s (List.mem_of_mem_filter hs)

theorem Holds.subscribe (h : c.Holds log) {d : Channel α} (hd : c.subscribe name = .ok d) :
    d.Holds log := by
  unfold Channel.subscribe at hd
  split at hd
  · cases hd
  · cases hd
    refine ⟨h.published, h.kept, ?_⟩
    intro s hs
    cases hs with
    | head => exact Nat.le_of_eq h.published
    | tail _ hs => exact h.unsubscribe.places s hs

theorem Holds.push (h : c.Holds log) (m : α) :
    Holds { c with published := c.published + 1, kept := latest c.capacity (c.kept ++ [m]) }
      (log ++ [m]) := by
  refine ⟨by simp [h.published], ?_, ?_⟩
  · simp only [h.kept]
    exact latest_append c.capacity log [m]
  · intro s hs
    have hle := h.places s hs
    simp only [List.length_append, List.length_cons, List.length_nil]
    omega

/-! ### Places -/

theorem lookup_moveTo (hn : c.subscribers.lookup name = some next) (place : Nat) :
    (c.moveTo name place).subscribers.lookup name = some place := by
  unfold moveTo
  revert hn
  dsimp only
  induction c.subscribers with
  | nil => simp
  | cons s rest ih =>
      obtain ⟨key, p⟩ := s
      intro hn
      by_cases hs : key = name
      · simp [hs]
      · have hne : (name == key) = false := by simpa using Ne.symm hs
        simp only [List.lookup_cons, hne] at hn
        simp only [List.map_cons, if_neg hs, List.lookup_cons, hne]
        exact ih hn

theorem lookup_moveTo_of_ne {other : String} (hne : other ≠ name) (place : Nat) :
    (c.moveTo other place).subscribers.lookup name = c.subscribers.lookup name := by
  have hn : (name == other) = false := by simpa using Ne.symm hne
  unfold moveTo
  dsimp only
  induction c.subscribers with
  | nil => rfl
  | cons s rest ih =>
      obtain ⟨key, p⟩ := s
      by_cases hs : key = other
      · simp [hs, List.lookup_cons, hn, ih]
      · simp [hs, List.lookup_cons, ih]

theorem lookup_unsubscribe_of_ne {other : String} (hne : other ≠ name) :
    (c.unsubscribe other).subscribers.lookup name = c.subscribers.lookup name := by
  have hn : (name == other) = false := by simpa using Ne.symm hne
  unfold unsubscribe
  dsimp only
  induction c.subscribers with
  | nil => rfl
  | cons s rest ih =>
      obtain ⟨key, p⟩ := s
      by_cases hs : key = other
      · simp [hs, List.lookup_cons, hn, ih]
      · simp [hs, List.lookup_cons, ih]

theorem lookup_subscribe_of_ne {other : String} (hne : other ≠ name) {d : Channel α}
    (hd : c.subscribe other = .ok d) :
    d.subscribers.lookup name = c.subscribers.lookup name := by
  have hn : (name == other) = false := by simpa using Ne.symm hne
  unfold Channel.subscribe at hd
  split at hd
  · cases hd
  · cases hd
    simp only [List.lookup_cons, hn]
    exact lookup_unsubscribe_of_ne hne

/-- Reading moves the reader and does nothing else. -/
theorem receive_eq_moveTo (c : Channel α) (name : String) :
    (c.receive name).2 = c ∨ ∃ place, (c.receive name).2 = c.moveTo name place := by
  unfold Channel.receive
  split
  · exact .inl rfl
  · split
    · exact .inr ⟨_, rfl⟩
    · split
      · exact .inr ⟨_, rfl⟩
      · exact .inl rfl

theorem lookup_receive_of_ne {other : String} (hne : other ≠ name) :
    (c.receive other).2.subscribers.lookup name = c.subscribers.lookup name := by
  obtain hr | ⟨place, hr⟩ := c.receive_eq_moveTo other
  · rw [hr]
  · rw [hr, lookup_moveTo_of_ne hne]

/-! ### Reading -/

/-- What a subscriber is answered with, from the messages that are pending for it. -/
def answerTo (capacity : Nat) (isClosed : Bool) (pending : List α) :
    Except Failure (Option α) :=
  if capacity < pending.length then .error (.lagged (pending.length - capacity))
  else
    match pending with
    | message :: _ => .ok (some message)
    | [] => if isClosed then .error .closed else .ok none

/-- What is pending for a subscriber after it has read. -/
def pendingAfter (capacity : Nat) (pending : List α) : List α :=
  if capacity < pending.length then pending.drop (pending.length - capacity) else pending.tail

/-- **Reading, by the messages that are pending.**  If there are more of them than are kept, the
others are lost; otherwise the next one is given, if there is one. -/
theorem receive_eq (h : c.Holds log) (hn : c.subscribers.lookup name = some next) :
    c.receive name =
      (answerTo c.capacity c.isClosed (log.drop next),
        if c.capacity < (log.drop next).length then c.moveTo name (log.length - c.capacity)
        else if log.drop next = [] then c
        else c.moveTo name (next + 1)) := by
  have hold := h.oldest_eq
  unfold receive answerTo
  simp only [hn, hold, List.length_drop]
  by_cases hlag : c.capacity < log.length - next
  · have hlt : next < log.length - c.capacity := by omega
    have heq : log.length - c.capacity - next = log.length - next - c.capacity := by omega
    simp [hlag, hlt, heq]
  · have hge : ¬ next < log.length - c.capacity := by omega
    have hget : c.kept[next - (log.length - c.capacity)]? = (log.drop next)[0]? := by
      rw [h.kept, latest, List.getElem?_drop, List.getElem?_drop]
      congr 1
      omega
    simp only [if_neg hge, hget, if_neg hlag]
    cases hp : log.drop next with
    | nil => simp
    | cons m pending => simp

/-- The place of a subscriber after it has read. -/
theorem place_receive (h : c.Holds log) (hn : c.subscribers.lookup name = some next) :
    ∃ next', (c.receive name).2.subscribers.lookup name = some next' ∧
      log.drop next' = pendingAfter c.capacity (log.drop next) := by
  rw [receive_eq h hn]
  unfold pendingAfter
  split_ifs with hlag hnil
  · rw [List.length_drop] at hlag ⊢
    refine ⟨_, lookup_moveTo hn _, ?_⟩
    rw [List.drop_drop]
    congr 1
    omega
  · exact ⟨next, hn, by rw [hnil, List.tail_nil]⟩
  · exact ⟨_, lookup_moveTo hn _, List.tail_drop.symm⟩

/-- What reading gives is accounted for. -/
theorem Accounts.answerTo {rs : List (Receipt α)} {messages pending : List α}
    (h : Accounts rs messages pending) (capacity : Nat) (isClosed : Bool) (name : String) :
    Accounts
      (rs ++ (Event.receipt? name
        ⟨.receive name, received (answerTo capacity isClosed pending)⟩).toList)
      messages (pendingAfter capacity pending) := by
  unfold Channel.answerTo pendingAfter
  by_cases hlag : capacity < pending.length
  · -- The oldest messages are lost, as many as leave the capacity.
    have hlen : (pending.take (pending.length - capacity)).length = pending.length - capacity := by
      rw [List.length_take]
      omega
    have hne : pending.take (pending.length - capacity) ≠ [] := by
      intro he
      rw [he, List.length_nil] at hlen
      omega
    rw [← List.take_append_drop (pending.length - capacity) pending] at h
    have hskip := h.skip hne
    rw [hlen] at hskip
    simpa [hlag, received, Event.receipt?] using hskip
  · simp only [if_neg hlag]
    cases pending with
    | nil => cases isClosed <;> simpa [received, Event.receipt?] using h
    | cons m rest => simpa [received, Event.receipt?] using h.deliver

/-! ### The account of a subscriber -/

/-- **Where a subscriber stands**: its receipts account for what was published since it
subscribed, up to its place in the channel. -/
structure Serves (c : Channel α) (name : String) (messages : List α) (rs : List (Receipt α))
    (pending : List α) : Prop where
  accounts : Accounts rs messages pending
  place : ∃ log next, c.Holds log ∧ c.subscribers.lookup name = some next ∧
    log.drop next = pending

/-- The step leaves the subscription of the name alone. -/
def Step.Keeps (name : String) : Step α → Prop
  | .subscribe other => other ≠ name
  | .unsubscribe other => other ≠ name
  | _ => True

/-- Reading leaves what the channel holds. -/
theorem Holds.receive (h : c.Holds log) : (c.receive name).2.Holds log := by
  cases hn : c.subscribers.lookup name with
  | none => simpa [Channel.receive, hn] using h
  | some next =>
      rw [receive_eq h hn]
      split_ifs with hlag hnil
      · exact h.moveTo (by omega)
      · exact h
      · have hlt : next < log.length := by simpa using hnil
        exact h.moveTo hlt

/-- Whatever is done, the channel holds the end of what was published. -/
theorem Holds.perform (h : c.Holds log) (step : Step α) :
    ∃ log', (c.perform step).2.Holds log' := by
  cases step with
  | subscribe other =>
      cases hs : c.subscribe other with
      | ok d => exact ⟨log, by simpa [Channel.perform, hs] using h.subscribe hs⟩
      | error f => exact ⟨log, by simpa [Channel.perform, hs] using h⟩
  | unsubscribe other => exact ⟨log, h.unsubscribe⟩
  | publish m =>
      simp only [Channel.perform, Channel.publish]
      split_ifs
      · exact ⟨log, h⟩
      · exact ⟨log, h⟩
      · exact ⟨log ++ [m], h.push m⟩
  | receive other => exact ⟨log, h.receive⟩
  | close => exact ⟨log, h.published, h.kept, h.places⟩

theorem Holds.performAll (h : c.Holds log) (steps : List (Step α)) :
    ∃ log', (c.performAll steps).2.Holds log' := by
  induction steps generalizing c log with
  | nil => exact ⟨log, h⟩
  | cons step steps ih =>
      obtain ⟨log', h'⟩ := h.perform step
      exact ih h'

variable {messages pending : List α} {rs : List (Receipt α)}

/-- Reading is answered with what is pending. -/
theorem Serves.answer (h : c.Serves name messages rs pending) :
    (c.receive name).1 = answerTo c.capacity c.isClosed pending := by
  obtain ⟨log, next, hh, hn, rfl⟩ := h.place
  rw [receive_eq hh hn]

theorem Serves.receive (h : c.Serves name messages rs pending) :
    (c.receive name).2.Serves name messages
      (rs ++ (Event.receipt? name ⟨.receive name, received (c.receive name).1⟩).toList)
      (pendingAfter c.capacity pending) := by
  rw [h.answer]
  refine ⟨h.accounts.answerTo _ _ _, ?_⟩
  obtain ⟨log, next, hh, hn, rfl⟩ := h.place
  obtain ⟨next', hn', hp'⟩ := place_receive hh hn
  exact ⟨log, next', hh.receive, hn', hp'⟩

/-- Publishing is answered with the number of subscribers. -/
theorem perform_publish (hc : c.isClosed = false) (m : α) :
    (c.perform (.publish m)).1 = .ok (.reached c.subscribers.length) := by
  unfold perform Channel.publish
  cases hs : c.subscribers with
  | nil => simp [hc]
  | cons s rest => simp [hc]

/-- What is published while a subscriber is there is pending for it. -/
theorem Serves.publish (h : c.Serves name messages rs pending) (m : α) :
    ∃ pending', (c.perform (.publish m)).2.Serves name
      (messages ++ (Event.published? ⟨.publish m, (c.perform (.publish m)).1⟩).toList) rs
      pending' := by
  obtain ⟨log, next, hh, hn, hp⟩ := h.place
  cases hc : c.isClosed with
  | true =>
      refine ⟨pending, ?_, ?_⟩
      · simpa [perform, Channel.publish, hc, Event.published?] using h.accounts
      · simpa [perform, Channel.publish, hc] using h.place
  | false =>
      have hd : (c.perform (.publish m)).2 =
          { c with published := c.published + 1, kept := latest c.capacity (c.kept ++ [m]) } := by
        unfold perform Channel.publish
        cases hs : c.subscribers with
        | nil => simp [hs] at hn
        | cons s rest => simp [hc]
      rw [perform_publish hc, hd]
      refine ⟨pending ++ [m], h.accounts.publish [m], log ++ [m], next, hh.push m, hn, ?_⟩
      rw [List.drop_append_of_le_length (place_le hh hn), hp]

/-- **One step keeps the account of a subscriber** that neither goes nor subscribes again. -/
theorem serves_perform (h : c.Serves name messages rs pending) {step : Step α}
    (hk : step.Keeps name) :
    ∃ pending', (c.perform step).2.Serves name
      (messages ++ (Event.published? ⟨step, (c.perform step).1⟩).toList)
      (rs ++ (Event.receipt? name ⟨step, (c.perform step).1⟩).toList) pending' := by
  obtain ⟨log, next, hh, hn, hp⟩ := h.place
  cases step with
  | subscribe other =>
      refine ⟨pending, ?_, log, next, ?_⟩
      · simpa [Event.published?, Event.receipt?] using h.accounts
      · cases hs : c.subscribe other with
        | error f => simpa [perform, hs] using ⟨hh, hn, hp⟩
        | ok d =>
            have hd := (lookup_subscribe_of_ne hk hs).trans hn
            simpa [perform, hs] using ⟨hh.subscribe hs, hd, hp⟩
  | unsubscribe other =>
      refine ⟨pending, ?_, log, next, ?_⟩
      · simpa [Event.published?, Event.receipt?] using h.accounts
      · exact ⟨hh.unsubscribe, (lookup_unsubscribe_of_ne hk).trans hn, hp⟩
  | publish m => simpa [Event.receipt?] using h.publish m
  | receive other =>
      by_cases hother : other = name
      · subst hother
        exact ⟨_, by simpa [Event.published?, perform] using h.receive⟩
      · have hnone : Event.receipt? name ⟨.receive other, (c.perform (.receive other)).1⟩ =
            none := by
          unfold Event.receipt?
          split <;> simp_all
        refine ⟨pending, by simpa [hnone, Event.published?] using h.accounts, log, next, ?_⟩
        exact ⟨hh.receive, (lookup_receive_of_ne hother).trans hn, hp⟩
  | close =>
      refine ⟨pending, ?_, log, next, ?_⟩
      · simpa [Event.published?, Event.receipt?] using h.accounts
      · exact ⟨⟨hh.published, hh.kept, hh.places⟩, hn, hp⟩

/-- **Any number of steps keep the account of a subscriber.** -/
theorem serves_performAll (h : c.Serves name messages rs pending) {steps : List (Step α)}
    (hk : ∀ s ∈ steps, s.Keeps name) :
    ∃ pending', (c.performAll steps).2.Serves name
      (messages ++ publishedIn (c.performAll steps).1) (rs ++ receipts name (c.performAll steps).1)
      pending' := by
  induction steps generalizing c messages rs pending with
  | nil => exact ⟨pending, by simpa [performAll, publishedIn, receipts] using h⟩
  | cons step steps ih =>
      obtain ⟨pending₁, h₁⟩ := serves_perform h (hk step (by simp))
      obtain ⟨pending₂, h₂⟩ := ih h₁ fun s hs => hk s (by simp [hs])
      refine ⟨pending₂, ?_⟩
      simpa [performAll, List.append_assoc] using h₂

/-- A subscription begins with nothing published and nothing pending. -/
theorem Holds.serves (h : c.Holds log) {d : Channel α} (hd : c.subscribe name = .ok d) :
    d.Serves name [] [] [] := by
  refine ⟨.nil [], log, c.published, h.subscribe hd, ?_, ?_⟩
  · unfold Channel.subscribe at hd
    split at hd
    · cases hd
    · cases hd
      simp
  · exact List.drop_eq_nil_of_le (Nat.le_of_eq h.published.symm)

/-! ### What a run leaves as it is -/

theorem capacity_perform (c : Channel α) (step : Step α) :
    (c.perform step).2.capacity = c.capacity := by
  cases step with
  | subscribe other =>
      unfold perform Channel.subscribe
      split_ifs <;> rfl
  | unsubscribe other => rfl
  | publish m =>
      unfold perform Channel.publish
      split_ifs <;> rfl
  | receive other =>
      obtain hr | ⟨place, hr⟩ := c.receive_eq_moveTo other <;> simp [perform, hr, moveTo]
  | close => rfl

theorem isClosed_perform (c : Channel α) (step : Step α) :
    (c.perform step).2.isClosed = true ↔ c.isClosed = true ∨ .close = step := by
  cases step with
  | subscribe other =>
      unfold perform Channel.subscribe
      split_ifs <;> simp_all
  | unsubscribe other => simp [perform, unsubscribe]
  | publish m =>
      unfold perform Channel.publish
      split_ifs <;> simp_all
  | receive other =>
      obtain hr | ⟨place, hr⟩ := c.receive_eq_moveTo other <;> simp [perform, hr, moveTo]
  | close => simp [perform, close]

/-- Who is subscribed can be read off the events. -/
theorem names_perform (c : Channel α) (step : Step α) :
    (c.perform step).2.subscribers.map Prod.fst =
      subscribedAfter (c.subscribers.map Prod.fst) ⟨step, (c.perform step).1⟩ := by
  have hfilter (name : String) : (c.unsubscribe name).subscribers.map Prod.fst =
      (c.subscribers.map Prod.fst).filter (· != name) := by
    rw [List.filter_map]
    rfl
  cases step with
  | subscribe other =>
      unfold perform Channel.subscribe
      split_ifs
      · rfl
      · simp [subscribedAfter, hfilter]
  | unsubscribe other => exact hfilter other
  | publish m =>
      unfold perform Channel.publish
      split_ifs <;> rfl
  | receive other =>
      obtain hr | ⟨place, hr⟩ := c.receive_eq_moveTo other <;>
        simp [perform, hr, subscribedAfter, names_moveTo]
  | close => rfl

theorem names_performAll (c : Channel α) (steps : List (Step α)) :
    (c.performAll steps).2.subscribers.map Prod.fst =
      (c.performAll steps).1.foldl subscribedAfter (c.subscribers.map Prod.fst) := by
  induction steps generalizing c with
  | nil => rfl
  | cons step steps ih =>
      simp only [performAll, List.foldl_cons]
      rw [ih, names_perform]

theorem capacity_performAll (c : Channel α) (steps : List (Step α)) :
    (c.performAll steps).2.capacity = c.capacity := by
  induction steps generalizing c with
  | nil => rfl
  | cons step steps ih => exact (ih _).trans (capacity_perform c step)

theorem isClosed_performAll (c : Channel α) (steps : List (Step α)) :
    (c.performAll steps).2.isClosed = true ↔ c.isClosed = true ∨ .close ∈ steps := by
  induction steps generalizing c with
  | nil => simp [performAll]
  | cons step steps ih =>
      simp only [performAll, ih, isClosed_perform, List.mem_cons, or_assoc]

theorem nodup_subscribed (events : List (Event α)) : (subscribed events).Nodup := by
  have hstep (names : List String) (event : Event α) (h : names.Nodup) :
      (subscribedAfter names event).Nodup := by
    unfold subscribedAfter
    split
    · exact List.nodup_cons.2 ⟨by simp, h.filter _⟩
    · exact h.filter _
    · exact h
  unfold subscribed
  generalize hn : ([] : List String) = names
  have hnames : names.Nodup := hn ▸ List.nodup_nil
  clear hn
  induction events generalizing names with
  | nil => exact hnames
  | cons event events ih => exact ih _ (hstep names event hnames)

/-! ### What a subscriber can rely on -/

/-- **What a subscriber can rely on**, when these messages have been published since it subscribed
and it has been given these receipts. -/
structure Delivers (c : Channel α) (name : String) (messages : List α) (rs : List (Receipt α)) :
    Prop where
  /-- What it was delivered are some of these messages, in their order and each at most once. -/
  inOrder : (delivered rs).Sublist messages
  /-- Its receipts account for the messages from the oldest on, the others are pending, and what
  it is answered with next depends on them only. -/
  complete : ∃ pending, Accounts rs messages pending ∧
    (delivered rs).length + lost rs + pending.length = messages.length ∧
    (c.receive name).1 = answerTo c.capacity c.isClosed pending ∧
    ((c.receive name).1 = .error .closed ↔ c.isClosed = true ∧ pending = [])

theorem answerTo_eq_closed (isClosed : Bool) (capacity : Nat) :
    answerTo capacity isClosed pending = .error .closed ↔ isClosed = true ∧ pending = [] := by
  unfold answerTo
  cases pending with
  | nil => cases isClosed <;> simp
  | cons m rest => split_ifs <;> simp

theorem Serves.delivers (h : c.Serves name messages rs pending) :
    c.Delivers name messages rs := by
  refine ⟨h.accounts.delivered_sublist, pending, h.accounts, h.accounts.length_eq, h.answer, ?_⟩
  rw [h.answer]
  exact answerTo_eq_closed _ _

/-- **No message is lost silently, repeated or put out of order.**  For every capacity and every
sequence of steps, a subscriber is given what was published after it subscribed, in this order;
what it was given, what it was told that it lost and what is pending make up what was published;
and it is told that the channel is closed only if nothing is pending. -/
theorem performAll_delivers (capacity : Nat) (before after : List (Step α)) (name : String)
    (hopen : .close ∉ before) (hkeeps : ∀ s ∈ after, s.Keeps name) :
    let first := (create capacity : Channel α).performAll before
    let run := first.2.performAll (.subscribe name :: after)
    (∀ m, (first.2.perform (.publish m)).1 = .ok (.reached (subscribed first.1).length)) ∧
      (subscribed first.1).Nodup ∧
      run.2.Delivers name (publishedIn run.1) (receipts name run.1) ∧
      (run.2.isClosed = true ↔ .close ∈ after) ∧
      run.2.capacity = powerAtLeast (max capacity 1) ∧
      (create 0 : Channel α) = create 1 := by
  intro first run
  have hclosed : first.2.isClosed = false := by
    have h := (isClosed_performAll (create capacity : Channel α) before).not
    simpa [first, hopen, show (create capacity : Channel α).isClosed = false from rfl] using h
  have hsubscribe : ∃ d, first.2.subscribe name = .ok d ∧ d.isClosed = false := by
    unfold Channel.subscribe
    simp [hclosed]
  obtain ⟨d, hd, hdc⟩ := hsubscribe
  have hperform : first.2.perform (.subscribe name) = (.ok .done, d) := by simp [perform, hd]
  have hrun : run = (⟨.subscribe name, .ok .done⟩ :: (d.performAll after).1,
      (d.performAll after).2) := by
    simp only [run, performAll, hperform]
  obtain ⟨log, hlog⟩ := (create_holds (α := α) capacity).performAll before
  obtain ⟨pending, hserves⟩ := serves_performAll (hlog.serves hd) hkeeps
  have hnames := names_performAll (create capacity : Channel α) before
  refine ⟨?_, nodup_subscribed _, ?_, ?_, ?_, rfl⟩
  · intro m
    rw [perform_publish hclosed, ← List.length_map (f := Prod.fst), hnames]
    rfl
  · rw [hrun]
    simpa [Event.published?, Event.receipt?] using hserves.delivers
  · simp [hrun, isClosed_performAll, hdc]
  · have hcap : run.2.capacity = first.2.capacity := capacity_performAll _ _
    rw [hcap]
    exact capacity_performAll _ _

/-- A subscriber to a channel for two messages that has read none of four is told once that it
has lost two of them, and goes on with the third. -/
theorem performAll_delivers_slow :
    let before : List (Step Nat) := [.subscribe "b", .publish 7]
    let after : List (Step Nat) :=
      [.publish 0, .publish 1, .publish 2, .publish 3, .receive "a", .receive "a", .publish 4,
        .receive "b", .unsubscribe "b", .close]
    let run := ((create 2 : Channel Nat).performAll before).2.performAll (.subscribe "a" :: after)
    (.close ∉ before ∧ ∀ s ∈ after, s.Keeps "a") ∧
      run.2.Delivers "a" (publishedIn run.1) (receipts "a" run.1) ∧
      publishedIn run.1 = [0, 1, 2, 3, 4] ∧ receipts "a" run.1 = [.skipped 2, .message 2] ∧
      run.2.isClosed = true := by
  intro before after run
  have hopen : Step.close ∉ before := by decide
  have hkeeps : ∀ s ∈ after, s.Keeps "a" := by simp [after, Step.Keeps]
  have h := performAll_delivers 2 before after "a" hopen hkeeps
  exact ⟨⟨hopen, hkeeps⟩, h.2.2.1, by decide +kernel, by decide +kernel, by decide +kernel⟩

end Channel

end CoachLedger.Audit
