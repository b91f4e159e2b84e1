/-
**Work that follows a function of the tables.**

Work on a connection follows a function of the tables if it answers what the function answers and
leaves the tables that the function leaves, unless the engine fails one of its statements.  Reading
and writing statement by statement follow reading and writing in one go, and a transaction that
fails leaves the tables as they were, whatever the statements inside of it have written, unless the
engine gives up the transactions around it as well.

Main definitions:

* `CoachLedger.Connection.GaveUp` — all transactions that were open have been undone;
* `CoachLedger.Work.Follows` — the work follows the function;
* `CoachLedger.Work.Restores` — a failure of the work leaves the tables as they were.

Main results:

* `CoachLedger.Work.Follows.bind` — work after work follows function after function;
* `CoachLedger.Work.follows_transaction`, `CoachLedger.Work.restores_transaction` — **a transaction
  follows the work inside of it, and leaves nothing behind if it fails**;
* `CoachLedger.Work.follows_get`, `CoachLedger.Work.follows_update`,
  `CoachLedger.Work.follows_upsert`, `CoachLedger.Work.follows_log` — the statements that read and
  write.
-/

import CoachLedger.Proofs.Store.Sound
import CoachLedger.Store.Connection

set_option autoImplicit false

namespace CoachLedger

open CoachLedger.Sql (Cell)

namespace Connection

/-- All transactions that were open on the first connection have been undone on the second one. -/
def GaveUp (c d : Connection) : Prop :=
  d.saved = [] ∧ c.saved.getLast? = some d.tables

theorem faults_rollback (c : Connection) : c.rollback.faults = c.faults := by
  unfold rollback
  split <;> rfl

/-- Where no transaction was open, none has been undone. -/
theorem not_gaveUp {c d : Connection} (h : c.saved = []) : ¬ c.GaveUp d := by
  rintro ⟨-, hlast⟩
  rw [h] at hlast
  cases hlast

/-- Either no transaction was open, or all of them have been undone. -/
theorem abandoned_cases (c : Connection) :
    (c.saved = [] ∧ c.abandoned = c) ∨ c.GaveUp c.abandoned := by
  obtain ⟨tables, saved, faults⟩ := c
  cases saved with
  | nil => exact .inl ⟨rfl, rfl⟩
  | cons t ts =>
      refine .inr ⟨rfl, ?_⟩
      rw [abandoned, List.getLast?_eq_some_getLast (List.cons_ne_nil t ts)]
      rfl

end Connection

namespace Work

variable {ε δ α β : Type}

/-- A function of the tables: what comes of it and the tables after it, or a failure. -/
abbrev Action (ε α : Type) : Type := Store → Except ε (α × Store)

/-- The work does what the function does.  It leaves the transactions that are open alone, unless it
fails and all of them are undone, and it fails only where the function does or the engine fails a
statement. -/
structure Follows (w : Work ε α) (f : Action ε α) : Prop where
  ok : ∀ c a d, w c = (.ok a, d) → f c.tables = .ok (a, d.tables) ∧ d.saved = c.saved
  error : ∀ c e d, w c = (.error e, d) → d.saved = c.saved ∨ c.GaveUp d
  steady : ∀ c, c.faults = [] → (w c).2.faults = [] ∧ (w c).1 = (f c.tables).map Prod.fst

/-- A failure of the work leaves the tables as they were, with the same transactions open, unless
all of them are undone. -/
def Restores (w : Work ε α) : Prop :=
  ∀ c e d, w c = (.error e, d) → (d.tables = c.tables ∧ d.saved = c.saved) ∨ c.GaveUp d

/-- Where no transaction is open, a failure leaves the tables as they were. -/
theorem Restores.tables {w : Work ε α} (h : Restores w) {s : Store} {faults : List Bool} {e : ε}
    {d : Connection} (hw : w ⟨s, [], faults⟩ = (.error e, d)) : d.tables = s := by
  rcases h _ e d hw with ⟨htables, -⟩ | hgave
  · exact htables
  · exact absurd hgave (Connection.not_gaveUp rfl)

/-! ### Work after work -/

theorem follows_done (a : α) : Follows (done a : Work ε α) fun s => .ok (a, s) := by
  refine ⟨?_, ?_, fun c hc => ⟨hc, rfl⟩⟩
  · intro c b d h
    obtain ⟨hb, rfl⟩ := Prod.mk.inj h
    rw [Except.ok.inj hb]
    exact ⟨rfl, rfl⟩
  · intro c e d h
    cases h

theorem follows_fail (e : ε) : Follows (fail e : Work ε α) fun _ => .error e := by
  refine ⟨?_, ?_, fun c hc => ⟨hc, rfl⟩⟩
  · intro c b d h
    cases h
  · intro c e' d h
    rw [← (Prod.mk.inj h).2]
    exact .inl rfl

theorem bind_of_ok {w : Work ε α} {k : α → Work ε β} {c d : Connection} {a : α}
    (h : w c = (.ok a, d)) : (w >>= k) c = k a d := by
  change andThen w k c = _
  unfold andThen
  rw [h]

theorem bind_of_error {w : Work ε α} {k : α → Work ε β} {c d : Connection} {e : ε}
    (h : w c = (.error e, d)) : (w >>= k) c = (.error e, d) := by
  change andThen w k c = _
  unfold andThen
  rw [h]

/-- **Work after work follows function after function.** -/
theorem Follows.bind {w : Work ε α} {f : Action ε α} {k : α → Work ε β} {g : α → Action ε β}
    (hw : Follows w f) (hk : ∀ a, Follows (k a) (g a)) :
    Follows (w >>= k) fun s => (f s).bind fun p => g p.1 p.2 := by
  refine ⟨?_, ?_, ?_⟩
  · intro c b d h
    cases hr : w c with
    | mk r c' =>
        cases r with
        | ok a =>
            rw [bind_of_ok hr] at h
            obtain ⟨hf, hsaved⟩ := hw.ok c a c' hr
            obtain ⟨hg, hsaved'⟩ := (hk a).ok c' b d h
            rw [hf]
            exact ⟨hg, hsaved'.trans hsaved⟩
        | error e =>
            rw [bind_of_error hr] at h
            cases h
  · intro c e d h
    cases hr : w c with
    | mk r c' =>
        cases r with
        | ok a =>
            rw [bind_of_ok hr] at h
            obtain ⟨-, hsaved⟩ := hw.ok c a c' hr
            rw [← hsaved, Connection.GaveUp, ← hsaved]
            exact (hk a).error c' e d h
        | error e' =>
            rw [bind_of_error hr] at h
            obtain ⟨-, rfl⟩ := Prod.mk.inj h
            exact hw.error c e' _ hr
  · intro c hc
    -- Without faults the first work leaves none to the second.
    obtain ⟨hfaults, hanswer⟩ := hw.steady c hc
    cases hr : w c with
    | mk r c' =>
        rw [hr] at hfaults hanswer
        cases r with
        | ok a =>
            rw [bind_of_ok hr, (hw.ok c a c' hr).1]
            exact (hk a).steady c' hfaults
        | error e =>
            rw [bind_of_error hr]
            refine ⟨hfaults, ?_⟩
            cases hf : f c.tables with
            | ok p =>
                rw [hf] at hanswer
                cases hanswer
            | error e' =>
                rw [hf] at hanswer
                cases hanswer
                rfl

theorem Follows.failAs {w : Work ε α} {f : Action ε α} (h : Follows w f) (g : ε → δ) :
    Follows (w.failAs g) fun s => (f s).mapError g := by
  refine ⟨?_, ?_, ?_⟩
  · intro c a d ha
    obtain ⟨hr, hd⟩ := Prod.mk.inj ha
    cases hw : w c with
    | mk r c' =>
        rw [hw] at hr hd
        cases r with
        | ok b =>
            obtain rfl := Except.ok.inj hr
            obtain ⟨hf, hsaved⟩ := h.ok c b c' hw
            rw [hf, ← hd]
            exact ⟨rfl, hsaved⟩
        | error e => cases hr
  · intro c e d he
    obtain ⟨hr, hd⟩ := Prod.mk.inj he
    cases hw : w c with
    | mk r c' =>
        rw [hw] at hr hd
        cases r with
        | ok b => cases hr
        | error e' => exact hd ▸ h.error c e' c' hw
  · intro c hc
    obtain ⟨hfaults, hanswer⟩ := h.steady c hc
    refine ⟨hfaults, ?_⟩
    change ((w c).1.mapError g) = _
    rw [hanswer]
    cases f c.tables <;> rfl

/-- Work follows each function that answers as one that it follows. -/
theorem Follows.congr {w : Work ε α} {f g : Action ε α} (h : Follows w f) (he : ∀ s, f s = g s) :
    Follows w g := by
  rw [← funext he]
  exact h

/-! ### Statements -/

/-- What a statement does if the engine does not fail it. -/
theorem statement_of_ok {engine : ε} (f : Action ε α) {c : Connection}
    (hc : c.isFaulty = false) {a : α}
    {tables : Store} (h : f c.tables = .ok (a, tables)) :
    statement engine f c = (.ok a, { c.next with tables := tables }) := by
  unfold statement ask
  rw [hc, if_neg Bool.false_ne_true]
  have h' : f c.next.tables = .ok (a, tables) := h
  dsimp only
  rw [h']

theorem statement_of_error {engine : ε} (f : Action ε α) {c : Connection}
    (hc : c.isFaulty = false) {e : ε}
    (h : f c.tables = .error e) : statement engine f c = (.error e, c.next) := by
  unfold statement ask
  rw [hc, if_neg Bool.false_ne_true]
  have h' : f c.next.tables = .error e := h
  dsimp only
  rw [h']

theorem statement_of_isFaulty {engine : ε} (f : Action ε α) {c : Connection}
    (hc : c.isFaulty = true) :
    statement engine f c = (.error engine, c.next) := by
  unfold statement ask
  rw [if_pos hc]

/-- A statement that fails leaves the tables and the open transactions as they were. -/
theorem statement_restores {engine e : ε} {f : Action ε α} {c d : Connection}
    (h : statement engine f c = (.error e, d)) : d.tables = c.tables ∧ d.saved = c.saved := by
  cases hf : c.isFaulty with
  | true =>
      rw [statement_of_isFaulty f hf] at h
      rw [← (Prod.mk.inj h).2]
      exact ⟨rfl, rfl⟩
  | false =>
      cases hr : f c.tables with
      | ok p =>
          rw [statement_of_ok f hf hr] at h
          cases h
      | error e' =>
          rw [statement_of_error f hf hr] at h
          rw [← (Prod.mk.inj h).2]
          exact ⟨rfl, rfl⟩

theorem follows_statement (engine : ε) (f : Action ε α) : Follows (statement engine f) f := by
  refine ⟨?_, ?_, ?_⟩
  · intro c a d h
    cases hf : c.isFaulty with
    | true =>
        rw [statement_of_isFaulty f hf] at h
        cases h
    | false =>
        cases hr : f c.tables with
        | ok p =>
            rw [statement_of_ok f hf hr] at h
            obtain ⟨ha, rfl⟩ := Prod.mk.inj h
            rw [← Except.ok.inj ha]
            exact ⟨rfl, rfl⟩
        | error e =>
            rw [statement_of_error f hf hr] at h
            cases h
  · intro c e d h
    exact .inl (statement_restores h).2
  · intro c hc
    have hf : c.isFaulty = false := by rw [Connection.isFaulty, hc]; rfl
    have hnext : c.next.faults = [] := by rw [Connection.next, hc]; rfl
    cases hr : f c.tables with
    | ok p =>
        rw [statement_of_ok f hf hr]
        exact ⟨hnext, rfl⟩
    | error e =>
        rw [statement_of_error f hf hr]
        exact ⟨hnext, rfl⟩

/-! ### Transactions -/

theorem begin_of_isFaulty {engine : ε} {c : Connection} (hc : c.isFaulty = true) :
    begin engine c = (.error engine, c.next) := by
  unfold begin ask
  rw [if_pos hc]

theorem begin_of_not_isFaulty {engine : ε} {c : Connection} (hc : c.isFaulty = false) :
    begin engine c = (.ok (), c.next.opened) := by
  unfold begin ask
  rw [hc, if_neg Bool.false_ne_true]

theorem commit_of_isFaulty {engine : ε} {c : Connection} (hc : c.isFaulty = true) :
    commit engine c = (.error engine, c.next) := by
  unfold commit ask
  rw [if_pos hc]

theorem commit_of_not_isFaulty {engine : ε} {c : Connection} (hc : c.isFaulty = false) :
    commit engine c = (.ok (), c.next.closed) := by
  unfold commit ask
  rw [hc, if_neg Bool.false_ne_true]

theorem orRollback_of_ok {w : Work ε α} {c d : Connection} {a : α} (h : w c = (.ok a, d)) :
    orRollback w c = (.ok a, d) := by
  unfold orRollback
  rw [h]

theorem orRollback_of_error {w : Work ε α} {c d : Connection} {e : ε}
    (h : w c = (.error e, d)) : orRollback w c = (.error e, d.rollback) := by
  unfold orRollback
  rw [h]

/-- How a transaction goes: it does not begin, the work inside of it fails, it cannot be ended, or
it ends. -/
theorem transaction_cases (engine : ε) (w : Work ε α) (c : Connection) :
    (c.isFaulty = true ∧ transaction engine w c = (.error engine, c.next)) ∨
    (∃ e d, w c.next.opened = (.error e, d) ∧ transaction engine w c = (.error e, d.rollback)) ∨
    (∃ a d, w c.next.opened = (.ok a, d) ∧ d.isFaulty = true ∧
      transaction engine w c = (.error engine, d.next.rollback)) ∨
    ∃ a d, w c.next.opened = (.ok a, d) ∧ transaction engine w c = (.ok a, d.next.closed) := by
  unfold transaction
  cases hc : c.isFaulty with
  | true => exact .inl ⟨rfl, bind_of_error (begin_of_isFaulty hc)⟩
  | false =>
      rw [bind_of_ok (begin_of_not_isFaulty hc)]
      cases hw : w c.next.opened with
      | mk r d =>
          cases r with
          | error e => exact .inr (.inl ⟨e, d, rfl, orRollback_of_error (bind_of_error hw)⟩)
          | ok a =>
              cases hd : d.isFaulty with
              | true =>
                  refine .inr (.inr (.inl ⟨a, d, rfl, hd, orRollback_of_error ?_⟩))
                  rw [bind_of_ok hw]
                  exact bind_of_error (commit_of_isFaulty hd)
              | false =>
                  refine .inr (.inr (.inr ⟨a, d, rfl, orRollback_of_ok ?_⟩))
                  rw [bind_of_ok hw, bind_of_ok (commit_of_not_isFaulty hd)]
                  rfl

/-- Undoing a transaction goes back to the tables and the open transactions of before, unless all
of them have been undone by then. -/
theorem Follows.rollback {w : Work ε α} {f : Action ε α} (h : Follows w f) {c d : Connection}
    {r : Except ε α} (hw : w c.next.opened = (r, d)) :
    (d.rollback.tables = c.tables ∧ d.rollback.saved = c.saved) ∨ c.GaveUp d.rollback := by
  have hcases : d.saved = c.tables :: c.saved ∨ c.next.opened.GaveUp d := by
    cases r with
    | ok a => exact .inl (h.ok _ a d hw).2
    | error e => exact h.error _ e d hw
  rcases hcases with hsaved | ⟨hnil, hlast⟩
  · rw [Connection.rollback_eq hsaved]
    exact .inl ⟨rfl, rfl⟩
  · have hd : d.rollback = d := by rw [Connection.rollback, hnil]
    have hlast' : (c.tables :: c.saved).getLast? = some d.tables := hlast
    rw [hd]
    -- If this was the outermost transaction, nothing else has been undone.
    cases hc : c.saved with
    | nil =>
        rw [hc] at hlast'
        exact .inl ⟨(Option.some.inj hlast').symm, hnil⟩
    | cons t ts =>
        rw [hc, List.getLast?_cons_cons] at hlast'
        exact .inr ⟨hnil, by rw [hc]; exact hlast'⟩

/-- The same where the transaction cannot be ended. -/
theorem Follows.rollback_next {w : Work ε α} {f : Action ε α} (h : Follows w f) {c d : Connection}
    {a : α} (hw : w c.next.opened = (.ok a, d)) :
    d.next.rollback.tables = c.tables ∧ d.next.rollback.saved = c.saved := by
  have hnext : d.next.saved = c.tables :: c.saved := (h.ok _ a d hw).2
  rw [Connection.rollback_eq hnext]
  exact ⟨rfl, rfl⟩

/-- **A transaction that fails leaves the tables as they were.** -/
theorem restores_transaction (engine : ε) {w : Work ε α} {f : Action ε α} (h : Follows w f) :
    Restores (transaction engine w) := by
  intro c e d hd
  rcases transaction_cases engine w c with
    ⟨-, ht⟩ | ⟨e', d', hw, ht⟩ | ⟨a, d', hw, -, ht⟩ | ⟨a, d', -, ht⟩
  · rw [ht] at hd
    rw [← (Prod.mk.inj hd).2]
    exact .inl ⟨rfl, rfl⟩
  · rw [ht] at hd
    rw [← (Prod.mk.inj hd).2]
    exact h.rollback hw
  · rw [ht] at hd
    rw [← (Prod.mk.inj hd).2]
    exact .inl (h.rollback_next hw)
  · rw [ht] at hd
    cases hd

/-- **A transaction follows the work inside of it.** -/
theorem follows_transaction (engine : ε) {w : Work ε α} {f : Action ε α} (h : Follows w f) :
    Follows (transaction engine w) f := by
  refine ⟨?_, ?_, ?_⟩
  · intro c b d hd
    rcases transaction_cases engine w c with
      ⟨-, ht⟩ | ⟨e, d', -, ht⟩ | ⟨a, d', -, -, ht⟩ | ⟨a, d', hw, ht⟩
    · rw [ht] at hd
      cases hd
    · rw [ht] at hd
      cases hd
    · rw [ht] at hd
      cases hd
    · rw [ht] at hd
      obtain ⟨ha, rfl⟩ := Prod.mk.inj hd
      rw [← Except.ok.inj ha]
      obtain ⟨hf, hsaved⟩ := h.ok c.next.opened a d' hw
      exact ⟨hf, congrArg List.tail hsaved⟩
  · intro c e d hd
    exact (restores_transaction engine h c e d hd).imp_left And.right
  · intro c hc
    -- Without faults the work goes on where the transaction began, and the transaction ends.
    have hnext : c.next.opened.faults = [] := by rw [Connection.opened, Connection.next, hc]; rfl
    obtain ⟨hfaults, hanswer⟩ := h.steady c.next.opened hnext
    have hsteady : ∀ {d : Connection}, d.faults = [] → d.isFaulty = false ∧ d.next.faults = [] :=
      fun hd => by
        rw [Connection.isFaulty, Connection.next, hd]
        exact ⟨rfl, rfl⟩
    rcases transaction_cases engine w c with
      ⟨hfault, -⟩ | ⟨e, d, hw, ht⟩ | ⟨a, d, hw, hfault, -⟩ | ⟨a, d, hw, ht⟩
    · rw [(hsteady hc).1] at hfault
      cases hfault
    · rw [hw] at hfaults hanswer
      rw [ht]
      exact ⟨(Connection.faults_rollback d).trans hfaults, hanswer⟩
    · rw [hw] at hfaults
      rw [(hsteady hfaults).1] at hfault
      cases hfault
    · rw [hw] at hfaults hanswer
      rw [ht]
      exact ⟨(hsteady hfaults).2, hanswer⟩

/-! ### Reading and writing -/

theorem follows_fetch (kind : RecordKind) (pieces : List (List String)) :
    Follows (fetch kind pieces) fun s =>
      .ok (pieces.flatMap (Store.rowsOf kind (s.rows kind)), s) := by
  induction pieces with
  | nil => exact follows_done []
  | cons coaches rest ih =>
      have h := (follows_statement Store.Failure.engine
        fun s => .ok (Store.rowsOf kind (s.rows kind) coaches, s)).bind fun found =>
          ih.bind fun others => follows_done (found ++ others)
      exact h.congr fun s => rfl

/-- Reading statement by statement is reading in one go. -/
theorem follows_get (kind : RecordKind) (coaches : List String) :
    Follows (get kind coaches) fun s => .ok (s.get kind coaches, s) := by
  have hsort (found : List Store.Cells) :
      Follows (done ((found.map (Store.decode kind)).mergeSort (Store.keyLE kind)) :
        Work Store.Failure (List Record)) _ := follows_done _
  exact ((follows_fetch kind (Store.chunks Store.maxBound coaches)).bind hsort).congr fun s => rfl

theorem withRows_rows (s : Store) (kind : RecordKind) : s.withRows kind (s.rows kind) = s := by
  cases kind <;> rfl

theorem withRows_withRows (s : Store) (kind : RecordKind) (rows others : List Store.Cells) :
    (s.withRows kind rows).withRows kind others = s.withRows kind others := by
  cases kind <;> rfl

theorem follows_setPieces (kind : RecordKind) (index : Nat) (cell : Cell) (count : Nat)
    (pieces : List (List String)) :
    Follows (setPieces kind index cell count pieces) fun s =>
      .ok ((Store.setCells kind index cell count (s.rows kind) pieces).1,
        s.withRows kind (Store.setCells kind index cell count (s.rows kind) pieces).2) := by
  induction pieces generalizing count with
  | nil =>
      refine (follows_done count).congr ?_
      intro s
      rw [Store.setCells, withRows_rows]
  | cons coaches rest ih =>
      have h := (follows_statement Store.Failure.engine fun s =>
        .ok ((s.rows kind).countP (Store.isOneOf kind coaches),
          s.withRows kind (Store.setCell kind coaches index cell (s.rows kind)))).bind fun n =>
        ih (count + n)
      refine h.congr ?_
      intro s
      simp only [Except.bind, Store.setCells, Store.rows_withRows_self, withRows_withRows]

/-- Setting a field statement by statement, inside of a transaction, is setting it in one go. -/
theorem follows_update (kind : RecordKind) (coaches : List String) (field : String) (v : Value) :
    Follows (update kind coaches field v) fun s => s.update kind coaches field v := by
  unfold update Store.update
  cases Record.check kind field v with
  | error e => exact follows_fail _
  | ok _ =>
      dsimp only
      by_cases hro : field = CoachLedger.identityField ∨ field = kind.keyField
      · simp only [if_pos hro]
        exact follows_fail _
      · simp only [if_neg hro]
        cases hf : kind.field? field with
        | none => exact follows_fail _
        | some f =>
            cases hi : kind.index? field with
            | none => exact follows_fail _
            | some i =>
                dsimp only
                cases coaches with
                | nil =>
                    refine (follows_done 0).congr ?_
                    intro s
                    rw [Store.chunks_nil, Store.setCells, withRows_rows]
                | cons coach rest => exact follows_transaction _ (follows_setPieces ..)

/-- How work goes that the engine may give up. -/
theorem orAbandon_cases (full : Store → Bool) (w : Work ε α) (c : Connection) :
    (∃ a d, w c = (.ok a, d) ∧ w.orAbandon full c = (.ok a, d)) ∨
      ∃ e d, w c = (.error e, d) ∧
        w.orAbandon full c = (.error e, if full c.tables then d.abandoned else d) := by
  unfold orAbandon
  cases hw : w c with
  | mk r d =>
      cases r with
      | ok a => exact .inl ⟨a, d, rfl, rfl⟩
      | error e => exact .inr ⟨e, d, rfl, rfl⟩

/-- Work that the engine may give up follows what the work follows. -/
theorem Follows.orAbandon {w : Work ε α} {f : Action ε α} (h : Follows w f)
    (full : Store → Bool) : Follows (w.orAbandon full) f := by
  refine ⟨?_, ?_, ?_⟩
  · intro c a d ha
    rcases orAbandon_cases full w c with ⟨b, d', hw, ht⟩ | ⟨e, d', hw, ht⟩
    · rw [ht, ← hw] at ha
      exact h.ok c a d ha
    · rw [ht] at ha
      cases ha
  · intro c e d he
    rcases orAbandon_cases full w c with ⟨b, d', hw, ht⟩ | ⟨e', d', hw, ht⟩
    · rw [ht] at he
      cases he
    · rw [ht] at he
      have hd := h.error c e' d' hw
      rw [← (Prod.mk.inj he).2]
      split
      · -- What is open has been undone either by the work or now.
        rcases hd with hsaved | hgave
        · rcases d'.abandoned_cases with ⟨-, hsame⟩ | ⟨hnil, hlast⟩
          · rw [hsame]
            exact .inl hsaved
          · exact .inr ⟨hnil, by rw [← hsaved]; exact hlast⟩
        · rcases d'.abandoned_cases with ⟨-, hsame⟩ | hgave'
          · rw [hsame]
            exact .inr hgave
          · exact absurd hgave' (Connection.not_gaveUp hgave.1)
      · exact hd
  · intro c hc
    obtain ⟨hfaults, hanswer⟩ := h.steady c hc
    rcases orAbandon_cases full w c with ⟨b, d', hw, ht⟩ | ⟨e', d', hw, ht⟩
    · rw [hw] at hfaults hanswer
      rw [ht]
      exact ⟨hfaults, hanswer⟩
    · rw [hw] at hfaults hanswer
      rw [ht]
      refine ⟨?_, hanswer⟩
      split
      · exact hfaults
      · exact hfaults

theorem follows_put (r : Record) : Follows (put r) fun s => s.upsertOne r := by
  unfold put
  by_cases hid : r.identity?.isNone = true
  · rw [if_pos hid]
    refine (follows_fail _).congr fun s => ?_
    rw [Store.upsertOne, if_pos hid]
  · rw [if_neg hid]
    exact (follows_statement _ _).orAbandon _

theorem follows_putAll (count : Nat) (rs : List Record) :
    Follows (putAll count rs) fun s => s.upsertFrom count rs := by
  induction rs generalizing count with
  | nil => exact follows_done count
  | cons r rs ih =>
      refine ((follows_put r).bind (g := fun n s => s.upsertFrom (count + n) rs)
        fun n => ih (count + n)).congr fun s => ?_
      rw [Store.upsertFrom]
      cases s.upsertOne r <;> rfl

/-- Putting records in statement by statement, inside of a transaction, is putting them in in one
go. -/
theorem follows_upsert (rs : List Record) : Follows (upsert rs) fun s => s.upsert rs := by
  unfold upsert
  cases rs with
  | nil => exact follows_done 0
  | cons r rs => exact follows_transaction _ (follows_putAll 0 (r :: rs))

theorem follows_log (entry : Audit.Entry) (change : Option Audit.Change) :
    Follows (log entry change) fun s => s.log entry change :=
  follows_statement _ _

/-! ### Outcomes -/

/-- How work on a new connection goes that follows a function and leaves nothing behind if it fails:
it fails with the tables as they were, and without faults only if the function does, or it does what
the function does. -/
theorem Follows.outcome {w : Work ε α} {f : Action ε α} (hw : Follows w f) (hr : Restores w)
    (s : Store) (faults : List Bool) :
    (∃ e c, w ⟨s, [], faults⟩ = (.error e, c) ∧ c.tables = s ∧ (faults = [] → f s = .error e)) ∨
      ∃ a c, w ⟨s, [], faults⟩ = (.ok a, c) ∧ f s = .ok (a, c.tables) := by
  cases h : w ⟨s, [], faults⟩ with
  | mk r c =>
      cases r with
      | ok a => exact .inr ⟨a, c, rfl, (hw.ok _ a c h).1⟩
      | error e =>
          refine .inl ⟨e, c, rfl, hr.tables h, ?_⟩
          rintro rfl
          have hanswer := (hw.steady ⟨s, [], []⟩ rfl).2
          rw [h] at hanswer
          cases hf : f s with
          | ok p =>
              rw [hf] at hanswer
              cases hanswer
          | error e' =>
              rw [hf] at hanswer
              rw [Except.error.inj hanswer]

end Work

end CoachLedger
