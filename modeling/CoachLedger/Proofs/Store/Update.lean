/-
**Setting one field of the records of some coaches.**

The coaches are cut into pieces, with one statement for each piece.  Together the statements set
the cell in the rows of all coaches.  Each row is counted once for each piece that names its coach,
so that the counts add up to the number of these rows if no coach is given twice.

Main definitions:

* `CoachLedger.Store.namings` — how many pieces name the coach of a row;
* `CoachLedger.Store.setIn` — a row with one cell set, if it is of one of some coaches;
* `CoachLedger.Store.IsSettable` — a field whose value may be set.

Main results:

* `CoachLedger.Store.flatten_chunks` — cutting a list into pieces loses nothing;
* `CoachLedger.Store.sum_namings_eq_iff` — when each row is counted once;
* `CoachLedger.Store.setCells_snd`, `CoachLedger.Store.setCells_fst` — the statements together, and
  their counts;
* `CoachLedger.Store.update_ok` — **what setting a field does**.
-/

import CoachLedger.Proofs.Store.Rows

set_option autoImplicit false

namespace CoachLedger.Store

open CoachLedger.Sql (Cell)

variable {kind : RecordKind}

/-! ### Pieces of a list -/

theorem chunks_of_pos {α : Type} {size : Nat} (hs : 0 < size) {l : List α} (hl : l ≠ []) :
    chunks size l = l.take size :: chunks size (l.drop size) := by
  rw [chunks, dif_pos ⟨hs, hl⟩]

@[simp] theorem chunks_nil {α : Type} (size : Nat) : chunks size ([] : List α) = [] := by
  rw [chunks, dif_neg (by simp)]

/-- **Cutting a list into pieces loses nothing.** -/
theorem flatten_chunks {α : Type} {size : Nat} (hs : 0 < size) (l : List α) :
    (chunks size l).flatten = l := by
  induction hn : l.length using Nat.strongRecOn generalizing l with
  | _ n ih =>
      by_cases hl : l = []
      · rw [hl, chunks_nil]
        rfl
      · have hpos : 0 < l.length := List.length_pos_iff.2 hl
        have hlt : (l.drop size).length < n := by
          rw [List.length_drop]
          omega
        rw [chunks_of_pos hs hl, List.flatten_cons, ih _ hlt _ rfl, List.take_append_drop]

/-! ### Rows of coaches -/

/-- The coach of a row is one of those of two lists exactly if it is one of the first or one of the
second. -/
theorem isOneOf_append (cs ds : List String) (row : Cells) :
    isOneOf kind (cs ++ ds) row = (isOneOf kind cs row || isOneOf kind ds row) := by
  unfold isOneOf
  split
  · simp [List.contains_eq_mem, List.mem_append, Bool.decide_or]
  · rfl

theorem isOneOf_nil (row : Cells) : isOneOf kind [] row = false := by
  unfold isOneOf
  split <;> rfl

theorem isOneOf_iff {t : String} {row : Cells} (h : coachOf kind row = .text t)
    (cs : List String) : isOneOf kind cs row = true ↔ t ∈ cs := by
  rw [isOneOf, h]
  exact List.contains_iff_mem

/-- No row is of a coach of two lists without a common member. -/
theorem isOneOf_disjoint {cs ds : List String} (h : ∀ c ∈ cs, ∀ d ∈ ds, c ≠ d) {row : Cells}
    (hc : isOneOf kind cs row = true) : isOneOf kind ds row = false := by
  unfold isOneOf at *
  split at hc
  · rw [Bool.eq_false_iff]
    intro hd
    exact h _ (List.contains_iff_mem.1 hc) _ (List.contains_iff_mem.1 hd) rfl
  · cases hc

/-- A row is one of the coaches of several lists together if it is one of those of one list. -/
theorem isOneOf_flatten (pieces : List (List String)) (row : Cells) :
    isOneOf kind pieces.flatten row = pieces.any fun cs => isOneOf kind cs row := by
  induction pieces with
  | nil => exact isOneOf_nil row
  | cons cs pieces ih => rw [List.flatten_cons, isOneOf_append, ih, List.any_cons]

/-! ### Pieces that name a coach -/

/-- How many pieces of a list name the coach of a row. -/
def namings (kind : RecordKind) (pieces : List (List String)) (row : Cells) : Nat :=
  pieces.countP fun piece => isOneOf kind piece row

theorem namings_cons (piece : List String) (pieces : List (List String)) (row : Cells) :
    namings kind (piece :: pieces) row =
      namings kind pieces row + if isOneOf kind piece row then 1 else 0 :=
  List.countP_cons

theorem namings_pos_iff {pieces : List (List String)} {row : Cells} :
    0 < namings kind pieces row ↔ isOneOf kind pieces.flatten row = true := by
  rw [namings, List.countP_pos_iff, isOneOf_flatten, List.any_eq_true]

/-- If no coach is given twice, each is named by one piece at most. -/
theorem namings_le_one {pieces : List (List String)} (hd : pieces.flatten.Nodup) (row : Cells) :
    namings kind pieces row ≤ 1 := by
  induction pieces with
  | nil => exact Nat.zero_le _
  | cons piece pieces ih =>
      rw [List.flatten_cons] at hd
      obtain ⟨-, hrest, hdisj⟩ := List.nodup_append.1 hd
      rw [namings_cons]
      cases hp : isOneOf kind piece row with
      | false => simpa using ih hrest
      | true =>
          have hnone : ¬0 < namings kind pieces row := by
            rw [namings_pos_iff, isOneOf_disjoint hdisj hp]
            exact Bool.false_ne_true
          rw [if_pos rfl]
          omega

theorem sum_namings_cons (piece : List String) (pieces : List (List String)) (rows : List Cells) :
    (rows.map (namings kind (piece :: pieces))).sum =
      rows.countP (isOneOf kind piece) + (rows.map (namings kind pieces)).sum := by
  induction rows with
  | nil => rfl
  | cons row rows ih =>
      rw [List.map_cons, List.sum_cons, ih, namings_cons, List.countP_cons, List.map_cons,
        List.sum_cons]
      omega

/-- There are at least as many namings as rows of the coaches. -/
theorem countP_le_sum_namings (kind : RecordKind) (pieces : List (List String))
    (rows : List Cells) :
    rows.countP (isOneOf kind pieces.flatten) ≤ (rows.map (namings kind pieces)).sum := by
  induction rows with
  | nil => exact Nat.le_refl _
  | cons row rows ih =>
      rw [List.countP_cons, List.map_cons, List.sum_cons]
      split
      · rename_i h
        have := namings_pos_iff.2 h
        omega
      · omega

/-- **Each row is counted once** if no two pieces name its coach. -/
theorem sum_namings_eq_iff {pieces : List (List String)} {rows : List Cells} :
    (rows.map (namings kind pieces)).sum = rows.countP (isOneOf kind pieces.flatten) ↔
      ∀ row ∈ rows, namings kind pieces row ≤ 1 := by
  induction rows with
  | nil => simp
  | cons row rows ih =>
      have hle := countP_le_sum_namings kind pieces rows
      have hpos : 0 < namings kind pieces row ↔ isOneOf kind pieces.flatten row = true :=
        namings_pos_iff
      rw [List.forall_mem_cons, ← ih, List.countP_cons, List.map_cons, List.sum_cons]
      split
      · rename_i h
        have := hpos.2 h
        omega
      · rename_i h
        have := mt hpos.1 h
        omega

/-! ### Setting cells -/

/-- The row with the cell set, if it is of one of the coaches. -/
def setIn (kind : RecordKind) (coaches : List String) (index : Nat) (cell : Cell) (row : Cells) :
    Cells :=
  if isOneOf kind coaches row then row.set index cell else row

theorem setCell_eq (coaches : List String) (index : Nat) (cell : Cell) (rows : List Cells) :
    setCell kind coaches index cell rows = rows.map (setIn kind coaches index cell) := rfl

section

variable {field : String} {index : Nat} (hi : kind.index? field = some index)
  (hne : field ≠ CoachLedger.identityField)
include hi hne

/-- Setting another field does not change whose row it is. -/
theorem coachOf_setIn (coaches : List String) (cell : Cell) (row : Cells) :
    coachOf kind (setIn kind coaches index cell row) = coachOf kind row := by
  unfold setIn
  split
  · exact cellAt_set_of_ne hi hne.symm cell
  · rfl

theorem isOneOf_setIn (coaches others : List String) (cell : Cell) (row : Cells) :
    isOneOf kind others (setIn kind coaches index cell row) = isOneOf kind others row := by
  rw [isOneOf, coachOf_setIn hi hne, isOneOf]

/-- Setting the same cell twice is setting it for the coaches of both lists. -/
theorem setIn_setIn (cs ds : List String) (cell : Cell) (row : Cells) :
    setIn kind ds index cell (setIn kind cs index cell row) =
      setIn kind (cs ++ ds) index cell row := by
  rw [setIn, isOneOf_setIn hi hne, setIn, setIn, isOneOf_append]
  cases isOneOf kind cs row <;> cases isOneOf kind ds row <;> simp

/-- **The statements together set the cell in the rows of all coaches.** -/
theorem setCells_snd (cell : Cell) (count : Nat) (rows : List Cells) (pieces : List (List String)) :
    (setCells kind index cell count rows pieces).2 =
      rows.map (setIn kind pieces.flatten index cell) := by
  induction pieces generalizing count rows with
  | nil =>
      have hid : setIn kind [] index cell = id := by
        funext row
        rw [setIn, isOneOf_nil]
        rfl
      rw [List.flatten_nil, hid, List.map_id]
      rfl
  | cons cs pieces ih =>
      rw [setCells, ih, setCell_eq, List.map_map, List.flatten_cons]
      refine List.map_congr_left ?_
      intro row _
      exact setIn_setIn hi hne cs pieces.flatten cell row

theorem namings_setIn (coaches : List String) (cell : Cell) (pieces : List (List String))
    (row : Cells) :
    namings kind pieces (setIn kind coaches index cell row) = namings kind pieces row :=
  List.countP_congr fun piece _ => by rw [isOneOf_setIn hi hne]

/-- **The counts add up to the namings of the rows.** -/
theorem setCells_fst (cell : Cell) (count : Nat) (rows : List Cells)
    (pieces : List (List String)) :
    (setCells kind index cell count rows pieces).1 =
      count + (rows.map (namings kind pieces)).sum := by
  induction pieces generalizing count rows with
  | nil =>
      have hzero : rows.map (namings kind []) = rows.map fun _ => 0 :=
        List.map_congr_left fun row _ => rfl
      rw [hzero, List.map_const', List.sum_replicate, setCells]
      rfl
  | cons piece pieces ih =>
      -- Setting the field leaves the coach numbers alone, by which the next statements select.
      have hrest : (setCell kind piece index cell rows).map (namings kind pieces) =
          rows.map (namings kind pieces) := by
        rw [setCell_eq, List.map_map]
        exact List.map_congr_left fun row _ => namings_setIn hi hne piece cell pieces row
      rw [setCells, ih, hrest, sum_namings_cons, Nat.add_assoc]

end

/-! ### Updates -/

/-- A field other than the key and the coach number, whose value may be set. -/
structure IsSettable (kind : RecordKind) (field : String) (index : Nat) (f : Field) : Prop where
  field? : kind.field? field = some f
  index? : kind.index? field = some index
  ne_identity : field ≠ CoachLedger.identityField
  ne_key : field ≠ kind.keyField

/-- Setting a field that may be set is setting cells piece by piece. -/
theorem setCells_of_update {s t : Store} {coaches : List String} {field : String} {v : Value}
    {n : Nat} (h : s.update kind coaches field v = .ok (n, t)) :
    ∃ index f rows, IsSettable kind field index f ∧ v.Fits f.kind ∧
      setCells kind index (cellFor f.kind v) 0 (s.rows kind) (chunks (maxBound - 1) coaches) =
        (n, rows) ∧ t = s.withRows kind rows := by
  unfold update at h
  split at h
  · cases h
  · rename_i hcheck
    split at h
    · cases h
    · rename_i hro
      rw [not_or] at hro
      split at h
      · rename_i f index hf hi
        simp only [Except.ok.injEq, Prod.mk.injEq] at h
        obtain ⟨rfl, rfl⟩ := h
        obtain ⟨g, hg, hfits⟩ := Record.check_eq_ok_iff.1 hcheck
        rw [hf] at hg
        obtain rfl := Option.some.inj hg
        exact ⟨index, f, _, ⟨hf, hi, hro.1, hro.2⟩, hfits, rfl, rfl⟩
      · cases h

/-- **What setting a field does.** -/
theorem update_ok {s t : Store} {coaches : List String} {field : String} {v : Value} {n : Nat}
    (h : s.update kind coaches field v = .ok (n, t)) :
    ∃ index f, IsSettable kind field index f ∧ v.Fits f.kind ∧
      (coaches.Nodup → n = (s.rows kind).countP (isOneOf kind coaches)) ∧
      t = s.withRows kind ((s.rows kind).map (setIn kind coaches index (cellFor f.kind v))) := by
  -- The pieces together are the list of coaches again.
  have hflat : (chunks (maxBound - 1) coaches).flatten = coaches :=
    flatten_chunks (by decide) coaches
  obtain ⟨index, f, rows, hset, hfits, hcells, rfl⟩ := setCells_of_update h
  refine ⟨index, f, hset, hfits, ?_, ?_⟩
  · intro hd
    have hcount := congrArg Prod.fst hcells
    rw [setCells_fst hset.index? hset.ne_identity, Nat.zero_add, sum_namings_eq_iff.2, hflat]
      at hcount
    · exact hcount.symm
    · exact fun row _ => namings_le_one (by rw [hflat]; exact hd) row
  · have hrows := congrArg Prod.snd hcells
    rw [setCells_snd hset.index? hset.ne_identity, hflat] at hrows
    exact congrArg (s.withRows kind) hrows.symm

/-- Setting a field fails only on what can be said without the records. -/
theorem update_eq_ok {field : String} {index : Nat} {f : Field}
    (hs : IsSettable kind field index f) {v : Value} (hv : v.Fits f.kind) (s : Store)
    (coaches : List String) :
    ∃ n, s.update kind coaches field v =
      .ok (n, s.withRows kind
        ((s.rows kind).map (setIn kind coaches index (cellFor f.kind v)))) := by
  have hcheck : Record.check kind field v = .ok () :=
    Record.check_eq_ok_iff.2 ⟨f, hs.field?, hv⟩
  unfold update
  rw [hcheck]
  dsimp only
  rw [if_neg (not_or.2 ⟨hs.ne_identity, hs.ne_key⟩), hs.field?, hs.index?]
  refine ⟨(setCells kind index (cellFor f.kind v) 0 (s.rows kind)
    (chunks (maxBound - 1) coaches)).1, ?_⟩
  dsimp only
  rw [setCells_snd hs.index? hs.ne_identity, flatten_chunks (by decide)]

end CoachLedger.Store
