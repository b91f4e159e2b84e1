/-
**Positions and identifiers.**

Two arrays whose entries have the same identifiers at the same positions are aligned by identifiers
as they are by position, even if identifiers occur twice or are missing, and so the change between
them is the same.

An entry without an identifier is tagged with a position.  By position these tags are different.  By
identifiers they need not be: a new entry is tagged with its position in the new array, and an old
entry that is left over with its position in the old array, which may be the same number.

Main definitions:

* `CoachLedger.Audit.positionTags` — the tags that are positions;
* `CoachLedger.Audit.CarriesTag` — the fragments of an entry carry a tag;
* `CoachLedger.Audit.leftOver` — the positions of the old entries without an identifier that are
  left over.

Main results:

* `CoachLedger.Audit.alignByIdentifier_self` — equal identifiers are aligned by position;
* `CoachLedger.Audit.change_ignoresAlignment` — **the alignment does not matter** for arrays that
  line up;
* `CoachLedger.Audit.mem_leftOver_iff` — the pairs of the entries that are left over;
* `CoachLedger.Audit.change_tagsPositions` — **when positions are different tags**;
* `CoachLedger.Audit.not_nodup_positionTags` — two entries with the same tag.
-/

import CoachLedger.Proofs.Audit.Pairing

set_option autoImplicit false

namespace CoachLedger.Audit

variable {o : Options} {xs ys : List Json} {old new : Json} {c : Change}

/-! ### Arrays that line up -/

theorem alignByPosition_self (n : Nat) :
    alignByPosition n n = (List.range n).map fun i => ⟨some i, some i⟩ := by
  rw [alignByPosition, Nat.max_self]
  refine List.map_congr_left fun i hi => ?_
  rw [if_pos (List.mem_range.1 hi)]

/-- **Equal identifiers are aligned by position.** -/
theorem alignByIdentifier_self (keys : List (Option String)) :
    alignByIdentifier (indexed keys) (indexed keys) =
      alignByPosition keys.length keys.length := by
  rw [alignByIdentifier_eq, pairUp_self, alignByPosition_self, ← map_fst_indexed, List.map_map,
    List.map_map]
  rfl

/-- The options with another alignment. -/
def Options.aligned (o : Options) (alignment : Alignment) : Options :=
  { o with alignment := alignment }

/-- The alignment matters only for the change between two arrays. -/
theorem change?_eq_of_ne_array (h : ∀ xs, old ≠ .array xs) (o o' : Options) :
    change? o old new = change? o' old new := by
  unfold change?
  cases old with
  | array xs => exact absurd rfl (h xs)
  | _ => cases new <;> rfl

/-- In an array of objects the old entry of a pair is an object, unless it is missing. -/
theorem oldIn_eq_null_or_object (hxs : ∀ x ∈ xs, ∃ ms, x = .object ms) (p : Pair) :
    p.oldIn xs = .null ∨ ∃ ms, p.oldIn xs = .object ms :=
  (oldIn_cases xs p).imp_right (hxs _)

/-- The pairs of arrays that line up have the same entries in both alignments. -/
theorem changeOfPair?_aligned (hxs : ∀ x ∈ xs, ∃ ms, x = .object ms) (a b : Alignment) :
    changeOfPair? (o.aligned a) (sides (o.aligned a) xs) ys =
      changeOfPair? (o.aligned b) (sides (o.aligned b) xs) ys := by
  funext p
  have hp : ∀ zs, p.oldIn xs ≠ .array zs := by
    intro zs hzs
    rcases oldIn_eq_null_or_object hxs p with hnull | ⟨ms, hobject⟩
    · rw [hzs] at hnull
      cases hnull
    · rw [hzs] at hobject
      cases hobject
  rw [changeOfPair?_sides, changeOfPair?_sides,
    change?_eq_of_ne_array hp (o.aligned a) (o.aligned b)]
  rfl

/-- **The alignment does not matter for arrays that line up**: if entries at the same position have
the same identifier, or none, they are found at that position and the change is the same. -/
theorem change_ignoresAlignment (hxs : ∀ x ∈ xs, ∃ ms, x = .object ms)
    (h : xs.map (identifier? o) = ys.map (identifier? o)) :
    pairByStacks? (xs.map (identifier? o)) (ys.map (identifier? o)) =
        some (alignByPosition xs.length ys.length) ∧
      change? (o.aligned .positional) (.array xs) (.array ys) =
        change? (o.aligned .byIdentity) (.array xs) (.array ys) := by
  have hlength : xs.length = ys.length := by simpa using congrArg List.length h
  have hpairs : alignByIdentifier (indexed (xs.map (identifier? o)))
      (indexed (ys.map (identifier? o))) = alignByPosition xs.length ys.length := by
    rw [h, alignByIdentifier_self, List.length_map, hlength]
  have halign : align (o.aligned .byIdentity) xs ys = align (o.aligned .positional) xs ys := hpairs
  refine ⟨(pairByStacks?_eq _ _).trans (congrArg some hpairs), ?_⟩
  unfold change?
  dsimp only
  rw [changeOfItems?_eq, changeOfItems?_eq, halign,
    changeOfPair?_aligned hxs .positional .byIdentity]

/-- An entry with a number, and the coach that identifies it, if there is one. -/
def entryWith (coach : Option String) (x : Int) : Json :=
  .object (coach.toList.map (fun k => (CoachLedger.identityField, .string k)) ++ [("x", .ofInt x)])

theorem exists_object_of_mem {entries : List (Option String × Int)} :
    ∀ v ∈ entries.map fun e => entryWith e.1 e.2, ∃ ms, v = .object ms :=
  List.forall_mem_map.2 fun _ _ => ⟨_, rfl⟩

/-- A coach that occurs twice, and an entry without one between. -/
theorem change_ignoresAlignment_repeated :
    let xs := [(some "A", 1), (none, 2), (some "A", 3)].map fun e => entryWith e.1 e.2
    let ys := [(some "A", 1), (none, 5), (some "A", 6)].map fun e => entryWith e.1 e.2
    ((∀ x ∈ xs, ∃ ms, x = .object ms) ∧
      xs.map (identifier? .standard) = ys.map (identifier? .standard)) ∧
    ∃ c, change? (Options.standard.aligned .positional) (.array xs) (.array ys) = some c ∧
      change? (Options.standard.aligned .byIdentity) (.array xs) (.array ys) = some c := by
  intro xs ys
  have hxs : ∀ x ∈ xs, ∃ ms, x = .object ms := exists_object_of_mem
  have hkeys : xs.map (identifier? .standard) = ys.map (identifier? .standard) := rfl
  obtain ⟨-, heq⟩ := change_ignoresAlignment hxs hkeys
  have hchange :
      (change? (Options.standard.aligned .positional) (.array xs) (.array ys)).isSome = true := rfl
  obtain ⟨c, hc⟩ := Option.isSome_iff_exists.1 hchange
  exact ⟨⟨hxs, hkeys⟩, c, hc, heq ▸ hc⟩

/-! ### Tags that are positions -/

/-- Neither entry of the pair has an identifier. -/
def Pair.isUnidentified (o : Options) (xs ys : List Json) (p : Pair) : Bool :=
  (identifier? o (p.oldIn xs)).isNone && (identifier? o (p.newIn ys)).isNone

/-- The pairs that have a change and are tagged with a position. -/
def taggedByPosition (o : Options) (xs ys : List Json) : List Pair :=
  (align o xs ys).filter fun p => p.isChanged o xs ys && p.isUnidentified o xs ys

/-- The tags that are positions. -/
def positionTags (o : Options) (xs ys : List Json) : List Json :=
  (taggedByPosition o xs ys).map fun p => .ofNat p.position

/-- The fragment of an entry is an object with the tag as its first member, or null if the entry is
missing. -/
def CarriesTag (tag entry fragment : Json) : Prop :=
  entry = .null ∧ fragment = .null ∨ ∃ ms, fragment = .object ((tagField, tag) :: ms)

theorem nodup_positionTags_iff_positions :
    (positionTags o xs ys).Nodup ↔ ((taggedByPosition o xs ys).map Pair.position).Nodup := by
  have hinj : Function.Injective Json.ofNat := fun m n h =>
    Int.ofNat_inj.1 (Json.Numeral.integer.inj (Json.number.inj h))
  rw [← List.nodup_map_iff hinj, List.map_map]
  rfl

/-- Without an identifier, the position is the tag. -/
theorem tagOf_of_unidentified (hold : identifier? o old = none) (hnew : identifier? o new = none)
    (position : Nat) : tagOf o old new position = .ofNat position := by
  rw [identifier?, Option.map_eq_none_iff, Option.or_eq_none_iff] at hold hnew
  unfold tagOf
  dsimp only
  rw [hold.1, hold.2, hnew.1, hnew.2]
  rfl

/-- The fragments of objects, one of which may be missing, carry a tag. -/
theorem carriesTag_change? (hold : old = .null ∨ ∃ ms, old = .object ms)
    (hnew : new = .null ∨ ∃ ms, new = .object ms) (tag : Json) (h : change? o old new = some c) :
    CarriesTag tag old (withTag tag c.old) ∧ CarriesTag tag new (withTag tag c.new) := by
  have hwhole {v : Json} (hv : v = .null ∨ ∃ ms, v = .object ms) :
      CarriesTag tag v (withTag tag v) := by
    rcases hv with rfl | ⟨ms, rfl⟩
    · exact .inl ⟨rfl, rfl⟩
    · exact .inr ⟨_, rfl⟩
  rcases change?_cases h with ⟨olds, news, -, -, hc⟩ | ⟨zs, _, rfl, -, -⟩ | ⟨-, -, rfl⟩
  · obtain ⟨ms, ns, rfl, -, -⟩ := changeOfMembers?_eq_some hc
    exact ⟨.inr ⟨_, rfl⟩, .inr ⟨_, rfl⟩⟩
  · rcases hold with hnull | ⟨ms, hobject⟩
    · cases hnull
    · cases hobject
  · exact ⟨hwhole hold, hwhole hnew⟩

/-! ### Entries that are left over -/

/-- The positions of the old entries without an identifier that are left over, since there are fewer
new ones. -/
def leftOver (o : Options) (xs ys : List Json) : List Nat :=
  (places (xs.map (identifier? o)) none).drop (places (ys.map (identifier? o)) none).length

theorem mem_sideBySide_left {α : Type} {olds news : List α} {a : α} :
    (some a, none) ∈ sideBySide olds news ↔ a ∈ olds.drop news.length := by
  induction olds generalizing news with
  | nil => simp [sideBySide_nil_left]
  | cons b olds ih =>
      cases news with
      | nil => simp [sideBySide_nil_right]
      | cons c news => simp [sideBySide_cons_cons, ih]

/-- **The entries that are left over have no partner**, and no others without an identifier have
none. -/
theorem mem_leftOver_iff (h : o.alignment = .byIdentity) {i : Nat} :
    i ∈ leftOver o xs ys ↔
      ⟨some i, none⟩ ∈ align o xs ys ∧ (xs[i]?).map (identifier? o) = some none := by
  have hleft : i ∈ leftOver o xs ys ↔ ∃ a : Nat × Option String, (some a, none) ∈
      (pairUp Prod.snd (identified o xs) (identified o ys)).filter (hasKey Prod.snd none) ∧
        a.1 = i := by
    rw [filter_pairUp]
    simp only [mem_sideBySide_left]
    rw [leftOver, places_eq, places_eq, List.length_map, ← List.map_drop, List.mem_map]
    rfl
  have halign : (⟨some i, none⟩ : Pair) ∈ align o xs ys ↔ ∃ a : Nat × Option String,
      (some a, none) ∈ pairUp Prod.snd (identified o xs) (identified o ys) ∧ a.1 = i := by
    rw [align, h]
    dsimp only
    rw [alignByIdentifier_eq, List.mem_map]
    constructor
    · rintro ⟨⟨a, b⟩, hp, heq⟩
      obtain ⟨ha, hb⟩ := Pair.mk.inj heq
      obtain ⟨a, rfl, rfl⟩ := Option.map_eq_some_iff.1 ha
      obtain rfl := Option.map_eq_none_iff.1 hb
      exact ⟨a, hp, rfl⟩
    · rintro ⟨a, hp, rfl⟩
      exact ⟨_, hp, rfl⟩
  -- The identifier of an entry is found at its position.
  have hkey {a : Nat × Option String}
      (ha : (some a, none) ∈ pairUp Prod.snd (identified o xs) (identified o ys)) :
      (xs[a.1]?).map (identifier? o) = some a.2 := by
    rw [← List.getElem?_map]
    exact mem_indexed ((mem_of_mem_pairUp ha).1 a rfl)
  rw [hleft, halign]
  constructor
  · rintro ⟨a, ha, rfl⟩
    obtain ⟨hp, hnone⟩ := List.mem_filter.1 ha
    refine ⟨⟨a, hp, rfl⟩, ?_⟩
    rw [hkey hp, beq_iff_eq.1 hnone]
  · rintro ⟨⟨a, hp, rfl⟩, hnone⟩
    rw [hkey hp, Option.some.injEq] at hnone
    exact ⟨a, List.mem_filter.2 ⟨hp, beq_iff_eq.2 hnone⟩, rfl⟩

/-- What is left over is tagged with its position. -/
theorem mem_taggedByPosition_of_leftOver (hxs : ∀ x ∈ xs, ∃ ms, x = .object ms)
    (h : o.alignment = .byIdentity) {i : Nat} (hi : i ∈ leftOver o xs ys) :
    ⟨some i, none⟩ ∈ taggedByPosition o xs ys := by
  obtain ⟨hp, hnone⟩ := (mem_leftOver_iff h).1 hi
  obtain ⟨x, hx, hkey⟩ := Option.map_eq_some_iff.1 hnone
  obtain ⟨ms, rfl⟩ := hxs x (List.mem_of_getElem? hx)
  have hold : (⟨some i, none⟩ : Pair).oldIn xs = .object ms := by
    rw [Pair.oldIn, Option.bind_some, hx, Option.getD_some]
  refine List.mem_filter.2 ⟨hp, Bool.and_eq_true_iff.2 ⟨?_, ?_⟩⟩
  · rw [Pair.isChanged, hold]
    rfl
  · rw [Pair.isUnidentified, hold, hkey]
    rfl

/-- What is tagged with the position of an old entry is left over. -/
theorem leftOver_of_mem_taggedByPosition (h : o.alignment = .byIdentity) {i : Nat}
    (hp : ⟨some i, none⟩ ∈ taggedByPosition o xs ys) : i ∈ leftOver o xs ys := by
  obtain ⟨hp, htagged⟩ := List.mem_filter.1 hp
  have hnone := (Bool.and_eq_true_iff.1 (Bool.and_eq_true_iff.1 htagged).2).1
  have hlt : i < xs.length := (lt_length_of_mem_align hp).1 i rfl
  refine (mem_leftOver_iff h).2 ⟨hp, ?_⟩
  rw [Pair.oldIn, Option.bind_some, List.getElem?_eq_getElem hlt, Option.getD_some,
    Option.isNone_iff_eq_none] at hnone
  rw [List.getElem?_eq_getElem hlt, Option.map_some, hnone]

/-! ### Different tags -/

/-- Pairs with new entries have their positions. -/
theorem map_position_eq {ps : List Pair} {js : List Nat} (h : ps.map Pair.new = js.map some) :
    ps.map Pair.position = js := by
  rw [← List.forall₂_eq_eq_eq, List.forall₂_map_left_iff, List.forall₂_map_right_iff] at h
  rw [← List.forall₂_eq_eq_eq, List.forall₂_map_left_iff]
  refine h.imp fun p j hp => ?_
  rw [Pair.position, hp, Option.getD_some]

/-- By position the positions of the pairs are different. -/
theorem nodup_position_positional (h : o.alignment = .positional) :
    ((taggedByPosition o xs ys).map Pair.position).Nodup := by
  have hpositions : (align o xs ys).map Pair.position = List.range (max xs.length ys.length) := by
    rw [align, h, alignByPosition, List.map_map]
    conv_rhs => rw [← List.map_id (List.range _)]
    refine List.map_congr_left fun i hi => ?_
    have hlt := List.mem_range.1 hi
    rw [Function.comp_apply, Pair.position]
    by_cases hnew : i < ys.length
    · rw [if_pos hnew]
      rfl
    · rw [if_neg hnew, if_pos (by omega)]
      rfl
  have hsub : ((taggedByPosition o xs ys).map Pair.position).Sublist
      ((align o xs ys).map Pair.position) := List.filter_sublist.map _
  rw [hpositions] at hsub
  exact hsub.nodup List.nodup_range

/-- By identifiers the pairs of the new entries come first, then what is left over. -/
theorem exists_align_eq (h : o.alignment = .byIdentity) (xs ys : List Json) :
    ∃ (first : List Pair) (left : List Nat),
      align o xs ys = first ++ left.map (fun i => ⟨some i, none⟩) ∧
      first.map Pair.new = (List.range ys.length).map some ∧ left.Nodup := by
  have hpairing := isPairing_alignByIdentifier (xs.map (identifier? o)) (ys.map (identifier? o))
  obtain ⟨left, hleft, hsorted⟩ := hpairing.left_over
  have hfirst := hpairing.new_first
  rw [List.length_map] at hfirst hleft
  refine ⟨_, left, ?_, hfirst, hsorted.imp fun hlt => Nat.ne_of_lt hlt⟩
  rw [← hleft, List.take_append_drop, align, h]
  rfl

/-- **By identifiers the positions of the pairs are different**, unless a new entry has the position
of an old one that is left over. -/
theorem nodup_position_byIdentity (hxs : ∀ x ∈ xs, ∃ ms, x = .object ms)
    (h : o.alignment = .byIdentity) :
    ((taggedByPosition o xs ys).map Pair.position).Nodup ↔
      ∀ i ∈ leftOver o xs ys, ∀ p ∈ taggedByPosition o xs ys, p.new ≠ some i := by
  constructor
  · intro hnodup i hi p hp hnew
    -- The two pairs have the same position.
    have hposition : p.position = i := by rw [Pair.position, hnew, Option.getD_some]
    obtain rfl := List.inj_on_of_nodup_map hnodup hp (mem_taggedByPosition_of_leftOver hxs h hi)
      hposition
    cases hnew
  · intro hdistinct
    obtain ⟨first, left, heq, hfirst, hleft⟩ := exists_align_eq h xs ys
    have hposition := map_position_eq hfirst
    have hrest : (left.map fun i => (⟨some i, none⟩ : Pair)).map Pair.position = left := by
      rw [List.map_map]
      exact List.map_id left
    have hsplit : taggedByPosition o xs ys = _ := congrArg (List.filter _) heq
    rw [List.filter_append] at hsplit
    rw [hsplit, List.map_append, List.nodup_append]
    refine ⟨(List.filter_sublist.map _).nodup (hposition ▸ List.nodup_range),
      (List.filter_sublist.map _).nodup (hrest.symm ▸ hleft), ?_⟩
    rintro a ha b hb rfl
    obtain ⟨p, hp, hpa⟩ := List.mem_map.1 ha
    obtain ⟨q, hq, hqa⟩ := List.mem_map.1 hb
    obtain ⟨i, -, rfl⟩ := List.mem_map.1 (List.mem_filter.1 hq).1
    obtain rfl : i = a := hqa
    have hi : i ∈ leftOver o xs ys :=
      leftOver_of_mem_taggedByPosition h (hsplit ▸ List.mem_append_right _ hq)
    refine hdistinct i hi p (hsplit ▸ List.mem_append_left _ hp) ?_
    have hnew : p.new ∈ first.map Pair.new := List.mem_map_of_mem (List.mem_filter.1 hp).1
    rw [hfirst] at hnew
    obtain ⟨j, -, hj⟩ := List.mem_map.1 hnew
    rw [Pair.position, ← hj, Option.getD_some] at hpa
    rw [← hj, hpa]

/-- **Positions as tags.**  The entries of a pair without an identifier carry its position.  By
position these tags are different; by identifiers they are, unless an old entry that is left over
has the position of a new one that is tagged with it. -/
theorem change_tagsPositions (hxs : ∀ x ∈ xs, ∃ ms, x = .object ms)
    (hys : ∀ y ∈ ys, ∃ ms, y = .object ms) (h : change? o (.array xs) (.array ys) = some c) :
    (∃ es : List Change, c = ⟨.array (es.map Change.old), .array (es.map Change.new)⟩ ∧
      List.Forall₂ (fun p e => p.isUnidentified o xs ys = true →
          CarriesTag (.ofNat p.position) (p.oldIn xs) e.old ∧
            CarriesTag (.ofNat p.position) (p.newIn ys) e.new)
        ((align o xs ys).filter (Pair.isChanged o xs ys)) es) ∧
    (o.alignment = .positional → (positionTags o xs ys).Nodup) ∧
    (o.alignment = .byIdentity → ((positionTags o xs ys).Nodup ↔
      ∀ i ∈ leftOver o xs ys, ∀ p ∈ taggedByPosition o xs ys, p.new ≠ some i)) := by
  refine ⟨?_, fun hposition => ?_, fun hidentity => ?_⟩
  · rcases change?_cases h with ⟨_, _, hold, -, -⟩ | ⟨xs', ys', hold, hnew, hc⟩ | ⟨-, ha, -⟩
    · cases hold
    · obtain rfl := Json.array.inj hold
      obtain rfl := Json.array.inj hnew
      obtain ⟨es, hes, -, rfl⟩ := changeOfItems?_eq_some hc
      refine ⟨es, rfl, ?_⟩
      rw [← hes, ← funext (isChanged_eq o xs ys)]
      refine forall₂_filterMap fun p _ e he hunidentified => ?_
      rw [changeOfPair?_sides, Option.map_eq_some_iff] at he
      obtain ⟨c, hc, rfl⟩ := he
      obtain ⟨hkey, hkey'⟩ := Bool.and_eq_true_iff.1 hunidentified
      dsimp only
      rw [tagOf_of_unidentified (Option.isNone_iff_eq_none.1 hkey)
        (Option.isNone_iff_eq_none.1 hkey')]
      exact carriesTag_change? (oldIn_eq_null_or_object hxs p)
        (oldIn_eq_null_or_object hys ⟨p.new, none⟩) _ hc
    · exact absurd ⟨rfl, rfl⟩ (ha xs ys)
  · rw [nodup_positionTags_iff_positions]
    exact nodup_position_positional hposition
  · rw [nodup_positionTags_iff_positions]
    exact nodup_position_byIdentity hxs hidentity

/-- Of two entries without an identifier one is left over, at a position that no new entry has. -/
theorem change_tagsPositions_shorter :
    let o := Options.standard.aligned .byIdentity
    let xs := [(none, 1), (none, 2)].map fun e => entryWith e.1 e.2
    let ys := [(none, 9)].map fun e => entryWith e.1 e.2
    ((∀ x ∈ xs, ∃ ms, x = .object ms) ∧ (∀ y ∈ ys, ∃ ms, y = .object ms) ∧
      (change? o (.array xs) (.array ys)).isSome = true ∧ o.alignment = .byIdentity) ∧
    leftOver o xs ys = [1] ∧ (positionTags o xs ys).Nodup := by
  intro o xs ys
  have hxs : ∀ x ∈ xs, ∃ ms, x = .object ms := exists_object_of_mem
  have hys : ∀ y ∈ ys, ∃ ms, y = .object ms := exists_object_of_mem
  have hchange : (change? o (.array xs) (.array ys)).isSome = true := rfl
  obtain ⟨c, hc⟩ := Option.isSome_iff_exists.1 hchange
  obtain ⟨-, -, hidentity⟩ := change_tagsPositions hxs hys hc
  have hleft : leftOver o xs ys = [1] := rfl
  have htagged : taggedByPosition o xs ys = [⟨some 0, some 0⟩, ⟨some 1, none⟩] := rfl
  refine ⟨⟨hxs, hys, hchange, rfl⟩, hleft, (hidentity rfl).2 ?_⟩
  rw [hleft, htagged]
  decide

/-- **Two entries have the same tag**: the second new entry, paired with the first old one, and the
second old one, which is left over. -/
theorem not_nodup_positionTags :
    ¬∀ (o : Options) (xs ys : List Json) (c : Change), (∀ x ∈ xs, ∃ ms, x = .object ms) →
      (∀ y ∈ ys, ∃ ms, y = .object ms) → change? o (.array xs) (.array ys) = some c →
      (positionTags o xs ys).Nodup := by
  intro h
  let o := Options.standard.aligned .byIdentity
  let xs := [(none, 1), (none, 2)].map fun e => entryWith e.1 e.2
  let ys := [(some "A", 0), (none, 9)].map fun e => entryWith e.1 e.2
  have hchange : (change? o (.array xs) (.array ys)).isSome = true := rfl
  obtain ⟨c, hc⟩ := Option.isSome_iff_exists.1 hchange
  have htags : positionTags o xs ys = [.ofNat 1, .ofNat 1] := rfl
  have hnodup := h o xs ys c exists_object_of_mem exists_object_of_mem hc
  rw [htags, List.nodup_cons] at hnodup
  exact hnodup.1 (List.mem_cons_self ..)

end CoachLedger.Audit
