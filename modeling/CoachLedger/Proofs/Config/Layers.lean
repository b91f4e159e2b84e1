/-
**Settings come from layers.**

Each setting is what the command line says, or else what the file says that goes before the profile,
or else what the profile says, or else the standard one.  Whether a file sets a value is seen from
its text: the value stands under its key in its section.  What else the section has, and which other
sections there are, does not matter, since files are merged value by value.

Main definitions:

* `CoachLedger.Config.Layer.ofTree` — what the tree of a file sets;
* `CoachLedger.Config.Says`, `CoachLedger.Config.Layer.ofState` — what is said and what is set under
  the path of a file;
* `CoachLedger.Config.IsLayered` — each setting comes from the first layer that has it;
* `CoachLedger.Config.IsUsable` — settings that a run can have.

Main results:

* `CoachLedger.Config.FileConfig.merge_assoc`, `CoachLedger.Config.FileConfig.empty_merge`,
  `CoachLedger.Config.FileConfig.merge_empty` — merging files is associative, and the empty file
  changes nothing;
* `CoachLedger.Config.FileConfig.layer_merge` — **files are merged value by value**;
* `CoachLedger.Config.FileConfig.layer_of_read?` — a file sets what its text sets;
* `CoachLedger.Config.isLayered_iff` — the settings of files and the command line;
* `CoachLedger.Config.load_isLayered` — **which settings a run has**.
-/

import CoachLedger.Config.Settings
import CoachLedger.Host.Disk

set_option autoImplicit false

namespace CoachLedger.Config

/-! ### Merging sections -/

theorem newer_eq {α : Type} (new old : Option α) : newer new old = new.or old := by
  cases new <;> rfl

/-- Merging sections is associative, and an empty section changes nothing. -/
structure Merges {α : Type} (empty : α) (merge : α → α → α) : Prop where
  assoc : ∀ a b c, merge (merge a b) c = merge a (merge b c)
  empty_merge : ∀ a, merge empty a = a
  merge_empty : ∀ a, merge a empty = a

namespace Merges

variable {α : Type} {empty : α} {merge : α → α → α}

theorem mergeSection_assoc (h : Merges empty merge) (a b c : Option α) :
    mergeSection empty merge (mergeSection empty merge a b) c =
      mergeSection empty merge a (mergeSection empty merge b c) := by
  cases c with
  | none => rfl
  | some c =>
      cases b with
      | none => simp [mergeSection, h.empty_merge]
      | some b => simp [mergeSection, h.assoc]

theorem none_mergeSection (h : Merges empty merge) (a : Option α) :
    mergeSection empty merge none a = a := by
  cases a with
  | none => rfl
  | some a => simp [mergeSection, h.empty_merge]

/-- A missing section is merged like an empty one. -/
theorem getD_mergeSection (h : Merges empty merge) (a b : Option α) :
    (mergeSection empty merge a b).getD empty = merge (a.getD empty) (b.getD empty) := by
  cases b with
  | none => simp [mergeSection, h.merge_empty]
  | some b => simp [mergeSection]

end Merges

theorem DatabaseSection.merges : Merges empty merge where
  assoc a b c := by simp [merge, newer_eq, Option.or_assoc]
  empty_merge a := by simp [merge, empty, newer_eq]
  merge_empty a := by simp [merge, empty, newer_eq]

theorem FiltersSection.merges : Merges empty merge where
  assoc a b c := by simp [merge, newer_eq, Option.or_assoc]
  empty_merge a := by simp [merge, empty, newer_eq]
  merge_empty a := by simp [merge, empty, newer_eq]

theorem AuditSection.merges : Merges empty merge where
  assoc a b c := by simp [merge, newer_eq, Option.or_assoc]
  empty_merge a := by simp [merge, empty, newer_eq]
  merge_empty a := by simp [merge, empty, newer_eq]

/-! ### Merging files -/

namespace FileConfig

/-- Files can be merged in any grouping. -/
theorem merge_assoc (a b c : FileConfig) : (a.merge b).merge c = a.merge (b.merge c) := by
  simp only [merge, DatabaseSection.merges.mergeSection_assoc,
    FiltersSection.merges.mergeSection_assoc, AuditSection.merges.mergeSection_assoc, newer_eq,
    Option.or_assoc]

/-- What is merged into the empty file is what there is. -/
theorem empty_merge (a : FileConfig) : empty.merge a = a := by
  simp only [merge, empty, DatabaseSection.merges.none_mergeSection,
    FiltersSection.merges.none_mergeSection, AuditSection.merges.none_mergeSection, newer_eq,
    Option.or_none]

/-- The empty file changes nothing. -/
theorem merge_empty (a : FileConfig) : a.merge empty = a := rfl

/-- **Files are merged value by value**: the result sets what the newer one sets, and else what the
older one sets. -/
theorem layer_merge (a b : FileConfig) : (a.merge b).layer = b.layer.onto a.layer := by
  simp only [layer, merge, DatabaseSection.merges.getD_mergeSection,
    FiltersSection.merges.getD_mergeSection, AuditSection.merges.getD_mergeSection,
    DatabaseSection.merge, FiltersSection.merge, AuditSection.merge, newer_eq, Layer.onto]

end FileConfig

/-! ### Values in a text -/

/-- The tree under a key of a section whose keys have the given names, null if there is none. -/
def valueAt (names : List String) (name : String) : Json.Tree → Json.Tree
  | .object members => (members.lookup (some name)).getD .null
  | .array items => valueOf (names.zip items) name
  | _ => .null

/-- **What the tree of a file sets**: the values under the keys of its sections. -/
def Layer.ofTree (root : Json.Tree) : Layer :=
  let database := valueAt topNames "database" root
  let filters := valueAt topNames "filters" root
  let audit := valueAt topNames "audit" root
  ⟨(readText? (valueAt DatabaseSection.names "path" database)).join,
    (readSize? (valueAt FiltersSection.names "max_json_bytes" filters)).join,
    (readSize? (valueAt FiltersSection.names "max_conditions" filters)).join,
    (readText? (valueAt AuditSection.names "identity_field" audit)).join,
    (readFlag? (valueAt AuditSection.names "notify" audit)).join,
    (readSize? (valueAt AuditSection.names "notify_capacity" audit)).join,
    (readText? (valueAt AuditSection.names "actor" audit)).join,
    (readFlag? (valueAt topNames "debug" root)).join⟩

theorem lookup_cons_of_ne {α β : Type} [BEq α] [LawfulBEq α] {a b : α} (h : a ≠ b) (x : β)
    (l : List (α × β)) : List.lookup a ((b, x) :: l) = l.lookup a := by
  rw [List.lookup_cons, beq_false_of_ne h]

/-- The known members of an object are found under their names. -/
theorem lookup_knownMembers {names : List String} {members : List (Option String × Json.Tree)}
    {found known : List (String × Json.Tree)} (h : knownMembers? names found members = some known)
    {name : String} (hname : name ∈ names) :
    known.lookup name = (found.lookup name).or (members.lookup (some name)) := by
  induction members generalizing found with
  | nil =>
      obtain rfl := Option.some.inj h
      simp
  | cons x rest ih =>
      obtain ⟨name', t⟩ := x
      cases name' with
      | none => cases h
      | some name' =>
          rw [knownMembers?] at h
          by_cases hsame : name = name'
          · subst hsame
            rw [if_pos (by simpa using hname)] at h
            split at h
            · cases h
            · rename_i hfresh
              rw [ih h, List.lookup_cons_self, List.lookup_cons_self,
                Option.not_isSome_iff_eq_none.1 hfresh]
              rfl
          · have hne : some name ≠ some name' := fun e => hsame (Option.some.inj e)
            rw [lookup_cons_of_ne hne]
            split at h
            · split at h
              · cases h
              · rw [ih h, lookup_cons_of_ne hsame]
            · exact ih h

theorem valueOf_knownMembers {names : List String} {members : List (Option String × Json.Tree)}
    {known : List (String × Json.Tree)} (h : knownMembers? names [] members = some known)
    {name : String} (hname : name ∈ names) :
    valueOf known name = valueAt names name (.object members) := by
  rw [valueOf, lookup_knownMembers h hname, valueAt]
  rfl

/-- A section is made of the values under its keys. -/
theorem exists_of_readSection? {α : Type} {names : List String}
    {read? : List (String × Json.Tree) → Option α} {t : Json.Tree} {s : Option α}
    (h : readSection? names read? t = some s) :
    s = none ∧ t = .null ∨ ∃ members found, s = some found ∧ read? members = some found ∧
      ∀ name ∈ names, valueOf members name = valueAt names name t := by
  cases t with
  | null => exact .inl ⟨(Option.some.inj h).symm, rfl⟩
  | object members =>
      obtain ⟨found, hfound, rfl⟩ := Option.map_eq_some_iff.1 h
      obtain ⟨known, hknown, hread⟩ := Option.bind_eq_some_iff.1 hfound
      exact .inr ⟨known, found, rfl, hread, fun name => valueOf_knownMembers hknown⟩
  | array items =>
      rw [readSection?] at h
      split at h
      · obtain ⟨found, hread, rfl⟩ := Option.map_eq_some_iff.1 h
        exact .inr ⟨_, found, rfl, hread, fun name _ => rfl⟩
      · cases h
  | _ => cases h

theorem DatabaseSection.of_read {t : Json.Tree} {s : Option DatabaseSection}
    (h : readSection? names ofMembers? t = some s) :
    (s.getD .empty).path = (readText? (valueAt names "path" t)).join := by
  rcases exists_of_readSection? h with ⟨rfl, rfl⟩ | ⟨members, found, rfl, hread, hvalue⟩
  · rfl
  · obtain ⟨path, hpath, hfound⟩ := Option.bind_eq_some_iff.1 hread
    obtain rfl := Option.some.inj hfound
    rw [← hvalue "path" (by decide), hpath]
    rfl

theorem FiltersSection.of_read {t : Json.Tree} {s : Option FiltersSection}
    (h : readSection? names ofMembers? t = some s) :
    (s.getD .empty).maxJsonBytes = (readSize? (valueAt names "max_json_bytes" t)).join ∧
      (s.getD .empty).maxConditions = (readSize? (valueAt names "max_conditions" t)).join := by
  rcases exists_of_readSection? h with ⟨rfl, rfl⟩ | ⟨members, found, rfl, hread, hvalue⟩
  · exact ⟨rfl, rfl⟩
  · simp only [ofMembers?, Option.bind_eq_bind, Option.bind_eq_some_iff, Option.some.injEq] at hread
    obtain ⟨maxJsonBytes, hjson, maxConditions, hconditions, rfl⟩ := hread
    rw [← hvalue "max_json_bytes" (by decide), ← hvalue "max_conditions" (by decide), hjson,
      hconditions]
    exact ⟨rfl, rfl⟩

theorem AuditSection.of_read {t : Json.Tree} {s : Option AuditSection}
    (h : readSection? names ofMembers? t = some s) :
    (s.getD .empty).identityField = (readText? (valueAt names "identity_field" t)).join ∧
      (s.getD .empty).notify = (readFlag? (valueAt names "notify" t)).join ∧
      (s.getD .empty).notifyCapacity = (readSize? (valueAt names "notify_capacity" t)).join ∧
      (s.getD .empty).actor = (readText? (valueAt names "actor" t)).join := by
  rcases exists_of_readSection? h with ⟨rfl, rfl⟩ | ⟨members, found, rfl, hread, hvalue⟩
  · exact ⟨rfl, rfl, rfl, rfl⟩
  · simp only [ofMembers?, Option.bind_eq_bind, Option.bind_eq_some_iff, Option.some.injEq] at hread
    obtain ⟨identityField, hidentity, notify, hnotify, notifyCapacity, hcapacity, actor, hactor,
      rfl⟩ := hread
    rw [← hvalue "identity_field" (by decide), ← hvalue "notify" (by decide),
      ← hvalue "notify_capacity" (by decide), ← hvalue "actor" (by decide), hidentity, hnotify,
      hcapacity, hactor]
    exact ⟨rfl, rfl, rfl, rfl⟩

/-- **A file sets what its text sets.** -/
theorem FileConfig.layer_of_read? {text : String} {c : FileConfig} (h : read? text = some c) :
    c.layer = .ofTree (Json.outline text).root := by
  unfold read? at h
  dsimp only at h
  split at h
  · rename_i members hroot
    rw [hroot]
    split at h
    · obtain ⟨top, htop, h⟩ := Option.bind_eq_some_iff.1 h
      obtain ⟨-, -, h⟩ := Option.bind_eq_some_iff.1 h
      obtain ⟨database, hdatabase, h⟩ := Option.bind_eq_some_iff.1 h
      obtain ⟨filters, hfilters, h⟩ := Option.bind_eq_some_iff.1 h
      obtain ⟨audit, haudit, h⟩ := Option.bind_eq_some_iff.1 h
      obtain ⟨debug, hdebug, h⟩ := Option.bind_eq_some_iff.1 h
      obtain rfl := Option.some.inj h
      have hvalue (name : String) (hname : name ∈ topNames) := valueOf_knownMembers htop hname
      rw [hvalue "database" (by decide)] at hdatabase
      rw [hvalue "filters" (by decide)] at hfilters
      rw [hvalue "audit" (by decide)] at haudit
      rw [hvalue "debug" (by decide)] at hdebug
      have hpath := DatabaseSection.of_read hdatabase
      obtain ⟨hjson, hconditions⟩ := FiltersSection.of_read hfilters
      obtain ⟨hidentity, hnotify, hcapacity, hactor⟩ := AuditSection.of_read haudit
      simp only [layer, Layer.ofTree, hpath, hjson, hconditions, hidentity, hnotify, hcapacity,
        hactor, hdebug, Option.join_some]
    · cases h
  · cases h

/-! ### Settings -/

/-- **Each setting comes from the first layer that has it**: the command line, the file that goes
before the profile, the profile.  Without any it is the standard one. -/
structure IsLayered (places : Places) (cli top profile : Layer) (s : Settings) : Prop where
  /-- A path from a file is expanded, one from the command line is taken as it is. -/
  databasePath : s.databasePath =
    (cli.databasePath.or ((top.databasePath.or profile.databasePath).map places.expand)).getD
      (defaultDatabasePath places)
  maxJsonBytes : s.limits.maxJsonBytes =
    (cli.maxJsonBytes.or (top.maxJsonBytes.or profile.maxJsonBytes)).getD
      Filter.Limits.standard.maxJsonBytes
  maxConditions : s.limits.maxConditions =
    (cli.maxConditions.or (top.maxConditions.or profile.maxConditions)).getD
      Filter.Limits.standard.maxConditions
  identityField : s.identityField =
    (cli.identityField.or (top.identityField.or profile.identityField)).getD
      CoachLedger.identityField
  notify : s.notify = (cli.notify.or (top.notify.or profile.notify)).getD true
  notifyCapacity : s.notifyCapacity =
    (cli.notifyCapacity.or (top.notifyCapacity.or profile.notifyCapacity)).getD
      defaultNotifyCapacity
  actor : s.actor = (cli.actor.or (top.actor.or profile.actor)).getD defaultActor
  /-- The command line can only turn it on; otherwise the last file that mentions it decides. -/
  debug : s.debug = true ↔
    cli.debug = some true ∨ top.debug = some true ∨ top.debug = none ∧ profile.debug = some true

section

variable {places : Places} {cli top profile : Layer} {s s' : Settings}

theorem IsLayered.unique (h : IsLayered places cli top profile s)
    (h' : IsLayered places cli top profile s') : s = s' := by
  have hdebug : s.debug = s'.debug := Bool.eq_iff_iff.2 (h.debug.trans h'.debug.symm)
  obtain ⟨path, ⟨json, conditions⟩, identityField, notify, capacity, actor, debug⟩ := s
  obtain ⟨path', ⟨json', conditions'⟩, identityField', notify', capacity', actor', debug'⟩ := s'
  simp only [Settings.mk.injEq, Filter.Limits.mk.injEq]
  exact ⟨h.databasePath.trans h'.databasePath.symm,
    ⟨h.maxJsonBytes.trans h'.maxJsonBytes.symm, h.maxConditions.trans h'.maxConditions.symm⟩,
    h.identityField.trans h'.identityField.symm, h.notify.trans h'.notify.symm,
    h.notifyCapacity.trans h'.notifyCapacity.symm, h.actor.trans h'.actor.symm, hdebug⟩

end

theorem debug_iff (cli top profile : Option Bool) :
    (cli.getD false || (top.or profile).getD false) = true ↔
      cli = some true ∨ top = some true ∨ top = none ∧ profile = some true := by
  cases cli <;> cases top <;> simp [Option.getD_eq_iff]

theorem isLayered_ofLayers (places : Places) (cli : Layer) {top profile : Layer}
    {files : FileConfig} (h : files.layer = top.onto profile) :
    IsLayered places cli top profile (.ofLayers places files cli) := by
  simp only [FileConfig.layer, Layer.onto, Layer.mk.injEq] at h
  obtain ⟨hpath, hjson, hconditions, hidentity, hnotify, hcapacity, hactor, hdebug⟩ := h
  constructor
  case debug =>
    rw [Settings.ofLayers, hdebug]
    exact debug_iff cli.debug top.debug profile.debug
  all_goals
    simp only [Settings.ofLayers, hpath, hjson, hconditions, hidentity, hnotify, hcapacity, hactor]

/-- **The settings of files and the command line.** -/
theorem isLayered_iff {places : Places} {cli : Layer} {top profile : FileConfig} {s : Settings} :
    IsLayered places cli top.layer profile.layer s ↔
      s = .ofLayers places ((FileConfig.empty.merge profile).merge top) cli := by
  have hlayer : ((FileConfig.empty.merge profile).merge top).layer =
      top.layer.onto profile.layer := by
    rw [FileConfig.empty_merge, FileConfig.layer_merge]
  constructor
  · intro h
    exact h.unique (isLayered_ofLayers places cli hlayer)
  · rintro rfl
    exact isLayered_ofLayers places cli hlayer

/-- Settings that a run can have. -/
structure IsUsable (s : Settings) : Prop where
  databasePath : s.databasePath ≠ ""
  maxJsonBytes : 0 < s.limits.maxJsonBytes
  maxConditions : 0 < s.limits.maxConditions
  identityField : Text.isAllBlank s.identityField = false
  notifyCapacity : s.notify = true → 0 < s.notifyCapacity
  actor : Text.isAllBlank s.actor = false

theorem isUsable_iff {s : Settings} : IsUsable s ↔ s.problem? = none := by
  rw [problem?_eq_none_iff]
  constructor
  · intro h
    refine ⟨h.databasePath, Nat.pos_iff_ne_zero.1 h.maxJsonBytes,
      Nat.pos_iff_ne_zero.1 h.maxConditions, h.identityField, ?_, h.actor⟩
    rintro ⟨hnotify, hzero⟩
    exact Nat.pos_iff_ne_zero.1 (h.notifyCapacity hnotify) hzero
  · rintro ⟨hpath, hjson, hconditions, hidentity, hcapacity, hactor⟩
    refine ⟨hpath, Nat.pos_of_ne_zero hjson, Nat.pos_of_ne_zero hconditions, hidentity, ?_, hactor⟩
    intro hnotify
    exact Nat.pos_of_ne_zero fun hzero => hcapacity ⟨hnotify, hzero⟩

/-! ### Loading -/

/-- What is set under the path of a file. -/
def Layer.ofState : FileState → Layer
  | .text text => .ofTree (Json.outline text).root
  | _ => .empty

/-- What is found under a path says this: nothing if there is no file, or else what its text says. -/
inductive Says : FileState → FileConfig → Prop
  | absent : Says .absent .empty
  | text {text : String} {c : FileConfig} : FileConfig.read? text = some c → Says (.text text) c

theorem fileOf_eq_ok (path : String) {state : FileState} {c : FileConfig} :
    fileOf path state = .ok c ↔ Says state c := by
  constructor
  · intro h
    unfold fileOf at h
    split at h
    · obtain rfl := Except.ok.inj h
      exact .absent
    · cases h
    · split at h
      · rename_i hread
        obtain rfl := Except.ok.inj h
        exact .text hread
      · cases h
  · intro h
    cases h with
    | absent => rfl
    | text hread => rw [fileOf, hread]

theorem Says.layer_eq {state : FileState} {c : FileConfig} (h : Says state c) :
    c.layer = .ofState state := by
  cases h with
  | absent => rfl
  | text hread => exact FileConfig.layer_of_read? hread

/-- There is no file, or one that can be read. -/
def IsReadable (state : FileState) : Prop := ∃ c, Says state c

/-- The path of the file that goes before the profile. -/
def overlayPath (places : Places) (cli : Overrides) : String :=
  match cli.config with
  | some written => places.expand written
  | none => fileName

section

variable {places : Places} {cli : Overrides} {d : Disk} {s : Settings}

theorem places_host : (Disk.host places).places = places := rfl

theorem read_run (path : String) :
    StateT.run ((Disk.host places).read path) d = pure (d.read places path, d) := rfl

theorem overlay_eq_ok {top : FileConfig} :
    ((overlay (Disk.host places) cli).run d).1 = .ok top ↔
      (cli.config.isSome → d.read places (overlayPath places cli) ≠ .absent) ∧
        Says (d.read places (overlayPath places cli)) top := by
  rw [← fileOf_eq_ok (overlayPath places cli)]
  unfold overlay overlayPath
  cases cli.config with
  | none =>
      simp only [StateT.run_bind, read_run, pure_bind]
      generalize d.read places fileName = state
      exact ⟨fun h => ⟨nofun, h⟩, And.right⟩
  | some written =>
      simp only [places_host, StateT.run_bind, read_run, pure_bind]
      cases d.read places (places.expand written) with
      | absent => exact iff_of_false (by rintro ⟨⟩) fun h => h.1 rfl rfl
      | unreadable => exact ⟨fun h => ⟨nofun, h⟩, And.right⟩
      | text text => exact ⟨fun h => ⟨nofun, h⟩, And.right⟩

/-- Loading is reading the files and settling what they say. -/
theorem load_run :
    ((load (Disk.host places) cli).run d).1 =
      (fileOf (profilePath places) (d.read places (profilePath places))).bind fun profile =>
        ((overlay (Disk.host places) cli).run d).1.bind fun top =>
          settle places ((FileConfig.empty.merge profile).merge top) cli.layer := by
  unfold load
  simp only [places_host, StateT.run_bind, read_run, pure_bind]
  cases fileOf (profilePath places) (d.read places (profilePath places)) with
  | error e => rfl
  | ok profile =>
      dsimp only
      rw [StateT.run_bind]
      obtain ⟨top, d'⟩ := StateT.run (overlay (Disk.host places) cli) d
      cases top <;> rfl

theorem settle_eq_ok {files : FileConfig} {cli : Layer} :
    settle places files cli = .ok s ↔ s = .ofLayers places files cli ∧ IsUsable s := by
  rw [isUsable_iff]
  unfold settle
  dsimp only
  split
  · rename_i p hp
    refine iff_of_false (by rintro ⟨⟩) ?_
    rintro ⟨rfl, hnone⟩
    rw [hnone] at hp
    cases hp
  · rename_i hnone
    constructor
    · intro h
      obtain rfl := Except.ok.inj h
      exact ⟨rfl, hnone⟩
    · rintro ⟨rfl, -⟩
      rfl

/-- **Which settings a run has.**  Loading succeeds with settings exactly if there are no files that
cannot be read, the file that the command line names exists, the settings come from the first layers
that have them, and they are usable. -/
theorem load_eq_ok :
    ((load (Disk.host places) cli).run d).1 = .ok s ↔
      IsReadable (d.read places (profilePath places)) ∧
      IsReadable (d.read places (overlayPath places cli)) ∧
      (cli.config.isSome → d.read places (overlayPath places cli) ≠ .absent) ∧
      IsLayered places cli.layer (.ofState (d.read places (overlayPath places cli)))
        (.ofState (d.read places (profilePath places))) s ∧
      IsUsable s := by
  rw [load_run]
  constructor
  · intro h
    cases hprofile : fileOf (profilePath places) (d.read places (profilePath places)) with
    | error e =>
        rw [hprofile] at h
        cases h
    | ok profile =>
        cases hoverlay : ((overlay (Disk.host places) cli).run d).1 with
        | error e =>
            rw [hprofile, hoverlay] at h
            cases h
        | ok top =>
            rw [hprofile, hoverlay] at h
            have hsays := (fileOf_eq_ok _).1 hprofile
            obtain ⟨hexists, htop⟩ := overlay_eq_ok.1 hoverlay
            obtain ⟨hsettings, husable⟩ := settle_eq_ok.1 h
            refine ⟨⟨profile, hsays⟩, ⟨top, htop⟩, hexists, ?_, husable⟩
            rw [← hsays.layer_eq, ← htop.layer_eq, isLayered_iff]
            exact hsettings
  · rintro ⟨⟨profile, hprofile⟩, ⟨top, htop⟩, hexists, hlayered, husable⟩
    rw [(fileOf_eq_ok _).2 hprofile, overlay_eq_ok.2 ⟨hexists, htop⟩]
    rw [← hprofile.layer_eq, ← htop.layer_eq, isLayered_iff] at hlayered
    exact settle_eq_ok.2 ⟨hlayered, husable⟩

end

/-- **The layers of a run.**  Loading succeeds exactly with settings of which each comes from the
first layer that has it, and which are usable, provided that the files can be read and that the one
that the command line names exists.  Merging files is associative, the empty file changes nothing on
either side, and what a merged file sets is set by the first of both that sets it. -/
theorem load_isLayered :
    (∀ (places : Places) (cli : Overrides) (d : Disk) (s : Settings),
      ((load (Disk.host places) cli).run d).1 = .ok s ↔
        IsReadable (d.read places (profilePath places)) ∧
        IsReadable (d.read places (overlayPath places cli)) ∧
        (cli.config.isSome → d.read places (overlayPath places cli) ≠ .absent) ∧
        IsLayered places cli.layer (.ofState (d.read places (overlayPath places cli)))
          (.ofState (d.read places (profilePath places))) s ∧
        IsUsable s) ∧
    (∀ a b c : FileConfig, (a.merge b).merge c = a.merge (b.merge c)) ∧
    (∀ a : FileConfig, FileConfig.empty.merge a = a ∧ a.merge .empty = a) ∧
    ∀ a b : FileConfig, (a.merge b).layer = b.layer.onto a.layer :=
  ⟨fun _ _ _ _ => load_eq_ok, FileConfig.merge_assoc,
    fun a => ⟨a.empty_merge, a.merge_empty⟩, FileConfig.layer_merge⟩

/-- A profile. -/
def profileText : String :=
  "\x7b\"database\": \x7b\"path\": \"~/yard.db\"\x7d, " ++
    "\"filters\": \x7b\"max_conditions\": 7\x7d, \"audit\": [null, null, null, \"depot\"], " ++
    "\"debug\": true\x7d"

/-- A file in the current directory, which shares two sections with the profile. -/
def currentText : String :=
  "\x7b\"filters\": \x7b\"max_json_bytes\": 4096\x7d, \"note\": 1, " ++
    "\"audit\": \x7b\"identity_field\": \"coach\"\x7d, \"debug\": false\x7d"

/-- A disk with both files. -/
def sharedDisk : Disk :=
  ⟨[(["h", ".coachyard", "coachyard.json"], .text profileText),
    (["c", "coachyard.json"], .text currentText)]⟩

/-- A command line that names an identity field. -/
def identityOverrides : Overrides :=
  ⟨none, { Layer.empty with identityField := some "coach_no" }⟩

theorem load_isLayered_sharedDisk :
    ((load (Disk.host (.standard "/h" "/c")) identityOverrides).run sharedDisk).1 =
      .ok ⟨"/h/yard.db", ⟨4096, 7⟩, "coach_no", true, 1024, "depot", false⟩ := by
  obtain ⟨hlayered, -⟩ := load_isLayered
  have hprofile : sharedDisk.read (.standard "/h" "/c") (profilePath (.standard "/h" "/c")) =
      .text profileText := by decide +kernel
  have hcurrent : sharedDisk.read (.standard "/h" "/c")
      (overlayPath (.standard "/h" "/c") identityOverrides) = .text currentText := by
    decide +kernel
  have hread : FileConfig.read? profileText =
      some ⟨some ⟨"~/yard.db"⟩, some ⟨none, some 7⟩, some ⟨none, none, none, "depot"⟩, true⟩ := by
    decide +kernel
  have hread' : FileConfig.read? currentText =
      some ⟨none, some ⟨some 4096, none⟩, some ⟨"coach", none, none, none⟩, false⟩ := by
    decide +kernel
  refine (hlayered _ _ _ _).2 ⟨?_, ?_, by simp [identityOverrides], ?_, ?_⟩
  · rw [hprofile]
    exact ⟨_, .text hread⟩
  · rw [hcurrent]
    exact ⟨_, .text hread'⟩
  · rw [hprofile, hcurrent, Layer.ofState, Layer.ofState, ← FileConfig.layer_of_read? hread,
      ← FileConfig.layer_of_read? hread']
    refine ⟨?_, rfl, rfl, rfl, rfl, rfl, rfl, ?_⟩
    · decide +kernel
    · simp [identityOverrides, Layer.empty, FileConfig.layer]
  · refine ⟨by decide, Nat.succ_pos _, Nat.succ_pos _, ?_, fun _ => Nat.succ_pos _, ?_⟩
    · decide +kernel
    · decide +kernel

end CoachLedger.Config
