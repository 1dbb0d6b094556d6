import Assay.Proofs.NormalizedRecords

/-!
# Recorded and merged diagnostics

Diagnostics come about by recording one event after another and by merging two records into one. A `History` is any
way to do so, and its events are what was recorded in it, in order. Up to the paths of unknown files the diagnostics
are determined by the events (`History.diagnostics_eq`), so it does not matter how a list of events was cut into
records that were merged later (`merge_agrees`).

The paths are kept once each and in order, like the rules of gaps. Of them only recording looks at the bound, while
merging puts all paths of both records together: a history holds as many times `maxKept` paths as it has starts, and
no fewer will do (`length_crowded`).
-/

namespace Assay.Diagnostics

/-- One thing that went wrong. -/
inductive Event where
  | parseFailure (message : String)
  | gap (rule : String)
  | unknownFile (path : String)
  deriving Repr, DecidableEq

/-- The message of a record that could not be read. -/
def Event.message? : Event → Option String
  | .parseFailure message => some message
  | _ => none

/-- The rule that the crosswalk does not cover. -/
def Event.rule? : Event → Option String
  | .gap rule => some rule
  | _ => none

/-- The path that is not in the corpus. -/
def Event.path? : Event → Option String
  | .unknownFile path => some path
  | _ => none

/-- Records an event. -/
def record (d : Diagnostics) : Event → Diagnostics
  | .parseFailure message => d.recordParseFailure message
  | .gap rule => d.recordGap rule
  | .unknownFile path => d.recordUnknownFile path

/-- The diagnostics of some events, recorded one after another. -/
def ofEvents (es : List Event) : Diagnostics := es.foldl record empty

/-- A way in which diagnostics come about. -/
inductive History where
  | start
  | record (h : History) (e : Event)
  | merge (a b : History)

namespace History

/-- The diagnostics that a history comes to. -/
def diagnostics : History → Diagnostics
  | start => .empty
  | record h e => h.diagnostics.record e
  | merge a b => a.diagnostics.merge b.diagnostics

/-- What was recorded, where the events of a record that is merged follow those of the other one. -/
def events : History → List Event
  | start => []
  | record h e => h.events ++ [e]
  | merge a b => a.events ++ b.events

/-- How many records were begun. -/
def starts : History → ℕ
  | start => 1
  | record h _ => h.starts
  | merge a b => a.starts + b.starts

theorem starts_pos (h : History) : 0 < h.starts := by
  induction h with
  | start => exact Nat.one_pos
  | record h e ih => exact ih
  | merge a b iha ihb => exact Nat.add_pos_left iha _

end History

/-- Two records that differ in the paths of unknown files at most. -/
def Agrees (a b : Diagnostics) : Prop := { a with unknownFilePaths := b.unknownFilePaths } = b

/-- The diagnostics of some events, with the paths of unknown files that were kept. -/
def summary (es : List Event) (paths : List String) : Diagnostics :=
  { empty with
    parseFailures := (es.filterMap Event.message?).length
    coverageGaps := (es.filterMap Event.rule?).length
    unknownFiles := (es.filterMap Event.path?).length
    gapRules := canonical (es.filterMap Event.rule?)
    parseErrors := (es.filterMap Event.message?).take maxKept
    unknownFilePaths := paths }

variable {ps names : List String}

/-! ## Names of two records -/

theorem canonical_append_canonical (names names' : List String) :
    canonical (canonical names ++ canonical names') = canonical (names ++ names') :=
  canonical_congr fun n => by rw [List.mem_append, List.mem_append, mem_canonical, mem_canonical]

theorem length_canonical_le (names : List String) : (canonical names).length ≤ names.length :=
  (List.subperm_of_subset (nodup_canonical names) fun _ h => mem_canonical.1 h).length_le

theorem length_canonical_of_nodup (h : names.Nodup) : (canonical names).length = names.length :=
  ((List.perm_ext_iff_of_nodup (nodup_canonical names) h).2 fun _ => mem_canonical).length_eq

/-- The first messages of two records are the first of all messages, though both were cut before. -/
theorem take_append_take (messages messages' : List String) :
    messages.take maxKept ++ (messages'.take maxKept).take (maxKept - (messages.take maxKept).length) =
      (messages ++ messages').take maxKept := by
  rw [List.take_take, List.take_append, List.length_take]
  rcases Nat.le_total maxKept messages.length with hfull | hroom
  · -- The first record leaves no room, so nothing of the second one is kept.
    rw [min_eq_left hfull, Nat.sub_self, Nat.zero_min, Nat.sub_eq_zero_of_le hfull]
  · rw [min_eq_right hroom, min_eq_left (Nat.sub_le ..)]

/-! ## One step -/

/-- An event extends the events that the diagnostics are of. -/
theorem record_summary (es : List Event) (ps : List String) (e : Event) :
    (summary es ps).record e = summary (es ++ [e]) ((summary es ps).record e).unknownFilePaths := by
  cases e with
  | parseFailure message =>
    simp [record, recordParseFailure, summary, Event.message?, Event.rule?, Event.path?, List.filterMap_cons,
      take_append_singleton]
  | gap rule =>
    simp [record, recordGap, summary, Event.message?, Event.rule?, Event.path?, canonical_append_singleton]
  | unknownFile path =>
    simp [record, recordUnknownFile, summary, Event.message?, Event.rule?, Event.path?, List.filterMap_cons]

/-- Merged diagnostics are of the events of both records. -/
theorem merge_summary (es fs : List Event) (ps qs : List String) :
    (summary es ps).merge (summary fs qs) = summary (es ++ fs) (canonical (ps ++ qs)) := by
  simp only [merge, summary, empty, canonical_append_canonical, take_append_take, List.filterMap_append,
    List.length_append, Nat.cast_add, add_zero]

/-- The paths that are kept when an event is recorded. -/
theorem paths_record (d : Diagnostics) (e : Event) :
    (d.record e).unknownFilePaths = d.unknownFilePaths ∨
      ∃ path, e = .unknownFile path ∧ path ∉ d.unknownFilePaths ∧ d.unknownFilePaths.length < maxKept ∧
        (d.record e).unknownFilePaths = ascending (d.unknownFilePaths ++ [path]) := by
  cases e with
  | parseFailure message => exact .inl rfl
  | gap rule => exact .inl rfl
  | unknownFile path =>
    simp only [record, recordUnknownFile]
    split
    next h =>
      simp only [Bool.and_eq_true, Bool.not_eq_true', List.contains_eq_mem, decide_eq_true_eq,
        decide_eq_false_iff_not] at h
      exact .inr ⟨path, rfl, h.1, h.2, rfl⟩
    next => exact .inl rfl

/-! ## Whole histories -/

/-- **Events.** Up to the paths of unknown files the diagnostics of a history are determined by its events. -/
theorem History.diagnostics_eq (h : History) : h.diagnostics = summary h.events h.diagnostics.unknownFilePaths := by
  induction h with
  | start => simp [diagnostics, events, summary, empty, canonical, distinct, ascending]
  | record h e ih =>
    rw [diagnostics, events, ih]
    exact record_summary ..
  | merge a b iha ihb =>
    rw [diagnostics, events, iha, ihb, merge_summary]
    rfl

theorem summary_agrees (es : List Event) (ps qs : List String) : (summary es ps).Agrees (summary es qs) := rfl

theorem History.agrees_of_events {a b : History} (h : a.events = b.events) : a.diagnostics.Agrees b.diagnostics := by
  rw [a.diagnostics_eq, b.diagnostics_eq, h]
  exact summary_agrees ..

/-- The history in which events are recorded one after another. -/
def History.ofEvents (es : List Event) : History := es.foldl .record .start

theorem History.diagnostics_ofEvents (es : List Event) : (ofEvents es).diagnostics = Diagnostics.ofEvents es := by
  induction es using List.reverseRecOn with
  | nil => rfl
  | append_singleton es e ih =>
    rw [ofEvents, Diagnostics.ofEvents, List.foldl_append, List.foldl_append, ← ofEvents, ← Diagnostics.ofEvents, ← ih]
    rfl

theorem History.starts_ofEvents (es : List Event) : (ofEvents es).starts = 1 := by
  induction es using List.reverseRecOn with
  | nil => rfl
  | append_singleton es e ih =>
    rw [ofEvents, List.foldl_append, ← ofEvents]
    exact ih

theorem History.events_ofEvents (es : List Event) : (ofEvents es).events = es := by
  induction es using List.reverseRecOn with
  | nil => rfl
  | append_singleton es e ih =>
    rw [ofEvents, List.foldl_append, ← ofEvents]
    exact congrArg (· ++ [e]) ih

/-- **Merging.** Two records that are merged agree with one record of all their events in everything but the paths of
unknown files: in every count, in the rules of gaps and in the messages with their order. So merging is associative up
to these paths, and the empty record changes nothing. -/
theorem merge_agrees :
    (∀ xs ys, ((ofEvents xs).merge (ofEvents ys)).Agrees (ofEvents (xs ++ ys))) ∧
      (∀ a b c : History, ((a.diagnostics.merge b.diagnostics).merge c.diagnostics).Agrees
        (a.diagnostics.merge (b.diagnostics.merge c.diagnostics))) ∧
      ∀ a : History, (empty.merge a.diagnostics).Agrees a.diagnostics ∧
        (a.diagnostics.merge empty).Agrees a.diagnostics := by
  refine ⟨fun xs ys => ?_, fun a b c => ?_, fun a => ⟨?_, ?_⟩⟩
  · have h := History.agrees_of_events (a := .merge (.ofEvents xs) (.ofEvents ys)) (b := .ofEvents (xs ++ ys))
      (by simp only [History.events, History.events_ofEvents])
    simpa only [History.diagnostics, History.diagnostics_ofEvents] using h
  · exact History.agrees_of_events (a := .merge (.merge a b) c) (b := .merge a (.merge b c)) (List.append_assoc ..)
  · exact History.agrees_of_events (a := .merge .start a) (b := a) (List.nil_append _)
  · exact History.agrees_of_events (a := .merge a .start) (b := a) (List.append_nil _)

/-! ## What is kept -/

/-- Diagnostics whose lists are in order and no longer than their counts and bounds allow, where the paths of unknown
files may be as many as `parts` records keep. -/
structure WellKept (parts : ℕ) (d : Diagnostics) : Prop where
  messages : d.parseErrors.length ≤ maxKept
  paths : d.unknownFilePaths.length ≤ parts * maxKept
  rules_ascend : d.gapRules.Pairwise fun a b => Text.before a b = true
  paths_ascend : d.unknownFilePaths.Pairwise fun a b => Text.before a b = true
  failures : (d.parseErrors.length : ℤ) ≤ d.parseFailures
  gaps : (d.gapRules.length : ℤ) ≤ d.coverageGaps
  files : (d.unknownFilePaths.length : ℤ) ≤ d.unknownFiles

theorem nodup_of_ascend (h : ps.Pairwise fun a b => Text.before a b = true) : ps.Nodup :=
  h.imp fun hab => fun heq => absurd (Text.before_iff.1 hab) (heq ▸ lt_irrefl _)

/-- The paths of unknown files, step by step: they stay in order, and are no more than were recorded. -/
theorem History.paths_kept (h : History) :
    (h.diagnostics.unknownFilePaths.Pairwise fun a b => Text.before a b = true) ∧
      h.diagnostics.unknownFilePaths.length ≤ h.starts * maxKept ∧
        h.diagnostics.unknownFilePaths.length ≤ (h.events.filterMap Event.path?).length := by
  induction h with
  | start => exact ⟨.nil, Nat.zero_le _, Nat.zero_le _⟩
  | record h e ih =>
    obtain ⟨hascend, hbound, hcount⟩ := ih
    rw [diagnostics, events, starts, List.filterMap_append, List.length_append]
    rcases paths_record h.diagnostics e with hsame | ⟨path, rfl, hnew, hroom, hpaths⟩
    · rw [hsame]
      exact ⟨hascend, hbound, Nat.le_add_right_of_le hcount⟩
    · have hlength : (ascending (h.diagnostics.unknownFilePaths ++ [path])).length =
          h.diagnostics.unknownFilePaths.length + 1 := by rw [ascending, List.length_mergeSort, List.length_append]; rfl
      rw [hpaths, hlength]
      refine ⟨ascending_pairwise_of_nodup ?_, ?_, Nat.add_le_add_right hcount 1⟩
      · exact (nodup_of_ascend hascend).append (List.nodup_singleton path) (List.disjoint_singleton.2 hnew)
      · exact Nat.succ_le_of_lt (hroom.trans_le (Nat.le_mul_of_pos_left maxKept h.starts_pos))
  | merge a b iha ihb =>
    obtain ⟨-, hbound, hcount⟩ := iha
    obtain ⟨-, hbound', hcount'⟩ := ihb
    rw [diagnostics, events, starts, List.filterMap_append, List.length_append, Nat.add_mul, Diagnostics.merge]
    have hlength := length_canonical_le (a.diagnostics.unknownFilePaths ++ b.diagnostics.unknownFilePaths)
    rw [List.length_append] at hlength
    exact ⟨canonical_pairwise _, hlength.trans (Nat.add_le_add hbound hbound'),
      hlength.trans (Nat.add_le_add hcount hcount')⟩

/-- **Bounds.** Of every history at most `maxKept` messages are kept, and at most as many paths for each record that was
begun; rules and paths strictly ascend, and no list is longer than its count. -/
theorem History.wellKept (h : History) : WellKept h.starts h.diagnostics := by
  obtain ⟨hascend, hbound, hcount⟩ := h.paths_kept
  have heq := h.diagnostics_eq
  refine ⟨?_, hbound, ?_, hascend, ?_, ?_, ?_⟩
  · rw [heq]
    exact List.length_take_le ..
  · rw [heq]
    exact canonical_pairwise _
  · rw [heq]
    exact Int.ofNat_le.2 (List.length_take_le' ..)
  · rw [heq]
    exact Int.ofNat_le.2 (length_canonical_le _)
  · rw [heq]
    exact Int.ofNat_le.2 hcount

/-! ## Full records -/

/-- Of paths that are no more than can be kept every one is kept. -/
theorem paths_ofEvents (h : ps.length ≤ maxKept) :
    (ofEvents (ps.map .unknownFile)).unknownFilePaths = canonical ps := by
  induction ps using List.reverseRecOn with
  | nil => simp [ofEvents, empty, canonical, distinct, ascending]
  | append_singleton ps p ih =>
    rw [List.length_append, List.length_singleton] at h
    have hroom : (canonical ps).length < maxKept := by
      have hle := length_canonical_le ps
      omega
    rw [List.map_append, ofEvents, List.foldl_append, ← ofEvents, canonical_append_singleton]
    simp only [List.map_cons, List.map_nil, List.foldl_cons, List.foldl_nil, record, recordUnknownFile, ih (by omega),
      decide_eq_true hroom, Bool.and_true]
    cases (canonical ps).contains p <;> rfl

/-- The numbers from a multiple of the bound on, as paths: as many as one record keeps. -/
def numbered (k : ℕ) : List String := (List.range' (k * maxKept) maxKept).map fun i => toString i

/-- As many records as can be, each full of paths that none of the others has, merged one after another. -/
def crowded : ℕ → History
  | 0 => .ofEvents ((numbered 0).map .unknownFile)
  | n + 1 => .merge (crowded n) (.ofEvents ((numbered (n + 1)).map .unknownFile))

theorem paths_crowded (n : ℕ) : (crowded n).diagnostics.unknownFilePaths =
    canonical ((List.range ((n + 1) * maxKept)).map fun i => toString i) := by
  have hfull (k : ℕ) : (History.ofEvents ((numbered k).map .unknownFile)).diagnostics.unknownFilePaths =
      canonical (numbered k) := by
    rw [History.diagnostics_ofEvents]
    exact paths_ofEvents (by simp [numbered])
  induction n with
  | zero => rw [crowded, hfull, numbered, Nat.zero_mul, Nat.zero_add, Nat.one_mul, List.range_eq_range']
  | succ n ih =>
    rw [crowded, History.diagnostics, merge, ih, hfull]
    dsimp only
    rw [canonical_append_canonical, numbered, ← List.map_append, List.range_eq_range', List.range_eq_range',
      Nat.add_mul (n + 1) 1, Nat.one_mul, ← List.range'_append_1, Nat.zero_add]

/-- Merging fills as many bounds as there are records. -/
theorem length_crowded (n : ℕ) : (crowded n).starts = n + 1 ∧
    (crowded n).diagnostics.unknownFilePaths.length = (n + 1) * maxKept := by
  constructor
  · induction n with
    | zero => exact History.starts_ofEvents _
    | succ n ih => rw [crowded, History.starts, ih, History.starts_ofEvents]
  · have hdistinct : ((List.range ((n + 1) * maxKept)).map fun i => toString i).Nodup :=
      List.nodup_range.map fun _ _ h => Nat.repr_inj.1 h
    rw [paths_crowded, length_canonical_of_nodup hdistinct, List.length_map, List.length_range]

/-- Two full records that are merged keep twice as many paths as the bound. -/
theorem paths_exceed_bound : ¬ (crowded 1).diagnostics.unknownFilePaths.length ≤ maxKept := by
  rw [(length_crowded 1).2]
  decide

end Assay.Diagnostics
