import MatterRsServer.Lib.Replay
import MatterRsServer.Lib.Result
import MatterRsServer.Migrate.Jsdb

/-!
# Snapshots and the log

A namespace's log is the list of its commits, in replay order, each with its effect on the
data. Loading is the replay of the commits after the boundary; so a snapshot of the state
at a boundary changes nothing, and the first commit that is not well formed decides the error.
-/
namespace MatterRsServer.Migrate
open Lib Wire Replay

/-- An op, by its effect; `deleteSubtree` of the empty key deletes everything. -/
inductive Op where
  | update (key : String) (values : List (String × Json))
  | deleteFields (key : String) (fields : List String)
  | deleteSubtree (key : String)

def Op.apply : Op → Data → Data
  | update key values, data => updateContext data key values
  | deleteFields key fields, data => Migrate.deleteFields data key fields
  | deleteSubtree key, data => Migrate.deleteSubtree data key

/-- The JSON form of an op. -/
inductive IsOp : Json → Op → Prop where
  | update {obj values : List (String × Json)} {key : String}
      (kind : Entries.get? "op" obj = some (.str "upd"))
      (context : Entries.get? "key" obj = some (.str key))
      (fields : Entries.get? "values" obj = some (.obj values)) :
      IsOp (.obj obj) (.update key values)
  | deleteFields {obj : List (String × Json)} {key : String} {names : List String}
      (kind : Entries.get? "op" obj = some (.str "del"))
      (context : Entries.get? "key" obj = some (.str key))
      (fields : Entries.get? "values" obj = some (.arr (names.map .str))) :
      IsOp (.obj obj) (.deleteFields key names)
  | deleteSubtree {obj : List (String × Json)} {key : String}
      (kind : Entries.get? "op" obj = some (.str "del"))
      (context : Entries.get? "key" obj = some (.str key))
      (fields : Entries.get? "values" obj = none) :
      IsOp (.obj obj) (.deleteSubtree key)

/-- A line that is a well-formed commit: an array of ops, or an object with such an array. -/
def IsCommit (dec : Decoders) (line : String) (ops : List Op) : Prop :=
  ∃ value items, dec.fromStr line = .ok value ∧
    (value = .arr items ∨ ∃ obj, value = .obj obj ∧ Entries.get? "ops" obj = some (.arr items)) ∧
    List.Forall₂ IsOp items ops

def applyOps (ops : List Op) (data : Data) : Data := ops.foldl (fun data op => op.apply data) data

/-- A line of the log that is not blank. -/
structure Commit where
  id : CommitId
  path : String
  line : String

/-- `apply_line` with the error that names its place. -/
def Commit.apply (dec : Decoders) (c : Commit) (data : Data) : Except JsdbError Data :=
  match applyLine dec c.line data with
  | .ok data => .ok data
  | .error reason => .error (.badWalLine c.path (c.id.offset + 1) reason)

def walPath (file : WalFile) : String := "wal/" ++ file.name

/-- The commits of a segment's text; blank lines count in the offsets. -/
def segmentCommits (segment : Nat) (path : String) (text : String) : List Commit :=
  (splitLines text.toList).zipIdx.filterMap fun e =>
    if isBlank e.1 then none else some ⟨⟨segment, e.2⟩, path, .ofList e.1⟩

def fileCommits (dec : Decoders) (segment : Nat) (file : WalFile) : List Commit :=
  match readText dec (walPath file) file.bytes file.isGz with
  | .ok text => segmentCommits segment (walPath file) text
  | .error _ => []

/-- All commits of a log, in replay order. -/
def commits (dec : Decoders) (segments : OrdMap Nat WalFile) : List Commit :=
  segments.entries.flatMap fun e => fileCommits dec e.1 e.2

/-- The files of the segments from `first` on can be read. -/
def Readable (dec : Decoders) (segments : OrdMap Nat WalFile) (first : Nat) : Prop :=
  ∀ e ∈ segments.entries, first ≤ e.1 →
    ∃ text, readText dec (walPath e.2) e.2.bytes e.2.isGz = .ok text

/-- The commits that a boundary leaves to be replayed. -/
def commitsAfter (dec : Decoders) (segments : OrdMap Nat WalFile) (after : Option CommitId) :
    List Commit := (commits dec segments).filter fun c => !isCovered after c.id

theorem asStr_eq_some {v : Json} {s : String} : v.asStr = some s ↔ v = .str s := by
  cases v <;> simp [Json.asStr]

theorem bind_asStr {v : Option Json} {s : String} : v.bind Json.asStr = some s ↔ v = some (.str s) := by
  rw [Option.bind_eq_some_iff]
  constructor
  · rintro ⟨w, rfl, hw⟩
    rw [asStr_eq_some.mp hw]
  · rintro rfl
    exact ⟨_, rfl, rfl⟩

theorem mapM_asStr {fields : List Json} {names : List String} :
    fields.mapM Json.asStr = some names ↔ fields = names.map .str := by
  have hstr : (fun (v : Json) (s : String) => v.asStr = some s) = fun v s => v = .str s := by
    funext v s
    exact propext asStr_eq_some
  rw [Result.mapM_eq_some_iff, hstr, ← List.forall₂_map_right_iff, List.forall₂_eq_eq_eq]

theorem applyOp_of_isOp {j : Json} {op : Op} (h : IsOp j op) (data : Data) :
    applyOp j data = .ok (op.apply data) := by
  cases h with
  | update kind context fields =>
    simp only [applyOp, bind_asStr.mpr kind, bind_asStr.mpr context, fields]
    rfl
  | deleteFields kind context fields =>
    simp only [applyOp, bind_asStr.mpr kind, bind_asStr.mpr context, fields, mapM_asStr.mpr rfl]
    rfl
  | deleteSubtree kind context fields =>
    simp only [applyOp, bind_asStr.mpr kind, bind_asStr.mpr context, fields]
    rfl

/-- What is not an op is refused, whatever the data. -/
theorem applyOp_of_not_isOp {j : Json} (h : ∀ op, ¬ IsOp j op) :
    ∃ reason, ∀ data, applyOp j data = .error reason := by
  unfold applyOp
  split
  next obj =>
    split
    · exact ⟨_, fun _ => rfl⟩
    next kind hkind =>
      split
      · exact ⟨_, fun _ => rfl⟩
      next key hkey =>
        have hkind := bind_asStr.mp hkind
        have hkey := bind_asStr.mp hkey
        split
        next heq =>
          subst heq
          split
          next values hvalues => exact absurd (.update hkind hkey hvalues) (h _)
          · exact ⟨_, fun _ => rfl⟩
        next =>
          split
          next heq =>
            subst heq
            split
            next fields hvalues =>
              split
              next names hnames =>
                rw [mapM_asStr.mp hnames] at hvalues
                exact absurd (.deleteFields hkind hkey hvalues) (h _)
              · exact ⟨_, fun _ => rfl⟩
            · exact ⟨_, fun _ => rfl⟩
            next hvalues => exact absurd (.deleteSubtree hkind hkey hvalues) (h _)
          · exact ⟨_, fun _ => rfl⟩
  · exact ⟨_, fun _ => rfl⟩

theorem foldlM_applyOp {items : List Json} {ops : List Op} (h : List.Forall₂ IsOp items ops)
    (data : Data) : replay applyOp items data = .ok (applyOps ops data) := by
  induction h generalizing data with
  | nil => rfl
  | cons hop _ ih =>
    rw [replay_cons, applyOp_of_isOp hop]
    exact ih _

theorem foldlM_applyOp_error {items : List Json} (h : ∀ ops, ¬ List.Forall₂ IsOp items ops) :
    ∃ reason, ∀ data, replay applyOp items data = .error reason := by
  induction items with
  | nil => exact absurd .nil (h [])
  | cons j items ih =>
    by_cases hj : ∃ op, IsOp j op
    · obtain ⟨op, hop⟩ := hj
      obtain ⟨reason, hreason⟩ := ih fun ops hops => h (op :: ops) (.cons hop hops)
      refine ⟨reason, fun data => ?_⟩
      rw [replay_cons, applyOp_of_isOp hop]
      exact hreason _
    · obtain ⟨reason, hreason⟩ := applyOp_of_not_isOp fun op hop => hj ⟨op, hop⟩
      refine ⟨reason, fun data => ?_⟩
      rw [replay_cons, hreason]
      rfl

theorem commitOps_eq_ok {value : Json} {items : List Json} : commitOps value = .ok items ↔
    (value = .arr items ∨ ∃ obj, value = .obj obj ∧ Entries.get? "ops" obj = some (.arr items)) := by
  cases value with
  | arr ops => simp [commitOps]
  | obj obj =>
    unfold commitOps
    dsimp only
    split
    next ops hops => simp [hops]
    next hops =>
      constructor
      · intro h
        cases h
      · rintro (h | ⟨o, h, hitems⟩)
        · cases h
        · cases h
          exact absurd hitems (hops items)
  | null | bool | num | str => simp [commitOps]

/-- A well-formed line is applied whole. -/
theorem applyLine_of_isCommit {dec : Decoders} {line : String} {ops : List Op}
    (h : IsCommit dec line ops) (data : Data) :
    applyLine dec line data = .ok (applyOps ops data) := by
  obtain ⟨value, items, hparse, hshape, hops⟩ := h
  unfold applyLine
  rw [hparse]
  change (commitOps value).bind _ = _
  rw [commitOps_eq_ok.mpr hshape]
  exact foldlM_applyOp hops data

/-- Any other line is refused, whatever the data. -/
theorem applyLine_of_not_isCommit {dec : Decoders} {line : String}
    (h : ∀ ops, ¬ IsCommit dec line ops) : ∃ reason, ∀ data, applyLine dec line data = .error reason := by
  unfold applyLine
  cases hparse : dec.fromStr line with
  | error e => exact ⟨e, fun _ => rfl⟩
  | ok value =>
    change ∃ reason, ∀ data, (commitOps value).bind _ = _
    cases hitems : commitOps value with
    | error e => exact ⟨e, fun _ => rfl⟩
    | ok items =>
      exact foldlM_applyOp_error fun ops hops =>
        h ops ⟨value, items, hparse, commitOps_eq_ok.mp hitems, hops⟩

theorem replaySegment_eq {dec : Decoders} {segment : Nat} {file : WalFile} {text : String}
    (h : readText dec (walPath file) file.bytes file.isGz = .ok text) (after : Option CommitId)
    (data : Data) : replaySegment dec segment file data after =
      replay (Commit.apply dec)
        ((segmentCommits segment (walPath file) text).filter fun c => !isCovered after c.id)
        data := by
  unfold replaySegment
  rw [show "wal/" ++ file.name = walPath file from rfl, h]
  unfold segmentCommits
  rw [List.filter_filterMap]
  refine replay_filterMap (fun e s => ?_) _ data
  unfold replayLine
  split
  · rfl
  · split
    next hcovered => simp [Option.filter, hcovered]
    next hcovered =>
      simp only [Option.filter, hcovered]
      rfl

/-- Everything below the boundary's segment is covered. -/
theorem filter_fileCommits_of_lt {dec : Decoders} {a : CommitId} {segment : Nat} (file : WalFile)
    (h : segment < a.segment) :
    (fileCommits dec segment file).filter (fun c => !isCovered (some a) c.id) = [] := by
  rw [List.filter_eq_nil_iff]
  unfold fileCommits
  split
  next text _ =>
    intro c hc
    obtain ⟨e, _, he⟩ := List.mem_filterMap.mp hc
    split at he
    · cases he
    · cases he
      simp [isCovered, CommitId.le_def, h]
  · intro c hc
    cases hc

/-- The segment that a boundary lies in; nothing lies below a missing boundary. -/
def firstSegment (after : Option CommitId) : Nat := (after.map CommitId.segment).getD 0

/-- Replaying the log is replaying the commits after the boundary. -/
theorem replayWal_eq {dec : Decoders} {segments : OrdMap Nat WalFile} {after : Option CommitId}
    (h : Readable dec segments (firstSegment after)) (data : Data) :
    replayWal dec segments data after =
      replay (Commit.apply dec) (commitsAfter dec segments after) data := by
  unfold commitsAfter commits
  rw [List.filter_flatMap]
  refine replay_flatMap (fun e he s => ?_) data
  by_cases hskip : (after.any fun a => e.1 < a.segment) = true
  · rw [if_pos hskip]
    cases after with
    | none => cases hskip
    | some a =>
      rw [filter_fileCommits_of_lt e.2 (by simpa using hskip)]
      rfl
  · rw [if_neg hskip]
    have hfirst : firstSegment after ≤ e.1 := by
      cases after with
      | none => exact Nat.zero_le _
      | some a => simpa [firstSegment] using hskip
    obtain ⟨text, htext⟩ := h e he hfirst
    rw [replaySegment_eq htext]
    unfold fileCommits
    rw [htext]

theorem segment_of_mem_fileCommits {dec : Decoders} {segment : Nat} {file : WalFile} {c : Commit}
    (h : c ∈ fileCommits dec segment file) : c.id.segment = segment := by
  unfold fileCommits at h
  split at h
  · obtain ⟨e, _, he⟩ := List.mem_filterMap.mp h
    split at he
    · cases he
    · cases he
      rfl
  · cases h

theorem pairwise_zipIdx {α : Type} (l : List α) : l.zipIdx.Pairwise fun a b => a.2 < b.2 := by
  have h : (l.zipIdx.map Prod.snd).Pairwise (· < ·) := by
    rw [List.zipIdx_map_snd]
    exact List.pairwise_lt_range'
  exact List.pairwise_map.mp h

theorem segmentCommits_sorted (segment : Nat) (path text : String) :
    (segmentCommits segment path text).Pairwise fun a b => a.id ≤ b.id := by
  unfold segmentCommits
  rw [List.pairwise_filterMap]
  refine (pairwise_zipIdx _).imp fun {a b} hlt c hc d hd => ?_
  split at hc
  · cases hc
  · split at hd
    · cases hd
    · cases hc
      cases hd
      exact Or.inr ⟨rfl, Nat.le_of_lt hlt⟩

/-- Commits are replayed in ascending order. -/
theorem commits_sorted (dec : Decoders) (segments : OrdMap Nat WalFile) :
    (commits dec segments).Pairwise fun a b => a.id ≤ b.id := by
  unfold commits
  rw [List.pairwise_flatMap]
  refine ⟨fun e _ => ?_, segments.sorted.imp fun {a b} hlt c hc d hd => ?_⟩
  · unfold fileCommits
    split
    · exact segmentCommits_sorted _ _ _
    · exact List.Pairwise.nil
  · refine Or.inl ?_
    rw [segment_of_mem_fileCommits hc, segment_of_mem_fileCommits hd]
    exact hlt

theorem CommitId.le_trans {a b c : CommitId} (hab : a ≤ b) (hbc : b ≤ c) : a ≤ c := by
  rw [CommitId.le_def] at hab hbc ⊢
  omega

theorem covered_initial (dec : Decoders) (segments : OrdMap Nat WalFile) (cut : CommitId) :
    (commits dec segments).Pairwise fun a b =>
      isCovered (some cut) b.id = true → isCovered (some cut) a.id = true := by
  refine (commits_sorted dec segments).imp fun {a b} hle hb => ?_
  simp only [isCovered, decide_eq_true_eq] at hb ⊢
  exact CommitId.le_trans hle hb

theorem flatMap_drop_below (dec : Decoders) (cut : CommitId) (l : List (Nat × WalFile)) :
    (l.flatMap fun e => (fileCommits dec e.1 e.2).filter fun c => !isCovered (some cut) c.id) =
      (l.filter fun e => decide (cut.segment ≤ e.1)).flatMap fun e =>
        (fileCommits dec e.1 e.2).filter fun c => !isCovered (some cut) c.id := by
  induction l with
  | nil => rfl
  | cons e l ih =>
    by_cases he : cut.segment ≤ e.1
    · rw [List.filter_cons_of_pos (by simpa using he), List.flatMap_cons, List.flatMap_cons, ih]
    · rw [List.filter_cons_of_neg (by simpa using he), List.flatMap_cons, ih,
        filter_fileCommits_of_lt e.2 (by omega), List.nil_append]

/-- The commits after a boundary depend only on the segments from the boundary's on. -/
theorem commitsAfter_congr {dec : Decoders} {segments segments' : OrdMap Nat WalFile}
    {cut : CommitId} (h : ∀ n, cut.segment ≤ n → segments'.get? n = segments.get? n) :
    commitsAfter dec segments' (some cut) = commitsAfter dec segments (some cut) := by
  have hfilter : segments'.filter (fun n => decide (cut.segment ≤ n)) =
      segments.filter (fun n => decide (cut.segment ≤ n)) := by
    refine OrdMap.ext fun n => ?_
    rw [OrdMap.get?_filter, OrdMap.get?_filter]
    by_cases hn : cut.segment ≤ n
    · simp [hn, h n hn]
    · simp [hn]
  have hdrop : ∀ m : OrdMap Nat WalFile, commitsAfter dec m (some cut) =
      (m.filter fun n => decide (cut.segment ≤ n)).entries.flatMap fun e =>
        (fileCommits dec e.1 e.2).filter fun c => !isCovered (some cut) c.id := by
    intro m
    unfold commitsAfter commits
    rw [List.filter_flatMap]
    exact flatMap_drop_below dec cut m.entries
  rw [hdrop, hdrop, hfilter]

/-- The driver file names a WAL key-value store. -/
def IsWalKv (dec : Decoders) (dir : NamespaceDir) : Prop :=
  ∃ bytes driver, dir.driver = some bytes ∧ dec.fromSlice bytes = .ok driver ∧
    driver.get "kind" = some (.str "wal") ∧ driver.get "type" = some (.str "kv")

theorem openNamespace_of_snapshot {dec : Decoders} {dir : NamespaceDir} {data : Data}
    {after : Option CommitId} (hdriver : IsWalKv dec dir)
    (hsnapshot : loadSnapshot dec dir = .ok (data, after)) :
    openNamespace dec dir = replayWal dec (listWalSegments dir.wal) data after := by
  obtain ⟨bytes, driver, hbytes, hparse, hkind, htype⟩ := hdriver
  unfold openNamespace
  rw [hbytes]
  dsimp only
  rw [hparse]
  dsimp only
  rw [hkind, htype, hsnapshot]
  rfl

/-- Loading is the replay of the commits after the snapshot's boundary. -/
theorem openNamespace_eq {dec : Decoders} {dir : NamespaceDir} {data : Data}
    {after : Option CommitId} (hdriver : IsWalKv dec dir)
    (hsnapshot : loadSnapshot dec dir = .ok (data, after))
    (hread : Readable dec (listWalSegments dir.wal) (firstSegment after)) :
    openNamespace dec dir =
      replay (Commit.apply dec) (commitsAfter dec (listWalSegments dir.wal) after) data := by
  rw [openNamespace_of_snapshot hdriver hsnapshot]
  exact replayWal_eq hread data

theorem Commit.apply_of_isCommit {dec : Decoders} {c : Commit} {ops : List Op}
    (h : IsCommit dec c.line ops) (data : Data) : c.apply dec data = .ok (applyOps ops data) := by
  unfold Commit.apply
  rw [applyLine_of_isCommit h]

theorem Commit.apply_of_not_isCommit {dec : Decoders} {c : Commit}
    (h : ∀ ops, ¬ IsCommit dec c.line ops) :
    ∃ reason, ∀ data, c.apply dec data = .error (.badWalLine c.path (c.id.offset + 1) reason) := by
  obtain ⟨reason, hreason⟩ := applyLine_of_not_isCommit h
  refine ⟨reason, fun data => ?_⟩
  unfold Commit.apply
  rw [hreason]

theorem applyOps_flatMap (ops : Commit → List Op) (log : List Commit) (data : Data) :
    applyOps (log.flatMap ops) data = log.foldl (fun data c => applyOps (ops c) data) data := by
  induction log generalizing data with
  | nil => rfl
  | cons c log ih =>
    rw [List.flatMap_cons, List.foldl_cons, ← ih]
    exact List.foldl_append

/-- A log of well-formed commits is applied whole. -/
theorem replay_commits {dec : Decoders} {log : List Commit} {ops : Commit → List Op}
    (h : ∀ c ∈ log, IsCommit dec c.line (ops c)) (data : Data) :
    replay (Commit.apply dec) log data = .ok (applyOps (log.flatMap ops) data) := by
  rw [applyOps_flatMap]
  exact replay_eq_foldl (fun c => applyOps (ops c))
    (fun c hc data => Commit.apply_of_isCommit (h c hc) data) data

/-- A namespace that was never compacted, with the ops of each of its commits. -/
structure WalHistory (dec : Decoders) (dir : NamespaceDir) (ops : Commit → List Op) : Prop where
  driver : IsWalKv dec dir
  noSnapshotGz : dir.snapshotGz = none
  noSnapshotPlain : dir.snapshotPlain = none
  readable : Readable dec (listWalSegments dir.wal) 0
  wellFormed : ∀ c ∈ commits dec (listWalSegments dir.wal), IsCommit dec c.line (ops c)

/-- `dir'` holds the snapshot of `dir` at `cut`, and the segments from the cut's on. -/
structure CompactedAt (dec : Decoders) (dir dir' : NamespaceDir) (cut : CommitId) : Prop where
  driver : IsWalKv dec dir'
  snapshot : ∃ data, replay (Commit.apply dec) ((commits dec (listWalSegments dir.wal)).filter
      fun c => isCovered (some cut) c.id) ∅ = .ok data ∧
    loadSnapshot dec dir' = .ok (data, some cut)
  segments : ∀ n, cut.segment ≤ n →
    (listWalSegments dir'.wal).get? n = (listWalSegments dir.wal).get? n

theorem commitsAfter_none (dec : Decoders) (segments : OrdMap Nat WalFile) :
    commitsAfter dec segments none = commits dec segments := by
  unfold commitsAfter
  exact List.filter_eq_self.mpr fun _ _ => rfl

theorem WalHistory.openNamespace {dec : Decoders} {dir : NamespaceDir} {ops : Commit → List Op}
    (h : WalHistory dec dir ops) : openNamespace dec dir =
      replay (Commit.apply dec) (commits dec (listWalSegments dir.wal)) ∅ := by
  have hsnapshot : loadSnapshot dec dir = .ok (∅, none) := by
    unfold loadSnapshot chooseSnapshot
    rw [h.noSnapshotGz, h.noSnapshotPlain]
  rw [openNamespace_eq h.driver hsnapshot h.readable, commitsAfter_none]

theorem CompactedAt.openNamespace {dec : Decoders} {dir dir' : NamespaceDir} {cut : CommitId}
    (h : CompactedAt dec dir dir' cut) (hread : Readable dec (listWalSegments dir.wal) 0) :
    openNamespace dec dir' =
      replay (Commit.apply dec) (commits dec (listWalSegments dir.wal)) ∅ := by
  obtain ⟨data, hdata, hsnapshot⟩ := h.snapshot
  have hread' : Readable dec (listWalSegments dir'.wal) cut.segment := by
    intro e he hle
    have hget := (listWalSegments dir'.wal).sorted.get?_of_mem he
    have hmem := Entries.mem_of_get? ((h.segments e.1 hle).symm.trans hget)
    exact hread e hmem (Nat.zero_le _)
  rw [openNamespace_eq h.driver hsnapshot hread', commitsAfter_congr h.segments]
  exact replay_after_covered (covered_initial dec _ cut) hdata


/-- Loading reads every segment from the boundary's on. -/
theorem readable_of_replayWal {dec : Decoders} {segments : OrdMap Nat WalFile}
    {after : Option CommitId} {data loaded : Data}
    (h : replayWal dec segments data after = .ok loaded) :
    Readable dec segments (firstSegment after) := by
  intro e he hfirst
  obtain ⟨u, v, hround⟩ := step_of_replay_eq_ok h e he
  have hskip : ¬ (after.any fun a => e.1 < a.segment) = true := by
    cases after with
    | none => simp
    | some a => simpa [firstSegment] using hfirst
  rw [if_neg hskip] at hround
  unfold replaySegment at hround
  cases htext : readText dec (walPath e.2) e.2.bytes e.2.isGz with
  | ok text => exact ⟨text, rfl⟩
  | error x =>
    rw [show "wal/" ++ e.2.name = walPath e.2 from rfl, htext] at hround
    cases hround

/-- A log that loads consists of commits, and the result is their effect. -/
theorem commits_of_openNamespace {dec : Decoders} {dir : NamespaceDir} {data loaded : Data}
    {after : Option CommitId} (hdriver : IsWalKv dec dir)
    (hsnapshot : loadSnapshot dec dir = .ok (data, after))
    (h : openNamespace dec dir = .ok loaded) : ∃ ops : Commit → List Op,
      (∀ c ∈ commitsAfter dec (listWalSegments dir.wal) after, IsCommit dec c.line (ops c)) ∧
      loaded = applyOps ((commitsAfter dec (listWalSegments dir.wal) after).flatMap ops) data := by
  have hwal := openNamespace_of_snapshot hdriver hsnapshot
  have hread := readable_of_replayWal (hwal.symm.trans h)
  have hlog := (openNamespace_eq hdriver hsnapshot hread).symm.trans h
  have hops : ∀ c : Commit, ∃ ops,
      c ∈ commitsAfter dec (listWalSegments dir.wal) after → IsCommit dec c.line ops := by
    intro c
    by_cases hc : ∃ ops, IsCommit dec c.line ops
    · exact hc.imp fun ops hcommit _ => hcommit
    · refine ⟨[], fun hmem => absurd hlog ?_⟩
      obtain ⟨u, v, hround⟩ := step_of_replay_eq_ok hlog c hmem
      obtain ⟨reason, hreason⟩ := Commit.apply_of_not_isCommit fun ops hcommit => hc ⟨ops, hcommit⟩
      rw [hreason] at hround
      cases hround
  choose ops hops using hops
  refine ⟨ops, hops, ?_⟩
  rw [replay_commits hops] at hlog
  exact (Except.ok.inj hlog).symm

/-- The first line that is not a commit is the one that the error names. -/
theorem openNamespace_badWalLine {dec : Decoders} {dir : NamespaceDir} {data : Data}
    {after : Option CommitId} (hdriver : IsWalKv dec dir)
    (hsnapshot : loadSnapshot dec dir = .ok (data, after))
    (hread : Readable dec (listWalSegments dir.wal) (firstSegment after))
    {a b : List Commit} {c : Commit}
    (hlog : commitsAfter dec (listWalSegments dir.wal) after = a ++ c :: b)
    (ha : ∀ d ∈ a, ∃ ops, IsCommit dec d.line ops) (hc : ∀ ops, ¬ IsCommit dec c.line ops) :
    ∃ reason, openNamespace dec dir = .error (.badWalLine c.path (c.id.offset + 1) reason) := by
  obtain ⟨reason, hreason⟩ := Commit.apply_of_not_isCommit hc
  refine ⟨reason, ?_⟩
  rw [openNamespace_eq hdriver hsnapshot hread, hlog]
  refine replay_first_refused (fun d hd data => ?_) hreason b data
  obtain ⟨ops, hops⟩ := ha d hd
  exact ⟨_, Commit.apply_of_isCommit hops data⟩

/-- A snapshot at any commit id leaves what a store loads as it was, with or without the
segments below it. A store loads exactly when every line after the boundary is a commit. -/
theorem snapshot_and_log (dec : Decoders) :
    (∀ (dir dir' : NamespaceDir) (cut : CommitId) (ops : Commit → List Op),
      WalHistory dec dir ops → CompactedAt dec dir dir' cut →
        openNamespace dec dir' = openNamespace dec dir ∧
        openNamespace dec dir =
          .ok (applyOps ((commits dec (listWalSegments dir.wal)).flatMap ops) ∅)) ∧
    ∀ (dir : NamespaceDir) (data : Data) (after : Option CommitId), IsWalKv dec dir →
      loadSnapshot dec dir = .ok (data, after) →
        (∀ loaded, openNamespace dec dir = .ok loaded → ∃ ops : Commit → List Op,
          (∀ c ∈ commitsAfter dec (listWalSegments dir.wal) after, IsCommit dec c.line (ops c)) ∧
          loaded = applyOps ((commitsAfter dec (listWalSegments dir.wal) after).flatMap ops) data) ∧
        (Readable dec (listWalSegments dir.wal) (firstSegment after) →
          (∀ ops : Commit → List Op,
            (∀ c ∈ commitsAfter dec (listWalSegments dir.wal) after, IsCommit dec c.line (ops c)) →
            openNamespace dec dir = .ok (applyOps
              ((commitsAfter dec (listWalSegments dir.wal) after).flatMap ops) data)) ∧
          ∀ a c b, commitsAfter dec (listWalSegments dir.wal) after = a ++ c :: b →
            (∀ d ∈ a, ∃ ops, IsCommit dec d.line ops) → (∀ ops, ¬ IsCommit dec c.line ops) →
            ∃ reason, openNamespace dec dir =
              .error (.badWalLine c.path (c.id.offset + 1) reason)) := by
  refine ⟨fun dir dir' cut ops hdir hdir' => ?_, fun dir data after hdriver hsnapshot => ⟨?_, ?_⟩⟩
  · have hfull := replay_commits hdir.wellFormed ∅
    rw [hdir.openNamespace, hdir'.openNamespace hdir.readable]
    exact ⟨rfl, hfull⟩
  · intro loaded hloaded
    exact commits_of_openNamespace hdriver hsnapshot hloaded
  · intro hread
    constructor
    · intro ops hops
      rw [openNamespace_eq hdriver hsnapshot hread]
      exact replay_commits hops data
    · intro a c b hlog ha hc
      exact openNamespace_badWalLine hdriver hsnapshot hread hlog ha hc

section Compacted

private def setLine : String := "[\x7b\"op\":\"upd\",\"key\":\"a\",\"values\":\x7b\"x\":true\x7d\x7d]"

private def setOp : Json :=
  .obj [("key", .str "a"), ("op", .str "upd"), ("values", .obj [("x", .bool true)])]

private def deleteLine : String := "\x7b\"ops\":[\x7b\"op\":\"del\",\"key\":\"a\"\x7d]\x7d"

private def deleteOp : Json := .obj [("key", .str "a"), ("op", .str "del")]

private def driverText : String := "\x7b\"kind\":\"wal\",\"type\":\"kv\"\x7d"

private def snapshotText : String :=
  "\x7b\"commitId\":\x7b\"segment\":1,\"offset\":1\x7d,\"data\":\x7b\"a\":\x7b\"x\":true\x7d\x7d\x7d"

private def snapshotData : Data := (∅ : Data).insert "a" ((∅ : OrdMap String Json).insert "x" (.bool true))

private def decoders : Decoders where
  gunzip _ := .error "invalid gzip header"
  fromStr line :=
    if line = setLine then .ok (.arr [setOp])
    else if line = deleteLine then .ok (.obj [("ops", .arr [deleteOp])])
    else .error "expected value at line 1 column 1"
  fromSlice bytes :=
    if Text.fromUtf8Lossy bytes = driverText then
      .ok (.obj [("kind", .str "wal"), ("type", .str "kv")])
    else .error "expected value at line 1 column 1"
  snapshot text :=
    if text = snapshotText then .ok (⟨1, 1⟩, snapshotData)
    else .error "expected value at line 1 column 1"

private def logOnly (text : String) : NamespaceDir where
  driver := some driverText.toUTF8
  snapshotGz := none
  snapshotPlain := none
  wal := some [⟨"00000001.jsonl", text.toUTF8⟩]

private def logText : String := setLine ++ "\n\n" ++ deleteLine

private def tornText : String := setLine ++ "\n\n\x7b"

private def compacted : NamespaceDir :=
  { logOnly logText with snapshotPlain := some ⟨snapshotText.toUTF8, some 7⟩ }

private def opsOf (c : Commit) : List Op :=
  if c.line = setLine then [.update "a" [("x", .bool true)]] else [.deleteSubtree "a"]

private theorem isCommit_setLine : IsCommit decoders setLine [.update "a" [("x", .bool true)]] :=
  ⟨_, [setOp], rfl, .inl rfl, .cons (.update rfl rfl rfl) .nil⟩

private theorem isCommit_deleteLine : IsCommit decoders deleteLine [.deleteSubtree "a"] :=
  ⟨_, [deleteOp], rfl, .inr ⟨_, rfl, rfl⟩, .cons (.deleteSubtree rfl rfl rfl) .nil⟩

private theorem isWalKv_logOnly (text : String) : IsWalKv decoders (logOnly text) := by
  refine ⟨_, .obj [("kind", .str "wal"), ("type", .str "kv")], rfl, ?_, rfl, rfl⟩
  unfold decoders
  dsimp only
  rw [Text.fromUtf8Lossy_toUTF8, if_pos rfl]

private theorem readText_plain (path text : String) :
    readText decoders path text.toUTF8 false = .ok text := by
  unfold readText
  rw [if_neg (by decide), Text.fromUtf8Lossy_toUTF8]

private theorem parseSegment_first : parseSegmentFilename "00000001.jsonl" = some 1 := by decide

private theorem isGz_first (bytes : ByteArray) : WalFile.isGz ⟨"00000001.jsonl", bytes⟩ = false := by
  change ".gz".toList.isSuffixOf (lowercase "00000001.jsonl") = false
  decide

private theorem segments_logOnly (text : String) : (listWalSegments (logOnly text).wal).entries =
    [(1, ⟨"00000001.jsonl", text.toUTF8⟩)] := by
  unfold listWalSegments logOnly
  rw [Option.getD_some, List.foldl_cons, List.foldl_nil, parseSegment_first]
  dsimp only
  rw [isGz_first]
  rfl

private theorem readable_logOnly (text : String) (first : Nat) :
    Readable decoders (listWalSegments (logOnly text).wal) first := by
  intro e he _
  rw [segments_logOnly, List.mem_singleton] at he
  subst he
  dsimp only
  rw [isGz_first]
  exact ⟨text, readText_plain _ text⟩

private theorem commits_logOnly (text : String) :
    commits decoders (listWalSegments (logOnly text).wal) =
      segmentCommits 1 "wal/00000001.jsonl" text := by
  unfold commits
  rw [segments_logOnly, List.flatMap_singleton]
  unfold fileCommits
  dsimp only
  rw [isGz_first, readText_plain]
  rfl

private theorem commits_logText : segmentCommits 1 "wal/00000001.jsonl" logText =
    [⟨⟨1, 0⟩, "wal/00000001.jsonl", setLine⟩, ⟨⟨1, 2⟩, "wal/00000001.jsonl", deleteLine⟩] := rfl

private theorem commits_tornText : segmentCommits 1 "wal/00000001.jsonl" tornText =
    [⟨⟨1, 0⟩, "wal/00000001.jsonl", setLine⟩, ⟨⟨1, 2⟩, "wal/00000001.jsonl", "\x7b"⟩] := rfl

private theorem walHistory_logText : WalHistory decoders (logOnly logText) opsOf where
  driver := isWalKv_logOnly logText
  noSnapshotGz := rfl
  noSnapshotPlain := rfl
  readable := readable_logOnly logText 0
  wellFormed := by
    intro c hc
    rw [commits_logOnly, commits_logText] at hc
    rcases List.mem_pair.mp hc with rfl | rfl
    · exact isCommit_setLine
    · exact isCommit_deleteLine

private theorem loadSnapshot_compacted :
    loadSnapshot decoders compacted = .ok (snapshotData, some ⟨1, 1⟩) := by
  unfold loadSnapshot
  change (readText decoders "snapshot.json" snapshotText.toUTF8 false >>= _) = _
  rw [readText_plain]
  rfl

private theorem compactedAt_logText : CompactedAt decoders (logOnly logText) compacted ⟨1, 1⟩ where
  driver := isWalKv_logOnly logText
  snapshot := by
    refine ⟨snapshotData, ?_, loadSnapshot_compacted⟩
    rw [commits_logOnly, commits_logText]
    rfl
  segments _ _ := rfl

theorem snapshot_and_log_compacted :
    openNamespace decoders compacted = openNamespace decoders (logOnly logText) ∧
    ∃ reason, openNamespace decoders (logOnly tornText) =
      .error (.badWalLine "wal/00000001.jsonl" 3 reason) := by
  constructor
  · exact ((snapshot_and_log decoders).1 (logOnly logText) compacted ⟨1, 1⟩ opsOf walHistory_logText
      compactedAt_logText).1
  · have htorn := (snapshot_and_log decoders).2 (logOnly tornText) ∅ none (isWalKv_logOnly tornText) rfl
    refine (htorn.2 (readable_logOnly tornText 0)).2 [⟨⟨1, 0⟩, "wal/00000001.jsonl", setLine⟩]
      ⟨⟨1, 2⟩, "wal/00000001.jsonl", "\x7b"⟩ [] ?_ ?_ ?_
    · rw [commitsAfter_none, commits_logOnly]
      exact commits_tornText
    · intro d hd
      rw [List.mem_singleton.mp hd]
      exact ⟨_, isCommit_setLine⟩
    · rintro ops ⟨value, items, hparse, -⟩
      cases hparse

end Compacted

end MatterRsServer.Migrate
