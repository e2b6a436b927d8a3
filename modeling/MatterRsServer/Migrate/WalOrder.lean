import MatterRsServer.Migrate.Jsdb
import Mathlib.Data.List.Induction

/-!
# The order of the log directory

`list_wal_segments` sees the files of `wal` in the order in which the directory lists them.
Which file it takes for a segment depends on that order exactly when two files of one kind have
the segment's number.
-/
namespace MatterRsServer.Migrate
open Lib Wire

/-- A file that may stand for its segment: a compressed one, or there is no compressed one. -/
structure Candidate (files : List WalFile) (segment : Nat) (file : WalFile) : Prop where
  mem : file ∈ files
  named : parseSegmentFilename file.name = some segment
  preferred : file.isGz = true ∨
    ∀ other ∈ files, parseSegmentFilename other.name = some segment → other.isGz = false

/-- Every segment has at most one candidate. -/
def Unrivalled (files : List WalFile) : Prop :=
  ∀ segment a b, Candidate files segment a → Candidate files segment b → a = b

/-- One file of a segment, after the file chosen so far. -/
def choose (chosen : Option WalFile) (file : WalFile) : Option WalFile :=
  if file.isGz then some file else chosen.or (some file)

/-- The files of one segment, in the order of the directory. -/
def ofSegment (segment : Nat) (files : List WalFile) : List WalFile :=
  files.filter fun file => parseSegmentFilename file.name = some segment

theorem mem_ofSegment {segment : Nat} {files : List WalFile} {file : WalFile} :
    file ∈ ofSegment segment files ↔
      file ∈ files ∧ parseSegmentFilename file.name = some segment := by
  simp [ofSegment]

/-- A file concerns its own segment only. -/
theorem get?_listWalSegments (files : List WalFile) (segment : Nat) :
    (listWalSegments (some files)).get? segment =
      (ofSegment segment files).foldl choose none := by
  suffices h : ∀ chosen : OrdMap Nat WalFile, (files.foldl (fun segments file =>
      (parseSegmentFilename file.name).elim segments fun segment =>
        if file.isGz then segments.insert segment file
        else if segments.contains segment then segments
        else segments.insert segment file) chosen).get? segment =
      (ofSegment segment files).foldl choose (chosen.get? segment) by
    rw [listWalSegments_eq]
    exact h ∅
  induction files with
  | nil => exact fun _ => rfl
  | cons file files ih =>
    intro chosen
    rw [List.foldl_cons, ih]
    unfold ofSegment
    by_cases hname : parseSegmentFilename file.name = some segment
    · rw [List.filter_cons_of_pos (by simpa using hname), List.foldl_cons, hname, Option.elim_some]
      congr 1
      unfold choose
      by_cases hgz : file.isGz = true
      · rw [if_pos hgz, if_pos hgz, OrdMap.get?_insert_self]
      · rw [if_neg hgz, if_neg hgz]
        cases hget : chosen.get? segment with
        | none =>
          have hcontains : chosen.contains segment = false := by simp [OrdMap.contains, hget]
          rw [hcontains, if_neg (by decide), OrdMap.get?_insert_self]
          rfl
        | some other =>
          have hcontains : chosen.contains segment = true := by simp [OrdMap.contains, hget]
          rw [if_pos hcontains, hget]
          rfl
    · rw [List.filter_cons_of_neg (by simpa using hname)]
      congr 1
      cases hparse : parseSegmentFilename file.name with
      | none => rfl
      | some other =>
        have hne : segment ≠ other := by
          rintro rfl
          exact hname hparse
        rw [Option.elim_some]
        split
        · exact OrdMap.get?_insert_of_ne _ hne _
        · split
          · rfl
          · exact OrdMap.get?_insert_of_ne _ hne _

/-- What has been chosen is one of the files, and a compressed one if there is any. -/
theorem foldl_choose (files : List WalFile) :
    match files.foldl choose none with
    | none => files = []
    | some file => file ∈ files ∧ (file.isGz = true ∨ ∀ other ∈ files, other.isGz = false) := by
  induction files using List.reverseRecOn with
  | nil => rfl
  | append_singleton files last ih =>
    rw [List.foldl_append, List.foldl_cons, List.foldl_nil]
    generalize files.foldl choose none = chosen at ih
    unfold choose
    by_cases hlast : last.isGz = true
    · rw [if_pos hlast]
      exact ⟨by simp, Or.inl hlast⟩
    · rw [if_neg hlast]
      have hplain : last.isGz = false := by simpa using hlast
      cases chosen with
      | none =>
        subst ih
        exact ⟨by simp, Or.inr (by simpa using hplain)⟩
      | some file =>
        obtain ⟨hmem, hgz⟩ := ih
        refine ⟨List.mem_append_left _ hmem, hgz.imp_right fun hall other hother => ?_⟩
        rcases List.mem_append.mp hother with hother | hother
        · exact hall other hother
        · rw [List.mem_singleton.mp hother]
          exact hplain

theorem foldl_choose_plain {file : WalFile} {files : List WalFile}
    (h : ∀ other ∈ files, other.isGz = false) : files.foldl choose (some file) = some file := by
  induction files with
  | nil => rfl
  | cons next files ih =>
    have hnext : choose (some file) next = some file := by simp [choose, h next]
    rw [List.foldl_cons, hnext]
    exact ih fun other hother => h other (List.mem_cons_of_mem _ hother)

/-- Whatever the order, a candidate is chosen for every segment that has a file. -/
theorem candidate_of_chosen {files listed : List WalFile} (hperm : listed.Perm files)
    {segment : Nat} {file : WalFile}
    (h : (listWalSegments (some listed)).get? segment = some file) :
    Candidate files segment file := by
  have hchoose := foldl_choose (ofSegment segment listed)
  rw [← get?_listWalSegments, h] at hchoose
  obtain ⟨hmem, hgz⟩ := hchoose
  obtain ⟨hfile, hnamed⟩ := mem_ofSegment.mp hmem
  refine ⟨hperm.mem_iff.mp hfile, hnamed, hgz.imp_right fun hall other hother hname => ?_⟩
  exact hall other (mem_ofSegment.mpr ⟨hperm.mem_iff.mpr hother, hname⟩)

theorem not_chosen {files listed : List WalFile} (hperm : listed.Perm files) {segment : Nat}
    (h : (listWalSegments (some listed)).get? segment = none) :
    ∀ file ∈ files, parseSegmentFilename file.name ≠ some segment := by
  intro file hfile hname
  have hchoose := foldl_choose (ofSegment segment listed)
  rw [← get?_listWalSegments, h] at hchoose
  have hmem : file ∈ ofSegment segment listed := mem_ofSegment.mpr ⟨hperm.mem_iff.mpr hfile, hname⟩
  rw [hchoose] at hmem
  cases hmem

/-- Every candidate is chosen in some order: a compressed file when it comes last, a plain one
when it comes first. -/
theorem exists_order {files : List WalFile} {segment : Nat} {file : WalFile}
    (h : Candidate files segment file) :
    ∃ listed, listed.Perm files ∧
      (listWalSegments (some listed)).get? segment = some file := by
  obtain ⟨before, after, rfl⟩ := List.append_of_mem h.mem
  rcases h.preferred with hgz | hplain
  · refine ⟨(before ++ after) ++ [file], ?_, ?_⟩
    · rw [List.append_assoc]
      exact (List.perm_append_singleton file after).append_left before
    · rw [get?_listWalSegments]
      unfold ofSegment
      rw [List.filter_append, List.filter_cons_of_pos (by simpa using h.named), List.foldl_append]
      simp [choose, hgz]
  · refine ⟨file :: (before ++ after), List.perm_middle.symm, ?_⟩
    rw [get?_listWalSegments]
    unfold ofSegment
    rw [List.filter_cons_of_pos (by simpa using h.named), List.foldl_cons]
    have hfirst : choose none file = some file := by
      unfold choose
      split <;> rfl
    rw [hfirst]
    apply foldl_choose_plain
    intro other hother
    obtain ⟨hmem, hname⟩ := mem_ofSegment.mp hother
    refine hplain other ?_ hname
    rcases List.mem_append.mp hmem with hmem | hmem <;> simp [hmem]

/-- The log is loaded alike in every order of the directory exactly when no two files compete
for a segment. -/
theorem walOrder_irrelevant (files : List WalFile) :
    ((∀ a b, a.Perm files → b.Perm files →
        listWalSegments (some a) = listWalSegments (some b)) ∧
      (∀ a segment file, a.Perm files → (listWalSegments (some a)).get? segment = some file →
        (∃ gz ∈ files, parseSegmentFilename gz.name = some segment ∧ gz.isGz = true) →
          file.isGz = true) ∧
      ∀ (dec : Decoders) (dir : NamespaceDir) (a b : List WalFile), a.Perm files → b.Perm files →
        openNamespace dec { dir with wal := some a } =
          openNamespace dec { dir with wal := some b }) ↔
    Unrivalled files := by
  constructor
  · rintro ⟨hsame, -, -⟩ segment a b ha hb
    obtain ⟨first, hfirst, hchosen⟩ := exists_order ha
    obtain ⟨second, hsecond, hother⟩ := exists_order hb
    rw [hsame first second hfirst hsecond, hother] at hchosen
    exact (Option.some.inj hchosen).symm
  · intro hunrivalled
    have hsame : ∀ a b, a.Perm files → b.Perm files →
        listWalSegments (some a) = listWalSegments (some b) := by
      intro a b ha hb
      apply OrdMap.ext
      intro segment
      cases hfirst : (listWalSegments (some a)).get? segment with
      | none =>
        cases hsecond : (listWalSegments (some b)).get? segment with
        | none => rfl
        | some file =>
          have hcandidate := candidate_of_chosen hb hsecond
          exact absurd hcandidate.named (not_chosen ha hfirst file hcandidate.mem)
      | some file =>
        cases hsecond : (listWalSegments (some b)).get? segment with
        | none =>
          have hcandidate := candidate_of_chosen ha hfirst
          exact absurd hcandidate.named (not_chosen hb hsecond file hcandidate.mem)
        | some other =>
          have heq := hunrivalled segment file other (candidate_of_chosen ha hfirst)
            (candidate_of_chosen hb hsecond)
          rw [heq]
    refine ⟨hsame, ?_, ?_⟩
    · rintro a segment file ha hchosen ⟨gz, hgz, hname, hisGz⟩
      rcases (candidate_of_chosen ha hchosen).preferred with hfile | hplain
      · exact hfile
      · rw [hplain gz hgz hname] at hisGz
        cases hisGz
    · intro dec dir a b ha hb
      unfold openNamespace
      simp only [hsame a b ha hb]
      rfl

section Twins

/-- A plain segment under a name in lower or in upper case. -/
def twin (extension : String) (line : String) : WalFile :=
  ⟨"00000001." ++ extension, line.toUTF8⟩

/-- A parser of lines of the form `k`: create the context `k`. -/
def contextLines : Decoders where
  gunzip _ := .error "invalid gzip header"
  fromStr line := .ok (.arr [.obj [("key", .str line), ("op", .str "upd"), ("values", .obj [])]])
  fromSlice _ := .ok (.obj [("kind", .str "wal"), ("type", .str "kv")])
  snapshot _ := .error "expected a snapshot"

def twinDir (wal : List WalFile) : NamespaceDir := ⟨some .empty, none, none, some wal⟩

/-- Two plain files of segment 1: the first one listed is the one that is replayed. -/
theorem twins_depend_on_order :
    listWalSegments (some [twin "jsonl" "a", twin "JSONL" "b"]) ≠
        listWalSegments (some [twin "JSONL" "b", twin "jsonl" "a"]) ∧
      openNamespace contextLines (twinDir [twin "jsonl" "a", twin "JSONL" "b"]) ≠
        openNamespace contextLines (twinDir [twin "JSONL" "b", twin "jsonl" "a"]) := by
  constructor
  · intro heq
    have hnames := congrArg (fun m => (m.get? 1).map WalFile.name) heq
    revert hnames
    decide +kernel
  · intro heq
    have hkeys := congrArg (fun r => r.toOption.map OrdMap.keys) heq
    revert hkeys
    decide +kernel

end Twins

end MatterRsServer.Migrate
