import KakeyaEngine.Lib.Disk
import KakeyaEngine.Lib.PyJson
import KakeyaEngine.Orchestration.Migration

/-!
# Checkpoints and crashes

A save writes the novelty manifest, appends a record with the hash of the new checkpoint to the journal, writes the
checkpoint to a temporary file and renames it; an artifact is stored under its own hash before the checkpoint that refers
to it is saved.  Wherever a crash stops a sequence of such calls, the checkpoint file is one that was being saved, its
record is in the journal, and its artifacts are there (`crash_consistent`).
-/

namespace KakeyaEngine

namespace Orchestration

open Disk PyValue

/-! ### Paths -/

structure Path where
  dir : List String
  name : String
deriving DecidableEq

namespace Path

/-- `path.with_name(name)`. -/
def withName (p : Path) (name : String) : Path := { p with name := name }

/-- `path / name`. -/
def child (p : Path) (name : String) : Path := ⟨p.dir ++ [p.name], name⟩

/-- The name without its suffix: what stands before the last dot, unless the dot is the first or the last character. -/
def stem (name : String) : String :=
  let tail := name.toList.reverse.takeWhile (· ≠ '.')
  let start := name.toList.length - tail.length - 1
  if '.' ∈ name.toList ∧ tail ≠ [] ∧ 0 < start then String.ofList (name.toList.take start) else name

/-- `path.with_suffix(suffix)`. -/
def withSuffix (p : Path) (suffix : String) : Path := p.withName (stem p.name ++ suffix)

/-- `str(path)`. -/
def text (p : Path) : String := "/".intercalate (p.dir ++ [p.name])

/-- The temporary file of a process for a file. -/
def temporary (p : Path) (pid : Nat) : Path := p.withName ("." ++ p.name ++ "." ++ toString pid ++ ".tmp")

/-- The journal of a checkpoint. -/
def journal (p : Path) : Path := p.withName "proof_orchestration.journal.jsonl"

/-- The file of an artifact. -/
def artifact (p : Path) (digest : String) : Path := (p.withSuffix ".artifacts").child (digest ++ ".json")

/-- The file of a novelty manifest. -/
def manifest (p : Path) (digest : String) : Path :=
  ((p.withSuffix ".semantic-proposals").child "manifests").child (digest ++ ".json")

/-- The files that make up the state of a checkpoint: the checkpoint, its journal and its artifacts. -/
def Watched (p q : Path) : Prop := q = p ∨ q = p.journal ∨ ∃ digest, q = p.artifact digest

theorem artifact_injective {p : Path} {digest digest' : String} (h : p.artifact digest = p.artifact digest') :
    digest = digest' := by
  have hname : digest ++ ".json" = digest' ++ ".json" := congrArg name h
  have hlist := congrArg String.toList hname
  rw [String.toList_append, String.toList_append] at hlist
  exact String.ext (List.append_cancel_right hlist)

theorem ne_of_depth {p q : Path} (h : p.dir.length ≠ q.dir.length) : p ≠ q := fun heq => h (by rw [heq])

theorem artifact_depth (p : Path) (digest : String) : (p.artifact digest).dir.length = p.dir.length + 1 := by
  simp [artifact, child, withSuffix, withName]

theorem manifest_depth (p : Path) (digest : String) : (p.manifest digest).dir.length = p.dir.length + 2 := by
  simp [manifest, child, withSuffix, withName]

theorem temporary_dir (p : Path) (pid : Nat) : (p.temporary pid).dir = p.dir := rfl

theorem journal_dir (p : Path) : p.journal.dir = p.dir := rfl

theorem artifact_ne_self (p : Path) (digest : String) : p.artifact digest ≠ p :=
  ne_of_depth (by rw [artifact_depth]; omega)

theorem artifact_ne_journal (p : Path) (digest : String) : p.artifact digest ≠ p.journal :=
  ne_of_depth (by rw [artifact_depth, journal_dir]; omega)

theorem temporary_ne_self (p : Path) (pid : Nat) : p.temporary pid ≠ p := by
  intro h
  have hlength := congrArg (fun q : Path => q.name.length) h
  simp only [temporary, withName, String.length_append] at hlength
  have hdot : ".".length = 1 := rfl
  omega

/-- A name that ends in `tmp` is not one that ends otherwise. -/
private theorem tmp_ne {a b c : String} (h : a ++ ".tmp" = b ++ c)
    (hc : c.toList.getLast? = some 'n' ∨ c.toList.getLast? = some 'l') : False := by
  have hlast := congrArg (fun s => s.toList.getLast?) h
  simp only [String.toList_append, List.getLast?_append] at hlast
  have htmp : ".tmp".toList.getLast? = some 'p' := rfl
  rcases hc with hc | hc
  · rw [hc, htmp, Option.some_or, Option.some_or] at hlast
    exact absurd (Option.some.inj hlast) (by decide)
  · rw [hc, htmp, Option.some_or, Option.some_or] at hlast
    exact absurd (Option.some.inj hlast) (by decide)

theorem temporary_ne_journal (p q : Path) (pid : Nat) : p.temporary pid ≠ q.journal := by
  intro h
  have hname : "." ++ p.name ++ "." ++ toString pid ++ ".tmp" = "" ++ "proof_orchestration.journal.jsonl" := by
    rw [String.empty_append]
    exact congrArg name h
  exact tmp_ne hname (.inr rfl)

theorem temporary_ne_artifact (p q : Path) (pid : Nat) (digest : String) : p.temporary pid ≠ q.artifact digest := by
  intro h
  have hname : "." ++ p.name ++ "." ++ toString pid ++ ".tmp" = digest ++ ".json" := congrArg name h
  exact tmp_ne hname (.inl rfl)

theorem temporary_unwatched {p : Path} (pid : Nat) : ¬ p.Watched (p.temporary pid) := by
  rintro (h | h | ⟨digest, h⟩)
  · exact temporary_ne_self p pid h
  · exact temporary_ne_journal p p pid h
  · exact temporary_ne_artifact p p pid digest h

theorem artifact_temporary_unwatched {p : Path} (pid : Nat) (digest : String) :
    ¬ p.Watched ((p.artifact digest).temporary pid) := by
  rintro (h | h | ⟨digest', h⟩)
  · exact ne_of_depth (by rw [temporary_dir, artifact_depth]; omega) h
  · exact temporary_ne_journal _ _ pid h
  · exact temporary_ne_artifact _ _ pid digest' h

theorem manifest_unwatched {p q : Path} (digest : String) (hq : q.dir = (p.manifest digest).dir) : ¬ p.Watched q := by
  have hdepth : q.dir.length = p.dir.length + 2 := by rw [hq, manifest_depth]
  rintro (h | h | ⟨digest', h⟩)
  · exact ne_of_depth (by omega) h
  · exact ne_of_depth (by rw [journal_dir]; omega) h
  · exact ne_of_depth (by rw [artifact_depth]; omega) h

end Path

/-! ### The writes of a call -/

abbrev FileSystem := Files Path Char

/-- `hashlib.sha256(text.encode()).hexdigest()`, as a string. -/
def sha256Text (text : List Char) : String := String.ofList (LeanGate.hexdigest text)

def compactLayout : Layout := ⟨true, [','], [':']⟩

def journalLayout : Layout := ⟨true, [',', ' '], [':', ' ']⟩

/-- A file is written under a temporary name, renamed, and the temporary name is removed. -/
def atomicWrite (pid : Nat) (path : Path) (content : List Char) : List (Op Path Char) :=
  [.write (path.temporary pid) content, .replace (path.temporary pid) path, .unlink (path.temporary pid)]

/-- A content-addressed file is written unless it exists. -/
def storeOnce (d : FileSystem) (pid : Nat) (path : Path) (content : List Char) : List (Op Path Char) :=
  if (d path).isSome then [] else atomicWrite pid path content

/-- The record of `append_checkpoint_change_journal`. -/
def changeRecord (c : StoredCheckpoint) (state : ProofState) (checkpointSha256 : String) : PyValue :=
  let isBlocked := state = .blocked || (c.get "adapter_status").truthy
  .dict [("kind", .str (if isBlocked then "blocked_transition" else "checkpoint_change")),
    ("checkpoint_sha256", .str checkpointSha256), ("state", c.get "state"), ("current_role", c.get "current_role"),
    ("adapter_status", c.get "adapter_status"),
    ("reason", if isBlocked then c.get "blocked_reason" else c.get "last_transition_reason"),
    ("architecture_version", c.get "architecture_version"), ("schema_version", c.get "schema_version"),
    ("typed_transport_version", c.get "typed_transport_version"),
    ("host_compiler_version", c.get "host_compiler_version"), ("updated_at", c.get "updated_at")]

/-- The line that the journal gets for a checkpoint. -/
def journalLine (c : StoredCheckpoint) (state : ProofState) (checkpointSha256 : String) : List Char :=
  dumps journalLayout (changeRecord c state checkpointSha256) ++ ['\n']

/-- The text of a checkpoint file. -/
def serialize (c : StoredCheckpoint) : List Char := dumpsIndented 0 c.asdict

section Calls

variable (u : Auth.Unicode) (quote : String → String) (p : Path) (pid : Nat)

/-- The writes of `save_checkpoint`, for the checkpoint with its new timestamp.  An exception ends them early. -/
def saveOps (d : FileSystem) (c : StoredCheckpoint) : List (Op Path Char) :=
  match savedManifest u quote (c.get "decomposition_proposals") (c.get "viewpoints_tried") with
  | .error _ => []
  | .ok novelty =>
    (match novelty with
      | none => []
      | some m => storeOnce d pid (p.manifest (sha256Text (dumps compactLayout m))) (dumps compactLayout m)) ++
    match c.proofState with
    | .error _ => []
    | .ok state =>
      .append p.journal (journalLine c state (sha256Text (serialize c))) :: atomicWrite pid p (serialize c)

/-- The calls that a process makes, each after the changes that the program has made to the checkpoint. -/
inductive StoreCall
  | save (edit : StoredCheckpoint → StoredCheckpoint) (now : PyValue)
  | persist (edit : StoredCheckpoint → StoredCheckpoint) (role : String) (payload : PyValue) (dependencies : List String)
      (sourceRunId : String) (artifactSchemaVersion : Int) (validatedAt now : PyValue)

/-- The references of a checkpoint. -/
def references (c : StoredCheckpoint) : List PyValue :=
  match (c.get "validated_artifacts").mapping? with
  | some m => m.values
  | none => []

/-- The reference that `persist_validated_artifact` makes. -/
def newReference (role : String) (payload : PyValue) (dependencies : List String) (sourceRunId : String)
    (artifactSchemaVersion : Int) (validatedAt : PyValue) : PyValue :=
  let digest := sha256Text (dumps compactLayout payload)
  .dict [("role", .str role), ("sha256", .str digest), ("schema_version", .int artifactSchemaVersion),
    ("dependencies", strings dependencies), ("path", .str (p.artifact digest).text), ("source_run_id", .str sourceRunId),
    ("validated_at", validatedAt)]

/-- `checkpoint.validated_artifacts[role] = ref`. -/
def refer (c : StoredCheckpoint) (role : String) (ref : PyValue) : StoredCheckpoint :=
  c.set "validated_artifacts" (.dict ((((c.get "validated_artifacts").mapping?.getD Dict.empty).set role ref).entries))

/-- The checkpoint that a call saves. -/
def StoreCall.apply (c : StoredCheckpoint) : StoreCall → StoredCheckpoint
  | save edit now => (edit c).set "updated_at" now
  | persist edit role payload dependencies sourceRunId version validatedAt now =>
    (refer (edit c) role (newReference p role payload dependencies sourceRunId version validatedAt)).set "updated_at" now

/-- The writes of a call. -/
def StoreCall.ops (d : FileSystem) (c : StoredCheckpoint) : StoreCall → List (Op Path Char)
  | save edit now => saveOps u quote p pid d ((save edit now).apply p c)
  | persist edit role payload dependencies sourceRunId version validatedAt now =>
    let content := dumps compactLayout payload
    let stored := storeOnce d pid (p.artifact (sha256Text content)) content
    stored ++ saveOps u quote p pid (exec d stored)
      ((persist edit role payload dependencies sourceRunId version validatedAt now).apply p c)

/-- The writes of a process. -/
def runOps (d : FileSystem) (c : StoredCheckpoint) : List StoreCall → List (Op Path Char)
  | [] => []
  | call :: calls =>
    let ops := call.ops u quote p pid d c
    ops ++ runOps (exec d ops) (call.apply p c) calls

/-- The checkpoints that a process saves. -/
def savedBy (c : StoredCheckpoint) : List StoreCall → List StoredCheckpoint
  | [] => []
  | call :: calls => call.apply p c :: savedBy (call.apply p c) calls

/-- The program makes no reference of its own: only `persist_validated_artifact` does. -/
def StoreCall.KeepsReferences : StoreCall → Prop
  | save edit _ => ∀ c, references (edit c) ⊆ references c
  | persist edit .. => ∀ c, references (edit c) ⊆ references c

end Calls

/-! ### What a crash must leave -/

/-- A text of whole lines. -/
def Whole (text : List Char) : Prop := text = [] ∨ ∃ front, text = front ++ ['\n']

/-- The line is in the journal, and begins a line of it if `clean` holds. -/
def Recorded (clean : Prop) (journal : List Char) (line : List Char) : Prop :=
  ∃ before after, journal = before ++ line ++ after ∧ (clean → Whole before)

/-- The artifact that a reference names is there, with the hash it names. -/
def Present (p : Path) (d : FileSystem) (ref : PyValue) : Prop :=
  ∃ digest content, ref.item? "sha256" = some (.str digest) ∧ ref.item? "path" = some (.str (p.artifact digest).text) ∧
    d (p.artifact digest) = some content ∧ sha256Text content = digest

/-- The checkpoint file is absent or the complete text of a checkpoint that was being saved, its hash is in the journal,
and every artifact it refers to is there. -/
def Consistent (clean : Prop) (p : Path) (saved : List StoredCheckpoint) (d : FileSystem) : Prop :=
  ∀ text, d p = some text → ∃ c ∈ saved, text = serialize c ∧
    (∃ state, c.proofState = .ok state ∧
      Recorded clean ((d p.journal).getD []) (journalLine c state (sha256Text text))) ∧
    ∀ ref ∈ references c, Present p d ref

/-- Every artifact file has the content that its name says. -/
def Addressed (p : Path) (d : FileSystem) : Prop :=
  ∀ digest content, d (p.artifact digest) = some content → sha256Text content = digest

/-- A disk and a checkpoint in memory between two calls. -/
structure Ready (clean : Prop) (p : Path) (saved : List StoredCheckpoint) (c : StoredCheckpoint) (d : FileSystem) :
    Prop where
  consistent : Consistent clean p saved d
  addressed : Addressed p d
  whole : clean → Whole ((d p.journal).getD [])
  present : ∀ ref ∈ references c, Present p d ref

/-- What a crash leaves for the next process. -/
def Safe (clean : Prop) (p : Path) (saved : List StoredCheckpoint) (d : FileSystem) : Prop :=
  Consistent clean p saved d ∧ Addressed p d

/-- A property of the watched files. -/
def Frame (p : Path) (I : FileSystem → Prop) : Prop :=
  ∀ d d' : FileSystem, (∀ q, p.Watched q → d' q = d q) → I d → I d'

section Invariants

variable {clean : Prop} {p : Path} {saved saved' : List StoredCheckpoint} {c : StoredCheckpoint} {d d' : FileSystem}

theorem present_of_kept (h : ∀ digest content, d (p.artifact digest) = some content → d' (p.artifact digest) = some content)
    {ref : PyValue} (hp : Present p d ref) : Present p d' ref := by
  obtain ⟨digest, content, hsha, hpath, hfile, hhash⟩ := hp
  exact ⟨digest, content, hsha, hpath, h digest content hfile, hhash⟩

/-- A disk on which the checkpoint is the same, the journal has grown and no artifact was lost is still consistent. -/
theorem Consistent.grow (h : Consistent clean p saved d) (hfile : d' p = d p)
    (hjournal : ∃ more, (d' p.journal).getD [] = (d p.journal).getD [] ++ more)
    (hkept : ∀ digest content, d (p.artifact digest) = some content → d' (p.artifact digest) = some content) :
    Consistent clean p saved d' := by
  intro text htext
  rw [hfile] at htext
  obtain ⟨c, hc, hserialized, ⟨state, hstate, before, after, hline, hwhole⟩, hrefs⟩ := h text htext
  obtain ⟨more, hmore⟩ := hjournal
  refine ⟨c, hc, hserialized, ⟨state, hstate, before, after ++ more, ?_, hwhole⟩, fun ref href => ?_⟩
  · rw [hmore, hline, List.append_assoc]
  · exact present_of_kept hkept (hrefs ref href)

theorem frame_safe : Frame p (Safe clean p saved) := by
  intro d d' hsame h
  have hartifact : ∀ digest, d' (p.artifact digest) = d (p.artifact digest) :=
    fun digest => hsame _ (.inr (.inr ⟨digest, rfl⟩))
  refine ⟨h.1.grow (hsame p (.inl rfl)) ⟨[], ?_⟩ fun digest content hfile => ?_, fun digest content hfile => ?_⟩
  · rw [hsame _ (.inr (.inl rfl)), List.append_nil]
  · rw [hartifact, hfile]
  · exact h.2 digest content (by rw [← hartifact, hfile])

theorem frame_ready : Frame p (Ready clean p saved c) := by
  intro d d' hsame h
  have hsafe := frame_safe d d' hsame (show Safe clean p saved d from ⟨h.consistent, h.addressed⟩)
  refine ⟨hsafe.1, hsafe.2, fun hclean => ?_, fun ref href => ?_⟩
  · rw [hsame _ (.inr (.inl rfl))]
    exact h.whole hclean
  · refine present_of_kept (fun digest content hfile => ?_) (h.present ref href)
    rw [hsame _ (.inr (.inr ⟨digest, rfl⟩)), hfile]

theorem Ready.safe (h : Ready clean p saved c d) : Safe clean p saved d := ⟨h.consistent, h.addressed⟩

theorem Consistent.mono (h : Consistent clean p saved d) (hs : saved ⊆ saved') : Consistent clean p saved' d := by
  intro text htext
  obtain ⟨c, hc, hrest⟩ := h text htext
  exact ⟨c, hs hc, hrest⟩

/-! ### The writes of a call, one after the other -/

/-- A crash of an atomic write leaves the file as it was or as it is to be. -/
theorem throughout_atomicWrite {I : FileSystem → Prop} (hI : Frame p I) {pid : Nat} {path : Path} {content : List Char}
    (htemporary : ¬ p.Watched (path.temporary pid)) (hbefore : I d) (hafter : I (Function.update d path (some content))) :
    Throughout I d (atomicWrite pid path content) ∧
      ∀ q, p.Watched q → exec d (atomicWrite pid path content) q = Function.update d path (some content) q := by
  have hne : ∀ q, p.Watched q → q ≠ path.temporary pid := fun q hq heq => htemporary (heq ▸ hq)
  have hwritten : (Op.write (path.temporary pid) content).exec d (path.temporary pid) = some content :=
    Function.update_self _ _ _
  have hfirst : ∀ q, p.Watched q → (Op.write (path.temporary pid) content).exec d q = d q :=
    fun q hq => Function.update_of_ne (hne q hq) _ _
  have hsecond : ∀ q, p.Watched q →
      (Op.replace (path.temporary pid) path).exec ((Op.write (path.temporary pid) content).exec d) q =
        Function.update d path (some content) q := by
    intro q hq
    rw [exec_replace_some hwritten, Function.update_of_ne (hne q hq)]
    by_cases hpath : q = path
    · rw [hpath, Function.update_self, Function.update_self]
    · rw [Function.update_of_ne hpath, Function.update_of_ne hpath, hfirst q hq]
  have hthird : ∀ q, p.Watched q → exec d (atomicWrite pid path content) q = Function.update d path (some content) q :=
    fun q hq => (Function.update_of_ne (hne q hq) _ _).trans (hsecond q hq)
  refine ⟨?_, hthird⟩
  unfold atomicWrite
  rw [throughout_cons, throughout_cons, throughout_cons, throughout_nil]
  refine ⟨hbefore, ?_, hI _ _ hfirst hbefore, ?_, hI _ _ hsecond hafter, ?_, hI _ _ hthird hafter⟩
  · rintro d' ⟨t, -, rfl⟩
    exact hI _ _ (fun q hq => Function.update_of_ne (hne q hq) _ _) hbefore
  · intro d' hd'
    exact hd'.elim
  · intro d' hd'
    exact hd'.elim

/-- The novelty manifest is none of the watched files. -/
theorem throughout_manifest (h : Ready clean p saved c d) (pid : Nat) (digest : String) (content : List Char) :
    Throughout (Safe clean p saved) d (storeOnce d pid (p.manifest digest) content) ∧
      Ready clean p saved c (exec d (storeOnce d pid (p.manifest digest) content)) := by
  have huntouched : ∀ op ∈ storeOnce d pid (p.manifest digest) content, ∀ q, p.Watched q → ¬ op.Touches q := by
    intro op hop q hq htouch
    have hmanifest : q.dir = (p.manifest digest).dir → False := fun hdir => Path.manifest_unwatched digest hdir hq
    unfold storeOnce at hop
    split at hop
    · cases hop
    · simp only [atomicWrite, List.mem_cons, List.not_mem_nil, or_false] at hop
      rcases hop with rfl | rfl | rfl
      · exact hmanifest (by rw [show q = _ from htouch]; rfl)
      · rcases htouch with rfl | rfl
        · exact hmanifest rfl
        · exact hmanifest rfl
      · exact hmanifest (by rw [show q = _ from htouch]; rfl)
  obtain ⟨hthrough, hsame⟩ := throughout_untouched
    (fun d' hd' => frame_safe d d' hd' h.safe) huntouched
  exact ⟨hthrough, frame_ready d _ hsame h⟩

/-- An artifact is stored under its hash before anything refers to it. -/
theorem throughout_artifact (h : Ready clean p saved c d) (pid : Nat) (content : List Char) :
    Throughout (Safe clean p saved) d (storeOnce d pid (p.artifact (sha256Text content)) content) ∧
      Ready clean p saved c (exec d (storeOnce d pid (p.artifact (sha256Text content)) content)) ∧
      ∃ stored, exec d (storeOnce d pid (p.artifact (sha256Text content)) content) (p.artifact (sha256Text content)) =
        some stored ∧ sha256Text stored = sha256Text content := by
  unfold storeOnce
  by_cases hexists : (d (p.artifact (sha256Text content))).isSome = true
  · rw [if_pos hexists]
    obtain ⟨stored, hstored⟩ := Option.isSome_iff_exists.mp hexists
    exact ⟨throughout_nil.mpr h.safe, h, stored, hstored, h.addressed _ _ hstored⟩
  · rw [if_neg hexists]
    have hnone : d (p.artifact (sha256Text content)) = none := by
      rw [← Option.not_isSome_iff_eq_none]
      exact hexists
    have hkept : ∀ digest old, d (p.artifact digest) = some old →
        Function.update d (p.artifact (sha256Text content)) (some content) (p.artifact digest) = some old := by
      intro digest old hold
      have hne : p.artifact digest ≠ p.artifact (sha256Text content) := by
        intro heq
        rw [heq, hnone] at hold
        cases hold
      rw [Function.update_of_ne hne, hold]
    have hready : Ready clean p saved c (Function.update d (p.artifact (sha256Text content)) (some content)) := by
      refine ⟨h.consistent.grow ?_ ⟨[], ?_⟩ hkept, fun digest old hold => ?_, fun hclean => ?_, fun ref href => ?_⟩
      · rw [Function.update_of_ne (Path.artifact_ne_self p _).symm]
      · rw [Function.update_of_ne (Path.artifact_ne_journal p _).symm, List.append_nil]
      · by_cases hdigest : digest = sha256Text content
        · subst hdigest
          rw [Function.update_self] at hold
          rw [← Option.some.inj hold]
        · rw [Function.update_of_ne fun heq => hdigest (Path.artifact_injective heq)] at hold
          exact h.addressed digest old hold
      · rw [Function.update_of_ne (Path.artifact_ne_journal p _).symm]
        exact h.whole hclean
      · exact present_of_kept hkept (h.present ref href)
    obtain ⟨hthrough, hsame⟩ := throughout_atomicWrite frame_safe (Path.artifact_temporary_unwatched pid _) h.safe
      hready.safe
    refine ⟨hthrough, frame_ready _ _ hsame hready, content, ?_, rfl⟩
    rw [hsame _ (.inr (.inr ⟨_, rfl⟩)), Function.update_self]

/-- Appending to the journal, whole or cut short. -/
theorem ready_append (hname : p.journal ≠ p) (h : Ready clean p saved c d) (text : List Char) :
    Safe clean p saved (Function.update d p.journal (some ((d p.journal).getD [] ++ text))) ∧
      ((text = [] ∨ ∃ front, text = front ++ ['\n']) →
        Ready clean p saved c (Function.update d p.journal (some ((d p.journal).getD [] ++ text)))) := by
  have hartifact : ∀ digest, Function.update d p.journal (some ((d p.journal).getD [] ++ text)) (p.artifact digest) =
      d (p.artifact digest) := fun digest => Function.update_of_ne (Path.artifact_ne_journal p digest) _ _
  have hsafe : Safe clean p saved (Function.update d p.journal (some ((d p.journal).getD [] ++ text))) := by
    refine ⟨h.consistent.grow ?_ ⟨text, ?_⟩ fun digest content hfile => ?_, fun digest content hfile => ?_⟩
    · rw [Function.update_of_ne hname.symm]
    · rw [Function.update_self, Option.getD_some]
    · rw [hartifact, hfile]
    · exact h.addressed digest content (by rw [← hartifact, hfile])
  refine ⟨hsafe, fun htext => ⟨hsafe.1, hsafe.2, fun hclean => ?_, fun ref href => ?_⟩⟩
  · rw [Function.update_self, Option.getD_some]
    rcases htext with rfl | ⟨front, rfl⟩
    · rw [List.append_nil]
      exact h.whole hclean
    · exact .inr ⟨(d p.journal).getD [] ++ front, (List.append_assoc _ _ _).symm⟩
  · refine present_of_kept (fun digest content hfile => ?_) (h.present ref href)
    rw [hartifact, hfile]

/-- The end of a save: the record goes to the journal, and then the checkpoint to its file. -/
theorem throughout_commit (hname : p.journal ≠ p) (h : Ready clean p saved c d) (hmem : c ∈ saved) {state : ProofState}
    (hstate : c.proofState = .ok state) (pid : Nat) :
    let ops := Op.append p.journal (journalLine c state (sha256Text (serialize c))) :: atomicWrite pid p (serialize c)
    Throughout (Safe clean p saved) d ops ∧ Ready clean p saved c (exec d ops) := by
  intro ops
  have hjournaled : Ready clean p saved c ((Op.append p.journal (journalLine c state (sha256Text (serialize c)))).exec d) :=
    (ready_append hname h _).2 (.inr ⟨_, rfl⟩)
  have hrecorded : Recorded clean ((((Op.append p.journal (journalLine c state (sha256Text (serialize c)))).exec d)
      p.journal).getD []) (journalLine c state (sha256Text (serialize c))) := by
    refine ⟨(d p.journal).getD [], [], ?_, h.whole⟩
    have hgrown : (Op.append p.journal (journalLine c state (sha256Text (serialize c)))).exec d p.journal =
        some ((d p.journal).getD [] ++ journalLine c state (sha256Text (serialize c))) := Function.update_self _ _ _
    rw [hgrown, Option.getD_some, List.append_nil]
  set d₁ := (Op.append p.journal (journalLine c state (sha256Text (serialize c)))).exec d
  have hcommitted : Ready clean p saved c (Function.update d₁ p (some (serialize c))) := by
    have hartifact : ∀ digest, Function.update d₁ p (some (serialize c)) (p.artifact digest) = d₁ (p.artifact digest) :=
      fun digest => Function.update_of_ne (Path.artifact_ne_self p digest) _ _
    have hpresent : ∀ ref ∈ references c, Present p (Function.update d₁ p (some (serialize c))) ref := by
      intro ref href
      refine present_of_kept (fun digest content hfile => ?_) (hjournaled.present ref href)
      rw [hartifact, hfile]
    refine ⟨fun text htext => ?_, fun digest content hfile => ?_, fun hclean => ?_, hpresent⟩
    · rw [Function.update_self] at htext
      obtain rfl := Option.some.inj htext
      refine ⟨c, hmem, rfl, ⟨state, hstate, ?_⟩, hpresent⟩
      rw [Function.update_of_ne hname]
      exact hrecorded
    · exact hjournaled.addressed digest content (by rw [← hartifact, hfile])
    · rw [Function.update_of_ne hname]
      exact hjournaled.whole hclean
  obtain ⟨hthrough, hsame⟩ := throughout_atomicWrite frame_safe (Path.temporary_unwatched pid) hjournaled.safe
    hcommitted.safe
  refine ⟨throughout_cons.mpr ⟨h.safe, ?_, ?_⟩, ?_⟩
  · rintro d' ⟨text, -, rfl⟩
    exact (ready_append hname h text).1
  · exact hthrough
  · exact frame_ready _ _ hsame hcommitted

/-- What is in memory may change as long as its artifacts are there. -/
theorem Ready.change (h : Ready clean p saved c d) (c' : StoredCheckpoint)
    (hrefs : ∀ ref ∈ references c', Present p d ref) : Ready clean p saved c' d :=
  ⟨h.consistent, h.addressed, h.whole, hrefs⟩

theorem Ready.mono (h : Ready clean p saved c d) (hs : saved ⊆ saved') : Ready clean p saved' c d :=
  ⟨h.consistent.mono hs, h.addressed, h.whole, h.present⟩

theorem throughout_saveOps (u : Auth.Unicode) (quote : String → String) (hname : p.journal ≠ p)
    (h : Ready clean p saved c d) (hmem : c ∈ saved) (pid : Nat) :
    Throughout (Safe clean p saved) d (saveOps u quote p pid d c) ∧
      Ready clean p saved c (exec d (saveOps u quote p pid d c)) := by
  unfold saveOps
  rcases savedManifest u quote (c.get "decomposition_proposals") (c.get "viewpoints_tried") with e | novelty
  · exact ⟨throughout_nil.mpr h.safe, h⟩
  -- the manifest first
  dsimp only
  have hmanifest : ∃ ops, (match novelty with
      | none => []
      | some m => storeOnce d pid (p.manifest (sha256Text (dumps compactLayout m))) (dumps compactLayout m)) = ops ∧
      Throughout (Safe clean p saved) d ops ∧ Ready clean p saved c (exec d ops) := by
    rcases novelty with _ | m
    · exact ⟨_, rfl, throughout_nil.mpr h.safe, h⟩
    · exact ⟨_, rfl, throughout_manifest h pid _ _⟩
  obtain ⟨ops, hops, hthrough, hready⟩ := hmanifest
  rw [hops, throughout_append, exec_append]
  -- then the record and the checkpoint, from the disk that the manifest is on
  rcases hstate : c.proofState with e | state
  · exact ⟨⟨hthrough, throughout_nil.mpr hready.safe⟩, hready⟩
  · obtain ⟨hcommit, hlast⟩ := throughout_commit hname hready hmem hstate pid
    exact ⟨⟨hthrough, hcommit⟩, hlast⟩

/-! ### A call and a run -/

theorem references_set_updated_at (c : StoredCheckpoint) (now : PyValue) :
    references (c.set "updated_at" now) = references c := by
  unfold references
  rw [StoredCheckpoint.get_set _ _ (by repeat constructor), if_neg (by decide)]

theorem mapping?_entries (m : Dict String PyValue) : (PyValue.dict m.entries).mapping? = some m :=
  congrArg some (Dict.ofEntries_entries m)

/-- A checkpoint with a new reference has that one and old ones. -/
theorem mem_references_refer {c : StoredCheckpoint} {role : String} {ref ref' : PyValue}
    (h : ref' ∈ references (refer c role ref)) : ref' = ref ∨ ref' ∈ references c := by
  unfold references refer at h
  rw [StoredCheckpoint.get_set _ _ (by repeat constructor), if_pos rfl] at h
  rw [mapping?_entries] at h
  obtain ⟨role', hrole'⟩ := Dict.mem_values_iff.mp h
  rw [Dict.get?_set] at hrole'
  split at hrole'
  · exact .inl (Option.some.inj hrole').symm
  · right
    unfold references
    rcases hm : (c.get "validated_artifacts").mapping? with _ | m
    · rw [hm] at hrole'
      cases hrole'
    · rw [hm] at hrole'
      exact Dict.mem_values_iff.mpr ⟨role', hrole'⟩

theorem item?_of_mem {entries : List (String × PyValue)} {key : String} {v : PyValue}
    (hnodup : (entries.map Prod.fst).Nodup) (h : (key, v) ∈ entries) : (PyValue.dict entries).item? key = some v :=
  Dict.get?_update_of_mem (d := Dict.empty) hnodup h

theorem present_newReference {role sourceRunId : String} {payload validatedAt : PyValue} {dependencies : List String}
    {version : Int} {stored : List Char}
    (hfile : d (p.artifact (sha256Text (dumps compactLayout payload))) = some stored)
    (hhash : sha256Text stored = sha256Text (dumps compactLayout payload)) :
    Present p d (newReference p role payload dependencies sourceRunId version validatedAt) := by
  unfold newReference
  dsimp only
  generalize sha256Text (dumps compactLayout payload) = digest at hfile hhash
  have hnodup : artifactKeys.Nodup := by decide
  refine ⟨digest, stored, ?_, ?_, hfile, hhash⟩
  · exact item?_of_mem hnodup (by simp)
  · exact item?_of_mem hnodup (by simp)

variable (u : Auth.Unicode) (quote : String → String)

/-- One call: wherever a crash stops it the disk is safe, and after it the next call finds what it needs. -/
theorem throughout_call (hname : p.journal ≠ p) (h : Ready clean p saved c d) (call : StoreCall)
    (hkeeps : call.KeepsReferences) (hmem : call.apply p c ∈ saved) (pid : Nat) :
    Throughout (Safe clean p saved) d (call.ops u quote p pid d c) ∧
      Ready clean p saved (call.apply p c) (exec d (call.ops u quote p pid d c)) := by
  cases call with
  | save edit now =>
    refine throughout_saveOps u quote hname (h.change _ fun ref href => ?_) hmem pid
    have hedited : ref ∈ references (edit c) := by
      rw [← references_set_updated_at (edit c) now]
      exact href
    exact h.present ref (hkeeps c hedited)
  | persist edit role payload dependencies sourceRunId version validatedAt now =>
    obtain ⟨hthrough, hready, stored, hfile, hhash⟩ := throughout_artifact h pid (dumps compactLayout payload)
    have hrefs : ∀ ref ∈ references ((StoreCall.persist edit role payload dependencies sourceRunId version validatedAt
        now).apply p c), Present p (exec d (storeOnce d pid (p.artifact (sha256Text (dumps compactLayout payload)))
          (dumps compactLayout payload))) ref := by
      intro ref href
      unfold StoreCall.apply at href
      rw [references_set_updated_at] at href
      rcases mem_references_refer href with rfl | hold
      · exact present_newReference hfile hhash
      · exact hready.present ref (hkeeps c hold)
    have hreferred := hready.change _ hrefs
    obtain ⟨hsave, hlast⟩ := throughout_saveOps u quote hname hreferred hmem pid
    unfold StoreCall.ops
    dsimp only
    rw [throughout_append, exec_append]
    exact ⟨⟨hthrough, hsave⟩, hlast⟩

theorem throughout_run (hname : p.journal ≠ p) (pid : Nat) (calls : List StoreCall)
    (hkeeps : ∀ call ∈ calls, call.KeepsReferences) (h : Ready clean p saved c d) (hmem : savedBy p c calls ⊆ saved) :
    Throughout (Safe clean p saved) d (runOps u quote p pid d c calls) := by
  induction calls generalizing c d with
  | nil => exact throughout_nil.mpr h.safe
  | cons call calls ih =>
    obtain ⟨hcall, hnext⟩ := throughout_call u quote hname h call (hkeeps call List.mem_cons_self)
      (hmem List.mem_cons_self) pid
    unfold runOps
    dsimp only
    rw [throughout_append]
    exact ⟨hcall, ih (fun call' hc => hkeeps call' (List.mem_cons_of_mem _ hc)) hnext
      (fun c' hc' => hmem (List.mem_cons_of_mem _ hc'))⟩

/-- A crash anywhere in a sequence of calls leaves no checkpoint file, or a complete one that is in the journal and whose
artifacts are there. -/
theorem crash_consistent (hname : p.journal ≠ p) (hready : Ready clean p saved c d) (pid : Nat) (calls : List StoreCall)
    (hkeeps : ∀ call ∈ calls, call.KeepsReferences) (hcrash : Crash d d' (runOps u quote p pid d c calls)) :
    Consistent clean p (saved ++ savedBy p c calls) d' :=
  (throughout_run u quote hname pid calls hkeeps (hready.mono (List.subset_append_left _ _))
    (List.subset_append_right _ _) d' hcrash).1

end Invariants

/-! ### Restarts -/

/-- The disks that processes leave one after the other, with the checkpoints that were saved.  Each process starts from
what the one before it left, with a checkpoint that refers to nothing but what the file refers to, and is stopped by a
crash. -/
inductive Lives (u : Auth.Unicode) (quote : String → String) (p : Path) : List StoredCheckpoint → FileSystem → Prop
  | fresh (d : FileSystem) (hfile : d p = none) (haddressed : Addressed p d) : Lives u quote p [] d
  | process {saved : List StoredCheckpoint} {d d' : FileSystem} (hlives : Lives u quote p saved d) (pid : Nat)
      (c : StoredCheckpoint) (hnew : d p = none → references c = [])
      (hloaded : ∀ c', d p = some (serialize c') → references c ⊆ references c') (calls : List StoreCall)
      (hkeeps : ∀ call ∈ calls, call.KeepsReferences) (hcrash : Crash d d' (runOps u quote p pid d c calls)) :
      Lives u quote p (saved ++ savedBy p c calls) d'

/-- The checkpoint that a new problem starts with. -/
def newCheckpoint (now : PyValue) : StoredCheckpoint :=
  StoredCheckpoint.ofFields fun name => ((fieldDefaults ⟨"", ""⟩ now).lookup name).getD .null

/-- A process on an empty disk that stores an artifact, saves its checkpoint again, and is stopped after its last write. -/
theorem crash_consistent_new_problem :
    let p : Path := ⟨["run"], "checkpoint.json"⟩
    let calls : List StoreCall := [.persist id "strategy" (.dict [("plan", .str "p1")]) [] "run-1" 1 (.float "1.5")
      (.float "1.5"), .save id (.float "2.5")]
    Consistent True p ([] ++ savedBy p (newCheckpoint (.float "0.5")) calls)
      (exec (fun _ => none) (runOps asciiOnly id p 7 (fun _ => none) (newCheckpoint (.float "0.5")) calls)) := by
  intro p calls
  have hready : Ready True p [] (newCheckpoint (.float "0.5")) (fun _ => none) := by
    refine ⟨?_, ?_, fun _ => .inl rfl, ?_⟩
    · intro text htext
      cases htext
    · intro digest content hfile
      cases hfile
    · have hnone : references (newCheckpoint (.float "0.5")) = [] := by decide +kernel
      intro ref href
      rw [hnone] at href
      cases href
  refine crash_consistent asciiOnly id (by decide) hready 7 calls ?_ (crash_exec _ _)
  intro call hcall
  simp only [calls, List.mem_cons, List.not_mem_nil, or_false] at hcall
  rcases hcall with rfl | rfl
  · exact fun c => List.Subset.refl _
  · exact fun c => List.Subset.refl _

end Orchestration

end KakeyaEngine
