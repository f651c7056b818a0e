import KakeyaEngine.Lib.Fallible
import KakeyaEngine.Orchestration.Document

/-!
# Which legacy documents migrate without getting stuck

A document of an older schema that the loader accepts becomes a checkpoint of the current one.  It never has a
compatibility error and never an adapter block.  The rest depends on the document: its state keeps an outgoing transition,
every removed artifact is kept for audit, and the checkpoint can be saved and loaded again exactly when `Migratable` holds
(`migration_unstuck_iff`).
-/

namespace KakeyaEngine

namespace Orchestration

open ProofState Fallible

/-! ### Fields -/

namespace StoredCheckpoint

theorem get_ofFields (v : String → PyValue) {name : String} (h : name ∈ fieldNames) : (ofFields v).get name = v name := by
  have hmem : (name, v name) ∈ (ofFields v).fields.entries := List.mem_map_of_mem h
  unfold get
  rw [Dict.mem_entries_iff.mp hmem]
  rfl

theorem get_set (c : StoredCheckpoint) (v : PyValue) {name name' : String} (h : name' ∈ fieldNames) :
    (c.set name v).get name' = if name' = name then v else c.get name' := get_ofFields _ h

theorem fields_get? (c : StoredCheckpoint) {name : String} (h : name ∈ fieldNames) :
    c.fields.get? name = some (c.get name) := by
  rw [← c.complete] at h
  obtain ⟨v, hv⟩ := Dict.mem_keys_iff.mp h
  unfold get
  rw [hv]
  rfl

/-- A checkpoint is determined by its field values. -/
theorem ofFields_get (c : StoredCheckpoint) : ofFields c.get = c := by
  have hentries : (ofFields c.get).fields.entries = c.fields.entries := by
    change fieldNames.map (fun n => (n, c.get n)) = c.fields.entries
    rw [← c.complete]
    unfold Dict.keys
    rw [List.map_map]
    conv_rhs => rw [← List.map_id c.fields.entries]
    refine List.map_congr_left fun e he => ?_
    have hget : c.fields.get? e.1 = some e.2 := Dict.mem_entries_iff.mp he
    simp only [Function.comp_apply, get, hget, Option.getD_some, id_eq]
  rcases c with ⟨⟨entries, hnodup⟩, hcomplete⟩
  rcases hc : ofFields (get ⟨⟨entries, hnodup⟩, hcomplete⟩) with ⟨⟨entries', hnodup'⟩, hcomplete'⟩
  rw [hc] at hentries
  cases hentries
  rfl

theorem ofFields_congr {v w : String → PyValue} (h : ∀ name ∈ fieldNames, v name = w name) : ofFields v = ofFields w := by
  have hmap : (fieldNames.map fun n => (n, v n)) = fieldNames.map fun n => (n, w n) :=
    List.map_congr_left fun n hn => by rw [h n hn]
  unfold ofFields
  simp only [hmap]

end StoredCheckpoint

/-! ### Artifact references -/

theorem nodup_artifactKeys : artifactKeys.Nodup := by decide

/-- The entries of a mapping that was made from distinct keys. -/
theorem mapping?_map {keys : List String} (hnodup : keys.Nodup) (v : String → PyValue) :
    ∃ m : Dict String PyValue, (PyValue.dict (keys.map fun k => (k, v k))).mapping? = some m ∧
      m.entries = keys.map fun k => (k, v k) := by
  refine ⟨_, rfl, Dict.entries_ofEntries ?_⟩
  rw [List.map_map]
  exact (List.map_id' keys).symm ▸ hnodup

/-- Reading a reference again changes nothing. -/
theorem artifactRef_artifactRef {v r : PyValue} (h : artifactRef v = .ok r) : artifactRef r = .ok r := by
  unfold artifactRef at h
  rcases hm : v.mapping? with _ | m
  · rw [hm] at h
    cases h
  rw [hm] at h
  dsimp only at h
  split at h
  · obtain rfl := Except.ok.inj h
    obtain ⟨m', hm', hentries⟩ := mapping?_map nodup_artifactKeys fun k => (m.get? k).getD .null
    have hkeys : m'.keys = artifactKeys := by
      unfold Dict.keys
      rw [hentries, List.map_map]
      exact List.map_id' _
    have hget : ∀ k ∈ artifactKeys, m'.get? k = some ((m.get? k).getD .null) := by
      intro k hk
      rw [← Dict.mem_entries_iff, hentries]
      exact List.mem_map_of_mem hk
    unfold artifactRef
    rw [hm']
    dsimp only
    rw [if_pos]
    · refine congrArg (Except.ok ∘ PyValue.dict) (List.map_congr_left fun k hk => ?_)
      rw [hget k hk]
      rfl
    · refine ⟨?_, ?_⟩
      · rw [hkeys, List.all_eq_true]
        intro k hk
        exact decide_eq_true hk
      · rw [List.all_eq_true]
        intro k hk
        exact Dict.contains_iff.mpr ⟨_, hget k hk⟩
  · cases h

/-! ### Building a checkpoint -/

section Loading

variable {u : Auth.Unicode} {quote : String → String} {hashes : RegistryHashes} {now : PyValue}

/-- The reference of one role, read. -/
private def readReference (e : String × PyValue) : Except CheckpointError (String × PyValue) :=
  (artifactRef e.2).map fun r => (e.1, r)

private theorem readReference_ok {e r : String × PyValue} (h : readReference e = .ok r) :
    r.1 = e.1 ∧ artifactRef e.2 = .ok r.2 := by
  obtain ⟨v, hv, rfl⟩ := map_eq_ok.mp h
  exact ⟨rfl, hv⟩

theorem itemsOf_ok {v : PyValue} {d : Dict String PyValue} (h : itemsOf v = .ok d) :
    ∃ entries, v = .dict entries ∧ Dict.ofEntries entries = d := by
  cases v with
  | dict entries => exact ⟨entries, rfl, Except.ok.inj h⟩
  | _ => cases h

theorem poppable_ok {v : PyValue} {d : Dict String PyValue} (h : poppable v = .ok d) :
    ∃ entries, v = .dict entries ∧ Dict.ofEntries entries = d := by
  cases v with
  | dict entries => exact ⟨entries, rfl, Except.ok.inj h⟩
  | _ => cases h

/-- What a checkpoint that was built consists of. -/
theorem buildCheckpoint_ok {raw : Dict String PyValue} {c : StoredCheckpoint} (h : buildCheckpoint hashes now raw = .ok c) :
    ∃ artifacts references, (raw.get? "validated_artifacts").getD (.dict []) = .dict artifacts ∧
      (Dict.ofEntries artifacts).entries.mapM readReference = .ok references ∧
      c.get "validated_artifacts" = .dict references ∧
      (∀ name ∈ fieldNames, name ≠ "validated_artifacts" →
        c.get name = (raw.get? name).getD (((fieldDefaults hashes now).lookup name).getD .null)) ∧
      ∃ state, c.proofState = .ok state := by
  unfold buildCheckpoint at h
  obtain ⟨d, hd, h⟩ := bind_eq_ok.mp h
  obtain ⟨references, hreferences, h⟩ := bind_eq_ok.mp h
  obtain ⟨state, hstate, h⟩ := bind_eq_ok.mp h
  obtain rfl := Except.ok.inj h
  obtain ⟨artifacts, hartifacts, rfl⟩ := itemsOf_ok hd
  refine ⟨artifacts, references, hartifacts, hreferences, ?_, fun name hname hne => ?_, state, hstate⟩
  · rw [StoredCheckpoint.get_ofFields _ (by repeat constructor), Dict.get?_set_self]
    rfl
  · rw [StoredCheckpoint.get_ofFields _ hname, Dict.get?_set_ne _ hne]

/-- The artifact references of a checkpoint are in the form in which they are read. -/
def References (c : StoredCheckpoint) : Prop :=
  ∃ references : List (String × PyValue), c.get "validated_artifacts" = .dict references ∧
    (references.map Prod.fst).Nodup ∧ ∀ r ∈ references, artifactRef r.2 = .ok r.2

theorem references_of_build {raw : Dict String PyValue} {c : StoredCheckpoint}
    (h : buildCheckpoint hashes now raw = .ok c) : References c := by
  obtain ⟨artifacts, references, -, hreferences, hget, -⟩ := buildCheckpoint_ok h
  refine ⟨references, hget, ?_, fun r hr => ?_⟩
  · rw [map_mapM (p := Prod.fst) (fun a b hab => (readReference_ok hab).1) hreferences]
    exact (Dict.ofEntries artifacts).nodup
  · obtain ⟨e, -, he⟩ := exists_of_mem_mapM hreferences r hr
    exact artifactRef_artifactRef (readReference_ok he).2

/-- A checkpoint is built again from its own fields. -/
theorem buildCheckpoint_fields {c : StoredCheckpoint} {state : ProofState} (hrefs : References c)
    (hstate : c.proofState = .ok state) : buildCheckpoint hashes now c.fields = .ok c := by
  obtain ⟨references, hget, hnodup, hread⟩ := hrefs
  have hfield : c.fields.get? "validated_artifacts" = some (.dict references) := by
    rw [c.fields_get? (by repeat constructor), hget]
  have hfixed : references.mapM readReference = .ok references :=
    mapM_fixed fun r hr => map_eq_ok.mpr ⟨r.2, hread r hr, rfl⟩
  have hsame : (StoredCheckpoint.ofFields fun name =>
      ((c.fields.set "validated_artifacts" (.dict references)).get? name).getD
        (((fieldDefaults hashes now).lookup name).getD .null)) = c := by
    conv_rhs => rw [← c.ofFields_get]
    refine StoredCheckpoint.ofFields_congr fun name hname => ?_
    by_cases hne : name = "validated_artifacts"
    · subst hne
      rw [Dict.get?_set_self, hget]
      rfl
    · rw [Dict.get?_set_ne _ hne, c.fields_get? hname]
      rfl
  unfold buildCheckpoint
  refine bind_eq_ok.mpr ⟨Dict.ofEntries references, ?_, ?_⟩
  · rw [hfield]
    rfl
  refine bind_eq_ok.mpr ⟨references, ?_, ?_⟩
  · rw [Dict.entries_ofEntries hnodup]
    exact hfixed
  refine bind_eq_ok.mpr ⟨state, ?_, ?_⟩
  · rw [hsame]
    exact hstate
  · rw [hsame]

/-! ### Removing the legacy artifacts -/

/-- The role has a reference, and this is it, with the text of its hash. -/
def Removed (quote : String → String) (artifacts : Dict String PyValue) (role : String) (ref : Dict String PyValue)
    (key : String) : Prop :=
  ∃ reference sha256, artifacts.get? role = some reference ∧ reference.truthy = true ∧ reference.mapping? = some ref ∧
    ref.get? "sha256" = some sha256 ∧ sha256.text quote = key

/-- The invalidated artifacts have what is kept of the reference. -/
def Stored (invalidated : PyValue) (key : String) (ref : Dict String PyValue) : Prop :=
  ∃ kept, invalidated.mapping? = some kept ∧ kept.get? key = some (.dict (legacyEntry ref).entries)

theorem removed_erase {artifacts : Dict String PyValue} {role role' : String} (hne : role' ≠ role)
    {ref : Dict String PyValue} {key : String} :
    Removed quote (artifacts.erase role) role' ref key ↔ Removed quote artifacts role' ref key := by
  unfold Removed
  rw [Dict.get?_erase_ne hne]

/-- One pass of the loop: a role without a reference changes nothing, and any other one is stored under its hash. -/
theorem removeLegacy_cons {artifacts : Dict String PyValue} {invalidated : PyValue} {role : String} {roles : List String}
    {out : Dict String PyValue × PyValue} (h : removeLegacy quote artifacts invalidated (role :: roles) = .ok out) :
    (∀ reference, artifacts.get? role = some reference → reference.truthy = false) ∧
        removeLegacy quote (artifacts.erase role) invalidated roles = .ok out ∨
      ∃ ref key invalidated', Removed quote artifacts role ref key ∧ Stored invalidated' key ref ∧
        (∀ key' ref', key' ≠ key → Stored invalidated key' ref' → Stored invalidated' key' ref') ∧
        removeLegacy quote (artifacts.erase role) invalidated' roles = .ok out := by
  unfold removeLegacy at h
  rcases hrole : artifacts.get? role with _ | reference
  · rw [hrole] at h
    refine .inl ⟨?_, ?_⟩
    · intro reference href
      cases href
    · rw [Dict.erase_of_absent hrole]
      exact h
  rw [hrole] at h
  dsimp only at h
  by_cases htruthy : reference.truthy = true
  · rw [if_pos htruthy] at h
    rcases hmap : reference.mapping? with _ | ref
    · rw [hmap] at h
      cases h
    rcases hsha : ref.get? "sha256" with _ | sha256
    · rw [hmap] at h
      simp only [hsha] at h
      cases h
    rcases hkept : invalidated.mapping? with _ | kept
    · rw [hmap] at h
      simp only [hsha, hkept] at h
      cases h
    rw [hmap] at h
    simp only [hsha, hkept] at h
    refine .inr ⟨ref, sha256.text quote, _, ⟨reference, sha256, hrole, htruthy, hmap, hsha, rfl⟩, ?_, ?_, h⟩
    · refine ⟨_, rfl, ?_⟩
      rw [Dict.ofEntries_entries, Dict.get?_set_self]
    · rintro key' ref' hne ⟨kept', hkept', hget⟩
      rw [hkept] at hkept'
      obtain rfl := Option.some.inj hkept'
      refine ⟨_, rfl, ?_⟩
      rw [Dict.ofEntries_entries, Dict.get?_set_ne _ hne, hget]
  · rw [if_neg htruthy] at h
    refine .inl ⟨fun reference' href => ?_, h⟩
    obtain rfl := Option.some.inj href
    exact Bool.eq_false_iff.mpr htruthy

/-- What is stored stays stored, or gives way to a removed artifact with the same hash. -/
theorem stored_removeLegacy {artifacts : Dict String PyValue} {invalidated : PyValue} {roles : List String}
    {out : Dict String PyValue × PyValue} (hnodup : roles.Nodup)
    (h : removeLegacy quote artifacts invalidated roles = .ok out) {key : String} {ref : Dict String PyValue}
    (hstored : Stored invalidated key ref) :
    Stored out.2 key ref ∨ ∃ role ∈ roles, ∃ ref', Removed quote artifacts role ref' key ∧ Stored out.2 key ref' := by
  induction roles generalizing artifacts invalidated ref with
  | nil =>
    obtain rfl := Except.ok.inj h
    exact .inl hstored
  | cons role roles ih =>
    rw [List.nodup_cons] at hnodup
    have hlift : (∃ r ∈ roles, ∃ ref', Removed quote (artifacts.erase role) r ref' key ∧ Stored out.2 key ref') →
        ∃ r ∈ role :: roles, ∃ ref', Removed quote artifacts r ref' key ∧ Stored out.2 key ref' := by
      rintro ⟨r, hr, ref', hremoved, hs⟩
      have hne : r ≠ role := fun heq => hnodup.1 (heq ▸ hr)
      exact ⟨r, List.mem_cons_of_mem _ hr, ref', (removed_erase hne).mp hremoved, hs⟩
    rcases removeLegacy_cons h with ⟨-, hrest⟩ | ⟨ref₁, key₁, invalidated₁, hremoved, hstored₁, hother, hrest⟩
    · exact (ih hnodup.2 hrest hstored).imp id hlift
    · by_cases hkey : key = key₁
      · subst hkey
        rcases ih hnodup.2 hrest hstored₁ with hs | hs
        · exact .inr ⟨role, List.mem_cons_self, ref₁, hremoved, hs⟩
        · exact .inr (hlift hs)
      · exact (ih hnodup.2 hrest (hother _ _ hkey hstored)).imp id hlift

/-- The loop over the legacy roles: none of them is left, every reference among them could be read, and each is stored
under its hash unless a removed artifact with the same hash is. -/
theorem removeLegacy_ok {artifacts : Dict String PyValue} {invalidated : PyValue} {roles : List String}
    {out : Dict String PyValue × PyValue} (hnodup : roles.Nodup)
    (h : removeLegacy quote artifacts invalidated roles = .ok out) :
    (∀ role ∈ roles, out.1.get? role = none) ∧ (∀ role, artifacts.get? role = none → out.1.get? role = none) ∧
      (∀ role ∈ roles, ∀ reference, artifacts.get? role = some reference → reference.truthy = true →
        ∃ ref key, Removed quote artifacts role ref key) ∧
      ∀ role ∈ roles, ∀ ref key, Removed quote artifacts role ref key →
        ∃ role' ∈ roles, ∃ ref', Removed quote artifacts role' ref' key ∧ Stored out.2 key ref' := by
  induction roles generalizing artifacts invalidated with
  | nil =>
    obtain rfl := Except.ok.inj h
    exact ⟨List.forall_mem_nil _, fun _ h => h, List.forall_mem_nil _, List.forall_mem_nil _⟩
  | cons role roles ih =>
    rw [List.nodup_cons] at hnodup
    have hne : ∀ r ∈ roles, r ≠ role := fun r hr heq => hnodup.1 (heq ▸ hr)
    -- the rest of the loop runs without the role, on some invalidated artifacts
    have hrest : ∃ invalidated', removeLegacy quote (artifacts.erase role) invalidated' roles = .ok out := by
      rcases removeLegacy_cons h with ⟨-, hrest⟩ | ⟨-, -, invalidated₁, -, -, -, hrest⟩
      · exact ⟨_, hrest⟩
      · exact ⟨_, hrest⟩
    obtain ⟨invalidated', hrest⟩ := hrest
    obtain ⟨hgone, hnone, hread, hstored⟩ := ih hnodup.2 hrest
    refine ⟨?_, ?_, ?_, ?_⟩
    · intro r hr
      rcases List.mem_cons.mp hr with rfl | hr
      · exact hnone _ (Dict.get?_erase_self _ _)
      · exact hgone r hr
    · intro r hr
      refine hnone r ?_
      rw [Dict.get?_erase]
      split
      · rfl
      · exact hr
    · intro r hr reference href htruthy
      rcases List.mem_cons.mp hr with rfl | hr
      · rcases removeLegacy_cons h with ⟨hfalsy, -⟩ | ⟨ref, key, -, hremoved, -⟩
        · rw [hfalsy reference href] at htruthy
          cases htruthy
        · exact ⟨ref, key, hremoved⟩
      · obtain ⟨ref, key, hremoved⟩ := hread r hr reference (by rw [Dict.get?_erase_ne (hne r hr), href]) htruthy
        exact ⟨ref, key, (removed_erase (hne r hr)).mp hremoved⟩
    · intro r hr ref key hremoved
      rcases List.mem_cons.mp hr with rfl | hr
      · rcases removeLegacy_cons h with ⟨hfalsy, -⟩ | ⟨ref₁, key₁, invalidated₁, hremoved₁, hstored₁, -, hrest₁⟩
        · obtain ⟨reference, -, href, htruthy, -⟩ := hremoved
          rw [hfalsy reference href] at htruthy
          cases htruthy
        · have hkey : key = key₁ := by
            obtain ⟨reference, sha, href, -, hmap, hsha, rfl⟩ := hremoved
            obtain ⟨reference₁, sha₁, href₁, -, hmap₁, hsha₁, rfl⟩ := hremoved₁
            obtain rfl := Option.some.inj (href.symm.trans href₁)
            obtain rfl := Option.some.inj (hmap.symm.trans hmap₁)
            obtain rfl := Option.some.inj (hsha.symm.trans hsha₁)
            rfl
          subst hkey
          rcases stored_removeLegacy hnodup.2 hrest₁ hstored₁ with hs | ⟨r', hr', ref', hremoved', hs⟩
          · exact ⟨_, List.mem_cons_self, ref₁, hremoved₁, hs⟩
          · exact ⟨r', List.mem_cons_of_mem _ hr', ref', (removed_erase (hne r' hr')).mp hremoved', hs⟩
      · obtain ⟨r', hr', ref', hremoved', hs⟩ := hstored r hr ref key ((removed_erase (hne r hr)).mpr hremoved)
        exact ⟨r', List.mem_cons_of_mem _ hr', ref', (removed_erase (hne r' hr')).mp hremoved', hs⟩

/-! ### The migration as a whole -/

/-- The names that the migration resets. -/
def resetNames : List String := (migrationResets ⟨"", ""⟩).map Prod.fst

theorem get?_resets (d : Dict String PyValue) {name : String} (h : name ∉ resetNames) :
    (d.update (migrationResets hashes)).get? name = d.get? name := Dict.get?_update_of_not_mem h

theorem get?_reset_self (d : Dict String PyValue) {e : String × PyValue} (h : e ∈ migrationResets hashes) :
    (d.update (migrationResets hashes)).get? e.1 = some e.2 := by
  have hnodup : resetNames.Nodup := by decide +kernel
  have hnodup' : ((migrationResets hashes).map Prod.fst).Nodup := hnodup
  exact Dict.get?_update_of_mem hnodup' h

/-- What a migration that succeeded has done to the fields that the rest of the loader and a save read. -/
theorem migrate_ok {legacySchema legacyArchitecture : Int} {legacyState : String} {raw raw' : Dict String PyValue}
    (h : migrate quote hashes legacySchema legacyArchitecture legacyState now raw = .ok raw') :
    ∃ entries out proposals, (raw.get? "validated_artifacts").getD (.dict []) = .dict entries ∧
      removeLegacy quote (Dict.ofEntries entries) ((raw.get? "invalidated_artifacts").getD (.dict [])) legacyRoles =
        .ok out ∧
      raw'.get? "validated_artifacts" = some (.dict out.1.entries) ∧ raw'.get? "invalidated_artifacts" = some out.2 ∧
      raw'.get? "state" = (if legacyArchitecture < architectureVersion then
        some (.str (migratedState legacyState).value) else raw.get? "state") ∧
      raw'.get? "viewpoints_tried" = raw.get? "viewpoints_tried" ∧
      popProposals ((raw.get? "decomposition_proposals").getD (.list [])) = .ok proposals ∧
      (raw'.get? "decomposition_proposals").getD (.list []) = proposals ∧
      (∀ e ∈ migrationResets hashes, raw'.get? e.1 = some e.2) ∧
      raw'.get? "schema_version" = some (.int schemaVersion) := by
  unfold migrate at h
  obtain ⟨artifacts, hartifacts, h⟩ := bind_eq_ok.mp h
  obtain ⟨out, hout, h⟩ := bind_eq_ok.mp h
  dsimp only at h
  obtain ⟨counters, -, h⟩ := bind_eq_ok.mp h
  obtain ⟨proposals, hproposals, h⟩ := bind_eq_ok.mp h
  obtain ⟨events, -, h⟩ := bind_eq_ok.mp h
  obtain ⟨entries, hentries, rfl⟩ := poppable_ok hartifacts
  generalize hd₁ : (raw.set "validated_artifacts" (.dict out.1.entries)).set "invalidated_artifacts" out.2 = d₁ at *
  generalize hd₂ : (if legacyArchitecture < architectureVersion then d₁.update _ else d₁) = d₂ at *
  generalize hd₃ : d₂.update (migrationResets hashes) = d₃ at *
  generalize hd₄ : d₃.set "retry_counters" _ = d₄ at *
  generalize hd₅ : popSemantic d₄ = d₅ at *
  generalize hd₆ : (if d₅.contains "decomposition_proposals" = true then d₅.set "decomposition_proposals" proposals
    else d₅) = d₆ at *
  obtain rfl := Except.ok.inj h
  have h₅ : ∀ name, name ≠ "semantic_rejection" → d₅.get? name = d₄.get? name := by
    intro name hname
    rw [← hd₅]
    unfold popSemantic
    rcases d₄.get? "semantic_rejection" with _ | v
    · rfl
    · exact Dict.get?_set_ne _ hname
  have h₆ : ∀ name, name ≠ "decomposition_proposals" → d₆.get? name = d₅.get? name := by
    intro name hname
    rw [← hd₆]
    split
    · exact Dict.get?_set_ne _ hname
    · rfl
  -- a field that is set before the resets and not by them
  have hkeep : ∀ name, name ∉ resetNames → name ≠ "retry_counters" → name ≠ "semantic_rejection" →
      d₅.get? name = d₂.get? name := by
    intro name hreset hcounters hsemantic
    rw [h₅ name hsemantic, ← hd₄, Dict.get?_set_ne _ hcounters, ← hd₃, get?_resets _ hreset]
  have hmove : ∀ name, name ∉ ["state", "current_role", "resume_origin", "last_transition_reason", "blocked_reason"] →
      d₂.get? name = d₁.get? name := by
    intro name hname
    rw [← hd₂]
    split
    · exact Dict.get?_update_of_not_mem hname
    · rfl
  have hproposals' : d₅.get? "decomposition_proposals" = raw.get? "decomposition_proposals" := by
    rw [hkeep _ (by simp [resetNames, migrationResets, currentCapabilityManifest]) (by decide) (by decide), hmove _ (by decide), ← hd₁, Dict.get?_set_ne _ (by decide),
      Dict.get?_set_ne _ (by decide)]
  rw [hproposals'] at hproposals
  refine ⟨entries, out, proposals, hentries, hout, ?_, ?_, ?_, ?_, hproposals, ?_, ?_, Dict.get?_set_self _ _ _⟩
  · rw [Dict.get?_set_ne _ (by decide), Dict.get?_set_ne _ (by decide), h₆ _ (by decide),
      hkeep _ (by simp [resetNames, migrationResets, currentCapabilityManifest]) (by decide) (by decide), hmove _ (by decide), ← hd₁, Dict.get?_set_ne _ (by decide),
      Dict.get?_set_self]
  · rw [Dict.get?_set_ne _ (by decide), Dict.get?_set_ne _ (by decide), h₆ _ (by decide),
      hkeep _ (by simp [resetNames, migrationResets, currentCapabilityManifest]) (by decide) (by decide), hmove _ (by decide), ← hd₁, Dict.get?_set_self]
  · rw [Dict.get?_set_ne _ (by decide), Dict.get?_set_ne _ (by decide), h₆ _ (by decide),
      hkeep _ (by simp [resetNames, migrationResets, currentCapabilityManifest]) (by decide) (by decide), ← hd₂]
    split
    · have hnames : ["state", "current_role", "resume_origin", "last_transition_reason", "blocked_reason"].Nodup := by
        decide
      exact Dict.get?_update_of_mem hnames List.mem_cons_self
    · rw [← hd₁, Dict.get?_set_ne _ (by decide), Dict.get?_set_ne _ (by decide)]
  · rw [Dict.get?_set_ne _ (by decide), Dict.get?_set_ne _ (by decide), h₆ _ (by decide),
      hkeep _ (by simp [resetNames, migrationResets, currentCapabilityManifest]) (by decide) (by decide), hmove _ (by decide), ← hd₁, Dict.get?_set_ne _ (by decide),
      Dict.get?_set_ne _ (by decide)]
  · rw [Dict.get?_set_ne _ (by decide), Dict.get?_set_ne _ (by decide), ← hd₆]
    by_cases hcontains : d₅.contains "decomposition_proposals" = true
    · rw [if_pos hcontains, Dict.get?_set_self]
      rfl
    · rw [if_neg hcontains]
      have hnone : d₅.get? "decomposition_proposals" = none := by
        rw [Dict.contains_iff] at hcontains
        exact Option.eq_none_iff_forall_ne_some.mpr fun v hv => hcontains ⟨v, hv⟩
      rw [hnone]
      rw [← hproposals', hnone] at hproposals
      exact (Except.ok.inj hproposals)
  · intro e he
    have hname : e.1 ∈ (migrationResets hashes).map Prod.fst := List.mem_map_of_mem he
    have hne : ∀ name, name ∉ resetNames → e.1 ≠ name := fun name hn heq => hn (heq ▸ hname)
    rw [Dict.get?_set_ne _ (hne _ (by simp [resetNames, migrationResets, currentCapabilityManifest])), Dict.get?_set_ne _ (hne _ (by simp [resetNames, migrationResets, currentCapabilityManifest])),
      h₆ _ (hne _ (by simp [resetNames, migrationResets, currentCapabilityManifest])), h₅ _ (hne _ (by simp [resetNames, migrationResets, currentCapabilityManifest])), ← hd₄,
      Dict.get?_set_ne _ (hne _ (by simp [resetNames, migrationResets, currentCapabilityManifest])), ← hd₃, get?_reset_self _ he]

/-! ### Dropping the old counter from the proposals -/

theorem mapping?_popAttempt (v : PyValue) :
    (popAttempt v).mapping? = v.mapping?.map fun m => m.erase "protocol_attempt" := by
  cases v with
  | dict entries =>
    simp only [popAttempt, PyValue.mapping?, Option.map_some]
    rw [Dict.ofEntries_entries]
  | _ => rfl

/-- The manifest does not show the counter of the old protocol. -/
theorem manifestRecord_popAttempt (item : PyValue) :
    manifestRecord u quote (popAttempt item) = manifestRecord u quote item := by
  unfold manifestRecord
  rw [mapping?_popAttempt]
  rcases item.mapping? with _ | m
  · rfl
  · have hget : ∀ name, name ≠ "protocol_attempt" → (m.erase "protocol_attempt").get? name = m.get? name :=
      fun name hname => Dict.get?_erase_ne hname
    dsimp only [Option.map_some]
    rw [hget "rejection_reasons" (by decide), hget "decomposition_iteration" (by decide),
      hget "proposal_sha256" (by decide), hget "semantic_hash" (by decide), hget "structural_signature" (by decide),
      hget "viewpoint" (by decide), hget "source_run_id" (by decide)]

theorem savedManifest_popProposals {proposals proposals' viewpoints : PyValue}
    (h : popProposals proposals = .ok proposals') :
    savedManifest u quote proposals' viewpoints = savedManifest u quote proposals viewpoints := by
  cases proposals with
  | list items =>
    obtain rfl := Except.ok.inj h
    have htruthy : (PyValue.list (items.map popAttempt)).truthy = (PyValue.list items).truthy := by
      cases items with
      | nil => rfl
      | cons _ _ => rfl
    have hrecords : (items.map popAttempt).mapM (manifestRecord u quote) = items.mapM (manifestRecord u quote) := by
      rw [List.mapM_map]
      exact congrArg (fun f => items.mapM f) (funext fun item => manifestRecord_popAttempt item)
    unfold savedManifest
    rw [htruthy]
    split
    · unfold noveltyManifest
      simp only [iterate, bind, Except.bind]
      rw [hrecords]
    · rfl
  | dict entries =>
    obtain rfl := Except.ok.inj h
    rfl
  | str s =>
    obtain rfl := Except.ok.inj h
    rfl
  | _ => cases h

/-! ### Loading what was saved -/

/-- The entries of the manifest are consecutive fields of the checkpoint. -/
theorem manifest_names : (currentCapabilityManifest hashes).map Prod.fst = (fieldNames.drop 42).take 13 := rfl

theorem manifest_known {name : String} (h : name ∈ (currentCapabilityManifest hashes).map Prod.fst) :
    name ∈ fieldNames := by
  rw [manifest_names] at h
  exact List.mem_of_mem_drop (List.mem_of_mem_take h)

theorem resets_known : ∀ name ∈ resetNames, name ∈ fieldNames := by
  unfold resetNames migrationResets
  rw [List.map_append, List.map_append]
  simp only [List.forall_mem_append]
  refine ⟨⟨?_, fun name => manifest_known⟩, ?_⟩
  · simp only [List.map_cons, List.map_nil, List.forall_mem_cons]
    exact ⟨by repeat constructor, by repeat constructor, List.forall_mem_nil _⟩
  · simp only [List.map_cons, List.map_nil, List.forall_mem_cons]
    exact ⟨by repeat constructor, by repeat constructor, by repeat constructor, by repeat constructor, by repeat constructor,
      List.forall_mem_nil _⟩

/-- The capabilities of the runtime. -/
def Capable (hashes : RegistryHashes) (c : StoredCheckpoint) : Prop :=
  c.get "architecture_version" = .int architectureVersion ∧ c.get "schema_version" = .int schemaVersion ∧
    ∀ e ∈ currentCapabilityManifest hashes, c.get e.1 = e.2

theorem same_manifest : ∀ e ∈ currentCapabilityManifest hashes, e.2.same e.2 = true := by
  simp only [currentCapabilityManifest, List.forall_mem_cons]
  refine ⟨?_, ?_, ?_, ?_, ?_, ?_, ?_, ?_, ?_, ?_, ?_, ?_, ?_⟩
  all_goals first
    | (unfold PyValue.same; exact decide_eq_true rfl)
    | decide +kernel

theorem compatible_of_capable {c : StoredCheckpoint} (h : Capable hashes c) :
    checkpointCompatibilityErrors quote hashes c = .ok [] := by
  obtain ⟨harchitecture, hschema, hmanifest⟩ := h
  have hnumber : (PyValue.int architectureVersion).number? = some (architectureVersion : ℚ) := rfl
  have hsame : (PyValue.int schemaVersion).same (.int schemaVersion) = true := by
    unfold PyValue.same
    exact decide_eq_true rfl
  have hfilter : ((currentCapabilityManifest hashes).filter fun e => !(c.get e.1).same e.2) = [] := by
    rw [List.filter_eq_nil_iff]
    intro e he
    rw [hmanifest e he, same_manifest e he]
    decide
  unfold checkpointCompatibilityErrors
  rw [harchitecture, hnumber, hschema, hfilter]
  dsimp only
  rw [if_neg (by decide), if_neg (by decide), if_pos hsame]
  rfl

theorem integrationBlock_of_capable {c : StoredCheckpoint} (h : Capable hashes c) :
    integrationBlock quote hashes c now = .ok c :=
  bind_eq_ok.mpr ⟨[], compatible_of_capable h, rfl⟩

/-- A capable checkpoint with readable references and a known state is loaded from its own document. -/
theorem loadCheckpoint_asdict {c : StoredCheckpoint} {state : ProofState} (hcapable : Capable hashes c)
    (hrefs : References c) (hstate : c.proofState = .ok state) : loadCheckpoint u quote hashes now c.asdict = .ok c := by
  have hmapping : c.asdict.mapping? = some c.fields := congrArg some (Dict.ofEntries_entries c.fields)
  have hschema : c.fields.get? "schema_version" = some (.int schemaVersion) := by
    rw [c.fields_get? (by repeat constructor), hcapable.2.1]
  have harchitecture : c.fields.get? "architecture_version" = some (.int architectureVersion) := by
    rw [c.fields_get? (by repeat constructor), hcapable.1]
  have hmissing : (((currentCapabilityManifest hashes).map Prod.fst).filter fun name => !c.fields.contains name) = [] := by
    rw [List.filter_eq_nil_iff]
    intro name hname
    have hcontains : c.fields.contains name = true := Dict.contains_iff.mpr ⟨_, c.fields_get? (manifest_known hname)⟩
    rw [hcontains]
    decide
  unfold loadCheckpoint
  rw [hmapping]
  refine bind_eq_ok.mpr ⟨schemaVersion, ?_, ?_⟩
  · rw [hschema]
    rfl
  refine bind_eq_ok.mpr ⟨architectureVersion, ?_, ?_⟩
  · rw [harchitecture]
    rfl
  dsimp only
  rw [if_neg (lt_irrefl schemaVersion)]
  refine bind_eq_ok.mpr ⟨c.fields, rfl, ?_⟩
  refine bind_eq_ok.mpr ⟨c, buildCheckpoint_fields hrefs hstate, ?_⟩
  rw [hmissing, ite_self, if_neg (not_not_intro rfl)]
  exact integrationBlock_of_capable hcapable

/-! ### Documents that do not get stuck -/

/-- The keys that the migration sets on a removed reference. -/
def auditKeys : List String := ["audit_only", "reason_codes", "migration_event"]

/-- The references agree but for the audit keys. -/
def SameReference (ref ref' : Dict String PyValue) : Prop := ∀ key, key ∉ auditKeys → ref.get? key = ref'.get? key

/-- The reference is kept under its hash, for audit only. -/
def AuditOnly (invalidated : PyValue) (key : String) (ref : Dict String PyValue) : Prop :=
  ∃ kept v entry, invalidated.mapping? = some kept ∧ kept.get? key = some v ∧ v.mapping? = some entry ∧
    entry.get? "audit_only" = some (.bool true) ∧ SameReference entry ref

/-- The validated artifacts of a document. -/
def artifactsOf (raw : Dict String PyValue) : Dict String PyValue :=
  match raw.get? "validated_artifacts" with
  | some (.dict entries) => Dict.ofEntries entries
  | _ => Dict.empty

variable (u quote hashes)

/-- The document's state has a way out, its removed references with one hash agree, and the novelty manifest of its
proposals can be built. -/
structure Migratable (raw : Dict String PyValue) : Prop where
  executable : ∀ architecture, toInt u ((raw.get? "architecture_version").getD (.int 1)) = .ok architecture →
    architectureVersion ≤ architecture → ∀ state : ProofState, raw.get? "state" = some (.str state.value) →
    allowedTransitions state ≠ []
  unshared : ∀ role ∈ legacyRoles, ∀ role' ∈ legacyRoles, ∀ ref ref' key, Removed quote (artifactsOf raw) role ref key →
    Removed quote (artifactsOf raw) role' ref' key → SameReference ref ref'
  savable : ∃ manifest, savedManifest u quote ((raw.get? "decomposition_proposals").getD (.list []))
    ((raw.get? "viewpoints_tried").getD (.list [])) = .ok manifest

/-- The checkpoint that a document became is compatible and not blocked, can move on, has no legacy artifact but has kept
every one for audit, and is loaded again as it was saved. -/
structure Unstuck (raw : Dict String PyValue) (c : StoredCheckpoint) : Prop where
  compatible : checkpointCompatibilityErrors quote hashes c = .ok []
  unblocked : c.get "adapter_status" = .str ""
  executable : ∃ state, c.proofState = .ok state ∧ allowedTransitions state ≠ []
  removed : ∃ artifacts, c.get "validated_artifacts" = .dict artifacts ∧ ∀ role ∈ legacyRoles, role ∉ artifacts.map Prod.fst
  kept : ∀ role ∈ legacyRoles, ∀ reference, (artifactsOf raw).get? role = some reference → reference.truthy = true →
    ∃ ref key, Removed quote (artifactsOf raw) role ref key ∧ AuditOnly (c.get "invalidated_artifacts") key ref
  reloads : ∀ saved loaded, ∃ document, saveCheckpoint u quote c saved = .ok document ∧
    loadCheckpoint u quote hashes loaded document = .ok (c.set "updated_at" saved)

variable {u quote hashes}

theorem artifactsOf_eq {raw : Dict String PyValue} {entries : List (String × PyValue)}
    (h : (raw.get? "validated_artifacts").getD (.dict []) = .dict entries) : artifactsOf raw = Dict.ofEntries entries := by
  unfold artifactsOf
  rcases hv : raw.get? "validated_artifacts" with _ | v
  · rw [hv] at h
    obtain rfl := PyValue.dict.inj h
    rfl
  · rw [hv] at h
    dsimp only [Option.getD_some] at h
    subst h
    rfl

theorem legacyEntry_sameReference (ref : Dict String PyValue) : SameReference (legacyEntry ref) ref :=
  fun _ hkey => Dict.get?_update_of_not_mem hkey

theorem legacyEntry_auditOnly (ref : Dict String PyValue) : (legacyEntry ref).get? "audit_only" = some (.bool true) := by
  have hnodup : auditKeys.Nodup := by decide
  exact Dict.get?_update_of_mem hnodup List.mem_cons_self

theorem auditOnly_of_stored {invalidated : PyValue} {key : String} {ref ref' : Dict String PyValue}
    (h : Stored invalidated key ref') (hsame : SameReference ref' ref) : AuditOnly invalidated key ref := by
  obtain ⟨kept, hkept, hget⟩ := h
  refine ⟨kept, _, legacyEntry ref', hkept, hget, congrArg some (Dict.ofEntries_entries _), legacyEntry_auditOnly ref', ?_⟩
  exact fun k hk => (legacyEntry_sameReference ref' k hk).trans (hsame k hk)

/-- Two references that are kept under one hash agree. -/
theorem AuditOnly.agree {invalidated : PyValue} {key : String} {ref ref' : Dict String PyValue}
    (h : AuditOnly invalidated key ref) (h' : AuditOnly invalidated key ref') : SameReference ref ref' := by
  obtain ⟨kept, v, entry, hkept, hv, hentry, -, hsame⟩ := h
  obtain ⟨kept', v', entry', hkept', hv', hentry', -, hsame'⟩ := h'
  obtain rfl := Option.some.inj (hkept.symm.trans hkept')
  obtain rfl := Option.some.inj (hv.symm.trans hv')
  obtain rfl := Option.some.inj (hentry.symm.trans hentry')
  exact fun k hk => (hsame k hk).symm.trans (hsame' k hk)

/-- What a legacy document that is accepted becomes. -/
structure Migrated (u : Auth.Unicode) (quote : String → String) (hashes : RegistryHashes) (raw : Dict String PyValue)
    (c : StoredCheckpoint) : Prop where
  capable : Capable hashes c
  references : References c
  unblocked : c.get "adapter_status" = .str ""
  state : ∃ architecture, toInt u ((raw.get? "architecture_version").getD (.int 1)) = .ok architecture ∧
    c.get "state" = (if architecture < architectureVersion then
      .str (migratedState (((raw.get? "state").getD (.str needsStrategy.value)).text quote)).value
    else (raw.get? "state").getD (.str strategyTournament.value))
  known : ∃ state, c.proofState = .ok state
  artifacts : ∃ out entries, removeLegacy quote (artifactsOf raw) ((raw.get? "invalidated_artifacts").getD (.dict []))
      legacyRoles = .ok out ∧ c.get "invalidated_artifacts" = out.2 ∧ c.get "validated_artifacts" = .dict entries ∧
    entries.map Prod.fst = out.1.keys
  manifest : savedManifest u quote (c.get "decomposition_proposals") (c.get "viewpoints_tried") =
    savedManifest u quote ((raw.get? "decomposition_proposals").getD (.list []))
      ((raw.get? "viewpoints_tried").getD (.list []))

theorem migrated_of_load {document : PyValue} {raw : Dict String PyValue} {schema : Int} {c : StoredCheckpoint}
    (hraw : document.mapping? = some raw) (hschema : toInt u ((raw.get? "schema_version").getD (.int 1)) = .ok schema)
    (hlegacy : schema < schemaVersion) (hload : loadCheckpoint u quote hashes now document = .ok c) :
    Migrated u quote hashes raw c := by
  unfold loadCheckpoint at hload
  rw [hraw] at hload
  obtain ⟨schema', hschema', hload⟩ := bind_eq_ok.mp hload
  obtain rfl := Except.ok.inj (hschema.symm.trans hschema')
  obtain ⟨architecture, harchitecture, hload⟩ := bind_eq_ok.mp hload
  dsimp only at hload
  rw [if_pos hlegacy, if_neg fun h => absurd h.1 (by omega)] at hload
  obtain ⟨raw', hmigrate, hload⟩ := bind_eq_ok.mp hload
  obtain ⟨c', hbuild, hload⟩ := bind_eq_ok.mp hload
  rw [if_neg (not_not_intro rfl)] at hload
  obtain ⟨entries, out, proposals, hentries, hout, hartifacts, hinvalidated, hstate, hviewpoints, hpop, hproposals, hresets,
    hversion⟩ := migrate_ok hmigrate
  obtain ⟨artifacts, references, hva, hreferences, hget, hfields, hknown⟩ := buildCheckpoint_ok hbuild
  -- a field that the migration left is the field of the checkpoint
  have hfield : ∀ name v, name ∈ fieldNames → name ≠ "validated_artifacts" → raw'.get? name = some v → c'.get name = v := by
    intro name v hname hne hv
    rw [hfields name hname hne, hv]
    rfl
  have hreset : ∀ e ∈ migrationResets hashes, c'.get e.1 = e.2 := by
    intro e he
    have hmem : e.1 ∈ (migrationResets hashes).map Prod.fst := List.mem_map_of_mem he
    have hne : "validated_artifacts" ∉ resetNames := by
      simp [resetNames, migrationResets, currentCapabilityManifest]
    exact hfield _ _ (resets_known _ hmem) (fun h => hne (h ▸ hmem)) (hresets e he)
  have hcapable : Capable hashes c' := by
    refine ⟨hreset ("architecture_version", .int architectureVersion) (by simp [migrationResets]), ?_, fun e he => ?_⟩
    · exact hfield _ _ (by repeat constructor) (by decide) hversion
    · exact hreset e (by simp [migrationResets, he])
  rw [integrationBlock_of_capable hcapable] at hload
  obtain rfl := Except.ok.inj hload
  rw [hartifacts] at hva
  obtain rfl := PyValue.dict.inj hva
  rw [Dict.ofEntries_entries] at hreferences
  refine {
    capable := hcapable
    references := references_of_build hbuild
    unblocked := hreset ("adapter_status", .str "") (by simp [migrationResets])
    state := ⟨architecture, harchitecture, ?_⟩
    known := hknown
    artifacts := ⟨out, references, ?_, ?_, hget, ?_⟩
    manifest := ?_ }
  · rw [hfields "state" (by repeat constructor) (by decide), hstate]
    split
    · rfl
    · rfl
  · rw [artifactsOf_eq hentries]
    exact hout
  · exact hfield _ _ (by repeat constructor) (by decide) hinvalidated
  · exact map_mapM (p := Prod.fst) (fun a b hab => (readReference_ok hab).1) hreferences
  · have hp : c'.get "decomposition_proposals" = proposals := by
      rw [hfields "decomposition_proposals" (by repeat constructor) (by decide)]
      exact hproposals
    have hv : c'.get "viewpoints_tried" = (raw.get? "viewpoints_tried").getD (.list []) := by
      rw [hfields "viewpoints_tried" (by repeat constructor) (by decide), hviewpoints]
      rfl
    rw [hp, hv, savedManifest_popProposals hpop]

/-- A save of a checkpoint succeeds when its state is known and its manifest can be built. -/
theorem saveCheckpoint_iff {c : StoredCheckpoint} {state : ProofState} (hstate : c.proofState = .ok state) (saved : PyValue) :
    (∃ document, saveCheckpoint u quote c saved = .ok document) ↔
      ∃ manifest, savedManifest u quote (c.get "decomposition_proposals") (c.get "viewpoints_tried") = .ok manifest := by
  have hp : (c.set "updated_at" saved).get "decomposition_proposals" = c.get "decomposition_proposals" := by
    rw [StoredCheckpoint.get_set _ _ (by repeat constructor), if_neg (by decide)]
  have hv : (c.set "updated_at" saved).get "viewpoints_tried" = c.get "viewpoints_tried" := by
    rw [StoredCheckpoint.get_set _ _ (by repeat constructor), if_neg (by decide)]
  have hs : (c.set "updated_at" saved).proofState = .ok state := by
    unfold StoredCheckpoint.proofState at hstate ⊢
    rw [StoredCheckpoint.get_set _ _ (by repeat constructor), if_neg (by decide)]
    exact hstate
  unfold saveCheckpoint
  dsimp only
  rw [hp, hv]
  constructor
  · rintro ⟨document, h⟩
    obtain ⟨manifest, hm, -⟩ := bind_eq_ok.mp h
    exact ⟨manifest, hm⟩
  · rintro ⟨manifest, hm⟩
    exact ⟨_, bind_eq_ok.mpr ⟨manifest, hm, bind_eq_ok.mpr ⟨state, hs, rfl⟩⟩⟩

theorem saveCheckpoint_ok {c : StoredCheckpoint} {saved document : PyValue}
    (h : saveCheckpoint u quote c saved = .ok document) : document = (c.set "updated_at" saved).asdict := by
  unfold saveCheckpoint at h
  obtain ⟨-, -, h⟩ := bind_eq_ok.mp h
  obtain ⟨-, -, h⟩ := bind_eq_ok.mp h
  exact (Except.ok.inj h).symm

/-- What the loader looks at does not change with the timestamp of the save. -/
theorem Migrated.loads {raw : Dict String PyValue} {c : StoredCheckpoint} (h : Migrated u quote hashes raw c)
    (saved loaded : PyValue) :
    loadCheckpoint u quote hashes loaded (c.set "updated_at" saved).asdict = .ok (c.set "updated_at" saved) := by
  have hget : ∀ name ∈ fieldNames, name ≠ "updated_at" → (c.set "updated_at" saved).get name = c.get name :=
    fun name hname hne => by rw [StoredCheckpoint.get_set _ _ hname, if_neg hne]
  obtain ⟨harchitecture, hschema, hmanifest⟩ := h.capable
  obtain ⟨references, hrefs, hread⟩ := h.references
  obtain ⟨state, hstate⟩ := h.known
  have hstamp : "updated_at" ∉ (currentCapabilityManifest hashes).map Prod.fst := by simp [currentCapabilityManifest]
  have hstate' : (c.set "updated_at" saved).proofState = .ok state := by
    unfold StoredCheckpoint.proofState at hstate ⊢
    rw [hget _ (by repeat constructor) (by decide)]
    exact hstate
  refine loadCheckpoint_asdict ⟨?_, ?_, fun e he => ?_⟩ ⟨references, ?_, hread⟩ hstate'
  · rw [hget _ (by repeat constructor) (by decide), harchitecture]
  · rw [hget _ (by repeat constructor) (by decide), hschema]
  · have hmem : e.1 ∈ (currentCapabilityManifest hashes).map Prod.fst := List.mem_map_of_mem he
    rw [hget _ (manifest_known hmem) (fun h => hstamp (h ▸ hmem)), hmanifest e he]
  · rw [hget _ (by repeat constructor) (by decide), hrefs]

theorem proofState_eq_ok {c : StoredCheckpoint} {state : ProofState} :
    c.proofState = .ok state ↔ c.get "state" = .str state.value := by
  unfold StoredCheckpoint.proofState
  constructor
  · intro h
    split at h
    · rename_i s hs
      rcases hv : ofValue? s with _ | state'
      · rw [hv] at h
        cases h
      · rw [hv] at h
        obtain rfl := Except.ok.inj h
        rw [hs, ofValue?_eq_some.mp hv]
    · cases h
  · intro h
    rw [h]
    dsimp only
    rw [ofValue?_value]

/-- The states to which documents of older architectures are moved have a way out. -/
theorem migratedState_executable (legacyState : String) : allowedTransitions (migratedState legacyState) ≠ [] := by
  unfold migratedState
  split
  · decide
  · decide

theorem Migrated.executable_iff {raw : Dict String PyValue} {c : StoredCheckpoint} (h : Migrated u quote hashes raw c) :
    (∃ state, c.proofState = .ok state ∧ allowedTransitions state ≠ []) ↔
      ∀ architecture, toInt u ((raw.get? "architecture_version").getD (.int 1)) = .ok architecture →
        architectureVersion ≤ architecture → ∀ state : ProofState, raw.get? "state" = some (.str state.value) →
        allowedTransitions state ≠ [] := by
  obtain ⟨architecture, harchitecture, hstate⟩ := h.state
  obtain ⟨known, hknown⟩ := h.known
  constructor
  · rintro ⟨state, hok, hexit⟩ architecture' ha hge state' hraw
    obtain rfl := Except.ok.inj (harchitecture.symm.trans ha)
    rw [if_neg (by omega), hraw, Option.getD_some] at hstate
    rw [proofState_eq_ok, hstate] at hok
    rwa [value_injective (PyValue.str.inj hok)]
  · intro hexit
    refine ⟨known, hknown, ?_⟩
    rw [proofState_eq_ok] at hknown
    by_cases hlt : architecture < architectureVersion
    · rw [if_pos hlt] at hstate
      rw [← value_injective (PyValue.str.inj (hstate.symm.trans hknown))]
      exact migratedState_executable _
    · rw [if_neg hlt] at hstate
      rcases hraw : raw.get? "state" with _ | v
      · rw [hraw] at hstate
        rw [← value_injective (PyValue.str.inj (hstate.symm.trans hknown))]
        decide
      · refine hexit architecture harchitecture (by omega) known ?_
        rw [hraw, Option.getD_some] at hstate
        rw [hraw, ← hstate, hknown]

/-- The hash of a role's reference is read in one way. -/
theorem Removed.unique {artifacts : Dict String PyValue} {role : String} {ref ref' : Dict String PyValue}
    {key key' : String} (h : Removed quote artifacts role ref key) (h' : Removed quote artifacts role ref' key') :
    ref = ref' ∧ key = key' := by
  obtain ⟨reference, sha, href, -, hmap, hsha, rfl⟩ := h
  obtain ⟨reference', sha', href', -, hmap', hsha', rfl⟩ := h'
  obtain rfl := Option.some.inj (href.symm.trans href')
  obtain rfl := Option.some.inj (hmap.symm.trans hmap')
  obtain rfl := Option.some.inj (hsha.symm.trans hsha')
  exact ⟨rfl, rfl⟩

/-- A document whose checkpoint is not stuck was migratable. -/
theorem Unstuck.migratable {raw : Dict String PyValue} {c : StoredCheckpoint} (hm : Migrated u quote hashes raw c)
    (h : Unstuck u quote hashes raw c) : Migratable u quote raw := by
  -- every reference was read, so it is kept under its hash
  have haudit : ∀ role ∈ legacyRoles, ∀ ref key, Removed quote (artifactsOf raw) role ref key →
      AuditOnly (c.get "invalidated_artifacts") key ref := by
    intro role hrole ref key hremoved
    obtain ⟨reference, -, href, htruthy, -⟩ := id hremoved
    obtain ⟨ref', key', hremoved', hkept⟩ := h.kept role hrole reference href htruthy
    obtain ⟨rfl, rfl⟩ := hremoved.unique hremoved'
    exact hkept
  refine ⟨hm.executable_iff.mp h.executable, ?_, ?_⟩
  · intro role hrole role' hrole' ref ref' key hremoved hremoved'
    exact (haudit role hrole ref key hremoved).agree (haudit role' hrole' ref' key hremoved')
  · obtain ⟨state, hstate⟩ := hm.known
    obtain ⟨document, hsave, -⟩ := h.reloads .null .null
    obtain ⟨manifest, hmanifest⟩ := (saveCheckpoint_iff hstate .null).mp ⟨document, hsave⟩
    exact ⟨manifest, hm.manifest ▸ hmanifest⟩

theorem Migratable.unstuck {raw : Dict String PyValue} {c : StoredCheckpoint} (hm : Migrated u quote hashes raw c)
    (h : Migratable u quote raw) : Unstuck u quote hashes raw c := by
  obtain ⟨state, hstate⟩ := hm.known
  obtain ⟨out, entries, hout, hinvalidated, hvalidated, hkeys⟩ := hm.artifacts
  have hnodup : legacyRoles.Nodup := by decide
  obtain ⟨hgone, -, hread, hstored⟩ := removeLegacy_ok hnodup hout
  refine {
    compatible := compatible_of_capable hm.capable
    unblocked := hm.unblocked
    executable := hm.executable_iff.mpr h.executable
    removed := ⟨entries, hvalidated, fun role hrole hmem => ?_⟩
    kept := fun role hrole reference href htruthy => ?_
    reloads := fun saved loaded => ?_ }
  · rw [hkeys] at hmem
    exact (Dict.not_mem_keys_iff.mpr (hgone role hrole)) hmem
  · obtain ⟨ref, key, hremoved⟩ := hread role hrole reference href htruthy
    obtain ⟨role', hrole', ref', hremoved', hs⟩ := hstored role hrole ref key hremoved
    refine ⟨ref, key, hremoved, ?_⟩
    rw [hinvalidated]
    exact auditOnly_of_stored hs (h.unshared role' hrole' role hrole ref' ref key hremoved' hremoved)
  · obtain ⟨manifest, hmanifest⟩ := h.savable
    obtain ⟨document, hsave⟩ := (saveCheckpoint_iff hstate saved).mpr ⟨manifest, hm.manifest.trans hmanifest⟩
    refine ⟨document, hsave, ?_⟩
    rw [saveCheckpoint_ok hsave]
    exact hm.loads saved loaded

/-- A document of an older schema that the loader accepts becomes a checkpoint that is compatible, not blocked, can move
on, has kept every legacy artifact for audit only, and is loaded again as it is saved, exactly when it is migratable. -/
theorem migration_unstuck_iff {document : PyValue} {raw : Dict String PyValue} {schema : Int} {c : StoredCheckpoint}
    (hraw : document.mapping? = some raw) (hschema : toInt u ((raw.get? "schema_version").getD (.int 1)) = .ok schema)
    (hlegacy : schema < schemaVersion) (hload : loadCheckpoint u quote hashes now document = .ok c) :
    Unstuck u quote hashes raw c ↔ Migratable u quote raw := by
  have hm := migrated_of_load hraw hschema hlegacy hload
  exact ⟨Unstuck.migratable hm, Migratable.unstuck hm⟩

end Loading

/-! ### Documents that migrate and documents that do not -/

/-- The database of a runtime that sees ASCII texts only. -/
def asciiOnly : Auth.Unicode := ⟨id, fun _ => none⟩

/-- An old reference. -/
def oldReference (role sha256 : String) : PyValue := .dict [("role", .str role), ("sha256", .str sha256)]

/-- The fields of a document of schema 9. -/
def schemaNine (fields : List (String × PyValue)) : List (String × PyValue) := ("schema_version", .int 9) :: fields

theorem exists_of_isOk {ε α : Type} {x : Except ε α} (h : x.isOk = true) : ∃ a, x = .ok a := by
  cases x with
  | error e => cases h
  | ok a => exact ⟨a, rfl⟩

/-- A blocked document of architecture 7 with a strategy and a critic. -/
theorem migration_unstuck_blocked :
    let fields := schemaNine [("architecture_version", .int 7), ("state", .str "BLOCKED"),
      ("validated_artifacts", .dict [("strategy", oldReference "strategy" "ab12"), ("critic", oldReference "critic" "cd34")])]
    ∃ c, loadCheckpoint asciiOnly id ⟨"t", "m"⟩ (.float "1.5") (.dict fields) = .ok c ∧
      (Unstuck asciiOnly id ⟨"t", "m"⟩ (Dict.ofEntries fields) c ↔ Migratable asciiOnly id (Dict.ofEntries fields)) := by
  intro fields
  obtain ⟨c, hc⟩ : ∃ c, loadCheckpoint asciiOnly id ⟨"t", "m"⟩ (.float "1.5") (.dict fields) = .ok c :=
    exists_of_isOk (by decide +kernel)
  exact ⟨c, hc, migration_unstuck_iff rfl rfl (by decide) hc⟩

/-- The document is accepted and stuck. -/
def Stuck (fields : List (String × PyValue)) : Prop :=
  ∃ c, loadCheckpoint asciiOnly id ⟨"t", "m"⟩ (.float "1.5") (.dict fields) = .ok c ∧
    ¬ Unstuck asciiOnly id ⟨"t", "m"⟩ (Dict.ofEntries fields) c

private theorem stuck_of {fields : List (String × PyValue)}
    (hschema : toInt asciiOnly (((Dict.ofEntries fields).get? "schema_version").getD (.int 1)) = .ok 9)
    (hload : (loadCheckpoint asciiOnly id ⟨"t", "m"⟩ (.float "1.5") (.dict fields)).isOk = true)
    (h : ¬ Migratable asciiOnly id (Dict.ofEntries fields)) : Stuck fields := by
  obtain ⟨c, hc⟩ := exists_of_isOk hload
  exact ⟨c, hc, fun hu => h (hu.migratable (migrated_of_load rfl hschema (by decide) hc))⟩

/-- Three documents that are accepted and stuck: a document of the current architecture in a state without an exit, two
legacy artifacts with one hash, and a proposal that the novelty manifest cannot read. -/
theorem migration_stuck :
    Stuck (schemaNine [("architecture_version", .int 8), ("state", .str "GENERATOR")]) ∧
      Stuck (schemaNine [("validated_artifacts",
        .dict [("strategy", oldReference "strategy" "ab12"), ("critic", oldReference "critic" "ab12")])]) ∧
      Stuck (schemaNine [("decomposition_proposals", .list [.null])]) := by
  refine ⟨?_, ?_, ?_⟩
  · refine stuck_of rfl (by decide +kernel) fun h => ?_
    exact h.executable 8 rfl (by decide) generator rfl rfl
  · refine stuck_of rfl (by decide +kernel) fun h => ?_
    have hsame := h.unshared "strategy" (by decide) "critic" (by decide) _ _ "ab12" ⟨_, _, rfl, rfl, rfl, rfl, rfl⟩
      ⟨_, _, rfl, rfl, rfl, rfl, rfl⟩ "role" (by decide)
    exact absurd (PyValue.str.inj (Option.some.inj hsame)) (by decide)
  · refine stuck_of rfl (by decide +kernel) fun h => ?_
    obtain ⟨manifest, hmanifest⟩ := h.savable
    cases hmanifest

end Orchestration

end KakeyaEngine
