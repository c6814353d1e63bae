import Pseudonym.Proofs.Batch.Outcomes
import Pseudonym.Proofs.History
import Pseudonym.Proofs.Session

namespace Pseudonym

open Files (Disk Place Content)
open Report (FileResult)

variable {σ : Type}

theorem Registry.keys_of_substituteAll {r r' : Registry} {supply : Supply σ} {state next : σ}
    {names : List String} (h : r.substituteAll supply state names = (none, r', next)) :
    r'.keys = r.keys ++ r.fresh names := by
  induction names generalizing r state with
  | nil =>
      obtain ⟨rfl, -⟩ := Prod.mk.inj (Prod.mk.inj h).2
      simp [fresh]
  | cons name names ih =>
      rw [substituteAll] at h
      rcases r.substitute_cases supply name state with
        ⟨s, hf, hs⟩ | ⟨s, hf, -, hs⟩ | ⟨e, -, -, hs⟩ <;> rw [hs] at h
      · rw [fresh_cons_known hf]
        exact ih h
      · rw [ih h, fresh_cons_new hf s]
        simp [keys]
      · cases h

namespace Redactor

variable {r : Redactor σ} {parser : Parser} {request : Request} {state : σ}

theorem keys_of_rename {supply : Supply σ} {profile : Profile} {text : String} {done : Renamed}
    (h : (rename supply parser profile text state).result = .ok done) :
    ∃ tree, parser.tree profile text = .ok tree ∧ done.registry.keys = tree.distinctNames := by
  rw [rename] at h
  cases htree : parser.tree profile text with
  | error e =>
      rw [htree] at h
      cases h
  | ok tree =>
      rw [htree] at h
      have hfollows := (Node.walk_follows supply).1 tree.root { registry := {}, state } rfl
      simp only [Tree.walk] at h
      cases hfailure : (tree.root.walk supply { registry := {}, state }).2.failure with
      | some e => simp [hfailure] at h
      | none =>
          simp only [hfailure] at h
          obtain ⟨code, -, rfl⟩ := Traversal.map_eq_ok_iff.mp h
          refine ⟨tree, rfl, ?_⟩
          have hresolved := hfollows.resolved
          rw [hfailure] at hresolved
          rw [Registry.keys_of_substituteAll hresolved.symm, Registry.fresh_empty]
          rfl

/-- The mapping of a redaction has the names of its text, each where it comes first. -/
theorem keys_of_redact {done : Redaction} (hmapping : request.includeMapping = some true)
    (h : (r.redact parser request state).result = .ok done) :
    ∃ pairs, done.mapping = some pairs ∧ pairs.map (·.1) = r.resolver.namesOf parser request ∧
      (pairs.map (·.1)).Nodup := by
  rcases r.redact_cases parser request state with
    ⟨-, hresult, -⟩ | ⟨-, -, hresult, -⟩ | ⟨-, -, -, ⟨_, hresult⟩, -⟩ |
      ⟨text, profile, htext, hne, -, -, hprofile, -, hend⟩
  · cases hresult.symm.trans h
  · cases hresult.symm.trans h
  · cases hresult.symm.trans h
  · rcases hend with ⟨e, -, hresult⟩ | ⟨renamed, hrename, hresult⟩
    · cases hresult.symm.trans h
    · obtain rfl := Except.ok.inj (hresult.symm.trans h)
      obtain ⟨tree, htree, hkeys⟩ := keys_of_rename hrename
      have hnames : r.resolver.namesOf parser request = tree.distinctNames := by
        rw [Resolver.namesOf, Resolver.read?_eq htext hne hprofile, htree]
        rfl
      have hnodup : renamed.registry.keys.Nodup := by
        rw [hkeys]
        exact Traversal.nodup_eraseDups _
      exact ⟨renamed.registry.pairs, by simp [hmapping], hkeys.trans hnames.symm, hnodup⟩

end Redactor

namespace Batch

variable {b : Batch σ} {r : FileResult} {w w' : World σ}

/-- The copy of a file, if one is to be made. -/
def backups (b : Batch σ) (d : Disk) (input : String) : List String :=
  if b.options.backup then [backupPath d input] else []

/-- The paths that a run on a file may change. -/
def footprint (b : Batch σ) (d : Disk) (input output : String) : List String :=
  b.written output ++ b.backups d input

theorem BackedUp.alters_backups {d d' : Disk} {input : String} (h : b.BackedUp d input d') :
    d.Alters (b.backups d input) d' := by
  rcases h with ⟨-, rfl⟩ | ⟨hbackup, bytes, -, hwrite⟩
  · exact .refl _ _
  · rw [backups, if_pos hbackup]
    exact Disk.write_alters hwrite

namespace Outcome

variable {input output : String} {hint : Value} {d : Disk}

theorem touches (h : b.Outcome input output hint w r d) :
    w.disk.Touches (b.footprint w.disk input output ++ w.logPaths) d := by
  have hbackups : b.backups w.disk input ⊆ b.footprint w.disk input output ++ w.logPaths :=
    List.subset_append_of_subset_left _ (List.subset_append_right _ _)
  have hwritten : b.written output ++ w.logPaths ⊆ b.footprint w.disk input output ++ w.logPaths :=
    List.append_subset.mpr ⟨List.subset_append_of_subset_left _ (List.subset_append_left _ _),
      List.subset_append_right _ _⟩
  cases h with
  | notAFile => exact .refl _ _
  | notBackedUp => exact .refl _ _
  | notRedacted _ _ _ hbackup halters =>
      exact (hbackup.alters_backups.mono hbackups).touches.trans
        (halters.touches.mono (List.subset_append_right _ _))
  | notWritten _ _ _ hbackup _ htouches =>
      exact (hbackup.alters_backups.mono hbackups).touches.trans (htouches.mono hwritten)
  | done _ hbackup _ htouches =>
      exact (hbackup.alters_backups.mono hbackups).touches.trans (htouches.mono hwritten)

theorem success_iff (h : b.Outcome input output hint w r d) : r.success = true ↔ r.errors = [] := by
  cases h with
  | notAFile hr => simp [hr.1, hr.2.1]
  | notBackedUp hr => simp [hr.1, hr.2.1]
  | notRedacted hr => simp [hr.1, hr.2.1]
  | notWritten hr => simp [hr.1, hr.2.1]
  | done _ _ _ _ hdelivers => simp [hdelivers.success, hdelivers.errors]

theorem eq_of_not_isFile (h : b.Outcome input output hint w r d)
    (hnot : w.disk.isFile input = false) : d = w.disk := by
  cases h with
  | notAFile => rfl
  | notBackedUp => rfl
  | notRedacted _ _ hfile => cases hnot.symm.trans hfile
  | notWritten _ _ hfile => cases hnot.symm.trans hfile
  | done hfile => cases hnot.symm.trans hfile

theorem alters_of_error (h : b.Outcome input output hint w r d) {e : Error}
    (he : b.redaction w.disk w.state input hint = .error e) :
    w.disk.Alters (b.backups w.disk input ++ w.logPaths) d := by
  cases h with
  | notAFile => exact .refl _ _
  | notBackedUp => exact .refl _ _
  | notRedacted _ _ _ hbackup halters =>
      exact (hbackup.alters_backups.mono (List.subset_append_left _ _)).trans
        (halters.mono (List.subset_append_right _ _))
  | notWritten _ _ _ _ hdone => cases hdone.symm.trans he
  | done _ _ hdone => cases hdone.symm.trans he

theorem of_success (h : b.Outcome input output hint w r d) (hsuccess : r.success = true) :
    w.disk.isFile input = true ∧ ∃ d₁ redaction, b.BackedUp w.disk input d₁ ∧
      b.redaction w.disk w.state input hint = .ok redaction ∧
      d₁.Touches (b.written output ++ w.logPaths) d ∧ b.Delivers d output redaction r := by
  cases h with
  | notAFile hr => cases hsuccess.symm.trans hr.1
  | notBackedUp hr => cases hsuccess.symm.trans hr.1
  | notRedacted hr => cases hsuccess.symm.trans hr.1
  | notWritten hr => cases hsuccess.symm.trans hr.1
  | done hfile hbackup hdone htouches hdelivers =>
      exact ⟨hfile, _, _, hbackup, hdone, htouches, hdelivers⟩

theorem delivers (h : b.Outcome input output hint w r d) (hsuccess : r.success = true) :
    ∃ redaction, b.redaction w.disk w.state input hint = .ok redaction ∧
      b.Delivers d output redaction r := by
  obtain ⟨-, -, redaction, -, hdone, -, hdelivers⟩ := h.of_success hsuccess
  exact ⟨redaction, hdone, hdelivers⟩

end Outcome

/-- A report lists pairs in order, and gives their number. -/
structure Lists (report : Value) (pairs : List (String × String)) : Prop where
  mapping : report.get? "mapping" = some (.map (pairs.map Registry.entry))
  total : report.get? "total_identifiers" = some (.int pairs.length)

theorem lists_reportOf {redaction : Redaction} {pairs : List (String × String)}
    (hmapping : redaction.mapping = some pairs) (hnodup : (pairs.map (·.1)).Nodup) (source : String) :
    Lists (b.reportOf source redaction).toValue pairs := by
  have hunique : Report.uniquePairs pairs = pairs.map Registry.entry :=
    Registry.uniquePairs_eq (r := ⟨pairs⟩) hnodup
  rw [reportOf, hmapping, Option.getD_some, Report.MappingReport.toValue, hunique]
  exact ⟨rfl, rfl⟩

theorem processFile_footprint {input : String} {output : Option String} {language : Value}
    (h : b.processFile input output language w = (.ok r, w')) :
    r.inputPath = input ∧ (r.success = true ↔ r.errors = []) ∧
      (w.disk.isFile input = false → w'.disk = w.disk) ∧
      ∃ out, (w.disk.isFile input = true →
          b.outputOf input output = .ok out ∧ b.hintFor input language = .ok r.language) ∧
        w.disk.Touches (b.footprint w.disk input out ++ w.logPaths) w'.disk ∧
        (∀ e, b.redaction w.disk w.state input r.language = .error e →
          w.disk.Alters (b.backups w.disk input ++ w.logPaths) w'.disk) ∧
        (r.success = true → ∃ text redaction pairs, b.textAt w.disk input = .ok text ∧
          b.redaction w.disk w.state input r.language = .ok redaction ∧
          b.Delivers w'.disk out redaction r ∧
          (w'.disk.Direct out → w'.disk.Direct (mappingPath out) → ¬ b.Collides w'.disk out) ∧
          redaction.mapping = some pairs ∧ r.distinct = pairs.length ∧
          pairs.map (·.1) =
            b.redactor.resolver.namesOf b.parser ⟨.text text, r.language, some true⟩ ∧
          Lists (b.reportOf input redaction).toValue pairs) := by
  obtain ⟨hinput, out, hasked, houtcome⟩ := processFile_outcome h
  refine ⟨hinput, houtcome.success_iff, houtcome.eq_of_not_isFile, out, hasked, houtcome.touches,
    fun e => houtcome.alters_of_error, fun hsuccess => ?_⟩
  obtain ⟨redaction, hdone, hdelivers⟩ := houtcome.delivers hsuccess
  obtain ⟨text, htext, hredact⟩ := Traversal.bind_eq_ok_iff.mp hdone
  obtain ⟨pairs, hmapping, hkeys, hnodup⟩ := Redactor.keys_of_redact rfl hredact
  have hdistinct := hdelivers.distinct
  rw [hmapping, Option.getD_some] at hdistinct
  exact ⟨text, redaction, pairs, htext, hdone, hdelivers, hdelivers.not_collides, hmapping, hdistinct,
    hkeys, lists_reportOf hmapping hnodup input⟩

theorem exists_of_any_success {x : Except Error FileResult × World σ}
    (h : x.1.toOption.any (·.success) = true) : ∃ r w', x = (.ok r, w') ∧ r.success = true := by
  obtain ⟨result, w'⟩ := x
  cases result with
  | error e => cases h
  | ok r => exact ⟨r, w', rfl, h⟩

def sample : Batch Nat where
  redactor := Reading.numberedRedactor
  parser := fun _ _ => .ok (Reading.assignment 1 1)
  codecs := fun name => if name = "utf-8" then some .utf8 else none
  options := { backup := true, patterns := .list [.text "*.js"], endingHints := .map [] }
  timestamp := "now"

def sampleWorld (more : List (Place × Content)) : World Nat where
  disk := { entries := (["a.js"], .file (Text.encode "a=b.#a")) :: more }
  state := 0

theorem processFile_footprint_sample :
    ∃ r w', sample.processFile "a.js" (some "o/a.js") .null (sampleWorld []) = (.ok r, w') ∧
      r.success = true ∧ ∃ text redaction pairs,
        sample.textAt (sampleWorld []).disk "a.js" = .ok text ∧
        sample.redaction (sampleWorld []).disk 0 "a.js" r.language = .ok redaction ∧
        sample.Delivers w'.disk "o/a.js" redaction r ∧
        (w'.disk.Direct "o/a.js" → w'.disk.Direct (mappingPath "o/a.js") →
          ¬ sample.Collides w'.disk "o/a.js") ∧
        redaction.mapping = some pairs ∧ r.distinct = pairs.length ∧
        pairs.map (·.1) =
          sample.redactor.resolver.namesOf sample.parser ⟨.text text, r.language, some true⟩ ∧
        Lists (sample.reportOf "a.js" redaction).toValue pairs := by
  obtain ⟨r, w', h, hsuccess⟩ := exists_of_any_success
    (x := sample.processFile "a.js" (some "o/a.js") .null (sampleWorld [])) (by decide +kernel)
  obtain ⟨-, -, -, out, hasked, -, -, hdone⟩ := processFile_footprint h
  obtain rfl := Except.ok.inj (hasked (by decide +kernel)).1
  exact ⟨r, w', h, hsuccess, hdone hsuccess⟩

/-- A folder that has the name of the backup takes a file that is none of the three. -/
theorem processFile_astray :
    (sample.processFile "a.js" (some "o.js") .null
        (sampleWorld [(["a.js.backup"], .folder)])).1.toOption.any (·.success) = true ∧
      (sampleWorld [(["a.js.backup"], .folder)]).disk.get? ["a.js.backup", "a.js"] = none ∧
      (sample.processFile "a.js" (some "o.js") .null
        (sampleWorld [(["a.js.backup"], .folder)])).2.disk.get? ["a.js.backup", "a.js"] =
          some (.file (Text.encode "a=b.#a")) ∧
      ∀ path ∈ ["o.js", mappingPath "o.js", "a.js.backup"],
        (sample.processFile "a.js" (some "o.js") .null
          (sampleWorld [(["a.js.backup"], .folder)])).2.disk.locate path ≠
            .ok ["a.js.backup", "a.js"] := by
  decide +kernel

end Batch

end Pseudonym
