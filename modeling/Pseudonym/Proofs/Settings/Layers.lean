import Pseudonym.Proofs.Settings.Sources

namespace Pseudonym.Settings

open Value Document
open Files (Disk)

def textLayer (environment : List (String × String)) (variableName sectionName name : String) :
    List (Key × Value) :=
  ((setting? environment variableName).map fun s =>
    (.text sectionName, .map [(.text name, .text s)])).toList

def seedLayer (environment : List (String × String)) : List (Key × Value) :=
  ((setting? environment "CODE_REDACT_SEED").bind fun s => (Text.parseInteger s).toOption).map
    (fun n => (Key.text "substitutes", Value.map [(.text "seed", .int n)])) |>.toList

def environmentLayer (environment : List (String × String)) : List (Key × Value) :=
  textLayer environment "CODE_REDACT_LOG_LEVEL" "logging" "level" ++ seedLayer environment ++
    textLayer environment "CODE_REDACT_UNKNOWN_HINT" "grammar" "unknown_hint"

theorem mergeEntries_append (base update update' : List (Key × Value)) :
    mergeEntries base (update ++ update') = mergeEntries (mergeEntries base update) update' := by
  induction update generalizing base with
  | nil => rw [mergeEntries]; rfl
  | cons e rest ih =>
      obtain ⟨key, v⟩ := e
      rw [List.cons_append, mergeEntries_cons, mergeEntries_cons, ih]

/-- Settings that are made of sources with numbers below a bound, where nothing stands twice. -/
structure Made (n : Nat) (values : List (Key × Value)) (settings : Document) : Prop where
  plain : ∃ origin, Plain origin values settings
  below : ∀ o ∈ settings.origins, ∃ m, o.head? = some m ∧ m < n

namespace Made

variable {n : Nat} {values : List (Key × Value)} {settings : Document}

theorem mono (h : Made n values settings) {m : Nat} (hm : n ≤ m) : Made m values settings := by
  refine ⟨h.plain, fun o ho => ?_⟩
  obtain ⟨k, hk, hlt⟩ := h.below o ho
  exact ⟨k, hk, Nat.lt_of_lt_of_le hlt hm⟩

theorem value_eq (h : Made n values settings) : settings.value = .map values := by
  obtain ⟨origin, ⟨entries, rfl, hvalues⟩, -⟩ := h.plain
  rw [value, hvalues]

/-- A source has nothing in common with those below it. -/
theorem disjoint (h : Made n values settings) {d : Document} (hd : Written n d) :
    d.origins.Disjoint settings.origins := by
  intro o ho ho'
  obtain ⟨m, hm, hlt⟩ := h.below o ho'
  rw [hd.head o ho] at hm
  obtain rfl := Option.some.inj hm
  exact Nat.lt_irrefl _ hlt

theorem below_succ (h : Made n values settings) {d settings' : Document} (hd : Written n d)
    (hsub : settings'.origins ⊆ settings.origins ++ d.origins) :
    ∀ o ∈ settings'.origins, ∃ m, o.head? = some m ∧ m < n + 1 := by
  intro o ho
  rcases List.mem_append.mp (hsub ho) with ho | ho
  · obtain ⟨m, hm, hlt⟩ := h.below o ho
    exact ⟨m, hm, Nat.lt_succ_of_lt hlt⟩
  · exact ⟨n, hd.head o ho, Nat.lt_succ_self n⟩

end Made

theorem map_of_value_eq {d : Document} {values : List (Key × Value)} (h : d.value = .map values) :
    ∃ origin entries, d = .map origin entries ∧ entryValues entries = values := by
  cases d with
  | scalar v => cases v <;> cases h
  | list items => cases h
  | map origin entries => exact ⟨origin, entries, rfl, Value.map.inj h⟩

theorem overlay_map (origin : Origin) (entries : List (Key × Document)) (upper : Origin)
    (update : List (Key × Document)) :
    overlay (.map origin entries) (.map upper update) =
      .ok (layEntries (.map origin entries) origin update) := by
  cases update with
  | nil => rw [layEntries]; rfl
  | cons e rest => rfl

/-- Where nothing stands twice, settings are laid over others by their values. -/
theorem plain_overlay {base update : Document} {origin : Origin} {lower upper : List (Key × Value)}
    (hbase : Plain origin lower base) (hvalue : update.value = .map upper)
    (hupdate : update.Unshared) (hdisjoint : update.origins.Disjoint base.origins) :
    ∃ settings, overlay base update = .ok settings ∧ Plain origin (mergeEntries lower upper) settings ∧
      settings.origins ⊆ base.origins ++ update.origins := by
  obtain ⟨⟨entries, rfl, rfl⟩, hunshared⟩ := hbase
  obtain ⟨top, entries', rfl, rfl⟩ := map_of_value_eq hvalue
  have hunder : (originsUnder entries').Disjoint (Document.map origin entries).origins :=
    List.disjoint_of_subset_left (List.subset_cons_self _ _) hdisjoint
  refine ⟨_, overlay_map origin entries top entries', ?_, ?_⟩
  · exact plain_layEntries (fun e _ origin entries key => plain_lay) hunshared
      (List.nodup_cons.mp hupdate).2 hunder
  · refine List.Subset.trans (origins_layEntries_subset (fun e _ settings origin key =>
      origins_lay_subset _ _ _ _) _ _) (List.append_subset.mpr ⟨List.subset_append_left _ _, ?_⟩)
    exact List.subset_append_of_subset_right _ (List.subset_cons_self _ _)

namespace Made

variable {n : Nat} {values : List (Key × Value)} {settings : Document}

theorem overlay (h : Made n values settings) {update : Document} {upper : List (Key × Value)}
    (hwritten : Written n update) (hunshared : update.Unshared) (hvalue : update.value = .map upper) :
    ∃ settings', Settings.overlay settings update = .ok settings' ∧
      Made (n + 1) (mergeEntries values upper) settings' := by
  obtain ⟨origin, hplain⟩ := h.plain
  obtain ⟨settings', hlaid, hplain', hsub⟩ := plain_overlay hplain hvalue hunshared (h.disjoint hwritten)
  exact ⟨settings', hlaid, ⟨origin, hplain'⟩, h.below_succ hwritten hsub⟩

/-- Setting an entry of a section that is a mapping or is not there is laying it over. -/
theorem setEntry (h : Made n values settings) {sectionName : String}
    (hsection : ∀ old, find? values (.text sectionName) = some old → old.isMap = true)
    (name : String) (v : Key) :
    ∃ settings', Settings.setEntry settings n sectionName name v = .ok settings' ∧
      Made (n + 1) (mergeEntries values [(.text sectionName, .map [(.text name, v.toValue)])])
        settings' := by
  obtain ⟨origin, ⟨entries, rfl, rfl⟩, hunshared⟩ := h.plain
  have hwritten : Written n (.map [n] [(.text name, .scalar v)]) :=
    (written_nil []).insert (.text name) (written_scalar v)
  have hset : Settings.setEntry (.map origin entries) n sectionName name v =
      .ok (lay (.map origin entries) origin (.text sectionName)
        (.map [n] [(.text name, .scalar v)])) := by
    have hkind : ∀ old, find? entries (.text sectionName) = some old → old.value.isMap = true :=
      fun old hold => hsection old.value (by rw [find?_entryValues, hold]; rfl)
    unfold Settings.setEntry
    dsimp only
    split
    · rename_i v' hv'
      cases v' <;> cases hkind _ hv'
    · rename_i items hitems
      cases hkind _ hitems
    · rfl
  refine ⟨_, hset, ⟨origin, ?_⟩, h.below_succ hwritten (origins_lay_subset _ _ _ _)⟩
  rw [mergeEntries_cons, mergeEntries]
  have hunshared' : (Document.map [n] [(.text name, .scalar v)]).Unshared := List.nodup_singleton [n]
  exact plain_lay hunshared hunshared' (h.disjoint hwritten)

theorem applyText (h : Made n values settings) {environment : List (String × String)}
    {variableName sectionName name : String}
    (hsection : ∀ e ∈ textLayer environment variableName sectionName name, ∀ old,
      find? values e.1 = some old → old.isMap = true) :
    ∃ settings', Settings.applyText environment n variableName sectionName name settings =
        .ok settings' ∧
      Made (n + 1) (mergeEntries values (textLayer environment variableName sectionName name))
        settings' := by
  unfold Settings.applyText textLayer at *
  cases hsetting : setting? environment variableName with
  | none =>
      refine ⟨settings, rfl, ?_⟩
      rw [Option.map_none, Option.toList_none, mergeEntries]
      exact h.mono (Nat.le_succ n)
  | some s =>
      rw [hsetting] at hsection
      exact h.setEntry (hsection _ List.mem_cons_self) name (.text s)

theorem applySeed (h : Made n values settings) {environment : List (String × String)}
    (hsection : ∀ e ∈ seedLayer environment, ∀ old, find? values e.1 = some old → old.isMap = true) :
    ∃ settings', (Settings.applySeed environment n settings).1 = .ok settings' ∧
      Made (n + 1) (mergeEntries values (seedLayer environment)) settings' := by
  unfold Settings.applySeed seedLayer at *
  cases hsetting : setting? environment "CODE_REDACT_SEED" with
  | none =>
      refine ⟨settings, rfl, ?_⟩
      rw [Option.bind_none, Option.map_none, Option.toList_none, mergeEntries]
      exact h.mono (Nat.le_succ n)
  | some s =>
      rw [hsetting, Option.bind_some] at hsection
      rw [Option.bind_some]
      dsimp only
      cases hseed : Text.parseInteger s with
      | error f =>
          refine ⟨settings, rfl, ?_⟩
          rw [Except.toOption, Option.map_none, Option.toList_none, mergeEntries]
          exact h.mono (Nat.le_succ n)
      | ok number =>
          rw [hseed] at hsection
          exact h.setEntry (hsection _ List.mem_cons_self) "seed" (.int number)

end Made

theorem Noting.lift_bind {α β : Type} {r : Except Error α × Log} {a : α} (h : r.1 = .ok a)
    (f : α → Noting β) (log : Log) : (Noting.lift r >>= f) log = f a (log ++ r.2) := by
  obtain ⟨result, notes⟩ := r
  obtain rfl : result = .ok a := h
  rfl

theorem keys_environmentLayer_sublist (environment : List (String × String)) :
    (keys (environmentLayer environment)).Sublist
      [.text "logging", .text "substitutes", .text "grammar"] := by
  have htext : ∀ variableName sectionName name,
      (keys (textLayer environment variableName sectionName name)).Sublist [.text sectionName] := by
    intro variableName sectionName name
    unfold textLayer
    cases setting? environment variableName with
    | none => exact List.nil_sublist _
    | some s => exact List.Sublist.refl _
  have hseed : (keys (seedLayer environment)).Sublist [.text "substitutes"] := by
    unfold seedLayer
    cases (setting? environment "CODE_REDACT_SEED").bind fun s => (Text.parseInteger s).toOption with
    | none => exact List.nil_sublist _
    | some n => exact List.Sublist.refl _
  unfold environmentLayer keys
  rw [List.map_append, List.map_append]
  exact ((htext _ _ _).append hseed).append (htext _ _ _)

theorem distinct_environmentLayer (environment : List (String × String)) :
    Distinct (environmentLayer environment) :=
  List.Pairwise.sublist (keys_environmentLayer_sublist environment) (by decide)

theorem proper_environmentLayer (environment : List (String × String)) :
    (Value.map (environmentLayer environment)).proper = true := by
  refine proper_map_iff.mpr ⟨distinct_environmentLayer environment, fun e he => ?_⟩
  have hsetting : ∀ name v, v.proper = true → (Value.map [(Key.text name, v)]).proper = true :=
    fun name v hv => @proper_map_insert [] rfl (.text name) v hv
  simp only [environmentLayer, textLayer, seedLayer, List.mem_append, Option.mem_toList,
    Option.map_eq_some_iff] at he
  rcases he with (⟨s, -, rfl⟩ | ⟨n, -, rfl⟩) | ⟨s, -, rfl⟩
  all_goals exact hsetting _ _ rfl

/-- Laying entries over others leaves the sections as they are that come later. -/
theorem isMap_of_mergeEntries {entries before after : List (Key × Value)}
    (hdistinct : Distinct (before ++ after))
    (h : ∀ e ∈ before ++ after, ∀ old, find? entries e.1 = some old → old.isMap = true) :
    ∀ e ∈ after, ∀ old, find? (mergeEntries entries before) e.1 = some old → old.isMap = true := by
  intro e he old hold
  rw [Distinct, keys, List.map_append] at hdistinct
  obtain ⟨hbefore, -, hne⟩ := List.pairwise_append.mp hdistinct
  have hnone : find? before e.1 = none :=
    find?_eq_none_iff.mpr fun e' he' => hne _ (List.mem_map_of_mem he') _ (List.mem_map_of_mem he)
  rw [find?_mergeEntries hbefore, hnone] at hold
  exact h e (List.mem_append_right _ he) old hold

/-- What is done once the settings of files are known. -/
def finish (s : Sources) (settings : Document) : Noting Document := do
  let settings ← Noting.lift
    (applyText s.environment 2 "CODE_REDACT_LOG_LEVEL" "logging" "level" settings, [])
  let settings ← Noting.lift (applySeed s.environment 3 settings)
  let settings ← Noting.lift
    (applyText s.environment 4 "CODE_REDACT_UNKNOWN_HINT" "grammar" "unknown_hint" settings, [])
  if s.overrides.truthy then Noting.lift (overlay settings (.ofValue [5] s.overrides), [])
  else pure settings

theorem exists_finish {s : Sources} {values overrides : List (Key × Value)} {settings : Document}
    (h : Made 2 values settings) (hoverrides : s.overrides = .map overrides)
    (hproper : s.overrides.proper = true)
    (hsections : ∀ e ∈ environmentLayer s.environment, ∀ old,
      find? values e.1 = some old → old.isMap = true) (log : Log) :
    ∃ settings', (finish s settings log).1 = .ok settings' ∧
      Made 6 (mergeEntries (mergeEntries values (environmentLayer s.environment)) overrides)
        settings' := by
  have hdistinct := distinct_environmentLayer s.environment
  unfold environmentLayer at hsections hdistinct ⊢
  -- Each variable has a section of its own, which those before it leave as the files have it.
  have hsections' := fun e he => hsections e (List.mem_append_left _ he)
  have hdistinct' := hdistinct.sublist (List.sublist_append_left _ _ |>.map _)
  obtain ⟨settings₃, htext, h₃⟩ := h.applyText fun e he => hsections' e (List.mem_append_left _ he)
  obtain ⟨settings₄, hseed, h₄⟩ := h₃.applySeed (isMap_of_mergeEntries hdistinct' hsections')
  rw [← mergeEntries_append] at h₄
  obtain ⟨settings₅, hhint, h₅⟩ := h₄.applyText (isMap_of_mergeEntries hdistinct hsections)
  rw [← mergeEntries_append] at h₅
  unfold finish
  rw [Noting.lift_bind htext, Noting.lift_bind hseed, Noting.lift_bind hhint, hoverrides]
  cases overrides with
  | nil =>
      rw [mergeEntries]
      exact ⟨settings₅, rfl, h₅.mono (by decide)⟩
  | cons e rest =>
      rw [hoverrides] at hproper
      exact h₅.overlay (written_ofValue hproper) (origins_ofValue [5] _).2 (value_ofValue [5] _)

theorem exists_loadNoting {read : Reader} {d : Disk} {s : Sources} {lower upper settings : Document}
    (hlower : (readBase read d s.base).1 = .ok lower) (hupper : userLayer read d s = .ok upper)
    (hlaid : overlay lower upper = .ok settings) :
    ∃ log, loadNoting read d s [] = finish s settings log := by
  unfold loadNoting
  rw [Noting.lift_bind hlower]
  unfold userLayer at hupper
  cases hpath : s.user.filter fun path => !path.isEmpty with
  | none =>
      rw [hpath] at hupper
      obtain rfl : nothing 1 = upper := Except.ok.inj hupper
      obtain rfl : lower = settings := Except.ok.inj hlaid
      exact ⟨_, rfl⟩
  | some path =>
      rw [hpath] at hupper
      dsimp only
      rw [Noting.lift_bind hupper, Noting.lift_bind hlaid]
      exact ⟨_, rfl⟩

/-- What the layers come to where they are laid over each other. -/
theorem load_eq {read : Reader} (hread : read.Lawful) {d : Disk} {s : Sources} {base user overrides : List (Key × Value)}
    {lower upper : Document} (hlower : (readBase read d s.base).1 = .ok lower)
    (hbase : lower.value = .map base) (hunshared : lower.Unshared)
    (hupper : userLayer read d s = .ok upper) (huser : upper.value = .map user)
    (hunshared' : upper.Unshared) (hoverrides : s.overrides = .map overrides)
    (hproper : s.overrides.proper = true)
    (hsections : ∀ e ∈ environmentLayer s.environment, ∀ old,
      find? (mergeEntries base user) e.1 = some old → old.isMap = true) :
    (load read d s).1 = .ok (merge (merge (merge (.map base) (.map user))
      (.map (environmentLayer s.environment))) (.map overrides)) := by
  obtain ⟨origin, entries, rfl, rfl⟩ := map_of_value_eq hbase
  have hmade : Made 1 (entryValues entries) (.map origin entries) :=
    ⟨⟨origin, plain_map hunshared⟩, fun o ho => ⟨0, (written_of_readBase hread hlower).head o ho, by decide⟩⟩
  obtain ⟨settings₂, hlaid, hmade₂⟩ := hmade.overlay (written_of_userLayer hread hupper) hunshared' huser
  obtain ⟨log, hloading⟩ := exists_loadNoting hlower hupper hlaid
  obtain ⟨settings, hfinish, hmade₆⟩ := exists_finish hmade₂ hoverrides hproper hsections log
  rw [merge_map, merge_map, merge_map, ← hmade₆.value_eq, load, Noting.run, hloading]
  exact congrArg (Except.map value) hfinish

/-- The layers that count, the highest first. A mapping is laid over the mappings below it; anything
else hides what is below. -/
def exposed : List Value → List Value
  | [] => []
  | v :: rest => v :: if v.isMap then rest.takeWhile isMap else []

def visible : List Value → List Key → List Value
  | layers, [] => exposed layers
  | layers, key :: path => visible ((exposed layers).filterMap (·.follow [key])) path

/-- What layers come to, the highest first. -/
def collapse : List Value → Option Value
  | [] => none
  | v :: rest => some (((collapse rest).map (merge · v)).getD v)

theorem collapse_cons_of_not_isMap {v : Value} (h : v.isMap = false) (rest : List Value) :
    collapse (v :: rest) = some v := by
  rw [collapse]
  cases collapse rest with
  | none => rfl
  | some w => exact congrArg some (merge_of_not_isMap (.inr h))

theorem collapse_exposed (layers : List Value) : collapse (exposed layers) = collapse layers := by
  induction layers with
  | nil => rfl
  | cons v rest ih =>
      cases hv : v.isMap with
      | false =>
          rw [collapse_cons_of_not_isMap hv, exposed, collapse_cons_of_not_isMap hv]
      | true =>
          rw [exposed, if_pos hv]
          cases rest with
          | nil => rfl
          | cons w rest =>
              cases hw : w.isMap with
              | true =>
                  rw [exposed, if_pos hw] at ih
                  rw [List.takeWhile_cons_of_pos hw, collapse, ih, ← collapse]
              | false =>
                  -- A mapping over anything else replaces it, as if nothing were there.
                  have hreplaced : collapse (v :: w :: rest) = some v := by
                    rw [collapse, collapse_cons_of_not_isMap hw]
                    exact congrArg some (merge_of_not_isMap (.inl hw))
                  rw [List.takeWhile_cons_of_neg (by simp [hw]), hreplaced]
                  rfl

theorem isMap_of_collapse {layers : List Value} (h : ∀ v ∈ layers, v.isMap = true) {w : Value}
    (hw : collapse layers = some w) : w.isMap = true := by
  induction layers generalizing w with
  | nil => cases hw
  | cons v rest ih =>
      obtain ⟨hv, hrest⟩ := List.forall_mem_cons.mp h
      obtain ⟨update, rfl⟩ := isMap_iff.mp hv
      rw [collapse] at hw
      cases hbelow : collapse rest with
      | none =>
          rw [hbelow] at hw
          obtain rfl := Option.some.inj hw
          rfl
      | some below =>
          obtain ⟨base, rfl⟩ := isMap_iff.mp (ih hrest hbelow)
          rw [hbelow, Option.map_some, Option.getD_some, merge_map] at hw
          obtain rfl := Option.some.inj hw
          rfl

theorem follow_singleton (entries : List (Key × Value)) (key : Key) :
    (Value.map entries).follow [key] = find? entries key :=
  @follow_concat entries (.map entries) [] rfl key

theorem collapse_filterMap {layers : List Value} (hmaps : ∀ v ∈ layers, v.isMap = true)
    (hproper : ∀ v ∈ layers, v.proper = true) (key : Key) :
    collapse (layers.filterMap (·.follow [key])) = (collapse layers).bind (·.follow [key]) := by
  induction layers with
  | nil => rfl
  | cons v rest ih =>
      obtain ⟨hv, hrest⟩ := List.forall_mem_cons.mp hmaps
      obtain ⟨hvproper, hrestproper⟩ := List.forall_mem_cons.mp hproper
      obtain ⟨update, rfl⟩ := isMap_iff.mp hv
      have hdistinct := (proper_map_iff.mp hvproper).1
      have hcons : collapse ((Value.map update :: rest).filterMap (·.follow [key])) =
          (find? update key).elim (collapse (rest.filterMap (·.follow [key]))) fun w =>
            some (((collapse (rest.filterMap (·.follow [key]))).map (merge · w)).getD w) := by
        rw [List.filterMap_cons, follow_singleton]
        cases find? update key <;> rfl
      rw [hcons, ih hrest hrestproper, collapse, Option.bind_some]
      cases hbelow : collapse rest with
      | none =>
          rw [Option.map_none, Option.getD_none, follow_singleton]
          cases find? update key <;> rfl
      | some below =>
          obtain ⟨base, rfl⟩ := isMap_iff.mp (isMap_of_collapse hrest hbelow)
          rw [Option.map_some, Option.getD_some, merge_map, follow_singleton, Option.bind_some,
            follow_singleton, find?_mergeEntries hdistinct]
          cases find? update key <;> rfl

theorem exposed_sublist (layers : List Value) : (exposed layers).Sublist layers := by
  cases layers with
  | nil => exact List.Sublist.refl _
  | cons v rest =>
      refine List.Sublist.cons_cons v ?_
      split
      · exact List.takeWhile_sublist _
      · exact List.nil_sublist _

theorem collapse_filterMap_exposed {layers : List Value} (hproper : ∀ v ∈ layers, v.proper = true)
    (key : Key) : collapse ((exposed layers).filterMap (·.follow [key])) =
      (collapse layers).bind (·.follow [key]) := by
  rw [← collapse_exposed layers]
  cases layers with
  | nil => rfl
  | cons v rest =>
      cases hv : v.isMap with
      | true =>
          refine collapse_filterMap ?_ (fun w hw => hproper w ((exposed_sublist _).subset hw)) key
          rw [exposed, if_pos hv]
          exact List.forall_mem_cons.mpr ⟨hv, List.all_eq_true.mp List.all_takeWhile⟩
      | false =>
          rw [exposed, hv]
          cases v with
          | map entries => cases hv
          | _ => rfl

/-- To follow a path in all layers at once is to follow it in what they come to. -/
theorem collapse_visible {layers : List Value} (hproper : ∀ v ∈ layers, v.proper = true)
    (path : List Key) : collapse (visible layers path) = (collapse layers).bind (·.follow path) := by
  induction path generalizing layers with
  | nil =>
      rw [visible, collapse_exposed]
      exact (Option.bind_fun_some _).symm
  | cons key path ih =>
      have hentries : ∀ w ∈ (exposed layers).filterMap (·.follow [key]), w.proper = true := by
        intro w hw
        obtain ⟨v, hv, hfollow⟩ := List.mem_filterMap.mp hw
        exact proper_of_follow (hproper v ((exposed_sublist _).subset hv)) hfollow
      rw [visible, ih hentries, collapse_filterMap_exposed hproper, Option.bind_assoc]
      exact congrArg _ (funext fun v => (follow_append v [key] path).symm)

def names (path : String) : List Key :=
  (path.toList.splitOn '.').map fun name => .text (String.ofList name)

theorem getPath_eq (settings : Value) (path : String) :
    getPath settings path = settings.follow (names path) := by
  have hfold : ∀ (parts : List (List Char)) (v : Option Value),
      parts.foldl (fun v name => v.bind (·.get? (String.ofList name))) v =
        v.bind (·.follow (parts.map fun name => .text (String.ofList name))) := by
    intro parts
    induction parts with
    | nil => exact fun v => (Option.bind_fun_some v).symm
    | cons name parts ih =>
        intro v
        rw [List.foldl_cons, ih, Option.bind_assoc]
        refine congrArg _ (funext fun v => ?_)
        cases v <;> rfl
  exact hfold _ (some settings)

/-- Sources are laid over each other in their order, and a path leads to what the highest of them
says that is not hidden. -/
theorem load_layered (read : Reader) (hread : read.Lawful) (below above : Document) (d : Disk) (s : Sources) :
    (below.value.isMap = true → above.value.isMap = true → below.Unshared → above.Unshared →
      above.origins.Disjoint below.origins → above.value.proper = true →
      ∃ settings, overlay below above = .ok settings ∧
        ∀ path, Resolved below.value above.value settings.value path) ∧
    ∀ (lower upper : Document) (base user overrides : List (Key × Value)),
      (readBase read d s.base).1 = .ok lower → lower.value = .map base → lower.Unshared →
      userLayer read d s = .ok upper → upper.value = .map user → upper.Unshared →
      s.overrides = .map overrides → s.overrides.proper = true →
      (∀ e ∈ environmentLayer s.environment, ∀ old,
        (merge (.map base) (.map user)).follow [e.1] = some old → old.isMap = true) →
      ∃ settings, (load read d s).1 = .ok settings ∧
        settings = merge (merge (merge (.map base) (.map user))
          (.map (environmentLayer s.environment))) (.map overrides) ∧
        ∀ path, getPath settings path = collapse (visible [.map overrides,
          .map (environmentLayer s.environment), .map user, .map base] (names path)) := by
  constructor
  · intro hlower hupper hbelow habove hdisjoint hproper
    obtain ⟨lower, hlower⟩ := isMap_iff.mp hlower
    obtain ⟨upper, hupper⟩ := isMap_iff.mp hupper
    obtain ⟨origin, entries, rfl, rfl⟩ := map_of_value_eq hlower
    obtain ⟨settings, hlaid, ⟨⟨entries', rfl, hvalues⟩, -⟩, -⟩ :=
      plain_overlay (plain_map hbelow) hupper habove hdisjoint
    refine ⟨_, hlaid, fun path => ?_⟩
    rw [value, value, hvalues, ← merge_map, ← hupper]
    exact resolved_merge ⟨entryValues entries, upper, rfl, by rw [hupper]; rfl⟩ hproper path
  · intro lower upper base user overrides hlower hbase hunshared hupper huser hunshared'
      hoverrides hproper hsections
    have hload := load_eq hread hlower hbase hunshared hupper huser hunshared' hoverrides hproper
      fun e he old hold => hsections e he old (by rw [merge_map, follow_singleton, hold])
    refine ⟨_, hload, rfl, fun path => ?_⟩
    have hlayers : ∀ v ∈ [Value.map overrides, .map (environmentLayer s.environment), .map user,
        .map base], v.proper = true := by
      simp only [List.forall_mem_cons, List.not_mem_nil, false_imp_iff, implies_true, and_true]
      exact ⟨hoverrides ▸ hproper, proper_environmentLayer _,
        huser ▸ (written_of_userLayer hread hupper).proper, hbase ▸ (written_of_readBase hread hlower).proper⟩
    rw [collapse_visible hlayers, getPath_eq]
    rfl

def lowerSample : Document :=
  .map [0] [(.text "a", .map [0, 0] [(.int 1, .scalar .null), (.text "p", .list [])]),
    (.text "b", .scalar .null)]

def upperSample : Document :=
  .map [1] [(.text "b", .map [1, 0] []),
    (.text "a", .map [1, 1] [(.text "q", .map [1, 2] []), (.bool true, .map [1, 3] [])])]

def diskOf (text : String) : Disk := { entries := [(["u"], .file (Text.encode text))] }

def sourcesSample : Sources :=
  { user := some "u"
    environment := [("CODE_REDACT_LOG_LEVEL", "DEBUG"), ("CODE_REDACT_SEED", "7")]
    overrides := .ofPairs [("a", .ofPairs [("c", .null)]), ("logging", .ofPairs [("file", .int 3)])] }

def textSample : String := "a: 1\nlogging:\n  level: x\n  b: [y]\n"

/-- The file says something about a section that the environment and the caller set, too. -/
theorem load_layered_sample :
    (∃ settings, overlay lowerSample upperSample = .ok settings ∧
      ∀ path, Resolved lowerSample.value upperSample.value settings.value path) ∧
    ∃ upper base user overrides, userLayer Yaml.reader (diskOf textSample) sourcesSample = .ok upper ∧
      upper.value = .map user ∧ upper.Unshared ∧ defaults = .map base ∧
      sourcesSample.overrides = .map overrides ∧
      ∃ settings, (load Yaml.reader (diskOf textSample) sourcesSample).1 = .ok settings ∧
        settings = merge (merge (merge (.map base) (.map user))
          (.map (environmentLayer sourcesSample.environment))) (.map overrides) ∧
        ∀ path, getPath settings path = collapse (visible [.map overrides,
          .map (environmentLayer sourcesSample.environment), .map user, .map base] (names path)) := by
  have hfile : (userLayer Yaml.reader (diskOf textSample) sourcesSample).toOption.any (fun upper =>
      upper.value.isMap && decide upper.Unshared &&
        (environmentLayer sourcesSample.environment).all fun e =>
          ((merge defaults upper.value).follow [e.1]).all isMap) = true := by
    decide +kernel
  have hapart : ∀ o ∈ upperSample.origins, o ∉ lowerSample.origins := by decide +kernel
  constructor
  · exact (load_layered Yaml.reader Yaml.reader_lawful lowerSample upperSample (diskOf textSample) sourcesSample).1 rfl rfl
      (by decide +kernel) (by decide +kernel) (fun o ho => hapart o ho) (by decide +kernel)
  · cases hupper : userLayer Yaml.reader (diskOf textSample) sourcesSample with
    | error e => rw [hupper] at hfile; cases hfile
    | ok upper =>
        simp only [hupper, Except.toOption, Option.any_some, Bool.and_eq_true, decide_eq_true_iff,
          List.all_eq_true] at hfile
        obtain ⟨⟨hmap, hunshared⟩, hsections⟩ := hfile
        obtain ⟨user, huser⟩ := isMap_iff.mp hmap
        rw [huser] at hsections
        refine ⟨upper, _, user, _, rfl, huser, hunshared, rfl, rfl, ?_⟩
        refine (load_layered Yaml.reader Yaml.reader_lawful lowerSample upperSample (diskOf textSample) sourcesSample).2
          (.ofValue [0] defaults) upper _ user _ rfl (value_ofValue [0] defaults)
          (origins_ofValue [0] defaults).2 hupper huser hunshared rfl (by decide +kernel)
          fun e he old hold => ?_
        have hsection := hsections e he
        have hold : (merge defaults (.map user)).follow [e.1] = some old := hold
        rwa [hold] at hsection

/-- Reads every file as one mapping under two names. -/
def sharedReader : Reader := fun source _ =>
  let shared : Document := .map [source, 1] [(.text "p", .scalar (.int 1))]
  .ok (.map [source] [(.text "a", shared), (.text "b", shared)])

def sharedSources : Sources :=
  { base := .file "u"
    overrides := .ofPairs [("a", .ofPairs [("p", .int 2)])] }

def sharedDisk : Disk := diskOf "a: &x \x7bp: 1\x7d\nb: *x\n"

/-- A mapping that stands twice in a file is written to in both places. -/
theorem load_shared :
    sharedReader.Lawful ∧
      ((readBase sharedReader sharedDisk sharedSources.base).1.toOption.bind fun d =>
          getPath d.value "b.p").bind quoted = some "1" ∧
      (getPath sharedSources.overrides "b").isNone ∧
      ((load sharedReader sharedDisk sharedSources).1.toOption.bind fun settings =>
        getPath settings "b.p").bind quoted = some "2" := by
  refine ⟨⟨fun source bytes d h => ?_, fun source bytes d h o ho => ?_⟩, by decide +kernel⟩
  · obtain rfl := Except.ok.inj h
    have hproper : (ofPairs [("a", ofPairs [("p", .int 1)]), ("b", ofPairs [("p", .int 1)])]).proper =
      true := by decide +kernel
    exact hproper
  · obtain rfl := Except.ok.inj h
    change o ∈ [[source], [source, 1], [source, 1]] at ho
    simp only [List.mem_cons, List.not_mem_nil, or_false] at ho
    rcases ho with rfl | rfl | rfl <;> rfl

end Pseudonym.Settings
