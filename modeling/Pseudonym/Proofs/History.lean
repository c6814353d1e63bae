import Mathlib.Data.List.Induction
import Mathlib.Data.List.Nodup
import Pseudonym.Proofs.Registry
import Pseudonym.Report.Result

namespace Pseudonym

variable {σ : Type}

namespace Registry

def keys (r : Registry) : List String := r.pairs.map (·.1)

theorem find?_eq_none_iff {r : Registry} {name : String} : r.find? name = none ↔ name ∉ r.keys := by
  rw [find?, List.lookup_eq_none_iff, keys, List.mem_map, not_exists]
  constructor
  · rintro h p ⟨hp, rfl⟩
    simpa using h p hp
  · intro h p hp
    rw [bne_iff_ne]
    rintro rfl
    exact h p ⟨hp, rfl⟩

theorem find?_eq_some_iff {r : Registry} (h : r.keys.Nodup) {name s : String} :
    r.find? name = some s ↔ (name, s) ∈ r.pairs := by
  refine ⟨mem_of_find?, fun hmem => ?_⟩
  cases hfind : r.find? name with
  | none => exact absurd (List.mem_map_of_mem hmem) (find?_eq_none_iff.mp hfind)
  | some t =>
      have heq := List.inj_on_of_nodup_map h (mem_of_find? hfind) hmem rfl
      rw [(Prod.mk.inj heq).2]

def entry (p : String × String) : Key × Value := (.text p.1, .text p.2)

theorem insert_new (pairs : List (String × String)) {name : String} (s : String)
    (h : name ∉ pairs.map (·.1)) :
    Value.insert (pairs.map entry) (.text name) (.text s) = (pairs ++ [(name, s)]).map entry := by
  induction pairs with
  | nil => rfl
  | cons p pairs ih =>
      rw [List.map_cons, List.mem_cons, not_or] at h
      have hsame : Key.same (.text p.1) (.text name) = false := by
        simp [Key.same, Key.number?, Ne.symm h.1]
      rw [List.map_cons, entry, Value.insert, hsame, ih h.2]
      rfl

theorem uniquePairs_eq {r : Registry} (h : r.keys.Nodup) :
    Report.uniquePairs r.pairs = r.pairs.map entry := by
  -- What has been put in so far is a front part of the pairs.
  have hfold : ∀ done rest : List (String × String), ((done ++ rest).map (·.1)).Nodup →
      rest.foldl (fun entries p => Value.insert entries (.text p.1) (.text p.2)) (done.map entry) =
        (done ++ rest).map entry := by
    intro done rest hnodup
    induction rest generalizing done with
    | nil => rw [List.append_nil, List.foldl_nil]
    | cons p rest ih =>
        have hnew : p.1 ∉ done.map (·.1) := by
          intro hmem
          rw [List.map_append, List.nodup_append] at hnodup
          exact hnodup.2.2 p.1 hmem p.1 List.mem_cons_self rfl
        rw [List.append_cons] at hnodup ⊢
        rw [List.foldl_cons, insert_new done p.2 hnew]
        exact ih _ hnodup
  exact hfold [] r.pairs h

theorem toMap_eq (r : Registry) : r.toMap = .map (r.pairs.map entry) := by
  rw [toMap, Value.ofPairs, List.map_map]
  rfl

theorem get?_toMap (r : Registry) (name : String) :
    r.toMap.get? name = (r.find? name).map .text := by
  rw [toMap_eq, Value.get?, find?]
  induction r.pairs with
  | nil => rfl
  | cons p pairs ih =>
      rw [List.map_cons, Value.find?, List.find?_cons, List.lookup_cons]
      by_cases hname : name = p.1
      · simp [hname, entry, Key.same]
      · have hsame : (entry p).1.same (.text name) = false := by
          simp [entry, Key.same, Key.number?, Ne.symm hname]
        rw [hsame, beq_false_of_ne hname]
        exact ih

/-- All views of a registry tell of the same pairs. -/
structure ViewsAgree (r : Registry) : Prop where
  find?_iff : ∀ name s, r.find? name = some s ↔ (name, s) ∈ r.pairs
  size_eq : r.size = r.keys.length
  contains_text : ∀ name, r.contains (.text name) = .ok (decide (name ∈ r.keys))
  contains_only : ∀ v, r.contains v = .ok true → ∃ name, v = .text name
  toMap_eq : r.toMap = .map (r.pairs.map entry)
  get?_toMap : ∀ name, r.toMap.get? name = (r.find? name).map .text
  rebuilt_eq : .map (Report.uniquePairs r.pairs) = r.toMap

theorem viewsAgree {r : Registry} (h : r.keys.Nodup) : r.ViewsAgree where
  find?_iff _ _ := find?_eq_some_iff h
  size_eq := by rw [size, keys, List.length_map]
  contains_text name := by
    rw [contains, Except.ok.injEq, Bool.eq_iff_iff, Option.isSome_iff_ne_none, decide_eq_true_iff,
      ne_eq, find?_eq_none_iff, not_not]
  contains_only v hv := by
    cases v with
    | text name => exact ⟨name, rfl⟩
    | _ => cases hv
  toMap_eq := r.toMap_eq
  get?_toMap := r.get?_toMap
  rebuilt_eq := by rw [uniquePairs_eq h, r.toMap_eq]

end Registry

/-- What a registry can be asked without any change to it. -/
inductive View where
  | contains (value : Value)
  | size
  | snapshot
  | mapping

inductive Operation where
  | resolve (name : Value)
  | look (view : View)

inductive Answer where
  | name (result : Except Error String)
  | known (result : Except Error Bool)
  | count (n : Nat)
  | pairs (pairs : List (String × String))
  | mapping (map : Value)

def Registry.answer (r : Registry) : View → Answer
  | .contains v => .known (r.contains v)
  | .size => .count r.size
  | .snapshot => .pairs r.pairs
  | .mapping => .mapping r.toMap

structure Event where
  operation : Operation
  answer : Answer

def Event.resolved? : Event → Option (String × String)
  | ⟨.resolve (.text name), .name (.ok s)⟩ => some (name, s)
  | _ => none

theorem Event.resolved?_error (v : Value) (e : Error) :
    Event.resolved? ⟨.resolve v, .name (.error e)⟩ = none := by
  cases v <;> rfl

/-- What has happened to a registry, and how it and its supply stand now. -/
structure History (σ : Type) where
  events : List Event := []
  registry : Registry := {}
  state : σ

namespace History

def perform (supply : Supply σ) (h : History σ) : Operation → History σ
  | .resolve name =>
      let (result, registry, state) := h.registry.resolve supply name h.state
      { events := h.events ++ [⟨.resolve name, .name result⟩], registry, state }
  | .look view => { h with events := h.events ++ [⟨.look view, h.registry.answer view⟩] }

def run (supply : Supply σ) (state : σ) (ops : List Operation) : History σ :=
  ops.foldl (perform supply) { state }

def resolved (h : History σ) : List (String × String) := h.events.filterMap Event.resolved?

/-- How a name may be answered. Whether it is known is told by the answers before, and not by what
the registry holds. -/
inductive Resolves (supply : Supply σ) (h : History σ) :
    Value → Except Error String × Registry × σ → Prop
  | unusable {v : Value} (hv : ∀ name, v = .text name → name = "") :
      Resolves supply h v (.error (.value (Registry.unusable v)), h.registry, h.state)
  | known {name s : String} (hne : name ≠ "") (hs : h.resolved.lookup name = some s) :
      Resolves supply h (.text name) (.ok s, h.registry, h.state)
  | drawn {name s : String} (hne : name ≠ "") (hnew : h.resolved.lookup name = none)
      (hs : (supply.draw h.state).1 = .ok s) :
      Resolves supply h (.text name)
        (.ok s, ⟨h.registry.pairs ++ [(name, s)]⟩, (supply.draw h.state).2)
  | failed {name : String} {e : Error} (hne : name ≠ "") (hnew : h.resolved.lookup name = none)
      (he : (supply.draw h.state).1 = .error e) :
      Resolves supply h (.text name) (.error e, h.registry, (supply.draw h.state).2)

/-- The registry has the names that were resolved, each once and as it was first answered. -/
structure Records (h : History σ) : Prop where
  nodup_keys : h.registry.keys.Nodup
  keys_eq : h.registry.keys = (h.resolved.map (·.1)).eraseDups
  find?_eq : ∀ name, h.registry.find? name = h.resolved.lookup name

variable {supply : Supply σ} {h : History σ}

theorem resolve_resolves (supply : Supply σ) (hr : h.Records) (v : Value) :
    Resolves supply h v (h.registry.resolve supply v h.state) := by
  rw [Registry.resolve]
  cases hv : Registry.usable? v with
  | none =>
      refine .unusable fun name hname => ?_
      by_contra hne
      rw [Registry.usable?_eq_some_iff.mpr ⟨hname, hne⟩] at hv
      cases hv
  | some name =>
      obtain ⟨rfl, hne⟩ := Registry.usable?_eq_some_iff.mp hv
      rcases h.registry.substitute_cases supply name h.state with
        ⟨s, hf, hs⟩ | ⟨s, hf, hd, hs⟩ | ⟨e, hf, hd, hs⟩ <;> simp only [hs] <;> rw [hr.find?_eq] at hf
      · exact .known hne hf
      · exact .drawn hne hf hd
      · exact .failed hne hf hd

theorem resolved_perform_resolve (supply : Supply σ) (h : History σ) (v : Value) :
    (h.perform supply (.resolve v)).resolved =
      h.resolved ++ (Event.resolved? ⟨.resolve v,
        .name (h.registry.resolve supply v h.state).1⟩).toList := by
  rw [resolved, resolved, perform, List.filterMap_append]
  congr 1

theorem Records.extend (hr : h.Records) {name s : String} {h' : History σ}
    (hpairs : h'.registry.pairs = h.registry.pairs ++ [(name, s)])
    (hresolved : h'.resolved = h.resolved ++ [(name, s)]) (hnew : h.resolved.lookup name = none) :
    h'.Records := by
  have hkeys : h'.registry.keys = h.registry.keys ++ [name] := by
    rw [Registry.keys, hpairs, List.map_append]
    rfl
  have hfresh : name ∉ h.registry.keys := Registry.find?_eq_none_iff.mp ((hr.find?_eq name).trans hnew)
  constructor
  · rw [hkeys, ← List.concat_eq_append]
    exact hr.nodup_keys.concat hfresh
  · rw [hr.keys_eq, List.mem_eraseDups] at hfresh
    rw [hkeys, hresolved, hr.keys_eq, List.map_append, List.eraseDups_append]
    simp [List.removeAll, hfresh, List.eraseDups_cons]
  · intro other
    rw [Registry.find?, hpairs, hresolved, List.lookup_append, List.lookup_append, ← hr.find?_eq]
    rfl

theorem Records.again (hr : h.Records) {name s : String} {h' : History σ}
    (hregistry : h'.registry = h.registry) (hresolved : h'.resolved = h.resolved ++ [(name, s)])
    (hknown : h.resolved.lookup name = some s) : h'.Records := by
  have hmem : name ∈ h.resolved.map (·.1) :=
    List.mem_map_of_mem (Registry.mem_of_find? (r := ⟨h.resolved⟩) hknown)
  constructor
  · rw [hregistry]
    exact hr.nodup_keys
  · rw [hregistry, hresolved, hr.keys_eq, List.map_append, List.eraseDups_append]
    simp [List.removeAll, hmem]
  · intro other
    rw [hregistry, hresolved, hr.find?_eq, List.lookup_append, List.lookup_singleton]
    by_cases ho : other = name
    · rw [ho, hknown]
      rfl
    · simp [ho]

theorem Records.same (hr : h.Records) {h' : History σ} (hregistry : h'.registry = h.registry)
    (hresolved : h'.resolved = h.resolved) : h'.Records :=
  ⟨hregistry ▸ hr.nodup_keys, hregistry ▸ hresolved ▸ hr.keys_eq,
    hregistry ▸ hresolved ▸ hr.find?_eq⟩

theorem perform_records (hr : h.Records) (op : Operation) : (h.perform supply op).Records := by
  cases op with
  | look view =>
      refine hr.same rfl ?_
      rw [resolved, resolved, perform, List.filterMap_append]
      exact List.append_nil _
  | resolve v =>
      have hresolves := resolve_resolves supply hr v
      have hresolved := resolved_perform_resolve supply h v
      have hregistry : (h.perform supply (.resolve v)).registry =
        (h.registry.resolve supply v h.state).2.1 := rfl
      generalize h.registry.resolve supply v h.state = answer at hresolves hresolved hregistry
      cases hresolves with
      | unusable hv => exact hr.same hregistry (hresolved.trans (by rw [Event.resolved?_error]; simp))
      | known hne hs => exact hr.again hregistry hresolved hs
      | drawn hne hnew hs => exact hr.extend (congrArg Registry.pairs hregistry) hresolved hnew
      | failed hne hnew he => exact hr.same hregistry (hresolved.trans (List.append_nil _))

theorem run_concat (supply : Supply σ) (state : σ) (ops : List Operation) (op : Operation) :
    run supply state (ops ++ [op]) = (run supply state ops).perform supply op :=
  List.foldl_concat _ _ _ _

theorem run_records (supply : Supply σ) (state : σ) (ops : List Operation) :
    (run supply state ops).Records := by
  induction ops using List.reverseRecOn with
  | nil => exact ⟨.nil, rfl, fun _ => rfl⟩
  | append_singleton ops op ih =>
      rw [run_concat]
      exact perform_records ih op

theorem events_isPrefix (supply : Supply σ) (h : History σ) (ops : List Operation) :
    h.events <+: (ops.foldl (perform supply) h).events := by
  induction ops generalizing h with
  | nil => exact List.prefix_rfl
  | cons op ops ih =>
      refine List.IsPrefix.trans ?_ (ih (h.perform supply op))
      cases op <;> exact List.prefix_append _ _

theorem events_eq (supply : Supply σ) (state : σ) (before : List Operation) (v : Value)
    (behind : List Operation) :
    ∃ later, (run supply state (before ++ .resolve v :: behind)).events =
      (run supply state before).events ++ ⟨.resolve v, .name ((run supply state before).registry.resolve
        supply v (run supply state before).state).1⟩ :: later := by
  obtain ⟨later, hlater⟩ :=
    events_isPrefix supply ((run supply state before).perform supply (.resolve v)) behind
  refine ⟨later, ?_⟩
  rw [List.append_cons (run supply state before).events, run, List.foldl_append, List.foldl_cons]
  exact hlater.symm

/-- A name that the registry has was drawn where it was asked for first. -/
theorem exists_draw_of_mem (supply : Supply σ) (state : σ) (ops : List Operation) {name s : String}
    (hmem : (name, s) ∈ (run supply state ops).registry.pairs) :
    ∃ before behind, ops = before ++ .resolve (.text name) :: behind ∧
      name ∉ (run supply state before).registry.keys ∧
      (supply.draw (run supply state before).state).1 = .ok s := by
  induction ops using List.reverseRecOn with
  | nil => cases hmem
  | append_singleton ops op ih =>
      have hold (hmem : (name, s) ∈ (run supply state ops).registry.pairs) :
          ∃ before behind, ops ++ [op] = before ++ .resolve (.text name) :: behind ∧
            name ∉ (run supply state before).registry.keys ∧
            (supply.draw (run supply state before).state).1 = .ok s := by
        obtain ⟨before, behind, rfl, hfirst⟩ := ih hmem
        exact ⟨before, behind ++ [op], by rw [List.append_assoc, List.cons_append], hfirst⟩
      rw [run_concat] at hmem
      cases op with
      | look view => exact hold hmem
      | resolve v =>
          have hresolves := resolve_resolves supply (run_records supply state ops) v
          have hregistry : ((run supply state ops).perform supply (.resolve v)).registry =
            ((run supply state ops).registry.resolve supply v (run supply state ops).state).2.1 := rfl
          rw [hregistry] at hmem
          generalize (run supply state ops).registry.resolve supply v (run supply state ops).state =
            answer at hresolves hmem
          cases hresolves with
          | unusable | known | failed => exact hold hmem
          | drawn hne hnew hs =>
              rcases List.mem_append.mp hmem with hmem | hmem
              · exact hold hmem
              · obtain ⟨rfl, rfl⟩ := Prod.mk.inj (List.mem_singleton.mp hmem)
                refine ⟨ops, [], rfl, ?_, hs⟩
                rw [← Registry.find?_eq_none_iff, (run_records supply state ops).find?_eq]
                exact hnew

end History

/-- Whether a name is asked for that can be replaced and that a registry does not have yet. -/
def Operation.asksNew (r : Registry) : Operation → Bool
  | .resolve v => (Registry.usable? v).any fun name => (r.find? name).isNone
  | .look _ => false

def Supply.counted (supply : Supply σ) : Supply (σ × Nat) where
  draw s := ((supply.draw s.1).1, (supply.draw s.1).2, s.2 + 1)
  writable := supply.writable
  strategy := supply.strategy
  description := supply.description

theorem Registry.resolve_counted (r : Registry) (supply : Supply σ) (v : Value) (s : σ × Nat) :
    r.resolve supply.counted v s =
      ((r.resolve supply v s.1).1, (r.resolve supply v s.1).2.1, (r.resolve supply v s.1).2.2,
        s.2 + if (Operation.resolve v).asksNew r then 1 else 0) := by
  rw [resolve, resolve, Operation.asksNew]
  cases usable? v with
  | none => rfl
  | some name =>
      rw [Option.any_some]
      simp only [substitute, Supply.counted]
      cases r.find? name with
      | some t => rfl
      | none => rcases supply.draw s.1 with ⟨e | t, next⟩ <;> rfl

namespace History

def uncounted (h : History (σ × Nat)) : History σ := ⟨h.events, h.registry, h.state.1⟩

def newNames (supply : Supply σ) (h : History σ) : List Operation → Nat
  | [] => 0
  | op :: ops =>
      (if op.asksNew h.registry then 1 else 0) + newNames supply (h.perform supply op) ops

theorem perform_counted (supply : Supply σ) (h : History (σ × Nat)) (op : Operation) :
    (h.perform supply.counted op).uncounted = h.uncounted.perform supply op ∧
      (h.perform supply.counted op).state.2 =
        h.state.2 + if op.asksNew h.registry then 1 else 0 := by
  cases op with
  | look view => exact ⟨rfl, rfl⟩
  | resolve v =>
      rw [perform, h.registry.resolve_counted]
      exact ⟨rfl, rfl⟩

theorem foldl_counted (supply : Supply σ) (h : History (σ × Nat)) (ops : List Operation) :
    (ops.foldl (perform supply.counted) h).uncounted = ops.foldl (perform supply) h.uncounted ∧
      (ops.foldl (perform supply.counted) h).state.2 =
        h.state.2 + newNames supply h.uncounted ops := by
  induction ops generalizing h with
  | nil => exact ⟨rfl, rfl⟩
  | cons op ops ih =>
      obtain ⟨hhistory, hcount⟩ := perform_counted supply h op
      obtain ⟨ihhistory, ihcount⟩ := ih (h.perform supply.counted op)
      rw [List.foldl_cons, List.foldl_cons, newNames, ihhistory, ihcount, hhistory, hcount,
        Nat.add_assoc]
      exact ⟨rfl, rfl⟩

/-- What holds of every history, whether the supply fails or not. The registry has the names that were
resolved, each with what was drawn where it came first; each answer is the one that the answers before
it call for; and the supply is drawn from once for each name that is new when it is asked for. -/
theorem run_faithful (supply : Supply σ) (state : σ) (ops : List Operation) :
    (run supply state ops).Records ∧
    (∀ name s, (name, s) ∈ (run supply state ops).registry.pairs →
      ∃ before behind, ops = before ++ .resolve (.text name) :: behind ∧
        name ∉ (run supply state before).registry.keys ∧
        (supply.draw (run supply state before).state).1 = .ok s) ∧
    (∀ before v behind, ops = before ++ .resolve v :: behind →
      ∃ result later, (run supply state ops).events =
          (run supply state before).events ++ ⟨.resolve v, .name result⟩ :: later ∧
        (run supply state before).Resolves supply v
          (result, (run supply state (before ++ [.resolve v])).registry,
            (run supply state (before ++ [.resolve v])).state)) ∧
    ((run supply.counted (state, 0) ops).uncounted = run supply state ops ∧
      (run supply.counted (state, 0) ops).state.2 = newNames supply { state } ops) ∧
    (run supply state ops).registry.ViewsAgree := by
  have hrecords := run_records supply state ops
  refine ⟨hrecords, fun name s hmem => exists_draw_of_mem supply state ops hmem, ?_, ?_,
    Registry.viewsAgree hrecords.nodup_keys⟩
  · rintro before v behind rfl
    obtain ⟨later, hevents⟩ := events_eq supply state before v behind
    refine ⟨_, later, hevents, ?_⟩
    rw [run_concat]
    exact resolve_resolves supply (run_records supply state before) v
  · obtain ⟨hhistory, hcount⟩ := foldl_counted supply { state := (state, 0) } ops
    exact ⟨hhistory, hcount.trans (Nat.zero_add _)⟩

end History

end Pseudonym
