import Mathlib.Data.List.Induction
import Pseudonym.Value

namespace Pseudonym

namespace Key

theorem same_iff {a b : Key} :
    a.same b = true ↔ a = b ∨ ∃ n, a.number? = some n ∧ b.number? = some n := by
  rw [same, Bool.or_eq_true, beq_iff_eq]
  refine or_congr_right ?_
  cases a.number? with
  | none => simp
  | some m =>
      cases b.number? with
      | none => simp
      | some n =>
          constructor
          · intro h
            obtain rfl : m = n := beq_iff_eq.mp h
            exact ⟨m, rfl, rfl⟩
          · rintro ⟨k, hm, hn⟩
            exact beq_iff_eq.mpr (Option.some.inj (hm.trans hn.symm))

theorem same_trans {a b c : Key} (hab : a.same b = true) (hbc : b.same c = true) :
    a.same c = true := by
  rcases same_iff.mp hab with rfl | ⟨n, ha, hb⟩
  · exact hbc
  · rcases same_iff.mp hbc with rfl | ⟨m, hb', hc⟩
    · exact hab
    · obtain rfl : n = m := Option.some.inj (hb.symm.trans hb')
      exact same_iff.mpr (.inr ⟨n, ha, hc⟩)

theorem same_comm (a b : Key) : a.same b = b.same a := by
  have hsymm : ∀ {a b : Key}, a.same b = true → b.same a = true := by
    intro a b h
    rcases same_iff.mp h with rfl | ⟨n, ha, hb⟩
    · exact h
    · exact same_iff.mpr (.inr ⟨n, hb, ha⟩)
  exact Bool.eq_iff_iff.mpr ⟨hsymm, hsymm⟩

/-- Keys that are the same are the same as the same keys. -/
theorem same_congr {a b : Key} (h : a.same b = true) (c : Key) : c.same a = c.same b := by
  have h' : b.same a = true := by rwa [same_comm]
  exact Bool.eq_iff_iff.mpr ⟨fun hc => same_trans hc h, fun hc => same_trans hc h'⟩

end Key

namespace Value

section Entries

variable {α : Type} {entries : List (Key × α)} {key : Key}

theorem find?_cons (e : Key × α) (rest : List (Key × α)) (key : Key) :
    find? (e :: rest) key = if e.1.same key then some e.2 else find? rest key := by
  unfold find?
  rw [List.find?_cons]
  cases e.1.same key <;> rfl

theorem find?_congr {key' : Key} (h : key.same key' = true) :
    find? entries key = find? entries key' := by
  simp only [find?, Key.same_congr h]

theorem find?_eq_none_iff : find? entries key = none ↔ ∀ e ∈ entries, e.1.same key = false := by
  simp [find?]

theorem find?_insert (entries : List (Key × α)) (key key' : Key) (v : α) :
    find? (insert entries key v) key' =
      if key.same key' then some v else find? entries key' := by
  induction entries with
  | nil => exact find?_cons (key, v) [] key'
  | cons e rest ih =>
      obtain ⟨k, old⟩ := e
      unfold insert
      by_cases hk : k.same key = true
      · -- The entry that is set answers for exactly the keys that the new key answers for.
        have hsame : k.same key' = key.same key' := by
          rw [Key.same_comm k, Key.same_comm key, Key.same_congr hk]
        rw [if_pos hk, find?_cons, find?_cons, hsame]
        split <;> rfl
      · rw [if_neg hk, find?_cons, find?_cons, ih]
        by_cases hk' : k.same key' = true
        · have hnot : ¬ key.same key' = true := fun h =>
            hk (Key.same_trans hk' (by rwa [Key.same_comm]))
          rw [if_pos hk', if_pos hk', if_neg hnot]
        · rw [if_neg hk', if_neg hk']

def keys (entries : List (Key × α)) : List Key := entries.map (·.1)

theorem keys_insert (entries : List (Key × α)) (key : Key) (v : α) :
    keys (insert entries key v) =
      if (find? entries key).isSome then keys entries else keys entries ++ [key] := by
  induction entries with
  | nil => rfl
  | cons e rest ih =>
      obtain ⟨k, old⟩ := e
      unfold insert
      rw [find?_cons]
      by_cases hk : k.same key = true
      · rw [if_pos hk, if_pos hk]
        rfl
      · rw [if_neg hk, if_neg hk]
        change k :: keys (insert rest key v) = _
        rw [ih]
        split <;> rfl

/-- No key stands twice. -/
def Distinct (entries : List (Key × α)) : Prop :=
  (keys entries).Pairwise fun k k' => k.same k' = false

instance : Decidable (Distinct entries) := inferInstanceAs (Decidable (List.Pairwise _ _))

theorem distinct_insert (h : Distinct entries) (key : Key) (v : α) :
    Distinct (insert entries key v) := by
  rw [Distinct, keys_insert]
  split
  · exact h
  · rename_i hnone
    rw [Option.not_isSome_iff_eq_none, find?_eq_none_iff] at hnone
    refine List.pairwise_append.mpr ⟨h, List.pairwise_singleton _ _, fun k hk k' hk' => ?_⟩
    obtain ⟨e, he, rfl⟩ := List.mem_map.mp hk
    obtain rfl := List.mem_singleton.mp hk'
    exact hnone e he

theorem mem_insert {e : Key × α} {v : α} (h : e ∈ insert entries key v) :
    e ∈ entries ∨ e.2 = v := by
  induction entries with
  | nil => exact .inr (congrArg Prod.snd (List.mem_singleton.mp h))
  | cons first rest ih =>
      obtain ⟨k, old⟩ := first
      unfold insert at h
      split at h
      · rcases List.mem_cons.mp h with rfl | h
        · exact .inr rfl
        · exact .inl (List.mem_cons_of_mem _ h)
      · rcases List.mem_cons.mp h with rfl | h
        · exact .inl List.mem_cons_self
        · exact (ih h).imp_left (List.mem_cons_of_mem _)

end Entries

variable {entries : List (Key × Value)} {key : Key}

mutual

/-- No mapping that can be reached through mappings has a key twice. -/
def proper : Value → Bool
  | map entries => decide (Distinct entries) && properAll entries
  | _ => true

def properAll : List (Key × Value) → Bool
  | [] => true
  | (_, v) :: rest => proper v && properAll rest

end

theorem properAll_iff : properAll entries = true ↔ ∀ e ∈ entries, e.2.proper = true := by
  induction entries with
  | nil => simp [properAll]
  | cons e rest ih => simp [properAll, ih]

theorem proper_map_iff :
    (map entries).proper = true ↔ Distinct entries ∧ ∀ e ∈ entries, e.2.proper = true := by
  rw [proper, Bool.and_eq_true, decide_eq_true_iff, properAll_iff]

theorem proper_of_find? (h : (map entries).proper = true) {v : Value}
    (hfind : find? entries key = some v) : v.proper = true := by
  obtain ⟨e, he, rfl⟩ := Option.map_eq_some_iff.mp hfind
  exact (proper_map_iff.mp h).2 e (List.mem_of_find?_eq_some he)

theorem isMap_iff {v : Value} : v.isMap = true ↔ ∃ entries, v = map entries := by
  cases v <;> simp [isMap]

def follow : Value → List Key → Option Value
  | v, [] => some v
  | map entries, key :: path => (find? entries key).bind (follow · path)
  | _, _ :: _ => none

theorem follow_append (v : Value) (path path' : List Key) :
    v.follow (path ++ path') = (v.follow path).bind (·.follow path') := by
  induction path generalizing v with
  | nil => rfl
  | cons key path ih =>
      cases v with
      | map entries =>
          simp only [List.cons_append, follow, Option.bind_assoc]
          exact congrArg _ (funext fun v => ih v)
      | _ => rfl

theorem follow_cons {v : Value} {before : List Key} (h : v.follow before = some (map entries))
    (key : Key) (after : List Key) :
    v.follow (before ++ key :: after) = (find? entries key).bind (·.follow after) := by
  rw [follow_append, h]
  rfl

theorem follow_concat {v : Value} {before : List Key} (h : v.follow before = some (map entries))
    (key : Key) : v.follow (before ++ [key]) = find? entries key := by
  rw [follow_cons h]
  exact Option.bind_fun_some _

theorem exists_find?_of_follow {v w : Value} {path : List Key}
    (h : v.follow (key :: path) = some w) :
    ∃ entries u, v = map entries ∧ find? entries key = some u ∧ u.follow path = some w := by
  cases v with
  | map entries =>
      obtain ⟨u, hu, hw⟩ := Option.bind_eq_some_iff.mp h
      exact ⟨entries, u, rfl, hu, hw⟩
  | _ => cases h

theorem proper_of_follow {v w : Value} {path : List Key} (hv : v.proper = true)
    (h : v.follow path = some w) : w.proper = true := by
  induction path generalizing v with
  | nil =>
      obtain rfl := Option.some.inj h
      exact hv
  | cons key path ih =>
      obtain ⟨entries, u, rfl, hu, hw⟩ := exists_find?_of_follow h
      exact ih (proper_of_find? hv hu) hw

end Value

namespace Settings

open Value

mutual

/-- A value that is laid over another. -/
def merge (base : Value) : Value → Value
  | .map update =>
      match base with
      | .map entries => .map (mergeEntries entries update)
      | _ => .map update
  | v => v

def mergeEntries (base : List (Key × Value)) : List (Key × Value) → List (Key × Value)
  | [] => base
  | (key, v) :: rest =>
      let v := match find? base key with
        | some old => merge old v
        | none => v
      mergeEntries (Value.insert base key v) rest

end

variable {base update : List (Key × Value)}

theorem merge_map (base update : List (Key × Value)) :
    merge (.map base) (.map update) = .map (mergeEntries base update) := by
  rw [merge]

/-- Anything but a mapping over a mapping replaces what is below it. -/
theorem merge_of_not_isMap {v w : Value} (h : v.isMap = false ∨ w.isMap = false) :
    merge v w = w := by
  cases w with
  | map update =>
      cases v with
      | map base => simp [isMap] at h
      | _ => simp [merge]
  | _ => simp [merge]

theorem mergeEntries_cons (base : List (Key × Value)) (key : Key) (v : Value)
    (rest : List (Key × Value)) :
    mergeEntries base ((key, v) :: rest) =
      mergeEntries (Value.insert base key (((find? base key).map (merge · v)).getD v)) rest := by
  rw [mergeEntries]
  cases find? base key <;> rfl

theorem find?_of_distinct_cons {key key' : Key} {v : Value} {rest : List (Key × Value)}
    (h : Distinct ((key, v) :: rest)) (hkey : key.same key' = true) : find? rest key' = none := by
  refine find?_eq_none_iff.mpr fun e he => ?_
  have hne : key.same e.1 = false := (List.pairwise_cons.mp h).1 e.1 (List.mem_map_of_mem he)
  rw [← Key.same_congr hkey, Key.same_comm, hne]

theorem find?_mergeEntries (h : Distinct update) (base : List (Key × Value)) (key : Key) :
    find? (mergeEntries base update) key =
      match find? update key with
      | none => find? base key
      | some v => some (((find? base key).map (merge · v)).getD v) := by
  induction update generalizing base with
  | nil => rw [mergeEntries]; rfl
  | cons e rest ih =>
      obtain ⟨first, v⟩ := e
      rw [mergeEntries_cons, ih (List.pairwise_cons.mp h).2, find?_insert, find?_cons]
      by_cases hfirst : first.same key = true
      · rw [find?_of_distinct_cons h hfirst, if_pos hfirst, if_pos hfirst, find?_congr hfirst]
      · rw [if_neg hfirst, if_neg hfirst]

theorem find?_mergeEntries_of_not (h : Distinct update) {key : Key} {v : Value}
    (hfind : find? update key = some v)
    (hnot : ∀ old, find? base key = some old → old.isMap = false ∨ v.isMap = false) :
    find? (mergeEntries base update) key = some v := by
  rw [find?_mergeEntries h, hfind]
  cases hold : find? base key with
  | none => rfl
  | some old => exact congrArg some (merge_of_not_isMap (hnot old hold))

/-- Keys that are there keep their places and new ones follow in their own order. -/
theorem keys_mergeEntries (h : Distinct update) (base : List (Key × Value)) :
    keys (mergeEntries base update) =
      keys base ++ (keys update).filter fun key => (find? base key).isNone := by
  induction update generalizing base with
  | nil => rw [mergeEntries]; simp [keys]
  | cons e rest ih =>
      obtain ⟨first, v⟩ := e
      obtain ⟨hfirst, hrest⟩ := List.pairwise_cons.mp h
      -- The entry that is set now is none of those that come later.
      have hlater : ∀ v', (keys rest).filter (fun key =>
          (find? (Value.insert base first v') key).isNone) =
            (keys rest).filter fun key => (find? base key).isNone := by
        intro v'
        refine List.filter_congr fun key hkey => ?_
        rw [find?_insert, hfirst key hkey]
        rfl
      rw [mergeEntries_cons, ih hrest, hlater, keys_insert]
      change _ = keys base ++ (first :: keys rest).filter _
      rw [List.filter_cons]
      cases find? base first <;> simp

/-- Where both settings have a mapping, one mapping is laid over the other. -/
theorem follow_merge_of_map {v w : Value} (hw : w.proper = true) {path : List Key}
    (hbase : v.follow path = some (.map base)) (hupdate : w.follow path = some (.map update)) :
    (merge v w).follow path = some (.map (mergeEntries base update)) := by
  induction path generalizing v w with
  | nil =>
      obtain rfl := Option.some.inj hbase
      obtain rfl := Option.some.inj hupdate
      rw [merge_map]
      rfl
  | cons key path ih =>
      obtain ⟨lower, v', rfl, hv', hbase⟩ := exists_find?_of_follow hbase
      obtain ⟨upper, w', rfl, hw', hupdate⟩ := exists_find?_of_follow hupdate
      rw [merge_map, follow, find?_mergeEntries (proper_map_iff.mp hw).1, hw', hv']
      exact ih (proper_of_find? hw hw') hbase hupdate

def Shared (v w : Value) (path : List Key) : Prop :=
  ∃ base update, v.follow path = some (.map base) ∧ w.follow path = some (.map update)

/-- How a path ends in settings that are laid over others: with what the lower ones say, with what
the upper ones say, or with a mapping of both. -/
inductive Resolved (v w merged : Value) (path : List Key) : Prop
  | lower {before : List Key} {key : Key} {after : List Key} (hpath : path = before ++ key :: after)
      (hshared : Shared v w before) (hnone : w.follow (before ++ [key]) = none)
      (hmerged : merged.follow path = v.follow path)
  | upper {before : List Key} {key : Key} {after : List Key} (hpath : path = before ++ key :: after)
      (hshared : Shared v w before) (hsome : (w.follow (before ++ [key])).isSome)
      (hnot : ¬ Shared v w (before ++ [key])) (hmerged : merged.follow path = w.follow path)
  | both {base update entries : List (Key × Value)} (hbase : v.follow path = some (.map base))
      (hupdate : w.follow path = some (.map update))
      (hmerged : merged.follow path = some (.map entries))
      (hentries : Value.map entries = merge (.map base) (.map update))
      (hkeys : keys entries =
        keys base ++ (keys update).filter fun key => (find? base key).isNone)

theorem shared_or_exists {v w : Value} (h : Shared v w []) (path : List Key) :
    Shared v w path ∨ ∃ before key after, path = before ++ key :: after ∧ Shared v w before ∧
      ¬ Shared v w (before ++ [key]) := by
  induction path using List.reverseRecOn with
  | nil => exact .inl h
  | append_singleton path key ih =>
      rcases ih with hshared | ⟨before, first, after, rfl, hshared, hnot⟩
      · by_cases hkey : Shared v w (path ++ [key])
        · exact .inl hkey
        · exact .inr ⟨path, key, [], rfl, hshared, hkey⟩
      · exact .inr ⟨before, first, after ++ [key], by simp, hshared, hnot⟩

theorem resolved_merge {v w : Value} (h : Shared v w []) (hw : w.proper = true) (path : List Key) :
    Resolved v w (merge v w) path := by
  rcases shared_or_exists h path with ⟨base, update, hbase, hupdate⟩ |
    ⟨before, key, after, rfl, ⟨base, update, hbase, hupdate⟩, hnot⟩
  · have hdistinct := (proper_map_iff.mp (proper_of_follow hw hupdate)).1
    exact .both hbase hupdate (follow_merge_of_map hw hbase hupdate) (merge_map base update).symm
      (keys_mergeEntries hdistinct base)
  · have hdistinct := (proper_map_iff.mp (proper_of_follow hw hupdate)).1
    have hmerged := follow_merge_of_map hw hbase hupdate
    cases hfind : find? update key with
    | none =>
        refine .lower rfl ⟨base, update, hbase, hupdate⟩ ?_ ?_
        · rw [follow_concat hupdate, hfind]
        · rw [follow_cons hmerged, follow_cons hbase, find?_mergeEntries hdistinct, hfind]
    | some u =>
        -- If both had a mapping under the key, the path would be shared for one more step.
        have hreplaced : ∀ old, find? base key = some old → old.isMap = false ∨ u.isMap = false := by
          intro old hold
          by_contra hmaps
          obtain ⟨hold', hu'⟩ := not_or.mp hmaps
          obtain ⟨entries, rfl⟩ := isMap_iff.mp (Bool.not_eq_false _ ▸ hold')
          obtain ⟨entries', rfl⟩ := isMap_iff.mp (Bool.not_eq_false _ ▸ hu')
          exact hnot ⟨entries, entries', by rw [follow_concat hbase, hold],
            by rw [follow_concat hupdate, hfind]⟩
        refine .upper rfl ⟨base, update, hbase, hupdate⟩ ?_ hnot ?_
        · rw [follow_concat hupdate, hfind]
          rfl
        · rw [follow_cons hmerged, follow_cons hupdate, hfind,
            find?_mergeEntries_of_not hdistinct hfind hreplaced]

end Settings

end Pseudonym
