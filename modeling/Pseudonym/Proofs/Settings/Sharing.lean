import Mathlib.Data.List.Nodup
import Pseudonym.Proofs.Settings.Merging
import Pseudonym.Settings.Merge

namespace Pseudonym

open Value

namespace Value

/-- A key that is there keeps its place; any other key is put at the end. -/
theorem insert_cases {α : Type} (entries : List (Key × α)) (key : Key) :
    (find? entries key = none ∧ ∀ v, insert entries key v = entries ++ [(key, v)]) ∨
      ∃ before k old after, entries = before ++ (k, old) :: after ∧ find? entries key = some old ∧
        ∀ v, insert entries key v = before ++ (k, v) :: after := by
  induction entries with
  | nil => exact .inl ⟨rfl, fun v => rfl⟩
  | cons e rest ih =>
      obtain ⟨k, old⟩ := e
      by_cases hk : k.same key = true
      · refine .inr ⟨[], k, old, rest, rfl, ?_, fun v => ?_⟩
        · rw [find?_cons, if_pos hk]
        · rw [insert, if_pos hk]
          rfl
      · have hinsert : ∀ v, insert ((k, old) :: rest) key v = (k, old) :: insert rest key v :=
          fun v => by rw [insert, if_neg hk]
        rw [find?_cons, if_neg hk]
        rcases ih with ⟨hnone, hrest⟩ | ⟨before, k', old', after, rfl, hsome, hrest⟩
        · exact .inl ⟨hnone, fun v => by rw [hinsert, hrest]; rfl⟩
        · exact .inr ⟨(k, old) :: before, k', old', after, rfl, hsome, fun v => by
            rw [hinsert, hrest]; rfl⟩

end Value

namespace Document

@[induction_eliminator]
theorem induct {motive : Document → Prop} (scalar : ∀ v, motive (.scalar v))
    (list : ∀ items, (∀ d ∈ items, motive d) → motive (.list items))
    (map : ∀ origin entries, (∀ e ∈ entries, motive e.2) → motive (.map origin entries)) :
    ∀ d, motive d
  | .scalar v => scalar v
  | .list items => list items fun d _ => induct scalar list map d
  | .map origin entries => map origin entries fun e _ => induct scalar list map e.2
termination_by d => d
decreasing_by
  · have := List.sizeOf_lt_of_mem ‹d ∈ items›
    simp only [Document.list.sizeOf_spec]
    omega
  · have := List.sizeOf_lt_of_mem ‹e ∈ entries›
    obtain ⟨key, d⟩ := e
    simp only [Document.map.sizeOf_spec, Prod.mk.sizeOf_spec] at *
    omega

theorem writeUnder_eq_map (origin : Origin) (key : Key) (new : Document)
    (entries : List (Key × Document)) :
    writeUnder origin key new entries = entries.map fun e => (e.1, write origin key new e.2) := by
  induction entries with
  | nil => rfl
  | cons e rest ih => rw [writeUnder, ih]; rfl

theorem writeIn_eq_map (origin : Origin) (key : Key) (new : Document) (items : List Document) :
    writeIn origin key new items = items.map (write origin key new) := by
  induction items with
  | nil => rfl
  | cons d rest ih => rw [writeIn, ih]; rfl

theorem entriesUnder?_eq_findSome? (origin : Origin) (entries : List (Key × Document)) :
    entriesUnder? origin entries = entries.findSome? fun e => e.2.entries? origin := by
  induction entries with
  | nil => rfl
  | cons e rest ih =>
      rw [entriesUnder?, ih, List.findSome?_cons]
      cases e.2.entries? origin <;> rfl

theorem entriesIn?_eq_findSome? (origin : Origin) (items : List Document) :
    entriesIn? origin items = items.findSome? fun d => d.entries? origin := by
  induction items with
  | nil => rfl
  | cons d rest ih =>
      rw [entriesIn?, ih, List.findSome?_cons]
      cases d.entries? origin <;> rfl

mutual

def origins : Document → List Origin
  | scalar _ => []
  | list items => originsIn items
  | map origin entries => origin :: originsUnder entries

def originsIn : List Document → List Origin
  | [] => []
  | d :: rest => origins d ++ originsIn rest

def originsUnder : List (Key × Document) → List Origin
  | [] => []
  | (_, d) :: rest => origins d ++ originsUnder rest

end

/-- No mapping stands twice. -/
def Unshared (d : Document) : Prop := d.origins.Nodup

instance (d : Document) : Decidable d.Unshared := inferInstanceAs (Decidable d.origins.Nodup)

theorem mem_originsIn_iff {origin : Origin} {items : List Document} :
    origin ∈ originsIn items ↔ ∃ d ∈ items, origin ∈ d.origins := by
  induction items with
  | nil => simp [originsIn]
  | cons d rest ih => simp [originsIn, ih]

theorem mem_originsUnder_iff {origin : Origin} {entries : List (Key × Document)} :
    origin ∈ originsUnder entries ↔ ∃ e ∈ entries, origin ∈ e.2.origins := by
  induction entries with
  | nil => simp [originsUnder]
  | cons e rest ih => simp [originsUnder, ih]

theorem originsUnder_append (entries entries' : List (Key × Document)) :
    originsUnder (entries ++ entries') = originsUnder entries ++ originsUnder entries' := by
  induction entries with
  | nil => rfl
  | cons e rest ih => rw [List.cons_append, originsUnder, originsUnder, ih, List.append_assoc]

theorem entries?_eq_none {origin : Origin} {d : Document} (h : origin ∉ d.origins) :
    d.entries? origin = none := by
  induction d with
  | scalar v => rfl
  | list items ih =>
      rw [entries?, entriesIn?_eq_findSome?, List.findSome?_eq_none_iff]
      exact fun d hd => ih d hd fun hmem => h (mem_originsIn_iff.mpr ⟨d, hd, hmem⟩)
  | map here entries ih =>
      rw [origins, List.mem_cons, not_or] at h
      rw [entries?, if_neg (Ne.symm h.1), entriesUnder?_eq_findSome?, List.findSome?_eq_none_iff]
      exact fun e he => ih e he fun hmem => h.2 (mem_originsUnder_iff.mpr ⟨e, he, hmem⟩)

theorem entriesUnder?_eq_none {origin : Origin} {entries : List (Key × Document)}
    (h : origin ∉ originsUnder entries) : entriesUnder? origin entries = none := by
  rw [entriesUnder?_eq_findSome?, List.findSome?_eq_none_iff]
  exact fun e he => entries?_eq_none fun hmem => h (mem_originsUnder_iff.mpr ⟨e, he, hmem⟩)

theorem write_eq_self {origin : Origin} {d : Document} (h : origin ∉ d.origins) (key : Key)
    (new : Document) : write origin key new d = d := by
  induction d with
  | scalar v => rfl
  | list items ih =>
      rw [write, writeIn_eq_map]
      refine congrArg _ ((List.map_congr_left fun d hd => ?_).trans (List.map_id items))
      exact ih d hd fun hmem => h (mem_originsIn_iff.mpr ⟨d, hd, hmem⟩)
  | map here entries ih =>
      rw [origins, List.mem_cons, not_or] at h
      rw [write, if_neg (Ne.symm h.1), writeUnder_eq_map]
      refine congrArg _ ((List.map_congr_left fun e he => ?_).trans (List.map_id entries))
      exact Prod.ext rfl (ih e he fun hmem => h.2 (mem_originsUnder_iff.mpr ⟨e, he, hmem⟩))

theorem writeUnder_eq_self {origin : Origin} {entries : List (Key × Document)}
    (h : origin ∉ originsUnder entries) (key : Key) (new : Document) :
    writeUnder origin key new entries = entries := by
  rw [writeUnder_eq_map]
  refine (List.map_congr_left fun e he => ?_).trans (List.map_id entries)
  exact Prod.ext rfl (write_eq_self (fun hmem => h (mem_originsUnder_iff.mpr ⟨e, he, hmem⟩)) key new)

theorem originsUnder_insert_subset (entries : List (Key × Document)) (key : Key) (d : Document) :
    originsUnder (insert entries key d) ⊆ originsUnder entries ++ d.origins := by
  intro origin horigin
  obtain ⟨e, he, hmem⟩ := mem_originsUnder_iff.mp horigin
  rcases mem_insert he with he | rfl
  · exact List.mem_append_left _ (mem_originsUnder_iff.mpr ⟨e, he, hmem⟩)
  · exact List.mem_append_right _ hmem

theorem origins_write_subset (origin : Origin) (key : Key) (new d : Document) :
    (write origin key new d).origins ⊆ d.origins ++ new.origins := by
  induction d with
  | scalar v => exact List.nil_subset _
  | list items ih =>
      rw [write, origins, origins, writeIn_eq_map]
      intro o ho
      obtain ⟨d', hd', ho⟩ := mem_originsIn_iff.mp ho
      obtain ⟨d, hd, rfl⟩ := List.mem_map.mp hd'
      refine (List.mem_append.mp (ih d hd ho)).elim (fun ho => ?_) (List.mem_append_right _)
      exact List.mem_append_left _ (mem_originsIn_iff.mpr ⟨d, hd, ho⟩)
  | map here entries ih =>
      have hunder : originsUnder (writeUnder origin key new entries) ⊆
          originsUnder entries ++ new.origins := by
        intro o ho
        rw [writeUnder_eq_map] at ho
        obtain ⟨e', he', ho⟩ := mem_originsUnder_iff.mp ho
        obtain ⟨e, he, rfl⟩ := List.mem_map.mp he'
        refine (List.mem_append.mp (ih e he ho)).elim (fun ho => ?_) (List.mem_append_right _)
        exact List.mem_append_left _ (mem_originsUnder_iff.mpr ⟨e, he, ho⟩)
      rw [write, origins, origins]
      refine List.cons_subset_cons here ?_
      split
      · refine List.Subset.trans (originsUnder_insert_subset _ key new) ?_
        exact List.append_subset.mpr ⟨hunder, List.subset_append_right _ _⟩
      · exact hunder

theorem originsUnder_subset_of_entries? {d : Document} {origin : Origin}
    {entries : List (Key × Document)} (h : d.entries? origin = some entries) :
    originsUnder entries ⊆ d.origins := by
  induction d with
  | scalar v => cases h
  | list items ih =>
      rw [entries?, entriesIn?_eq_findSome?] at h
      obtain ⟨d, hd, h⟩ := List.exists_of_findSome?_eq_some h
      exact fun o ho => mem_originsIn_iff.mpr ⟨d, hd, ih d hd h ho⟩
  | map here inner ih =>
      rw [entries?] at h
      rw [origins]
      split at h
      · obtain rfl := Option.some.inj h
        exact List.subset_cons_self _ _
      · rw [entriesUnder?_eq_findSome?] at h
        obtain ⟨e, he, h⟩ := List.exists_of_findSome?_eq_some h
        exact fun o ho => List.mem_cons_of_mem _ (mem_originsUnder_iff.mpr ⟨e, he, ih e he h ho⟩)

theorem origins_subset_of_find? {entries : List (Key × Document)} {key : Key} {d : Document}
    (h : find? entries key = some d) : d.origins ⊆ originsUnder entries := by
  obtain ⟨e, he, rfl⟩ := Option.map_eq_some_iff.mp h
  exact fun o ho => mem_originsUnder_iff.mpr ⟨e, List.mem_of_find?_eq_some he, ho⟩

theorem find?_entryValues (entries : List (Key × Document)) (key : Key) :
    find? (entryValues entries) key = (find? entries key).map value := by
  induction entries with
  | nil => rfl
  | cons e rest ih =>
      obtain ⟨k, d⟩ := e
      rw [entryValues, find?_cons, find?_cons, ih]
      split <;> rfl

theorem entryValues_insert (entries : List (Key × Document)) (key : Key) (d : Document) :
    entryValues (insert entries key d) = insert (entryValues entries) key d.value := by
  induction entries with
  | nil => rfl
  | cons e rest ih =>
      obtain ⟨k, old⟩ := e
      rw [Value.insert, entryValues, Value.insert]
      split
      · rfl
      · rw [entryValues, ih]

end Document

/-- A document with a hole where an entry of its outermost mapping stands. -/
structure Hole where
  origin : Origin
  before : List (Key × Document)
  key : Key
  after : List (Key × Document)

namespace Hole

open Document

variable (hole : Hole)

def fill (d : Document) : Document :=
  .map hole.origin (hole.before ++ (hole.key, d) :: hole.after)

def outside : List Origin := hole.origin :: (originsUnder hole.before ++ originsUnder hole.after)

variable {hole} {origin : Origin} {d : Document}

theorem origins_fill_perm : (hole.fill d).origins.Perm (d.origins ++ hole.outside) := by
  rw [fill, origins, originsUnder_append, originsUnder, outside]
  refine (List.Perm.cons _ (List.perm_append_comm_assoc _ _ _)).trans ?_
  exact List.perm_middle.symm

theorem unshared_fill_iff : (hole.fill d).Unshared ↔
    d.Unshared ∧ hole.outside.Nodup ∧ d.origins.Disjoint hole.outside := by
  rw [Unshared, origins_fill_perm.nodup_iff, List.nodup_append']
  rfl

theorem mem_origins_fill : origin ∈ (hole.fill d).origins ↔ origin ∈ d.origins ∨ origin ∈ hole.outside := by
  rw [origins_fill_perm.mem_iff, List.mem_append]

theorem not_mem_outside_iff : origin ∉ hole.outside ↔ hole.origin ≠ origin ∧
    origin ∉ originsUnder hole.before ∧ origin ∉ originsUnder hole.after := by
  simp [outside, eq_comm]

theorem entries?_fill (h : origin ∉ hole.outside) :
    (hole.fill d).entries? origin = d.entries? origin := by
  obtain ⟨hne, hbefore, hafter⟩ := not_mem_outside_iff.mp h
  rw [fill, entries?, if_neg hne, entriesUnder?_eq_findSome?, List.findSome?_append,
    ← entriesUnder?_eq_findSome?, ← entriesUnder?_eq_findSome?, entriesUnder?_eq_none hbefore,
    entriesUnder?, entriesUnder?_eq_none hafter, Option.or_none, Option.none_or]

theorem write_fill (h : origin ∉ hole.outside) (key : Key) (new : Document) :
    write origin key new (hole.fill d) = hole.fill (write origin key new d) := by
  obtain ⟨hne, hbefore, hafter⟩ := not_mem_outside_iff.mp h
  rw [fill, write, if_neg hne, writeUnder_eq_map, List.map_append, ← writeUnder_eq_map,
    ← writeUnder_eq_map, writeUnder_eq_self hbefore, writeUnder, writeUnder_eq_self hafter]
  rfl

/-- Where an entry is set, and what is around it. -/
theorem exists_hole (origin : Origin) (entries : List (Key × Document)) (key : Key) :
    ∃ hole : Hole, (∀ d, hole.fill d = .map origin (Value.insert entries key d)) ∧
      hole.outside.Sublist (Document.map origin entries).origins ∧
      ∀ old, find? entries key = some old → hole.fill old = .map origin entries := by
  rcases insert_cases entries key with ⟨hnone, hinsert⟩ |
    ⟨before, k, old, after, rfl, hsome, hinsert⟩
  · refine ⟨⟨origin, entries, key, []⟩, fun d => by rw [hinsert]; rfl, ?_, fun old hold => ?_⟩
    · rw [outside, originsUnder, List.append_nil]
      exact List.Sublist.refl _
    · rw [hnone] at hold
      cases hold
  · refine ⟨⟨origin, before, k, after⟩, fun d => by rw [hinsert]; rfl, ?_, fun old' hold => ?_⟩
    · rw [outside, origins, originsUnder_append, originsUnder]
      refine List.Sublist.cons_cons _ (List.Sublist.append_left ?_ _)
      exact List.sublist_append_right _ _
    · obtain rfl : old = old' := Option.some.inj (hsome.symm.trans hold)
      rfl

end Hole

namespace Settings

open Document

theorem lay_of_not_isMap {d : Document} (h : d.value.isMap = false) (settings : Document)
    (origin : Origin) (key : Key) : lay settings origin key d = write origin key d settings := by
  cases d with
  | map upper entries => cases h
  | _ => simp [lay]

theorem lay_map (settings : Document) (origin : Origin) (key : Key) (upper : Origin)
    (entries : List (Key × Document)) :
    (∃ lower inner, (settings.entries? origin).bind (find? · key) = some (.map lower inner) ∧
      lay settings origin key (.map upper entries) = layEntries settings lower entries) ∨
    (∀ lower inner, (settings.entries? origin).bind (find? · key) ≠ some (.map lower inner)) ∧
      lay settings origin key (.map upper entries) = write origin key (.map upper entries) settings := by
  rw [lay]
  split
  · rename_i lower inner hfind
    exact .inl ⟨lower, inner, hfind, rfl⟩
  · rename_i hnot
    exact .inr ⟨hnot, rfl⟩

theorem origins_layEntries_subset {entries : List (Key × Document)}
    (h : ∀ e ∈ entries, ∀ settings origin key,
      (lay settings origin key e.2).origins ⊆ settings.origins ++ e.2.origins)
    (settings : Document) (origin : Origin) :
    (layEntries settings origin entries).origins ⊆ settings.origins ++ originsUnder entries := by
  induction entries generalizing settings with
  | nil =>
      rw [layEntries]
      exact List.subset_append_left _ _
  | cons e rest ih =>
      obtain ⟨hfirst, hrest⟩ := List.forall_mem_cons.mp h
      obtain ⟨key, d⟩ := e
      rw [layEntries, originsUnder, ← List.append_assoc]
      refine List.Subset.trans (ih hrest _)
        (List.append_subset.mpr ⟨?_, List.subset_append_right _ _⟩)
      exact List.subset_append_of_subset_left _ (hfirst settings origin key)

theorem origins_lay_subset (settings : Document) (origin : Origin) (key : Key) (d : Document) :
    (lay settings origin key d).origins ⊆ settings.origins ++ d.origins := by
  induction d generalizing settings origin key with
  | scalar v =>
      rw [lay_of_not_isMap (by cases v <;> rfl)]
      exact origins_write_subset _ _ _ _
  | list items _ =>
      rw [lay_of_not_isMap rfl]
      exact origins_write_subset _ _ _ _
  | map upper entries ih =>
      rcases lay_map settings origin key upper entries with ⟨lower, inner, -, hlay⟩ | ⟨-, hlay⟩
      · rw [hlay, origins]
        refine List.Subset.trans (origins_layEntries_subset ih settings lower) ?_
        exact List.append_subset.mpr ⟨List.subset_append_left _ _,
          List.subset_append_of_subset_right _ (List.subset_cons_self _ _)⟩
      · rw [hlay]
        exact origins_write_subset _ _ _ _

theorem layEntries_fill {hole : Hole} {entries : List (Key × Document)}
    (h : ∀ e ∈ entries, ∀ settings origin key, origin ∉ hole.outside →
      settings.origins.Disjoint hole.outside → e.2.origins.Disjoint hole.outside →
        lay (hole.fill settings) origin key e.2 = hole.fill (lay settings origin key e.2))
    {settings : Document} {origin : Origin} (horigin : origin ∉ hole.outside)
    (hsettings : settings.origins.Disjoint hole.outside)
    (hentries : (originsUnder entries).Disjoint hole.outside) :
    layEntries (hole.fill settings) origin entries = hole.fill (layEntries settings origin entries) := by
  induction entries generalizing settings with
  | nil => rw [layEntries, layEntries]
  | cons e rest ih =>
      obtain ⟨hfirst, hrest⟩ := List.forall_mem_cons.mp h
      obtain ⟨key, d⟩ := e
      rw [originsUnder, List.disjoint_append_left] at hentries
      rw [layEntries, layEntries, hfirst settings origin key horigin hsettings hentries.1]
      refine ih hrest (List.disjoint_of_subset_left (origins_lay_subset settings origin key d) ?_) hentries.2
      exact List.disjoint_append_left.mpr ⟨hsettings, hentries.1⟩

/-- What is laid over a mapping inside does not touch what is around it. -/
theorem lay_fill {hole : Hole} {settings d : Document} {origin : Origin} {key : Key}
    (horigin : origin ∉ hole.outside) (hsettings : settings.origins.Disjoint hole.outside)
    (hd : d.origins.Disjoint hole.outside) :
    lay (hole.fill settings) origin key d = hole.fill (lay settings origin key d) := by
  induction d generalizing settings origin key with
  | scalar v =>
      rw [lay_of_not_isMap (by cases v <;> rfl), lay_of_not_isMap (by cases v <;> rfl),
        Hole.write_fill horigin]
  | list items _ =>
      rw [lay_of_not_isMap rfl, lay_of_not_isMap rfl, Hole.write_fill horigin]
  | map upper entries ih =>
      rw [lay, lay, Hole.entries?_fill horigin]
      split
      · rename_i lower inner hfind
        obtain ⟨es, hes, hfind⟩ := Option.bind_eq_some_iff.mp hfind
        -- The entries go to a mapping of the filling, so the induction applies with its origin.
        have hlower : lower ∈ settings.origins :=
          originsUnder_subset_of_entries? hes (origins_subset_of_find? hfind List.mem_cons_self)
        rw [origins] at hd
        exact layEntries_fill (fun e he settings origin key => ih e he) (hsettings hlower) hsettings
          (List.disjoint_of_subset_left (List.subset_cons_self _ _) hd)
      · exact Hole.write_fill horigin _ _

/-- Settings that are a mapping where nothing stands twice, with the values of the entries. -/
structure Plain (origin : Origin) (values : List (Key × Value)) (settings : Document) : Prop where
  exists_entries : ∃ entries, settings = .map origin entries ∧ entryValues entries = values
  unshared : settings.Unshared

section Plain

variable {origin : Origin} {entries : List (Key × Document)} {key : Key} {d : Document}

theorem plain_map (h : (Document.map origin entries).Unshared) :
    Plain origin (entryValues entries) (.map origin entries) := ⟨⟨entries, rfl, rfl⟩, h⟩

/-- An entry is set in a hole that is around the old one. -/
theorem plain_insert (hentries : (Document.map origin entries).Unshared) (hd : d.Unshared)
    {hole : Hole} (hfill : hole.fill d = .map origin (Value.insert entries key d))
    (houtside : hole.outside.Sublist (Document.map origin entries).origins)
    (hdisjoint : d.origins.Disjoint hole.outside) :
    Plain origin (Value.insert (entryValues entries) key d.value)
      (.map origin (Value.insert entries key d)) := by
  refine ⟨⟨_, rfl, entryValues_insert entries key d⟩, ?_⟩
  rw [← hfill]
  exact Hole.unshared_fill_iff.mpr ⟨hd, hentries.sublist houtside, hdisjoint⟩

theorem plain_write (hentries : (Document.map origin entries).Unshared) (hd : d.Unshared)
    (hdisjoint : d.origins.Disjoint (Document.map origin entries).origins) :
    Plain origin (Value.insert (entryValues entries) key d.value)
      (write origin key d (.map origin entries)) := by
  obtain ⟨hole, hfill, houtside, -⟩ := Hole.exists_hole origin entries key
  rw [write, writeUnder_eq_self (List.nodup_cons.mp hentries).1, if_pos rfl]
  exact plain_insert hentries hd (hfill d) houtside
    (List.disjoint_of_subset_right houtside.subset hdisjoint)

/-- What an entry comes to where a document is laid over it. -/
def laidOver (entries : List (Key × Document)) (key : Key) (d : Document) : Value :=
  ((find? (entryValues entries) key).map (merge · d.value)).getD d.value

theorem laidOver_eq_value (h : ∀ old, find? entries key = some old →
    old.value.isMap = false ∨ d.value.isMap = false) : laidOver entries key d = d.value := by
  rw [laidOver, find?_entryValues]
  cases hold : find? entries key with
  | none => rfl
  | some old => exact merge_of_not_isMap (h old hold)

theorem plain_layEntries {update : List (Key × Document)}
    (h : ∀ e ∈ update, ∀ origin entries key, (Document.map origin entries).Unshared →
      e.2.Unshared → e.2.origins.Disjoint (Document.map origin entries).origins →
        Plain origin (Value.insert (entryValues entries) key (laidOver entries key e.2))
          (lay (.map origin entries) origin key e.2))
    (hentries : (Document.map origin entries).Unshared) (hupdate : (originsUnder update).Nodup)
    (hdisjoint : (originsUnder update).Disjoint (Document.map origin entries).origins) :
    Plain origin (mergeEntries (entryValues entries) (entryValues update))
      (layEntries (.map origin entries) origin update) := by
  induction update generalizing entries with
  | nil =>
      rw [layEntries, entryValues, mergeEntries]
      exact plain_map hentries
  | cons e rest ih =>
      obtain ⟨hfirst, hrest⟩ := List.forall_mem_cons.mp h
      obtain ⟨key, d⟩ := e
      rw [originsUnder, List.nodup_append'] at hupdate
      rw [originsUnder, List.disjoint_append_left] at hdisjoint
      obtain ⟨⟨entries', hlay, hvalues⟩, hunshared⟩ :=
        hfirst origin entries key hentries hupdate.1 hdisjoint.1
      -- The entries that are left have nothing in common with the one that was laid over.
      have hleft : (originsUnder rest).Disjoint (Document.map origin entries').origins := by
        rw [← hlay]
        refine List.disjoint_of_subset_right (origins_lay_subset _ _ _ _) ?_
        exact List.disjoint_append_right.mpr ⟨hdisjoint.2, fun o ho ho' => hupdate.2.2 ho' ho⟩
      rw [hlay] at hunshared
      have hplain := ih hrest hunshared hupdate.2.1 hleft
      rw [layEntries, hlay, entryValues, mergeEntries_cons]
      rwa [hvalues] at hplain

/-- Entries that are laid over a mapping inside change the entry where it stands. -/
theorem plain_layEntries_inside {lower : Origin} {inner update : List (Key × Document)}
    (h : ∀ origin, (Document.map origin inner).Unshared →
      (originsUnder update).Disjoint (Document.map origin inner).origins →
        Plain origin (mergeEntries (entryValues inner) (entryValues update))
          (layEntries (.map origin inner) origin update))
    (hentries : (Document.map origin entries).Unshared)
    (hfind : find? entries key = some (.map lower inner))
    (hdisjoint : (originsUnder update).Disjoint (Document.map origin entries).origins) :
    Plain origin (Value.insert (entryValues entries) key
        (.map (mergeEntries (entryValues inner) (entryValues update))))
      (layEntries (.map origin entries) lower update) := by
  obtain ⟨hole, hfill, houtside, hold⟩ := Hole.exists_hole origin entries key
  have hinner := hold _ hfind
  obtain ⟨hunshared, -, hinside⟩ := Hole.unshared_fill_iff.mp (hinner ▸ hentries)
  have hupdateOutside := List.disjoint_of_subset_right houtside.subset hdisjoint
  have hupdateInside : (originsUnder update).Disjoint (Document.map lower inner).origins := by
    refine List.disjoint_of_subset_right (fun o ho => ?_) hdisjoint
    rw [← hinner]
    exact Hole.mem_origins_fill.mpr (.inl ho)
  -- Nothing of the update is outside, so it is laid over the inner mapping alone.
  have hlaid : layEntries (.map origin entries) lower update =
      hole.fill (layEntries (.map lower inner) lower update) := by
    rw [← hinner]
    exact layEntries_fill (fun e he settings origin key => lay_fill) (hinside List.mem_cons_self)
      hinside hupdateOutside
  have horigins := origins_layEntries_subset
    (fun e (_ : e ∈ update) settings origin key => origins_lay_subset settings origin key e.2)
    (.map lower inner) lower
  obtain ⟨⟨inner', hinner', hvalues⟩, hunshared'⟩ := h lower hunshared hupdateInside
  rw [hinner'] at hlaid hunshared' horigins
  rw [hlaid, hfill, ← hvalues]
  refine plain_insert hentries hunshared' (hfill _) houtside
    (List.disjoint_of_subset_left horigins ?_)
  exact List.disjoint_append_left.mpr ⟨hinside, hupdateOutside⟩

/-- In place or not, a document is laid over an entry. -/
theorem plain_lay (hentries : (Document.map origin entries).Unshared) (hd : d.Unshared)
    (hdisjoint : d.origins.Disjoint (Document.map origin entries).origins) :
    Plain origin (Value.insert (entryValues entries) key (laidOver entries key d))
      (lay (.map origin entries) origin key d) := by
  induction d generalizing origin entries key with
  | scalar v =>
      have hv : (Document.scalar v).value.isMap = false := by cases v <;> rfl
      rw [lay_of_not_isMap hv, laidOver_eq_value fun old _ => .inr hv]
      exact plain_write hentries hd hdisjoint
  | list items _ =>
      rw [lay_of_not_isMap rfl, laidOver_eq_value fun old _ => .inr rfl]
      exact plain_write hentries hd hdisjoint
  | map upper update ih =>
      have hhere : (Document.map origin entries).entries? origin = some entries := by
        rw [entries?, if_pos rfl]
      rcases lay_map (.map origin entries) origin key upper update with
        ⟨lower, inner, hfind, hlay⟩ | ⟨hnot, hlay⟩
      · rw [hhere, Option.bind_some] at hfind
        have hvalue : laidOver entries key (.map upper update) =
            .map (mergeEntries (entryValues inner) (entryValues update)) := by
          rw [laidOver, find?_entryValues, hfind]
          exact merge_map _ _
        rw [hlay, hvalue]
        refine plain_layEntries_inside (fun origin hunshared hupdate => ?_) hentries hfind
          (List.disjoint_of_subset_left (List.subset_cons_self _ _) hdisjoint)
        exact plain_layEntries (fun e he origin entries key => ih e he) hunshared
          (List.nodup_cons.mp hd).2 hupdate
      · rw [hhere, Option.bind_some] at hnot
        rw [hlay, laidOver_eq_value]
        · exact plain_write hentries hd hdisjoint
        · intro old hold
          cases old with
          | map lower inner => exact absurd hold (hnot lower inner)
          | scalar v => exact .inl (by cases v <;> rfl)
          | list items => exact .inl rfl

end Plain

end Settings

end Pseudonym
