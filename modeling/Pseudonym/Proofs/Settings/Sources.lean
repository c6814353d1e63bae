import Pseudonym.Proofs.Settings.Sharing
import Pseudonym.Proofs.Traversal
import Pseudonym.Settings.Load
import Pseudonym.Yaml.Document

namespace Pseudonym

open Traversal Value Document

namespace Value

theorem proper_map_insert {entries : List (Key × Value)} (h : (map entries).proper = true)
    (key : Key) {v : Value} (hv : v.proper = true) : (map (insert entries key v)).proper = true := by
  obtain ⟨hdistinct, hentries⟩ := proper_map_iff.mp h
  refine proper_map_iff.mpr ⟨distinct_insert hdistinct key v, fun e he => ?_⟩
  rcases mem_insert he with he | he
  · exact hentries e he
  · rw [he]
    exact hv

end Value

namespace Document

mutual

theorem value_ofValue (origin : Origin) : ∀ v : Value, (ofValue origin v).value = v
  | .null | .bool _ | .int _ | .float _ | .text _ | .date _ | .other _ _ => rfl
  | .list items => by rw [ofValue, value, values_ofValues]
  | .map entries => by rw [ofValue, value, entryValues_ofEntries]

theorem values_ofValues (origin : Origin) (n : Nat) :
    ∀ items : List Value, values (ofValues origin n items) = items
  | [] => rfl
  | v :: rest => by rw [ofValues, values, value_ofValue, values_ofValues]

theorem entryValues_ofEntries (origin : Origin) (n : Nat) :
    ∀ entries : List (Key × Value), entryValues (ofEntries origin n entries) = entries
  | [] => rfl
  | (key, v) :: rest => by rw [ofEntries, entryValues, value_ofValue, entryValues_ofEntries]

end

/-- Origins that differ and lead past an origin, from a number on. -/
def Parted (origin : Origin) (n : Nat) (origins : List Origin) : Prop :=
  (∀ o ∈ origins, ∃ m, n ≤ m ∧ origin ++ [m] <+: o) ∧ origins.Nodup

theorem parted_nil (origin : Origin) (n : Nat) : Parted origin n [] :=
  ⟨fun _ ho => absurd ho List.not_mem_nil, List.nodup_nil⟩

theorem Parted.append {origin : Origin} {n : Nat} {first rest : List Origin}
    (hfirst : ∀ o ∈ first, origin ++ [n] <+: o) (hnodup : first.Nodup)
    (hrest : Parted origin (n + 1) rest) : Parted origin n (first ++ rest) := by
  refine ⟨fun o ho => ?_, List.nodup_append'.mpr ⟨hnodup, hrest.2, fun o ho ho' => ?_⟩⟩
  · rcases List.mem_append.mp ho with ho | ho
    · exact ⟨n, Nat.le_refl n, hfirst o ho⟩
    · obtain ⟨m, hm, hprefix⟩ := hrest.1 o ho
      exact ⟨m, Nat.le_of_succ_le hm, hprefix⟩
  · -- Two ways of one length to the same place are one way.
    obtain ⟨m, hm, hprefix⟩ := hrest.1 o ho'
    have heq := (List.prefix_of_prefix_length_le (hfirst o ho) hprefix (by simp)).eq_of_length
      (by simp)
    simp only [List.append_cancel_left_eq, List.cons.injEq, and_true] at heq
    omega

mutual

/-- In a document that is made of a value no mapping stands twice. -/
theorem origins_ofValue (origin : Origin) :
    ∀ v, (∀ o ∈ (ofValue origin v).origins, origin <+: o) ∧ (ofValue origin v).origins.Nodup
  | .null | .bool _ | .int _ | .float _ | .text _ | .date _ | .other _ _ =>
      ⟨fun _ ho => absurd ho List.not_mem_nil, List.nodup_nil⟩
  | .list items => by
      obtain ⟨hitems, hnodup⟩ := originsIn_ofValues origin 0 items
      refine ⟨fun o ho => ?_, hnodup⟩
      obtain ⟨m, -, hm⟩ := hitems o ho
      exact (List.prefix_append _ _).trans hm
  | .map entries => by
      obtain ⟨hentries, hnodup⟩ := originsUnder_ofEntries origin 0 entries
      rw [ofValue, origins]
      refine ⟨List.forall_mem_cons.mpr ⟨List.prefix_refl origin, fun o ho => ?_⟩,
        List.nodup_cons.mpr ⟨fun hmem => ?_, hnodup⟩⟩
      · obtain ⟨m, -, hm⟩ := hentries o ho
        exact (List.prefix_append _ _).trans hm
      · obtain ⟨m, -, hm⟩ := hentries origin hmem
        have hlength := hm.length_le
        rw [List.length_append, List.length_singleton] at hlength
        omega

theorem originsIn_ofValues (origin : Origin) (n : Nat) :
    ∀ items, Parted origin n (originsIn (ofValues origin n items))
  | [] => parted_nil origin n
  | v :: rest =>
      .append (origins_ofValue (origin ++ [n]) v).1 (origins_ofValue (origin ++ [n]) v).2
        (originsIn_ofValues origin (n + 1) rest)

theorem originsUnder_ofEntries (origin : Origin) (n : Nat) :
    ∀ entries, Parted origin n (originsUnder (ofEntries origin n entries))
  | [] => parted_nil origin n
  | (_, v) :: rest =>
      .append (origins_ofValue (origin ++ [n]) v).1 (origins_ofValue (origin ++ [n]) v).2
        (originsUnder_ofEntries origin (n + 1) rest)

end

/-- What a source may write: no key twice, and its number in all origins. -/
structure Written (source : Nat) (d : Document) : Prop where
  proper : d.value.proper = true
  head : ∀ o ∈ d.origins, o.head? = some source

variable {source : Nat}

theorem written_scalar (v : Key) : Written source (.scalar v) :=
  ⟨by cases v <;> rfl, fun _ ho => absurd ho List.not_mem_nil⟩

theorem written_list {items : List Document} (h : ∀ d ∈ items, Written source d) :
    Written source (.list items) := by
  refine ⟨rfl, fun o ho => ?_⟩
  obtain ⟨d, hd, ho⟩ := mem_originsIn_iff.mp ho
  exact (h d hd).head o ho

theorem written_nil (rest : Origin) : Written source (.map (source :: rest) []) := by
  refine ⟨rfl, fun o ho => ?_⟩
  obtain rfl := List.mem_singleton.mp ho
  rfl

theorem Written.insert {origin : Origin} {entries : List (Key × Document)}
    (h : Written source (.map origin entries)) (key : Key) {d : Document} (hd : Written source d) :
    Written source (.map origin (Value.insert entries key d)) := by
  constructor
  · rw [value, entryValues_insert]
    exact proper_map_insert h.proper key hd.proper
  · intro o ho
    rcases List.mem_cons.mp ho with rfl | ho
    · exact h.head _ List.mem_cons_self
    · rcases List.mem_append.mp (originsUnder_insert_subset entries key d ho) with ho | ho
      · exact h.head o (List.mem_cons_of_mem _ ho)
      · exact hd.head o ho

theorem Written.moved {origin : Origin} {entries : List (Key × Document)}
    (h : Written source (.map origin entries)) (rest : Origin) :
    Written source (.map (source :: rest) entries) := by
  refine ⟨h.proper, fun o ho => ?_⟩
  rcases List.mem_cons.mp ho with rfl | ho
  · rfl
  · exact h.head o (List.mem_cons_of_mem _ ho)

theorem written_ofValue {v : Value} (hv : v.proper = true) : Written source (ofValue [source] v) := by
  refine ⟨by rw [value_ofValue]; exact hv, fun o ho => ?_⟩
  obtain ⟨rest, rfl⟩ := (origins_ofValue [source] v).1 o ho
  rfl

/-- What is known of a way to read documents. -/
structure Reader.Lawful (read : Reader) : Prop where
  /-- No mapping has a key twice. -/
  proper : ∀ source bytes d, read source bytes = .ok d → d.value.proper = true
  /-- The mappings of a file are told from those of other files. -/
  head : ∀ source bytes d, read source bytes = .ok d → ∀ o ∈ d.origins, o.head? = some source

theorem Reader.Lawful.written {read : Reader} (h : read.Lawful) {bytes : Text.Bytes} {d : Document}
    (hd : read source bytes = .ok d) : Written source d :=
  ⟨h.proper source bytes d hd, h.head source bytes d hd⟩

end Document

namespace Yaml

variable {source : Nat}

/-- A data file has no key twice, and its mappings carry the number of the source. -/
theorem written_build (fuel : Nat) :
    (∀ level n, Written source (build source level fuel n).1) ∧
    (∀ level items, ∀ d ∈ (buildItems source level fuel items).1, Written source d) ∧
      ∀ level done pairs, Written source (.map [source] done) →
        Written source (.map [source] (buildPairs source level fuel done pairs).1) := by
  -- The three functions call each other with less fuel, so one induction has them all.
  induction fuel with
  | zero =>
      refine ⟨fun level n => ?_, fun level items d hd => ?_, fun level done pairs h => ?_⟩
      · cases n <;> exact written_scalar _
      · rw [buildItems] at hd
        cases hd
      · rw [buildPairs]
        exact h
  | succ fuel ih =>
      obtain ⟨ihbuild, ihitems, ihpairs⟩ := ih
      refine ⟨fun level n => ?_, fun level items d hd => ?_, fun level done pairs h => ?_⟩
      · cases n with
        | scalar tag text =>
            rw [build]
            split
            · exact written_scalar _
            · split <;> exact written_scalar _
        | sequence tag items =>
            cases tag with
            | sequence => exact written_list (ihitems (level + 1) items)
            | _ => exact written_scalar _
        | mapping tag place pairs =>
            cases tag with
            | mapping =>
                rw [build]
                cases flatten (.mapping .mapping place pairs) with
                | none => exact written_scalar _
                | some pairs => exact (ihpairs (level + 1) [] pairs (written_nil [])).moved [place]
            | _ => exact written_scalar _
      · cases items with
        | nil =>
            rw [buildItems] at hd
            cases hd
        | cons n rest =>
            rw [buildItems] at hd
            rcases List.mem_cons.mp hd with rfl | hd
            · exact ihbuild level n
            · exact ihitems level rest d hd
      · cases pairs with
        | nil => exact h
        | cons pair rest =>
            obtain ⟨k, v⟩ := pair
            rw [buildPairs]
            dsimp only
            cases keyOf (build source level fuel (asKey k)).1 with
            | none => exact h
            | some key => exact ihpairs level _ rest (h.insert key (ihbuild level v))

theorem written_of_read {text : String} {d : Document} (h : read source text = .ok d) :
    Written source d := by
  unfold read at h
  cases hn : node? text.toList with
  | none => rw [hn] at h; cases h
  | some n =>
      rw [hn] at h
      cases n with
      | none =>
          obtain rfl := Except.ok.inj h
          exact written_scalar _
      | some n =>
          have hwritten : Written source (build source 0 (2 * n.extent + 2) n).1 :=
            (written_build (2 * n.extent + 2)).1 0 n
          rcases hbuild : build source 0 (2 * n.extent + 2) n with ⟨d', _ | found⟩
          · rw [hbuild] at hwritten
            simp only [hbuild] at h
            obtain rfl := Except.ok.inj h
            exact hwritten
          · simp only [hbuild] at h
            cases h

theorem reader_lawful : reader.Lawful := by
  have hwritten : ∀ source bytes d, reader source bytes = .ok d → Written source d := by
    intro source bytes d h
    obtain ⟨text, -, h⟩ := bind_eq_ok_iff.mp h
    exact written_of_read (mapError_eq_ok_iff.mp h)
  exact ⟨fun source bytes d h => (hwritten source bytes d h).proper,
    fun source bytes d h => (hwritten source bytes d h).head⟩

end Yaml

namespace Settings

open Files (Disk)

/-- The settings of the user. Without a file there are none. -/
def userLayer (read : Reader) (d : Disk) (s : Sources) : Except Error Document :=
  match s.user.filter fun path => !path.isEmpty with
  | some path => (readUser read d path).1
  | none => .ok (nothing 1)

theorem written_nothing (source : Nat) : Written source (nothing source) := written_nil []

variable {read : Reader} (hread : read.Lawful)

include hread

theorem written_of_readFile {d : Disk} {source : Nat} {path : String} {doc : Document}
    (h : readFile read d source path = .ok doc) : Written source doc := by
  obtain ⟨bytes, -, h⟩ := bind_eq_ok_iff.mp h
  obtain ⟨document, hdocument, h⟩ := bind_eq_ok_iff.mp h
  obtain rfl := Except.ok.inj h
  split
  · exact hread.written (mapError_eq_ok_iff.mp hdocument)
  · exact written_nothing source

theorem written_of_readBase {d : Disk} {base : Base} {doc : Document}
    (h : (readBase read d base).1 = .ok doc) : Written 0 doc := by
  cases base with
  | builtin =>
      obtain rfl := Except.ok.inj h
      exact written_ofValue (by decide +kernel)
  | file path =>
      unfold readBase at h
      dsimp only at h
      split at h
      · rename_i hdoc
        obtain rfl := Except.ok.inj h
        exact written_of_readFile hread hdoc
      · obtain rfl := Except.ok.inj h
        exact written_nothing 0
      · cases h
      · obtain rfl := Except.ok.inj h
        exact written_nothing 0
      · cases h

theorem written_of_userLayer {d : Disk} {s : Sources} {doc : Document}
    (h : userLayer read d s = .ok doc) : Written 1 doc := by
  unfold userLayer readUser at h
  split at h
  · split at h
    · split at h
      · rename_i hdoc
        obtain rfl := Except.ok.inj h
        exact written_of_readFile hread hdoc
      · cases h
      · obtain rfl := Except.ok.inj h
        exact written_nothing 1
    · obtain rfl := Except.ok.inj h
      exact written_nothing 1
  · obtain rfl := Except.ok.inj h
    exact written_nothing 1

end Settings

end Pseudonym
