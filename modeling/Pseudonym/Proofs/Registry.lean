import Mathlib.Data.Set.Function
import Pseudonym.Registry

namespace Pseudonym

variable {σ : Type}

namespace Supply

/-- The state after a number of draws. -/
def after (supply : Supply σ) (state : σ) : Nat → σ
  | 0 => state
  | n + 1 => after supply (supply.draw state).2 n

end Supply

namespace Registry

theorem usable?_eq_some_iff {v : Value} {s : String} :
    usable? v = some s ↔ v = .text s ∧ s ≠ "" := by
  cases v with
  | text t =>
      by_cases ht : t = ""
      · subst ht
        simp only [usable?, String.isEmpty_iff, if_pos, Value.text.injEq]
        exact ⟨nofun, fun h => absurd h.1.symm h.2⟩
      · simp only [usable?, String.isEmpty_iff, if_neg ht, Option.some.injEq, Value.text.injEq]
        exact ⟨fun h => ⟨h, h ▸ ht⟩, And.left⟩
  | _ => simp [usable?]

/-- What a name comes to: it is known, or it takes what is drawn, or the draw fails. -/
theorem substitute_cases (r : Registry) (supply : Supply σ) (name : String) (state : σ) :
    (∃ s, r.find? name = some s ∧ r.substitute supply name state = (.ok s, r, state)) ∨
    (∃ s, r.find? name = none ∧ (supply.draw state).1 = .ok s ∧
      r.substitute supply name state =
        (.ok s, ⟨r.pairs ++ [(name, s)]⟩, (supply.draw state).2)) ∨
    (∃ e, r.find? name = none ∧ (supply.draw state).1 = .error e ∧
      r.substitute supply name state = (.error e, r, (supply.draw state).2)) := by
  unfold substitute
  cases hf : r.find? name with
  | some s => exact .inl ⟨s, rfl, rfl⟩
  | none =>
      obtain ⟨result, next⟩ := supply.draw state
      cases result with
      | ok s => exact .inr (.inl ⟨s, rfl, rfl, rfl⟩)
      | error e => exact .inr (.inr ⟨e, rfl, rfl, rfl⟩)

theorem find?_append (r : Registry) (more : List (String × String)) (name : String) :
    (⟨r.pairs ++ more⟩ : Registry).find? name = (r.find? name).or (more.lookup name) :=
  List.lookup_append

theorem find?_append_new {r : Registry} {name : String} (h : r.find? name = none) (s : String) :
    (⟨r.pairs ++ [(name, s)]⟩ : Registry).find? name = some s := by
  rw [find?_append, h, Option.none_or, List.lookup_cons_self]

theorem find?_of_substitute {r r' : Registry} {supply : Supply σ} {name s : String}
    {state state' : σ} (h : r.substitute supply name state = (.ok s, r', state')) :
    r'.find? name = some s := by
  rcases r.substitute_cases supply name state with
    ⟨s, hf, hs⟩ | ⟨s, hf, -, hs⟩ | ⟨e, -, -, hs⟩ <;> cases hs.symm.trans h
  · exact hf
  · exact find?_append_new hf s

/-- Resolves names in order, up to the first that fails. -/
def substituteAll (r : Registry) (supply : Supply σ) (state : σ) :
    List String → Option Error × Registry × σ
  | [] => (none, r, state)
  | name :: names =>
      match r.substitute supply name state with
      | (.ok _, r, state) => substituteAll r supply state names
      | (.error e, r, state) => (some e, r, state)

theorem substituteAll_append (r : Registry) (supply : Supply σ) (state : σ)
    (names more : List String) :
    r.substituteAll supply state (names ++ more) =
      match r.substituteAll supply state names with
      | (none, r, state) => r.substituteAll supply state more
      | (some e, r, state) => (some e, r, state) := by
  induction names generalizing r state with
  | nil => rfl
  | cons name names ih =>
      rw [List.cons_append, substituteAll, substituteAll]
      obtain ⟨result, r', state'⟩ := r.substitute supply name state
      cases result with
      | ok s => exact ih r' state'
      | error e => rfl

theorem substituteAll_isPrefix (r : Registry) (supply : Supply σ) (state : σ)
    (names : List String) : r.pairs <+: (r.substituteAll supply state names).2.1.pairs := by
  induction names generalizing r state with
  | nil => exact List.prefix_rfl
  | cons name names ih =>
      rw [substituteAll]
      rcases r.substitute_cases supply name state with
        ⟨s, -, hs⟩ | ⟨s, -, -, hs⟩ | ⟨e, -, -, hs⟩ <;> simp only [hs]
      · exact ih r state
      · exact (List.prefix_append _ _).trans (ih _ _)
      · exact List.prefix_rfl

theorem find?_of_isPrefix {r r' : Registry} (h : r.pairs <+: r'.pairs) {name s : String}
    (hs : r.find? name = some s) : r'.find? name = some s := by
  obtain ⟨more, hmore⟩ := h
  rw [find?, ← hmore]
  exact (find?_append r more name).trans (by rw [hs]; rfl)

theorem exists_find?_of_substituteAll {r : Registry} {supply : Supply σ} {state : σ}
    {names : List String} (h : (r.substituteAll supply state names).1 = none) :
    ∀ name ∈ names, ∃ s, (r.substituteAll supply state names).2.1.find? name = some s := by
  induction names generalizing r state with
  | nil => exact fun _ hx => absurd hx List.not_mem_nil
  | cons name names ih =>
      rw [List.forall_mem_cons]
      rw [substituteAll] at h ⊢
      rcases r.substitute_cases supply name state with
        ⟨s, hf, hs⟩ | ⟨s, hf, -, hs⟩ | ⟨e, -, -, hs⟩ <;> rw [hs] at h ⊢
      · exact ⟨⟨s, find?_of_isPrefix (substituteAll_isPrefix _ _ _ _) hf⟩, ih h⟩
      · have hnew := find?_append_new hf s
        exact ⟨⟨s, find?_of_isPrefix (substituteAll_isPrefix _ _ _ _) hnew⟩, ih h⟩
      · cases h

/-- What holds of each name with each substitute that can be drawn holds of the registry. -/
theorem forall_substituteAll {supply : Supply σ} {P : String × String → Prop} {names : List String}
    (hdraw : ∀ name ∈ names, ∀ state s, (supply.draw state).1 = .ok s → P (name, s)) (r : Registry)
    (state : σ) (hr : ∀ p ∈ r.pairs, P p) :
    ∀ p ∈ (r.substituteAll supply state names).2.1.pairs, P p := by
  induction names generalizing r state with
  | nil => exact hr
  | cons name names ih =>
      obtain ⟨hname, hnames⟩ := List.forall_mem_cons.mp hdraw
      rw [substituteAll]
      rcases r.substitute_cases supply name state with
        ⟨s, -, hs⟩ | ⟨s, -, hd, hs⟩ | ⟨e, -, -, hs⟩ <;> rw [hs]
      · exact ih hnames r state hr
      · refine ih hnames _ _ fun p hp => ?_
        rcases List.mem_append.mp hp with hp | hp
        · exact hr p hp
        · rw [List.mem_singleton.mp hp]
          exact hname state s hd
      · exact hr

theorem mem_of_find? {r : Registry} {name s : String} (h : r.find? name = some s) :
    (name, s) ∈ r.pairs := by
  obtain ⟨before, behind, hpairs, -⟩ := List.lookup_eq_some_iff.mp h
  rw [hpairs]
  exact List.mem_append_right before List.mem_cons_self

/-- The registry of the same substitutes for other names. -/
def relabel (f : String → String) (r : Registry) : Registry :=
  ⟨r.pairs.map fun p => (f p.1, p.2)⟩

theorem find?_relabel {f : String → String} {names : Set String} (hf : names.InjOn f)
    {r : Registry} (hr : ∀ p ∈ r.pairs, p.1 ∈ names) {name : String} (hname : name ∈ names) :
    (r.relabel f).find? (f name) = r.find? name := by
  obtain ⟨pairs⟩ := r
  induction pairs with
  | nil => rfl
  | cons p pairs ih =>
      obtain ⟨key, s⟩ := p
      obtain ⟨hkey, hpairs⟩ := List.forall_mem_cons.mp hr
      have hbeq : (f name == f key) = (name == key) := by
        rw [Bool.eq_iff_iff, beq_iff_eq, beq_iff_eq]
        exact hf.eq_iff hname hkey
      have hrest := ih hpairs
      simp only [find?, relabel, List.map_cons, List.lookup_cons, hbeq] at hrest ⊢
      rw [hrest]

/-- Names that are equal where the others are equal get the same substitutes. -/
theorem substituteAll_relabel {f : String → String} {known : Set String} (hf : known.InjOn f)
    (supply : Supply σ) (r : Registry) (hr : ∀ p ∈ r.pairs, p.1 ∈ known) (state : σ)
    (names : List String) (hnames : ∀ name ∈ names, name ∈ known) :
    (r.relabel f).substituteAll supply state (names.map f) =
      ((r.substituteAll supply state names).1, (r.substituteAll supply state names).2.1.relabel f,
        (r.substituteAll supply state names).2.2) := by
  induction names generalizing r state with
  | nil => rfl
  | cons name names ih =>
      obtain ⟨hname, hrest⟩ := List.forall_mem_cons.mp hnames
      -- Both know the name or neither does, so they draw in the same places.
      have hfind := find?_relabel hf hr hname
      rw [List.map_cons, substituteAll, substituteAll, substitute, substitute, hfind]
      cases r.find? name with
      | some s => exact ih r hr state hrest
      | none =>
          obtain ⟨result, next⟩ := supply.draw state
          cases result with
          | error e => rfl
          | ok s =>
              have hr' : ∀ p ∈ r.pairs ++ [(name, s)], p.1 ∈ known := by
                intro p hp
                rcases List.mem_append.mp hp with hp | hp
                · exact hr p hp
                · rw [List.mem_singleton.mp hp]
                  exact hname
              have h := ih ⟨r.pairs ++ [(name, s)]⟩ hr' next hrest
              rw [relabel, List.map_append] at h
              exact h

/-- The names that a registry does not have, each where it comes first. -/
def fresh (r : Registry) (names : List String) : List String :=
  (names.filter fun name => (r.find? name).isNone).eraseDups

theorem fresh_empty (names : List String) : fresh {} names = names.eraseDups :=
  congrArg List.eraseDups (List.filter_eq_self.mpr fun _ _ => rfl)

theorem fresh_cons_known {r : Registry} {name s : String} (h : r.find? name = some s)
    (names : List String) : r.fresh (name :: names) = r.fresh names := by
  rw [fresh, List.filter_cons_of_neg (by simp [h]), fresh]

theorem fresh_cons_new {r : Registry} {name : String} (h : r.find? name = none) (s : String)
    (names : List String) :
    r.fresh (name :: names) = name :: (⟨r.pairs ++ [(name, s)]⟩ : Registry).fresh names := by
  rw [fresh, List.filter_cons_of_pos (by simp [h]), List.eraseDups_cons, List.filter_filter, fresh]
  congr 3
  funext other
  rw [find?_append, List.lookup_singleton]
  by_cases ho : other = name
  · simp [ho]
  · simp [ho]

/-- If the supply does not fail for as many draws as there are new names, these get its next names in
order. -/
theorem substituteAll_eq (supply : Supply σ) (r : Registry) (state : σ) (g : Nat → String)
    (names : List String)
    (hg : ∀ i < (r.fresh names).length, (supply.draw (supply.after state i)).1 = .ok (g i)) :
    r.substituteAll supply state names =
      (none, ⟨r.pairs ++ (r.fresh names).mapIdx fun i name => (name, g i)⟩,
        supply.after state (r.fresh names).length) := by
  induction names generalizing r state g with
  | nil => simp [substituteAll, fresh, Supply.after]
  | cons name names ih =>
      rw [substituteAll]
      rcases r.substitute_cases supply name state with
        ⟨s, hf, hs⟩ | ⟨s, hf, hd, hs⟩ | ⟨e, hf, hd, -⟩
      · rw [fresh_cons_known hf] at hg
        rw [hs, fresh_cons_known hf]
        exact ih r state g hg
      · rw [fresh_cons_new hf s, List.length_cons] at hg
        have hs0 : s = g 0 := Except.ok.inj (hd.symm.trans (hg 0 (Nat.succ_pos _)))
        rw [hs, fresh_cons_new hf s, List.mapIdx_cons, List.length_cons, Supply.after, ← hs0]
        simp only
        rw [ih _ _ (fun i => g (i + 1)) fun i hi => hg (i + 1) (Nat.succ_lt_succ hi),
          List.append_assoc, List.singleton_append]
      · rw [fresh_cons_new hf ""] at hg
        cases hd.symm.trans (hg 0 (Nat.succ_pos _))

end Registry

end Pseudonym
