import Pseudonym.Proofs.Interleaving

namespace Pseudonym

open Traversal

variable {σ : Type}

namespace Supply

/-- What the next draws come to. -/
def draws (supply : Supply σ) (state : σ) : Nat → List (Except Error String)
  | 0 => []
  | k + 1 => (supply.draw state).1 :: draws supply (supply.draw state).2 k

theorem draws_concat (supply : Supply σ) (state : σ) (k : Nat) :
    supply.draws state (k + 1) =
      supply.draws state k ++ [(supply.draw (supply.after state k)).1] := by
  induction k generalizing state with
  | zero => rfl
  | succ k ih => rw [draws, ih, draws, after, List.cons_append]

theorem mem_draws {supply : Supply σ} {state : σ} {k i : Nat} (h : i < k) :
    (supply.draw (supply.after state i)).1 ∈ supply.draws state k := by
  induction k with
  | zero => omega
  | succ k ih =>
      rw [draws_concat, List.mem_append, List.mem_singleton]
      by_cases hi : i = k
      · exact .inr (by rw [hi])
      · exact .inl (ih (by omega))

end Supply

namespace Registry

/-- The new ones among some names, each where it comes first, have got what was drawn in turn. The
draws after these came to `more`. -/
def Learns (supply : Supply σ) (state : σ) (r : Registry) (names : List String)
    (more : List (Except Error String)) (r' : Registry) : Prop :=
  ∃ drawn : List String, drawn.length = (r.fresh names).length ∧
    r'.pairs = r.pairs ++ (r.fresh names).zip drawn ∧
    supply.draws state (drawn.length + more.length) = drawn.map .ok ++ more

variable {supply : Supply σ} {state state' : σ} {r r' : Registry} {names : List String}

theorem learns_nil_iff :
    Learns supply state r names [] r' ↔ ∃ drawn : List String,
      drawn.length = (r.fresh names).length ∧ r'.pairs = r.pairs ++ (r.fresh names).zip drawn ∧
        supply.draws state drawn.length = drawn.map .ok := by
  simp only [Learns, List.length_nil, Nat.add_zero, List.append_nil]

theorem learns_of_substituteAll (h : r.substituteAll supply state names = (none, r', state')) :
    Learns supply state r names [] r' ∧ state' = supply.after state (r.fresh names).length := by
  induction names generalizing r state with
  | nil =>
      obtain ⟨rfl, rfl⟩ : r = r' ∧ state = state' := by simpa [substituteAll] using h
      exact ⟨learns_nil_iff.mpr ⟨[], rfl, (List.append_nil _).symm, rfl⟩, rfl⟩
  | cons name names ih =>
      rw [substituteAll] at h
      rcases r.substitute_cases supply name state with
        ⟨s, hf, hs⟩ | ⟨s, hf, hd, hs⟩ | ⟨e, -, -, hs⟩ <;> rw [hs] at h
      · rw [Learns, fresh_cons_known hf]
        exact ih h
      · obtain ⟨hlearns, hstate⟩ := ih h
        obtain ⟨drawn, hlength, hpairs, hdraws⟩ := learns_nil_iff.mp hlearns
        rw [learns_nil_iff, fresh_cons_new hf s]
        refine ⟨⟨s :: drawn, by rw [List.length_cons, List.length_cons, hlength], ?_, ?_⟩, hstate⟩
        · rw [hpairs, List.zip_cons_cons, List.append_assoc, List.singleton_append]
        · rw [List.length_cons, Supply.draws, hd, hdraws, List.map_cons]
      · cases h

theorem Learns.concat (h : Learns supply state r names [] r') {e : Error}
    (he : (supply.draw (supply.after state (r.fresh names).length)).1 = .error e) :
    Learns supply state r names [.error e] r' := by
  obtain ⟨drawn, hlength, hpairs, hdraws⟩ := learns_nil_iff.mp h
  refine ⟨drawn, hlength, hpairs, ?_⟩
  rw [List.length_singleton, Supply.draws_concat, hdraws, hlength, he]

/-- Resolving names fails if and only if one of the draws for the new ones does. -/
theorem substituteAll_eq_none_iff :
    (r.substituteAll supply state names).1 = none ↔
      ∀ outcome ∈ supply.draws state (r.fresh names).length, ∃ s, outcome = .ok s := by
  constructor
  · intro h outcome houtcome
    obtain ⟨drawn, hlength, -, hdraws⟩ :=
      learns_nil_iff.mp (learns_of_substituteAll (Prod.ext h rfl)).1
    rw [← hlength, hdraws] at houtcome
    obtain ⟨s, -, rfl⟩ := List.mem_map.mp houtcome
    exact ⟨s, rfl⟩
  · intro h
    let g (i : Nat) : String := ((supply.draw (supply.after state i)).1.toOption).getD ""
    rw [substituteAll_eq supply r state g names]
    intro i hi
    obtain ⟨s, hs⟩ := h _ (Supply.mem_draws hi)
    simp only [g, hs]
    rfl

end Registry

namespace Node

mutual

/-- The tree without names. -/
def nameless : Node → Node
  | mk kind type start stop _ sigil children =>
      mk kind type start stop .null sigil (namelessAll children)

def namelessAll : List Node → List Node
  | [] => []
  | n :: ns => nameless n :: namelessAll ns

end

theorem nameless_walk (supply : Supply σ) :
    (∀ n : Node, ∀ p : Progress σ, (n.walk supply p).1.nameless = n.nameless) ∧
    ∀ ns : List Node, ∀ p : Progress σ, namelessAll (walkAll supply p ns).1 = namelessAll ns := by
  apply mutualInduction
  · intro n hall p
    obtain ⟨kind, type, start, stop, name, sigil, children⟩ := n
    rw [walk, nameless, nameless]
    exact congrArg _ (hall _)
  · intro p
    rfl
  · intro n ns hn hns p
    rw [walkAll, namelessAll, namelessAll, hn, hns]

end Node

namespace Walker

theorem renameAll_cons (supply : Supply σ) (p : Progress σ) (s : Convert.Shell)
    (ss : List Convert.Shell) :
    renameAll supply p (s :: ss) =
      ((rename supply p s).1 :: (renameAll supply (rename supply p s).2 ss).1,
        (renameAll supply (rename supply p s).2 ss).2) := rfl

theorem rename_of_failure (supply : Supply σ) {p : Progress σ} (h : p.failure ≠ none)
    (s : Convert.Shell) : rename supply p s = (s, p) := by
  obtain ⟨⟨kind, type, start, stop, name, sigil, children⟩, arity⟩ := s
  rw [rename, Progress.rename_of_failure supply h]
  rfl

theorem renameAll_of_failure (supply : Supply σ) {p : Progress σ} (h : p.failure ≠ none)
    (ss : List Convert.Shell) : renameAll supply p ss = (ss, p) := by
  induction ss with
  | nil => rfl
  | cons s ss ih => rw [renameAll_cons, rename_of_failure supply h, ih]

/-- A walk fails where it has to draw for a new name. -/
theorem rename_fails {supply : Supply σ} {p : Progress σ} (hp : p.failure = none)
    {s : Convert.Shell} {e : Error} (h : (rename supply p s).2.failure = some e) :
    ∃ old, s.node.usedName? = some old ∧ p.registry.find? old = none ∧
      (supply.draw p.state).1 = .error e ∧ (rename supply p s).1 = s ∧
      (rename supply p s).2.registry = p.registry := by
  cases hu : s.node.usedName? with
  | none =>
      have hstay : (rename supply p s).2.failure = p.failure := by
        rcases Progress.rename_of_unused supply hp hu with hr | hr
        · rw [rename, hr]
        · rw [rename, hr]
          rfl
      cases h.symm.trans (hstay.trans hp)
  | some old =>
      have hr := Progress.rename_of_used supply hp hu
      rcases p.registry.substitute_cases supply old p.state with
        ⟨new, -, hs⟩ | ⟨new, -, -, hs⟩ | ⟨e', hf, hd, hs⟩ <;>
        (rw [hs] at hr; rw [rename, hr] at h ⊢)
      · cases h.symm.trans hp
      · cases h.symm.trans hp
      · obtain rfl := Option.some.inj h
        obtain ⟨⟨kind, type, start, stop, name, sigil, children⟩, arity⟩ := s
        exact ⟨old, rfl, hf, hd, rfl, rfl⟩

theorem renameAll_follows (supply : Supply σ) {p : Progress σ} (hp : p.failure = none)
    (ss : List Convert.Shell) :
    p.Follows supply (ss.filterMap fun s => s.node.usedName?) (renameAll supply p ss).2 := by
  induction ss generalizing p with
  | nil => exact ⟨by rw [renameAll, hp]; rfl, fun _ => rfl⟩
  | cons s ss ih =>
      have hnames : ((s :: ss).filterMap fun s => s.node.usedName?) =
          s.node.usedName?.toList ++ ss.filterMap fun s => s.node.usedName? := by
        cases hu : s.node.usedName? <;> simp [hu]
      rw [hnames]
      apply (Progress.rename_follows supply hp s.node).append
      · intro hq
        exact ih hq
      · intro hq
        exact congrArg Prod.snd (renameAll_of_failure supply hq ss)

theorem renameAll_isPrefix (supply : Supply σ) {p : Progress σ} (hp : p.failure = none)
    (ss : List Convert.Shell) : p.registry.pairs <+: (renameAll supply p ss).2.registry.pairs := by
  have hregistry := congrArg (·.2.1) (renameAll_follows supply hp ss).resolved
  simp only at hregistry
  rw [hregistry]
  exact Registry.substituteAll_isPrefix _ _ _ _

theorem renameAll_takes (supply : Supply σ) {p : Progress σ} (hp : p.failure = none)
    {ss : List Convert.Shell} (hq : (renameAll supply p ss).2.failure = none) {r : Registry}
    (hr : (renameAll supply p ss).2.registry.pairs <+: r.pairs) :
    List.Forall₂ (fun s s' => s.node.Takes r s'.node.name) ss (renameAll supply p ss).1 := by
  induction ss generalizing p with
  | nil => exact .nil
  | cons s ss ih =>
      have hs : (rename supply p s).2.failure = none := by
        by_contra hs
        exact hs ((congrArg (·.2.failure) (renameAll_of_failure supply hs ss)).symm.trans hq)
      exact .cons (Progress.rename_takes supply hp s.node hs
        ((renameAll_isPrefix supply hs ss).trans hr)) (ih hs hq hr)

/-- A walk that fails has passed some nodes and leaves the others alone. -/
theorem renameAll_stop {supply : Supply σ} {p : Progress σ} (hp : p.failure = none)
    {ss : List Convert.Shell} {e : Error} (h : (renameAll supply p ss).2.failure = some e) :
    ∃ front s back, ss = front ++ s :: back ∧ (renameAll supply p front).2.failure = none ∧
      (rename supply (renameAll supply p front).2 s).2.failure = some e ∧
      renameAll supply p ss = ((renameAll supply p front).1 ++ s :: back,
        (rename supply (renameAll supply p front).2 s).2) := by
  -- The first node either fails, and then nothing behind it changes, or joins those passed.
  induction ss generalizing p with
  | nil => cases h.symm.trans hp
  | cons s ss ih =>
      cases hs : (rename supply p s).2.failure with
      | none =>
          obtain ⟨front, t, back, rfl, hfront, ht, hall⟩ := ih hs h
          refine ⟨s :: front, t, back, rfl, hfront, ht, ?_⟩
          rw [renameAll_cons, hall, renameAll_cons, List.cons_append]
      | some e' =>
          have hrest := renameAll_of_failure supply (p := (rename supply p s).2) (by simp [hs]) ss
          obtain ⟨-, -, -, -, hsame, -⟩ := rename_fails hp hs
          have hfail : (rename supply p s).2.failure = some e :=
            (congrArg (·.2.failure) hrest).symm.trans h
          refine ⟨[], s, ss, rfl, hp, hfail, ?_⟩
          rw [renameAll_cons, hrest, hsame]
          rfl

end Walker

/-- Nodes that a walk has passed have new names, and its registry has learned those that they had. -/
structure Passed (supply : Supply σ) (state : σ) (r : Registry) (ns : List Node)
    (more : List (Except Error String)) (names : List Value) (r' : Registry) : Prop where
  takes : List.Forall₂ (Node.Takes r') ns names
  learns : Registry.Learns supply state r (ns.filterMap Node.usedName?) more r'

namespace Walker

theorem filterMap_shell (ns : List Node) :
    ((ns.map Node.shell).filterMap fun s => s.node.usedName?) = ns.filterMap Node.usedName? :=
  List.filterMap_map

theorem passed_of_renameAll {supply : Supply σ} {registry : Registry} {state : σ} {ns : List Node}
    (h : (renameAll supply { registry, state } (ns.map Node.shell)).2.failure = none) :
    Passed supply state registry ns []
        ((renameAll supply { registry, state } (ns.map Node.shell)).1.map fun s => s.node.name)
        (renameAll supply { registry, state } (ns.map Node.shell)).2.registry ∧
      (renameAll supply { registry, state } (ns.map Node.shell)).2.state =
        supply.after state (registry.fresh (ns.filterMap Node.usedName?)).length := by
  have htakes := renameAll_takes supply rfl h List.prefix_rfl
  have hresolved := (renameAll_follows supply (p := { registry, state }) rfl
    (ns.map Node.shell)).resolved
  rw [h, filterMap_shell] at hresolved
  obtain ⟨hlearns, hstate⟩ := Registry.learns_of_substituteAll hresolved.symm
  rw [List.forall₂_map_left_iff] at htakes
  refine ⟨⟨?_, hlearns⟩, hstate⟩
  rw [List.forall₂_map_right_iff]
  exact htakes.imp fun n s hn => ⟨hn.kept, hn.given⟩

end Walker

namespace Node

theorem map_name_shells (n : Node) :
    (n.shells.map fun s => s.node.name) = n.nodes.map name := by
  rw [shells, List.map_map, nodes_eq_preorder]
  rfl

variable {supply : Supply σ} {registry : Registry} {state : σ}

theorem walk_passed {n : Node} (h : (n.walk supply { registry, state }).2.failure = none) :
    Passed supply state registry n.nodes [] ((n.walk supply { registry, state }).1.nodes.map name)
        (n.walk supply { registry, state }).2.registry := by
  have hall := (Walker.renameAll_shells supply).1 n { registry, state }
  rw [shells] at hall
  have hfailure := congrArg (·.2.failure) hall
  have hpassed := (Walker.passed_of_renameAll (hfailure.trans h)).1
  rw [hall, map_name_shells, ← nodes_eq_preorder] at hpassed
  exact hpassed

theorem walk_stopped {n : Node} {e : Error}
    (h : (n.walk supply { registry, state }).2.failure = some e) :
    ∃ ahead m behind names old, n.nodes = ahead ++ m :: behind ∧ m.usedName? = some old ∧
      (n.walk supply { registry, state }).2.registry.find? old = none ∧
      (n.walk supply { registry, state }).1.nodes.map name = names ++ (m :: behind).map name ∧
      Passed supply state registry ahead [.error e] names
        (n.walk supply { registry, state }).2.registry := by
  have hall := (Walker.renameAll_shells supply).1 n { registry, state }
  have hfailure := congrArg (·.2.failure) hall
  obtain ⟨front, s, back, hsplit, hfront, hs, hstop⟩ := Walker.renameAll_stop rfl (hfailure.trans h)
  obtain ⟨hnodes, hend⟩ := Prod.mk.inj (hall.symm.trans hstop)
  obtain ⟨old, hold, hfind, hdraw, -, hregistry⟩ := Walker.rename_fails hfront hs
  rw [shells] at hsplit
  obtain ⟨ahead, rest, hn, rfl, hrest⟩ := List.map_eq_append_iff.mp hsplit
  obtain ⟨m, behind, rfl, rfl, rfl⟩ := List.map_eq_cons_iff.mp hrest
  obtain ⟨hpassed, hstate⟩ := Walker.passed_of_renameAll hfront
  rw [hstate] at hdraw
  rw [hend, hregistry]
  refine ⟨ahead, m, behind, _, old, ?_, hold, hfind, ?_, hpassed.takes, hpassed.learns.concat hdraw⟩
  · rw [nodes_eq_preorder, hn]
  · rw [← map_name_shells, hnodes, List.map_append, List.map_cons, List.map_map]
    rfl

end Node

namespace Tree

theorem walk_snd (t : Tree) (supply : Supply σ) (registry : Registry) (state : σ) :
    ∃ log, (t.walk supply registry state).2 =
      { (t.root.walk supply { registry, state }).2 with log } := by
  simp only [walk]
  split <;> exact ⟨_, rfl⟩

/-- A walk changes names only. One that comes to an end has passed all nodes; one that fails has
passed those before the node that it fails at. -/
theorem walk_effects {t t' : Tree} {supply : Supply σ} {registry : Registry} {state : σ}
    {p : Progress σ} (h : t.walk supply registry state = (t', p)) :
    (t'.source = t.source ∧ t'.root.nameless = t.root.nameless) ∧
    (p.failure = none ↔ ∀ outcome ∈ supply.draws state
      (registry.fresh (t.nodes.filterMap Node.usedName?)).length, ∃ s, outcome = .ok s) ∧
    (p.failure = none →
      Passed supply state registry t.nodes [] (t'.nodes.map Node.name) p.registry ∧
      p.replaced = t.nodes.countP fun n => n.usedName?.isSome) ∧
    ∀ e, p.failure = some e → ∃ ahead n behind names old,
      t.nodes = ahead ++ n :: behind ∧ n.usedName? = some old ∧ p.registry.find? old = none ∧
      t'.nodes.map Node.name = names ++ (n :: behind).map Node.name ∧
      Passed supply state registry ahead [.error e] names p.registry := by
  obtain ⟨log, hlog⟩ := t.walk_snd supply registry state
  rw [h] at hlog
  obtain rfl := hlog
  obtain rfl : ⟨(t.root.walk supply { registry, state }).1, t.source⟩ = t' := congrArg Prod.fst h
  obtain ⟨hresolved, hcounted⟩ := (Node.walk_follows supply).1 t.root { registry, state } rfl
  have hnames : t.root.usedNames = t.nodes.filterMap Node.usedName? := by
    rw [Node.usedNames, nodes, Node.nodes_eq_preorder]
  rw [hnames] at hresolved hcounted
  refine ⟨⟨rfl, (Node.nameless_walk supply).1 t.root _⟩, ?_, ?_, ?_⟩
  · rw [← Registry.substituteAll_eq_none_iff, ← hresolved]
  · intro hf
    refine ⟨Node.walk_passed hf, ?_⟩
    rw [← List.length_filterMap_eq_countP]
    exact (hcounted hf).trans (Nat.zero_add _)
  · intro e he
    exact Node.walk_stopped he

/-- Names that are known, new, missing, empty and no text, and a name above others. -/
def bushy : Tree where
  root := .mk .identifier "identifier" 0 9 (.text "b") ""
    [.mk .label "statement_identifier" 0 1 (.text "a") "" [], .mk .token "b" 1 2 (.text "b") "" [],
      .mk .identifier "identifier" 2 3 .null "" [], .mk .identifier "identifier" 3 4 (.text "") "" [],
      .mk .identifier "identifier" 4 5 (.int 7) ""
        [.mk .privateProperty "private_property_identifier" 4 5 (.text "c") "#" []],
      .mk .identifier "identifier" 8 9 (.text "a") "" []]
  source := Text.encode "a b 7 c a"

theorem walk_effects_bushy :
    ∃ t' p, bushy.walk .given ⟨[("a", "q")]⟩ [.ok "x", .error .exhausted] = (t', p) ∧
      p.failure = some .exhausted ∧ p.registry = ⟨[("a", "q"), ("b", "x")]⟩ ∧
      t'.root.nameless = bushy.root.nameless ∧
      ∃ ahead n behind names old, bushy.nodes = ahead ++ n :: behind ∧ n.usedName? = some old ∧
        p.registry.find? old = none ∧
        t'.nodes.map Node.name = names ++ (n :: behind).map Node.name ∧
        Passed .given [.ok "x", .error .exhausted] ⟨[("a", "q")]⟩ ahead [.error .exhausted] names
          p.registry := by
  have hwalk : bushy.walk .given ⟨[("a", "q")]⟩ [.ok "x", .error .exhausted] = (_, _) := rfl
  obtain ⟨⟨-, hframe⟩, -, -, hstop⟩ := walk_effects hwalk
  exact ⟨_, _, hwalk, rfl, rfl, hframe, hstop _ rfl⟩

end Tree

end Pseudonym
