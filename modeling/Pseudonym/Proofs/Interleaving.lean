import Mathlib.Algebra.BigOperators.Group.Finset.Basic
import Mathlib.Data.Fintype.Basic
import Pseudonym.Proofs.History
import Pseudonym.Proofs.Tree.Walking

namespace Pseudonym

variable {σ ι : Type}

namespace Node

def withName (n : Node) (name : Value) : Node :=
  mk n.kind n.type n.start n.stop name n.sigil n.children

theorem shells_eq (n : Node) : n.shells = n.shell :: n.children.flatMap shells := by
  rw [shells, preorder_eq, List.map_cons, List.map_flatMap]
  rfl

theorem shell_mk (kind : Kind) (type : String) (start stop : Nat) (name : Value) (sigil : String)
    (children : List Node) :
    (mk kind type start stop name sigil children).shell =
      ⟨mk kind type start stop name sigil [], children.length⟩ := rfl

theorem length_walkAll (supply : Supply σ) (p : Progress σ) (ns : List Node) :
    (walkAll supply p ns).1.length = ns.length := by
  induction ns generalizing p with
  | nil => rfl
  | cons n ns ih => rw [walkAll, List.length_cons, List.length_cons, ih]

end Node

/-- A walk under way: the nodes that it has passed and those ahead of it, parents first, and what it
has come to so far. -/
structure Walker where
  passed : List Convert.Shell := []
  ahead : List Convert.Shell
  registry : Registry := {}
  replaced : Nat := 0
  failure : Option Error := none
  log : Log := []

namespace Walker

def start (root : Node) : Walker := { ahead := root.shells }

def progress (w : Walker) (state : σ) : Progress σ :=
  { registry := w.registry, state, replaced := w.replaced, failure := w.failure, log := w.log }

def resume (passed ahead : List Convert.Shell) (p : Progress σ) : Walker :=
  { passed, ahead, registry := p.registry, replaced := p.replaced, failure := p.failure, log := p.log }

def tree (w : Walker) : Node := (Convert.assemble (w.passed ++ w.ahead)).headD default

def Done (w : Walker) : Prop := w.ahead = [] ∧ w.failure = none

def rename (supply : Supply σ) (p : Progress σ) (s : Convert.Shell) : Convert.Shell × Progress σ :=
  let (name, p) := p.rename supply s.node.kind s.node.type s.node.start s.node.name
  (⟨s.node.withName name, s.arity⟩, p)

def step (supply : Supply σ) (w : Walker) (state : σ) : Walker × σ :=
  match w.ahead with
  | [] => (w, state)
  | s :: ahead =>
      let (s, p) := rename supply (w.progress state) s
      (resume (w.passed ++ [s]) ahead p, p.state)

def steps (supply : Supply σ) : Nat → Walker → σ → Walker × σ
  | 0, w, state => (w, state)
  | k + 1, w, state =>
      let (w, state) := w.step supply state
      steps supply k w state

def renameAll (supply : Supply σ) (p : Progress σ) :
    List Convert.Shell → List Convert.Shell × Progress σ
  | [] => ([], p)
  | s :: rest =>
      let (s, p) := rename supply p s
      let (rest, p) := renameAll supply p rest
      (s :: rest, p)

theorem renameAll_append (supply : Supply σ) (p : Progress σ) (front back : List Convert.Shell) :
    renameAll supply p (front ++ back) =
      let (front, p) := renameAll supply p front
      let (back, p) := renameAll supply p back
      (front ++ back, p) := by
  induction front generalizing p with
  | nil => rfl
  | cons s front ih =>
      rw [List.cons_append, renameAll, renameAll]
      simp only [ih, List.cons_append]

/-- Node by node, a walk gives the nodes of the tree that it makes. -/
theorem renameAll_shells (supply : Supply σ) :
    (∀ n : Node, ∀ p : Progress σ,
      renameAll supply p n.shells = ((n.walk supply p).1.shells, (n.walk supply p).2)) ∧
    ∀ ns : List Node, ∀ p : Progress σ,
      renameAll supply p (ns.flatMap Node.shells) =
        ((Node.walkAll supply p ns).1.flatMap Node.shells, (Node.walkAll supply p ns).2) := by
  apply Node.mutualInduction
  · intro n hall p
    rw [Node.shells_eq, renameAll, Node.walk_eq]
    simp only [hall]
    rw [Node.shells_eq (.mk ..), Node.shell_mk, Node.length_walkAll]
    rfl
  · intro p
    rfl
  · intro n ns hn hns p
    rw [List.flatMap_cons, renameAll_append, Node.walkAll]
    simp only [hn, hns, List.flatMap_cons]

theorem steps_eq (supply : Supply σ) (k : Nat) (w : Walker) (state : σ) :
    w.steps supply k state =
      let (shells, p) := renameAll supply (w.progress state) (w.ahead.take k)
      (resume (w.passed ++ shells) (w.ahead.drop k) p, p.state) := by
  induction k generalizing w state with
  | zero =>
      rw [List.take_zero, renameAll]
      simp only [List.append_nil]
      rfl
  | succ k ih =>
      rw [steps, step]
      cases hahead : w.ahead with
      | nil =>
          simp only [ih, hahead, List.take_nil, List.drop_nil]
      | cons s ahead =>
          rw [List.take_succ_cons, List.drop_succ_cons, renameAll]
          simp only [ih]
          simp only [resume, List.append_assoc, List.singleton_append]
          rfl

theorem steps_start (supply : Supply σ) (k : Nat) (root : Node) (state : σ)
    (h : ((start root).steps supply k state).1.ahead = []) :
    (start root).steps supply k state =
      (resume (root.walk supply { registry := {}, state }).1.shells []
        (root.walk supply { registry := {}, state }).2,
        (root.walk supply { registry := {}, state }).2.state) := by
  rw [steps_eq] at h ⊢
  have hdrop : root.shells.drop k = [] := h
  have htake : root.shells.take k = root.shells := by
    rw [List.take_eq_self_iff, ← List.drop_eq_nil_iff]
    exact hdrop
  rw [start, htake, hdrop, (renameAll_shells supply).1]
  rfl

theorem tree_resume (n : Node) (p : Progress σ) : (resume n.shells [] p).tree = n := by
  have h := Convert.assemble_append n []
  rw [tree, resume, h]
  rfl

end Walker

def Supply.given : Supply (List (Except Error String)) where
  draw
    | [] => (.error .exhausted, [])
    | outcome :: rest => (outcome, rest)
  strategy := "given"
  description := "given"

namespace Walker

/-- The name for which the next step draws from the supply. -/
def wanted? (w : Walker) : Option String :=
  if w.failure.isSome then none
  else (w.ahead.head?.bind fun s => s.node.usedName?).filter fun name =>
    (w.registry.find? name).isNone

theorem rename_of_usedName?_eq_none {n : Node} (h : n.usedName? = none) :
    ∃ more : Log, ∀ {σ : Type} (supply : Supply σ) (p : Progress σ), p.failure = none →
      p.rename supply n.kind n.type n.start n.name = (n.name, { p with log := p.log ++ more }) := by
  rw [Node.usedName?, Node.isRedactable] at h
  cases hkind : n.kind.isRedactable with
  | false =>
      refine ⟨[], fun supply p hp => ?_⟩
      rw [Progress.rename, hkind, List.append_nil]
      exact if_pos (Bool.or_true _)
  | true =>
      rw [hkind, if_pos rfl] at h
      let skipped : Progress Unit := Progress.skipped ⟨{}, (), 0, none, []⟩ n.type n.start
      refine ⟨skipped.log, fun supply p hp => ?_⟩
      rw [Progress.rename, hkind, h, if_neg (by simp [hp])]
      rfl

/-- What is drawn, if anything, is all that a step takes from the supply. -/
theorem step_given (supply : Supply σ) (w : Walker) (state : σ)
    (rest : List (Except Error String)) :
    w.step .given ((if w.wanted?.isSome then [(supply.draw state).1] else []) ++ rest) =
        ((w.step supply state).1, rest) ∧
      (w.step supply state).2 = if w.wanted?.isSome then (supply.draw state).2 else state := by
  obtain ⟨passed, ahead, registry, replaced, failure, log⟩ := w
  -- The cases are those in which nothing is drawn, up to the one name that is new.
  cases ahead with
  | nil => cases failure <;> exact ⟨rfl, rfl⟩
  | cons s ahead =>
      cases failure with
      | some e => exact ⟨rfl, rfl⟩
      | none =>
          cases hused : s.node.usedName? with
          | none =>
              obtain ⟨more, hrename⟩ := rename_of_usedName?_eq_none hused
              simp [step, rename, hrename, wanted?, hused, progress, resume]
          | some old =>
              have hrename := fun {σ : Type} (supply : Supply σ) state =>
                Progress.rename_of_used supply (p := ⟨registry, state, replaced, none, log⟩) rfl hused
              cases hfind : registry.find? old with
              | some new =>
                  simp [step, rename, hrename, wanted?, hused, progress, resume,
                    Registry.substitute, hfind]
              | none =>
                  rcases hdraw : supply.draw state with ⟨e | new, next⟩ <;>
                    simp [step, rename, hrename, wanted?, hused, progress, resume,
                      Registry.substitute, hfind, hdraw, Supply.given]

end Walker

structure Pool (ι σ : Type) where
  walkers : ι → Walker
  state : σ

namespace Pool

def start (roots : ι → Node) (state : σ) : Pool ι σ := ⟨fun i => .start (roots i), state⟩

variable [DecidableEq ι]

def step (supply : Supply σ) (pool : Pool ι σ) (i : ι) : Pool ι σ :=
  let (w, state) := (pool.walkers i).step supply pool.state
  ⟨Function.update pool.walkers i w, state⟩

def run (supply : Supply σ) (pool : Pool ι σ) (schedule : List ι) : Pool ι σ :=
  schedule.foldl (step supply) pool

/-- Which walk makes each of the draws. -/
def drawers (supply : Supply σ) (pool : Pool ι σ) : List ι → List ι
  | [] => []
  | i :: schedule =>
      let rest := drawers supply (pool.step supply i) schedule
      if (pool.walkers i).wanted?.isSome then i :: rest else rest

variable (supply : Supply σ) (pool : Pool ι σ)

theorem state_step (i : ι) :
    (pool.step supply i).state =
      if (pool.walkers i).wanted?.isSome then (supply.draw pool.state).2 else pool.state :=
  ((pool.walkers i).step_given supply pool.state []).2

theorem state_run (schedule : List ι) :
    (pool.run supply schedule).state =
      supply.after pool.state (pool.drawers supply schedule).length := by
  induction schedule generalizing pool with
  | nil => rfl
  | cons i schedule ih =>
      have hrun := ih (pool.step supply i)
      rw [state_step] at hrun
      rw [drawers]
      by_cases hwanted : (pool.walkers i).wanted?.isSome
      · rw [if_pos hwanted] at hrun ⊢
        exact hrun
      · rw [if_neg hwanted] at hrun ⊢
        exact hrun

/-- What a walk draws, in the order in which it draws. -/
def drawnBy (schedule : List ι) (i : ι) : List (Except Error String) :=
  ((pool.drawers supply schedule).idxsOf i).map fun k =>
    (supply.draw (supply.after pool.state k)).1

theorem drawnBy_cons (i j : ι) (schedule : List ι) :
    pool.drawnBy supply (j :: schedule) i =
      (if j = i ∧ (pool.walkers j).wanted?.isSome then [(supply.draw pool.state).1] else []) ++
        (pool.step supply j).drawnBy supply schedule i := by
  rw [drawnBy, drawnBy, state_step, drawers]
  by_cases hwanted : (pool.walkers j).wanted?.isSome
  · rw [if_pos hwanted, if_pos hwanted, List.idxsOf_cons, List.idxsOf_start]
    by_cases hj : j = i
    · subst hj
      simp [hwanted, Supply.after, Function.comp_def]
    · simp [hj, Supply.after, Function.comp_def]
  · simp [hwanted]

/-- A walk that others interrupt is the walk alone with what it draws. -/
theorem run_alone (schedule : List ι) (i : ι) (rest : List (Except Error String)) :
    (pool.walkers i).steps .given (schedule.count i) (pool.drawnBy supply schedule i ++ rest) =
      ((pool.run supply schedule).walkers i, rest) := by
  induction schedule generalizing pool with
  | nil => rfl
  | cons j schedule ih =>
      have hrun := ih (pool.step supply j)
      rw [drawnBy_cons]
      -- A turn of another walk leaves this one as it is, and what it draws is not among `drawnBy`.
      by_cases hj : j = i
      · subst hj
        have hstep := ((pool.walkers j).step_given supply pool.state
          ((pool.step supply j).drawnBy supply schedule j ++ rest)).1
        have hwalker : (pool.step supply j).walkers j =
            ((pool.walkers j).step supply pool.state).1 := Function.update_self ..
        rw [List.count_cons_self, Walker.steps, List.append_assoc]
        simp only [true_and, hstep]
        rw [← hwalker]
        exact hrun
      · have hwalker : (pool.step supply j).walkers i = pool.walkers i :=
          Function.update_of_ne (Ne.symm hj) ..
        rw [List.count_cons_of_ne hj, if_neg fun h => hj h.1, List.nil_append, ← hwalker]
        exact hrun

end Pool

namespace Registry

theorem substituteAll_given {r r' : Registry} {outcomes : List (Except Error String)}
    {names : List String} (h : r.substituteAll .given outcomes names = (none, r', [])) :
    ∃ drawn : List String, outcomes = drawn.map .ok ∧ drawn.length = (r.fresh names).length ∧
      r'.pairs = r.pairs ++ (r.fresh names).zip drawn := by
  induction names generalizing r outcomes with
  | nil =>
      obtain ⟨rfl, rfl⟩ : r = r' ∧ outcomes = [] := by simpa [substituteAll] using h
      exact ⟨[], rfl, rfl, (List.append_nil _).symm⟩
  | cons name names ih =>
      rw [substituteAll] at h
      rcases r.substitute_cases .given name outcomes with
        ⟨s, hf, hs⟩ | ⟨s, hf, hd, hs⟩ | ⟨e, -, -, hs⟩ <;> rw [hs] at h
      · rw [fresh_cons_known hf]
        exact ih h
      · cases outcomes with
        | nil => cases hd
        | cons outcome rest =>
            obtain rfl : outcome = .ok s := hd
            obtain ⟨drawn, rfl, hlength, hpairs⟩ := ih h
            refine ⟨s :: drawn, rfl, ?_, ?_⟩
            · rw [fresh_cons_new hf s, List.length_cons, List.length_cons, hlength]
            · rw [fresh_cons_new hf s, List.zip_cons_cons, hpairs, List.append_assoc]
              rfl
      · cases h

end Registry

/-- A walk has replaced the names of its tree, each new one by the next of the outcomes. -/
structure Walker.Served (root : Node) (outcomes : List (Except Error String)) (w : Walker) :
    Prop where
  tree_eq : w.tree = root.renamed w.registry
  exists_find? : ∀ name ∈ root.usedNames, ∃ s, w.registry.find? name = some s
  exists_drawn : ∃ drawn : List String, outcomes = drawn.map .ok ∧
    drawn.length = root.usedNames.eraseDups.length ∧
    w.registry.pairs = root.usedNames.eraseDups.zip drawn

theorem Walker.served_of_done {root : Node} {outcomes : List (Except Error String)} {k : Nat}
    {w : Walker} (hsteps : (start root).steps .given k outcomes = (w, [])) (hdone : w.Done) :
    w.Served root outcomes := by
  let p : Progress _ := { registry := {}, state := outcomes }
  have hwalk := steps_start .given k root outcomes ((congrArg (·.1.ahead) hsteps).trans hdone.1)
  obtain ⟨rfl, hstate⟩ := Prod.mk.inj (hsteps.symm.trans hwalk)
  have hfailure : (root.walk .given p).2.failure = none := hdone.2
  have hresolved := ((Node.walk_follows .given).1 root p rfl).resolved
  rw [hfailure, ← hstate] at hresolved
  refine ⟨?_, ?_, ?_⟩
  · rw [tree_resume]
    exact (Node.walk_renamed .given).1 root p _ rfl hfailure List.prefix_rfl
  · have hfind := Registry.exists_find?_of_substituteAll (congrArg (·.1) hresolved.symm)
    rw [← hresolved] at hfind
    exact hfind
  · have hdrawn := Registry.substituteAll_given hresolved.symm
    rw [Registry.fresh_empty] at hdrawn
    exact hdrawn

namespace Pool

variable [DecidableEq ι]

theorem served_of_done {supply : Supply σ} {roots : ι → Node} {state : σ} {schedule : List ι} {i : ι}
    (hdone : (((start roots state).run supply schedule).walkers i).Done) :
    (((start roots state).run supply schedule).walkers i).Served (roots i)
      ((start roots state).drawnBy supply schedule i) := by
  have halone := (start roots state).run_alone supply schedule i []
  rw [List.append_nil] at halone
  exact Walker.served_of_done halone hdone

section Draws

variable {supply : Supply σ} {pool : Pool ι σ} {schedule : List ι}

/-- If no walk has a draw that fails, no draw fails, since each belongs to one of them. -/
theorem exists_names
    (h : ∀ i, ∃ drawn : List String, pool.drawnBy supply schedule i = drawn.map .ok) :
    ∃ g : Nat → String,
      (∀ k < (pool.drawers supply schedule).length,
        (supply.draw (supply.after pool.state k)).1 = .ok (g k)) ∧
      ∀ i, pool.drawnBy supply schedule i =
        (((pool.drawers supply schedule).idxsOf i).map g).map .ok := by
  have hdraws : ∀ k < (pool.drawers supply schedule).length,
      ∃ s, (supply.draw (supply.after pool.state k)).1 = .ok s := by
    intro k hk
    obtain ⟨drawn, hdrawn⟩ := h (pool.drawers supply schedule)[k]
    have hmem : (supply.draw (supply.after pool.state k)).1 ∈
        pool.drawnBy supply schedule (pool.drawers supply schedule)[k] :=
      List.mem_map_of_mem (List.mem_idxsOf_getElem hk)
    rw [hdrawn] at hmem
    obtain ⟨s, -, hs⟩ := List.mem_map.mp hmem
    exact ⟨s, hs.symm⟩
  choose! g hg using hdraws
  refine ⟨g, hg, fun i => ?_⟩
  rw [drawnBy, List.map_map]
  apply List.map_congr_left
  intro k hk
  exact hg k (List.lt_add_of_mem_idxsOf k hk)

theorem existsUnique_entry {k : Nat} (hk : k < (pool.drawers supply schedule).length) :
    ∃! entry : ι × Nat,
      ((pool.drawers supply schedule).idxsOf entry.1)[entry.2]? = some k := by
  obtain ⟨n, hn⟩ := List.mem_iff_getElem?.mp (List.mem_idxsOf_getElem hk)
  refine ⟨(_, n), hn, ?_⟩
  rintro ⟨i, m⟩ hm
  obtain rfl : (pool.drawers supply schedule)[k] = i :=
    eq_of_beq ((List.mem_idxsOf_iff_getElem_pos hk).mp (List.mem_of_getElem? hm))
  obtain ⟨hlt, -⟩ := List.getElem?_eq_some_iff.mp hm
  obtain rfl : m = n := (List.getElem?_inj hlt List.nodup_idxsOf).mp (hm.trans hn.symm)
  rfl

theorem length_drawers [Fintype ι] :
    (pool.drawers supply schedule).length = ∑ i, (pool.drawnBy supply schedule i).length := by
  have hcount : ∀ i, (pool.drawnBy supply schedule i).length =
      (pool.drawers supply schedule : Multiset ι).count i := by
    intro i
    rw [drawnBy, List.length_map, List.length_idxsOf, Multiset.coe_count]
  simp only [hcount]
  have hcard := Multiset.sum_count_eq_card (m := (pool.drawers supply schedule : Multiset ι))
    fun i _ => Finset.mem_univ i
  rw [hcard, Multiset.coe_card]

end Draws

section Counting

theorem step_counted (supply : Supply σ) (pool : Pool ι (σ × Nat)) (i : ι) :
    (⟨(pool.step supply.counted i).walkers, (pool.step supply.counted i).state.1⟩ : Pool ι σ) =
      step supply ⟨pool.walkers, pool.state.1⟩ i := by
  obtain ⟨hcounted, hafter⟩ := (pool.walkers i).step_given supply.counted pool.state []
  obtain ⟨halone, hafter'⟩ := (pool.walkers i).step_given supply pool.state.1 []
  -- Both take the same step with what they draw, and they draw the same.
  have hwalker : ((pool.walkers i).step supply.counted pool.state).1 =
      ((pool.walkers i).step supply pool.state.1).1 :=
    congrArg (·.1) (hcounted.symm.trans halone)
  have hstate : ((pool.walkers i).step supply.counted pool.state).2.1 =
      ((pool.walkers i).step supply pool.state.1).2 := by
    rw [hafter, hafter']
    split <;> rfl
  simp only [step, hwalker, hstate]

theorem drawers_counted (supply : Supply σ) (pool : Pool ι (σ × Nat)) (schedule : List ι) :
    pool.drawers supply.counted schedule =
      drawers supply ⟨pool.walkers, pool.state.1⟩ schedule := by
  induction schedule generalizing pool with
  | nil => rfl
  | cons i schedule ih => simp only [drawers, ih, step_counted]

/-- The draws that a supply counts are those of `drawers`. -/
theorem count_run (supply : Supply σ) (roots : ι → Node) (state : σ) (schedule : List ι) :
    ((start roots (state, 0)).run supply.counted schedule).state.2 =
      ((start roots state).drawers supply schedule).length := by
  have hcount : ∀ (n : Nat) (s : σ × Nat), (supply.counted.after s n).2 = s.2 + n := by
    intro n
    induction n with
    | zero => exact fun s => rfl
    | succ n ih => exact fun s => (ih _).trans (Nat.succ_add_eq_add_succ s.2 n)
  rw [state_run, hcount, drawers_counted]
  exact Nat.zero_add _

end Counting

/-- Walks that take turns replace the names of each tree consistently, and share out what is drawn. -/
theorem run_consistent [Fintype ι] (supply : Supply σ) (roots : ι → Node) (state : σ)
    (schedule : List ι)
    (hdone : ∀ i, (((start roots state).run supply schedule).walkers i).Done) :
    let pool := (start roots state).run supply schedule
    let drawers := (start roots state).drawers supply schedule
    ∃ g : Nat → String,
      (∀ k < drawers.length, (supply.draw (supply.after state k)).1 = .ok (g k)) ∧
      pool.state = supply.after state drawers.length ∧
      (∀ i,
        (pool.walkers i).tree = (roots i).renamed (pool.walkers i).registry ∧
        (∀ name ∈ (roots i).usedNames, ∃ s, (pool.walkers i).registry.find? name = some s) ∧
        (pool.walkers i).registry.pairs.map (·.1) = (roots i).usedNames.eraseDups ∧
        (pool.walkers i).registry.pairs.map (·.2) = (drawers.idxsOf i).map g) ∧
      (∀ k < drawers.length, ∃! entry : ι × Nat, (drawers.idxsOf entry.1)[entry.2]? = some k) ∧
      drawers.length = ∑ i, (roots i).usedNames.eraseDups.length ∧
      ((start roots (state, 0)).run supply.counted schedule).state.2 = drawers.length := by
  intro pool drawers
  have hserved := fun i => served_of_done (hdone i)
  have hdrawn : ∀ i, ∃ drawn : List String,
      (start roots state).drawnBy supply schedule i = drawn.map .ok := by
    intro i
    obtain ⟨drawn, hdrawn, -⟩ := (hserved i).exists_drawn
    exact ⟨drawn, hdrawn⟩
  obtain ⟨g, hg, hown⟩ := exists_names hdrawn
  refine ⟨g, hg, state_run .., ?_, fun k hk => existsUnique_entry hk, ?_, ?_⟩
  · intro i
    obtain ⟨drawn, hdrawn, hlength, hpairs⟩ := (hserved i).exists_drawn
    obtain rfl : (drawers.idxsOf i).map g = drawn :=
      List.map_injective_iff.mpr (fun _ _ => Except.ok.inj) ((hown i).symm.trans hdrawn)
    refine ⟨(hserved i).tree_eq, (hserved i).exists_find?, ?_, ?_⟩
    · rw [hpairs]
      exact List.map_fst_zip hlength.ge
    · rw [hpairs]
      exact List.map_snd_zip hlength.le
  · rw [length_drawers]
    apply Finset.sum_congr rfl
    intro i _
    obtain ⟨drawn, hdrawn, hlength, -⟩ := (hserved i).exists_drawn
    rw [hdrawn, List.length_map, hlength]
  · exact count_run supply roots state schedule

def twoRoots (i : Bool) : Node :=
  let leaf (name : String) : Node := .mk .identifier "identifier" 0 0 (.text name) "" []
  .mk .inner "program" 0 0 .null "" ((if i then ["x", "y", "x"] else ["y", "z"]).map leaf)

theorem run_consistent_two :
    let pool := (start twoRoots 0).run .numbered [true, true, false, false, true, false, true]
    (∀ i, (pool.walkers i).Done) ∧
      (pool.walkers true).registry.pairs.map (·.2) = ["sub_1", "sub_3"] ∧
      (pool.walkers false).registry.pairs.map (·.2) = ["sub_2", "sub_4"] ∧ pool.state = 4 := by
  intro pool
  have hdone : ∀ i, (pool.walkers i).Done := by
    intro i
    cases i <;> exact ⟨rfl, rfl⟩
  obtain ⟨g, hg, hstate, hserved, -⟩ := run_consistent .numbered twoRoots 0 _ hdone
  have hdrawers : (start twoRoots 0).drawers .numbered
      [true, true, false, false, true, false, true] = [true, false, true, false] := rfl
  rw [hdrawers] at hg hstate
  simp only [hdrawers] at hserved
  have h0 : "sub_1" = g 0 := Except.ok.inj (hg 0 (by decide))
  have h1 : "sub_2" = g 1 := Except.ok.inj (hg 1 (by decide))
  have h2 : "sub_3" = g 2 := Except.ok.inj (hg 2 (by decide))
  have h3 : "sub_4" = g 3 := Except.ok.inj (hg 3 (by decide))
  rw [h0, h1, h2, h3]
  exact ⟨hdone, (hserved true).2.2.2, (hserved false).2.2.2, hstate⟩

end Pool

end Pseudonym
