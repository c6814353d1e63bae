import Mathlib.Data.List.Forall2

namespace Pseudonym.Traversal

variable {α β γ δ ε : Type}

theorem map_eq_ok_iff {x : Except ε α} {f : α → β} {b : β} :
    x.map f = .ok b ↔ ∃ a, x = .ok a ∧ f a = b := by
  cases x with
  | error e => simp [Except.map]
  | ok a => simp [Except.map]

theorem mapError_eq_ok_iff {x : Except ε α} {f : ε → δ} {a : α} :
    x.mapError f = .ok a ↔ x = .ok a := by
  cases x <;> simp [Except.mapError]

theorem bind_eq_ok_iff {x : Except ε α} {f : α → Except ε β} {b : β} :
    x >>= f = .ok b ↔ ∃ a, x = .ok a ∧ f a = .ok b := by
  cases x with
  | error e => simp [bind, Except.bind]
  | ok a => simp [bind, Except.bind]

theorem bind_eq_error_iff {x : Except ε α} {f : α → Except ε β} {e : ε} :
    x >>= f = .error e ↔ x = .error e ∨ ∃ a, x = .ok a ∧ f a = .error e := by
  cases x with
  | error e => simp [bind, Except.bind]
  | ok a => simp [bind, Except.bind]

section Checks

variable {p : Prop} [Decidable p]

theorem seq_eq_ok_iff {x : Except ε Unit} {y : Except ε β} {b : β} :
    (x >>= fun _ => y) = .ok b ↔ x = .ok () ∧ y = .ok b := by
  rw [bind_eq_ok_iff]
  exact ⟨fun ⟨_, hx, hy⟩ => ⟨hx, hy⟩, fun ⟨hx, hy⟩ => ⟨(), hx, hy⟩⟩

theorem ite_bind_eq_ok_iff {x y : Except ε α} {f : α → Except ε β} {b : β} :
    (if p then x >>= f else y >>= f) = .ok b ↔ ∃ a, (if p then x else y) = .ok a ∧ f a = .ok b := by
  by_cases hp : p
  · simp only [if_pos hp, bind_eq_ok_iff]
  · simp only [if_neg hp, bind_eq_ok_iff]

theorem when_eq_ok_iff {x : Except ε Unit} :
    (if p then x else pure ()) = .ok () ↔ (p → x = .ok ()) := by
  by_cases hp : p
  · simp [hp]
  · simp [hp, pure, Except.pure]

theorem when_seq_eq_ok_iff {x : Except ε Unit} {y : Except ε β} {b : β} :
    (if p then x >>= fun _ => y else y) = .ok b ↔ (p → x = .ok ()) ∧ y = .ok b := by
  by_cases hp : p
  · simp [hp, seq_eq_ok_iff]
  · simp [hp]

theorem when_bind_seq_eq_ok_iff {x : Except ε α} {check : α → Except ε Unit} {y : Except ε β}
    {b : β} :
    (if p then x >>= fun a => check a >>= fun _ => y else y) = .ok b ↔
      (p → ∃ a, x = .ok a ∧ check a = .ok ()) ∧ y = .ok b := by
  by_cases hp : p
  · simp only [hp, if_true, bind_eq_ok_iff, Unique.exists_iff, forall_const, ← exists_and_right,
      and_assoc]
  · simp [hp]

end Checks

/-- A list is gone through without a failure exactly if each member is. -/
theorem mapM_eq_ok_iff (f : α → Except ε β) (xs : List α) (ys : List β) :
    xs.mapM f = .ok ys ↔ List.Forall₂ (fun x y => f x = .ok y) xs ys := by
  induction xs generalizing ys with
  | nil =>
      rw [List.mapM_nil, List.forall₂_nil_left_iff]
      exact ⟨fun h => (Except.ok.inj h).symm, fun h => h ▸ rfl⟩
  | cons x xs ih =>
      rw [List.mapM_cons, List.forall₂_cons_left_iff, bind_eq_ok_iff]
      constructor
      · rintro ⟨y, hy, h⟩
        obtain ⟨zs, hzs, h⟩ := bind_eq_ok_iff.mp h
        exact ⟨y, zs, hy, (ih zs).mp hzs, (Except.ok.inj h).symm⟩
      · rintro ⟨y, zs, hy, hzs, rfl⟩
        exact ⟨y, hy, bind_eq_ok_iff.mpr ⟨zs, (ih zs).mpr hzs, rfl⟩⟩

theorem exists_mapM_iff (f : α → Except ε β) (xs : List α) :
    (∃ ys, xs.mapM f = .ok ys) ↔ ∀ x ∈ xs, ∃ y, f x = .ok y := by
  induction xs with
  | nil => exact ⟨fun _ _ hx => absurd hx List.not_mem_nil, fun _ => ⟨[], rfl⟩⟩
  | cons x xs ih =>
      rw [List.forall_mem_cons, ← ih]
      simp only [mapM_eq_ok_iff, List.forall₂_cons_left_iff]
      constructor
      · rintro ⟨ys, y, zs, hy, hzs, -⟩
        exact ⟨⟨y, hy⟩, zs, hzs⟩
      · rintro ⟨⟨y, hy⟩, zs, hzs⟩
        exact ⟨y :: zs, y, zs, hy, hzs, rfl⟩

/-- A failure comes from the first member that fails. -/
theorem mapM_eq_error_iff {f : α → Except ε β} {xs : List α} {e : ε} :
    xs.mapM f = .error e ↔ ∃ (i : Nat) (x : α), xs[i]? = some x ∧ f x = .error e ∧
      ∀ j < i, ∀ y, xs[j]? = some y → ∃ z, f y = .ok z := by
  induction xs with
  | nil => simp [pure, Except.pure]
  | cons x xs ih =>
      have hcons : (x :: xs).mapM f = .error e ↔
          f x = .error e ∨ (∃ y, f x = .ok y) ∧ xs.mapM f = .error e := by
        rw [List.mapM_cons, bind_eq_error_iff]
        simp [bind_eq_error_iff, pure, Except.pure]
      rw [hcons, ih]
      constructor
      · rintro (hx | ⟨hx, i, w, hw, hfw, hbefore⟩)
        · exact ⟨0, x, rfl, hx, fun j hj => absurd hj (Nat.not_lt_zero j)⟩
        · refine ⟨i + 1, w, hw, hfw, fun j hj v hv => ?_⟩
          cases j with
          | zero => rwa [← Option.some.inj hv]
          | succ j => exact hbefore j (Nat.lt_of_succ_lt_succ hj) v hv
      · rintro ⟨i, w, hw, hfw, hbefore⟩
        cases i with
        | zero =>
            obtain rfl := Option.some.inj hw
            exact .inl hfw
        | succ i =>
            exact .inr ⟨hbefore 0 (Nat.succ_pos i) x rfl, i, w, hw, hfw,
              fun j hj => hbefore (j + 1) (Nat.succ_lt_succ hj)⟩

theorem mapM_flatMap {f : β → Except ε γ} {g : α → List β} {f' : α → Except ε δ}
    {g' : δ → List γ} (xs : List α) (h : ∀ x ∈ xs, (g x).mapM f = (f' x).map g') :
    (xs.flatMap g).mapM f = (xs.mapM f').map (List.flatMap g') := by
  induction xs with
  | nil => rfl
  | cons x xs ih =>
      rw [List.flatMap_cons, List.mapM_append, List.mapM_cons, h x List.mem_cons_self,
        ih fun y hy => h y (List.mem_cons_of_mem x hy)]
      cases f' x with
      | error e => rfl
      | ok y => cases xs.mapM f' <;> rfl

theorem map_eq_map_iff {f : α → γ} {g : β → γ} {xs : List α} {ys : List β} :
    xs.map f = ys.map g ↔ List.Forall₂ (fun x y => f x = g y) xs ys := by
  rw [← List.forall₂_eq_eq_eq, List.forall₂_map_left_iff, List.forall₂_map_right_iff]

theorem forall₂_exists_left {R : α → β → Prop} {xs : List α} {ys : List β}
    (h : List.Forall₂ R xs ys) {y : β} (hy : y ∈ ys) : ∃ x ∈ xs, R x y := by
  induction h with
  | nil => cases hy
  | @cons x z xs zs hxz _ ih =>
      rcases List.mem_cons.mp hy with rfl | hy
      · exact ⟨x, List.mem_cons_self, hxz⟩
      · obtain ⟨w, hw, hwy⟩ := ih hy
        exact ⟨w, List.mem_cons_of_mem x hw, hwy⟩

theorem forall₂_exists_right {R : α → β → Prop} {xs : List α} {ys : List β}
    (h : List.Forall₂ R xs ys) {x : α} (hx : x ∈ xs) : ∃ y ∈ ys, R x y :=
  forall₂_exists_left h.flip hx

theorem forall₂_getElem? {R : α → β → Prop} {xs : List α} {ys : List β} (h : List.Forall₂ R xs ys)
    {i : Nat} {x : α} (hx : xs[i]? = some x) : ∃ y, ys[i]? = some y ∧ R x y := by
  induction h generalizing i with
  | nil => cases hx
  | @cons a b xs ys hab _ ih =>
      cases i with
      | zero =>
          obtain rfl := Option.some.inj hx
          exact ⟨b, rfl, hab⟩
      | succ i => exact ih hx

theorem forall₂_mem_left {R : α → β → Prop} {xs : List α} {ys : List β}
    (h : List.Forall₂ R xs ys) : List.Forall₂ (fun x y => x ∈ xs ∧ R x y) xs ys :=
  (List.forall₂_and_left _ _).mpr ⟨fun _ hx => hx, h⟩

theorem forall_iff_of_forall₂ {A : α → Prop} {B : β → Prop} {xs : List α} {ys : List β}
    (h : List.Forall₂ (fun x y => A x ↔ B y) xs ys) : (∀ x ∈ xs, A x) ↔ ∀ y ∈ ys, B y := by
  constructor
  · intro hA y hy
    obtain ⟨x, hx, hxy⟩ := forall₂_exists_left h hy
    exact hxy.mp (hA x hx)
  · intro hB x hx
    obtain ⟨y, hy, hxy⟩ := forall₂_exists_right h hx
    exact hxy.mpr (hB y hy)

theorem pairwise_of_forall₂ {R : α → β → Prop} {A : α → α → Prop} {B : β → β → Prop}
    (h : ∀ a b c d, R a b → R c d → A a c → B b d) {xs : List α} {ys : List β}
    (hR : List.Forall₂ R xs ys) (hA : xs.Pairwise A) : ys.Pairwise B := by
  induction hR with
  | nil => exact .nil
  | cons hab hrest ih =>
      obtain ⟨hhead, htail⟩ := List.pairwise_cons.mp hA
      refine List.pairwise_cons.mpr ⟨fun y hy => ?_, ih htail⟩
      obtain ⟨x, hx, hxy⟩ := forall₂_exists_left hrest hy
      exact h _ _ _ _ hab hxy (hhead x hx)

/-- Lists in step that are put together from parts of the same lengths have their parts in step. -/
theorem forall₂_of_flatMap {R : α → β → Prop} {P : γ → δ → Prop} {f : α → List γ} {g : β → List δ}
    (hlength : ∀ a b, R a b → (f a).length = (g b).length) {xs : List α} {ys : List β}
    (hR : List.Forall₂ R xs ys) (hP : List.Forall₂ P (xs.flatMap f) (ys.flatMap g)) :
    List.Forall₂ (fun a b => R a b ∧ List.Forall₂ P (f a) (g b)) xs ys := by
  induction hR with
  | nil => exact .nil
  | @cons a b xs ys hab _ ih =>
      rw [List.flatMap_cons, List.flatMap_cons] at hP
      have hhead := List.forall₂_take_append _ _ _ hP
      have htail := List.forall₂_drop_append _ _ _ hP
      rw [← hlength a b hab] at hhead htail
      rw [List.take_left] at hhead
      rw [List.drop_left] at htail
      exact .cons ⟨hab, hhead⟩ (ih htail)

theorem forall₂_transfer {R : α → β → Prop} {S : γ → δ → Prop} {P : α → γ → Prop}
    {Q : β → δ → Prop} (h : ∀ a b c d, R a b → S c d → P a c → Q b d) {as : List α} {bs : List β}
    {cs : List γ} {ds : List δ} (hR : List.Forall₂ R as bs) (hS : List.Forall₂ S cs ds)
    (hP : List.Forall₂ P as cs) : List.Forall₂ Q bs ds := by
  induction hP generalizing bs ds with
  | nil =>
      cases hR
      cases hS
      exact .nil
  | cons hac _ ih =>
      cases hR with
      | cons hab hR =>
          cases hS with
          | cons hcd hS => exact .cons (h _ _ _ _ hab hcd hac) (ih hR hS)

theorem nodup_eraseDups [BEq α] [LawfulBEq α] (xs : List α) : xs.eraseDups.Nodup := by
  induction hlength : xs.length using Nat.strongRecOn generalizing xs with
  | ind n ih =>
      cases xs with
      | nil => exact List.nodup_nil
      | cons x xs =>
          rw [List.eraseDups_cons, List.nodup_cons]
          refine ⟨by simp [List.mem_eraseDups], ih _ ?_ _ rfl⟩
          have hle := List.length_filter_le (fun y => !y == x) xs
          rw [List.length_cons] at hlength
          omega

end Pseudonym.Traversal
