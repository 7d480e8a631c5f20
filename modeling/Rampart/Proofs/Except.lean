import Mathlib.Data.List.Forall2

/-!
# Results of steps one after another

What a computation that may fail says of its parts when it has not failed.

* `bind_eq_ok_iff`: both parts of a sequence have not failed.
* `mapM_eq_ok_iff`: no element of a list has failed, and the results stand in the same order;
  `exists_mapM_eq_ok_iff`, `mem_mapM_iff` and `map_mapM` are what follows for the members.
* `mapM_eq_error_iff`: an element has failed, and none before it.
* `exists_foldlM_eq_ok_iff`: whether a fold fails, where that is up to the elements;
  `eq_foldl_of_foldlM` is what it gives.
-/

namespace Rampart.Except

variable {ε α β : Type}

theorem bind_eq_ok_iff {x : Except ε α} {f : α → Except ε β} {b : β} :
    (x >>= f) = .ok b ↔ ∃ a, x = .ok a ∧ f a = .ok b := by
  cases x with
  | error e => simp [bind, Except.bind]
  | ok a => simp [bind, Except.bind]

theorem mapM_eq_ok_iff {f : α → Except ε β} {xs : List α} {ys : List β} :
    xs.mapM f = .ok ys ↔ List.Forall₂ (fun x y => f x = .ok y) xs ys := by
  induction xs generalizing ys with
  | nil => simp [pure, Except.pure, eq_comm]
  | cons x xs ih =>
    rw [List.mapM_cons, List.forall₂_cons_left_iff]
    simp only [bind_eq_ok_iff, ih, pure, Except.pure, Except.ok.injEq]
    constructor
    · rintro ⟨y, hy, zs, hzs, rfl⟩
      exact ⟨y, zs, hy, hzs, rfl⟩
    · rintro ⟨y, zs, hy, hzs, rfl⟩
      exact ⟨y, hy, zs, hzs, rfl⟩

/-- What fails is the first element that does. -/
theorem mapM_eq_error_iff {f : α → Except ε β} {xs : List α} {e : ε} :
    xs.mapM f = .error e ↔ ∃ before x after, xs = before ++ x :: after ∧
      (∀ earlier ∈ before, ∃ y, f earlier = .ok y) ∧ f x = .error e := by
  induction xs with
  | nil => simp [pure, Except.pure]
  | cons x xs ih =>
    rw [List.mapM_cons]
    cases hx : f x with
    | error d =>
      simp only [bind, Except.bind, Except.error.injEq]
      constructor
      · rintro rfl
        exact ⟨[], x, xs, rfl, by simp, hx⟩
      · rintro ⟨before, z, after, hsplit, hbefore, hz⟩
        cases before with
        | nil =>
          obtain ⟨rfl, -⟩ := List.cons.inj hsplit
          exact Except.error.inj (hx.symm.trans hz)
        | cons w before =>
          obtain ⟨rfl, -⟩ := List.cons.inj hsplit
          obtain ⟨y, hy⟩ := hbefore x List.mem_cons_self
          cases hx.symm.trans hy
    | ok y =>
      have hrest : (do let ys ← xs.mapM f; pure (y :: ys) : Except ε (List β)) = .error e ↔
          xs.mapM f = .error e := by
        cases xs.mapM f <;> simp [bind, Except.bind, pure, Except.pure]
      refine hrest.trans (ih.trans ⟨?_, ?_⟩)
      · rintro ⟨before, z, after, rfl, hbefore, hz⟩
        exact ⟨x :: before, z, after, rfl, List.forall_mem_cons.mpr ⟨⟨y, hx⟩, hbefore⟩, hz⟩
      · rintro ⟨before, z, after, hsplit, hbefore, hz⟩
        cases before with
        | nil =>
          obtain ⟨rfl, -⟩ := List.cons.inj hsplit
          cases hx.symm.trans hz
        | cons w before =>
          obtain ⟨rfl, rfl⟩ := List.cons.inj hsplit
          exact ⟨before, z, after, rfl, (List.forall_mem_cons.mp hbefore).2, hz⟩

theorem exists_mapM_eq_ok_iff {f : α → Except ε β} {xs : List α} :
    (∃ ys, xs.mapM f = .ok ys) ↔ ∀ x ∈ xs, ∃ y, f x = .ok y := by
  induction xs with
  | nil => exact ⟨fun _ => by simp, fun _ => ⟨[], rfl⟩⟩
  | cons x xs ih =>
    rw [List.forall_mem_cons, ← ih]
    simp only [mapM_eq_ok_iff, List.forall₂_cons_left_iff]
    constructor
    · rintro ⟨_, y, ys, hy, hys, rfl⟩
      exact ⟨⟨y, hy⟩, ys, hys⟩
    · rintro ⟨⟨y, hy⟩, ys, hys⟩
      exact ⟨y :: ys, y, ys, hy, hys, rfl⟩

theorem mem_mapM_iff {f : α → Except ε β} {xs : List α} {ys : List β} (h : xs.mapM f = .ok ys)
    {y : β} : y ∈ ys ↔ ∃ x ∈ xs, f x = .ok y := by
  have hparts := mapM_eq_ok_iff.mp h
  clear h
  induction hparts with
  | nil => simp
  | @cons x z xs ys hz _ ih =>
    rw [List.mem_cons]
    constructor
    · rintro (rfl | hy)
      · exact ⟨x, List.mem_cons_self, hz⟩
      · obtain ⟨w, hw, hy⟩ := ih.mp hy
        exact ⟨w, List.mem_cons_of_mem x hw, hy⟩
    · rintro ⟨w, hw, hy⟩
      rcases List.mem_cons.mp hw with rfl | hw
      · exact .inl (Except.ok.inj (hy.symm.trans hz))
      · exact .inr (ih.mpr ⟨w, hw, hy⟩)

theorem map_mapM {γ : Type} {f : α → Except ε β} {xs : List α} {ys : List β}
    (h : xs.mapM f = .ok ys) {g : α → γ} {k : β → γ} (hk : ∀ x y, f x = .ok y → k y = g x) :
    ys.map k = xs.map g := by
  have hparts := mapM_eq_ok_iff.mp h
  clear h
  induction hparts with
  | nil => rfl
  | cons hz _ ih => rw [List.map_cons, List.map_cons, ih, hk _ _ hz]

/-- A fold goes through where every step does, if what is folded so far has no say in that. -/
theorem exists_foldlM_eq_ok_iff {f : β → α → Except ε β} {p : α → Prop}
    (h : ∀ b x, (∃ c, f b x = .ok c) ↔ p x) {xs : List α} {start : β} :
    (∃ c, xs.foldlM f start = .ok c) ↔ ∀ x ∈ xs, p x := by
  induction xs generalizing start with
  | nil => exact ⟨fun _ _ hx => absurd hx List.not_mem_nil, fun _ => ⟨start, rfl⟩⟩
  | cons x xs ih =>
    simp only [List.foldlM_cons, bind_eq_ok_iff, List.forall_mem_cons, ← h start x]
    constructor
    · rintro ⟨c, b, hb, hc⟩
      exact ⟨⟨b, hb⟩, ih.mp ⟨c, hc⟩⟩
    · rintro ⟨⟨b, hb⟩, hxs⟩
      obtain ⟨c, hc⟩ := ih.mpr hxs
      exact ⟨c, b, hb, hc⟩

/-- What a fold gives, if steps that do not fail do what those of another fold do. -/
theorem eq_foldl_of_foldlM {f : β → α → Except ε β} {g : β → α → β}
    (h : ∀ b x c, f b x = .ok c → c = g b x) {xs : List α} {start result : β}
    (hresult : xs.foldlM f start = .ok result) : result = xs.foldl g start := by
  induction xs generalizing start with
  | nil => exact (Except.ok.inj hresult).symm
  | cons x xs ih =>
    rw [List.foldlM_cons] at hresult
    obtain ⟨b, hb, hrest⟩ := bind_eq_ok_iff.mp hresult
    rw [List.foldl_cons, ← h start x b hb]
    exact ih hrest

theorem toOption_map_eq_some_iff {x : Except ε α} {f : α → β} {b : β} :
    x.toOption.map f = some b ↔ ∃ a, x = .ok a ∧ f a = b := by
  cases x <;> simp [Except.toOption]

end Rampart.Except
