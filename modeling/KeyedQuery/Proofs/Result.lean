import KeyedQuery.Error
import Mathlib.Data.List.Forall2

/-!
# Computations that succeed

A computation put together from others succeeds exactly if they do, each on the result of the one
before. So what is known of the errors and of the results of each is known of the whole.
-/

namespace KeyedQuery.Result

variable {ε α β γ : Type}

theorem bind_eq_ok_iff {x : Except ε α} {f : α → Except ε β} {b : β} :
    x.bind f = .ok b ↔ ∃ a, x = .ok a ∧ f a = .ok b := by
  cases x with
  | error e => simp [Except.bind]
  | ok a => simp [Except.bind]

theorem do_eq_ok_iff {x : Except ε α} {f : α → Except ε β} {b : β} :
    x >>= f = .ok b ↔ ∃ a, x = .ok a ∧ f a = .ok b :=
  bind_eq_ok_iff

theorem map_eq_ok_iff {x : Except ε α} {f : α → β} {b : β} :
    x.map f = .ok b ↔ ∃ a, x = .ok a ∧ f a = b := by
  cases x with
  | error e => simp [Except.map]
  | ok a => simp [Except.map]

theorem pure_eq_ok_iff {a b : α} : (pure a : Except ε α) = .ok b ↔ a = b := by
  simp [pure, Except.pure]

theorem mapM_eq_ok_iff {f : α → Except ε β} {xs : List α} {ys : List β} :
    xs.mapM f = .ok ys ↔ List.Forall₂ (fun x y => f x = .ok y) xs ys := by
  induction xs generalizing ys with
  | nil => rw [List.mapM_nil, pure_eq_ok_iff, List.forall₂_nil_left_iff, eq_comm]
  | cons x xs ih =>
      simp only [List.mapM_cons, do_eq_ok_iff, pure_eq_ok_iff, ih, List.forall₂_cons_left_iff]
      constructor
      · rintro ⟨y, hy, ys, hys, rfl⟩
        exact ⟨y, ys, hy, hys, rfl⟩
      · rintro ⟨y, ys, hy, hys, rfl⟩
        exact ⟨y, hy, ys, hys, rfl⟩

theorem mapM_map_eq_ok_map {f : α → Except ε β} {g : γ → α} {k : γ → β} {zs : List γ}
    (h : ∀ z ∈ zs, f (g z) = .ok (k z)) : (zs.map g).mapM f = .ok (zs.map k) := by
  rw [mapM_eq_ok_iff, List.forall₂_map_left_iff, List.forall₂_map_right_iff, List.forall₂_same]
  exact h

theorem mapM_map_eq_ok {f : α → Except ε β} {g : β → α} {ys : List β}
    (h : ∀ y ∈ ys, f (g y) = .ok y) : (ys.map g).mapM f = .ok ys := by
  rw [mapM_map_eq_ok_map (k := id) h, List.map_id]

theorem mapM_congr {f g : α → Except ε β} {xs : List α} (h : ∀ x ∈ xs, f x = g x) :
    xs.mapM f = xs.mapM g := by
  induction xs with
  | nil => rfl
  | cons x xs ih =>
      rw [List.mapM_cons, List.mapM_cons, h x List.mem_cons_self,
        ih fun y hy => h y (List.mem_cons_of_mem _ hy)]

theorem isOk_map (x : Except ε α) (f : α → β) : (x.map f).isOk = x.isOk := by
  cases x <;> rfl

theorem isOk_iff {x : Except ε α} : x.isOk = true ↔ ∃ a, x = .ok a := by
  cases x <;> simp [Except.isOk, Except.toBool]

theorem isOk_eq_isSome (x : Except ε α) : x.isOk = x.toOption.isSome := by
  cases x <;> rfl

theorem isOk_mapM {f : α → Except ε β} {xs : List α} :
    (xs.mapM f).isOk = true ↔ ∀ x ∈ xs, (f x).isOk = true := by
  simp only [isOk_iff, mapM_eq_ok_iff]
  induction xs with
  | nil => simp
  | cons x xs ih =>
      simp only [List.forall₂_cons_left_iff, List.forall_mem_cons, ← ih]
      constructor
      · rintro ⟨_, y, ys, hy, hys, rfl⟩
        exact ⟨⟨y, hy⟩, ys, hys⟩
      · rintro ⟨⟨y, hy⟩, ys, hys⟩
        exact ⟨y :: ys, y, ys, hy, hys, rfl⟩

theorem forall_mem_of_mapM {f : α → Except ε β} {xs : List α} {ys : List β} {P : β → Prop}
    (h : xs.mapM f = .ok ys) (hP : ∀ x ∈ xs, ∀ y, f x = .ok y → P y) : ∀ y ∈ ys, P y := by
  rw [mapM_eq_ok_iff] at h
  induction h with
  | nil => simp
  | @cons x y xs ys hy _ ih =>
      refine List.forall_mem_cons.2 ⟨hP x List.mem_cons_self y hy, ih fun x' hx' => ?_⟩
      exact hP x' (List.mem_cons_of_mem _ hx')

/-! ## The error of a computation -/

def error? : Except ε α → Option ε
  | .error e => some e
  | .ok _ => none

theorem error?_eq_none_iff {x : Except ε α} : error? x = none ↔ ∃ a, x = .ok a := by
  cases x <;> simp [error?]

theorem error?_eq_some_iff {x : Except ε α} {e : ε} : error? x = some e ↔ x = .error e := by
  cases x <;> simp [error?]

theorem error?_map (x : Except ε α) (f : α → β) : error? (x.map f) = error? x := by
  cases x <;> rfl

/-- What fails in the same way on every result fails after the first computation. -/
theorem error?_do {x : Except ε α} {f : α → Except ε β} {o : Option ε}
    (h : ∀ a, error? (f a) = o) : error? (x >>= f) = (error? x).or o := by
  cases x with
  | error e => rfl
  | ok a => exact h a

/-- Computations in a row fail like the first of them that fails. -/
theorem error?_mapM {f : α → Except ε β} {xs : List α} :
    error? (xs.mapM f) = xs.findSome? fun x => error? (f x) := by
  induction xs with
  | nil => rfl
  | cons x xs ih =>
      have htail : ∀ y, error? (xs.mapM f >>= fun ys => pure (y :: ys)) =
          xs.findSome? fun x => error? (f x) := by
        intro y
        rw [error?_do (o := none) fun _ => rfl, Option.or_none, ih]
      rw [List.mapM_cons, error?_do htail, List.findSome?_cons]
      cases error? (f x) <;> rfl

/-! ## How a computation ends -/

/-- The computation fails with an error of the kind `K`, or its result has the property `P`.
Failures are part of what is said, and not a case that is left out. -/
def Ends (K : ε → Prop) (P : α → Prop) : Except ε α → Prop
  | .error e => K e
  | .ok a => P a

section Ends

variable {K : ε → Prop} {P Q : α → Prop} {x : Except ε α}

theorem Ends.error {e : ε} (h : Ends K P x) (hx : x = .error e) : K e := by
  rwa [hx] at h

theorem Ends.ok {a : α} (h : Ends K P x) (hx : x = .ok a) : P a := by
  rwa [hx] at h

theorem Ends.imp {L : ε → Prop} (h : Ends K P x) (hK : ∀ e, K e → L e) (hP : ∀ a, P a → Q a) :
    Ends L Q x := by
  cases x with
  | error e => exact hK e h
  | ok a => exact hP a h

theorem Ends.bind {R : β → Prop} {f : α → Except ε β} (h : Ends K P x)
    (hf : ∀ a, P a → Ends K R (f a)) : Ends K R (x >>= f) := by
  cases x with
  | error e => exact h
  | ok a => exact hf a h

theorem Ends.map {R : β → Prop} {f : α → β} (h : Ends K P x) (hf : ∀ a, P a → R (f a)) :
    Ends K R (x.map f) := by
  cases x with
  | error e => exact h
  | ok a => exact hf a h

theorem ends_mapM {R : β → Prop} {f : α → Except ε β} {xs : List α}
    (h : ∀ a ∈ xs, Ends K R (f a)) : Ends K (fun ys => ∀ y ∈ ys, R y) (xs.mapM f) := by
  induction xs with
  | nil => simp [Ends, pure, Except.pure]
  | cons a xs ih =>
      rw [List.mapM_cons]
      refine (h a List.mem_cons_self).bind fun y hy => ?_
      refine (ih fun b hb => h b (List.mem_cons_of_mem _ hb)).bind fun ys hys => ?_
      exact List.forall_mem_cons.2 ⟨hy, hys⟩

end Ends

/-! ## Two computations that agree up to a function of their results -/

variable {δ : Type}

theorem map_map_congr {x y : Except ε α} {k : α → γ} {l : β → δ} {f g : α → β}
    (h : x.map k = y.map k) (hfg : ∀ a b, k a = k b → l (f a) = l (g b)) :
    (x.map f).map l = (y.map g).map l := by
  cases x with
  | error e =>
      cases y with
      | error e' => simpa [Except.map] using h
      | ok b => simp [Except.map] at h
  | ok a =>
      cases y with
      | error e' => simp [Except.map] at h
      | ok b => exact congrArg Except.ok (hfg a b (by simpa [Except.map] using h))

theorem map_bind_congr {x y : Except ε α} {k : α → γ} {l : β → δ} {f g : α → Except ε β}
    (h : x.map k = y.map k) (hfg : ∀ a b, k a = k b → (f a).map l = (g b).map l) :
    (x.bind f).map l = (y.bind g).map l := by
  cases x with
  | error e =>
      cases y with
      | error e' =>
          obtain rfl : e = e' := by simpa [Except.map] using h
          rfl
      | ok b => simp [Except.map] at h
  | ok a =>
      cases y with
      | error e' => simp [Except.map] at h
      | ok b => exact hfg a b (by simpa [Except.map] using h)

theorem map_do_congr {x y : Except ε α} {k : α → γ} {l : β → δ} {f g : α → Except ε β}
    (h : x.map k = y.map k) (hfg : ∀ a b, k a = k b → (f a).map l = (g b).map l) :
    (x >>= f).map l = (y >>= g).map l :=
  map_bind_congr h hfg

theorem map_do_congr_right {x : Except ε α} {l : β → δ} {f g : α → Except ε β}
    (h : ∀ a, (f a).map l = (g a).map l) : (x >>= f).map l = (x >>= g).map l := by
  cases x with
  | error e => rfl
  | ok a => exact h a

theorem map_mapM_congr {m : δ → δ} {f g : δ → Except ε α} {k : α → γ} {xs : List δ}
    (h : ∀ x ∈ xs, (f (m x)).map k = (g x).map k) :
    ((xs.map m).mapM f).map (List.map k) = (xs.mapM g).map (List.map k) := by
  induction xs with
  | nil => rfl
  | cons x xs ih =>
      rw [List.map_cons, List.mapM_cons, List.mapM_cons]
      refine map_do_congr (h x List.mem_cons_self) fun a b hab => ?_
      refine map_do_congr (ih fun y hy => h y (List.mem_cons_of_mem _ hy)) fun as bs habs => ?_
      simp only [Except.map, pure, Except.pure, List.map_cons, hab, habs]

end KeyedQuery.Result
