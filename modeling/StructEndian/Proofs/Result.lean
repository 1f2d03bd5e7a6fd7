import Mathlib.Data.List.Basic

/-!
# Results that may be errors

Packing, cutting into regions and generating answer a result or an error. The proofs about them
take such answers apart with the lemmas of this module: what `bind` makes of a result and of an
error, how it goes together with `map`, and when the two answer a result or an error.

## Main results

* `Except.map_map`, `Except.map_bind`, `Except.bind_map`: the order of `map` and `bind`.
* `Except.mapError_map`, `Except.mapError_bind`: the same with the errors renamed.
* `Except.mapM_eq_ok_map`: a list of results.
* `Except.map_eq_ok_iff`, `Except.map_eq_error_iff`, `Except.bind_eq_ok_iff`: what is behind a
  result or an error.
* `Except.exists_eq_ok_iff`: there is the one exactly if there is not the other.
-/

namespace StructEndian.Except

variable {ε ε' α β γ : Type}

/-! ### Equations -/

@[simp] theorem ok_map (f : α → β) (a : α) : (.ok a : Except ε α).map f = .ok (f a) := rfl

@[simp] theorem error_map (f : α → β) (e : ε) : (.error e : Except ε α).map f = .error e := rfl

@[simp] theorem ok_bind (a : α) (f : α → Except ε β) : .ok a >>= f = f a := rfl

@[simp] theorem error_bind (e : ε) (f : α → Except ε β) : .error e >>= f = .error e := rfl

@[simp] theorem ok_mapError (f : ε → ε') (a : α) : (.ok a : Except ε α).mapError f = .ok a := rfl

@[simp] theorem error_mapError (f : ε → ε') (e : ε) :
    (.error e : Except ε α).mapError f = .error (f e) := rfl

theorem map_map (f : α → β) (g : β → γ) (x : Except ε α) :
    (x.map f).map g = x.map fun a => g (f a) := by
  cases x <;> rfl

theorem map_bind (x : Except ε α) (f : α → Except ε β) (g : β → γ) :
    (x >>= f).map g = x >>= fun a => (f a).map g := by
  cases x <;> rfl

theorem bind_map (x : Except ε α) (f : α → β) (g : β → Except ε γ) :
    x.map f >>= g = x >>= fun a => g (f a) := by
  cases x <;> rfl

theorem mapError_map (f : ε → ε') (g : α → β) (x : Except ε α) :
    (x.map g).mapError f = (x.mapError f).map g := by
  cases x <;> rfl

theorem mapError_bind (f : ε → ε') (x : Except ε α) (g : α → Except ε β) :
    (x >>= g).mapError f = x.mapError f >>= fun a => (g a).mapError f := by
  cases x <;> rfl

/-- If all results are known then so are the results of the list. -/
theorem mapM_eq_ok_map {f : α → Except ε β} {g : α → β} {l : List α}
    (h : ∀ a ∈ l, f a = .ok (g a)) : l.mapM f = .ok (l.map g) := by
  induction l with
  | nil => rfl
  | cons a l ih =>
      obtain ⟨ha, hl⟩ := List.forall_mem_cons.mp h
      rw [List.mapM_cons, ha, ok_bind, ih hl]
      rfl

/-! ### Inversions -/

variable {x : Except ε α}

theorem map_eq_ok_iff {f : α → β} {b : β} : x.map f = .ok b ↔ ∃ a, x = .ok a ∧ f a = b := by
  cases x <;> simp

theorem map_eq_error_iff {f : α → β} {e : ε} : x.map f = .error e ↔ x = .error e := by
  cases x <;> simp

theorem bind_eq_ok_iff {f : α → Except ε β} {b : β} :
    x >>= f = .ok b ↔ ∃ a, x = .ok a ∧ f a = .ok b := by
  cases x <;> simp

/-- There is a result exactly if there is no error. -/
theorem exists_eq_ok_iff : (∃ a, x = .ok a) ↔ ¬ ∃ e, x = .error e := by
  cases x <;> simp

end StructEndian.Except
