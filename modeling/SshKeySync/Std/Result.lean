/-! Rust's `Result` as `Except`: `ok_or`, `map_err` and inversion of the `?` operator. -/
namespace RustStd
variable {α β ε ε' : Type}

/-- `Option::ok_or`. -/
def okOr (o : Option α) (e : ε) : Except ε α :=
  match o with
  | some a => .ok a
  | none => .error e

/-- `Result::map_err` by a constant. -/
def mapErr (r : Except ε α) (e : ε') : Except ε' α :=
  match r with
  | .ok a => .ok a
  | .error _ => .error e

@[simp] theorem okOr_some (a : α) (e : ε) : okOr (some a) e = .ok a := rfl
@[simp] theorem okOr_none (e : ε) : okOr (none : Option α) e = .error e := rfl
@[simp] theorem mapErr_ok (a : α) (e : ε') : mapErr (.ok a : Except ε α) e = .ok a := rfl
@[simp] theorem mapErr_error (x : ε) (e : ε') : mapErr (.error x : Except ε α) e = .error e := rfl

@[simp] theorem okOr_eq_ok {o : Option α} {e : ε} {a : α} : okOr o e = .ok a ↔ o = some a := by
  cases o <;> simp [okOr]

@[simp] theorem mapErr_eq_ok {r : Except ε α} {e : ε'} {a : α} : mapErr r e = .ok a ↔ r = .ok a := by
  cases r <;> simp [mapErr]

/-- A computation with `?` returns exactly when each part does. -/
theorem bind_eq_ok {x : Except ε α} {f : α → Except ε β} {b : β} :
    (x >>= f) = .ok b ↔ ∃ a, x = .ok a ∧ f a = .ok b := by
  cases x with
  | error e => exact ⟨nofun, fun ⟨_, h, _⟩ => nomatch h⟩
  | ok a => exact ⟨fun h => ⟨a, rfl, h⟩, fun ⟨_, h, hf⟩ => by cases h; exact hf⟩

/-- A check with `?` passes exactly when it returns `Ok`. -/
theorem check_bind_eq_ok {x : Except ε Unit} {f : Unit → Except ε β} {b : β} :
    (x >>= f) = .ok b ↔ x = .ok () ∧ f () = .ok b :=
  bind_eq_ok.trans ⟨fun ⟨_, h, hf⟩ => ⟨h, hf⟩, fun ⟨h, hf⟩ => ⟨(), h, hf⟩⟩

@[simp] theorem mapError_eq_ok {x : Except ε α} {f : ε → ε'} {a : α} :
    x.mapError f = .ok a ↔ x = .ok a := by
  cases x with
  | ok b => exact ⟨fun h => by cases h; rfl, fun h => by cases h; rfl⟩
  | error e => exact iff_of_false nofun nofun

/-- `ok` is there exactly for what was returned. -/
theorem toOption_eq_some_iff {x : Except ε α} {a : α} : x.toOption = some a ↔ x = .ok a := by
  cases x <;> simp [Except.toOption]

@[simp] theorem ok_bind (a : α) (f : α → Except ε β) : (Except.ok a >>= f) = f a := rfl
@[simp] theorem error_bind (e : ε) (f : α → Except ε β) : (Except.error e >>= f) = .error e := rfl

end RustStd
