import CodeCache.Engine.State

/-! # Laws of computations

How outcomes and computations on a state compose: what a sequence and a handler come to, given what
their parts come to. -/

namespace CodeCache

variable {ε α β : Type}

theorem bind_eq_ok {x : Except ε α} {f : α → Except ε β} {b : β} :
    (x >>= f) = .ok b ↔ ∃ a, x = .ok a ∧ f a = .ok b := by
  cases x <;> simp [bind, Except.bind]

theorem map_eq_ok {x : Except ε α} {f : α → β} {b : β} :
    x.map f = .ok b ↔ ∃ a, x = .ok a ∧ f a = b := by
  cases x <;> simp [Except.map]

theorem foldlM_cons_eq_ok {f : β → α → Except ε β} {x : α} {xs : List α} {b c : β} :
    (x :: xs).foldlM f b = .ok c ↔ ∃ next, f b x = .ok next ∧ xs.foldlM f next = .ok c := by
  rw [List.foldlM_cons, bind_eq_ok]

namespace Action

variable {σ : Type} {a : ExceptT ε (StateM σ) α} {f : α → ExceptT ε (StateM σ) β} {s t : σ} {x : α}
  {e : ε}

@[simp] theorem run_pure (x : α) (s : σ) :
    (pure x : ExceptT ε (StateM σ) α).run s = (.ok x, s) := rfl

@[simp] theorem run_throw (e : ε) (s : σ) :
    (throw e : ExceptT ε (StateM σ) α).run s = (.error e, s) := rfl

@[simp] theorem run_get (s : State) : (get : Action State).run s = (.ok s, s) := rfl

theorem run_bind (a : ExceptT ε (StateM σ) α) (f : α → ExceptT ε (StateM σ) β) (s : σ) :
    (a >>= f).run s =
      match a.run s with
      | (.ok x, t) => (f x).run t
      | (.error e, t) => (.error e, t) := by
  show (match a.run s with | (outcome, t) => ExceptT.bindCont f outcome t) = _
  rcases a.run s with ⟨_ | _, _⟩ <;> rfl

theorem run_bind_ok (ha : a.run s = (.ok x, t)) : (a >>= f).run s = (f x).run t := by
  rw [run_bind, ha]

theorem run_bind_error (ha : a.run s = (.error e, t)) : (a >>= f).run s = (.error e, t) := by
  rw [run_bind, ha]

theorem throw_bind (e : ε) (f : α → ExceptT ε (StateM σ) β) :
    ((throw e : ExceptT ε (StateM σ) α) >>= f) = throw e := rfl

theorem of_run_bind {y : β} (h : ((a >>= f).run s).1 = .ok y) :
    ∃ x t, a.run s = (.ok x, t) ∧ ((f x).run t).1 = .ok y := by
  rw [run_bind] at h
  cases first : a.run s with
  | mk outcome t =>
    rw [first] at h
    cases outcome with
    | error e => cases h
    | ok x => exact ⟨x, t, rfl, h⟩

theorem run_bind_eq_ok {y : β} :
    (a >>= f).run s = (.ok y, t) ↔ ∃ x u, a.run s = (.ok x, u) ∧ (f x).run u = (.ok y, t) := by
  rw [run_bind]
  rcases a.run s with ⟨e | x, u⟩
  · constructor
    · rintro ⟨⟩
    · rintro ⟨_, _, ⟨⟩, _⟩
  · constructor
    · exact fun h => ⟨x, u, rfl, h⟩
    · rintro ⟨_, _, same, h⟩
      cases same
      exact h

theorem run_bind_eq_error :
    (a >>= f).run s = (.error e, t) ↔
      a.run s = (.error e, t) ∨ ∃ x u, a.run s = (.ok x, u) ∧ (f x).run u = (.error e, t) := by
  rw [run_bind]
  rcases a.run s with ⟨e' | x, u⟩
  · constructor
    · rintro ⟨⟩
      exact .inl rfl
    · rintro (⟨⟨⟩⟩ | ⟨_, _, ⟨⟩, _⟩)
      rfl
  · constructor
    · exact fun h => .inr ⟨x, u, rfl, h⟩
    · rintro (failed | ⟨_, _, same, h⟩)
      · cases failed
      · cases same
        exact h

theorem run_tryCatch (a : ExceptT ε (StateM σ) α) (h : ε → ExceptT ε (StateM σ) α) (s : σ) :
    (tryCatch a h).run s =
      match a.run s with
      | (.ok x, t) => (.ok x, t)
      | (.error e, t) => (h e).run t := by
  rw [ExceptT.run_tryCatch]
  cases ha : a.run s with
  | mk outcome t =>
    cases outcome with
    | ok x =>
      simp [bind, StateT.bind, ha]
      rfl
    | error e =>
      simp [bind, StateT.bind, ha]

end Action

namespace State

theorem run_namespaceOf (id : ModuleId) (s : State) :
    ((namespaceOf id).run s).1 =
      match s.modules[id]? with
      | some r =>
        if r.status = .evaluated then .ok r.exports
        else .error (.evaluation (.unavailable r.status))
      | none => .error (.noModule id) := by
  rw [namespaceOf, Action.run_bind, run_moduleAt]
  cases s.modules[id]? with
  | none => rfl
  | some r =>
    by_cases done : r.status = .evaluated
    · simp [done]
    · simp [done]

end State

end CodeCache
