/-! Computations that may fail, one after the other. -/
namespace BucketQuery

section Sequence
variable {ε α β γ σ : Type} {x y : Except ε α} {f g : α → Except ε β}

/-- What a computation that succeeds got from its first step. -/
theorem ok_of_bind {b : β} (h : x >>= f = .ok b) : ∃ a, x = .ok a ∧ f a = .ok b := by
  cases x with
  | error e => cases h
  | ok a => exact ⟨a, rfl, h⟩

theorem bind_eq_ok_iff {b : β} : x >>= f = .ok b ↔ ∃ a, x = .ok a ∧ f a = .ok b := by
  refine ⟨ok_of_bind, ?_⟩
  rintro ⟨a, ha, h⟩
  rw [ha]
  exact h

theorem map_ok (k : α → β) {a : α} (h : x = .ok a) : k <$> x = .ok (k a) := by
  rw [h]
  rfl

theorem ok_of_map {k : α → β} {b : β} (h : k <$> x = .ok b) : ∃ a, x = .ok a ∧ k a = b := by
  cases x with
  | error e => cases h
  | ok a => exact ⟨a, rfl, Except.ok.inj h⟩

theorem map_eq_ok_iff {k : α → β} {b : β} : k <$> x = .ok b ↔ ∃ a, x = .ok a ∧ k a = b := by
  refine ⟨ok_of_map, ?_⟩
  rintro ⟨a, ha, rfl⟩
  exact map_ok k ha

/-- A computation in two steps fails in the first or, where that succeeds, in the second. -/
theorem bind_eq_error_iff {e : ε} :
    x >>= f = .error e ↔ x = .error e ∨ ∃ a, x = .ok a ∧ f a = .error e := by
  cases x with
  | error e' =>
    show Except.error e' = Except.error e ↔ _
    refine ⟨fun h => ?_, fun h => ?_⟩
    · cases h
      exact .inl rfl
    · rcases h with h | ⟨_, ha, _⟩
      · cases h
        rfl
      · cases ha
  | ok a =>
    refine ⟨fun h => .inr ⟨a, rfl, h⟩, ?_⟩
    rintro (h | ⟨_, ⟨⟩, h⟩)
    · cases h
    · exact h

theorem map_eq_error_iff {k : α → β} {e : ε} : x.map k = .error e ↔ x = .error e := by
  cases x with
  | error e' =>
    refine ⟨fun h => ?_, fun h => ?_⟩
    · cases h
      rfl
    · cases h
      rfl
  | ok a => exact ⟨nofun, nofun⟩

/-- Two computations that look alike, followed by what looks alike from there. -/
theorem bind_of_map {view : α → σ} {k : β → γ} (h : x.map view = y.map view)
    (hfg : ∀ a b, view a = view b → (f a).map k = (g b).map k) :
    (x >>= f).map k = (y >>= g).map k := by
  cases x with
  | error e =>
    cases y with
    | error e' =>
      cases h
      rfl
    | ok b => cases h
  | ok a =>
    cases y with
    | error e' => cases h
    | ok b => exact hfg a b (Except.ok.inj h)

end Sequence

end BucketQuery
