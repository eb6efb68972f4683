/-! Computations that may fail, one after the other. -/
namespace DeviceBus

theorem except_bind_ok {ε α β : Type} {first : Except ε α} {next : α → Except ε β} {result : β}
    (h : (first >>= next) = .ok result) : ∃ value, first = .ok value ∧ next value = .ok result := by
  cases first with
  | error e => cases h
  | ok value => exact ⟨value, rfl, h⟩

theorem except_map_ok {ε α β : Type} {first : Except ε α} {f : α → β} {result : β} (h : first.map f = .ok result) :
    ∃ value, first = .ok value ∧ f value = result := by
  cases first with
  | error e => cases h
  | ok value => exact ⟨value, rfl, Except.ok.inj h⟩

theorem except_mapError_ok {ε ζ α : Type} {first : Except ε α} {f : ε → ζ} {result : α}
    (h : first.mapError f = .ok result) : first = .ok result := by
  cases first with
  | error e => cases h
  | ok value => exact congrArg Except.ok (Except.ok.inj h)

end DeviceBus
