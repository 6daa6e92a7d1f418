import SourceRecovery.Fault

/-! Steps that may fail: when a chain of them has a result, and what a sequence of them produces. -/
namespace SourceRecovery

variable {ε ε' α β : Type}

theorem bind_eq_ok {x : Except ε α} {f : α → Except ε β} {b : β} :
    x >>= f = .ok b ↔ ∃ a, x = .ok a ∧ f a = .ok b := by
  cases x with
  | error e => simp [bind, Except.bind]
  | ok a => simp [bind, Except.bind]

theorem bind_eq_error {x : Except ε α} {f : α → Except ε β} {e : ε} :
    x >>= f = .error e ↔ x = .error e ∨ ∃ a, x = .ok a ∧ f a = .error e := by
  cases x with
  | error e => simp [bind, Except.bind]
  | ok a => simp [bind, Except.bind]

theorem map_eq_ok {x : Except ε α} {f : α → β} {b : β} :
    x.map f = .ok b ↔ ∃ a, x = .ok a ∧ f a = b := by
  cases x <;> simp [Except.map]

@[simp] theorem mapError_ok (f : ε → ε') (a : α) :
    (Except.ok a : Except ε α).mapError f = .ok a := rfl

@[simp] theorem mapError_error (f : ε → ε') (e : ε) :
    (Except.error e : Except ε α).mapError f = .error (f e) := rfl

theorem mapError_eq_ok {x : Except ε α} {f : ε → ε'} {a : α} :
    x.mapError f = .ok a ↔ x = .ok a := by
  cases x <;> simp

theorem mapError_eq_error {x : Except ε α} {f : ε → ε'} {e' : ε'} :
    x.mapError f = .error e' ↔ ∃ e, x = .error e ∧ f e = e' := by
  cases x <;> simp

theorem mapM_eq_ok {ε α β : Type} {step : α → Except ε β} {f : α → β} {l : List α}
    (h : ∀ a ∈ l, step a = .ok (f a)) : l.mapM step = .ok (l.map f) := by
  induction l with
  | nil => rfl
  | cons a rest ih =>
    rw [List.mapM_cons, h a List.mem_cons_self, ih fun b hb => h b (List.mem_cons_of_mem a hb)]
    rfl

theorem find?_key_eq_some {α β : Type} [DecidableEq β] (key : α → β) {l : List α} {a : α}
    (hkeys : l.Pairwise fun a b => key a ≠ key b) (ha : a ∈ l) :
    l.find? (fun b => key b = key a) = some a := by
  induction l with
  | nil => cases ha
  | cons b rest ih =>
    obtain ⟨hb, hrest⟩ := List.pairwise_cons.mp hkeys
    rcases List.mem_cons.mp ha with rfl | ha
    · simp
    · rw [List.find?_cons_of_neg (by simpa using hb a ha), ih hrest ha]

/-- Takes items one after another, each in the state that those before it have left. -/
def feed {σ : Type} (act : σ → α → σ × β) : σ → List α → σ × List β
  | s, [] => (s, [])
  | s, a :: rest =>
    let (s, b) := act s a
    let (s, bs) := feed act s rest
    (s, b :: bs)

namespace Sequence

variable {step : α → Except Fault β}

theorem ofSteps_of_ok {γ : Type} {place : γ → α} {f : γ → β} {l : List γ}
    (h : ∀ c ∈ l, step (place c) = .ok (f c)) :
    ofSteps step (l.map place) = ofList (l.map f) := by
  induction l with
  | nil => rfl
  | cons c rest ih =>
    have hrest := ih fun d hd => h d (List.mem_cons_of_mem c hd)
    simp only [List.map_cons, ofSteps, h c List.mem_cons_self, hrest, after, ofList,
      List.singleton_append]

theorem ofSteps_complete {l : List α} (h : ∀ a ∈ l, ∃ b, step a = .ok b) :
    (ofSteps step l).fault = none ∧ (ofSteps step l).items.length = l.length := by
  induction l with
  | nil => exact ⟨rfl, rfl⟩
  | cons a rest ih =>
    obtain ⟨b, hb⟩ := h a List.mem_cons_self
    obtain ⟨hfault, hlength⟩ := ih fun c hc => h c (List.mem_cons_of_mem a hc)
    simp [ofSteps, hb, after, hfault, hlength]

theorem mem_ofSteps {l : List α} {b : β} (h : b ∈ (ofSteps step l).items) :
    ∃ a ∈ l, step a = .ok b := by
  induction l with
  | nil => simp [ofSteps, ofList] at h
  | cons a rest ih =>
    cases hstep : step a with
    | error e => simp [ofSteps, hstep, failed] at h
    | ok c =>
      simp only [ofSteps, hstep, after, List.singleton_append, List.mem_cons] at h
      rcases h with rfl | h
      · exact ⟨a, List.mem_cons_self, hstep⟩
      · obtain ⟨d, hd, hok⟩ := ih h
        exact ⟨d, List.mem_cons_of_mem a hd, hok⟩

theorem ofSteps_map {γ : Type} {l : List α} {k : α → γ} {g : β → γ}
    (h : ∀ a b, step a = .ok b → g b = k a) (hfault : (ofSteps step l).fault = none) :
    (ofSteps step l).items.map g = l.map k := by
  induction l with
  | nil => rfl
  | cons a rest ih =>
    cases hstep : step a with
    | error e => simp [ofSteps, hstep, failed] at hfault
    | ok b =>
      have hrest : (ofSteps step rest).fault = none := by
        simpa [ofSteps, hstep, after] using hfault
      simp [ofSteps, hstep, after, h a b hstep, ih hrest]

theorem ofSteps_length_le (step : α → Except Fault β) (l : List α) :
    (ofSteps step l).items.length ≤ l.length := by
  induction l with
  | nil => exact Nat.le_refl 0
  | cons a rest ih =>
    cases hstep : step a with
    | error e => simp [ofSteps, hstep, failed]
    | ok b => simpa [ofSteps, hstep, after] using ih

theorem ofSteps_fault {l : List α} {f : Fault} (h : (ofSteps step l).fault = some f) :
    ∃ a ∈ l, step a = .error f := by
  induction l with
  | nil => cases h
  | cons a rest ih =>
    cases hstep : step a with
    | error e =>
      simp only [ofSteps, hstep, failed, Option.some.injEq] at h
      exact ⟨a, List.mem_cons_self, h ▸ hstep⟩
    | ok b =>
      obtain ⟨c, hc, herror⟩ := ih (by simpa [ofSteps, hstep, after] using h)
      exact ⟨c, List.mem_cons_of_mem a hc, herror⟩

theorem concatMap_fault_eq_none {step : α → Sequence β} {l : List α} :
    (concatMap step l).fault = none ↔ ∀ a ∈ l, (step a).fault = none := by
  induction l with
  | nil => simp [concatMap, ofList]
  | cons a rest ih =>
    cases hfault : (step a).fault with
    | some f => simp [concatMap, append, hfault]
    | none => simp [concatMap, append, hfault, after, ih]

theorem fault_of_concatMap {step : α → Sequence β} {l : List α} {fault : Fault}
    (h : (concatMap step l).fault = some fault) : ∃ a ∈ l, (step a).fault = some fault := by
  induction l with
  | nil => cases h
  | cons a rest ih =>
    rw [concatMap, append] at h
    split at h
    · exact ⟨a, List.mem_cons_self, h⟩
    · obtain ⟨b, hb, h⟩ := ih h
      exact ⟨b, List.mem_cons_of_mem a hb, h⟩

theorem concatMap_items {step : α → Sequence β} {l : List α}
    (h : ∀ a ∈ l, (step a).fault = none) :
    (concatMap step l).items = (l.map fun a => (step a).items).flatten := by
  induction l with
  | nil => rfl
  | cons a rest ih =>
    simp only [concatMap, append, h a List.mem_cons_self, after,
      ih fun b hb => h b (List.mem_cons_of_mem a hb), List.map_cons, List.flatten_cons]

theorem after_append (front : List β) (s rest : Sequence β) :
    (s.after front).append rest = (s.append rest).after front := by
  obtain ⟨items, fault⟩ := s
  cases fault with
  | none => simp [after, append, List.append_assoc]
  | some f => rfl

theorem concatMap_singleton (step : α → Sequence β) (a : α) :
    concatMap step [a] = step a := by
  cases h : step a with
  | mk items fault => cases fault <;> simp [concatMap, h, append, after, ofList]

end Sequence
end SourceRecovery
