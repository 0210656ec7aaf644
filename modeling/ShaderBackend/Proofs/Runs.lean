/-! Runs of a system that takes one step for each event. A run stops where an event cannot happen. -/
namespace ShaderBackend

/-- What holds at the start and is kept by every step holds after every run. -/
theorem foldlM_invariant {State Event : Type} {step? : State → Event → Option State}
    {P : State → Prop} {events : List Event} {s t : State} (run : events.foldlM step? s = some t)
    (hStart : P s) (hStep : ∀ {s event t}, step? s event = some t → P s → P t) : P t := by
  induction events generalizing s with
  | nil =>
      cases run
      exact hStart
  | cons event rest ih =>
      rw [List.foldlM_cons] at run
      obtain ⟨middle, hFirst, hRest⟩ := Option.bind_eq_some_iff.1 run
      exact ih hRest (hStep hFirst hStart)

/-- Whichever step is taken each time, and there always is one to take, `Goal` comes to hold. -/
inductive Eventually {State : Type} (Next : State → State → Prop) (Goal : State → Prop) :
    State → Prop where
  | here {s : State} (holds : Goal s) : Eventually Next Goal s
  | later {s : State} (goes : ∃ t, Next s t) (rest : ∀ t, Next s t → Eventually Next Goal t) :
      Eventually Next Goal s

/-- If each step uses up some of what is left, and the goal holds where no step can be taken any
more, it comes to hold. -/
theorem Eventually.of_measure {State : Type} {Next : State → State → Prop} {Goal P : State → Prop}
    (left : State → Nat) (hStep : ∀ {s t}, Next s t → P s → P t ∧ left t < left s)
    (hRest : ∀ {s}, P s → (∀ t, ¬ Next s t) → Goal s) {s : State} (hStart : P s) :
    Eventually Next Goal s := by
  induction hLeft : left s using Nat.strongRecOn generalizing s with
  | ind bound ih =>
      subst hLeft
      by_cases hGoes : ∃ t, Next s t
      · refine .later hGoes fun t hNext => ?_
        obtain ⟨hKept, hLess⟩ := hStep hNext hStart
        exact ih _ hLess hKept rfl
      · exact .here (hRest hStart fun t hNext => hGoes ⟨t, hNext⟩)

end ShaderBackend
