import Viewloom.Controller

/-!
# Runs of a resolver

A resolver is asked for many names while its loader changes. What it answers for one name depends only on
what the loader offers for that name whenever it is resolved: failures come through, and the first lookup
stays for good.
-/

namespace Viewloom.Resolver

/-- What happens to a resolver: a name is resolved, the loader is asked directly, or it changes. -/
inductive Step where
  | resolve (name : Text)
  | load (name : Text)
  | change (loader : Loader)

/-- What a step lets be seen. For a resolved name it also tells whether the loader was asked. -/
inductive Event where
  | resolved (name : Text) (outcome : Except Error Lookup) (isAsked : Bool)
  | loaded (name : Text) (outcome : Except Error Lookup)
  | changed

/-- A resolver with its loader as it is at the moment. -/
structure State where
  loader : Loader
  resolver : Resolver

namespace State

def start (loader : Loader) : State := ⟨loader, []⟩

/-- What one call does: it resolves a name, asks the loader past the resolver, or exchanges the
loader. -/
def step (s : State) : Step → State × Event
  | .resolve name =>
    let (outcome, resolver, isAsked) := s.resolver.resolve s.loader name
    ({ s with resolver := resolver }, .resolved name outcome isAsked)
  | .load name => (s, .loaded name (s.loader name))
  | .change loader => ({ s with loader := loader }, .changed)

/-- The state after a sequence of steps, and what they let be seen. -/
def run (s : State) : List Step → State × List Event
  | [] => (s, [])
  | step :: steps =>
    let (next, event) := s.step step
    let (last, events) := next.run steps
    (last, event :: events)

end State

/-- An answer for a name, and whether the loader was asked for it. -/
abbrev Answer := Except Error Lookup × Bool

/-- The answer to a call for a name. -/
def Event.answer? (name : Text) : Event → Option Answer
  | resolved name' outcome isAsked => if name' = name then some (outcome, isAsked) else none
  | _ => none

/-- The answers for a name, in order. -/
def answers (name : Text) (events : List Event) : List Answer := events.filterMap (Event.answer? name)

/-- What a loader offers for a name at each time when the name is resolved. -/
def offers (name : Text) : Loader → List Step → List (Except Error Lookup)
  | _, [] => []
  | loader, .resolve name' :: steps =>
    if name' = name then loader name :: offers name loader steps else offers name loader steps
  | loader, .load _ :: steps => offers name loader steps
  | _, .change loader :: steps => offers name loader steps

/-- The answers that offers call for: those up to the first lookup, and then always that lookup. -/
def memorised : List (Except Error Lookup) → List Answer
  | [] => []
  | .error e :: offers => (.error e, true) :: memorised offers
  | .ok lookup :: offers => (.ok lookup, true) :: offers.map fun _ => (.ok lookup, false)

/-- Whether a step can matter for the answers for a name. -/
def Step.concerns (name : Text) : Step → Bool
  | resolve name' => name' == name
  | load _ => false
  | change _ => true

/-- The first lookup among offers. -/
def firstLookup? : List (Except Error Lookup) → Option Lookup
  | [] => none
  | .error _ :: offers => firstLookup? offers
  | .ok lookup :: _ => some lookup

/-- The number of answers for which the loader was asked. -/
def askings (answers : List Answer) : Nat := answers.countP Prod.snd

/-- The number of answers that are failures. -/
def failures (answers : List Answer) : Nat := answers.countP fun answer => !answer.1.isOk

variable {r : Resolver} {loader : Loader} {name other : Text} {lookup : Lookup} {e : Error}

/-- A known name is answered without asking. -/
theorem resolve_known (h : r.known? name = some lookup) :
    r.resolve loader name = (.ok lookup, r, false) := by
  simp [resolve, h]

/-- A name that has been found is known from then on. -/
theorem resolve_found (h : r.known? name = none) (hloader : loader name = .ok lookup) :
    r.resolve loader name = (.ok lookup, (name, lookup) :: r, true) := by
  simp [resolve, h, hloader]

/-- A failure is not remembered. -/
theorem resolve_failed (h : r.known? name = none) (hloader : loader name = .error e) :
    r.resolve loader name = (.error e, r, true) := by
  simp [resolve, h, hloader]

/-- Nothing is stored but a lookup that is found for the first time. -/
theorem resolver_cases (r : Resolver) (loader : Loader) (name : Text) :
    (r.resolve loader name).2.1 = r ∨
      ∃ lookup, r.resolve loader name = (.ok lookup, (name, lookup) :: r, true) := by
  cases hknown : r.known? name with
  | some lookup => exact .inl (by rw [resolve_known hknown])
  | none =>
      cases hloader : loader name with
      | error e => exact .inl (by rw [resolve_failed hknown hloader])
      | ok lookup => exact .inr ⟨lookup, resolve_found hknown hloader⟩

/-- Resolving a name leaves what is known of other names. -/
theorem known?_resolve_of_ne (h : other ≠ name) :
    (r.resolve loader other).2.1.known? name = r.known? name := by
  cases hknown : r.known? other with
  | some lookup => rw [resolve_known hknown]
  | none =>
      cases hloader : loader other with
      | error e => rw [resolve_failed hknown hloader]
      | ok lookup =>
          rw [resolve_found hknown hloader]
          simp [known?, List.lookup_cons, (beq_eq_false_iff_ne.2 (Ne.symm h))]

/-- The steps for other names do not change what the loader would answer. -/
theorem offers_filter (name : Text) (loader : Loader) (steps : List Step) :
    offers name loader (steps.filter (Step.concerns name)) = offers name loader steps := by
  induction steps generalizing loader with
  | nil => rfl
  | cons step steps ih =>
      cases step with
      | resolve other => by_cases h : other = name <;> simp [Step.concerns, offers, h, ih]
      | load other => exact ih loader
      | change next => exact ih next

theorem countP_known {p : Answer → Bool} (h : p (.ok lookup, false) = false)
    (offers : List (Except Error Lookup)) :
    (offers.map fun _ => ((.ok lookup, false) : Answer)).countP p = 0 := by
  rw [List.countP_eq_zero]
  intro answer hmem
  obtain ⟨_, _, rfl⟩ := List.mem_map.1 hmem
  simp [h]

/-- The loader is asked until it finds something, and never again. -/
theorem askings_memorised (offers : List (Except Error Lookup)) :
    askings (memorised offers) =
      failures (memorised offers) + (firstLookup? offers).toList.length := by
  induction offers with
  | nil => rfl
  | cons offer offers ih =>
      cases offer with
      | error e =>
          simp only [askings, failures] at ih
          simp only [askings, failures, memorised, firstLookup?, List.countP_cons, ih]
          simp [Except.isOk, Except.toBool]
          omega
      | ok lookup =>
          rw [askings, failures, memorised, List.countP_cons, countP_known rfl, List.countP_cons,
            countP_known rfl]
          rfl

namespace State

/-- The answers for a name that is known already. -/
theorem answers_run_known {s : State} (h : s.resolver.known? name = some lookup) (steps : List Step) :
    answers name (s.run steps).2 =
        (offers name s.loader steps).map (fun _ => (.ok lookup, false)) ∧
      (s.run steps).1.resolver.known? name = some lookup := by
  induction steps generalizing s with
  | nil => exact ⟨rfl, h⟩
  | cons step steps ih =>
      cases step with
      | resolve other =>
          by_cases hother : other = name
          · subst hother
            have hstep : s.step (.resolve other) = (s, .resolved other (.ok lookup) false) := by
              rw [State.step, resolve_known h]
            obtain ⟨hanswers, hknown⟩ := ih h
            rw [run, hstep]
            refine ⟨?_, hknown⟩
            simpa [answers, Event.answer?, offers] using hanswers
          · have hkeeps : (s.step (.resolve other)).1.resolver.known? name = some lookup :=
              (known?_resolve_of_ne hother).trans h
            obtain ⟨hanswers, hknown⟩ := ih hkeeps
            refine ⟨?_, hknown⟩
            simpa [run, State.step, answers, Event.answer?, offers, hother] using hanswers
      | load other => exact ih h
      | change loader => exact ih (s := ⟨loader, s.resolver⟩) h

/-- The answers for a name that is not known yet. -/
theorem answers_run_unknown {s : State} (h : s.resolver.known? name = none) (steps : List Step) :
    answers name (s.run steps).2 = memorised (offers name s.loader steps) ∧
      (s.run steps).1.resolver.known? name = firstLookup? (offers name s.loader steps) := by
  induction steps generalizing s with
  | nil => exact ⟨rfl, h⟩
  | cons step steps ih =>
      cases step with
      | resolve other =>
          by_cases hother : other = name
          · subst hother
            cases hloader : s.loader other with
            | error e =>
                have hstep : s.step (.resolve other) = (s, .resolved other (.error e) true) := by
                  rw [State.step, resolve_failed h hloader]
                obtain ⟨hanswers, hknown⟩ := ih h
                rw [run, hstep]
                refine ⟨?_, ?_⟩
                · simpa [answers, Event.answer?, offers, hloader, memorised] using hanswers
                · simpa [offers, hloader, firstLookup?] using hknown
            | ok lookup =>
                let next : State := ⟨s.loader, (other, lookup) :: s.resolver⟩
                have hstep : s.step (.resolve other) = (next, .resolved other (.ok lookup) true) := by
                  rw [State.step, resolve_found h hloader]
                have hnext : next.resolver.known? other = some lookup := by
                  simp [next, known?]
                obtain ⟨hanswers, hknown⟩ := answers_run_known hnext steps
                rw [run, hstep]
                refine ⟨?_, ?_⟩
                · simpa [answers, Event.answer?, offers, hloader, memorised, next] using hanswers
                · simpa [offers, hloader, firstLookup?] using hknown
          · have hkeeps : (s.step (.resolve other)).1.resolver.known? name = none :=
              (known?_resolve_of_ne hother).trans h
            obtain ⟨hanswers, hknown⟩ := ih hkeeps
            refine ⟨?_, ?_⟩
            · simpa [run, State.step, answers, Event.answer?, offers, hother] using hanswers
            · simpa [run, State.step, offers, hother] using hknown
      | load other => exact ih h
      | change loader => exact ih (s := ⟨loader, s.resolver⟩) h

/-- For every name, whatever else is resolved, asked for or changed: failures of the loader come through,
the first lookup is answered from then on, a step stores nothing but such a lookup, the loader is asked
once for each failure and once for that lookup, and steps for other names do not matter. -/
theorem answers_run (loader : Loader) (steps : List Step) (name : Text) :
    let run := (start loader).run steps
    let next := run.1.step (.resolve name)
    answers name run.2 = memorised (offers name loader steps) ∧
      run.1.resolver.known? name = firstLookup? (offers name loader steps) ∧
      (next.1 = run.1 ∨
        ∃ lookup, next.2 = .resolved name (.ok lookup) true ∧
          next.1 = { run.1 with resolver := (name, lookup) :: run.1.resolver }) ∧
      askings (answers name run.2) =
        failures (answers name run.2) + (firstLookup? (offers name loader steps)).toList.length ∧
      answers name ((start loader).run (steps.filter (Step.concerns name))).2 = answers name run.2 := by
  intro run next
  have hstart : (start loader).resolver.known? name = none := rfl
  obtain ⟨hanswers, hknown⟩ := answers_run_unknown hstart steps
  refine ⟨hanswers, hknown, ?_, ?_, ?_⟩
  · rcases resolver_cases run.1.resolver run.1.loader name with hsame | ⟨lookup, hfound⟩
    · exact .inl (by simp only [next, State.step, hsame])
    · exact .inr ⟨lookup, by simp only [next, State.step, hfound], by
        simp only [next, State.step, hfound]⟩
  · rw [hanswers]
    exact askings_memorised _
  · rw [hanswers, (answers_run_unknown hstart _).1]
    exact congrArg memorised (offers_filter name loader steps)

end State

end Viewloom.Resolver
