import PooledSessions.Proofs.Pool.Itinerary
import PooledSessions.Proofs.Pool.Tidings
/-!
# How a call concludes

In a move at most one call ends, and then the move tells its result, once (`Engine.conclusion_of_step`).  So the
calls that have not ended and the results that were told together are the calls that were set up, each of
them once.
-/

namespace PooledSessions

variable {ε α : Type}

/-- A leg on which a creation is begun or an operation is started does not end the call. -/
theorem Leg.isSome_of_asked {c : Setup} {now : Nat} {answered : Bool} {p : Point} {asked : List Request}
    {p' : Option Point} (h : Leg c now answered p asked p') (hasked : .create ∈ asked ∨ .operate ∈ asked) :
    p'.isSome := by
  have hleases : ∀ {client : Client} {asked : List Request} {p' : Option Point},
      Leases now client asked p' → .create ∈ asked ∨ .operate ∈ asked → p'.isSome := by
    intro client asked p' hleases hasked
    cases hleases with
    | ends => simp at hasked
    | operates a h => rfl
  have hacquires : ∀ {client : Client} {asked : List Request} {p' : Option Point},
      Acquires now client asked p' → .create ∈ asked ∨ .operate ∈ asked → p'.isSome := by
    intro client asked p' hacquires hasked
    cases hacquires with
    | leases h => exact hleases h hasked
    | creates => rfl
  have hretries : ∀ {client : Client} {a : Attempt} {asked : List Request} {p' : Option Point},
      Retries c now client a asked p' → .create ∈ asked ∨ .operate ∈ asked → p'.isSome := by
    intro client a asked p' hretries hasked
    cases hretries with
    | ends => simp at hasked
    | again | pauses => rfl
  cases h with
  | ends => simp at hasked
  | acquires h | executes _ h | repeats _ _ _ _ h | resumes _ _ h => exact hacquires h hasked
  | created _ _ _ h => exact hleases h hasked
  | refused _ _ _ h => exact hretries h hasked
  | givesUp _ _ _ h => exact hretries h (by simpa using hasked)
  | closes | recreates | pauses => rfl

/-- The numbers of the calls that have not ended. -/
def Itinerary.numbers (i : Itinerary) : List TaskNo := i.stops.map (·.1)

theorem Itinerary.numbers_go_some (i : Itinerary) (no : TaskNo) (asked : List Request) (p : Point) :
    (i.go no asked (some p)).numbers = i.numbers := by
  have hmove : ∀ x : TaskNo × Point,
      (if x.1 = no then (some p).map fun p => (no, p.roused) else some x) =
        some (if x.1 = no then (no, p.roused) else x) := by
    intro x
    split <;> rfl
  simp only [numbers, go, hmove, List.filterMap_eq_map', List.map_map]
  refine List.map_congr_left fun x _ => ?_
  by_cases hx : x.1 = no <;> simp [hx]

theorem Itinerary.numbers_go_none (i : Itinerary) (no : TaskNo) (asked : List Request) :
    (i.go no asked none).numbers = i.numbers.filter (· ≠ no) := by
  have hmove : ∀ x : TaskNo × Point,
      (if x.1 = no then (none : Option Point).map fun p => (no, p.roused) else some x) =
        Option.guard (fun x => x.1 ≠ no) x := by
    intro x
    by_cases hx : x.1 = no <;> simp [hx, Option.guard]
  simp only [numbers, go, hmove, List.filterMap_eq_filter, List.filter_map]
  rfl

namespace Engine

/-- The numbers of the calls that have not ended. -/
def numbers (e : Engine ε α) : List TaskNo := e.calls.map (·.no)

/-- The results of executions that were told. -/
def results (e : Engine ε α) : List (TaskNo × Except ε α) := e.signals.filterMap Signal.executed?

theorem numbers_itinerary (e : Engine ε α) : e.itinerary.numbers = e.numbers := by
  rw [Itinerary.numbers, itinerary, List.map_map]
  rfl

theorem results_eq (e : Engine ε α) : e.results = e.course.told.filterMap Signal.executed? :=
  filterMap_signals (fun s hs => by cases s <;> first | rfl | cases hs) e

theorem Settles.results {b e : Engine ε α} (h : Settles b e) : e.results = b.results := by
  obtain ⟨more, hmore, haside⟩ := h.told
  have hnone : more.filterMap Signal.executed? = [] := by
    refine List.filterMap_eq_nil_iff.mpr fun s hs => ?_
    have hs := haside s hs
    cases s <;> first | rfl | cases hs
  rw [results_eq, results_eq, hmore, List.filterMap_append, hnone, List.append_nil]

variable [PooledError ε]

/-- What becomes of the calls in a move. -/
inductive Concludes (c : Setup) (m : Move ε α) (b e : Engine ε α) : Prop
  /-- No call ends, and no result is told. -/
  | goesOn (hnumbers : e.numbers = b.numbers) (hresults : e.results = b.results)
  /-- The call that makes the move ends, and that is told last. -/
  | ends (call : Call) (hmover : Mover m call b) (s : Signal ε α) (hwhy : Says c m call e s)
      (htold : s ∈ e.signals) (hstarts : s.asksFor call.no = false)
      (hnumbers : e.numbers = b.numbers.filter (· ≠ call.no))
      (hresults : e.results = b.results ++ s.executed?.toList)

variable {c : Setup} {b e : Engine ε α} {m : Move ε α}

omit [PooledError ε] in
theorem hasEnded_iff_numbers {no : TaskNo} : e.HasEnded no ↔ no ∉ e.numbers := by
  simp [HasEnded, numbers]

/-- Every call that ends in a move, other than by being dropped, is told its result in that move. -/
theorem conclusion_of_step (hb : b.Orderly) (hsignals : b.signals = []) (hstep : b.step c m = some e)
    (hold : ∀ purpose token, m ≠ .call purpose token) (hkept : ∀ no, m ≠ .abandon no) :
    Concludes c m b e := by
  have houtcome : Outcome c m b e := by
    rcases outcome_of_step hb hstep with ⟨purpose, token, hm, -⟩ | houtcome
    · exact absurd hm (hold purpose token)
    · exact houtcome
  cases houtcome with
  | silent hsettles hstays =>
    rcases hstays with ⟨no, hm⟩ | hcalls
    · exact absurd hm (hkept no)
    · exact .goesOn (Call.map_no_of_identity hcalls) hsettles.results
  | @telling e₀ s call hmover hsettles hsays =>
    have hresults : (e₀.tell s).results = b.results ++ s.executed?.toList := by
      rw [← hsettles.results, results, tell, List.filterMap_append]
      cases hs : s.executed? <;> simp [results, hs]
    have hsays' : Says c m call (e₀.tell s) s := hsays.tell
    have hcall := mem_of_call? hmover.call?
    have hin : call.no ∈ b.numbers := List.mem_map_of_mem hcall.1
    -- where the call waits next tells whether it has ended
    obtain ⟨asked, p, hleg, hi⟩ : ∃ asked p, Leg c b.now m.isAnswer call.point asked p ∧
        (e₀.tell s).itinerary = b.itinerary.go call.no asked p := by
      cases travels_of_step hstep with
      | stays hm _ => rw [hmover.moves] at hm; cases hm
      | comes purpose token hm _ => exact absurd hm (hold purpose token)
      | goes call' hcall' hm asked p hleg hi =>
        have hno : call'.no = call.no := Option.some.inj (hm.symm.trans hmover.moves)
        rw [hno] at hcall' hi
        obtain rfl : call' = call := Option.some.inj (hcall'.symm.trans hmover.call?)
        exact ⟨asked, p, hleg, hi⟩
    cases p with
    | some p =>
      have hnumbers : (e₀.tell s).numbers = b.numbers := by
        rw [← numbers_itinerary, hi, Itinerary.numbers_go_some, numbers_itinerary]
      have hstays : ¬ e₀.HasEnded call.no := fun hended => by
        have : call.no ∉ (e₀.tell s).numbers := hasEnded_iff_numbers.mp hended
        exact this (hnumbers ▸ hin)
      refine .goesOn hnumbers ?_
      rw [hresults]
      cases hsays with
      | createBegun | operationStarted => exact List.append_nil _
      | leased _ hended | refused _ hended | rejected _ _ hended | answered _ _ hended | cancelled hended
        | closed hended => exact absurd hended hstays
    | none =>
      have hnumbers : (e₀.tell s).numbers = b.numbers.filter (· ≠ call.no) := by
        rw [← numbers_itinerary, hi, Itinerary.numbers_go_none, numbers_itinerary]
      refine .ends call hmover s hsays' (List.mem_append_right _ (List.mem_singleton_self s)) ?_
        hnumbers hresults
      -- what is asked for the call would make it wait
      by_contra hasks
      have hrequests : ∀ r, s.request? = some (call.no, r) → r ∈ asked := by
        intro r hr
        have hmem : (call.no, r) ∈ (e₀.tell s).itinerary.requests :=
          List.mem_filterMap.mpr ⟨s, List.mem_append_right _ (List.mem_singleton_self s), hr⟩
        rw [hi] at hmem
        simpa [Itinerary.go, itinerary, hsignals] using hmem
      have hasked : .create ∈ asked ∨ .operate ∈ asked := by
        cases hsays with
        | createBegun => exact Or.inl (hrequests .create rfl)
        | operationStarted => exact Or.inr (hrequests .operate rfl)
        | _ => exact absurd rfl hasks
      cases hleg.isSome_of_asked hasked

/-- An operation that succeeds ends its execution. -/
theorem results_of_succeeded {no : TaskNo} {v : α} (hstep : b.step c (.operated no false (.ok v)) = some e) :
    e.results = b.results ++ [(no, .ok v)] := by
  cases makes_of_step hstep with
  | operated call a k since _ _ hcall hpoint =>
    have hback : (b.giveBack c k.id).results = b.results := by
      rw [results_eq, results_eq, course_giveBack]
    show ((b.giveBack c k.id).finish call.no (.ok v)).results = _
    rw [← hback, results, finish, tell, List.filterMap_append]
    rfl

end Engine

end PooledSessions
