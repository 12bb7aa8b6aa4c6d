import PooledSessions.Proofs.Pool.Allowances
import PooledSessions.Proofs.Pool.Tidings
/-!
# Deadlines of calls

Each move of the pool is taken from the allowance of the call that makes it, and leaves the allowances of
the other calls alone (`Engine.spends_of_step`).  The clock goes on while a call waits, but not past the time
at which the call moves by itself (`Engine.Punctual`): the call moves at that time at the latest.  So along a
run the deadline of a call recedes by no more than the time for which its operation works
(`Engine.spends_of_run`).

So nothing in the pool waits without bound, whatever the server answers, however failures are classified
and whatever else goes on (`Engine.waits_bounded`).
-/

namespace PooledSessions

/-! ## Where a call waits -/

namespace Itinerary

/-- Where a call waits. -/
def stop? (i : Itinerary) (no : TaskNo) : Option Point := (i.stops.find? (·.1 = no)).map (·.2)

theorem stop?_cons (x : TaskNo × Point) (stops : List (TaskNo × Point))
    (requests : List (TaskNo × Request)) (now : Nat) (no : TaskNo) :
    stop? ⟨x :: stops, requests, now⟩ no =
      if x.1 = no then some x.2 else stop? ⟨stops, requests, now⟩ no := by
  by_cases h : x.1 = no <;> simp [stop?, h]

/-- The other calls wait where they waited. -/
theorem stop?_go_of_ne {no no' : TaskNo} (hne : no' ≠ no) (i : Itinerary) (asked : List Request)
    (p : Option Point) : (i.go no' asked p).stop? no = i.stop? no := by
  obtain ⟨stops, requests, now⟩ := i
  induction stops with
  | nil => rfl
  | cons x stops ih =>
    rw [stop?_cons, ← ih]
    by_cases hx : x.1 = no'
    · rw [if_neg (hx ▸ hne)]
      cases p with
      | none => simp [go, hx]
      | some p => simp [go, hx, stop?_cons, hne]
    · simp [go, hx, stop?_cons]

/-- A call that goes a leg waits where the leg ends. -/
theorem stop?_go {i : Itinerary} {no : TaskNo} {q : Point} (h : i.stop? no = some q)
    (asked : List Request) (p : Option Point) : (i.go no asked p).stop? no = p.map Point.roused := by
  obtain ⟨stops, requests, now⟩ := i
  cases p with
  | none =>
    simp only [go, stop?, Option.map_none, Option.map_eq_none_iff, List.find?_eq_none,
      List.mem_filterMap, decide_eq_true_eq]
    rintro y ⟨x, -, hx⟩ hy
    split at hx
    · cases hx
    · rename_i hne
      exact hne (Option.some.inj hx ▸ hy)
  | some p =>
    induction stops with
    | nil => cases h
    | cons x stops ih =>
      by_cases hx : x.1 = no
      · simp [go, hx, stop?_cons]
      · rw [stop?_cons, if_neg hx] at h
        simpa [go, hx, stop?_cons] using ih h

end Itinerary

variable {ε α : Type} {c : Setup} {no : TaskNo}

/-! ## What a point is about when closings are taken for woken -/

@[simp] theorem Point.allowance_roused (c : Setup) (now : Nat) (p : Point) :
    p.roused.allowance c now = p.allowance c now := by
  cases p <;> rfl

@[simp] theorem Point.counts_roused (c : Setup) (p : Point) : p.roused.Counts c ↔ p.Counts c := by
  cases p <;> rfl

/-- Whether a call that waits at the point waits for its operation. -/
def Point.isOperating : Point → Bool
  | .operating .. => true
  | _ => false

/-- As the clock goes on, not past the time at which a call moves, the deadline of the call recedes only if it
waits for its operation. -/
theorem Point.deadline_le {p : Point} (hcounts : p.Counts c) {now millis : Nat}
    (hdue : ∀ due, p.due? c = some due → now + millis ≤ max now due) :
    (p.allowance c (now + millis)).deadline ≤
      (p.allowance c now).deadline + if p.isOperating then millis else 0 := by
  cases p with
  | creating client a since =>
    have hwait := c.createTimeout.waitMillis_le_ceilMillis
    have hdue := hdue _ rfl
    simp only [allowance, Client.failed, isOperating]
    simp
    omega
  | createPause client a wake =>
    have hdue := hdue _ rfl
    simp [allowance, Client.failed, isOperating]
    omega
  | operating a k since =>
    simp [allowance, isOperating]
    omega
  | pausing a wake =>
    have hdue := hdue _ rfl
    simp [allowance, isOperating]
    omega
  | fresh _ | deleting | draining _ | settling => exact hcounts.elim

/-- The time at which a call moves comes before its deadline. -/
theorem Point.due_le_deadline {p : Point} (hcounts : p.Counts c) {now due : Nat}
    (hdue : p.due? c = some due) : max now due ≤ (p.allowance c now).deadline := by
  have hwait := c.createTimeout.waitMillis_le_ceilMillis
  cases p with
  | creating client a since | createPause client a wake | pausing a wake =>
    cases hdue
    simp [allowance, Client.failed]
    omega
  | operating a k since => cases hdue
  | fresh _ | deleting | draining _ | settling => exact hcounts.elim

/-- No leg ends where calls wait that have not been started. -/
theorem Leg.not_fresh {now : Nat} {answered : Bool} {q p : Point} {asked : List Request}
    (h : Leg c now answered q asked (some p)) (purpose : Purpose) : p.roused ≠ .fresh purpose := by
  have hleases : ∀ {client asked}, Leases now client asked (some p) → p.roused ≠ .fresh purpose := by
    rintro _ _ ⟨⟩
    exact nofun
  have hacquires : ∀ {client asked}, Acquires now client asked (some p) → p.roused ≠ .fresh purpose := by
    rintro _ _ (h | _)
    · exact hleases h
    · exact nofun
  have hretries : ∀ {client a asked}, Retries c now client a asked (some p) →
      p.roused ≠ .fresh purpose := by
    rintro _ _ _ (_ | _ | _)
    all_goals exact nofun
  cases h with
  | acquires h | executes _ h | repeats _ _ _ _ h | resumes _ _ h => exact hacquires h
  | created _ _ _ h => exact hleases h
  | refused _ _ _ h | givesUp _ _ _ h => exact hretries h
  | closes _ hp' =>
    cases p with
    | deleting | draining _ | settling => exact nofun
    | fresh _ | creating _ _ _ | createPause _ _ _ | operating _ _ _ | pausing _ _ => cases hp'
  | recreates | pauses => exact nofun

namespace Engine

variable {b e : Engine ε α} {m : Move ε α}

theorem stop?_itinerary (e : Engine ε α) (no : TaskNo) :
    e.itinerary.stop? no = (e.call? no).map fun k => k.point.roused := by
  simp [Itinerary.stop?, itinerary, call?, List.find?_map, Function.comp_def]

/-- What is left for a call. -/
def left (e : Engine ε α) (c : Setup) (no : TaskNo) : Allowance :=
  Point.allowance? c e.now (e.itinerary.stop? no)

/-- How often something was asked for a call. -/
def requested (e : Engine ε α) (no : TaskNo) (r : Request) : Nat := e.itinerary.requests.count (no, r)

/-- Whether a call waits for its operation. -/
def works (e : Engine ε α) (no : TaskNo) : Bool := (e.call? no).any (·.point.isOperating)

/-- Whether the clock does not go past the time at which a call moves. -/
def Awaits (e : Engine ε α) (c : Setup) (no : TaskNo) (m : Move ε α) : Prop :=
  ∀ k ∈ e.call? no, ∀ due ∈ k.point.due? c, e.now + m.millis ≤ max e.now due

instance (e : Engine ε α) (c : Setup) (no : TaskNo) (m : Move ε α) : Decidable (e.Awaits c no m) :=
  inferInstanceAs (Decidable (∀ k ∈ e.call? no, ∀ due ∈ k.point.due? c, e.now + m.millis ≤ max e.now due))

/-- What a call spends of an allowance that it has in the one state, until the other state is reached: some
moves, and time that its operation takes.  The deadline is only kept if the call is punctual. -/
structure Spends (c : Setup) (no : TaskNo) (x : Allowance) (b e : Engine ε α) (moves worked : Nat)
    (punctual : Prop) : Prop where
  /-- The numbers of the attempts are ones that are allowed. -/
  counts : ∀ p, e.itinerary.stop? no = some p → p.Counts c
  /-- The creations that began are taken from it. -/
  creations : e.requested no .create + (e.left c no).creations ≤ b.requested no .create + x.creations
  /-- The starts of the operation are taken from it. -/
  operations : e.requested no .operate + (e.left c no).operations ≤
    b.requested no .operate + x.operations
  /-- The moves are taken from it. -/
  moves : moves + (e.left c no).moves ≤ x.moves
  /-- The deadline recedes only as the operation works. -/
  deadline : punctual → (e.left c no).deadline ≤ x.deadline + worked

/-- What is left in between can be spent afterwards. -/
theorem Spends.trans {x : Allowance} {e₁ : Engine ε α} {moves moves' worked worked' : Nat}
    {punctual punctual' : Prop} (h : Spends c no x b e₁ moves worked punctual)
    (h' : Spends c no (e₁.left c no) e₁ e moves' worked' punctual') :
    Spends c no x b e (moves + moves') (worked + worked') (punctual ∧ punctual') where
  counts := h'.counts
  creations := h'.creations.trans h.creations
  operations := h'.operations.trans h.operations
  moves := by
    have := h.moves
    have := h'.moves
    omega
  deadline := fun hpunctual => by
    have := h.deadline hpunctual.1
    have := h'.deadline hpunctual.2
    omega

/-! ## One move -/

/-- A call that has asked for something on a leg has spent it. -/
theorem spends_of_go {x : Allowance} {q : Point} {asked : List Request} {p : Option Point}
    (hstop : b.itinerary.stop? no = some q) (h : Affords c b.now x asked p)
    (hi : e.itinerary = b.itinerary.go no asked p) (punctual : Prop) :
    Spends c no x b e 1 0 punctual := by
  have hinjective : Function.Injective fun r : Request => (no, r) := fun r r' hr => (Prod.mk.inj hr).2
  have hrequested : ∀ r, e.requested no r = b.requested no r + asked.count r := by
    intro r
    rw [requested, hi]
    simp only [Itinerary.go, List.count_append, List.count_map_of_injective _ _ hinjective]
    rfl
  have hend : e.itinerary.stop? no = p.map Point.roused := by rw [hi, Itinerary.stop?_go hstop]
  have hnow : e.now = b.now := congrArg Itinerary.now hi
  have hleft : e.left c no = Point.allowance? c b.now p := by
    rw [left, hend, hnow]
    cases p <;> simp [Point.allowance?]
  have hcovers := h.covers
  rw [← hleft] at hcovers
  refine ⟨fun q hq => ?_, ?_, ?_, hcovers.moves, fun _ => hcovers.deadline⟩
  · rw [hend] at hq
    obtain ⟨q', hq', rfl⟩ := Option.map_eq_some_iff.mp hq
    exact (Point.counts_roused c q').mpr (h.counts q' hq')
  · have := hcovers.creations
    rw [hrequested]
    omega
  · have := hcovers.operations
    rw [hrequested]
    omega

/-- A call that does not move asks for nothing, and its deadline recedes only as its operation works. -/
theorem spends_of_rest (hstop : e.itinerary.stop? no = b.itinerary.stop? no)
    (hrequested : ∀ r, e.requested no r = b.requested no r) (hnow : e.now = b.now + m.millis)
    (hcounts : ∀ p, b.itinerary.stop? no = some p → p.Counts c) :
    Spends c no (b.left c no) b e 0 (if b.works no then m.millis else 0) (b.Awaits c no m) := by
  have hstop' := stop?_itinerary b no
  cases hcall : b.call? no with
  | none =>
    have hnone : ∀ now, Point.allowance? c now (b.itinerary.stop? no) = ⟨0, 0, 0, 0⟩ := by
      intro now
      rw [hstop', hcall]
      rfl
    refine ⟨hstop ▸ hcounts, ?_, ?_, ?_, fun _ => ?_⟩
    all_goals simp [left, hstop, hnone, hrequested]
  | some k =>
    rw [hcall] at hstop'
    have hpoint := (Point.counts_roused c k.point).mp (hcounts _ hstop')
    have hsame : ∀ now, Point.allowance? c now (b.itinerary.stop? no) = k.point.allowance c now := by
      intro now
      rw [hstop']
      exact Point.allowance_roused c now k.point
    have hworks : b.works no = k.point.isOperating := by rw [works, hcall]; rfl
    -- only the deadline depends on what the clock shows
    have hfree : ∀ now now', (k.point.allowance c now).creations = (k.point.allowance c now').creations ∧
        (k.point.allowance c now).operations = (k.point.allowance c now').operations ∧
        (k.point.allowance c now).moves = (k.point.allowance c now').moves := by
      intro now now'
      cases k.point <;> simp only [Point.allowance, Client.failed, and_self]
    obtain ⟨hcreations, hoperations, hmoves⟩ := hfree e.now b.now
    refine ⟨hstop ▸ hcounts, ?_, ?_, ?_, fun hawaits => ?_⟩
    all_goals simp only [left, hstop, hsame, hrequested]
    · rw [hcreations]
    · rw [hoperations]
    · rw [Nat.zero_add, hmoves]
    · rw [hnow, hworks]
      exact Point.deadline_le hpoint (hawaits k hcall)

variable [PooledError ε]

/-- Each move is taken from the allowance of the call that makes it, if that has been started, and leaves
the others alone. -/
theorem spends_of_step (hno : no < b.nextNo)
    (hcounts : ∀ p, b.itinerary.stop? no = some p → p.Counts c) (hstep : b.step c m = some e) :
    Spends c no (b.left c no) b e (if m.call? = some no then 1 else 0)
      (if b.works no then m.millis else 0) (b.Awaits c no m) := by
  cases travels_of_step hstep with
  | stays hm hi =>
    rw [if_neg (by rw [hm]; exact nofun)]
    refine spends_of_rest ?_ (fun r => ?_) (congrArg Itinerary.now hi) hcounts
    · rw [hi]
      rfl
    · rw [requested, hi]
      rfl
  | comes purpose token hm hi =>
    subst hm
    have hnew : b.nextNo ≠ no := Nat.ne_of_gt hno
    refine spends_of_rest ?_ (fun r => ?_) (congrArg Itinerary.now hi) hcounts
    · rw [hi]
      simp [Itinerary.stop?, List.find?_append, hnew]
    · rw [requested, hi]
      rfl
  | goes call hcall hm asked p hleg hi =>
    have hmillis : m.millis = 0 := by cases m <;> first | rfl | cases hm
    by_cases hsame : call.no = no
    · subst hsame
      have hstop : b.itinerary.stop? call.no = some call.point.roused := by
        rw [stop?_itinerary, hcall]
        rfl
      have hleft : b.left c call.no = call.point.allowance c b.now := by
        rw [left, hstop]
        exact Point.allowance_roused c b.now call.point
      rw [if_pos hm, hmillis, ite_self, hleft]
      have haffords := hleg.affords ((Point.counts_roused c _).mp (hcounts _ hstop))
      exact spends_of_go hstop haffords hi _
    · rw [if_neg fun h => hsame (Option.some.inj (hm.symm.trans h))]
      refine spends_of_rest ?_ (fun r => ?_) ?_ hcounts
      · rw [hi, Itinerary.stop?_go_of_ne hsame]
      -- what another call asks for is not asked for this one
      · have hnone : (asked.map fun r => (call.no, r)).count (no, r) = 0 :=
          List.count_eq_zero.mpr (by simp [hsame])
        rw [requested, hi]
        simp only [Itinerary.go, List.count_append, hnone]
        rfl
      · rw [hmillis, Nat.add_zero]
        exact congrArg Itinerary.now hi

/-! ## Runs -/

variable {xs : List (Bool × Move ε α)}

/-- For how long a call waits for its operation along a run. -/
def worked (c : Setup) (no : TaskNo) : Engine ε α → List (Bool × Move ε α) → Nat
  | _, [] => 0
  | e, x :: xs => (if e.works no then x.2.millis else 0) + (e.stepAt c x).elim 0 fun e => worked c no e xs

/-- Whether the clock never goes past the time at which a call moves. -/
def Punctual (c : Setup) (no : TaskNo) : Engine ε α → List (Bool × Move ε α) → Prop
  | _, [] => True
  | e, x :: xs => e.Awaits c no x.2 ∧ ∀ e' ∈ e.stepAt c x, Punctual c no e' xs

instance decidablePunctual (c : Setup) (no : TaskNo) :
    (e : Engine ε α) → (xs : List (Bool × Move ε α)) → Decidable (Punctual c no e xs)
  | _, [] => inferInstanceAs (Decidable True)
  | e, x :: xs =>
    have := fun e' => decidablePunctual c no e' xs
    inferInstanceAs (Decidable (e.Awaits c no x.2 ∧ ∀ e' ∈ e.stepAt c x, Punctual c no e' xs))

/-- Along a run a call that has been started spends what is left for it. -/
theorem spends_of_run (hno : no < b.nextNo)
    (hcounts : ∀ p, b.itinerary.stop? no = some p → p.Counts c) (hrun : b.run c xs = some e) :
    Spends c no (b.left c no) b e (xs.countP (·.2.call? = some no)) (worked c no b xs)
      (Punctual c no b xs) := by
  induction xs generalizing b with
  | nil =>
    cases hrun
    exact ⟨hcounts, Nat.le_refl _, Nat.le_refl _, (Nat.zero_add _).le, fun _ => Nat.le_refl _⟩
  | cons x xs ih =>
    obtain ⟨b₁, hstep, hrest⟩ := Option.bind_eq_some_iff.mp hrun
    have hfirst := spends_of_step (b := { b with background := x.1 }) hno hcounts hstep
    have hlater := ih (hno.trans_le (le_of_step hstep).1) hfirst.counts hrest
    have hboth := hfirst.trans hlater
    refine { hboth with moves := ?_, deadline := fun hpunctual => ?_ }
    · simp only [List.countP_cons, decide_eq_true_eq]
      rw [Nat.add_comm (List.countP _ xs)]
      exact hboth.moves
    · rw [worked, hstep]
      exact hboth.deadline ⟨hpunctual.1, hpunctual.2 b₁ hstep⟩

/-- What is asked for is asked for calls that have been started. -/
def AsksStarted (e : Engine ε α) : Prop :=
  ∀ x ∈ e.itinerary.requests, x.1 < e.nextNo ∧ ∀ purpose, (x.1, .fresh purpose) ∉ e.itinerary.stops

theorem asksStarted_of_step (hb : b.Orderly) (h : b.AsksStarted) (hstep : b.step c m = some e) :
    e.AsksStarted := by
  intro x hx
  have hnext := (le_of_step hstep).1
  have hold : x ∈ b.itinerary.requests → x.1 < e.nextNo := fun hx => (h x hx).1.trans_le hnext
  cases travels_of_step hstep with
  | stays hm hi =>
    rw [hi] at hx ⊢
    exact ⟨hold hx, (h x hx).2⟩
  | comes purpose token hm hi =>
    rw [hi] at hx ⊢
    refine ⟨hold hx, fun purpose' hin => ?_⟩
    rcases List.mem_append.mp hin with hin | hin
    · exact (h x hx).2 purpose' hin
    · exact absurd (congrArg Prod.fst (List.mem_singleton.mp hin)) (Nat.ne_of_lt (h x hx).1)
  | goes call hcall hm asked p hleg hi =>
    have hmover := hb.no_lt call (mem_of_call? hcall).1
    rw [hi] at hx ⊢
    -- the call that moves has been started then
    have hstarted : ∀ purpose, (call.no, .fresh purpose) ∉ (b.itinerary.go call.no asked p).stops := by
      intro purpose hin
      obtain ⟨y, -, hy⟩ := List.mem_filterMap.mp hin
      split at hy
      · obtain ⟨q, rfl, hq⟩ := Option.map_eq_some_iff.mp hy
        exact hleg.not_fresh purpose (congrArg Prod.snd hq)
      · rename_i hne
        exact hne (congrArg Prod.fst (Option.some.inj hy))
    rcases List.mem_append.mp hx with hx | hx
    · refine ⟨hold hx, fun purpose hin => ?_⟩
      by_cases hsame : x.1 = call.no
      · exact hstarted purpose (hsame ▸ hin)
      · obtain ⟨y, hy, hnext⟩ := List.mem_filterMap.mp hin
        split at hnext
        · obtain ⟨q, -, hq⟩ := Option.map_eq_some_iff.mp hnext
          exact hsame (congrArg Prod.fst hq).symm
        · exact (h x hx).2 purpose (Option.some.inj hnext ▸ hy)
    · obtain ⟨r, -, rfl⟩ := List.mem_map.mp hx
      exact ⟨hmover.trans_le hnext, hstarted⟩

theorem asksStarted_of_run (hb : b.Orderly) (h : b.AsksStarted) (hrun : b.run c xs = some e) :
    e.AsksStarted := by
  refine (holds_of_run (P := fun u => u.Orderly ∧ u.AsksStarted) (fun {u e x} hstep ⟨hu, hasks⟩ => ?_) hrun
    ⟨hb, h⟩).2
  have hplace := hu.withBackground x.1
  exact ⟨orderly_of_step hplace hstep,
    asksStarted_of_step (b := { u with background := x.1 }) hplace hasks hstep⟩

/-- Nothing has been asked for a call that has not been started. -/
theorem requested_of_fresh {g : Generator} (hrun : (fresh g).run c xs = some b) {call : Call}
    (hcall : b.call? call.no = some call) {purpose : Purpose} (hpoint : call.point = .fresh purpose)
    (r : Request) : b.requested call.no r = 0 := by
  have hstarted := asksStarted_of_run (orderly_fresh g) (fun x hx => by cases hx) hrun
  refine List.count_eq_zero.mpr fun hin => (hstarted _ hin).2 purpose ?_
  refine List.mem_map.mpr ⟨call, (mem_of_call? hcall).1, ?_⟩
  rw [hpoint]
  rfl

/-- From its start on a call spends what a call of its kind may do. -/
theorem spends_of_start {g : Generator} (hrun : (fresh g).run c xs = some b) {call : Call}
    (hcall : b.call? call.no = some call) {purpose : Purpose} (hpoint : call.point = .fresh purpose)
    (hpurpose : purpose ≠ .closing) {place : Bool} {ys zs : List (Bool × Move ε α)}
    (hzs : zs = (place, .start call.no) :: ys) (hlater : b.run c zs = some e) :
    Spends c call.no (purpose.allowance c b.now) b e (zs.countP (·.2.call? = some call.no))
      (worked c call.no b zs) (Punctual c call.no b zs) := by
  subst hzs
  obtain ⟨b₁, hstep, hrest⟩ := Option.bind_eq_some_iff.mp hlater
  have hb := orderly_of_run (orderly_fresh g) hrun
  have hno : call.no < b₁.nextNo := (hb.no_lt call (mem_of_call? hcall).1).trans_le (le_of_step hstep).1
  have hstop : b.itinerary.stop? call.no = some (.fresh purpose) := by
    rw [stop?_itinerary, hcall, Option.map_some, hpoint]
    rfl
  have hfirst : Spends c call.no (purpose.allowance c b.now) b b₁ 1 0 True := by
    cases travels_of_step hstep with
    | stays hm hi => cases hm
    | comes purpose token hm hi => cases hm
    | goes call' hcall' hm asked p hleg hi =>
      obtain hsame : call.no = call'.no := Option.some.inj hm
      have hcall'' : b.call? call'.no = some call' := hcall'
      rw [← hsame, hcall] at hcall''
      obtain rfl := Option.some.inj hcall''
      rw [hpoint] at hleg
      exact spends_of_go hstop (hleg.affords_of_fresh hpurpose) hi True
  -- the first move spends from the allowance of the whole call; the others spend what is left
  have hboth := hfirst.trans (spends_of_run hno hfirst.counts hrest)
  have hworked : worked c call.no b ((place, .start call.no) :: ys) = 0 + worked c call.no b₁ ys := by
    rw [worked, hstep]
    exact congrArg (· + _) (ite_self 0)
  rw [hworked, List.countP_cons_of_pos (by simp [Move.call?]), Nat.add_comm (List.countP _ ys)]
  exact { hboth with deadline := fun hpunctual => hboth.deadline ⟨trivial, hpunctual.2 b₁ hstep⟩ }

/-! ## Deadlines -/

/-- A call goes on by a time: the clock need not go further for the call to make a move. -/
def GoesOnBy (e : Engine ε α) (c : Setup) (no : TaskNo) (deadline : Nat) : Prop :=
  ∃ millis m, e.now + millis ≤ deadline ∧ m.call? = some no ∧
    (e.run c [(true, .advance millis), (true, m)]).isSome

/-- When the time has come at which a call moves, it makes a move. -/
theorem exists_step_of_due {call : Call} (hcall : e.call? no = some call) {due : Nat}
    (hdue : call.point.due? c = some due) (hnow : due ≤ e.now) :
    ∃ m : Move ε α, m.call? = some no ∧ (e.step c m).isSome := by
  -- a call that has been cancelled sees that before anything else
  cases hgone : e.isCancelled call.token with
  | true =>
    refine ⟨.noticed no, rfl, ?_⟩
    cases hpoint : call.point with
    | creating _ _ _ | createPause _ _ _ | pausing _ _ => simp [step, hcall, hgone, noticed, hpoint]
    | operating _ _ _ | fresh _ | deleting | draining _ | settling =>
      rw [hpoint] at hdue
      cases hdue
  | false =>
    cases hpoint : call.point with
    | creating client a since =>
      rw [hpoint] at hdue
      have hover : ¬ e.now < since + c.createTimeout.waitMillis := (Option.some.inj hdue ▸ hnow).not_gt
      exact ⟨.createExpired no, rfl, by simp [step, hcall, hgone, hpoint, hover]⟩
    | createPause client a wake | pausing a wake =>
      rw [hpoint] at hdue
      have hover : wake ≤ e.now := Option.some.inj hdue ▸ hnow
      exact ⟨.woken no, rfl, by simp [step, hcall, hgone, woken, hpoint, hover]⟩
    | operating _ _ _ | fresh _ | deleting | draining _ | settling =>
      rw [hpoint] at hdue
      cases hdue

/-- The clock need not go further than to the time at which a call moves. -/
theorem goesOnBy_of_due {call : Call} (hcall : e.call? no = some call) {due : Nat}
    (hdue : call.point.due? c = some due) : e.GoesOnBy c no (max e.now due) := by
  have hend : e.now + (due - e.now) = max e.now due := by omega
  have hnow : due ≤ e.now + (due - e.now) := by omega
  obtain ⟨m, hm, hstep⟩ := exists_step_of_due
    (e := { e with background := true, now := e.now + (due - e.now) }) hcall hdue hnow
  obtain ⟨e', he'⟩ := Option.isSome_iff_exists.mp hstep
  refine ⟨due - e.now, m, hend.le, hm, ?_⟩
  have hadvance : e.run c [(true, .advance (due - e.now)), (true, m)] =
      (({ e with background := true, now := e.now + (due - e.now) } : Engine ε α).step c m).bind some := rfl
  rw [hadvance, he']
  rfl

/-- A call that has been started is not past its deadline, and goes on by then if its operation does not
work. -/
theorem goesOnBy_of_counts {call : Call} (hcall : e.call? no = some call) (hcounts : call.point.Counts c) :
    e.now ≤ (call.point.allowance c e.now).deadline ∧
      (e.works no = true ∨ e.GoesOnBy c no (call.point.allowance c e.now).deadline) := by
  cases hdue : call.point.due? c with
  | some due =>
    have hle : max e.now due ≤ _ := Point.due_le_deadline hcounts hdue
    obtain ⟨millis, m, hmillis, hm, hrun⟩ := goesOnBy_of_due hcall hdue
    exact ⟨(Nat.le_max_left _ _).trans hle, Or.inr ⟨millis, m, hmillis.trans hle, hm, hrun⟩⟩
  | none =>
    cases hpoint : call.point with
    | operating a k since =>
      refine ⟨Nat.le_add_right _ _, Or.inl ?_⟩
      rw [works, hcall, Option.any_some, hpoint]
      rfl
    | creating _ _ _ | createPause _ _ _ | pausing _ _ =>
      rw [hpoint] at hdue
      cases hdue
    | fresh _ | deleting | draining _ | settling =>
      rw [hpoint] at hcounts
      exact hcounts.elim

/-- A call that has been started ends by its deadline, as long as it is punctual, and its operation does not
work. -/
theorem ends_or_goesOnBy {x : Allowance} {moves millis : Nat} {punctual : Prop}
    (h : Spends c no x b e moves millis punctual) (hpunctual : punctual) :
    e.call? no = none ∨ e.now ≤ x.deadline + millis ∧
      (e.works no = true ∨ e.GoesOnBy c no (x.deadline + millis)) := by
  cases hcall : e.call? no with
  | none => exact Or.inl rfl
  | some call =>
    have hstop : e.itinerary.stop? no = some call.point.roused := by
      rw [stop?_itinerary, hcall]
      rfl
    have hdeadline := h.deadline hpunctual
    rw [left, hstop, show Point.allowance? c e.now (some call.point.roused) =
      call.point.allowance c e.now from Point.allowance_roused c e.now call.point] at hdeadline
    obtain ⟨hnow, hgoes⟩ := goesOnBy_of_counts hcall ((Point.counts_roused c _).mp (h.counts _ hstop))
    refine Or.inr ⟨hnow.trans hdeadline, hgoes.imp_right ?_⟩
    rintro ⟨millis, m, hmillis, hm, hrun⟩
    exact ⟨millis, m, hmillis.trans hdeadline, hm, hrun⟩

/-- The number has been given to a call for a lease, which may have ended. -/
structure Leasing (no : TaskNo) (e : Engine ε α) : Prop where
  /-- The number has been given away. -/
  no_lt : no < e.nextNo
  /-- The call of that number is for a lease. -/
  purpose : ∀ k ∈ e.calls, k.no = no → k.point.purpose = .lease

omit [PooledError ε] in
theorem Leasing.works (h : e.Leasing no) : e.works no = false := by
  rw [Engine.works, Option.any_eq_false]
  intro k hk
  obtain ⟨hin, hno⟩ := mem_of_call? hk
  have hpurpose := h.purpose k hin hno
  cases hpoint : k.point with
  | operating a k since =>
    rw [hpoint] at hpurpose
    cases hpurpose
  | _ => rfl

theorem leasing_of_step (hb : b.Orderly) (h : b.Leasing no) (hstep : b.step c m = some e) :
    e.Leasing no := by
  refine ⟨h.no_lt.trans_le (le_of_step hstep).1, fun k hk hno => ?_⟩
  rcases identity_of_step hb hstep hk with ⟨k₀, hk₀, hsame⟩ | ⟨hnew, -⟩
  · simp only [Call.identity, Prod.mk.injEq] at hsame
    rw [← hsame.2.2]
    exact h.purpose k₀ hk₀ (hsame.1.trans hno)
  · exact absurd (hno.symm.trans hnew) (Nat.ne_of_lt h.no_lt)

/-- A call for a lease never waits for an operation. -/
theorem works_of_leasing (hb : b.Orderly) (h : b.Leasing no) (hrun : b.run c xs = some e) :
    worked c no b xs = 0 ∧ e.works no = false := by
  induction xs generalizing b with
  | nil =>
    cases hrun
    exact ⟨rfl, h.works⟩
  | cons x xs ih =>
    obtain ⟨b₁, hstep, hrest⟩ := Option.bind_eq_some_iff.mp hrun
    have hplace := hb.withBackground x.1
    obtain ⟨hworked, hworks⟩ := ih (orderly_of_step hplace hstep)
      (leasing_of_step hplace ⟨h.no_lt, h.purpose⟩ hstep) hrest
    refine ⟨?_, hworks⟩
    rw [worked, hstep, h.works, if_neg Bool.false_ne_true, Option.elim_some, hworked]

/-- Nothing in the pool waits without bound.  From its start on a call for a lease begins at most as many
creations as the policy for creations allows attempts, and makes at most two moves for each.  As long as it
is punctual it ends within the time limits of all these creations and the longest delays between them: by
then it has ended, and as long as it has not it goes on by then.

An execution starts its operation at most as often as the policy for operations allows attempts, and for each
of them it begins at most as many creations as a call for a lease.  It ends within the time its operation
takes, that of all these acquisitions, and the longest delays between the attempts. -/
theorem waits_bounded (c : Setup) (g : Generator) (xs ys zs : List (Bool × Move ε α)) (b e : Engine ε α)
    (place : Bool) (call : Call) (hrun : (fresh g).run c xs = some b)
    (hcall : b.call? call.no = some call) (hzs : zs = (place, .start call.no) :: ys)
    (hlater : b.run c zs = some e) :
    let creations := c.creation.policy.maxAttempts
    let attempts := c.operations.policy.maxAttempts
    let acquisition := creations * c.createTimeout.ceilMillis +
      (creations - 1) * c.creation.policy.longestDelay
    let moves := zs.countP (·.2.call? = some call.no)
    (call.point = .fresh .lease →
      e.requested call.no .create ≤ creations ∧
      moves ≤ 2 * creations ∧
      (Punctual c call.no b zs → e.call? call.no = none ∨
        e.now ≤ b.now + acquisition ∧ e.GoesOnBy c call.no (b.now + acquisition))) ∧
    ∀ idempotent, call.point = .fresh (.operation idempotent) →
      let time := worked c call.no b zs + attempts * acquisition +
        (attempts - 1) * c.operations.policy.longestDelay
      e.requested call.no .operate ≤ attempts ∧
      e.requested call.no .create ≤ attempts * creations ∧
      moves ≤ attempts * (2 * creations + 1) ∧
      (Punctual c call.no b zs → e.call? call.no = none ∨ e.now ≤ b.now + time ∧
        (e.works call.no = true ∨ e.GoesOnBy c call.no (b.now + time))) := by
  intro creations attempts acquisition moves
  have hb := orderly_of_run (orderly_fresh g) hrun
  have hmem := (mem_of_call? hcall).1
  refine ⟨fun hpoint => ?_, fun idempotent hpoint => ?_⟩
  · have hspends := spends_of_start hrun hcall hpoint nofun hzs hlater
    -- a call for a lease has no operation, so nothing is to be added for its work
    have hleasing : b.Leasing call.no := by
      refine ⟨hb.no_lt call hmem, fun k hk hno => ?_⟩
      rw [List.inj_on_of_nodup_map hb.nodup hk hmem hno, hpoint]
      rfl
    obtain ⟨hworked, hworks⟩ := works_of_leasing hb hleasing hlater
    have hcreations := hspends.creations
    have hmoves := hspends.moves
    rw [requested_of_fresh hrun hcall hpoint, Nat.zero_add] at hcreations
    refine ⟨(Nat.le_add_right _ _).trans hcreations, (Nat.le_add_right _ _).trans hmoves,
      fun hpunctual => ?_⟩
    refine (ends_or_goesOnBy hspends hpunctual).imp_right ?_
    rw [hworked, Nat.add_zero, Purpose.deadline_lease, hworks]
    exact fun h => ⟨h.1, h.2.resolve_left Bool.false_ne_true⟩
  · have hspends := spends_of_start hrun hcall hpoint nofun hzs hlater
    have hcreations := hspends.creations
    have hoperations := hspends.operations
    have hmoves := hspends.moves
    rw [requested_of_fresh hrun hcall hpoint, Nat.zero_add] at hcreations hoperations
    refine ⟨(Nat.le_add_right _ _).trans hoperations, (Nat.le_add_right _ _).trans hcreations,
      (Nat.le_add_right _ _).trans hmoves, fun hpunctual => ?_⟩
    have hends := ends_or_goesOnBy hspends hpunctual
    -- the time that the operation works is not bounded by the pool, so it is added apart
    rw [Purpose.deadline_operation, Nat.add_assoc, Nat.add_comm _ (worked c call.no b zs),
      ← Nat.add_assoc (worked c call.no b zs)] at hends
    exact hends

/-- The server takes its time to create a session for an execution, whose operation then works. -/
def slowExecution : List (Bool × Move DriverError Int) :=
  [(true, .start 0), (true, .advance 40), (true, .created 0 (.ok ⟨⟨"a"⟩, 1⟩)), (true, .advance 700)]

/-- The execution has begun a creation and started its operation, and its deadline has receded by the time
for which the operation has worked. -/
theorem waits_bounded_of_slowExecution :
    ∃ b e, (fresh ⟨1⟩).run (.ofConfig {} .standard none) [(true, .call (.operation true) (.unnamed 0))] =
        some b ∧
      b.run (.ofConfig {} .standard none) slowExecution = some e ∧
      e.requested 0 .operate ≤ 10 ∧ e.requested 0 .create ≤ 30 ∧
      worked (.ofConfig {} .standard none) 0 b slowExecution = 700 ∧ e.now ≤ 445700 := by
  have hbounds : ∀ b e, (fresh ⟨1⟩).run (.ofConfig {} .standard none)
        [(true, .call (.operation true) (.unnamed 0))] = some b →
      b.run (.ofConfig {} .standard none) slowExecution = some e →
      b.call? 0 = some ⟨0, .unnamed 0, 0, .fresh (.operation true)⟩ → b.now = 0 →
      worked (.ofConfig {} .standard none) 0 b slowExecution = 700 →
      Punctual (.ofConfig {} .standard none) 0 b slowExecution → (e.call? 0).isSome →
      e.requested 0 .operate ≤ 10 ∧ e.requested 0 .create ≤ 30 ∧ e.now ≤ 445700 := by
    intro b e hrun hlater hcall hnow hworked hpunctual hwaits
    have hbounds := (waits_bounded (.ofConfig {} .standard none) ⟨1⟩ _ _ slowExecution b e true
      ⟨0, .unnamed 0, 0, .fresh (.operation true)⟩ hrun hcall rfl hlater).2 true rfl
    dsimp only at hbounds
    rw [hnow, hworked] at hbounds
    refine ⟨hbounds.1.trans (by decide), hbounds.2.1.trans (by decide), ?_⟩
    rcases hbounds.2.2.2 hpunctual with hended | ⟨hnow, -⟩
    · rw [hended] at hwaits
      cases hwaits
    · exact hnow.trans (by decide)
  obtain ⟨hoperations, hcreations, hnow⟩ := hbounds _ _ rfl rfl rfl rfl rfl (by decide) rfl
  exact ⟨_, _, rfl, rfl, hoperations, hcreations, rfl, hnow⟩

end Engine

end PooledSessions
