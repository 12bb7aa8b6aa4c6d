import PooledSessions.Proofs.Pool.Conclusions
import PooledSessions.Proofs.Pool.Watches
/-!
# What is left to do

A call whose creations all succeed has only so many moves to make: its policy limits the attempts, and on
each of them it creates a session at most once.  With a session comes a monitor, which attaches to it and
listens until it ends.  Weights for the points where calls wait and for the watches of monitors
(`Point.effort`, `Watch.effort`) are chosen so that their sum goes down in every move that is made
(`Engine.effort_of_leg`), also when a session is created that has to be watched and deleted.
-/

namespace PooledSessions

variable {ε α : Type}

/-- How many attempts may follow on one. -/
def Policy.left (p : Policy) (a : Attempt) : Nat := p.maxAttempts - a.number

theorem Policy.left_next {p : Policy} {a : Attempt} (ha : a.number < p.maxAttempts) :
    p.left a.next + 1 = p.left a := by
  have hle := p.maxAttempts_le
  rw [left, left, Attempt.next_number]
  omega

/-- A bound on the moves of a call that waits for a session for one of its attempts, together with those of
the sessions it may have created. -/
def Client.effort (p : Policy) : Client → Nat
  | .caller => 0
  | .attempt a => 7 * p.left a + 6

/-- A bound on the moves of a call that waits at the point, together with those of the sessions it may
have created. -/
def Point.effort (p : Policy) : Point → Nat
  | .fresh .lease => 0
  | .fresh (.operation idempotent) => (Client.attempt (.first idempotent)).effort p + 1
  | .fresh .closing => 4
  | .creating client _ _ => client.effort p
  | .createPause client _ _ => client.effort p + 1
  | .operating a _ _ => 7 * p.left a + 1
  | .pausing a _ => (Client.attempt a.next).effort p + 1
  | .deleting => 3
  | .draining _ => 2
  | .settling => 1

/-- A bound on the moves of a call, which may have ended. -/
def Point.effort? (p : Policy) (point : Option Point) : Nat := point.elim 0 (Point.effort p)

/-- A bound on the moves of a monitor, together with the reading of the message that awaits it when it
has attached. -/
def Watch.effort : Watch → Nat
  | .attaching => 3
  | .listening _ => 1

@[simp] theorem Point.effort_roused (policy : Policy) (p : Point) : p.roused.effort policy = p.effort policy := by
  cases p <;> rfl

/-! ## The legs of a call -/

section Legs

variable {c : Setup} {now : Nat} {p : Point} {asked : List Request} {p' : Option Point}

/-- A session that was created for an attempt leaves enough to watch over it and to delete it. -/
theorem Leases.effort_lt {a : Attempt} (h : Leases now (.attempt a) asked p') (policy : Policy) :
    Point.effort? policy p' + 5 ≤ (Client.attempt a).effort policy := by
  cases h with
  | ends => exact Nat.le_add_left 5 _ |>.trans (Nat.le_add_left _ _)
  | operates => exact Nat.le_refl _

theorem Acquires.effort_le {a : Attempt} (h : Acquires now (.attempt a) asked p') (policy : Policy) :
    Point.effort? policy p' ≤ (Client.attempt a).effort policy := by
  cases h with
  | leases h => exact (Nat.le_add_right _ 5).trans (h.effort_lt policy)
  | creates => exact Nat.le_refl _

/-- An execution that does not wait for the server goes on to less, and so does a closing that begins. -/
theorem Leg.effort_lt (h : Leg c now false p asked p') (hp : p.executes = true ∨ p = .fresh .closing)
    (hcreating : p.isCreating = false) :
    Point.effort? c.operations.policy p' < p.effort c.operations.policy := by
  cases h with
  | ends =>
    rcases hp with hp | rfl
    · cases p with
      | fresh purpose =>
        cases purpose with
        | operation => exact Nat.succ_pos _
        | lease | closing => cases hp
      | creating => cases hcreating
      | createPause | operating | pausing => exact Nat.succ_pos _
      | deleting | draining | settling => cases hp
    · exact Nat.succ_pos 3
  | acquires => rcases hp with hp | hp <;> cases hp
  | executes _ h | resumes _ _ h => exact Nat.lt_succ_of_le (h.effort_le _)
  | @closes _ p' hfrom hto =>
    rcases hfrom with rfl | hcloses
    · cases p' with
      | deleting | draining | settling => simp [Point.effort?, Point.effort]
      | _ => cases hto
    · rcases hp with hp | rfl
      · cases p with
        | deleting | draining | settling => cases hp
        | _ => cases hcloses
      · cases hcloses
  | givesUp => cases hcreating
  | recreates => exact Nat.lt_succ_self _
  | repeats a k since ha h =>
    -- the next attempt is worth less than the one that has failed, by the cost of an attempt
    have hle := h.effort_le c.operations.policy
    have hleft := Policy.left_next ha
    simp only [Client.effort, Point.effort] at hle ⊢
    omega
  | pauses a k since ha wake =>
    have hleft := Policy.left_next ha
    simp only [Point.effort?, Option.elim_some, Client.effort, Point.effort]
    omega

end Legs

/-! ## The pool -/

/-- A bound on the moves of the calls. -/
def Itinerary.effort (policy : Policy) (i : Itinerary) : Nat := (i.stops.map (·.2.effort policy)).sum

/-- When a call goes a leg, what is left to do changes for this call only. -/
theorem Itinerary.effort_go (policy : Policy) {i : Itinerary} {no : TaskNo} {p : Point}
    (hnd : (i.stops.map (·.1)).Nodup) (hin : (no, p.roused) ∈ i.stops) (asked : List Request)
    (p' : Option Point) :
    ∃ n, i.effort policy = n + p.effort policy ∧
      (i.go no asked p').effort policy = n + Point.effort? policy p' := by
  refine ⟨((i.others no).map (·.2.effort policy)).sum, ?_, ?_⟩
  · rw [effort, ((perm_stops hnd hin).map _).sum_eq, List.map_cons, List.sum_cons, Nat.add_comm,
      Point.effort_roused]
  · rw [effort, ((perm_go hnd hin asked p').map _).sum_eq, List.map_append, List.sum_append, Nat.add_comm]
    cases p' with
    | none => rfl
    | some p' => simp [Point.effort?]

namespace Engine

/-- A bound on the moves of the monitors. -/
def watching (e : Engine ε α) : Nat := (e.monitors.map (·.watch.effort)).sum

/-- A bound on the moves of the calls and monitors. -/
def effort (policy : Policy) (e : Engine ε α) : Nat := e.itinerary.effort policy + e.watching

variable {c : Setup} {b e : Engine ε α} {m : Move ε α} {policy : Policy}

theorem stops_nodup (hb : b.Orderly) : (b.itinerary.stops.map (·.1)).Nodup := by
  show b.itinerary.numbers.Nodup
  rw [numbers_itinerary]
  exact hb.nodup

theorem mem_stops {call : Call} (hcall : call ∈ b.calls) :
    (call.no, call.point.roused) ∈ b.itinerary.stops :=
  List.mem_map_of_mem (f := fun k : Call => (k.no, k.point.roused)) hcall

/-- Among fewer monitors there is less to do. -/
theorem watching_le_of_subset {ks js : List Monitor} (hsub : ks ⊆ js) (hnd : ks.Nodup) :
    (ks.map (·.watch.effort)).sum ≤ (js.map (·.watch.effort)).sum := by
  obtain ⟨l, hperm, hsublist⟩ := hnd.subperm hsub
  rw [← (hperm.map _).sum_eq]
  exact (hsublist.map _).sum_le_sum fun _ _ => Nat.zero_le _

/-- When a monitor ends there is less to do. -/
theorem watching_lt_of_filter {k : Monitor} (hnd : (b.monitors.map (·.no)).Nodup) (hk : k ∈ b.monitors)
    (hmonitors : e.monitors = b.monitors.filter (·.no ≠ k.no)) : e.watching < b.watching := by
  have hpos : 0 < k.watch.effort := by cases k.watch <;> exact Nat.succ_pos _
  have hsub : k :: e.monitors ⊆ b.monitors :=
    List.cons_subset.mpr ⟨hk, hmonitors ▸ List.filter_subset_self _⟩
  have hnew : (k :: e.monitors).Nodup := by
    refine List.nodup_cons.mpr ⟨fun hin => ?_, hmonitors ▸ (List.Nodup.of_map _ hnd).filter _⟩
    rw [hmonitors] at hin
    simpa using (List.mem_filter.mp hin).2
  have hle := watching_le_of_subset hsub hnew
  rw [List.map_cons, List.sum_cons] at hle
  exact (Nat.lt_add_of_pos_left hpos).trans_le hle

/-- A monitor that listens has less to do than before it attached. -/
theorem watching_listens {k : Monitor} (hnd : (b.monitors.map (·.no)).Nodup) (hk : k ∈ b.monitors)
    (hwatch : k.watch = .attaching) {stream : Nat}
    (hmonitors : e.monitors = b.monitors.map fun j =>
      if j.no = k.no then { j with watch := .listening stream } else j) :
    e.watching + 2 = b.watching := by
  obtain ⟨before, after, hsplit⟩ := List.append_of_mem hk
  have hothers : ∀ j ∈ before ++ after, j.no ≠ k.no := by
    intro j hj
    rw [hsplit, List.map_append, List.map_cons] at hnd
    have hnotin := (List.nodup_middle.mp hnd).notMem
    rw [← List.map_append] at hnotin
    exact fun hno => hnotin (hno ▸ List.mem_map_of_mem hj)
  have hkeeps : ∀ ks ⊆ before ++ after, ks.map (fun j =>
      if j.no = k.no then { j with watch := .listening stream } else j) = ks := by
    intro ks hks
    exact (List.map_congr_left fun j hj => if_neg (hothers j (hks hj))).trans (List.map_id _)
  rw [watching, watching, hmonitors, hsplit, List.map_append, List.map_cons, if_pos rfl,
    hkeeps before (List.subset_append_left _ _), hkeeps after (List.subset_append_right _ _)]
  simp only [List.map_append, List.map_cons, List.sum_append, List.sum_cons, hwatch, Watch.effort]
  omega

/-- When a call goes on to less and no monitor is started, less is left to do. -/
theorem effort_lt_of_leg (hb : b.Orderly) (hsub : e.monitors ⊆ b.monitors)
    (hnd : (e.monitors.map (·.no)).Nodup) {call : Call} (hcall : call ∈ b.calls) {asked : List Request}
    {p : Option Point} (hi : e.itinerary = b.itinerary.go call.no asked p)
    (hlt : Point.effort? policy p < call.point.effort policy) : e.effort policy < b.effort policy := by
  obtain ⟨n, hbefore, hafter⟩ :=
    Itinerary.effort_go policy (stops_nodup hb) (mem_stops hcall) asked p
  rw [effort, effort, hi, hbefore, hafter]
  exact Nat.add_lt_add_of_lt_of_le (Nat.add_lt_add_left hlt n)
    (watching_le_of_subset hsub (List.Nodup.of_map _ hnd))

/-- A closing that goes on while no creation is in flight goes on to less. -/
theorem proceeds_to_less (policy : Policy) {call : Call} (hpending : b.pool.pending = 0)
    (hstep : b.proceed call = some e) :
    e.monitors = b.monitors ∧ ∃ p, e.itinerary = b.itinerary.go call.no [] p ∧
      Point.effort? policy p < call.point.effort policy := by
  -- a closing settles unless others' deletions are under way, for which it waits only once
  have hsettles : (call.point = .settling → b.deletions.any (·.closer.isNone) = false) →
      call.point.closes = true → (b.settle call.no).monitors = b.monitors ∧
        ∃ p, (b.settle call.no).itinerary = b.itinerary.go call.no [] p ∧
          Point.effort? policy p < call.point.effort policy := by
    intro hothers hcloses
    have hpos : 0 < call.point.effort policy := by
      cases hpoint : call.point with
      | deleting | draining | settling => exact Nat.succ_pos _
      | _ => rw [hpoint] at hcloses; cases hcloses
    unfold settle
    rw [if_neg (not_not.mpr hpending)]
    split
    · rename_i hany
      refine ⟨rfl, some .settling, itinerary_moveTo b call.no .settling, ?_⟩
      cases hpoint : call.point with
      | deleting | draining => simp [Point.effort?, Point.effort]
      | settling => rw [hothers hpoint] at hany; cases hany
      | _ => rw [hpoint] at hcloses; cases hcloses
    · exact ⟨rfl, none, (itinerary_tell rfl _).trans (itinerary_endCall b call.no), hpos⟩
  unfold proceed at hstep
  cases hpoint : call.point with
  | deleting =>
    rw [hpoint] at hstep
    obtain ⟨-, hstep⟩ := Option.ite_none_left_eq_some.mp hstep
    rw [← Option.some.inj hstep, ← hpoint]
    exact hsettles (fun h => by rw [hpoint] at h; cases h) (by rw [hpoint]; rfl)
  | draining woken =>
    rw [hpoint] at hstep
    cases woken with
    | false => cases hstep
    | true =>
      rw [← Option.some.inj hstep, ← hpoint]
      exact hsettles (fun h => by rw [hpoint] at h; cases h) (by rw [hpoint]; rfl)
  | settling =>
    rw [hpoint] at hstep
    obtain ⟨hothers, hstep⟩ := Option.ite_none_left_eq_some.mp hstep
    rw [← Option.some.inj hstep, ← hpoint]
    exact hsettles (fun _ => by simpa using hothers) (by rw [hpoint]; rfl)
  | _ => rw [hpoint] at hstep; cases hstep

variable [PooledError ε]

/-- Monitors are started only when sessions are created. -/
theorem monitors_subset_of_step (hnd : (b.pool.active.map (·.1)).Nodup) (hdecides : m.decides = false)
    (hanswer : m.isAnswer = false) (hstep : b.step c m = some e) : e.monitors ⊆ b.monitors := by
  cases relieves_of_step hnd hstep with
  | attends _ h => exact h.monitors.subset
  | registers no s hm => rw [hm] at hanswer; cases hanswer
  | listens k _ stream hm => rw [hm] at hdecides; cases hdecides
  | condemns k _ hm =>
    rw [Move.decides_of_condemned hm] at hdecides
    cases hdecides

/-- A monitor that finds its session dead has nothing left to do. -/
theorem watching_lt_of_condemned (hnd : (b.pool.active.map (·.1)).Nodup)
    (hmonitors : (b.monitors.map (·.no)).Nodup) {no : TaskNo} (hm : m.condemned? = some no)
    (hstep : b.step c m = some e) : e.watching < b.watching := by
  cases relieves_of_step hnd hstep with
  | attends hdecides _ =>
    rw [Move.decides_of_condemned hm] at hdecides
    cases hdecides
  | registers _ _ hcreated => rw [hcreated] at hm; cases hm
  | listens _ _ _ hattached => rw [hattached] at hm; cases hm
  | condemns k hk _ _ _ hgone => exact watching_lt_of_filter hmonitors hk hgone

/-- When no call moves, the calls have as much left to do as before. -/
theorem effort_itinerary_of_task (policy : Policy) (hm : m.call? = none)
    (hold : ∀ purpose token, m ≠ .call purpose token) (hstep : b.step c m = some e) : e.itinerary.effort policy = b.itinerary.effort policy := by
  cases travels_of_step hstep with
  | stays _ hi => rw [hi]; rfl
  | comes purpose token hcall _ => exact absurd hcall (hold purpose token)
  | goes call _ hcall _ _ _ _ => rw [hm] at hcall; cases hcall

/-- A call that neither waits for the server nor closes the pool goes on to less. -/
theorem effort_lt_of_step (hb : b.Orderly) (hsub : e.monitors ⊆ b.monitors)
    (hnd : (e.monitors.map (·.no)).Nodup) {call : Call} (hcall : b.call? call.no = some call)
    (hm : m.call? = some call.no) (hold : ∀ purpose token, m ≠ .call purpose token)
    (hanswer : m.isAnswer = false) (hserves : call.point.purpose ≠ .lease)
    (hcreating : call.point.isCreating = false) (hcloses : call.point.closes = false)
    (hstep : b.step c m = some e) : e.effort c.operations.policy < b.effort c.operations.policy := by
  cases travels_of_step hstep with
  | stays hm' _ => rw [hm] at hm'; cases hm'
  | comes purpose token hcall _ => exact absurd hcall (hold purpose token)
  | goes call' hcall' hm' asked p hleg hi =>
    have hno : call'.no = call.no := Option.some.inj (hm'.symm.trans hm)
    rw [hno] at hcall' hi
    obtain rfl : call' = call := Option.some.inj (hcall'.symm.trans hcall)
    rw [hanswer] at hleg
    refine effort_lt_of_leg hb hsub hnd (mem_of_call? hcall).1 hi (hleg.effort_lt ?_ hcreating)
    -- of all points only those of executions and the beginning of a closing are left
    cases hpoint : call'.point with
    | fresh purpose =>
      cases purpose with
      | lease => rw [hpoint] at hserves; exact absurd rfl hserves
      | operation => exact Or.inl rfl
      | closing => exact Or.inr rfl
    | creating => rw [hpoint] at hcreating; cases hcreating
    | createPause client =>
      cases client with
      | caller => rw [hpoint] at hserves; exact absurd rfl hserves
      | attempt => exact Or.inl rfl
    | operating | pausing => exact Or.inl rfl
    | deleting | draining | settling => rw [hpoint] at hcloses; cases hcloses

/-- When a session has been created, what the call has left goes down by what its monitor has to do, and
by two more. -/
theorem effort_created (policy : Policy) (hb : b.Orderly) (hnd : (e.monitors.map (·.no)).Nodup) {no : TaskNo}
    (hexecutes : ∀ call, b.call? no = some call → call.point.executes = true) {s : SessionInfo}
    (hstep : b.step c (.created no (.ok s)) = some e) : e.effort policy + 2 ≤ b.effort policy := by
  cases makes_of_step hstep with
  | created call client first since _ hcall hpoint =>
    obtain ⟨a, rfl⟩ : ∃ a, client = .attempt a := by
      have hcall := hexecutes call hcall
      rw [hpoint] at hcall
      cases client with
      | caller => cases hcall
      | attempt a => exact ⟨a, rfl⟩
    let e := b.register c call.no (.attempt a) s
    show e.effort policy + 2 ≤ b.effort policy
    obtain ⟨asked, p, hleases, hi⟩ :=
      goes_register (rfl : b.itinerary = b.itinerary) c call.no (.attempt a) s
    obtain ⟨n, hbefore, hafter⟩ := Itinerary.effort_go policy (stops_nodup hb)
      (mem_stops (mem_of_call? hcall).1) asked p
    -- the call is worth five less on its way to the operation; the new monitor takes up three of them
    have hless : Point.effort? policy p + 5 ≤ call.point.effort policy := by
      rw [hpoint]
      exact hleases.effort_lt policy
    have hwatching : e.watching ≤ b.watching + 3 := by
      cases relieves_register b c call.no (.attempt a) s with
      | attends hm h =>
        exact (watching_le_of_subset h.monitors.subset (List.Nodup.of_map _ hnd)).trans (Nat.le_add_right _ 3)
      | registers no s hm hflags hmonitors =>
        rw [watching, hmonitors, List.map_append, List.sum_append]
        exact Nat.le_refl _
      | listens k hk stream hm => cases hm
      | condemns k hk hm => cases hm
    rw [effort, effort, show e.itinerary = _ from hi, hbefore, hafter]
    omega

end Engine

end PooledSessions
