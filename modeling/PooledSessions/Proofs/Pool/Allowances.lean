import PooledSessions.Proofs.Pool.Itinerary
/-!
# Allowances of calls

A call that waits at a point has an allowance (`Point.allowance`): how many creations may still begin for
it, how often its operation may still be started, how many moves it may still make, and a deadline, which
recedes only while the operation works.  On every leg what is asked is taken from the allowance
(`Leg.affords`), since each of the two retry loops counts its attempts upwards, no delay is longer than
the longest one of its policy, and a creation that is not answered is given up after its time limit.
-/

namespace PooledSessions

/-! ## Allowances -/

/-- What a call may still ask for and do, and the time by which it has ended. -/
structure Allowance where
  /-- How many creations may still begin. -/
  creations : Nat
  /-- How often the operation may still be started. -/
  operations : Nat
  /-- How many moves the call may still make. -/
  moves : Nat
  /-- The time by which the call has ended. -/
  deadline : Nat

/-- What is left after a leg on which the given things were asked is taken from the allowance. -/
structure Allowance.Covers (x : Allowance) (asked : List Request) (y : Allowance) : Prop where
  /-- The creations that began are taken from it. -/
  creations : asked.count .create + y.creations ≤ x.creations
  /-- The starts of the operation are taken from it. -/
  operations : asked.count .operate + y.operations ≤ x.operations
  /-- The move is taken from it. -/
  moves : 1 + y.moves ≤ x.moves
  /-- The deadline does not recede. -/
  deadline : y.deadline ≤ x.deadline

namespace Setup

variable (c : Setup)

/-- For how long an acquisition takes at most that begins with a creation: all attempts, and the delays
between them. -/
def creationMillis : Nat :=
  c.createTimeout.ceilMillis +
    (c.creation.policy.maxAttempts - 1) * (c.creation.policy.longestDelay + c.createTimeout.ceilMillis)

/-- For how long a further attempt at an operation takes at most: the delay before it and its
acquisition. -/
def attemptMillis : Nat := c.operations.policy.longestDelay + c.creationMillis

/-- How many moves an attempt at an operation takes at most: it is started, each creation is answered, the
delays between creations pass, and the operation ends. -/
def attemptMoves : Nat := 2 * c.creation.policy.maxAttempts + 1

/-- An acquisition that creates takes all attempts, and the delays between them. -/
theorem creationMillis_eq : c.creationMillis =
    c.creation.policy.maxAttempts * c.createTimeout.ceilMillis +
      (c.creation.policy.maxAttempts - 1) * c.creation.policy.longestDelay := by
  obtain ⟨n, hn⟩ := Nat.exists_eq_add_of_le c.creation.policy.one_le_maxAttempts
  rw [creationMillis, hn, Nat.add_sub_cancel_left]
  ring

/-- An execution takes all attempts with their acquisitions, and the delays between them. -/
theorem executionMillis_eq :
    c.creationMillis + (c.operations.policy.maxAttempts - 1) * c.attemptMillis =
      c.operations.policy.maxAttempts * c.creationMillis +
        (c.operations.policy.maxAttempts - 1) * c.operations.policy.longestDelay := by
  obtain ⟨n, hn⟩ := Nat.exists_eq_add_of_le c.operations.policy.one_le_maxAttempts
  rw [attemptMillis, hn, Nat.add_sub_cancel_left]
  ring

end Setup

namespace Client

variable (c : Setup)

/-- How many further attempts at its operation there may be after that for which the client acquires a
session. -/
def more : Client → Nat
  | .caller => 0
  | .attempt a => c.operations.policy.maxAttempts - a.number

/-- How often an operation is started when the client has his lease. -/
def starts : Client → Nat
  | .caller => 0
  | .attempt _ => 1

/-- Whether the number of the attempt for which a session is acquired is one that the policy allows. -/
def Counts : Client → Prop
  | .caller => True
  | .attempt a => a.number ≤ c.operations.policy.maxAttempts

/-- What is left when an acquisition for the client has ended with a lease, on a leg that began at
`now`. -/
def leased (now : Nat) (k : Client) : Allowance where
  creations := k.more c * c.creation.policy.maxAttempts
  operations := k.more c + k.starts
  moves := k.more c * c.attemptMoves + k.starts
  deadline := now + k.more c * c.attemptMillis

/-- What is left when an attempt to create a session for the client has failed after which `n` attempts
may follow. -/
def failed (n now : Nat) (k : Client) : Allowance where
  creations := n + k.more c * c.creation.policy.maxAttempts
  operations := k.more c + k.starts
  moves := 2 * n + (k.more c * c.attemptMoves + k.starts)
  deadline := now + n * (c.creation.policy.longestDelay + c.createTimeout.ceilMillis) +
    k.more c * c.attemptMillis

/-- What is left when an acquisition for the client begins. -/
def begun (now : Nat) (k : Client) : Allowance where
  creations := c.creation.policy.maxAttempts + k.more c * c.creation.policy.maxAttempts
  operations := k.more c + k.starts
  moves := 2 * c.creation.policy.maxAttempts - 1 + (k.more c * c.attemptMoves + k.starts)
  deadline := now + c.creationMillis + k.more c * c.attemptMillis

end Client

namespace Point

variable (c : Setup)

/-- What is left for a call that waits at the point, when the clock shows `now`. -/
def allowance (now : Nat) : Point → Allowance
  | .creating client a since =>
    let failed := client.failed c (c.creation.policy.maxAttempts - a.number)
      (max now (since + c.createTimeout.ceilMillis))
    { failed with moves := failed.moves + 1 }
  | .createPause client a wake =>
    let more := c.creation.policy.maxAttempts - a.number
    let failed := client.failed c (more - 1) (max now wake + c.createTimeout.ceilMillis)
    { failed with creations := failed.creations + 1, moves := failed.moves + 2 }
  | .operating a _ _ =>
    let more := c.operations.policy.maxAttempts - a.number
    ⟨more * c.creation.policy.maxAttempts, more, more * c.attemptMoves + 1, now + more * c.attemptMillis⟩
  | .pausing a wake =>
    let more := c.operations.policy.maxAttempts - a.number
    ⟨more * c.creation.policy.maxAttempts, more, more * c.attemptMoves,
      max now wake + c.creationMillis + (more - 1) * c.attemptMillis⟩
  | _ => ⟨0, 0, 0, 0⟩

/-- What is left for a call that waits at a point or has ended. -/
def allowance? (now : Nat) (p : Option Point) : Allowance := p.elim ⟨0, 0, 0, 0⟩ (allowance c now)

/-- Whether a call that waits at the point has been started, is no closing, and the numbers of its
attempts are ones that the policies allow. -/
def Counts : Point → Prop
  | .creating client a _ => client.Counts c ∧ a.number ≤ c.creation.policy.maxAttempts
  | .createPause client a _ => client.Counts c ∧ a.number < c.creation.policy.maxAttempts
  | .operating a _ _ => a.number ≤ c.operations.policy.maxAttempts
  | .pausing a _ => a.number < c.operations.policy.maxAttempts
  | _ => False

/-- The time at which a call moves that waits at the point, if nothing moves it before. -/
def due? : Point → Option Nat
  | .creating _ _ since => some (since + c.createTimeout.waitMillis)
  | .createPause _ _ wake => some wake
  | .pausing _ wake => some wake
  | _ => none

end Point

/-- What a call may do from its start on. -/
def Purpose.allowance (c : Setup) (now : Nat) : Purpose → Allowance
  | .lease => ⟨c.creation.policy.maxAttempts, 0, 2 * c.creation.policy.maxAttempts, now + c.creationMillis⟩
  | .operation _ =>
    let all := c.operations.policy.maxAttempts
    ⟨all * c.creation.policy.maxAttempts, all, all * c.attemptMoves,
      now + c.creationMillis + (all - 1) * c.attemptMillis⟩
  | .closing => ⟨0, 0, 0, 0⟩

theorem Purpose.deadline_lease (c : Setup) (now : Nat) : (Purpose.lease.allowance c now).deadline =
    now + (c.creation.policy.maxAttempts * c.createTimeout.ceilMillis +
      (c.creation.policy.maxAttempts - 1) * c.creation.policy.longestDelay) := by
  rw [← c.creationMillis_eq, allowance]

theorem Purpose.deadline_operation (c : Setup) (now : Nat) (idempotent : Bool) :
    ((Purpose.operation idempotent).allowance c now).deadline =
      now + (c.operations.policy.maxAttempts * (c.creation.policy.maxAttempts * c.createTimeout.ceilMillis +
        (c.creation.policy.maxAttempts - 1) * c.creation.policy.longestDelay) +
          (c.operations.policy.maxAttempts - 1) * c.operations.policy.longestDelay) := by
  rw [← c.creationMillis_eq, ← c.executionMillis_eq, allowance, Nat.add_assoc]

/-! ## What a leg takes from an allowance -/

variable {c : Setup} {now : Nat} {client : Client} {x : Allowance} {asked : List Request}
  {p : Option Point}

/-- As long as attempts are left, one of them is the next one. -/
theorem sub_mul_eq_add {n m : Nat} (h : n < m) (k : Nat) : (m - n) * k = (m - (n + 1)) * k + k := by
  rw [← Nat.succ_mul]
  congr 1
  omega

theorem Attempt.next_number_of_lt {a : Attempt} {p : Policy} (h : a.number < p.maxAttempts) :
    a.next.number = a.number + 1 := by
  have := p.maxAttempts_le
  rw [Attempt.next_number]
  omega

/-- What holds at the end of a leg on which the given things were asked. -/
structure Affords (c : Setup) (now : Nat) (x : Allowance) (asked : List Request) (p : Option Point) :
    Prop where
  /-- The allowance covers what was asked and what is left. -/
  covers : x.Covers asked (Point.allowance? c now p)
  /-- The numbers of the attempts are still ones that are allowed. -/
  counts : ∀ q, p = some q → q.Counts c

/-- A call may end at any time. -/
theorem affords_none {y : Allowance} (hx : x.Covers [] y) : Affords c now x [] none := by
  have hmoves := hx.moves
  refine ⟨⟨?_, ?_, ?_, ?_⟩, by simp⟩
  all_goals simp only [Point.allowance?, Option.elim_none, List.count_nil]
  all_goals omega

theorem affords_some {q : Point} (hcovers : x.Covers asked (q.allowance c now)) (hcounts : q.Counts c) :
    Affords c now x asked (some q) where
  covers := hcovers
  counts := fun _ hq => Option.some.inj hq ▸ hcounts

theorem Leases.affords (h : Leases now client asked p) (hclient : client.Counts c)
    (hx : x.Covers [] (client.leased c now)) : Affords c now x asked p := by
  cases h with
  | ends => exact affords_none hx
  | operates a k =>
    obtain ⟨hcreations, hoperations, hmoves, hdeadline⟩ := hx
    refine affords_some ⟨?_, ?_, ?_, ?_⟩ hclient
    all_goals simp [Client.leased, Client.more, Client.starts] at hcreations hoperations hmoves hdeadline
    all_goals simp [Point.allowance]
    all_goals omega

theorem Acquires.affords (h : Acquires now client asked p) (hclient : client.Counts c)
    (hx : x.Covers [] (client.begun c now)) : Affords c now x asked p := by
  obtain ⟨hcreations, hoperations, hmoves, hdeadline⟩ := hx
  simp only [Client.begun, List.count_nil] at hcreations hoperations hmoves hdeadline
  cases h with
  | leases h =>
    refine h.affords hclient ⟨?_, ?_, ?_, ?_⟩
    all_goals simp only [Client.leased, List.count_nil]
    all_goals omega
  | creates =>
    have hone := c.creation.policy.one_le_maxAttempts
    rw [Setup.creationMillis] at hdeadline
    refine affords_some ⟨?_, ?_, ?_, ?_⟩ ⟨hclient, hone⟩
    all_goals simp [Point.allowance, Client.failed, Attempt.first]
    all_goals omega

theorem Retries.affords {a : Attempt} (h : Retries c now client a asked p) (hclient : client.Counts c)
    (hx : x.Covers [] (client.failed c (c.creation.policy.maxAttempts - a.number) now)) :
    Affords c now x asked p := by
  cases h with
  | ends => exact affords_none hx
  | again ha =>
    obtain ⟨hcreations, hoperations, hmoves, hdeadline⟩ := hx
    have hnext := Attempt.next_number_of_lt ha
    have hmillis := sub_mul_eq_add ha (c.creation.policy.longestDelay + c.createTimeout.ceilMillis)
    simp only [Client.failed, List.count_nil] at hcreations hoperations hmoves hdeadline
    refine affords_some ⟨?_, ?_, ?_, ?_⟩ ⟨hclient, hnext.trans_le ha⟩
    all_goals simp [Point.allowance, Client.failed, -Attempt.next_number, hnext]
    all_goals omega
  | pauses ha wake hwake hnow =>
    obtain ⟨hcreations, hoperations, hmoves, hdeadline⟩ := hx
    have hmillis := sub_mul_eq_add ha (c.creation.policy.longestDelay + c.createTimeout.ceilMillis)
    have hlast : c.creation.policy.maxAttempts - a.number - 1 =
        c.creation.policy.maxAttempts - (a.number + 1) := Nat.sub_sub _ _ _
    simp only [Client.failed, List.count_nil] at hcreations hoperations hmoves hdeadline
    refine affords_some ⟨?_, ?_, ?_, ?_⟩ ⟨hclient, ha⟩
    all_goals simp [Point.allowance, Client.failed, hlast]
    all_goals omega

/-- That a creation is given up is not taken from the allowance. -/
theorem Affords.giveUp (h : Affords c now x asked p) : Affords c now x (.giveUp :: asked) p where
  covers := ⟨by simpa using h.covers.creations, by simpa using h.covers.operations, h.covers.moves,
    h.covers.deadline⟩
  counts := h.counts

/-- A creation that fails leaves the attempts that may follow. -/
theorem covers_failed (client : Client) (a : Attempt) (since : Nat) :
    ((Point.creating client a since).allowance c now).Covers []
      (client.failed c (c.creation.policy.maxAttempts - a.number) now) := by
  refine ⟨?_, ?_, ?_, ?_⟩
  all_goals simp [Point.allowance, Client.failed]
  all_goals omega

/-- What is left when an attempt at an operation begins again. -/
theorem begun_next {a : Attempt} (ha : a.number < c.operations.policy.maxAttempts) (start : Nat) :
    (Client.attempt a.next).begun c start =
      { creations := (c.operations.policy.maxAttempts - a.number) * c.creation.policy.maxAttempts
        operations := c.operations.policy.maxAttempts - a.number
        moves := (c.operations.policy.maxAttempts - a.number) * c.attemptMoves - 1
        deadline := start + c.creationMillis +
          (c.operations.policy.maxAttempts - a.number - 1) * c.attemptMillis } := by
  have hnext := Attempt.next_number_of_lt ha
  have hone := c.creation.policy.one_le_maxAttempts
  have hlast : c.operations.policy.maxAttempts - a.number - 1 =
      c.operations.policy.maxAttempts - (a.number + 1) := Nat.sub_sub _ _ _
  simp only [Client.begun, Client.more, Client.starts, hnext, hlast, sub_mul_eq_add ha,
    Allowance.mk.injEq, and_true]
  refine ⟨by omega, by omega, ?_⟩
  rw [Setup.attemptMoves]
  omega

/-- On every leg what is asked is taken from the allowance of the call. -/
theorem Leg.affords {answered : Bool} {q : Point} (h : Leg c now answered q asked p)
    (hcounts : q.Counts c) : Affords c now (q.allowance c now) asked p := by
  cases h with
  | ends hq =>
    -- what is left of the allowance before the last move
    cases q with
    | createPause client a wake | operating a k since =>
      refine affords_none (y := ⟨0, 0, 0, 0⟩) ⟨?_, ?_, ?_, ?_⟩
      all_goals simp [Point.allowance]
    | pausing a wake =>
      have hmore : 0 < c.operations.policy.maxAttempts - a.number := Nat.sub_pos_of_lt hcounts
      have hmoves : 0 < (c.operations.policy.maxAttempts - a.number) * c.attemptMoves :=
        Nat.mul_pos hmore (Nat.succ_pos _)
      refine affords_none (y := ⟨0, 0, 0, 0⟩) ⟨?_, ?_, ?_, ?_⟩
      all_goals simp [Point.allowance]
      omega
    | creating client a since => cases hq
    | fresh _ | deleting | draining _ | settling => exact hcounts.elim
  | acquires h => exact hcounts.elim
  | executes idempotent h => exact hcounts.elim
  | closes hq hq' =>
    rcases hq with rfl | hq
    · exact hcounts.elim
    · cases q <;> first | exact hcounts.elim | cases hq
  | created client a since h =>
    refine h.affords hcounts.1 ⟨?_, ?_, ?_, ?_⟩
    all_goals simp [Point.allowance, Client.failed, Client.leased]
    all_goals omega
  | refused client a since h => exact h.affords hcounts.1 (covers_failed client a since)
  | givesUp client a since h =>
    exact (h.affords hcounts.1 (covers_failed client a since)).giveUp
  | recreates client a wake =>
    have hnext := Attempt.next_number_of_lt hcounts.2
    have hlast : c.creation.policy.maxAttempts - a.number - 1 =
        c.creation.policy.maxAttempts - (a.number + 1) := Nat.sub_sub _ _ _
    refine affords_some ⟨?_, ?_, ?_, ?_⟩ ⟨hcounts.1, hnext.trans_le hcounts.2⟩
    all_goals simp [Point.allowance, Client.failed, -Attempt.next_number, hnext, hlast]
    all_goals omega
  | repeats a k since ha h =>
    have hmillis := sub_mul_eq_add ha c.attemptMillis
    refine h.affords ((Attempt.next_number_of_lt ha).trans_le ha) ?_
    rw [begun_next ha]
    refine ⟨by simp [Point.allowance], by simp [Point.allowance], ?_, ?_⟩
    all_goals simp only [Point.allowance]
    · omega
    · rw [hmillis, Nat.sub_sub, Setup.attemptMillis]
      omega
  | pauses a k since ha wake hwake hnow =>
    have hmillis := sub_mul_eq_add ha c.attemptMillis
    refine affords_some ⟨by simp [Point.allowance], by simp [Point.allowance], ?_, ?_⟩ ha
    all_goals simp only [Point.allowance]
    · omega
    · rw [hmillis, Nat.sub_sub, Setup.attemptMillis]
      omega
  | resumes a wake h =>
    have hmore : 0 < c.operations.policy.maxAttempts - a.number := Nat.sub_pos_of_lt hcounts
    have hmoves : 0 < (c.operations.policy.maxAttempts - a.number) * c.attemptMoves :=
      Nat.mul_pos hmore (Nat.succ_pos _)
    refine h.affords ((Attempt.next_number_of_lt hcounts).trans_le hcounts) ?_
    rw [begun_next hcounts]
    refine ⟨by simp [Point.allowance], by simp [Point.allowance], ?_, ?_⟩
    all_goals simp only [Point.allowance]
    all_goals omega

/-- On the first leg, too, what is asked is taken from what a call of its kind may do. -/
theorem Leg.affords_of_fresh {answered : Bool} {purpose : Purpose}
    (h : Leg c now answered (.fresh purpose) asked p) (hne : purpose ≠ .closing) :
    Affords c now (purpose.allowance c now) asked p := by
  have hcreations := c.creation.policy.one_le_maxAttempts
  have hoperations := c.operations.policy.one_le_maxAttempts
  cases h with
  | ends hp =>
    refine affords_none (y := ⟨0, 0, 0, 0⟩) ⟨Nat.zero_le _, Nat.zero_le _, ?_, Nat.zero_le _⟩
    cases purpose with
    | lease => simp only [Purpose.allowance]; omega
    | operation idempotent =>
      exact Nat.mul_pos hoperations (Nat.succ_pos _)
    | closing => exact absurd rfl hne
  | acquires h =>
    refine h.affords trivial ⟨?_, ?_, ?_, ?_⟩
    all_goals simp [Purpose.allowance, Client.begun, Client.more, Client.starts]
    omega
  | executes idempotent h =>
    -- the allowance of the first attempt is split off from those of all attempts
    have hall : ∀ k, c.operations.policy.maxAttempts * k =
        (c.operations.policy.maxAttempts - 1) * k + k := by
      intro k
      rw [← Nat.succ_mul]
      congr 1
      omega
    refine h.affords hoperations ⟨?_, ?_, ?_, ?_⟩
    all_goals simp [Purpose.allowance, Client.begun, Client.more, Client.starts, Attempt.first, hall]
    · omega
    · omega
    · rw [Setup.attemptMoves]
      omega
  | closes hp hp' =>
    rcases hp with hp | hp
    · exact absurd (Point.fresh.inj hp) hne
    · cases hp

end PooledSessions
