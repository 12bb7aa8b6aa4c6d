import PooledSessions.Proofs.Pool.Steps
/-!
# What a move leaves alone

While a move is made, the pool only goes onward: it tells signals but takes none back, it starts
deletions with new numbers, a closed pool stays closed, and nobody is handed a lease except by a move that
may grant one.  `Engine.Onward` collects all of this between the pool at the beginning of a move and the
pool at any moment of it, so that each operation is followed once.
-/

namespace PooledSessions

variable {ε α : Type}

/-- Whether a call has a creation in flight. -/
def Engine.HasCreation (b : Engine ε α) (no : TaskNo) : Prop :=
  ∃ k ∈ b.calls, k.no = no ∧ k.point.creates = true

/-- Whether the pool `b` may tell a signal during a move, after which the given deletions are under
way.  Leases go out only from a pool that was open, and to a caller only in a move that may grant one.  A
caller who finds the pool closed is told so, unless his creation was in flight. -/
def Signal.Fits (grants : Prop) (b : Engine ε α) (deletions : List Deletion) : Signal ε α → Prop
  | .deleteBegun no id => ∃ d ∈ deletions, d.no = no ∧ d.id = id
  | .acquired _ (.ok _) => grants ∧ b.pool.closed = false
  | .acquired no (.error p) => b.pool.closed = true → p = .closed ∨ b.HasCreation no
  | .operationStarted _ _ => b.pool.closed = false
  | .closed _ => False
  | _ => True

theorem Signal.Fits.mono {grants : Prop} {b : Engine ε α} {deletions deletions' : List Deletion}
    {s : Signal ε α} (h : s.Fits grants b deletions) (hsub : deletions ⊆ deletions') :
    s.Fits grants b deletions' := by
  cases s with
  | deleteBegun no id =>
    obtain ⟨d, hd, hsame⟩ := h
    exact ⟨d, hsub hd, hsame⟩
  | acquired no result => cases result <;> exact h
  | operationStarted no s => exact h
  | closed no => exact h
  | _ => trivial

/-- Whether a call that waits at the point ends with a lease for its caller, if all goes well. -/
def Point.isForCaller : Point → Bool
  | .fresh .lease => true
  | .creating .caller _ _ => true
  | .createPause .caller _ _ => true
  | _ => false

/-- The call that a move is made by. -/
def Move.call? : Move ε α → Option TaskNo
  | .start no => some no
  | .abandon no => some no
  | .created no _ => some no
  | .createExpired no => some no
  | .operated no _ _ => some no
  | .woken no => some no
  | .noticed no => some no
  | .proceed no => some no
  | _ => none

namespace Engine

/-- The pool `e` comes from the pool `b` by a part of a move.  Only the call `mover` moves, leases go to
callers only if `grants` holds, and the deletions that are started are waited for by `owner` at most. -/
structure Onward (grants : Prop) (mover owner : Option TaskNo) (b e : Engine ε α) : Prop where
  /-- Signals are told, and none is taken back. -/
  told : ∃ told, e.signals = b.signals ++ told ∧
    ∀ s ∈ told, s.Fits grants b e.deletions
  /-- Deletions that are started get new numbers. -/
  deletions : ∀ d ∈ e.deletions, d ∈ b.deletions ∨
    (b.nextNo ≤ d.no ∧ d.since ≤ e.now ∧ (d.closer = none ∨ d.closer = owner))
  /-- Numbers are given away in order. -/
  nextNo_le : b.nextNo ≤ e.nextNo
  /-- The clock does not go back. -/
  now_le : b.now ≤ e.now
  /-- The whole move is made in one place. -/
  background : e.background = b.background
  /-- A closed pool stays closed, and no creation begins in it. -/
  closed : b.pool.closed = true → e.pool.closed = true ∧ e.pool.pending ≤ b.pool.pending
  /-- Nobody is handed a lease, unless the move may grant one and the pool was open. -/
  held : (grants → b.pool.closed = true) → e.held ⊆ b.held
  /-- The other calls wait where they waited, or have been woken. -/
  calls : ∀ k ∈ b.calls, mover ≠ some k.no → k ∈ e.calls ∨ k.wake ∈ e.calls
  /-- In a closed pool only those calls have a creation in flight that had one before. -/
  creating : b.pool.closed = true → ∀ k ∈ e.calls, k.point.creates = true → b.HasCreation k.no
  /-- No other calls come up, but for those that have not been started. -/
  others : ∀ k ∈ e.calls, mover ≠ some k.no →
    k ∈ b.calls ∨ (∃ k' ∈ b.calls, k = k'.wake) ∨ ∃ purpose, k.point = .fresh purpose

namespace Onward

variable {grants : Prop} {mover owner : Option TaskNo} {no : TaskNo} {b e : Engine ε α}

protected theorem rfl : Onward grants mover owner b b where
  told := ⟨[], (List.append_nil _).symm, by simp⟩
  deletions := fun _ hd => Or.inl hd
  nextNo_le := Nat.le_refl _
  now_le := Nat.le_refl _
  background := rfl
  closed := fun h => ⟨h, Nat.le_refl _⟩
  held := fun _ _ hk => hk
  calls := fun _ hk _ => Or.inl hk
  creating := fun _ k hk hcreates => ⟨k, hk, rfl, hcreates⟩
  others := fun _ hk _ => Or.inl hk

theorem isOpen (h : Onward grants mover owner b e) (hopen : e.pool.closed = false) :
    b.pool.closed = false := by
  rw [← Bool.not_eq_true]
  intro hclosed
  rw [(h.closed hclosed).1] at hopen
  cases hopen

/-! ## Telling -/

theorem tellAll (h : Onward grants mover owner b e) {more : List (Signal ε α)}
    (hmore : ∀ s ∈ more, s.Fits grants b e.deletions) :
    Onward grants mover owner b { e with signals := e.signals ++ more } := by
  obtain ⟨told, heq, htold⟩ := h.told
  refine { h with told := ⟨told ++ more, ?_, ?_⟩ }
  · simp only [heq, List.append_assoc]
  · intro s hs
    rcases List.mem_append.mp hs with hs | hs
    · exact htold s hs
    · exact hmore s hs

theorem tell (h : Onward grants mover owner b e) {s : Signal ε α}
    (hs : s.Fits grants b e.deletions) : Onward grants mover owner b (e.tell s) :=
  h.tellAll (by simpa using hs)

theorem report (h : Onward grants mover owner b e) (topic : Topic) (level : Level) (message : String)
    (fields : List (String × Detail)) :
    Onward grants mover owner b (e.report topic level message fields) :=
  h.tell trivial

theorem tellAbandoned (h : Onward grants mover owner b e) (no : TaskNo) :
    Onward grants mover owner b (e.tell (.createAbandoned no)) :=
  h.tell trivial

theorem cancel (h : Onward grants mover owner b e) (t : Token) :
    Onward grants mover owner b (e.cancel t) := by
  unfold Engine.cancel
  split
  · exact h
  · exact { h with }

theorem observe (h : Onward grants mover owner b e) (c : Setup) (role : Role) :
    Onward grants mover owner b (e.observe c role) := by
  unfold Engine.observe
  rcases c.observer with _ | o
  · exact { h with }
  · cases role
    all_goals
      dsimp only
      split
      · refine Onward.cancel ?_ _
        exact { h with }
      · exact { h with }

theorem assess (h : Onward grants mover owner b e) (c : Setup) (role : Role) (f : Fault) (a : Attempt) :
    Onward grants mover owner b (e.assess c role f a).2 := by
  unfold Engine.assess
  dsimp only
  refine Onward.observe ?_ c role
  -- the assessment is only named here: what it draws at random must not be computed
  generalize Executor.assess _ f a e.generator = assessed
  have htold : Onward grants mover owner b { e with
      signals := e.signals ++ (assessed.events.map Signal.event ++ [.record role assessed.record]) } := by
    refine h.tellAll fun s hs => ?_
    rcases List.mem_append.mp hs with hs | hs
    · obtain ⟨event, _, rfl⟩ := List.mem_map.mp hs
      trivial
    · rw [List.mem_singleton.mp hs]
      trivial
  rw [← List.append_assoc] at htold
  exact { htold with }

/-! ## Calls -/

/-- The call that moves may change.  In a closed pool it does not begin a creation. -/
theorem update (h : Onward grants (some no) owner b e) {f : Call → Call}
    (hno : ∀ k, (f k).no = k.no) (hother : ∀ k, k.no ≠ no → f k = k)
    (hcreating : b.pool.closed = true → ∀ k ∈ e.calls, (f k).point.creates = true →
      k.point.creates = true ∨ b.HasCreation k.no) :
    Onward grants (some no) owner b { e with calls := e.calls.map f } :=
  { h with
    creating := fun hclosed k hk hcreates => by
      obtain ⟨k', hk', rfl⟩ := List.mem_map.mp hk
      rw [hno]
      exact (hcreating hclosed k' hk' hcreates).elim (h.creating hclosed k' hk') id
    calls := fun k hk hne => by
      have hkno : k.no ≠ no := fun he => hne (by rw [he])
      rcases h.calls k hk hne with hin | hin
      · exact Or.inl (List.mem_map.mpr ⟨k, hin, hother k hkno⟩)
      · exact Or.inr (List.mem_map.mpr ⟨k.wake, hin, hother k.wake (by rwa [Call.wake_no])⟩)
    others := fun k hk hne => by
      have hkno : k.no ≠ no := fun he => hne (by rw [he])
      obtain ⟨k', hk', rfl⟩ := List.mem_map.mp hk
      rw [hno] at hkno
      rw [hother k' hkno] at hne ⊢
      exact h.others k' hk' hne }

theorem moveTo (h : Onward grants (some no) owner b e) {p : Point}
    (hp : p.creates = true → b.pool.closed = true → b.HasCreation no) :
    Onward grants (some no) owner b (e.moveTo no p) := by
  refine h.update (fun k => by split <;> rfl) (fun _ hk => if_neg hk) fun hclosed k _ hcreates => ?_
  split at hcreates
  · rename_i hno
    exact Or.inr (hno ▸ hp hcreates hclosed)
  · exact Or.inl hcreates

theorem countStart (h : Onward grants (some no) owner b e) :
    Onward grants (some no) owner b (e.countStart no) := by
  refine h.update (fun k => by split <;> rfl) (fun _ hk => if_neg hk) fun _ k _ hcreates => Or.inl ?_
  split at hcreates <;> exact hcreates

theorem endCall (h : Onward grants (some no) owner b e) :
    Onward grants (some no) owner b (e.endCall no) :=
  { h with
    calls := fun k hk hne => by
      have hkno : k.no ≠ no := fun he => hne (by rw [he])
      rcases h.calls k hk hne with hin | hin
      · exact Or.inl (List.mem_filter.mpr ⟨hin, by simpa using hkno⟩)
      · exact Or.inr (List.mem_filter.mpr ⟨hin, by simpa using hkno⟩)
    creating := fun hclosed k hk => h.creating hclosed k (List.mem_of_mem_filter hk)
    others := fun k hk => h.others k (List.mem_of_mem_filter hk) }

theorem addCall (h : Onward grants mover owner b e) (purpose : Purpose) (token : Token) :
    Onward grants mover owner b (e.addCall purpose token) :=
  { h with
    nextNo_le := Nat.le_succ_of_le h.nextNo_le
    calls := fun k hk hne =>
      (h.calls k hk hne).imp (List.mem_append_left _) (List.mem_append_left _)
    creating := fun hclosed k hk hcreates => by
      rcases List.mem_append.mp hk with hk | hk
      · exact h.creating hclosed k hk hcreates
      · rw [List.mem_singleton.mp hk] at hcreates
        cases hcreates
    others := fun k hk hne => by
      rcases List.mem_append.mp hk with hk | hk
      · exact h.others k hk hne
      · rw [List.mem_singleton.mp hk]
        exact Or.inr (Or.inr ⟨purpose, rfl⟩) }

/-! ## Tables and sessions that leave -/

theorem withPool (h : Onward grants mover owner b e) {p : Pool}
    (hpool : b.pool.closed = true → p.closed = true ∧ p.pending ≤ b.pool.pending) :
    Onward grants mover owner b (e.withPool p) :=
  { h with closed := hpool }

theorem releasePending (h : Onward grants mover owner b e) :
    Onward grants mover owner b e.releasePending := by
  have hpool : Onward grants mover owner b (e.withPool e.pool.releasePending) :=
    h.withPool fun hclosed => ⟨(h.closed hclosed).1, (Nat.sub_le _ _).trans (h.closed hclosed).2⟩
  unfold Engine.releasePending
  dsimp only
  split
  · -- the last creation is over: all closings that wait for it are woken, so each call is its wake
    refine { hpool with
      calls := fun k hk hne => Or.inr ?_
      creating := fun hclosed k hk hcreates => ?_
      others := fun k hk hne => ?_ }
    · rcases hpool.calls k hk hne with hin | hin
      · exact List.mem_map_of_mem hin
      · exact List.mem_map.mpr ⟨k.wake, hin, k.wake_wake⟩
    · obtain ⟨k', hk', rfl⟩ := List.mem_map.mp hk
      have hwas := hpool.creating hclosed k' hk' (k'.wake_creates ▸ hcreates)
      rw [← k'.wake_no] at hwas
      exact hwas
    · obtain ⟨k', hk', rfl⟩ := List.mem_map.mp hk
      have hno : mover ≠ some k'.no := fun he => hne (he.trans (congrArg some k'.wake_no.symm))
      rcases hpool.others k' hk' hno with hin | ⟨k₀, hk₀, rfl⟩ | ⟨purpose, hp⟩
      · exact Or.inr (Or.inl ⟨k', hin, rfl⟩)
      · exact Or.inr (Or.inl ⟨k₀, hk₀, k₀.wake_wake⟩)
      · refine Or.inr (Or.inr ⟨purpose, ?_⟩)
        rw [hp]
        exact hp
  · exact hpool

theorem stopMonitor (h : Onward grants mover owner b e) (flag : FlagNo) :
    Onward grants mover owner b (e.stopMonitor flag) :=
  { h with }

theorem startDeletion (h : Onward grants mover owner b e) (c : Setup) (id : SessionId)
    {closer : Option TaskNo} (hcloser : closer = none ∨ closer = owner) :
    Onward grants mover owner b (e.startDeletion c id closer) := by
  obtain ⟨told, heq, htold⟩ := h.told
  refine { h with
    told := ⟨told ++ [.deleteBegun e.nextNo id], ?_, ?_⟩
    deletions := ?_
    nextNo_le := Nat.le_succ_of_le h.nextNo_le }
  · rw [← List.append_assoc, ← heq]
    rfl
  · intro s hs
    rcases List.mem_append.mp hs with hs | hs
    · exact (htold s hs).mono (List.subset_append_left _ _)
    · rw [List.mem_singleton.mp hs]
      exact ⟨_, List.mem_append_right _ (List.mem_singleton_self _), rfl, rfl⟩
  · intro d hd
    rcases List.mem_append.mp hd with hd | hd
    · exact h.deletions d hd
    · rw [List.mem_singleton.mp hd]
      exact Or.inr ⟨h.nextNo_le, Nat.le_refl _, hcloser⟩

theorem deleteInBackground (h : Onward grants mover owner b e) (c : Setup) (id : SessionId) :
    Onward grants mover owner b (e.deleteInBackground c id) := by
  unfold Engine.deleteInBackground
  split
  · exact h.startDeletion c id (Or.inl rfl)
  · exact h.report _ _ _ _

theorem retire (h : Onward grants mover owner b e) (c : Setup) (id : SessionId) (t : Tracked)
    (reason : String) : Onward grants mover owner b (e.retire c id t reason) :=
  ((h.stopMonitor t.flag).report _ _ _ _).deleteInBackground c id

theorem retireAll (c : Setup) (reason : String) (gone : List (SessionId × Tracked))
    {e : Engine ε α} (h : Onward grants mover owner b e) :
    Onward grants mover owner b (e.retireAll c reason gone) := by
  induction gone generalizing e with
  | nil => exact h
  | cons x gone ih =>
    rw [retireAll_cons]
    exact ih (h.retire c x.1 x.2 reason)

theorem dismissAll (c : Setup) (no : TaskNo) (gone : List (SessionId × Tracked)) {e : Engine ε α}
    (h : Onward grants mover (some no) b e) :
    Onward grants mover (some no) b (e.dismissAll c no gone) := by
  induction gone generalizing e with
  | nil => exact h
  | cons x gone ih =>
    rw [dismissAll_cons]
    exact ih ((h.stopMonitor x.2.flag).startDeletion c x.1 (Or.inr rfl))

theorem invalidate (h : Onward grants mover owner b e) (c : Setup) (id : SessionId) :
    Onward grants mover owner b (e.invalidate c id) := by
  cases ht : e.pool.find? id with
  | none => rwa [invalidate_of_none ht]
  | some t =>
    rw [invalidate_of_find? ht]
    exact (h.withPool (p := e.pool.discard id) h.closed).retire c id t _

theorem loseLease (h : Onward grants mover owner b e) (c : Setup) (id : SessionId) :
    Onward grants mover owner b (e.loseLease c id) :=
  (h.report _ _ _ _).invalidate c id

theorem giveBack (h : Onward grants mover owner b e) (c : Setup) (id : SessionId) :
    Onward grants mover owner b (e.giveBack c id) := by
  have hsame : (e.pool.release id e.isAlive e.now).2.closed = e.pool.closed ∧
      (e.pool.release id e.isAlive e.now).2.pending = e.pool.pending := by
    unfold Pool.release
    repeat' split
    all_goals exact ⟨rfl, rfl⟩
  have hpool : Onward grants mover owner b (e.withPool (e.pool.release id e.isAlive e.now).2) := by
    refine h.withPool ?_
    rw [hsame.1, hsame.2]
    exact h.closed
  unfold Engine.giveBack
  split
  · rename_i t pool heq
    rw [heq] at hpool
    exact hpool.retire c id t _
  · rename_i pool heq
    rw [heq] at hpool
    exact hpool

/-! ## Calls that go on -/

theorem lease (h : Onward grants (some no) owner b e) {client : Client}
    (hgrants : client = .caller → grants) (hopen : b.pool.closed = false) (k : Handle) :
    Onward grants (some no) owner b (e.lease no client k) := by
  cases client with
  | caller =>
    refine Onward.tell (e := { e.endCall no with held := e.held ++ [k] }) ?_ ⟨hgrants rfl, hopen⟩
    refine { h.endCall with held := fun hshut => ?_ }
    rw [hshut (hgrants rfl)] at hopen
    cases hopen
  | attempt a => exact (h.countStart.moveTo fun hcreates => by cases hcreates).tell hopen

theorem searched (h : Onward grants mover owner b e) (c : Setup) :
    Onward grants mover owner b (e.searched c) :=
  (retireAll c _ _ h).withPool h.closed

theorem reserved (h : Onward grants mover owner b e) (hopen : b.pool.closed = false) :
    Onward grants mover owner b e.reserved :=
  h.withPool fun hclosed => by
    rw [hopen] at hclosed
    cases hclosed

theorem finish (h : Onward grants (some no) owner b e) (result : Except ε α) :
    Onward grants (some no) owner b (e.finish no result) :=
  h.endCall.tell trivial

theorem beginClose (h : Onward grants (some no) (some no) b e) (c : Setup) :
    Onward grants (some no) (some no) b (e.beginClose c no) := by
  rw [beginClose_eq]
  have hsaid : Onward grants (some no) (some no) b e.announceClosing := by
    unfold announceClosing
    split
    · exact h
    · exact h.report _ _ _ _
  refine Onward.moveTo ?_ fun hcreates => by cases hcreates
  exact (dismissAll c no _ hsaid).withPool fun hclosed => ⟨rfl, (h.closed hclosed).2⟩

variable [PooledError ε]

theorem reject (h : Onward grants (some no) owner b e) (client : Client) {p : PoolError}
    (hp : b.pool.closed = true → p = .closed ∨ b.HasCreation no) :
    Onward grants (some no) owner b (e.reject no client p) := by
  cases client with
  | caller => exact h.endCall.tell hp
  | attempt a => exact h.finish _

theorem followCreation (h : Onward grants (some no) owner b e) (c : Setup) (client : Client)
    (hplace : b.pool.closed = true → b.HasCreation no) (next : Loop.Next RpcError) :
    Onward grants (some no) owner b (e.followCreation c no client next) := by
  have hrejected : ∀ p : PoolError, b.pool.closed = true → p = .closed ∨ b.HasCreation no :=
    fun _ hclosed => Or.inr (hplace hclosed)
  cases next with
  | attempt a => exact (h.moveTo fun _ => hplace).tell trivial
  | pause a wake => exact h.moveTo fun _ => hplace
  | fail error =>
    have htold : ∀ events : List Event, ∀ s ∈ events.map (Signal.event (ε := ε) (α := α)),
        s.Fits grants b e.deletions := by
      intro events s hs
      obtain ⟨event, _, rfl⟩ := List.mem_map.mp hs
      trivial
    cases error with
    | cancelled => exact h.releasePending.reject client (hrejected _)
    | transport code message =>
      exact ((h.tellAll (htold _)).report _ _ _ _).releasePending.reject client (hrejected _)
    | status code message =>
      exact ((h.tellAll (htold _)).report _ _ _ _).releasePending.reject client (hrejected _)

theorem acquireFor (h : Onward grants (some no) owner b e) (c : Setup) (token : Token) {client : Client}
    (hgrants : client = .caller → grants) :
    Onward grants (some no) owner b (e.acquireFor c no token client) := by
  by_cases hclosed : e.pool.closed = true
  · rw [acquireFor_closed hclosed]
    exact h.reject client fun _ => Or.inl rfl
  · have hopen : e.pool.closed = false := by simpa using hclosed
    -- an open pool was open before, so nothing need be shown about a closed one
    have hshut : ∀ {q : Prop}, b.pool.closed = true → q := by
      intro q hclosed
      rw [h.isOpen hopen] at hclosed
      cases hclosed
    rw [acquireFor_open hopen]
    split
    · exact (h.searched c).lease hgrants (h.isOpen hopen) _
    · split
      · exact ((h.searched c).reserved (h.isOpen hopen)).followCreation c client hshut _
      · exact (h.searched c).reject client hshut

theorem register (h : Onward grants (some no) owner b e) (c : Setup) {client : Client}
    (hgrants : client = .caller → grants) (s : SessionInfo) :
    Onward grants (some no) owner b (e.register c no client s) := by
  have hnext : Onward grants (some no) owner b { e with nextNo := e.nextNo + 1 } :=
    { h with nextNo_le := Nat.le_succ_of_le h.nextNo_le }
  unfold Engine.register
  dsimp only
  split
  · exact (hnext.deleteInBackground c s.id).releasePending.reject client fun _ => Or.inl rfl
  · rename_i hclosed
    have hopen : e.pool.closed = false := by simpa using hclosed
    have hreleased := hnext.releasePending
    refine (Onward.report ?_ _ _ _ _).lease hgrants (h.isOpen hopen) _
    exact { hreleased with }

theorem follow (h : Onward grants (some no) owner b e) (c : Setup) (token : Token) (next : Loop.Next ε) :
    Onward grants (some no) owner b (e.follow c no token next) := by
  cases next with
  | attempt a => exact h.acquireFor c token fun hcaller => by cases hcaller
  | pause a wake => exact h.moveTo fun hcreates => by cases hcreates
  | fail error => exact h.finish _

theorem created (h : Onward grants (some no) owner b e) (c : Setup) {call : Call}
    (hno : call.no = no) {client : Client} (hgrants : client = .caller → grants)
    (hplace : b.pool.closed = true → b.HasCreation no) (a : Attempt)
    (result : Except RpcError SessionInfo) :
    Onward grants (some no) owner b (e.created c call client a result) := by
  subst hno
  cases result with
  | ok s => exact h.register c hgrants s
  | error error => exact (h.assess c _ _ _).followCreation c client hplace _

theorem operated (h : Onward grants (some no) owner b e) (c : Setup) {call : Call}
    (hno : call.no = no) (a : Attempt) (k : Handle) (result : Except ε α) :
    Onward grants (some no) owner b (e.operated c call a k result) := by
  subst hno
  cases result with
  | ok v => exact (h.giveBack c k.id).finish _
  | error error =>
    have hassessed := h.assess c .operation (CallError.toFault error) a
    refine Onward.follow ?_ c call.token _
    dsimp only
    split
    · exact hassessed.invalidate c k.id
    · exact hassessed.giveBack c k.id

/-! ## Monitors, deletions and leases -/

omit [PooledError ε] in
theorem dropDeletions (h : Onward grants mover owner b b) (goes : Deletion → Bool) :
    Onward grants mover owner b { b with deletions := b.deletions.filter goes } :=
  { h with
    told := ⟨[], (List.append_nil _).symm, by simp⟩
    deletions := fun _ hd => Or.inl (List.mem_of_mem_filter hd) }

omit [PooledError ε] in
theorem part (h : Onward grants mover owner b e) (flag : FlagNo) :
    Onward grants mover owner b (e.part flag) :=
  { h with held := fun hshut _ hk => h.held hshut (List.mem_of_mem_filter hk) }

omit [PooledError ε] in
theorem condemn (h : Onward grants mover owner b e) (m : Monitor) (reason : String) :
    Onward grants mover owner b (e.condemn m reason) := by
  have hstopped : Onward grants mover owner b
      (({ e with flags := (e.flags.markDead m.no).2 } : Engine ε α).stopMonitor m.no) :=
    { h with }
  unfold Engine.condemn
  dsimp only
  split
  · exact hstopped.report _ _ _ _
  · exact hstopped

omit [PooledError ε] in
theorem attached (h : Onward grants mover owner b e) (m : Monitor) (result : Except RpcError Nat) :
    Onward grants mover owner b (e.attached m result) := by
  cases result with
  | ok stream => exact { h with }
  | error error => exact h.condemn m _

omit [PooledError ε] in
theorem heard (h : Onward grants mover owner b e) (m : Monitor)
    (message : Except RpcError SessionStatus) : Onward grants mover owner b (e.heard m message) := by
  rcases message with error | status
  · exact h.condemn m _
  · cases status with
    | ready => exact h
    | unusable code => exact h.condemn m _

end Onward

/-! ## Moves -/

/-- Whether a move may hand a lease to a caller. -/
def grants (e : Engine ε α) (m : Move ε α) : Bool := (m.call?.bind e.call?).any (·.point.isForCaller)

/-- The closing that may wait for the deletions that a move starts. -/
def owner? (e : Engine ε α) (m : Move ε α) : Option TaskNo :=
  match m with
  | .start no => if (e.call? no).any (·.point = .fresh .closing) then some no else none
  | _ => none

variable {c : Setup} {e e' : Engine ε α}

theorem grants_of_call? {m : Move ε α} {call : Call} (hmove : m.call? = some call.no)
    (hcall : e.call? call.no = some call) (hpoint : call.point.isForCaller = true) :
    e.grants m = true := by
  simp [grants, hmove, hcall, hpoint]

theorem hasCreation_of_call? {call : Call} (hcall : e.call? call.no = some call)
    (hpoint : call.point.creates = true) : e.HasCreation call.no :=
  ⟨call, (mem_of_call? hcall).1, rfl, hpoint⟩

variable [PooledError ε]

/-- Every move goes onward, but for the last one of a closing: that one ends it in a pool without
creations in flight and without deletions in the background. -/
theorem onward_step {m : Move ε α} (hstep : e.step c m = some e') :
    Onward (e.grants m = true) m.call? (e.owner? m) e e' ∨
      ∃ call, e.call? call.no = some call ∧ m = .proceed call.no ∧ call.point.closes = true ∧
        (call.point = .deleting → e.deletions.any (·.closer = some call.no) = false) ∧
        e.pool.pending = 0 ∧ e.deletions.any (·.closer.isNone) = false ∧
        e' = (e.endCall call.no).tell (.closed call.no) := by
  have hrefl : Onward (e.grants m = true) m.call? (e.owner? m) e e := Onward.rfl
  cases makes_of_step hstep with
  | call purpose token => exact Or.inl (hrefl.addCall purpose token)
  | start call purpose hcall hpoint =>
    left
    cases purpose with
    | lease =>
      exact hrefl.acquireFor c call.token fun _ => grants_of_call? rfl hcall (by rw [hpoint]; rfl)
    | operation idempotent => exact hrefl.follow c call.token _
    | closing =>
      have howner : e.owner? (.start call.no) = some call.no := by
        simp [owner?, hcall, hpoint]
      rw [howner] at hrefl ⊢
      exact hrefl.beginClose c
  | abandon call hcall =>
    left
    have hended := hrefl.endCall
    cases hpoint : call.point with
    | creating client a since =>
      rw [abandon, hpoint]
      exact (hended.tellAbandoned _).releasePending
    | createPause client a wake =>
      rw [abandon, hpoint]
      exact hended.releasePending
    | operating a k since =>
      rw [abandon, hpoint]
      exact hended.loseLease c k.id
    | deleting =>
      rw [abandon, hpoint]
      exact (hrefl.dropDeletions _).endCall
    | fresh _ | pausing _ _ | draining _ | settling =>
      rw [abandon, hpoint]
      exact hended
  | created call client a since result hcall hpoint =>
    exact Or.inl (hrefl.created c rfl
      (fun hcaller => grants_of_call? rfl hcall (by rw [hpoint, hcaller]; rfl))
      (fun _ => hasCreation_of_call? hcall (by rw [hpoint]; rfl)) a result)
  | createExpired call client a since hcall hpoint =>
    exact Or.inl ((hrefl.tellAbandoned _).created c rfl
      (fun hcaller => grants_of_call? rfl hcall (by rw [hpoint, hcaller]; rfl))
      (fun _ => hasCreation_of_call? hcall (by rw [hpoint]; rfl)) a _)
  | operated call a k since cancels result =>
    refine Or.inl (Onward.operated ?_ c rfl a k result)
    split
    · exact hrefl.cancel _
    · exact hrefl
  | createWoken call client a wake hcall hpoint =>
    exact Or.inl (hrefl.followCreation c client
      (fun _ => hasCreation_of_call? hcall (by rw [hpoint]; rfl)) _)
  | woken call a wake => exact Or.inl (hrefl.follow c call.token _)
  | creationNoticed call client a since hcall hpoint =>
    exact Or.inl ((hrefl.tellAbandoned _).followCreation c client
      (fun _ => hasCreation_of_call? hcall (by rw [hpoint]; rfl)) _)
  | createPauseNoticed call client a wake hcall hpoint =>
    exact Or.inl (hrefl.followCreation c client
      (fun _ => hasCreation_of_call? hcall (by rw [hpoint]; rfl)) _)
  | operationNoticed call a k since => exact Or.inl ((hrefl.invalidate c k.id).finish _)
  | pauseNoticed call a wake => exact Or.inl (hrefl.finish _)
  | proceed call hcall hcloses hown =>
    -- a closing that goes on waits again, unless nothing is left to wait for
    unfold settle
    split
    · exact Or.inl (hrefl.moveTo fun hcreates => by cases hcreates)
    · rename_i hpending
      split
      · exact Or.inl (hrefl.moveTo fun hcreates => by cases hcreates)
      · rename_i hnone
        exact Or.inr ⟨call, hcall, rfl, hcloses, hown, not_not.mp hpending, by simpa using hnone, rfl⟩
  | attached m result => exact Or.inl (hrefl.attached m result)
  | heard m message => exact Or.inl (hrefl.heard m message)
  | streamEnded m => exact Or.inl (hrefl.condemn m _)
  | deleted d result =>
    have hended : Onward _ _ _ e (e.endDeletion d.no) := hrefl.dropDeletions _
    cases result with
    | ok _ => exact Or.inl (hended.report _ _ _ _)
    | error _ => exact Or.inl (hended.report _ _ _ _)
  | deletionExpired d =>
    have hended : Onward _ _ _ e (e.endDeletion d.no) := hrefl.dropDeletions _
    exact Or.inl (hended.report _ _ _ _)
  | release k => exact Or.inl ((hrefl.part _).giveBack c k.id)
  | invalidate k => exact Or.inl ((hrefl.part _).invalidate c k.id)
  | drop k => exact Or.inl ((hrefl.part _).loseLease c k.id)
  | invalidateId id => exact Or.inl (hrefl.invalidate c id)
  | cancel token => exact Or.inl (hrefl.cancel token)
  | advance millis =>
    exact Or.inl { hrefl with
      now_le := Nat.le_add_right _ _
      deletions := fun _ hd => Or.inl hd }

/-! ## The deletions of closings -/

/-- The closings that wait for deletions of their own are those that have such deletions. -/
def Owned (e : Engine ε α) : Prop :=
  ∀ d ∈ e.deletions, ∀ no ∈ d.closer, ∃ call ∈ e.calls, call.no = no ∧ call.point = .deleting

theorem deletions_of_step {m : Move ε α} (hstep : e.step c m = some e') {d : Deletion}
    (hd : d ∈ e'.deletions) : d ∈ e.deletions ∨
      (e.nextNo ≤ d.no ∧ d.since ≤ e'.now ∧ (d.closer = none ∨ d.closer = e.owner? m)) := by
  rcases onward_step hstep with honward | ⟨call, -, -, -, -, -, -, rfl⟩
  · exact honward.deletions d hd
  · exact Or.inl hd

/-- Neither the count of numbers nor the clock goes back. -/
theorem le_of_step {m : Move ε α} (hstep : e.step c m = some e') :
    e.nextNo ≤ e'.nextNo ∧ e.now ≤ e'.now := by
  rcases onward_step hstep with honward | ⟨call, -, -, -, -, -, -, rfl⟩
  · exact ⟨honward.nextNo_le, honward.now_le⟩
  · exact ⟨Nat.le_refl _, Nat.le_refl _⟩

/-- Whether new work can be started in the background is not for the pool to change. -/
theorem background_of_step {m : Move ε α} (hstep : e.step c m = some e') :
    e'.background = e.background := by
  rcases onward_step hstep with honward | ⟨call, -, -, -, -, -, -, rfl⟩
  · exact honward.background
  · rfl

omit [PooledError ε] in
/-- A closing that ends tells that it has ended, and nothing else. -/
theorem signals_ended (hsignals : e.signals = []) (no : TaskNo) :
    ((e.endCall no).tell (.closed no)).signals = [.closed no] :=
  (congrArg (· ++ [Signal.closed no]) hsignals).trans (List.nil_append _)

/-- The server is asked for the deletions that are under way. -/
theorem deletion_of_begun {m : Move ε α} (hstep : e.step c m = some e') (hsignals : e.signals = [])
    {no : TaskNo} {id : SessionId} (hbegun : Signal.deleteBegun no id ∈ e'.signals) :
    ∃ d ∈ e'.deletions, d.no = no ∧ d.id = id := by
  rcases onward_step hstep with honward | ⟨call, -, -, -, -, -, -, rfl⟩
  · obtain ⟨told, heq, htold⟩ := honward.told
    rw [hsignals, List.nil_append] at heq
    exact htold _ (heq ▸ hbegun)
  · rw [signals_ended hsignals, List.mem_singleton] at hbegun
    cases hbegun

/-- A closing that moves on while it waits for deletions of its own leaves none of them. -/
theorem closer_ne_of_deleting {m : Move ε α} (hnd : (e.calls.map (·.no)).Nodup)
    (hstep : e.step c m = some e') {call : Call} (hcall : call ∈ e.calls)
    (hpoint : call.point = .deleting) (hmover : m.call? = some call.no) {d : Deletion}
    (hd : d ∈ e'.deletions) : d.closer ≠ some call.no := by
  have hfind := call?_of_mem hnd hcall
  -- the call that makes the move is the closing itself, so most moves are not open to it
  have hsame : ∀ k : Call, e.call? k.no = some k → some k.no = some call.no → k.point = .deleting := by
    intro k hk hno
    rw [Option.some.inj hno, hfind, Option.some.injEq] at hk
    rw [← hk, hpoint]
  cases makes_of_step hstep with
  | start k purpose hk hother => exact absurd (hsame k hk hmover) (by simp [hother])
  | abandon k hk =>
    have hk' := hsame k hk hmover
    rw [abandon, hk'] at hd
    rw [← Option.some.inj hmover]
    simpa using (List.mem_filter.mp hd).2
  | created k client a since result hk hother => exact absurd (hsame k hk hmover) (by simp [hother])
  | createExpired k client a since hk hother => exact absurd (hsame k hk hmover) (by simp [hother])
  | operated k a h since cancels result hk hother =>
    exact absurd (hsame k hk hmover) (by simp [hother])
  | createWoken k client a wake hk hother => exact absurd (hsame k hk hmover) (by simp [hother])
  | woken k a wake hk hother => exact absurd (hsame k hk hmover) (by simp [hother])
  | creationNoticed k client a since hk hother => exact absurd (hsame k hk hmover) (by simp [hother])
  | createPauseNoticed k client a wake hk hother =>
    exact absurd (hsame k hk hmover) (by simp [hother])
  | operationNoticed k a h since hk hother => exact absurd (hsame k hk hmover) (by simp [hother])
  | pauseNoticed k a wake hk hother => exact absurd (hsame k hk hmover) (by simp [hother])
  | proceed k hk hcloses hown =>
    have hnone := hown (hsame k hk hmover)
    rw [deletions_settle] at hd
    rw [← Option.some.inj hmover]
    simpa using List.any_eq_false.mp hnone d hd
  | _ => cases hmover

/-- A closing that starts deletions of its own waits for them. -/
theorem deleting_of_owner? {m : Move ε α} {no : TaskNo} (hstep : e.step c m = some e')
    (howner : e.owner? m = some no) : ∃ call ∈ e'.calls, call.no = no ∧ call.point = .deleting := by
  cases makes_of_step hstep with
  | start call purpose hcall hpoint =>
    have hclosing : purpose = .closing ∧ call.no = no := by
      simp only [owner?, hcall, Option.any_some, hpoint, Point.fresh.injEq] at howner
      split at howner
      · rename_i hpurpose
        exact ⟨by simpa using hpurpose, Option.some.inj howner⟩
      · cases howner
    obtain ⟨rfl, rfl⟩ := hclosing
    refine ⟨{ call with point := .deleting }, ?_, rfl, rfl⟩
    show _ ∈ (e.beginClose c call.no).calls
    rw [calls_beginClose]
    exact List.mem_map.mpr ⟨call, (mem_of_call? hcall).1, if_pos rfl⟩
  | _ => cases howner

/-- Every move leaves to each closing the deletions that it waits for. -/
theorem owned_of_step {m : Move ε α} (h : e.Owned) (hnd : (e.calls.map (·.no)).Nodup)
    (hstep : e.step c m = some e') : e'.Owned := by
  intro d hd no hno
  -- a closing that had deletions of its own waits on, unless it moves, and then it has none left
  have hold : d ∈ e.deletions → ∃ call ∈ e'.calls, call.no = no ∧ call.point = .deleting := by
    intro hin
    obtain ⟨call, hcall, rfl, hpoint⟩ := h d hin no hno
    have hmover : m.call? ≠ some call.no := fun hmover =>
      closer_ne_of_deleting hnd hstep hcall hpoint hmover hd hno
    have hwake : call.wake = call := by
      rw [Call.wake, hpoint]
    rcases onward_step hstep with honward | ⟨call', -, rfl, -, -, -, -, rfl⟩
    · refine ⟨call, ?_, rfl, hpoint⟩
      rcases honward.calls call hcall hmover with hin | hin
      · exact hin
      · rwa [hwake] at hin
    · refine ⟨call, List.mem_filter.mpr ⟨hcall, ?_⟩, rfl, hpoint⟩
      simpa using fun he => hmover (congrArg some he.symm)
  rcases deletions_of_step hstep hd with hin | ⟨-, -, hcloser | hcloser⟩
  · exact hold hin
  · rw [hcloser] at hno
    cases hno
  · exact deleting_of_owner? hstep (hcloser.symm.trans hno)

/-- What is known when a closing ends in a move: no creation is in flight, and each deletion under way
belongs to another closing. -/
theorem ended_of_step {m : Move ε α} (hnd : (e.calls.map (·.no)).Nodup) (howned : e.Owned)
    (hstep : e.step c m = some e') (hsignals : e.signals = []) :
    (∀ no, Signal.closed no ∉ e'.signals) ∨
      ∃ call ∈ e.calls, m = .proceed call.no ∧ call.point.closes = true ∧ e.pool.pending = 0 ∧
        ∀ d ∈ e.deletions, ∃ no ∈ d.closer, no ≠ call.no := by
  rcases onward_step hstep with honward | ⟨call, hcall, rfl, hcloses, hown, hpending, hnone, rfl⟩
  · obtain ⟨told, heq, htold⟩ := honward.told
    rw [hsignals, List.nil_append] at heq
    rw [heq]
    exact Or.inl fun no hin => htold _ hin
  · have hin := (mem_of_call? hcall).1
    refine Or.inr ⟨call, hin, rfl, hcloses, hpending, fun d hd => ?_⟩
    have hsome : d.closer ≠ none := by simpa using List.any_eq_false.mp hnone d hd
    obtain ⟨no, hno⟩ := Option.ne_none_iff_exists'.mp hsome
    refine ⟨no, hno, ?_⟩
    -- were it the closing's own, the closing would still wait for it
    rintro rfl
    obtain ⟨k, hk, hkno, hpoint⟩ := howned d hd _ hno
    have hsame : k = call := List.inj_on_of_nodup_map hnd hk hin hkno
    rw [hsame] at hpoint
    exact absurd hno (by simpa using List.any_eq_false.mp (hown hpoint) d hd)

end Engine

end PooledSessions
