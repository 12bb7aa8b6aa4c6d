import PooledSessions.Proofs.Pool.Tables
/-!
# The balance of a running pool

The ledger of a running pool is everything it has in hand: its tables, its monitors, the deletions
under way, the calls and the leases that callers hold.  The ledger is balanced when the tables stand for
exactly the outstanding leases and the creations in flight, every monitor watches a tracked session, and
the tracked sessions together with those being deleted are the sessions that the pool answers for.

While a call moves, the lease or the place it had is in nobody's hand for a moment.  So the balance
(`Ledger.Sound`) is stated against a list of leases and a number of creations that need not be those of
the calls, and a pool between two moves is one for which they are (`Engine.AtRest`).
-/

namespace PooledSessions

/-! ## What a call holds -/

/-- The lease that carries a call which waits at the point. -/
def Point.lease? : Point → Option Handle
  | .operating _ h _ => some h
  | _ => none

/-- Whether a call that waits at the point has a creation in flight. -/
def Point.creates : Point → Bool
  | .creating .. => true
  | .createPause .. => true
  | _ => false

/-- Whether a call that waits at the point is a closing that has begun. -/
def Point.closes : Point → Bool
  | .deleting => true
  | .draining _ => true
  | .settling => true
  | _ => false

/-- How many places a call that waits at the point takes up. -/
def Point.places (p : Point) : Nat := if p.creates then 1 else 0

theorem Point.places_eq_zero {p : Point} (h : p.creates = false) : p.places = 0 := by
  rw [places, if_neg (by simp [h])]

namespace Call

/-- The leases that carry the given calls. -/
def leases (calls : List Call) : List Handle := calls.filterMap (·.point.lease?)

/-- How many of the given calls have a creation in flight. -/
def creations (calls : List Call) : Nat := calls.countP (·.point.creates)

/-- All calls but one. -/
def except (no : TaskNo) (calls : List Call) : List Call := calls.filter (·.no ≠ no)

theorem perm_cons_except {calls : List Call} {call : Call} (hnd : (calls.map (·.no)).Nodup)
    (hcall : call ∈ calls) : calls.Perm (call :: Call.except call.no calls) := by
  induction calls with
  | nil => simp at hcall
  | cons k calls ih =>
    rw [List.map_cons, List.nodup_cons] at hnd
    rcases List.mem_cons.mp hcall with rfl | hin
    · have hall : ∀ c ∈ calls, c.no ≠ call.no := fun c hc he => hnd.1 (List.mem_map.mpr ⟨c, hc, he⟩)
      have hself : Call.except call.no calls = calls :=
        List.filter_eq_self.mpr fun c hc => by simpa using hall c hc
      rw [Call.except, List.filter_cons_of_neg (by simp), ← Call.except, hself]
    · have hne : k.no ≠ call.no := fun he => hnd.1 (List.mem_map.mpr ⟨call, hin, he.symm⟩)
      rw [Call.except, List.filter_cons_of_pos (by simpa using hne), ← Call.except]
      exact ((ih hnd.2 hin).cons k).trans (List.Perm.swap call k _)

theorem perm_leases {calls : List Call} {call : Call} (hnd : (calls.map (·.no)).Nodup)
    (hcall : call ∈ calls) :
    (leases calls).Perm (call.point.lease?.toList ++ leases (Call.except call.no calls)) := by
  have h := (perm_cons_except hnd hcall).filterMap (·.point.lease?)
  rw [List.filterMap_cons] at h
  rw [leases, leases]
  cases hl : call.point.lease? with
  | none => simpa [hl] using h
  | some l => simpa [hl] using h

theorem creations_eq {calls : List Call} {call : Call} (hnd : (calls.map (·.no)).Nodup)
    (hcall : call ∈ calls) :
    creations calls = call.point.places + creations (Call.except call.no calls) := by
  rw [creations, (perm_cons_except hnd hcall).countP_eq, List.countP_cons, creations, Point.places]
  exact Nat.add_comm _ _

/-- A change that keeps what calls hold keeps the leases. -/
theorem leases_map {f : Call → Call} (hf : ∀ k, (f k).point.lease? = k.point.lease?)
    (calls : List Call) : leases (calls.map f) = leases calls := by
  rw [leases, leases, List.filterMap_map]
  exact List.filterMap_congr fun k _ => hf k

theorem creations_map {f : Call → Call} (hf : ∀ k, (f k).point.creates = k.point.creates)
    (calls : List Call) : creations (calls.map f) = creations calls := by
  rw [creations, creations, List.countP_map]
  exact List.countP_congr fun k _ => by simp [hf]

theorem except_map {f : Call → Call} (hf : ∀ k, (f k).no = k.no) (no : TaskNo) (calls : List Call) :
    Call.except no (calls.map f) = (Call.except no calls).map f := by
  rw [Call.except, Call.except, List.filter_map]
  exact congrArg _ (List.filter_congr fun k _ => by simp [hf])

theorem except_map_update {f : Call → Call} {no : TaskNo} (hno : ∀ k, (f k).no = k.no)
    (hother : ∀ k, k.no ≠ no → f k = k) (calls : List Call) :
    Call.except no (calls.map f) = Call.except no calls := by
  rw [except_map hno]
  refine (List.map_congr_left fun k hk => ?_).trans (List.map_id _)
  exact hother k (by simpa using (List.mem_filter.mp hk).2)

/-- A call that waits for the creations in flight is woken. -/
def wake (k : Call) : Call :=
  match k.point with
  | .draining _ => { k with point := .draining true }
  | _ => k

@[simp] theorem wake_no (k : Call) : k.wake.no = k.no := by
  unfold wake
  split <;> rfl

theorem wake_point (k : Call) :
    k.wake.point = k.point ∨ (k.wake.point = .draining true ∧ ∃ b, k.point = .draining b) := by
  unfold wake
  split
  · rename_i b hb
    exact Or.inr ⟨rfl, b, hb⟩
  · exact Or.inl rfl

@[simp] theorem wake_wake (k : Call) : k.wake.wake = k.wake := by
  obtain ⟨no, token, started, point⟩ := k
  cases point <;> rfl

@[simp] theorem wake_lease? (k : Call) : k.wake.point.lease? = k.point.lease? := by
  rcases k.wake_point with h | ⟨h, b, hb⟩
  · rw [h]
  · rw [h, hb]
    rfl

@[simp] theorem wake_creates (k : Call) : k.wake.point.creates = k.point.creates := by
  rcases k.wake_point with h | ⟨h, b, hb⟩
  · rw [h]
  · rw [h, hb]
    rfl

end Call

/-! ## The ledger -/

/-- What a running pool has in hand. -/
structure Ledger where
  /-- The tables. -/
  pool : Pool
  /-- The monitors that have neither ended nor been stopped. -/
  monitors : List Monitor
  /-- The deletions under way. -/
  deletions : List Deletion
  /-- The calls that have not ended. -/
  calls : List Call
  /-- The leases that callers hold. -/
  held : List Handle
  /-- The number of the next call, monitor or deletion. -/
  nextNo : TaskNo
  /-- Whether new work can be started in the background. -/
  background : Bool

/-- The ledger of a running pool. -/
def Engine.ledger {ε α : Type} (e : Engine ε α) : Ledger :=
  ⟨e.pool, e.monitors, e.deletions, e.calls, e.held, e.nextNo, e.background⟩

namespace Ledger

/-- The sessions that the pool answers for: those it tracks and those it is deleting. -/
def sessions (l : Ledger) : List SessionId := l.pool.names ++ l.deletions.map (·.id)

/-- The numbers in use. -/
def numbers (l : Ledger) : List TaskNo :=
  l.calls.map (·.no) ++ (l.monitors.map (·.no) ++ l.deletions.map (·.no))

/-- A pool with the given sessions answers for the sessions `ids`, each once, and the server has named all
of them.  Where deletions can be started it answers for all of them; elsewhere it may leave some behind. -/
structure Accounts (known ids sessions : List SessionId) (background : Bool) : Prop where
  /-- The pool tracks and deletes no others, and none of them twice. -/
  subperm : sessions.Subperm ids
  /-- Where deletions can be started, it tracks or deletes each of them. -/
  perm : background = true → sessions.Perm ids
  /-- It answers for each of them once. -/
  nodup : ids.Nodup
  /-- The server has named all of them. -/
  known : ids ⊆ known

namespace Accounts

variable {known ids sessions sessions' : List SessionId} {background : Bool}

/-- A pool answers at least for what it tracks and deletes. -/
protected theorem rfl (hnd : ids.Nodup) (hknown : ids ⊆ known) : Accounts known ids ids background where
  subperm := .refl ids
  perm := fun _ => .refl ids
  nodup := hnd
  known := hknown

/-- No session is both tracked and being deleted, and none is in the tables twice. -/
theorem sessions_nodup (h : Accounts known ids sessions background) : sessions.Nodup := by
  obtain ⟨ids', hperm, hsub⟩ := h.subperm
  exact hperm.nodup_iff.mp (h.nodup.sublist hsub)

/-- Sessions may go from the tables to the deletions. -/
theorem of_perm (h : Accounts known ids sessions background) (hperm : sessions'.Perm sessions) :
    Accounts known ids sessions' background where
  subperm := hperm.subperm.trans h.subperm
  perm := fun hplace => hperm.trans (h.perm hplace)
  nodup := h.nodup
  known := h.known

/-- Where no deletion can be started, sessions may be left behind. -/
theorem lose (h : Accounts known ids sessions background) (hplace : background ≠ true)
    (hsub : sessions'.Subperm sessions) : Accounts known ids sessions' background where
  subperm := hsub.trans h.subperm
  perm := fun hback => absurd hback hplace
  nodup := h.nodup
  known := h.known

/-- The server may name a session for which the pool does not answer yet. -/
theorem learn (h : Accounts known ids sessions background) (id : SessionId) :
    Accounts (id :: known) ids sessions background :=
  { h with known := List.subset_cons_of_subset _ h.known }

/-- The pool answers for one more session, which the server has never named before. -/
theorem grow (h : Accounts known ids sessions background) {id : SessionId} (hnew : id ∉ known)
    (hperm : sessions'.Perm (id :: sessions)) :
    Accounts (id :: known) (id :: ids) sessions' background where
  subperm := hperm.subperm.trans ((List.subperm_cons id).mpr h.subperm)
  perm := fun hplace => hperm.trans ((h.perm hplace).cons id)
  nodup := List.nodup_cons.mpr ⟨fun hid => hnew (h.known hid), h.nodup⟩
  known := List.cons_subset_cons _ h.known

/-- Where no deletion can be started, a session that the server names may be left behind at once. -/
theorem growWithout (h : Accounts known ids sessions background) (hplace : background ≠ true)
    {id : SessionId} (hnew : id ∉ known) : Accounts (id :: known) (id :: ids) sessions background :=
  (h.grow hnew (.refl _)).lose hplace .cons_self

end Accounts

/-- The ledger of a pool with a given limit is sound against the given outstanding leases and creations
in flight.  The server has named the sessions `known` so far, and the pool is to answer for the sessions
`kept`, if any are given. -/
structure Sound (limit : Nat) (known : List SessionId) (kept : Option (List SessionId)) (l : Ledger)
    (leases : List Handle) (creations : Nat) : Prop where
  /-- The tables are in order. -/
  tables : l.pool.InOrder limit
  /-- The tables stand for the leases. -/
  lent : l.pool.Lent leases
  /-- The tables count the creations in flight. -/
  pending : l.pool.pending = creations
  /-- The next number is the flag of no session. -/
  flag_lt : ∀ id flag, l.pool.Bears leases id flag → flag < l.nextNo
  /-- The server has named the tracked sessions. -/
  names_known : l.pool.names ⊆ known
  /-- The server has named the session of every lease. -/
  lease_known : ∀ h ∈ leases, h.id ∈ known
  /-- A monitor watches a tracked session. -/
  watched : ∀ m ∈ l.monitors, ∃ t, l.pool.find? m.id = some t ∧ t.flag = m.no
  /-- No number is used twice. -/
  numbers_nodup : l.numbers.Nodup
  /-- The next number is not in use. -/
  number_lt : ∀ n ∈ l.numbers, n < l.nextNo
  /-- The pool answers for the sessions it is to answer for. -/
  accounts : ∀ ids ∈ kept, Accounts known ids l.sessions l.background
  /-- Only in a closed pool a closing has begun. -/
  closed : ∀ call ∈ l.calls, call.point.closes = true → l.pool.closed = true
  /-- A closing waits unwoken only for creations in flight. -/
  drains : ∀ call ∈ l.calls, call.point = .draining false → 0 < l.pool.pending

namespace Sound

variable {limit : Nat} {known : List SessionId} {kept : Option (List SessionId)} {l : Ledger}
  {leases : List Handle} {creations : Nat}

theorem calls_nodup (h : Sound limit known kept l leases creations) : (l.calls.map (·.no)).Nodup :=
  (List.nodup_append.mp h.numbers_nodup).1

theorem deletions_nodup (h : Sound limit known kept l leases creations) :
    (l.deletions.map (·.no)).Nodup :=
  (List.nodup_append.mp (List.nodup_append.mp h.numbers_nodup).2.1).2.1

theorem bears_known (h : Sound limit known kept l leases creations) {id : SessionId} {flag : FlagNo}
    (hb : l.pool.Bears leases id flag) : id ∈ known := by
  rcases hb with ⟨t, ht, -⟩ | ⟨k, hk, rfl, -⟩
  · exact h.names_known (Pool.mem_names_of_find? ht)
  · exact h.lease_known k hk

/-- The next number can be given away. -/
theorem numbers_of_perm (h : Sound limit known kept l leases creations) {numbers : List TaskNo}
    (hperm : numbers.Perm (l.nextNo :: l.numbers)) :
    numbers.Nodup ∧ ∀ n ∈ numbers, n < l.nextNo + 1 := by
  constructor
  · rw [hperm.nodup_iff, List.nodup_cons]
    exact ⟨fun hin => Nat.lt_irrefl _ (h.number_lt _ hin), h.numbers_nodup⟩
  · intro n hn
    rcases List.mem_cons.mp (hperm.mem_iff.mp hn) with rfl | hn
    · exact Nat.lt_succ_self _
    · exact Nat.lt_succ_of_lt (h.number_lt n hn)

/-- The pool answers for whatever sessions it is shown to answer for. -/
theorem account (h : Sound limit known kept l leases creations) {kept' : Option (List SessionId)}
    (haccounts : ∀ ids ∈ kept', Accounts known ids l.sessions l.background) :
    Sound limit known kept' l leases creations :=
  { h with accounts := haccounts }

/-- Deletions may become possible or impossible to start, if the pool need not answer for its
sessions. -/
theorem withBackground (h : Sound limit known none l leases creations) (background : Bool) :
    Sound limit known none { l with background := background } leases creations :=
  { h with accounts := by simp }

/-- The server may name further sessions. -/
theorem learn (h : Sound limit known kept l leases creations) (id : SessionId) :
    Sound limit (id :: known) kept l leases creations :=
  { h with
    names_known := List.subset_cons_of_subset _ h.names_known
    lease_known := fun k hk => List.mem_cons_of_mem _ (h.lease_known k hk)
    accounts := fun ids hids => (h.accounts ids hids).learn id }

theorem perm {leases' : List Handle} (h : Sound limit known kept l leases creations)
    (hperm : leases.Perm leases') : Sound limit known kept l leases' creations :=
  { h with
    lent := h.lent.perm hperm
    flag_lt := fun id flag hb => h.flag_lt id flag
      (hb.mono (fun _ t ht => ⟨t, ht, rfl⟩) fun _ hk => Or.inl (hperm.mem_iff.mpr hk))
    lease_known := fun k hk => h.lease_known k (hperm.mem_iff.mpr hk) }

/-- Two of the leases with one flag are one lease. -/
theorem eq_of_flag_eq (h : Sound limit known kept l leases creations) {a b : Handle}
    (ha : a ∈ leases) (hb : b ∈ leases) (hflag : a.flag = b.flag) : a = b := by
  have hid : a.id = b.id := (h.lent.same_iff a.id a.flag b.id b.flag
    (Or.inr ⟨a, ha, rfl, rfl⟩) (Or.inr ⟨b, hb, rfl, rfl⟩)).mpr hflag
  exact List.inj_on_of_nodup_map h.lent.ids_nodup ha hb hid

/-! ## Calls that move -/

/-- The calls may change as they like, as long as no new numbers come up and closings keep to their
rules. -/
theorem withCalls (h : Sound limit known kept l leases creations) (calls : List Call)
    (hno : (calls.map (·.no)).Sublist (l.calls.map (·.no)))
    (hclosed : ∀ call ∈ calls, call.point.closes = true → l.pool.closed = true)
    (hdrains : ∀ call ∈ calls, call.point = .draining false → 0 < l.pool.pending) :
    Sound limit known kept { l with calls := calls } leases creations :=
  have hsub : ({ l with calls := calls } : Ledger).numbers.Sublist l.numbers :=
    hno.append_right _
  { h with
    numbers_nodup := h.numbers_nodup.sublist hsub
    number_lt := fun n hn => h.number_lt n (hsub.subset hn)
    closed := hclosed
    drains := hdrains }

theorem withHeld (h : Sound limit known kept l leases creations) (held : List Handle) :
    Sound limit known kept { l with held := held } leases creations :=
  { h with }

/-- A call is left out. -/
theorem endCall (h : Sound limit known kept l leases creations) (no : TaskNo) :
    Sound limit known kept { l with calls := Call.except no l.calls } leases creations :=
  h.withCalls _ (List.filter_sublist.map _) (fun _ hk => h.closed _ (List.mem_of_mem_filter hk))
    (fun _ hk => h.drains _ (List.mem_of_mem_filter hk))

/-- A call that is new waits to be started. -/
theorem addCall (h : Sound limit known kept l leases creations) (purpose : Purpose) (token : Token) :
    Sound limit known kept
      { l with calls := l.calls ++ [⟨l.nextNo, token, 0, .fresh purpose⟩], nextNo := l.nextNo + 1 }
      leases creations :=
  have hperm : ({ l with
      calls := l.calls ++ [⟨l.nextNo, token, 0, .fresh purpose⟩]
      nextNo := l.nextNo + 1 } : Ledger).numbers.Perm (l.nextNo :: l.numbers) := by
    rw [numbers, List.map_append, List.map_singleton, List.append_assoc, List.singleton_append]
    exact List.perm_middle
  { h with
    flag_lt := fun id flag hb => Nat.lt_succ_of_lt (h.flag_lt id flag hb)
    numbers_nodup := (h.numbers_of_perm hperm).1
    number_lt := (h.numbers_of_perm hperm).2
    closed := fun k hk hc => by
      rcases List.mem_append.mp hk with hk | hk
      · exact h.closed k hk hc
      · rw [List.mem_singleton.mp hk] at hc
        cases hc
    drains := fun k hk hp => by
      rcases List.mem_append.mp hk with hk | hk
      · exact h.drains k hk hp
      · rw [List.mem_singleton.mp hk] at hp
        cases hp }

/-! ## Sessions that come and go -/

/-- A tracked session leaves, and its monitor is stopped. -/
theorem leave (h : Sound limit known kept l leases creations) {id : SessionId} {t : Tracked}
    (ht : l.pool.find? id = some t) :
    Sound limit known none
      { l with pool := l.pool.discard id, monitors := l.monitors.filter (·.no ≠ t.flag) } leases
      creations := by
  have hsub : ({ l with pool := l.pool.discard id, monitors := l.monitors.filter (·.no ≠ t.flag) } :
      Ledger).numbers.Sublist l.numbers :=
    (List.Sublist.refl _).append ((List.filter_sublist.map _).append (List.Sublist.refl _))
  refine
    { h with
      tables := h.tables.discard id
      lent := h.lent.discard id
      flag_lt := ?_
      names_known := fun k hk => h.names_known (Pool.names_discard .. ▸ hk |> List.mem_of_mem_filter)
      watched := ?_
      numbers_nodup := h.numbers_nodup.sublist hsub
      number_lt := fun n hn => h.number_lt n (hsub.subset hn)
      accounts := by simp }
  · intro k flag hb
    exact h.flag_lt k flag
      (hb.mono (fun _ u hu => ⟨u, (Pool.find?_of_find?_discard hu).2, rfl⟩) fun _ => Or.inl)
  · intro m hm
    obtain ⟨hin, hne⟩ := List.mem_filter.mp hm
    obtain ⟨u, hu, hflag⟩ := h.watched m hin
    -- the monitors that are left have other flags, so they watch other sessions
    have hmid : m.id ≠ id := by
      intro he
      rw [he, ht, Option.some.injEq] at hu
      simp [← hflag, hu] at hne
    exact ⟨u, by rw [Pool.find?_discard, if_neg hmid, hu], hflag⟩

/-- A deletion begins. -/
theorem addDeletion (h : Sound limit known kept l leases creations) {d : Deletion}
    (hno : d.no = l.nextNo) :
    Sound limit known none { l with deletions := l.deletions ++ [d], nextNo := l.nextNo + 1 } leases
      creations := by
  have hperm : ({ l with deletions := l.deletions ++ [d], nextNo := l.nextNo + 1 } :
      Ledger).numbers.Perm (l.nextNo :: l.numbers) := by
    have hnumbers : ({ l with deletions := l.deletions ++ [d], nextNo := l.nextNo + 1 } :
        Ledger).numbers = l.numbers ++ [l.nextNo] := by
      simp [numbers, hno]
    rw [hnumbers]
    exact List.perm_append_comm
  exact
    { h with
      flag_lt := fun id flag hb => Nat.lt_succ_of_lt (h.flag_lt id flag hb)
      numbers_nodup := (h.numbers_of_perm hperm).1
      number_lt := (h.numbers_of_perm hperm).2
      accounts := by simp }

/-- A tracked session leaves: its monitor is stopped and its deletion begins. -/
theorem discharge (h : Sound limit known kept l leases creations) {id : SessionId} {t : Tracked}
    (ht : l.pool.find? id = some t) {d : Deletion} (hid : d.id = id) (hno : d.no = l.nextNo) :
    Sound limit known kept
      { l with
        pool := l.pool.discard id
        monitors := l.monitors.filter (·.no ≠ t.flag)
        deletions := l.deletions ++ [d]
        nextNo := l.nextNo + 1 } leases creations := by
  refine ((h.leave ht).addDeletion hno).account fun ids hids => (h.accounts ids hids).of_perm ?_
  -- the session moves from the tracked ones to those being deleted
  have hperm : (id :: (l.pool.discard id).names).Perm l.pool.names := by
    rw [Pool.names_discard]
    have hfilter : l.pool.names.filter (· ≠ id) = l.pool.names.erase id :=
      (List.filter_congr fun k _ => by by_cases he : k = id <;> simp [he]).trans
        (h.tables.names_nodup.erase_eq_filter id).symm
    rw [hfilter]
    exact (List.perm_cons_erase (Pool.mem_names_of_find? ht)).symm
  rw [sessions, sessions, List.map_append, List.map_singleton, hid, ← List.append_assoc]
  refine List.perm_append_comm.trans ?_
  rw [List.singleton_append, ← List.cons_append]
  exact hperm.append_right _

/-- A session that the server has never named before is deleted at once. -/
theorem deleteNew (h : Sound limit known kept l leases creations) {d : Deletion}
    (hnew : d.id ∉ known) (hno : d.no = l.nextNo) :
    Sound limit (d.id :: known) (kept.map (d.id :: ·))
      { l with deletions := l.deletions ++ [d], nextNo := l.nextNo + 1 } leases creations := by
  refine ((h.learn d.id).addDeletion hno).account fun ids hids => ?_
  obtain ⟨ids, hin, rfl⟩ := Option.map_eq_some_iff.mp hids
  refine (h.accounts ids hin).grow hnew ?_
  rw [sessions, List.map_append, List.map_singleton, ← List.append_assoc]
  exact List.perm_append_comm

/-- Some deletions end or are dropped, and the pool no longer answers for their sessions. -/
theorem dropDeletions (h : Sound limit known kept l leases creations) (ends : Deletion → Bool) :
    Sound limit known
      (kept.map fun ids => ids.filter fun id => !l.deletions.any fun d => ends d && d.id = id)
      { l with deletions := l.deletions.filter (!ends ·) } leases creations := by
  have hsub : ({ l with deletions := l.deletions.filter (!ends ·) } : Ledger).numbers.Sublist
      l.numbers :=
    (List.Sublist.refl _).append ((List.Sublist.refl _).append (List.filter_sublist.map _))
  refine
    { h with
      numbers_nodup := h.numbers_nodup.sublist hsub
      number_lt := fun n hn => h.number_lt n (hsub.subset hn)
      accounts := fun ids hids => ?_ }
  obtain ⟨ids, hin, rfl⟩ := Option.map_eq_some_iff.mp hids
  have haccounts := h.accounts ids hin
  suffices hsame : ({ l with deletions := l.deletions.filter (!ends ·) } : Ledger).sessions =
      l.sessions.filter fun id => !l.deletions.any fun d => ends d && d.id = id by
    rw [hsame]
    exact
      { subperm := haccounts.subperm.filter _
        perm := fun hplace => (haccounts.perm hplace).filter _
        nodup := haccounts.nodup.filter _
        known := fun id hid => haccounts.known (List.mem_of_mem_filter hid) }
  -- no tracked session is being deleted, so only deletions go
  obtain ⟨-, hids, hdisjoint⟩ := List.nodup_append.mp haccounts.sessions_nodup
  rw [sessions, sessions, List.filter_append, List.filter_map]
  congr 1
  · refine (List.filter_eq_self.mpr fun id hid => ?_).symm
    have hnone : ∀ d ∈ l.deletions, d.id ≠ id := fun d hd he =>
      hdisjoint id hid d.id (List.mem_map.mpr ⟨d, hd, rfl⟩) he.symm
    simpa using fun d hd _ => hnone d hd
  · -- the ids of the deletions are distinct, so a deletion is dropped with its id
    refine congrArg _ (List.filter_congr fun d hd => ?_)
    have hsame : (l.deletions.any fun k => ends k && k.id = d.id) = ends d := by
      rw [Bool.eq_iff_iff, List.any_eq_true]
      constructor
      · rintro ⟨k, hk, hends⟩
        rw [Bool.and_eq_true, decide_eq_true_eq] at hends
        rw [← List.inj_on_of_nodup_map hids hk hd hends.2]
        exact hends.1
      · intro hends
        exact ⟨d, hd, by simp [hends]⟩
    rw [Function.comp_apply, hsame]

/-- Monitors may stop and go on. -/
theorem withMonitors (h : Sound limit known kept l leases creations) (monitors : List Monitor)
    (hno : (monitors.map (·.no)).Sublist (l.monitors.map (·.no)))
    (hold : ∀ m ∈ monitors, ∃ m' ∈ l.monitors, m'.no = m.no ∧ m'.id = m.id) :
    Sound limit known kept { l with monitors := monitors } leases creations :=
  have hsub : ({ l with monitors := monitors } : Ledger).numbers.Sublist l.numbers :=
    (List.Sublist.refl _).append (hno.append_right _)
  { h with
    watched := fun m hm => by
      obtain ⟨m', hm', hno, hid⟩ := hold m hm
      rw [← hno, ← hid]
      exact h.watched m' hm'
    numbers_nodup := h.numbers_nodup.sublist hsub
    number_lt := fun n hn => h.number_lt n (hsub.subset hn) }

/-- A session that the server has never named before is registered and leased. -/
theorem register (h : Sound limit known kept l leases (creations + 1)) {s : SessionInfo} {now : Nat}
    (hopen : l.pool.closed = false) (hnew : s.id ∉ known) :
    Sound limit (s.id :: known) (kept.map (s.id :: ·))
      { l with
        pool := l.pool.releasePending.register s l.nextNo now
        monitors := l.monitors ++ [⟨l.nextNo, s.id, .attaching⟩]
        nextNo := l.nextNo + 1 } (⟨s.id, s.node, l.nextNo⟩ :: leases) creations := by
  have hroom : l.pool.releasePending.active.length + l.pool.releasePending.pending < limit := by
    have := h.tables.room
    have := h.pending
    simp only [Pool.releasePending]
    omega
  have hnames : s.id ∉ l.pool.names := fun hin => hnew (h.names_known hin)
  have hbears : ∀ id flag, l.pool.releasePending.Bears leases id flag → l.pool.Bears leases id flag :=
    fun _ _ hb => hb
  have hlent : l.pool.releasePending.Lent leases := h.lent.of_find? fun _ => rfl
  have hfind := l.pool.releasePending.find?_register s l.nextNo now
  have hnames' := Pool.names_register (p := l.pool.releasePending) hnames l.nextNo now
  have hnumbers : ({ l with
      pool := l.pool.releasePending.register s l.nextNo now
      monitors := l.monitors ++ [⟨l.nextNo, s.id, .attaching⟩]
      nextNo := l.nextNo + 1 } : Ledger).numbers.Perm (l.nextNo :: l.numbers) := by
    simp only [numbers, List.map_append, List.map_singleton, List.append_assoc, List.singleton_append]
    exact (List.perm_middle.append_left _).trans List.perm_middle
  -- the flag of the new session is the number of its monitor, which nobody has
  refine
    { tables := h.tables.releasePending.register hroom hopen hnames
      lent := hlent.register (fun f hb => hnew (h.bears_known (hbears _ _ hb)))
        (fun id hb => Nat.lt_irrefl _ (h.flag_lt id _ (hbears _ _ hb)))
      pending := ?_
      flag_lt := ?_
      names_known := ?_
      lease_known := ?_
      watched := ?_
      numbers_nodup := (h.numbers_of_perm hnumbers).1
      number_lt := (h.numbers_of_perm hnumbers).2
      accounts := fun ids hids => ?_
      closed := h.closed
      drains := ?_ }
  · have := h.pending
    simp only [Pool.register, Pool.releasePending]
    omega
  · rintro id flag (⟨t, ht, rfl⟩ | ⟨k, hk, rfl, rfl⟩)
    · rw [hfind] at ht
      split at ht
      · cases ht
        exact Nat.lt_succ_self _
      · exact Nat.lt_succ_of_lt (h.flag_lt id _ (Or.inl ⟨t, ht, rfl⟩))
    · rcases List.mem_cons.mp hk with rfl | hk
      · exact Nat.lt_succ_self _
      · exact Nat.lt_succ_of_lt (h.flag_lt k.id _ (Or.inr ⟨k, hk, rfl, rfl⟩))
  · rw [hnames']
    exact List.cons_subset_cons _ h.names_known
  · intro k hk
    rcases List.mem_cons.mp hk with rfl | hk
    · exact List.mem_cons_self
    · exact List.mem_cons_of_mem _ (h.lease_known k hk)
  · intro m hm
    rcases List.mem_append.mp hm with hm | hm
    · -- the other monitors watch sessions that were tracked before
      obtain ⟨t, ht, hflag⟩ := h.watched m hm
      have hne : m.id ≠ s.id := fun he => hnames (he ▸ Pool.mem_names_of_find? ht)
      exact ⟨t, by rw [hfind, if_neg hne]; exact ht, hflag⟩
    · rw [List.mem_singleton.mp hm]
      exact ⟨_, by rw [hfind, if_pos rfl], rfl⟩
  · obtain ⟨ids, hin, rfl⟩ := Option.map_eq_some_iff.mp hids
    refine (h.accounts ids hin).grow hnew ?_
    rw [sessions, hnames', List.cons_append]
    exact List.Perm.refl _
  · -- in an open pool no closing waits for creations
    intro k hk hp
    have := h.closed k hk (by rw [hp]; rfl)
    rw [hopen] at this
    cases this

/-! ## Leases and places that change hands -/

/-- The tables may change what sessions are used for, as long as they keep their names and flags. -/
theorem withPool (h : Sound limit known kept l leases creations) {pool : Pool}
    {leases' : List Handle} {creations' : Nat} (htables : pool.InOrder limit)
    (hlent : pool.Lent leases') (hpending : pool.pending = creations')
    (hnames : pool.names = l.pool.names) (hclosed : pool.closed = l.pool.closed)
    (hflags : ∀ k, (pool.find? k).map (·.flag) = (l.pool.find? k).map (·.flag))
    (hleases : ∀ k ∈ leases', k ∈ leases ∨ ∃ t, l.pool.find? k.id = some t ∧ t.flag = k.flag)
    (hdrains : 0 < l.pool.pending → 0 < pool.pending) :
    Sound limit known kept { l with pool := pool } leases' creations' := by
  -- every session of the new tables had its flag in the old ones
  have hback : ∀ k t, pool.find? k = some t → ∃ u, l.pool.find? k = some u ∧ u.flag = t.flag := by
    intro k t ht
    have := hflags k
    rw [ht, Option.map_some, eq_comm, Option.map_eq_some_iff] at this
    exact this
  refine
    { h with
      tables := htables
      lent := hlent
      pending := hpending
      flag_lt := fun id flag hb => h.flag_lt id flag (hb.mono hback hleases)
      names_known := ?_
      lease_known := ?_
      watched := ?_
      accounts := fun ids hids => (h.accounts ids hids).of_perm (.of_eq ?_)
      closed := fun k hk hc => hclosed.trans (h.closed k hk hc)
      drains := fun k hk hp => hdrains (h.drains k hk hp) }
  · rw [hnames]
    exact h.names_known
  · intro k hk
    rcases hleases k hk with hk | ⟨t, ht, -⟩
    · exact h.lease_known k hk
    · exact h.names_known (Pool.mem_names_of_find? ht)
  · intro m hm
    obtain ⟨t, ht, hflag⟩ := h.watched m hm
    have := hflags m.id
    rw [ht, Option.map_some, Option.map_eq_some_iff] at this
    obtain ⟨u, hu, hsame⟩ := this
    exact ⟨u, hu, hsame.trans hflag⟩
  · rw [sessions, hnames, sessions]

/-- A lease is given up on a session that is not tracked. -/
theorem forget {k : Handle} (h : Sound limit known kept l (k :: leases) creations)
    (hnone : l.pool.find? k.id = none) : Sound limit known kept l leases creations :=
  h.withPool h.tables (h.lent.forget hnone) h.pending rfl rfl (fun _ => rfl)
    (fun _ hk => Or.inl (List.mem_cons_of_mem _ hk)) fun hp => hp

theorem map_flag_changed {id : SessionId} {t t' : Tracked} (ht : l.pool.find? id = some t)
    (hflag : t'.flag = t.flag) (idle : List SessionId) (k : SessionId) :
    (({ l.pool with idle := idle, active := Pool.changed id t' l.pool.active } : Pool).find? k).map
      (·.flag) = (l.pool.find? k).map (·.flag) := by
  rw [Pool.find?_changed ht]
  split
  · rename_i he
    rw [he, ht, Option.map_some, Option.map_some, hflag]
  · rfl

/-- The session on top of the idle stack is leased. -/
theorem lend (h : Sound limit known kept l leases creations) {id : SessionId} {rest : List SessionId}
    {t : Tracked} (t' : Tracked) (hidle : l.pool.idle = id :: rest) (ht : l.pool.find? id = some t)
    (huse : t'.use = .leased) (hflag : t'.flag = t.flag) (node : Int) :
    Sound limit known kept
      { l with pool := { l.pool with idle := rest, active := Pool.changed id t' l.pool.active } }
      (⟨id, node, t'.flag⟩ :: leases) creations := by
  have htop : t.use = .idle := by
    obtain ⟨u, hu, huse⟩ := (h.tables.mem_idle id).mp (hidle ▸ List.mem_cons_self)
    rw [ht, Option.some.injEq] at hu
    rw [hu, huse]
  refine h.withPool (h.tables.lend hidle ht huse) (h.lent.lend ht htop huse hflag node) h.pending
    (Pool.map_fst_changed id t' l.pool.active) rfl (map_flag_changed ht hflag rest) ?_ fun hp => hp
  intro k hk
  rcases List.mem_cons.mp hk with rfl | hk
  · exact Or.inr ⟨t, ht, hflag.symm⟩
  · exact Or.inl hk

/-- A lease comes back together with its session, which becomes idle. -/
theorem takeBack {k : Handle} (h : Sound limit known kept l (k :: leases) creations) {t t' : Tracked}
    (ht : l.pool.find? k.id = some t) (huse : t'.use = .idle) (hflag : t'.flag = t.flag) :
    Sound limit known kept
      { l with pool := { l.pool with
          idle := k.id :: l.pool.idle
          active := Pool.changed k.id t' l.pool.active } } leases creations :=
  have hleased : t.use = .leased := h.lent.use_of_lease k List.mem_cons_self t ht
  h.withPool (h.tables.takeBack ht hleased huse) (h.lent.takeBack ht huse hflag _) h.pending
    (Pool.map_fst_changed k.id t' l.pool.active) rfl (map_flag_changed ht hflag _)
    (fun _ hm => Or.inl (List.mem_cons_of_mem _ hm)) fun hp => hp

/-- A place is kept for a creation. -/
theorem reserve (h : Sound limit known kept l leases creations)
    (hroom : l.pool.active.length + l.pool.pending < limit) :
    Sound limit known kept { l with pool := { l.pool with pending := l.pool.pending + 1 } } leases
      (1 + creations) :=
  h.withPool (h.tables.reserve hroom) (h.lent.of_find? fun _ => rfl)
    (by rw [h.pending, Nat.add_comm]) rfl rfl (fun _ => rfl) (fun _ hk => Or.inl hk)
    (fun _ => Nat.succ_pos _)

/-- The pool gives a number away. -/
theorem skipNo (h : Sound limit known kept l leases creations) :
    Sound limit known kept { l with nextNo := l.nextNo + 1 } leases creations :=
  { h with
    flag_lt := fun id flag hb => Nat.lt_succ_of_lt (h.flag_lt id flag hb)
    number_lt := fun n hn => Nat.lt_succ_of_lt (h.number_lt n hn) }

/-- A pool that tracks nothing is closed. -/
theorem shut (h : Sound limit known kept l leases creations) (hidle : l.pool.idle = [])
    (hactive : l.pool.active = []) :
    Sound limit known kept { l with pool := { l.pool with closed := true } } leases creations :=
  { h with
    tables := ⟨h.tables.names_nodup, h.tables.idle_nodup, h.tables.mem_idle, h.tables.room,
      fun _ => ⟨hidle, hactive⟩⟩
    lent := h.lent.of_find? fun _ => rfl
    closed := fun _ _ _ => rfl }

/-- A lease goes from the held ones to the hand of whoever returns it. -/
theorem part {calls : List Handle} {k : Handle}
    (h : Sound limit known kept l (l.held ++ calls) creations) (hk : k ∈ l.held) :
    Sound limit known kept { l with held := l.held.filter (·.flag ≠ k.flag) }
      (k :: (l.held.filter (·.flag ≠ k.flag) ++ calls)) creations := by
  -- no two leases have one flag, so a lease is found by its flag
  have hnd : l.held.Nodup := (List.Nodup.of_map _ h.lent.ids_nodup).of_append_left
  have hfilter : l.held.filter (·.flag ≠ k.flag) = l.held.erase k := by
    rw [hnd.erase_eq_filter]
    refine List.filter_congr fun m hm => ?_
    have : m.flag = k.flag ↔ m = k :=
      ⟨fun he => h.eq_of_flag_eq (List.mem_append_left _ hm) (List.mem_append_left _ hk) he,
        fun he => by rw [he]⟩
    by_cases he : m = k <;> simp [this, he]
  have hperm : (l.held ++ calls).Perm (k :: (l.held.filter (·.flag ≠ k.flag) ++ calls)) := by
    rw [hfilter, ← List.cons_append]
    exact (List.perm_cons_erase hk).append_right _
  exact (h.perm hperm).withHeld _

end Sound

/-! ## Rest and motion -/

/-- Nothing moves: the outstanding leases are those of the callers and of the calls, and the creations in
flight are those of the calls. -/
def AtRest (limit : Nat) (known : List SessionId) (kept : Option (List SessionId)) (l : Ledger) :
    Prop :=
  l.Sound limit known kept (l.held ++ Call.leases l.calls) (Call.creations l.calls)

/-- A call moves: whatever it held where it waited, it has the leases `hand` and takes up `places` places
now. -/
structure Moving (limit : Nat) (known : List SessionId) (kept : Option (List SessionId)) (no : TaskNo)
    (hand : List Handle) (places : Nat) (l : Ledger) : Prop where
  /-- The call has not ended. -/
  mem : no ∈ l.calls.map (·.no)
  /-- The ledger is sound, with the hand of the call in the place of what it held. -/
  sound : l.Sound limit known kept (hand ++ (l.held ++ Call.leases (Call.except no l.calls)))
    (places + Call.creations (Call.except no l.calls))

variable {limit : Nat} {known : List SessionId} {kept : Option (List SessionId)} {no : TaskNo}
  {l : Ledger}

/-- A call that is new holds nothing. -/
theorem AtRest.addCall (h : AtRest limit known kept l) (purpose : Purpose) (token : Token) :
    AtRest limit known kept
      { l with
        calls := l.calls ++ [⟨l.nextNo, token, 0, .fresh purpose⟩]
        nextNo := l.nextNo + 1 } := by
  have hleases : Call.leases (l.calls ++ [⟨l.nextNo, token, 0, .fresh purpose⟩]) = Call.leases l.calls := by
    simp [Call.leases, Point.lease?]
  have hcreations : Call.creations (l.calls ++ [⟨l.nextNo, token, 0, .fresh purpose⟩])
      = Call.creations l.calls := by
    simp [Call.creations, Point.creates]
  rw [AtRest, hleases, hcreations]
  exact Sound.addCall h purpose token

/-- A call begins to move with what it held where it waited. -/
theorem AtRest.moving (h : AtRest limit known kept l) {call : Call} (hcall : call ∈ l.calls) :
    Moving limit known kept call.no call.point.lease?.toList call.point.places l where
  mem := List.mem_map.mpr ⟨call, hcall, rfl⟩
  sound := by
    have hperm := Call.perm_leases h.calls_nodup hcall
    rw [← Call.creations_eq h.calls_nodup hcall]
    refine h.perm ((hperm.append_left _).trans ?_)
    rw [← List.append_assoc, ← List.append_assoc]
    exact List.perm_append_comm.append_right _

/-- A call that holds nothing may end. -/
theorem Moving.endCall (h : Moving limit known kept no [] 0 l) :
    AtRest limit known kept { l with calls := Call.except no l.calls } := by
  have := h.sound.endCall no
  rwa [List.nil_append, Nat.zero_add] at this

/-- A call that has a lease may hand it to its caller as it ends. -/
theorem Moving.handOver {k : Handle} (h : Moving limit known kept no [k] 0 l) :
    AtRest limit known kept { l with calls := Call.except no l.calls, held := l.held ++ [k] } := by
  have := (h.sound.endCall no).withHeld (l.held ++ [k])
  rw [Nat.zero_add] at this
  refine this.perm ?_
  rw [List.append_assoc, List.singleton_append]
  exact List.perm_middle.symm

/-- The calls after a creation has ended: those that wait for all creations are woken if it was the last
one. -/
def callsAfterCreation (l : Ledger) : List Call :=
  if l.pool.releasePending.pending = 0 then l.calls.map Call.wake else l.calls

theorem map_no_callsAfterCreation (l : Ledger) :
    l.callsAfterCreation.map (·.no) = l.calls.map (·.no) := by
  unfold callsAfterCreation
  split
  · rw [List.map_map]
    exact List.map_congr_left fun k _ => k.wake_no
  · rfl

theorem except_callsAfterCreation (l : Ledger) (no : TaskNo) :
    Call.except no l.callsAfterCreation
      = ({ l with calls := Call.except no l.calls } : Ledger).callsAfterCreation := by
  unfold callsAfterCreation
  split
  · exact Call.except_map Call.wake_no no l.calls
  · rfl

@[simp] theorem leases_callsAfterCreation (l : Ledger) :
    Call.leases l.callsAfterCreation = Call.leases l.calls := by
  unfold callsAfterCreation
  split
  · exact Call.leases_map Call.wake_lease? l.calls
  · rfl

@[simp] theorem creations_callsAfterCreation (l : Ledger) :
    Call.creations l.callsAfterCreation = Call.creations l.calls := by
  unfold callsAfterCreation
  split
  · exact Call.creations_map Call.wake_creates l.calls
  · rfl

/-- A call after a creation has ended waits where it waited, or has been woken. -/
theorem point_of_mem_callsAfterCreation {l : Ledger} {k : Call} (hk : k ∈ l.callsAfterCreation) :
    ∃ k' ∈ l.calls, k.point.closes = k'.point.closes ∧
      (k.point = .draining false → 0 < l.pool.releasePending.pending) := by
  unfold callsAfterCreation at hk
  split at hk
  · obtain ⟨k', hk', rfl⟩ := List.mem_map.mp hk
    refine ⟨k', hk', ?_, ?_⟩
    · rcases k'.wake_point with h | ⟨h, b, hb⟩
      · rw [h]
      · rw [h, hb]
        rfl
    · intro hp
      unfold Call.wake at hp
      split at hp
      · cases hp
      · rename_i hne
        exact absurd hp (hne false)
  · rename_i hne
    exact ⟨k, hk, rfl, fun _ => Nat.pos_of_ne_zero hne⟩

/-- A creation is no longer in flight. -/
theorem Sound.releasePending {leases : List Handle} {creations : Nat}
    (h : l.Sound limit known kept leases (creations + 1)) :
    Sound limit known kept
      { l with pool := l.pool.releasePending, calls := l.callsAfterCreation } leases creations := by
  have hpending := h.pending
  have hnumbers : ({ l with pool := l.pool.releasePending, calls := l.callsAfterCreation } :
      Ledger).numbers = l.numbers := by
    rw [numbers, numbers, ← map_no_callsAfterCreation l]
  refine
    { h with
      tables := h.tables.releasePending
      lent := h.lent.of_find? fun _ => rfl
      pending := ?_
      numbers_nodup := hnumbers ▸ h.numbers_nodup
      number_lt := fun n hn => h.number_lt n (hnumbers ▸ hn)
      closed := ?_
      drains := ?_ }
  · simp only [Pool.releasePending]
    omega
  · intro k hk hc
    obtain ⟨k', hk', hsame, -⟩ := point_of_mem_callsAfterCreation hk
    exact h.closed k' hk' (hsame ▸ hc)
  · intro k hk hp
    obtain ⟨_, _, _, hpos⟩ := point_of_mem_callsAfterCreation hk
    exact hpos hp

/-- When the place of a call that has ended is given back, the pool is at rest. -/
theorem Sound.atRest_releasePending
    (h : l.Sound limit known kept (l.held ++ Call.leases l.calls) (1 + Call.creations l.calls)) :
    AtRest limit known kept
      { l with pool := l.pool.releasePending, calls := l.callsAfterCreation } := by
  rw [Nat.add_comm] at h
  show Sound limit known kept { l with pool := l.pool.releasePending, calls := l.callsAfterCreation }
    (l.held ++ Call.leases l.callsAfterCreation) (Call.creations l.callsAfterCreation)
  rw [leases_callsAfterCreation, creations_callsAfterCreation]
  exact h.releasePending

/-- The moving call is as sound as another ledger with the same calls and held leases. -/
theorem Moving.of_sound {hand hand' : List Handle} {places places' : Nat} {l' : Ledger}
    {known' : List SessionId}
    {kept' : Option (List SessionId)} (h : Moving limit known kept no hand places l)
    (hcalls : l'.calls = l.calls) (hheld : l'.held = l.held)
    (hsound : l'.Sound limit known' kept' (hand' ++ (l.held ++ Call.leases (Call.except no l.calls)))
      (places' + Call.creations (Call.except no l.calls))) :
    Moving limit known' kept' no hand' places' l' where
  mem := hcalls ▸ h.mem
  sound := by
    rw [hcalls, hheld]
    exact hsound

/-- A call gives its place back. -/
theorem Moving.releasePending {hand : List Handle} (h : Moving limit known kept no hand 1 l) :
    Moving limit known kept no hand 0
      { l with pool := l.pool.releasePending, calls := l.callsAfterCreation } where
  mem := by
    rw [show ({ l with pool := l.pool.releasePending, calls := l.callsAfterCreation } : Ledger).calls
      = l.callsAfterCreation from rfl, map_no_callsAfterCreation]
    exact h.mem
  sound := by
    rw [except_callsAfterCreation, leases_callsAfterCreation, creations_callsAfterCreation]
    have := h.sound
    rw [Nat.add_comm] at this
    rw [Nat.zero_add]
    exact this.releasePending

/-- A call turns its place into a registered session.  In an open pool no closing waits, so the end of
the creation wakes nobody. -/
theorem Moving.register (h : Moving limit known kept no [] 1 l) {s : SessionInfo} {now : Nat}
    (hopen : l.pool.closed = false) (hnew : s.id ∉ known) :
    Moving limit (s.id :: known) (kept.map (s.id :: ·)) no [⟨s.id, s.node, l.nextNo⟩] 0
      { l with
        pool := l.pool.releasePending.register s l.nextNo now
        monitors := l.monitors ++ [⟨l.nextNo, s.id, .attaching⟩]
        nextNo := l.nextNo + 1
        calls := l.callsAfterCreation } := by
  -- the pool is open, so nobody waits for the last creation to end
  have hnone : ∀ k ∈ l.callsAfterCreation, k.point.closes = false := by
    intro k hk
    obtain ⟨k', hk', hsame, -⟩ := point_of_mem_callsAfterCreation hk
    rw [hsame, ← Bool.not_eq_true]
    intro hcloses
    have := h.sound.closed k' hk' hcloses
    rw [hopen] at this
    cases this
  have hsound := h.sound
  rw [Nat.add_comm] at hsound
  constructor
  · show no ∈ l.callsAfterCreation.map (·.no)
    rw [map_no_callsAfterCreation]
    exact h.mem
  · rw [except_callsAfterCreation, leases_callsAfterCreation, creations_callsAfterCreation, Nat.zero_add]
    refine (hsound.register hopen hnew).withCalls _ ?_ ?_ ?_
    · rw [map_no_callsAfterCreation]
    · intro k hk hc
      rw [hnone k hk] at hc
      cases hc
    · intro k hk hp
      have := hnone k hk
      rw [hp] at this
      cases this

/-- A call may wait at a point that holds what the call has. -/
theorem Moving.wait {p : Point} (h : Moving limit known kept no p.lease?.toList p.places l)
    {update : Call → Call} (hself : ∀ k, k.no = no → (update k).point = p)
    (hno : ∀ k, (update k).no = k.no) (hother : ∀ k, k.no ≠ no → update k = k)
    (hclosed : p.closes = true → l.pool.closed = true)
    (hdrains : p = .draining false → 0 < l.pool.pending) :
    AtRest limit known kept { l with calls := l.calls.map update } := by
  have hnos : (l.calls.map update).map (·.no) = l.calls.map (·.no) := by
    rw [List.map_map]
    exact List.map_congr_left fun k _ => hno k
  have hpoint : ∀ k ∈ l.calls.map update, k.point = p ∨ k ∈ l.calls := by
    intro k hk
    obtain ⟨k', hk', rfl⟩ := List.mem_map.mp hk
    by_cases he : k'.no = no
    · exact Or.inl (hself k' he)
    · exact Or.inr (by rwa [hother k' he])
  have hsound := h.sound.withCalls (l.calls.map update) (by rw [hnos])
    (fun k hk hc => (hpoint k hk).elim (fun he => hclosed (he ▸ hc)) fun hin => h.sound.closed k hin hc)
    (fun k hk hp => (hpoint k hk).elim (fun he => hdrains (he ▸ hp)) fun hin => h.sound.drains k hin hp)
  -- what the call holds at its new point is what it had in hand
  obtain ⟨call, hcall, rfl⟩ := List.mem_map.mp h.mem
  have hmoved : update call ∈ l.calls.map update := List.mem_map_of_mem hcall
  have hexcept : Call.except (update call).no (l.calls.map update) = Call.except call.no l.calls := by
    rw [hno call]
    exact Call.except_map_update hno hother l.calls
  have hperm := Call.perm_leases hsound.calls_nodup hmoved
  have hcount := Call.creations_eq hsound.calls_nodup hmoved
  rw [hexcept, hself call rfl] at hperm hcount
  rw [AtRest, hcount]
  refine hsound.perm ?_
  refine List.Perm.trans ?_ (hperm.append_left _).symm
  rw [← List.append_assoc, ← List.append_assoc]
  exact List.perm_append_comm.append_right _

end Ledger

end PooledSessions
