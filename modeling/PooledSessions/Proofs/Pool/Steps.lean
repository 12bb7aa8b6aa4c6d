import PooledSessions.Proofs.Pool.Operations
/-!
# What a move keeps

Every move of a running pool leads from rest to rest.  It is first told apart what a move can be
(`Engine.Makes`); then each kind of move is followed from what its call, monitor, deletion or lease has
in hand.  The server names at most one new session in a move (`Move.named?`), and the move says which
sessions the pool answers for afterwards (`Engine.keptAfter`).
-/

namespace PooledSessions

variable {ε α : Type}

/-- The session that the server names in a move. -/
def Move.named? : Move ε α → Option SessionId
  | .created _ (.ok s) => some s.id
  | _ => none

namespace Engine

/-! ## What a move can be -/

/-- The moves that are possible, with what makes them so and what they lead to. -/
inductive Makes [PooledError ε] (c : Setup) (e : Engine ε α) : Move ε α → Engine ε α → Prop
  | call (purpose : Purpose) (token : Token) : Makes c e (.call purpose token) (e.addCall purpose token)
  | start (call : Call) (purpose : Purpose) (hcall : e.call? call.no = some call)
      (hpoint : call.point = .fresh purpose) : Makes c e (.start call.no) (e.start c call purpose)
  | abandon (call : Call) (hcall : e.call? call.no = some call) :
      Makes c e (.abandon call.no) (e.abandon c call)
  | created (call : Call) (client : Client) (a : Attempt) (since : Nat)
      (result : Except RpcError SessionInfo) (hcall : e.call? call.no = some call)
      (hpoint : call.point = .creating client a since) (hgo : e.isCancelled call.token = false) :
      Makes c e (.created call.no result) (e.created c call client a result)
  | createExpired (call : Call) (client : Client) (a : Attempt) (since : Nat)
      (hcall : e.call? call.no = some call) (hpoint : call.point = .creating client a since)
      (hgo : e.isCancelled call.token = false)
      (hdue : since + c.createTimeout.waitMillis ≤ e.now) :
      Makes c e (.createExpired call.no)
        ((e.tell (.createAbandoned call.no)).created c call client a (.error creationTimeout))
  | operated (call : Call) (a : Attempt) (h : Handle) (since : Nat) (cancels : Bool)
      (result : Except ε α) (hcall : e.call? call.no = some call)
      (hpoint : call.point = .operating a h since) (hgo : e.isCancelled call.token = false) :
      Makes c e (.operated call.no cancels result)
        ((if cancels then e.cancel call.token else e).operated c call a h result)
  | createWoken (call : Call) (client : Client) (a : Attempt) (wake : Nat)
      (hcall : e.call? call.no = some call) (hpoint : call.point = .createPause client a wake)
      (hgo : e.isCancelled call.token = false) (hdue : wake ≤ e.now) :
      Makes c e (.woken call.no)
        (e.followCreation c call.no client (Loop.start a.next (e.isCancelled call.token)))
  | woken (call : Call) (a : Attempt) (wake : Nat) (hcall : e.call? call.no = some call)
      (hpoint : call.point = .pausing a wake) (hgo : e.isCancelled call.token = false)
      (hdue : wake ≤ e.now) :
      Makes c e (.woken call.no)
        (e.follow c call.no call.token (Loop.start a.next (e.isCancelled call.token)))
  | creationNoticed (call : Call) (client : Client) (a : Attempt) (since : Nat)
      (hcall : e.call? call.no = some call) (hpoint : call.point = .creating client a since)
      (hgo : e.isCancelled call.token = true) :
      Makes c e (.noticed call.no)
        ((e.tell (.createAbandoned call.no)).followCreation c call.no client (.fail .cancelled))
  | createPauseNoticed (call : Call) (client : Client) (a : Attempt) (wake : Nat)
      (hcall : e.call? call.no = some call) (hpoint : call.point = .createPause client a wake)
      (hgo : e.isCancelled call.token = true) :
      Makes c e (.noticed call.no) (e.followCreation c call.no client (.fail .cancelled))
  | operationNoticed (call : Call) (a : Attempt) (h : Handle) (since : Nat)
      (hcall : e.call? call.no = some call) (hpoint : call.point = .operating a h since)
      (hgo : e.isCancelled call.token = true) :
      Makes c e (.noticed call.no)
        ((e.invalidate c h.id).finish call.no (.error CallError.cancelled))
  | pauseNoticed (call : Call) (a : Attempt) (wake : Nat) (hcall : e.call? call.no = some call)
      (hpoint : call.point = .pausing a wake) (hgo : e.isCancelled call.token = true) :
      Makes c e (.noticed call.no) (e.finish call.no (.error CallError.cancelled))
  | proceed (call : Call) (hcall : e.call? call.no = some call) (hcloses : call.point.closes = true)
      (hown : call.point = .deleting → e.deletions.any (·.closer = some call.no) = false)
      (hothers : call.point = .settling → e.deletions.any (·.closer.isNone) = false)
      (hwoken : call.point ≠ .draining false) :
      Makes c e (.proceed call.no) (e.settle call.no)
  | attached (m : Monitor) (result : Except RpcError Nat) (hm : e.monitor? m.no = some m)
      (hwatch : m.watch = .attaching) : Makes c e (.attached m.no result) (e.attached m result)
  | heard (m : Monitor) (message : Except RpcError SessionStatus) (hm : e.monitor? m.no = some m)
      (hwatch : m.watch ≠ .attaching) : Makes c e (.heard m.no message) (e.heard m message)
  | streamEnded (m : Monitor) (hm : e.monitor? m.no = some m) (hwatch : m.watch ≠ .attaching) :
      Makes c e (.streamEnded m.no) (e.condemn m "stream closed")
  | deleted (d : Deletion) (result : Except RpcError Unit) (hd : e.deletion? d.no = some d) :
      Makes c e (.deleted d.no result) (e.deleted d result)
  | deletionExpired (d : Deletion) (hd : e.deletion? d.no = some d) (hdue : d.deadline ≤ e.now) :
      Makes c e (.deletionExpired d.no)
        ((e.endDeletion d.no).report .pool .warn "session delete timed out" [("session_id", d.id.text)])
  | release (h : Handle) (hh : e.held? h.flag = some h) :
      Makes c e (.release h.flag) ((e.part h.flag).giveBack c h.id)
  | invalidate (h : Handle) (hh : e.held? h.flag = some h) :
      Makes c e (.invalidate h.flag) ((e.part h.flag).invalidate c h.id)
  | drop (h : Handle) (hh : e.held? h.flag = some h) :
      Makes c e (.drop h.flag) ((e.part h.flag).loseLease c h.id)
  | invalidateId (id : SessionId) : Makes c e (.invalidateId id) (e.invalidate c id)
  | cancel (token : Token) : Makes c e (.cancel token) (e.cancel token)
  | advance (millis : Nat) : Makes c e (.advance millis) { e with now := e.now + millis }

variable {c : Setup} {e e' : Engine ε α}

theorem mem_of_call? {no : TaskNo} {call : Call} (h : e.call? no = some call) :
    call ∈ e.calls ∧ call.no = no :=
  ⟨List.mem_of_find?_eq_some h, by simpa using List.find?_some h⟩

theorem mem_of_monitor? {no : TaskNo} {m : Monitor} (h : e.monitor? no = some m) :
    m ∈ e.monitors ∧ m.no = no :=
  ⟨List.mem_of_find?_eq_some h, by simpa using List.find?_some h⟩

theorem mem_of_deletion? {no : TaskNo} {d : Deletion} (h : e.deletion? no = some d) :
    d ∈ e.deletions ∧ d.no = no :=
  ⟨List.mem_of_find?_eq_some h, by simpa using List.find?_some h⟩

/-- What has a number of its own is found by it. -/
theorem find?_of_nodup {β : Type} {number : β → TaskNo} {xs : List β} (hnd : (xs.map number).Nodup) {x : β}
    (hx : x ∈ xs) : xs.find? (number · = number x) = some x := by
  have hsome : (xs.find? (number · = number x)).isSome := List.find?_isSome.mpr ⟨x, hx, by simp⟩
  obtain ⟨y, hy⟩ := Option.isSome_iff_exists.mp hsome
  have hsame : number y = number x := by simpa using List.find?_some hy
  rw [hy, List.inj_on_of_nodup_map hnd (List.mem_of_find?_eq_some hy) hx hsame]

theorem call?_of_mem {call : Call} (hnd : (e.calls.map (·.no)).Nodup) (hcall : call ∈ e.calls) :
    e.call? call.no = some call := find?_of_nodup hnd hcall

theorem monitor?_of_mem {m : Monitor} (hnd : (e.monitors.map (·.no)).Nodup) (hm : m ∈ e.monitors) :
    e.monitor? m.no = some m := find?_of_nodup hnd hm

theorem deletion?_of_mem {d : Deletion} (hnd : (e.deletions.map (·.no)).Nodup) (hd : d ∈ e.deletions) :
    e.deletion? d.no = some d := find?_of_nodup hnd hd

theorem mem_of_held? {flag : FlagNo} {h : Handle} (hh : e.held? flag = some h) :
    h ∈ e.held ∧ h.flag = flag :=
  ⟨List.mem_of_find?_eq_some hh, by simpa using List.find?_some hh⟩

variable [PooledError ε]

theorem makes_of_woken {call : Call} (hcall : e.call? call.no = some call)
    (hgo : e.isCancelled call.token = false) (hmove : e.woken c call = some e') :
    Makes c e (.woken call.no) e' := by
  unfold woken at hmove
  split at hmove
  · rename_i client a wake hpoint
    split at hmove
    · rename_i hdue
      cases hmove
      exact .createWoken call client a wake hcall hpoint hgo hdue
    · cases hmove
  · rename_i a wake hpoint
    split at hmove
    · rename_i hdue
      cases hmove
      exact .woken call a wake hcall hpoint hgo hdue
    · cases hmove
  · cases hmove

theorem makes_of_noticed {call : Call} (hcall : e.call? call.no = some call)
    (hgo : e.isCancelled call.token = true) (hmove : e.noticed c call = some e') :
    Makes c e (.noticed call.no) e' := by
  unfold noticed at hmove
  split at hmove
  · rename_i client a since hpoint
    cases hmove
    exact .creationNoticed call client a since hcall hpoint hgo
  · rename_i client a wake hpoint
    cases hmove
    exact .createPauseNoticed call client a wake hcall hpoint hgo
  · rename_i a h since hpoint
    cases hmove
    exact .operationNoticed call a h since hcall hpoint hgo
  · rename_i a wake hpoint
    cases hmove
    exact .pauseNoticed call a wake hcall hpoint hgo
  · cases hmove

/-- A closing goes on from each of the three points at which it waits, if what it waits for has come. -/
theorem makes_of_proceed {call : Call} (hcall : e.call? call.no = some call)
    (hmove : e.proceed call = some e') : Makes c e (.proceed call.no) e' := by
  unfold proceed at hmove
  split at hmove
  · rename_i hpoint
    split at hmove
    · cases hmove
    · rename_i hnone
      cases hmove
      exact .proceed call hcall (by simp [hpoint, Point.closes]) (fun _ => by simpa using hnone)
        (by simp [hpoint]) (by simp [hpoint])
  · rename_i hpoint
    cases hmove
    exact .proceed call hcall (by simp [hpoint, Point.closes]) (by simp [hpoint]) (by simp [hpoint])
      (by simp [hpoint])
  · rename_i hpoint
    split at hmove
    · cases hmove
    · rename_i hnone
      cases hmove
      exact .proceed call hcall (by simp [hpoint, Point.closes]) (by simp [hpoint])
        (fun _ => by simpa using hnone) (by simp [hpoint])
  · cases hmove

/-- A move that is possible is one of these. -/
theorem makes_of_step {m : Move ε α} (hstep : e.step c m = some e') : Makes c e m e' := by
  cases m with
  | call purpose token =>
    cases hstep
    exact .call purpose token
  | start no =>
    obtain ⟨call, hcall, hmove⟩ := Option.bind_eq_some_iff.mp hstep
    obtain ⟨_, rfl⟩ := mem_of_call? hcall
    split at hmove
    · rename_i purpose hpoint
      cases hmove
      exact .start call purpose hcall hpoint
    · cases hmove
  | abandon no =>
    obtain ⟨call, hcall, rfl⟩ := Option.map_eq_some_iff.mp hstep
    obtain ⟨_, rfl⟩ := mem_of_call? hcall
    exact .abandon call hcall
  | created no result =>
    obtain ⟨call, hcall, hmove⟩ := Option.bind_eq_some_iff.mp hstep
    obtain ⟨_, rfl⟩ := mem_of_call? hcall
    split at hmove
    · rename_i client a since hpoint
      split at hmove
      · cases hmove
      · rename_i hgo
        cases hmove
        exact .created call client a since result hcall hpoint (by simpa using hgo)
    · cases hmove
  | createExpired no =>
    obtain ⟨call, hcall, hmove⟩ := Option.bind_eq_some_iff.mp hstep
    obtain ⟨_, rfl⟩ := mem_of_call? hcall
    split at hmove
    · rename_i client a since hpoint
      split at hmove
      · cases hmove
      · rename_i hgo
        rw [not_or, not_lt] at hgo
        cases hmove
        exact .createExpired call client a since hcall hpoint (by simpa using hgo.1) hgo.2
    · cases hmove
  | operated no cancels result =>
    obtain ⟨call, hcall, hmove⟩ := Option.bind_eq_some_iff.mp hstep
    obtain ⟨_, rfl⟩ := mem_of_call? hcall
    split at hmove
    · rename_i a h since hpoint
      split at hmove
      · cases hmove
      · rename_i hgo
        cases hmove
        exact .operated call a h since cancels result hcall hpoint (by simpa using hgo)
    · cases hmove
  | woken no =>
    obtain ⟨call, hcall, hmove⟩ := Option.bind_eq_some_iff.mp hstep
    obtain ⟨_, rfl⟩ := mem_of_call? hcall
    split at hmove
    · cases hmove
    · rename_i hgo
      exact makes_of_woken hcall (by simpa using hgo) hmove
  | noticed no =>
    obtain ⟨call, hcall, hmove⟩ := Option.bind_eq_some_iff.mp hstep
    obtain ⟨_, rfl⟩ := mem_of_call? hcall
    split at hmove
    · rename_i hgo
      exact makes_of_noticed hcall hgo hmove
    · cases hmove
  | proceed no =>
    obtain ⟨call, hcall, hmove⟩ := Option.bind_eq_some_iff.mp hstep
    obtain ⟨_, rfl⟩ := mem_of_call? hcall
    exact makes_of_proceed hcall hmove
  | attached no result =>
    obtain ⟨m, hm, hmove⟩ := Option.bind_eq_some_iff.mp hstep
    obtain ⟨_, rfl⟩ := mem_of_monitor? hm
    split at hmove
    · rename_i hwatch
      cases hmove
      exact .attached m result hm hwatch
    · cases hmove
  | heard no message =>
    obtain ⟨m, hm, hmove⟩ := Option.bind_eq_some_iff.mp hstep
    obtain ⟨_, rfl⟩ := mem_of_monitor? hm
    split at hmove
    · cases hmove
    · rename_i hwatch
      cases hmove
      exact .heard m message hm hwatch
  | streamEnded no =>
    obtain ⟨m, hm, hmove⟩ := Option.bind_eq_some_iff.mp hstep
    obtain ⟨_, rfl⟩ := mem_of_monitor? hm
    split at hmove
    · cases hmove
    · rename_i hwatch
      cases hmove
      exact .streamEnded m hm hwatch
  | deleted no result =>
    obtain ⟨d, hd, rfl⟩ := Option.map_eq_some_iff.mp hstep
    obtain ⟨_, rfl⟩ := mem_of_deletion? hd
    exact .deleted d result hd
  | deletionExpired no =>
    obtain ⟨d, hd, hmove⟩ := Option.bind_eq_some_iff.mp hstep
    obtain ⟨_, rfl⟩ := mem_of_deletion? hd
    split at hmove
    · cases hmove
    · rename_i hdue
      cases hmove
      exact .deletionExpired d hd (not_lt.mp hdue)
  | release flag =>
    obtain ⟨h, hh, rfl⟩ := Option.map_eq_some_iff.mp hstep
    obtain ⟨_, rfl⟩ := mem_of_held? hh
    exact .release h hh
  | invalidate flag =>
    obtain ⟨h, hh, rfl⟩ := Option.map_eq_some_iff.mp hstep
    obtain ⟨_, rfl⟩ := mem_of_held? hh
    exact .invalidate h hh
  | drop flag =>
    obtain ⟨h, hh, rfl⟩ := Option.map_eq_some_iff.mp hstep
    obtain ⟨_, rfl⟩ := mem_of_held? hh
    exact .drop h hh
  | invalidateId id =>
    cases hstep
    exact .invalidateId id
  | cancel token =>
    cases hstep
    exact .cancel token
  | advance millis =>
    cases hstep
    exact .advance millis

/-! ## What a move does for a call -/

variable {known : List SessionId} {kept : Option (List SessionId)} {call : Call}

omit [PooledError ε] in
/-- A call moves from the point where it waits with what it holds there. -/
theorem moving_of_call? (h : e.ledger.AtRest c.limit known kept)
    (hcall : e.call? call.no = some call) {p : Point} (hpoint : call.point = p) :
    e.ledger.Moving c.limit known kept call.no p.lease?.toList p.places :=
  hpoint ▸ h.moving (mem_of_call? hcall).1

/-- A call begins with nothing in hand. -/
theorem atRest_start (h : e.ledger.AtRest c.limit known kept)
    (hcall : e.call? call.no = some call) {purpose : Purpose} (hpoint : call.point = .fresh purpose) :
    (e.start c call purpose).ledger.AtRest c.limit known kept := by
  have hmoving := moving_of_call? h hcall hpoint
  cases purpose with
  | lease => exact atRest_acquireFor hmoving call.token .caller
  | operation idempotent => exact atRest_follow hmoving call.token _
  | closing => exact atRest_beginClose hmoving c

/-- A creation ends: the place turns into a session, stays kept or is given back. -/
theorem atRest_created (h : e.ledger.Moving c.limit known kept call.no [] 1)
    (client : Client) (a : Attempt) (result : Except RpcError SessionInfo) {s : Option SessionId}
    (hnamed : (Move.created call.no result : Move ε α).named? = s) (hnew : ∀ id ∈ s, id ∉ known) :
    (e.created c call client a result).ledger.AtRest c.limit (s.toList ++ known)
      (kept.map (s.toList ++ ·)) := by
  subst hnamed
  cases result with
  | ok s => exact atRest_register h (hnew s.id rfl) client
  | error error =>
    have hassessed : (e.assess c .creation (.rpc error) a).2.ledger.Moving c.limit known kept call.no
        [] 1 := by
      rw [ledger_assess]
      exact h
    have hkept : kept.map (([] : List SessionId) ++ ·) = kept := by simp
    exact hkept.symm ▸ atRest_followCreation hassessed c client _

/-- An operation ends: its lease comes back or is given up, and the call goes on without it. -/
theorem atRest_operated {k : Handle} (h : e.ledger.Moving c.limit known kept call.no [k] 0)
    (a : Attempt) (result : Except ε α) :
    (e.operated c call a k result).ledger.AtRest c.limit known kept := by
  cases result with
  | ok v => exact atRest_finish (moving_giveBack h) _
  | error error =>
    have hassessed : (e.assess c .operation (CallError.toFault error) a).2.ledger.Moving c.limit known
        kept call.no [k] 0 := by
      rw [ledger_assess]
      exact h
    refine atRest_follow ?_ call.token _
    dsimp only
    split
    · exact moving_invalidate hassessed
    · exact moving_giveBack hassessed

/-! ## What the pool answers for -/

/-- Whether a deletion ends with a move, or is dropped by it. -/
def endsWith (e : Engine ε α) (m : Move ε α) (d : Deletion) : Bool :=
  match m with
  | .deleted no _ => d.no = no
  | .deletionExpired no => d.no = no
  | .abandon no => (e.call? no).any (·.point = .deleting) && d.closer = some no
  | _ => false

/-- The sessions that the pool answers for after a move. -/
def keptAfter (e : Engine ε α) (m : Move ε α) (kept : List SessionId) : List SessionId :=
  m.named?.toList ++ kept.filter fun id => !e.deletions.any fun d => e.endsWith m d && d.id = id

omit [PooledError ε] in
theorem keptAfter_of_endsWith {m : Move ε α} (hnone : ∀ d ∈ e.deletions, e.endsWith m d = false)
    (ids : List SessionId) : e.keptAfter m ids = m.named?.toList ++ ids := by
  have hall : ∀ id, (!e.deletions.any fun d => e.endsWith m d && d.id = id) = true := by
    intro id
    simpa using fun d hd hends => absurd hends (by simp [hnone d hd])
  rw [keptAfter, List.filter_eq_self.mpr fun id _ => hall id]

omit [PooledError ε] in
theorem keptAfter_subperm {ids ids' : List SessionId} (h : ids.Subperm ids') (m : Move ε α) :
    (e.keptAfter m ids).Subperm (e.keptAfter m ids') :=
  (List.subperm_append_left _).mpr (h.filter _)

omit [PooledError ε] in
theorem keptAfter_perm {ids ids' : List SessionId} (h : ids.Perm ids') (m : Move ε α) :
    (e.keptAfter m ids).Perm (e.keptAfter m ids') :=
  (h.filter _).append_left _

omit [PooledError ε] in
/-- The pool goes on answering for its sessions in a move that names no session and ends no deletion. -/
theorem map_keptAfter {m : Move ε α} (hnone : ∀ d ∈ e.deletions, e.endsWith m d = false)
    (hnamed : m.named? = none) : kept.map (e.keptAfter m) = kept := by
  have hid : e.keptAfter m = id := by
    funext ids
    rw [keptAfter_of_endsWith hnone, hnamed]
    rfl
  rw [hid, Option.map_id_fun, id_eq]

omit [PooledError ε] in
/-- A call that is dropped gives up what it holds. -/
theorem atRest_abandon (h : e.ledger.AtRest c.limit known kept) (hcall : e.call? call.no = some call) :
    (e.abandon c call).ledger.AtRest c.limit known (kept.map (e.keptAfter (.abandon call.no))) := by
  have hsound : (e.endCall call.no).ledger.Sound c.limit known kept
      (call.point.lease?.toList ++ (e.held ++ Call.leases (e.endCall call.no).calls))
      (call.point.places + Call.creations (e.endCall call.no).calls) :=
    (h.moving (mem_of_call? hcall).1).sound.endCall call.no
  -- only a closing that waits for its own deletions drops any
  have hkept : call.point ≠ .deleting → kept.map (e.keptAfter (.abandon call.no)) = kept := by
    intro hne
    refine map_keptAfter (fun d _ => ?_) rfl
    simp [endsWith, hcall, hne]
  cases hpoint : call.point with
  | creating client a since =>
    rw [hkept (by simp [hpoint]), abandon, hpoint]
    rw [hpoint] at hsound
    exact hsound.atRest_releasePending
  | createPause client a wake =>
    rw [hkept (by simp [hpoint]), abandon, hpoint]
    rw [hpoint] at hsound
    exact hsound.atRest_releasePending
  | operating a k since =>
    rw [hpoint, Point.places_eq_zero rfl, Nat.zero_add] at hsound
    rw [hkept (by simp [hpoint]), abandon, hpoint]
    exact atRest_loseLease hsound
  | deleting =>
    have hends : ∀ d, e.endsWith (.abandon call.no) d = decide (d.closer = some call.no) := by
      intro d
      simp [endsWith, hcall, hpoint]
    rw [hpoint, Point.places_eq_zero rfl, Nat.zero_add] at hsound
    have hdropped := hsound.dropDeletions fun d => d.closer = some call.no
    have hledger : (e.abandon c call).ledger = { (e.endCall call.no).ledger with
        deletions := e.deletions.filter fun d => !decide (d.closer = some call.no) } := by
      rw [abandon, hpoint]
      simp only [decide_not]
      rfl
    have hkept' : e.keptAfter (.abandon call.no) = fun ids => ids.filter fun id =>
        !e.deletions.any fun d => decide (d.closer = some call.no) && d.id = id := by
      funext ids
      simp [keptAfter, hends, Move.named?]
    rw [hledger, hkept']
    exact hdropped
  | fresh _ | pausing _ _ | draining _ | settling =>
    rw [hpoint, Point.places_eq_zero rfl, Nat.zero_add] at hsound
    rw [hkept (by simp [hpoint]), abandon, hpoint]
    exact hsound

omit [PooledError ε] in
/-- A deletion ends, and the pool no longer answers for its session. -/
theorem atRest_endDeletion (h : e.ledger.AtRest c.limit known kept) {m : Move ε α} {d : Deletion}
    (hends : ∀ k, e.endsWith m k = decide (k.no = d.no)) (hnamed : m.named? = none) :
    (e.endDeletion d.no).ledger.AtRest c.limit known (kept.map (e.keptAfter m)) := by
  have hkept : e.keptAfter m = fun ids => ids.filter fun id =>
      !e.deletions.any fun k => decide (k.no = d.no) && k.id = id := by
    funext ids
    simp [keptAfter, hends, hnamed]
  have hdropped := Ledger.Sound.dropDeletions h fun k => k.no = d.no
  simp only [← decide_not] at hdropped
  rw [hkept]
  exact hdropped

omit [PooledError ε] in
/-- A monitor that finds its session dead ends. -/
theorem atRest_condemn (h : e.ledger.AtRest c.limit known kept) (m : Monitor) (reason : String) :
    (e.condemn m reason).ledger.AtRest c.limit known kept := by
  have hstopped := Ledger.Sound.withMonitors h
    (e.monitors.filter (·.no ≠ m.no)) (List.filter_sublist.map _)
    fun k hk => ⟨k, List.mem_of_mem_filter hk, rfl, rfl⟩
  unfold condemn
  dsimp only
  split
  · exact hstopped
  · exact hstopped

omit [PooledError ε] in
/-- A monitor goes on listening, or ends. -/
theorem atRest_attached (h : e.ledger.AtRest c.limit known kept) (m : Monitor)
    (result : Except RpcError Nat) : (e.attached m result).ledger.AtRest c.limit known kept := by
  cases result with
  | ok stream =>
    let listen : Monitor → Monitor := fun k =>
      if k.no = m.no then { k with watch := .listening stream } else k
    have hno : ∀ k, (listen k).no = k.no := by
      intro k
      simp only [listen]
      split <;> rfl
    have hid : ∀ k, (listen k).id = k.id := by
      intro k
      simp only [listen]
      split <;> rfl
    have hnos : (e.monitors.map listen).map (·.no) = e.monitors.map (·.no) := by
      rw [List.map_map]
      exact List.map_congr_left fun k _ => hno k
    refine Ledger.Sound.withMonitors h (e.monitors.map listen) ?_ ?_
    · rw [hnos]
      exact List.Sublist.refl _
    · intro k hk
      obtain ⟨k', hk', rfl⟩ := List.mem_map.mp hk
      exact ⟨k', hk', (hno k').symm, (hid k').symm⟩
  | error error => exact atRest_condemn h m _

omit [PooledError ε] in
theorem atRest_heard (h : e.ledger.AtRest c.limit known kept) (m : Monitor)
    (message : Except RpcError SessionStatus) :
    (e.heard m message).ledger.AtRest c.limit known kept := by
  rcases message with error | status
  · exact atRest_condemn h m _
  · cases status with
    | ready => exact h
    | unusable code => exact atRest_condemn h m _

/-- Every move leads from rest to rest. -/
theorem atRest_step {m : Move ε α} (h : e.ledger.AtRest c.limit known kept)
    (hstep : e.step c m = some e') (hnew : ∀ id ∈ m.named?, id ∉ known) :
    e'.ledger.AtRest c.limit (m.named?.toList ++ known) (kept.map (e.keptAfter m)) := by
  -- in all moves but those that name a session or end a deletion, the pool answers for the same sessions
  cases makes_of_step hstep with
  | call purpose token =>
    rw [map_keptAfter (fun _ _ => rfl) rfl]
    exact h.addCall purpose token
  | start call purpose hcall hpoint =>
    rw [map_keptAfter (fun _ _ => rfl) rfl]
    exact atRest_start h hcall hpoint
  | abandon call hcall => exact atRest_abandon h hcall
  | created call client a since result hcall hpoint =>
    have hmoving := moving_of_call? h hcall hpoint
    rw [funext (keptAfter_of_endsWith (m := .created call.no result) fun _ _ => rfl)]
    exact atRest_created hmoving client a result rfl hnew
  | createExpired call client a since hcall hpoint =>
    have hmoving := moving_of_call? h hcall hpoint
    rw [funext (keptAfter_of_endsWith (m := .createExpired call.no) fun _ _ => rfl)]
    exact atRest_created (e := e.tell _) (s := none) hmoving client a (.error creationTimeout) rfl
      (by simp)
  | operated call a k since cancels result hcall hpoint =>
    have hmoving := moving_of_call? h hcall hpoint
    rw [map_keptAfter (fun _ _ => rfl) rfl]
    refine atRest_operated ?_ a result
    split
    · rw [ledger_cancel]
      exact hmoving
    · exact hmoving
  | createWoken call client a wake hcall hpoint =>
    have hmoving := moving_of_call? h hcall hpoint
    rw [map_keptAfter (fun _ _ => rfl) rfl]
    exact atRest_followCreation hmoving c client _
  | woken call a wake hcall hpoint =>
    have hmoving := moving_of_call? h hcall hpoint
    rw [map_keptAfter (fun _ _ => rfl) rfl]
    exact atRest_follow hmoving call.token _
  | creationNoticed call client a since hcall hpoint =>
    have hmoving := moving_of_call? h hcall hpoint
    rw [map_keptAfter (fun _ _ => rfl) rfl]
    exact atRest_followCreation (e := e.tell _) hmoving c client _
  | createPauseNoticed call client a wake hcall hpoint =>
    have hmoving := moving_of_call? h hcall hpoint
    rw [map_keptAfter (fun _ _ => rfl) rfl]
    exact atRest_followCreation hmoving c client _
  | operationNoticed call a k since hcall hpoint =>
    have hmoving := moving_of_call? h hcall hpoint
    rw [map_keptAfter (fun _ _ => rfl) rfl]
    exact atRest_finish (moving_invalidate hmoving) _
  | pauseNoticed call a wake hcall hpoint =>
    have hmoving := moving_of_call? h hcall hpoint
    rw [map_keptAfter (fun _ _ => rfl) rfl]
    exact atRest_finish hmoving _
  | proceed call hcall hcloses =>
    have hin := (mem_of_call? hcall).1
    have hmoving := h.moving hin
    have hnothing : call.point.lease? = none ∧ call.point.creates = false := by
      cases hpoint : call.point <;> simp [hpoint, Point.closes, Point.lease?, Point.creates] at hcloses ⊢
    rw [hnothing.1, Point.places_eq_zero hnothing.2] at hmoving
    rw [map_keptAfter (fun _ _ => rfl) rfl]
    exact atRest_settle hmoving (Ledger.Sound.closed h call hin hcloses)
  | attached m result =>
    rw [map_keptAfter (fun _ _ => rfl) rfl]
    exact atRest_attached h m result
  | heard m message =>
    rw [map_keptAfter (fun _ _ => rfl) rfl]
    exact atRest_heard h m message
  | streamEnded m =>
    rw [map_keptAfter (fun _ _ => rfl) rfl]
    exact atRest_condemn h m _
  | deleted d result hd =>
    have hended := atRest_endDeletion (m := .deleted d.no result) h (fun k => rfl) rfl
    cases result with
    | ok _ => exact hended
    | error _ => exact hended
  | deletionExpired d hd =>
    exact atRest_endDeletion (m := .deletionExpired d.no) h (fun k => rfl) rfl
  | release k hk =>
    rw [map_keptAfter (fun _ _ => rfl) rfl]
    exact atRest_giveBack (e := e.part k.flag) (Ledger.Sound.part h (mem_of_held? hk).1)
  | invalidate k hk =>
    rw [map_keptAfter (fun _ _ => rfl) rfl]
    exact atRest_invalidate (e := e.part k.flag) (Ledger.Sound.part h (mem_of_held? hk).1)
  | drop k hk =>
    rw [map_keptAfter (fun _ _ => rfl) rfl]
    exact atRest_loseLease (e := e.part k.flag) (Ledger.Sound.part h (mem_of_held? hk).1)
  | invalidateId id =>
    rw [map_keptAfter (fun _ _ => rfl) rfl]
    exact (sameHands_invalidate e c id).atRest (sound_invalidate h id)
  | cancel token =>
    rw [map_keptAfter (fun _ _ => rfl) rfl, ledger_cancel]
    exact h
  | advance millis =>
    rw [map_keptAfter (fun _ _ => rfl) rfl]
    exact h

end Engine

end PooledSessions
